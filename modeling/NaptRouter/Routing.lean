import NaptRouter.DeltaList
import NaptRouter.Lib.BestMatch

/-!
# Masks and routing

`create_subnet_mask` fills in the first three octets only: of a prefix longer than 24 bits it
makes the mask of 24 (`bit_createSubnetMask`).

* `getInterfaceForIp_best_iff` — the interface chosen is the longest match exactly when no row
  with a longer prefix misleads the choice.
* `nextHop_setWan_iff` — the next hop is the one that the configured netmask says exactly when
  the bits that the mask loses do not matter.
-/

namespace NaptRouter

open ByteMemory BestMatch

/-! ## The bits of an address -/

namespace IpAddr

/-- An octet of the address. -/
def octet (ip : IpAddr) (j : Nat) : UInt8 := ip.bytes.getD j 0

/-- Bit `i` of the address, from the left. -/
def bit (ip : IpAddr) (i : Nat) : Bool := (ip.octet (i / 8)).toNat.testBit (7 - i % 8)

/-- The first `len` bits are the same. -/
def Agree (len : Nat) (ip ip' : IpAddr) : Prop := ∀ i < len, ip.bit i = ip'.bit i

instance (len : Nat) (ip ip' : IpAddr) : Decidable (Agree len ip ip') :=
  inferInstanceAs (Decidable (∀ i < len, _))

/-- The bits from `lo` to `hi` are zero. -/
def ZeroBits (lo hi : Nat) (ip : IpAddr) : Prop := ∀ i < hi, lo ≤ i → ip.bit i = false

instance (lo hi : Nat) (ip : IpAddr) : Decidable (ZeroBits lo hi ip) :=
  inferInstanceAs (Decidable (∀ i < hi, _))

end IpAddr

open IpAddr

theorem octet_inj {a b : UInt8} (h : ∀ t < 8, a.toNat.testBit (7 - t) = b.toNat.testBit (7 - t)) :
    a = b := by
  refine UInt8.toNat_inj.1 (Nat.eq_of_testBit_eq fun k => ?_)
  by_cases hk : k < 8
  · have := h (7 - k) (by omega)
    rwa [show 7 - (7 - k) = k by omega] at this
  · have hle : 2 ^ 8 ≤ 2 ^ k := Nat.pow_le_pow_right (by decide) (by omega)
    rw [Nat.testBit_lt_two_pow (lt_of_lt_of_le a.toNat_lt hle),
      Nat.testBit_lt_two_pow (lt_of_lt_of_le b.toNat_lt hle)]

/-- An address is its 32 bits. -/
theorem ipAddr_ext {a b : IpAddr} : a = b ↔ Agree 32 a b := by
  refine ⟨fun h => h ▸ fun _ _ => rfl, fun h => ?_⟩
  have hoctet (j : Nat) (hj : j < 4) : a.octet j = b.octet j := by
    refine octet_inj fun t ht => ?_
    have hbit := h (8 * j + t) (by omega)
    rwa [bit, bit, show (8 * j + t) / 8 = j by omega, show (8 * j + t) % 8 = t by omega] at hbit
  cases a
  cases b
  rw [IpAddr.mk.injEq]
  exact ⟨hoctet 0 (by decide), hoctet 1 (by decide), hoctet 2 (by decide), hoctet 3 (by decide)⟩

theorem bit_applyMask (mask ip : IpAddr) (i : Nat) :
    (applyMask mask ip).bit i = (mask.bit i && ip.bit i) := by
  have hoctet (j : Nat) : (applyMask mask ip).octet j = mask.octet j &&& ip.octet j := by
    match j with
    | 0 | 1 | 2 | 3 => rfl
    | _ + 4 => exact (by decide : (0 : UInt8) = 0 &&& 0)
  rw [bit, hoctet, UInt8.toNat_and, Nat.testBit_and]
  rfl

/-- **The mask of a prefix**, up to 24 bits of it. -/
theorem bit_createSubnetMask {len : Nat} (hlen : len < 256) {i : Nat} (hi : i < 32) :
    (createSubnetMask (UInt8.ofNat len)).bit i = decide (i < min len 24) := by
  have hshort : ∀ len < 25, ∀ i < 32,
      (createSubnetMask (UInt8.ofNat len)).bit i = decide (i < len) := by
    decide +kernel
  have hlong : ∀ len < 256, 24 ≤ len →
      createSubnetMask (UInt8.ofNat len) = createSubnetMask (UInt8.ofNat 24) := by
    decide +kernel
  rcases Nat.le_total len 24 with hle | hle
  · rw [hshort len (by omega) i hi, Nat.min_eq_left hle]
  · rw [hlong len hlen hle, hshort 24 (by decide) i hi, Nat.min_eq_right hle]

theorem masked_eq_iff {len : Nat} (hlen : len < 256) {ip network : IpAddr} :
    applyMask (createSubnetMask (UInt8.ofNat len)) ip = network ↔
      Agree (min len 24) network ip ∧ ZeroBits (min len 24) 32 network := by
  rw [ipAddr_ext]
  constructor
  · intro h
    refine ⟨fun i hi => ?_, fun i hi hle => ?_⟩
    · have hbit := h i (by omega)
      rw [bit_applyMask, bit_createSubnetMask hlen (by omega), decide_eq_true hi] at hbit
      exact hbit.symm
    · have hbit := h i hi
      rw [bit_applyMask, bit_createSubnetMask hlen hi, decide_eq_false (by omega)] at hbit
      exact hbit.symm
  · intro hboth i hi
    obtain ⟨hagree, hzero⟩ := hboth
    rw [bit_applyMask, bit_createSubnetMask hlen hi]
    by_cases hlt : i < min len 24
    · rw [decide_eq_true hlt, hagree i hlt, Bool.true_and]
    · rw [decide_eq_false hlt, hzero i hi (by omega), Bool.false_and]

/-! ## The interface for an address -/

namespace Config

variable (cfg : Config)

def prefixLen (i : cfg.IntId) : Nat := (cfg.interfaceArr i).cidrPrefixLen.toNat

/-- The first `cidr_prefix_len` bits of the row's network agree with the address. -/
def Matches (ip : IpAddr) (i : cfg.IntId) : Prop :=
  Agree (cfg.prefixLen i) (cfg.interfaceArr i).networkIp ip

/-- A row with a longer prefix than the mask has room for: the first 24 bits agree, and then
`get_interface_for_ip` takes it if its last octet is 0, whatever the address has there. -/
def Misjudged (ip : IpAddr) (i : cfg.IntId) : Prop :=
  24 < cfg.prefixLen i ∧ Agree 24 (cfg.interfaceArr i).networkIp ip ∧
    (cfg.Matches ip i ↔ ¬ ZeroBits 24 32 (cfg.interfaceArr i).networkIp)

instance (ip : IpAddr) (i : cfg.IntId) : Decidable (cfg.Matches ip i) :=
  inferInstanceAs (Decidable (Agree _ _ _))

instance (ip : IpAddr) (i : cfg.IntId) : Decidable (cfg.Misjudged ip i) :=
  inferInstanceAs (Decidable (_ ∧ _ ∧ _))

/-- The interface tables in question. -/
structure RoutingTable : Prop where
  prefixLen_le : ∀ i, cfg.prefixLen i ≤ 32
  hostBits : ∀ i, ZeroBits (cfg.prefixLen i) 32 (cfg.interfaceArr i).networkIp
  fallback : ∃ i, cfg.prefixLen i = 0 ∧ (cfg.interfaceArr i).networkIp = ⟨0, 0, 0, 0⟩

/-- The test of `get_interface_for_ip`. -/
def rowTest (ip : IpAddr) (i : cfg.IntId) : Bool :=
  ipAddrEquals (applyMask (cfg.interfaceGetSubnetMask i) ip) (cfg.interfaceArr i).networkIp

end Config

section Rows

variable {cfg : Config} {ip : IpAddr}

theorem rowTest_iff {i : cfg.IntId} : cfg.rowTest ip i = true ↔
    Agree (min (cfg.prefixLen i) 24) (cfg.interfaceArr i).networkIp ip ∧
      ZeroBits (min (cfg.prefixLen i) 24) 32 (cfg.interfaceArr i).networkIp := by
  rw [Config.rowTest, ipAddrEquals_iff, Config.prefixLen,
    ← masked_eq_iff (UInt8.toNat_lt _), UInt8.ofNat_toNat]
  rfl

/-- The code misjudges the rows that it must, and no others. -/
theorem rowTest_differs_iff (hT : cfg.RoutingTable) {i : cfg.IntId} :
    ¬ (cfg.Matches ip i ↔ cfg.rowTest ip i = true) ↔ cfg.Misjudged ip i := by
  rw [rowTest_iff, Config.Misjudged]
  have hhost := hT.hostBits i
  rcases Nat.lt_or_ge 24 (cfg.prefixLen i) with hlong | hshort
  · rw [Nat.min_eq_right hlong.le]
    have hmono : cfg.Matches ip i → Agree 24 (cfg.interfaceArr i).networkIp ip :=
      fun h j hj => h j (hj.trans hlong)
    tauto
  · rw [Nat.min_eq_left hshort]
    have hnot : ¬ 24 < cfg.prefixLen i := Nat.not_lt.2 hshort
    have hiff : cfg.Matches ip i ↔ Agree (cfg.prefixLen i) (cfg.interfaceArr i).networkIp ip :=
      Iff.rfl
    tauto

theorem matches_fallback (hT : cfg.RoutingTable) : ∃ i, cfg.Matches ip i := by
  obtain ⟨i, hlen, -⟩ := hT.fallback
  refine ⟨i, ?_⟩
  rw [Config.Matches, hlen]
  exact fun _ hj => absurd hj (Nat.not_lt_zero _)

theorem rowTest_fallback (hT : cfg.RoutingTable) : ∃ i, cfg.rowTest ip i = true := by
  obtain ⟨i, hlen, -⟩ := hT.fallback
  refine ⟨i, rowTest_iff.2 ?_⟩
  have hhost := hT.hostBits i
  rw [hlen] at hhost ⊢
  exact ⟨fun _ hj => absurd hj (Nat.not_lt_zero _), hhost⟩

theorem matchInterface_eq (hT : cfg.RoutingTable) (best : cfg.IntId × Int) (i : cfg.IntId) :
    cfg.matchInterface ip best i = step cfg.prefixLen (cfg.rowTest ip) best i := by
  have hle := hT.prefixLen_le i
  have hbmod : Int.bmod (cfg.interfaceArr i).cidrPrefixLen.toNat 256 = cfg.prefixLen i :=
    Int.bmod_eq_of_le (by omega) (by rw [Config.prefixLen] at hle; omega)
  rw [Config.matchInterface, step, hbmod]
  rfl

theorem getInterfaceForIp_rowTest (hT : cfg.RoutingTable) :
    Best cfg.prefixLen (fun i => cfg.rowTest ip i = true) (cfg.getInterfaceForIp ip) := by
  have hfold : cfg.getInterfaceForIp ip = ((List.finRange cfg.amt).foldl
      (step cfg.prefixLen (cfg.rowTest ip)) (cfg.uninitIntId, -1)).1 := by
    rw [← funext₂ (matchInterface_eq hT)]
    rfl
  rw [hfold]
  exact scan_best (rowTest_fallback hT) _

/-- A table of at most 255 rows is scanned to its end. -/
theorem interfaceLoop_eq (hamt : cfg.amt ≤ 255) (fuel : Nat) {i : UInt8} (hi : i.toNat ≤ cfg.amt)
    (best : cfg.IntId × Int) :
    cfg.interfaceLoop ip fuel i best =
      if cfg.amt - i.toNat < fuel then
        some (((List.finRange cfg.amt).drop i.toNat).foldl (cfg.matchInterface ip) best).1
      else none := by
  induction fuel generalizing i best with
  | zero => rfl
  | succ fuel ih =>
    rw [Config.interfaceLoop]
    split_ifs with hlt hfuel hfuel
    · have hnext : (i + 1).toNat = i.toNat + 1 := by
        rw [UInt8.toNat_add, UInt8.toNat_one, Nat.mod_eq_of_lt (by omega)]
      have hdrop : (List.finRange cfg.amt).drop i.toNat =
          ⟨i.toNat, hlt⟩ :: (List.finRange cfg.amt).drop (i.toNat + 1) := by
        rw [List.drop_eq_getElem_cons (by simpa using hlt), List.getElem_finRange]
        rfl
      rw [ih (by omega), hnext, if_pos (by omega), hdrop, List.foldl_cons]
    · have hnext : (i + 1).toNat = i.toNat + 1 := by
        rw [UInt8.toNat_add, UInt8.toNat_one, Nat.mod_eq_of_lt (by omega)]
      rw [ih (by omega), hnext, if_neg (by omega)]
    · have hend : i.toNat = cfg.amt := by omega
      rw [hend, List.drop_of_length_le (by simp)]
      rfl
    · omega

theorem interfaceLoop_never (hamt : 255 < cfg.amt) (fuel : Nat) (i : UInt8)
    (best : cfg.IntId × Int) : cfg.interfaceLoop ip fuel i best = none := by
  induction fuel generalizing i best with
  | zero => rfl
  | succ fuel ih =>
    have hi : i.toNat < cfg.amt := lt_of_lt_of_le i.toNat_lt hamt
    rw [Config.interfaceLoop, dif_pos hi]
    exact ih ..

/-- **Longest-prefix routing.** The interface chosen is the longest match, the first among equals,
exactly when the index of the loop can reach the end of the table and every row that the mask
misjudges is outranked by a match. -/
theorem getInterfaceForIp_best_iff (hT : cfg.RoutingTable) (ip : IpAddr) :
    (∃ fuel i, cfg.interfaceLoop ip fuel 0 (cfg.uninitIntId, -1) = some i ∧
      Best cfg.prefixLen (cfg.Matches ip) i) ↔
    cfg.amt ≤ 255 ∧ ∀ i, cfg.Misjudged ip i →
      ∃ j, cfg.Matches ip j ∧ Outranks cfg.prefixLen j i := by
  have hbest : Best cfg.prefixLen (cfg.Matches ip) (cfg.getInterfaceForIp ip) ↔
      ∀ i, cfg.Misjudged ip i → ∃ j, cfg.Matches ip j ∧ Outranks cfg.prefixLen j i := by
    rw [(getInterfaceForIp_rowTest hT).iff_of_outranked (matches_fallback hT)]
    exact forall_congr' fun i => imp_congr_left (rowTest_differs_iff hT)
  rw [← hbest]
  constructor
  · intro hex
    obtain ⟨fuel, i, hloop, hi⟩ := hex
    rcases Nat.lt_or_ge 255 cfg.amt with hamt | hamt
    · rw [interfaceLoop_never hamt] at hloop
      cases hloop
    · rw [interfaceLoop_eq hamt fuel (Nat.zero_le _)] at hloop
      split_ifs at hloop
      have heq : cfg.getInterfaceForIp ip = i := Option.some.inj hloop
      exact ⟨hamt, heq ▸ hi⟩
  · intro hboth
    obtain ⟨hamt, hi⟩ := hboth
    refine ⟨cfg.amt + 1, _, ?_, hi⟩
    rw [interfaceLoop_eq hamt _ (Nat.zero_le _), if_pos (Nat.lt_succ_of_le (Nat.sub_le _ _))]
    rfl

end Rows

/-- A table with half a `/24` network on the LAN side. -/
def halfConfig : Config :=
  { shippedConfig with
    interfaceArr := ![
      { deviceMacAddr := ⟨0, 0, 0, 0, 0, 0⟩, networkIp := ⟨10, 0, 0, 128⟩,
        interfaceIp := ⟨10, 0, 0, 129⟩, cidrPrefixLen := 25, type := .ether, side := .lan },
      { deviceMacAddr := ⟨0, 0, 0, 0, 0, 0⟩, networkIp := ⟨0, 0, 0, 0⟩,
        interfaceIp := ⟨192, 168, 0, 2⟩, cidrPrefixLen := 0, type := .ether, side := .wan }] }

theorem halfConfig_routingTable : halfConfig.RoutingTable :=
  ⟨by decide +kernel, by decide +kernel, (1 : Fin 2), by decide, by decide⟩

/-- The other half of the network goes to the WAN side, as it must. -/
theorem getInterfaceForIp_best_half :
    ∃ fuel i, halfConfig.interfaceLoop ⟨10, 0, 0, 5⟩ fuel 0 (halfConfig.uninitIntId, -1) = some i ∧
      Best halfConfig.prefixLen (halfConfig.Matches ⟨10, 0, 0, 5⟩) i := by
  have hnone : ∀ i, ¬ halfConfig.Misjudged ⟨10, 0, 0, 5⟩ i := by decide +kernel
  exact (getInterfaceForIp_best_iff halfConfig_routingTable _).2
    ⟨by decide, fun i hi => absurd hi (hnone i)⟩

/-- So does an address of the LAN side. -/
theorem getInterfaceForIp_best_fails :
    halfConfig.RoutingTable ∧
      halfConfig.getInterfaceForIp ⟨10, 0, 0, 200⟩ = halfConfig.interfaceGetWanId ∧
      halfConfig.Matches ⟨10, 0, 0, 200⟩ (0 : Fin 2) ∧
      ¬ ∃ fuel i, halfConfig.interfaceLoop ⟨10, 0, 0, 200⟩ fuel 0 (halfConfig.uninitIntId, -1) =
        some i ∧ Best halfConfig.prefixLen (halfConfig.Matches ⟨10, 0, 0, 200⟩) i := by
  have hchosen : halfConfig.getInterfaceForIp ⟨10, 0, 0, 200⟩ = halfConfig.interfaceGetWanId := by
    decide +kernel
  have hmatch : halfConfig.Matches ⟨10, 0, 0, 200⟩ (0 : Fin 2) := by
    unfold Config.Matches
    decide +kernel
  have hlong : ¬ Outranks halfConfig.prefixLen halfConfig.interfaceGetWanId (0 : Fin 2) := by
    unfold Outranks
    decide +kernel
  refine ⟨halfConfig_routingTable, hchosen, hmatch, ?_⟩
  rintro ⟨fuel, i, hloop, hbest⟩
  rw [interfaceLoop_eq (by decide) fuel (Nat.zero_le _)] at hloop
  split_ifs at hloop
  have heq : halfConfig.getInterfaceForIp ⟨10, 0, 0, 200⟩ = i := Option.some.inj hloop
  rw [hchosen] at heq
  subst heq
  exact hlong (hbest.best _ hmatch (show (0 : Fin 2) ≠ 1 by decide))

/-! ## The next hop on the WAN side -/

/-- A netmask of `len` bits. -/
def IpAddr.IsNetmask (mask : IpAddr) (len : Nat) : Prop := ∀ i < 32, mask.bit i = decide (i < len)

/-- An octet with its first `len` bits set. -/
def octetMask (len : Nat) : UInt8 := UInt8.ofNat (256 - 2 ^ (8 - min 8 len))

/-- The netmask of `len` bits. -/
def netmask (len : Nat) : IpAddr :=
  ⟨octetMask len, octetMask (len - 8), octetMask (len - 16), octetMask (len - 24)⟩

theorem netmask_unique {mask : IpAddr} {len : Nat} (hlen : len ≤ 32) (hmask : mask.IsNetmask len) :
    mask = netmask len := by
  have hall : ∀ len < 33, ∀ i < 32, (netmask len).bit i = decide (i < len) := by decide +kernel
  exact ipAddr_ext.2 fun i hi => (hmask i hi).trans (hall len (by omega) i hi).symm

/-- **What `prefix_len_get` returns for a netmask**: its length, but nothing for the netmask of
32 bits. -/
theorem prefixLenGet_eq {mask : IpAddr} {len : Nat} (hlen : len ≤ 32)
    (hmask : mask.IsNetmask len) :
    prefixLenGet mask = if len < 32 then some len else none := by
  have hall : ∀ len < 33, prefixLenGet (netmask len) = if len < 32 then some len else none := by
    decide +kernel
  rw [netmask_unique hlen hmask, hall len (by omega)]

/-- How many bits `send_ipv4` compares: at most 24, and for a netmask of 32 bits what happens to
be where the length should be. -/
def comparedLen (len stale : Nat) : Nat := min (if len < 32 then len else stale % 256) 24

theorem comparedLen_le {len : Nat} (hlen : len ≤ 32) (stale : Nat) :
    comparedLen len stale ≤ len := by
  unfold comparedLen
  split_ifs <;> omega

section NextHop

variable {cfg : Config} {ip mask : IpAddr} {len stale : Nat} (hlen : len ≤ 32)
  (hmask : mask.IsNetmask len)

include hlen hmask

theorem sameNetwork_iff {dst : IpAddr} :
    applyMask mask dst = applyMask mask ip ↔ Agree len dst ip := by
  rw [ipAddr_ext]
  constructor
  · intro h i hi
    have hbit := h i (by omega)
    rwa [bit_applyMask, bit_applyMask, hmask i (by omega), decide_eq_true hi, Bool.true_and,
      Bool.true_and] at hbit
  · intro h i hi
    rw [bit_applyMask, bit_applyMask, hmask i hi]
    by_cases hlt : i < len
    · rw [h i hlt]
    · rw [decide_eq_false hlt, Bool.false_and, Bool.false_and]

theorem onLink_iff {dst : IpAddr} :
    applyMask (createSubnetMask (UInt8.ofNat (cfg.setWan ip mask stale).wanCidrPrefixLen)) dst =
        (cfg.setWan ip mask stale).wanNetworkIp ↔
      Agree (comparedLen len stale) dst ip ∧ ZeroBits (comparedLen len stale) len ip := by
  have hcidr : (cfg.setWan ip mask stale).wanCidrPrefixLen = if len < 32 then len else stale := by
    rw [Config.setWan, prefixLenGet_eq hlen hmask]
    split_ifs <;> rfl
  have hmod : UInt8.ofNat (if len < 32 then len else stale) =
      UInt8.ofNat (if len < 32 then len else stale % 256) := by
    split_ifs
    · rfl
    · exact UInt8.toNat_inj.1 (by simp)
  have hlt : (if len < 32 then len else stale % 256) < 256 := by split_ifs <;> omega
  have hle := comparedLen_le hlen stale
  rw [hcidr, hmod, masked_eq_iff hlt]
  refine and_congr (forall₂_congr fun i hi => ?_) ⟨fun h i hi hlo => ?_, fun h i hi hlo => ?_⟩
  · have hi' : i < len := lt_of_lt_of_le hi hle
    rw [Config.setWan, bit_applyMask, hmask i (by omega), decide_eq_true hi', Bool.true_and]
    exact eq_comm
  · have hbit := h i (by omega) hlo
    rwa [Config.setWan, bit_applyMask, hmask i (by omega), decide_eq_true hi, Bool.true_and] at hbit
  · rw [Config.setWan, bit_applyMask, hmask i hi]
    by_cases hin : i < len
    · rw [h i hin hlo, Bool.and_false]
    · rw [decide_eq_false hin, Bool.false_and]

/-- **The on-link decision.** The next hop is the one that the netmask says exactly when the
destination and the WAN address differ in the bits compared, or the lost bits of the WAN
address are zero just when the destination is in the network, or the destination is the gateway.
With at most 24 bits none are lost. -/
theorem nextHop_setWan_iff {pkt : Mem} (hwan : (cfg.setWan ip mask stale).interfaceGetSide
      ((cfg.setWan ip mask stale).getInterfaceForIp (ipDst pkt)) = .wan) :
    nextHop (cfg.setWan ip mask stale) pkt =
        (if applyMask mask (ipDst pkt) = applyMask mask ip then ipDst pkt
          else (cfg.setWan ip mask stale).wanGatewayIp) ↔
      ¬ Agree (comparedLen len stale) (ipDst pkt) ip ∨
        (Agree len (ipDst pkt) ip ↔ ZeroBits (comparedLen len stale) len ip) ∨
        ipDst pkt = (cfg.setWan ip mask stale).wanGatewayIp := by
  have hin : Agree len (ipDst pkt) ip → Agree (comparedLen len stale) (ipDst pkt) ip :=
    fun h i hi => h i (lt_of_lt_of_le hi (comparedLen_le hlen stale))
  simp only [nextHop, Config.localDstIp, hwan, ipAddrEquals_iff, onLink_iff hlen hmask,
    sameNetwork_iff hlen hmask]
  split_ifs with hlink hsame hsame
  · tauto
  · tauto
  · rw [eq_comm]
    tauto
  · tauto

end NextHop

/-- With a `/25` netmask, a WAN address and a destination in the lower half of the last octet. -/
theorem nextHop_setWan_lower :
    nextHop (shippedConfig.setWan ⟨192, 168, 0, 2⟩ ⟨255, 255, 255, 128⟩ 0)
        (Mem.zero.write 16 [192, 168, 0, 7]) =
      if applyMask ⟨255, 255, 255, 128⟩ (ipDst (Mem.zero.write 16 [192, 168, 0, 7])) =
          applyMask ⟨255, 255, 255, 128⟩ ⟨192, 168, 0, 2⟩ then
        ipDst (Mem.zero.write 16 [192, 168, 0, 7])
      else (shippedConfig.setWan ⟨192, 168, 0, 2⟩ ⟨255, 255, 255, 128⟩ 0).wanGatewayIp := by
  have hmask : IpAddr.IsNetmask ⟨255, 255, 255, 128⟩ 25 := by
    unfold IpAddr.IsNetmask
    decide +kernel
  exact (nextHop_setWan_iff (by decide) hmask (by decide +kernel)).2
    (Or.inr (Or.inl (by decide +kernel)))

/-- In the upper half the destination is taken to be behind the gateway. -/
theorem nextHop_setWan_fails :
    IpAddr.IsNetmask ⟨255, 255, 255, 128⟩ 25 ∧
      (shippedConfig.setWan ⟨192, 168, 0, 130⟩ ⟨255, 255, 255, 128⟩ 0).interfaceGetSide
        ((shippedConfig.setWan ⟨192, 168, 0, 130⟩ ⟨255, 255, 255, 128⟩ 0).getInterfaceForIp
          ⟨192, 168, 0, 140⟩) = .wan ∧
      applyMask ⟨255, 255, 255, 128⟩ ⟨192, 168, 0, 140⟩ =
        applyMask ⟨255, 255, 255, 128⟩ ⟨192, 168, 0, 130⟩ ∧
      ipDst (Mem.zero.write 16 [192, 168, 0, 140]) = ⟨192, 168, 0, 140⟩ ∧
      nextHop (shippedConfig.setWan ⟨192, 168, 0, 130⟩ ⟨255, 255, 255, 128⟩ 0)
        (Mem.zero.write 16 [192, 168, 0, 140]) = ⟨192, 168, 0, 129⟩ := by
  unfold IpAddr.IsNetmask
  decide +kernel

end NaptRouter
