import NaptRouter.Ipv4
import NaptRouter.HashmapProof

/-!
# What one packet does to the NAPT tables

`naptOutTranslate_spec` and `naptIncTranslate_spec` say everything a packet can do to the two
tables: nothing, or one insertion in each. They rest on `hashmapGet_total` and
`hashmapInsert_spec` and are all that the properties of runs use.
-/

namespace NaptRouter

open ByteMemory

/-! ## Keys and entries as bytes -/

theorem NaptExternKey.bytes_injective {k k' : NaptExternKey} (h : k.bytes = k'.bytes) :
    k = k' := by
  obtain ⟨h, hproto⟩ := List.append_inj' h rfl
  obtain ⟨h, hdst⟩ := List.append_inj' h rfl
  obtain ⟨hip, hsrc⟩ := List.append_inj' h rfl
  obtain ⟨ip, ⟨src⟩, ⟨dst⟩, proto⟩ := k
  obtain ⟨ip', ⟨src'⟩, ⟨dst'⟩, proto'⟩ := k'
  obtain rfl := IpAddr.bytes_injective hip
  obtain rfl := le16_injective hsrc
  obtain rfl := le16_injective hdst
  simpa using hproto

theorem NaptInternKey.bytes_injective {k k' : NaptInternKey} (h : k.bytes = k'.bytes) :
    k = k' := by
  obtain ⟨h, hproto⟩ := List.append_inj' h rfl
  obtain ⟨hip, hsrc⟩ := List.append_inj' h rfl
  obtain ⟨ip, ⟨src⟩, proto⟩ := k
  obtain ⟨ip', ⟨src'⟩, proto'⟩ := k'
  obtain rfl := IpAddr.bytes_injective hip
  obtain rfl := le16_injective hsrc
  simpa using hproto

theorem NaptEntry.read_of_bytes {m : Mem} {ptr : Nat} {e : NaptEntry}
    (h : m.read ptr sizeofNaptEntry = e.bytes) : NaptEntry.read m ptr = e := by
  have hslice {i k : Nat} (hik : i + k ≤ sizeofNaptEntry) :
      m.read (ptr + i) k = (e.bytes.drop i).take k := by
    rw [Mem.read_slice m ptr hik, h]
  have hlanIp : IpAddr.read m ptr = e.lanIp := IpAddr.read_eq_iff.2 (hslice (i := 0) (by decide))
  have hpublicIp : IpAddr.read m (ptr + 6) = e.publicIp :=
    IpAddr.read_eq_iff.2 (hslice (by decide))
  have hdstIp : IpAddr.read m (ptr + 12) = e.dstIp := IpAddr.read_eq_iff.2 (hslice (by decide))
  have hlanPort : m.load16 (ptr + 4) = e.lanPort.value := load16_of_read (hslice (by decide))
  have hpublicPort : m.load16 (ptr + 10) = e.publicPort.value :=
    load16_of_read (hslice (by decide))
  have hdstPort : m.load16 (ptr + 16) = e.dstPort.value := load16_of_read (hslice (by decide))
  have htimestamp : m.load32 (ptr + 20) = e.timestamp := load32_of_read (hslice (by decide))
  rw [NaptEntry.read, hlanIp, hpublicIp, hdstIp, hlanPort, hpublicPort, hdstPort, htimestamp]

theorem NaptEntry.bytes_injective {e e' : NaptEntry} (h : e.bytes = e'.bytes) : e = e' := by
  have hread : (Mem.zero.write 0 e.bytes).read 0 sizeofNaptEntry = e.bytes :=
    Mem.read_write_same _ 0 e.bytes
  exact (read_of_bytes hread).symm.trans (read_of_bytes (hread.trans h))

/-- Only TCP and UDP packets are translated. -/
theorem transportPorts_eq_some {pkt : Mem} {src dst : Port}
    (h : transportPorts pkt = some (src, dst)) :
    protocol pkt ≠ 0 ∧ src = portSrc pkt (headerLen pkt) ∧ dst = portDst pkt (headerLen pkt) := by
  unfold transportPorts at h
  split_ifs at h with hp
  obtain ⟨rfl, rfl⟩ : _ = src ∧ _ = dst := by simpa using h
  refine ⟨?_, rfl, rfl⟩
  rcases hp with hp | hp <;> rw [hp] <;> decide

theorem transportPorts_of_protocol {pkt q : Mem} {src dst : Port}
    (h : transportPorts pkt = some (src, dst)) (hproto : protocol q = protocol pkt) :
    transportPorts q = some (portSrc q (headerLen q), portDst q (headerLen q)) := by
  unfold transportPorts at h ⊢
  split_ifs at h with hp
  rw [if_pos (by rwa [hproto])]

theorem naptOutTranslate_isSome {cfg : Config} {napt napt' : Napt} {pkt : Mem}
    {rand : Nat → Nat} {P : Port} (h : naptOutTranslate cfg napt pkt rand = some (napt', some P)) :
    (transportPorts pkt).isSome = true := by
  cases hports : transportPorts pkt with
  | none => simp [naptOutTranslate, hports] at h
  | some ports => rfl

theorem naptIncTranslate_isSome {napt napt' : Napt} {pkt : Mem} {lan : IpAddr × Port}
    (h : naptIncTranslate napt pkt = some (napt', some lan)) :
    (transportPorts pkt).isSome = true := by
  cases hports : transportPorts pkt with
  | none => simp [naptIncTranslate, hports] at h
  | some ports => rfl

/-! ## Mappings -/

/-- An entry together with the protocol, which only its keys record. -/
structure Mapping extends NaptEntry where
  protocol : UInt8
deriving DecidableEq

namespace Mapping

def externKey (m : Mapping) : NaptExternKey :=
  { ipDst := m.dstIp, portSrc := m.publicPort, portDst := m.dstPort, protocol := m.protocol }

def internKey (m : Mapping) : NaptInternKey :=
  { ipSrc := m.lanIp, portSrc := m.lanPort, protocol := m.protocol }

end Mapping

/-- The mapping that `napt_out_handle` makes for a packet and a port. -/
def outMapping (cfg : Config) (pkt : Mem) (newPortSrc : Port) : Mapping where
  lanIp := ipSrc pkt
  lanPort := portSrc pkt (headerLen pkt)
  publicIp := cfg.interfaceGetIp cfg.interfaceGetWanId
  publicPort := newPortSrc
  dstIp := ipDst pkt
  dstPort := portDst pkt (headerLen pkt)
  timestamp := 0
  protocol := protocol pkt

/-- The key under which `napt_out_handle` looks for an existing mapping. -/
def outInternKey (pkt : Mem) : NaptInternKey :=
  { ipSrc := ipSrc pkt, portSrc := portSrc pkt (headerLen pkt), protocol := protocol pkt }

/-- The key under which `napt_inc_handle` looks for a mapping. -/
def incExternKey (pkt : Mem) : NaptExternKey :=
  { ipDst := ipSrc pkt, portSrc := portDst pkt (headerLen pkt),
    portDst := portSrc pkt (headerLen pkt), protocol := protocol pkt }

/-! ## The invariant of the tables -/

/-- The two tables between two packets. -/
structure Napt.Ok (napt : Napt) : Prop where
  externTable : napt.externHashmap.Sound
  internTable : napt.internHashmap.Sound
  externKey : napt.externHashmap.sizeKey = sizeofNaptExternKey
  externValue : napt.externHashmap.sizeValue = sizeofNaptEntry
  internKey : napt.internHashmap.sizeKey = sizeofNaptInternKey
  internValue : napt.internHashmap.sizeValue = sizeofNaptEntry
  /-- The extern table is unlocked between packets; the intern table may stay locked. -/
  unlocked : napt.externHashmap.lock = false

theorem naptInit_ok : naptInit.Ok :=
  ⟨(hashmapInit_sound ..).1, (hashmapInit_sound ..).1, rfl, rfl, rfl, rfl, rfl⟩

theorem Napt.Ok.setInternLock {napt : Napt} (hok : napt.Ok) (b : Bool) :
    ({ napt with internHashmap := napt.internHashmap.setLock b } : Napt).Ok :=
  ⟨hok.externTable, hok.internTable.setLock b, hok.externKey, hok.externValue, hok.internKey,
    hok.internValue, hok.unlocked⟩

/-- The keys that growth does not make up. -/
def Nonzero (key : List UInt8) : Prop := ∃ b ∈ key, b ≠ 0

theorem Nonzero.ne_zeroKey {h : Hashmap} {k : List UInt8} (hk : Nonzero k) : k ≠ h.zeroKey := by
  obtain ⟨b, hb, hb0⟩ := hk
  exact fun heq => hb0 (List.eq_of_mem_replicate (by rwa [heq, Hashmap.zeroKey] at hb))

theorem externKey_nonzero {k : NaptExternKey} (hk : k.protocol ≠ 0) : Nonzero k.bytes :=
  ⟨k.protocol, by simp [NaptExternKey.bytes], hk⟩

theorem internKey_nonzero {k : NaptInternKey} (hk : k.protocol ≠ 0) : Nonzero k.bytes :=
  ⟨k.protocol, by simp [NaptInternKey.bytes], hk⟩

theorem Inserted.setLock {h h' : Hashmap} {k v : List UInt8} {b : Bool}
    (hI : Inserted (h.setLock b) k v h') (b' : Bool) (hb' : b' = h.lock) :
    Inserted h k v (h'.setLock b') :=
  ⟨hI.sound.setLock b', hI.hashFunc, hI.sizeKey, hI.sizeValue, hb', hI.lookup⟩

/-! ## The port search -/

theorem bind_of_eq_some {α β : Type} {x : Option α} {a : α} {f : α → Option β}
    (h : x = some a) : x.bind f = f a := by
  rw [h, Option.bind_some]

/-- `napt'` is `napt` after a mapping has been entered in both tables. -/
structure Opened (napt : Napt) (m : Mapping) (napt' : Napt) : Prop where
  absent : napt.externHashmap.lookup m.externKey.bytes = none
  externTable : Inserted napt.externHashmap m.externKey.bytes m.bytes napt'.externHashmap
  internTable : Inserted napt.internHashmap m.internKey.bytes m.bytes napt'.internHashmap

/-- The port that `rand()` gives is free in the extern table for the packet. -/
def PortFree (cfg : Config) (napt : Napt) (pkt : Mem) (rand : Nat) : Prop :=
  napt.externHashmap.lookup (outMapping cfg pkt (naptRandPort rand)).externKey.bytes = none

instance (cfg : Config) (napt : Napt) (pkt : Mem) (rand : Nat) :
    Decidable (PortFree cfg napt pkt rand) := inferInstanceAs (Decidable (_ = none))

/-- The search returns: every port was taken and it has only touched the mutex of the extern
table, or it enters a mapping whose extern key was free. -/
theorem naptTryPorts_spec (cfg : Config) (pkt : Mem) (rand : Nat → Nat)
    (hproto : protocol pkt ≠ 0) (left : Nat) {napt : Napt} (b : Bool) (hok : napt.Ok)
    (habs : napt.internHashmap.lookup (outInternKey pkt).bytes = none) :
    ∃ napt' port, naptTryPorts (ipSrc pkt) (ipDst pkt)
        (cfg.interfaceGetIp cfg.interfaceGetWanId) (portSrc pkt (headerLen pkt))
        (portDst pkt (headerLen pkt)) (protocol pkt) rand left
        { napt with externHashmap := napt.externHashmap.setLock b } =
          some (napt', port) ∧
      ((port = none ∧ (∀ j < left, ¬ PortFree cfg napt pkt (rand (10 - (j + 1)))) ∧
          napt'.internHashmap = napt.internHashmap ∧
          hashmapUnlock napt'.externHashmap = napt.externHashmap) ∨
        ∃ P, port = some P ∧ (∃ j < left, P = naptRandPort (rand (10 - (j + 1)))) ∧
          Opened napt (outMapping cfg pkt P)
            { napt' with externHashmap := hashmapUnlock napt'.externHashmap }) := by
  induction left generalizing b with
  | zero =>
    refine ⟨_, none, rfl, Or.inl ⟨rfl, fun j hj => absurd hj (Nat.not_lt_zero j), rfl, ?_⟩⟩
    exact setLock_self hok.unlocked
  | succ left ih =>
    rw [naptTryPorts]
    generalize hP : naptRandPort (rand (10 - (left + 1))) = P
    have hlocked := hok.externTable.setLock b
    have hkey : (outMapping cfg pkt P).externKey.bytes.length =
        (napt.externHashmap.setLock b).sizeKey := by
      simpa using hok.externKey.symm
    rcases hashmapGet_total hlocked hkey with ⟨hnone, hget⟩ | ⟨v, ptr, hv, -, hget⟩
    · -- The port is free: both insertions succeed.
      obtain ⟨externHashmap, hins, hextern⟩ := hashmapInsert_spec hlocked hkey
        (v := (outMapping cfg pkt P).bytes) (by simpa using hok.externValue.symm)
        (externKey_nonzero hproto).ne_zeroKey hnone
      obtain ⟨internHashmap, hins', hintern⟩ := hashmapInsert_spec hok.internTable
        (k := (outMapping cfg pkt P).internKey.bytes) (v := (outMapping cfg pkt P).bytes)
        (by simpa using hok.internKey.symm) (by simpa using hok.internValue.symm)
        (internKey_nonzero hproto).ne_zeroKey habs
      refine ⟨⟨externHashmap, internHashmap⟩, some P, ?_,
        Or.inr ⟨P, rfl, ⟨left, Nat.lt_succ_self left, hP.symm⟩, hnone, ?_, hintern⟩⟩
      · simp only [hashmapContains, Option.bind_eq_bind, Option.bind_assoc]
        refine (bind_of_eq_some hget).trans ?_
        refine (bind_of_eq_some hins).trans ?_
        exact bind_of_eq_some hins'
      · exact hextern.setLock false hok.unlocked.symm
    · -- The port is taken: the mutex is released and the next one is tried.
      obtain ⟨napt', port, hloop, hres⟩ := ih false
      refine ⟨napt', port, ?_, ?_⟩
      · rw [← hloop]
        simp only [hashmapContains, Option.bind_eq_bind, Option.bind_assoc]
        exact bind_of_eq_some hget
      · rcases hres with ⟨hport, htaken, hsame⟩ | ⟨Q, hport, ⟨j, hj, hQ⟩, hopen⟩
        · refine Or.inl ⟨hport, fun j hj => ?_, hsame⟩
          rcases Nat.lt_succ_iff_lt_or_eq.1 hj with hlt | rfl
          · exact htaken j hlt
          · intro hfree
            rw [PortFree, hP] at hfree
            cases hfree.symm.trans hv
        · exact Or.inr ⟨Q, hport, ⟨j, Nat.lt_succ_of_lt hj, hQ⟩, hopen⟩

/-! ## One packet -/

/-- What `napt_out_handle` can do with a TCP or UDP packet: reuse the mapping that the intern
table has, open one, or give up and leave the intern table locked. -/
inductive OutResult (cfg : Config) (napt : Napt) (pkt : Mem) : Napt → Option Port → Prop
  | reused {v : List UInt8} {P : Port}
      (hit : napt.internHashmap.lookup (outInternKey pkt).bytes = some v)
      (port : ∀ e : NaptEntry, v = e.bytes → P = e.publicPort) :
      OutResult cfg napt pkt napt (some P)
  | opened {napt' : Napt} {P : Port}
      (miss : napt.internHashmap.lookup (outInternKey pkt).bytes = none)
      (opened : Opened napt (outMapping cfg pkt P) napt') : OutResult cfg napt pkt napt' (some P)
  | dropped (miss : napt.internHashmap.lookup (outInternKey pkt).bytes = none) :
      OutResult cfg napt pkt
        { napt with internHashmap := napt.internHashmap.setLock true } none

/-- A packet whose endpoint has no mapping gets one if some port that is drawn is free. -/
theorem naptOutTranslate_miss (cfg : Config) {napt : Napt} (hok : napt.Ok) {pkt : Mem}
    (rand : Nat → Nat) {src dst : Port} (hports : transportPorts pkt = some (src, dst))
    (hlock : napt.internHashmap.lock = false)
    (hmiss : napt.internHashmap.lookup (outInternKey pkt).bytes = none) :
    ∃ napt' port, naptOutTranslate cfg napt pkt rand = some (napt', port) ∧
      OutResult cfg napt pkt napt' port ∧
      (port = none ↔ ∀ n < 10, ¬ PortFree cfg napt pkt (rand n)) := by
  obtain ⟨hproto, rfl, rfl⟩ := transportPorts_eq_some hports
  have hkey : (outInternKey pkt).bytes.length = (napt.internHashmap.setLock true).sizeKey := by
    simpa using hok.internKey.symm
  rcases hashmapGet_total (hok.internTable.setLock true) hkey with
    ⟨hnone, hget⟩ | ⟨v, ptr, hv, -, -⟩
  · have hlocked := hok.setInternLock true
    obtain ⟨napt', port, hloop, hres⟩ :=
      naptTryPorts_spec cfg pkt rand hproto 10 true hlocked hnone
    simp only [naptOutTranslate, hports, hashmapLock, hlock, hok.unlocked, Bool.false_eq_true,
      if_false, Option.bind_eq_bind, Option.bind_some]
    rcases hres with ⟨rfl, htaken, hintern', hextern'⟩ | ⟨P, rfl, ⟨j, hj, rfl⟩, hopen⟩
    · refine ⟨_, none, (bind_of_eq_some hget).trans (bind_of_eq_some hloop), ?_,
        iff_of_true rfl fun n hn => ?_⟩
      · rw [hintern', hextern']
        exact .dropped hnone
      · have hn' := htaken (9 - n) (by omega)
        rwa [show 10 - (9 - n + 1) = n by omega] at hn'
    · refine ⟨_, some _, (bind_of_eq_some hget).trans (bind_of_eq_some hloop), .opened hnone
        ⟨hopen.absent, hopen.externTable, hopen.internTable.setLock false hlock.symm⟩,
        iff_of_false (by simp) fun htaken => ?_⟩
      exact htaken _ (by omega) hopen.absent
  · cases hmiss.symm.trans hv

/-- **Outbound translation.** It returns unless the intern table is locked, with one of the
three results. -/
theorem naptOutTranslate_spec (cfg : Config) {napt : Napt} (hok : napt.Ok) {pkt : Mem}
    (rand : Nat → Nat) {src dst : Port} (hports : transportPorts pkt = some (src, dst)) :
    if napt.internHashmap.lock then naptOutTranslate cfg napt pkt rand = none
    else ∃ napt' port, naptOutTranslate cfg napt pkt rand = some (napt', port) ∧
      OutResult cfg napt pkt napt' port := by
  cases hlock : napt.internHashmap.lock with
  | true =>
    obtain ⟨-, rfl, rfl⟩ := transportPorts_eq_some hports
    simp [naptOutTranslate, hports, hashmapLock, hlock]
  | false =>
    simp only [Bool.false_eq_true, if_false]
    have hkey : (outInternKey pkt).bytes.length = (napt.internHashmap.setLock true).sizeKey := by
      simpa using hok.internKey.symm
    rcases hashmapGet_total (hok.internTable.setLock true) hkey with
      ⟨hnone, -⟩ | ⟨v, ptr, hv, hread, hget⟩
    · obtain ⟨napt', port, htr, hres, -⟩ := naptOutTranslate_miss cfg hok rand hports hlock hnone
      exact ⟨napt', port, htr, hres⟩
    · obtain ⟨-, rfl, rfl⟩ := transportPorts_eq_some hports
      refine ⟨napt, some (NaptEntry.read napt.internHashmap.data ptr).publicPort, ?_,
        .reused hv fun e he => ?_⟩
      · simp only [naptOutTranslate, hports, hashmapLock, hlock, Bool.false_eq_true, if_false,
          Option.bind_eq_bind, Option.bind_some]
        refine (bind_of_eq_some hget).trans ?_
        simp only [hashmapUnlock, setLock_setLock, setLock_self hlock]
      · rw [NaptEntry.read_of_bytes (hok.internValue ▸ hread.trans he)]

/-- **Inbound translation.** It returns and changes nothing; a packet whose key is in the extern
table gets the LAN endpoint of the entry, any other is dropped. -/
theorem naptIncTranslate_spec {napt : Napt} (hok : napt.Ok) {pkt : Mem} {src dst : Port}
    (hports : transportPorts pkt = some (src, dst)) :
    (napt.externHashmap.lookup (incExternKey pkt).bytes = none ∧
        naptIncTranslate napt pkt = some (napt, none)) ∨
      ∃ v lanIp lanPort, napt.externHashmap.lookup (incExternKey pkt).bytes = some v ∧
        naptIncTranslate napt pkt = some (napt, some (lanIp, lanPort)) ∧
        ∀ e : NaptEntry, v = e.bytes → lanIp = e.lanIp ∧ lanPort = e.lanPort := by
  obtain ⟨-, rfl, rfl⟩ := transportPorts_eq_some hports
  have hkey : (incExternKey pkt).bytes.length = (napt.externHashmap.setLock true).sizeKey := by
    simpa using hok.externKey.symm
  rcases hashmapGet_total (hok.externTable.setLock true) hkey with
    ⟨hnone, hget⟩ | ⟨v, ptr, hv, hread, hget⟩
  · refine Or.inl ⟨hnone, ?_⟩
    simp only [naptIncTranslate, hports, hashmapLock, hok.unlocked, Bool.false_eq_true, if_false,
      Option.bind_eq_bind, Option.bind_some]
    refine (bind_of_eq_some hget).trans ?_
    simp only [hashmapUnlock, setLock_setLock, setLock_self hok.unlocked]
  · let entry := NaptEntry.read napt.externHashmap.data ptr
    refine Or.inr ⟨v, entry.lanIp, entry.lanPort, hv, ?_, fun e he => ?_⟩
    · simp only [naptIncTranslate, hports, hashmapLock, hok.unlocked, Bool.false_eq_true,
        if_false, Option.bind_eq_bind, Option.bind_some]
      refine (bind_of_eq_some hget).trans ?_
      simp only [hashmapUnlock, setLock_setLock, setLock_self hok.unlocked, entry]
    · have hentry : entry = e := NaptEntry.read_of_bytes (hok.externValue ▸ hread.trans he)
      exact ⟨congrArg _ hentry, congrArg _ hentry⟩

/-- Inbound translation always returns, and leaves the tables as they are. -/
theorem exists_naptIncTranslate {napt : Napt} (hok : napt.Ok) (pkt : Mem) :
    ∃ lan, naptIncTranslate napt pkt = some (napt, lan) := by
  cases hports : transportPorts pkt with
  | none => exact ⟨none, by simp [naptIncTranslate, hports]⟩
  | some ports =>
    rcases naptIncTranslate_spec hok hports with ⟨-, htr⟩ | ⟨v, lanIp, lanPort, -, htr, -⟩
    · exact ⟨none, htr⟩
    · exact ⟨some (lanIp, lanPort), htr⟩

/-- Outbound translation that finds no port: what is left of it is the mutex. -/
theorem naptOutTranslate_of_drop {cfg : Config} {napt : Napt} (hok : napt.Ok) {pkt : Mem}
    {rand : Nat → Nat}
    (hdrop : ∀ P, (naptOutTranslate cfg napt pkt rand).map (·.2) ≠ some (some P)) :
    naptOutTranslate cfg napt pkt rand =
      if (transportPorts pkt).isSome then
        if napt.internHashmap.lock then none
        else some ({ napt with internHashmap := napt.internHashmap.setLock true }, none)
      else some (napt, none) := by
  cases hports : transportPorts pkt with
  | none => simp [naptOutTranslate, hports]
  | some ports =>
    rw [Option.isSome_some, if_pos rfl]
    have hspec := naptOutTranslate_spec cfg hok rand hports
    split_ifs at hspec ⊢ with hlock
    · exact hspec
    · obtain ⟨napt', port, htr, hres⟩ := hspec
      rw [htr] at hdrop
      cases hres with
      | reused => exact absurd rfl (hdrop _)
      | opened => exact absurd rfl (hdrop _)
      | dropped => exact htr

theorem Opened.ok {napt napt' : Napt} {m : Mapping} (hok : napt.Ok) (h : Opened napt m napt') :
    napt'.Ok :=
  ⟨h.externTable.sound, h.internTable.sound, h.externTable.sizeKey.trans hok.externKey,
    h.externTable.sizeValue.trans hok.externValue, h.internTable.sizeKey.trans hok.internKey,
    h.internTable.sizeValue.trans hok.internValue, h.externTable.lock.trans hok.unlocked⟩

theorem OutResult.ok {cfg : Config} {napt napt' : Napt} {pkt : Mem} {port : Option Port}
    (hok : napt.Ok) (h : OutResult cfg napt pkt napt' port) : napt'.Ok := by
  cases h with
  | reused => exact hok
  | opened _ hopen => exact hopen.ok hok
  | dropped => exact hok.setInternLock true

end NaptRouter
