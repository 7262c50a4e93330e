import NaptRouter.DhcpReplies
import NaptRouter.Leases
import NaptRouter.Lib.ByteOrder

/-!
# The addresses of the pool

`get_available_ip` counts the addresses of the pool in host order, without looking at where the
pool ends, and `is_ip_in_pool` compares them in network order.

* `isIpInPool_iff_inRange` — what `is_ip_in_pool` accepts is hardly ever what lies in the pool.
* `offers_pool_iff` — what is offered lies in the pool, and is entered in the table, as long as
  every DISCOVER finds a free slot whose address is in the pool.
-/

namespace NaptRouter

open ByteMemory ByteOrder OptionWalk Runs

/-- The number of an address, its first octet the highest. -/
def hostOrder (ip : UInt32) : Nat := (ntohl ip).toNat

/-- The address is between the first and the last one of the pool. -/
def InRange (pool : DhcpPool) (ip : UInt32) : Prop :=
  hostOrder pool.poolStart ≤ hostOrder ip ∧ hostOrder ip ≤ hostOrder pool.poolEnd

instance (pool : DhcpPool) (ip : UInt32) : Decidable (InRange pool ip) :=
  inferInstanceAs (Decidable (_ ∧ _))

/-! ## Membership -/

section Membership

variable {pool : DhcpPool} {ip : UInt32}

theorem isIpInPool_eq_true :
    isIpInPool pool ip = true ↔ Between pool.poolStart pool.poolEnd ip := by
  rw [isIpInPool, Bool.and_eq_true, decide_eq_true_iff, decide_eq_true_iff]
  rfl

theorem inRange_iff :
    InRange pool ip ↔ Between (ntohl pool.poolStart) (ntohl pool.poolEnd) (ntohl ip) := by
  rw [InRange, Between, UInt32.le_iff_toNat_le, UInt32.le_iff_toNat_le]
  rfl

/-- In a pool whose addresses differ in their last octet only, every address is accepted. -/
theorem isIpInPool_of_inRange
    (h : hostOrder pool.poolStart / 256 = hostOrder pool.poolEnd / 256) (hip : InRange pool ip) :
    isIpInPool pool ip = true := by
  obtain ⟨hlo, hhi⟩ := hip
  have hswap (v : UInt32) : v.toNat = (ntohl (ntohl v)).toNat := by rw [ntohl_ntohl]
  obtain ⟨a, ha, b, hb, c, hc, d, hd, hstart⟩ := exists_bytes (ntohl pool.poolStart).toNat_lt
  obtain ⟨a', ha', b', hb', c', hc', d', hd', hend⟩ := exists_bytes (ntohl pool.poolEnd).toNat_lt
  obtain ⟨x, hx, y, hy, z, hz, w, hw, hmid⟩ := exists_bytes (ntohl ip).toNat_lt
  rw [isIpInPool_eq_true, Between, UInt32.le_iff_toNat_le, UInt32.le_iff_toNat_le,
    hswap pool.poolStart, hswap pool.poolEnd, hswap ip, toNat_ntohl_word hb hc hd hstart,
    toNat_ntohl_word hb' hc' hd' hend, toNat_ntohl_word hy hz hw hmid]
  simp only [hostOrder, hstart, hend, hmid, word] at h hlo hhi ⊢
  omega

/-- **What `is_ip_in_pool` accepts is what lies in the pool** only if the pool is one address, or
all addresses. -/
theorem isIpInPool_iff_inRange (h : hostOrder pool.poolStart ≤ hostOrder pool.poolEnd) :
    (∀ ip, isIpInPool pool ip = true ↔ InRange pool ip) ↔
      pool.poolStart = pool.poolEnd ∨ pool.poolStart = 0 ∧ pool.poolEnd = 4294967295 := by
  have hsame : (∀ ip, isIpInPool pool ip = true ↔ InRange pool ip) ↔
      SameBetween pool.poolStart pool.poolEnd := by
    simp only [isIpInPool_eq_true, inRange_iff, SameBetween]
  have hinj {v w : UInt32} : ntohl v = ntohl w ↔ v = w :=
    ⟨ntohl_injective, fun heq => heq ▸ rfl⟩
  have hzero : ntohl pool.poolStart = 0 ↔ pool.poolStart = 0 := hinj (w := 0)
  have hones : ntohl pool.poolEnd = 4294967295 ↔ pool.poolEnd = 4294967295 :=
    hinj (w := 4294967295)
  rw [hsame, ← sameBetween_ntohl, sameBetween_iff (UInt32.le_iff_toNat_le.2 h), hinj, hzero, hones]

/-- A pool of one address. -/
def singlePool : DhcpPool := ⟨inetAton ⟨192, 168, 1, 100⟩, inetAton ⟨192, 168, 1, 100⟩⟩

theorem isIpInPool_single : isIpInPool singlePool (inetAton ⟨192, 168, 1, 100⟩) = true ∧
    ∀ ip, isIpInPool singlePool ip = true ↔ InRange singlePool ip := by
  have hle : hostOrder singlePool.poolStart ≤ hostOrder singlePool.poolEnd := Nat.le_refl _
  have hall := (isIpInPool_iff_inRange hle).2 (Or.inl rfl)
  exact ⟨(hall _).2 ⟨le_rfl, le_rfl⟩, hall⟩

/-- The pool of the router: an address of another network is accepted. -/
theorem isIpInPool_foreign : hostOrder initDhcpPool.poolStart ≤ hostOrder initDhcpPool.poolEnd ∧
    isIpInPool initDhcpPool (inetAton ⟨10, 0, 0, 105⟩) = true ∧
      ¬ InRange initDhcpPool (inetAton ⟨10, 0, 0, 105⟩) := by
  decide +kernel

end Membership

/-! ## What is offered -/

/-- The reply carries the address in `yiaddr` and in its option 50, whoever reads it. -/
def OfferCarries (reply : List UInt8) (x : UInt32) : Prop :=
  yiaddr reply = x ∧ ∀ reader, Reader reader →
    (options (reader (received reply)) (received reply) reply.length 240).filter
      (·.1 = dhcpOptionRequestedIp) = [(dhcpOptionRequestedIp, le32 x)]

/-- The slot is free, or its lease has expired. -/
def Free (t : DhcpStep) (i : Fin maxLeases) : Prop :=
  (t.pre.leaseTable i).allocated = true → (t.pre.leaseTable i).leaseExpiry ≤ t.input.now

instance (t : DhcpStep) (i : Fin maxLeases) : Decidable (Free t i) :=
  inferInstanceAs (Decidable (_ → _))

/-- The datagram has taken a free slot for the address. -/
def Allocates (t : DhcpStep) (x : UInt32) : Prop :=
  ∃ i, Free t i ∧ (t.post.leaseTable i).allocated = true ∧ (t.post.leaseTable i).ip = x ∧
    (t.post.leaseTable i).leaseStart = t.input.now ∧
    (t.post.leaseTable i).leaseExpiry = t.input.now + 180000

/-- Only addresses of the pool are offered in a step, and none when no slot is free. -/
structure OffersPool (pool : DhcpPool) (t : DhcpStep) : Prop where
  offered : ∀ reply ∈ dhcpReply pool t, replyType reply = dhcpOffer →
    Discovers t ∧ ∃ x, OfferCarries reply x ∧ InRange pool x ∧ Allocates t x
  exhausted : (∀ i, ¬ Free t i) →
    (∀ reply ∈ dhcpReply pool t, replyType reply ≠ dhcpOffer) ∧
      t.post.leaseTable = t.pre.leaseTable

/-- A slot is free, and the address of the first one that is lies in the pool. -/
def HasSlot (pool : DhcpPool) (t : DhcpStep) : Prop :=
  ∃ i : Fin maxLeases, Free t i ∧ (∀ j < i, ¬ Free t j) ∧
    hostOrder pool.poolStart + i ≤ hostOrder pool.poolEnd

instance (pool : DhcpPool) (t : DhcpStep) : Decidable (HasSlot pool t) :=
  inferInstanceAs (Decidable (∃ _ : Fin maxLeases, _ ∧ _ ∧ _))

section Offered

variable {pool : DhcpPool} {clock : Int} {t : DhcpStep} {x : UInt32}

theorem offerCarries_dhcpOfferPacket (buffer : Mem) (x : UInt32) :
    OfferCarries (dhcpOfferPacket buffer x) x := by
  have hconveys := (replies_convey buffer x).1
  refine ⟨hconveys.address, fun reader hreader => ?_⟩
  rw [hconveys.yields reader hreader]
  rfl

theorem free_iff {i : Fin maxLeases} :
    Free t i ↔ (cleanupExpiredLeases t.input.now t.pre.leaseTable i).allocated = false := by
  rw [Free, cleanupExpiredLeases, reclaim]
  cases halloc : (t.pre.leaseTable i).allocated with
  | false => simp [halloc]
  | true =>
    split_ifs with hexpired
    · simpa using hexpired
    · simpa [halloc] using hexpired

/-- Addresses of slots are counted from the start of the pool. -/
theorem inRange_poolIp_iff (pool : DhcpPool) (i : Fin maxLeases) :
    InRange pool (poolIp pool i) ↔ hostOrder pool.poolStart + i ≤ hostOrder pool.poolEnd := by
  have hi : i.val < 10 := i.isLt
  have hstart : hostOrder pool.poolStart < 4294967296 := (ntohl pool.poolStart).toNat_lt
  have hend : hostOrder pool.poolEnd < 4294967296 := (ntohl pool.poolEnd).toNat_lt
  have hnat : hostOrder (poolIp pool i) = (hostOrder pool.poolStart + i) % 4294967296 := by
    have hsmall : i.val < 4294967296 := by omega
    rw [hostOrder, poolIp, ntohl_ntohl, UInt32.toNat_add, UInt32.toNat_ofNat_of_lt' hsmall]
    rfl
  rw [InRange, hnat]
  omega

/-- One DISCOVER: it gets the first free slot, or the table stays as it is and the offer is
empty. -/
theorem discover_cases (hstep : dhcpStep pool t.pre t.input = some t.post) (hdisc : Discovers t) :
    (∃ i : Fin maxLeases, Free t i ∧ (∀ j < i, ¬ Free t j) ∧ Allocates t (poolIp pool i) ∧
        dhcpReply pool t = some (dhcpOfferPacket t.input.buffer (poolIp pool i))) ∨
      ((∀ i, ¬ Free t i) ∧ t.post.leaseTable = t.pre.leaseTable ∧
        dhcpReply pool t = some (dhcpOfferPacket t.input.buffer 0)) := by
  have hreply : dhcpReply pool t = some (dhcpOfferPacket t.input.buffer
      (getAvailableIp pool t.input.now t.pre.leaseTable).2) := by
    rcases dhcpReply_cases pool t with ⟨-, hreply⟩ | ⟨x, hreq, -⟩ | ⟨hnone, -⟩
    · exact hreply
    · exact absurd hdisc hreq.not_discovers
    · exact absurd hdisc hnone
  have htable := (dhcpStep_spec hstep).2.2.1 hdisc
  rcases getAvailableIp_spec pool t.input.now t.pre.leaseTable with
    ⟨i, hfree, hbefore, hget, hip⟩ | ⟨htaken, hget, hip⟩
  · have hslot : t.post.leaseTable i = newLease pool t.input.now i
        (cleanupExpiredLeases t.input.now t.pre.leaseTable i) := by
      rw [htable, hget, Function.update_self]
    refine Or.inl ⟨i, free_iff.2 hfree, fun j hj hfree' => ?_, ⟨i, free_iff.2 hfree, ?_⟩, ?_⟩
    · rw [free_iff, hbefore j hj] at hfree'
      cases hfree'
    · rw [hslot]
      exact ⟨rfl, rfl, rfl, rfl⟩
    · rw [hreply, hip]
  · have hfree (i : Fin maxLeases) : ¬ Free t i := by
      rw [free_iff, htaken i]
      exact Bool.false_ne_true.symm
    refine Or.inr ⟨hfree, ?_, ?_⟩
    · rw [htable, hget]
      funext i
      rw [cleanupExpiredLeases, reclaim, if_neg]
      intro hexpired
      rw [Bool.and_eq_true, decide_eq_true_iff] at hexpired
      exact hfree i fun _ => hexpired.2
    · rw [hreply, hip]

theorem discovers_of_offer {reply : List UInt8} (h : reply ∈ dhcpReply pool t)
    (htype : replyType reply = dhcpOffer) : Discovers t :=
  (offers_iff.1 (⟨reply, h, htype, rfl⟩ : Offers pool t (yiaddr reply))).1

theorem OfferCarries.unique {reply : List UInt8} {y : UInt32} (h : OfferCarries reply x)
    (h' : OfferCarries reply y) : x = y :=
  h.1.symm.trans h'.1

/-- A step keeps to the pool unless it is a DISCOVER without a slot. -/
theorem offersPool_iff (hstep : dhcpStep pool t.pre t.input = some t.post) :
    OffersPool pool t ↔ (Discovers t → HasSlot pool t) := by
  by_cases hdisc : Discovers t
  · rw [imp_iff_right hdisc]
    rcases discover_cases hstep hdisc with
      ⟨i, hfree, hfirst, halloc, hreply⟩ | ⟨htaken, htable, hreply⟩
    · have hcarries := offerCarries_dhcpOfferPacket t.input.buffer (poolIp pool i)
      constructor
      · intro hoffers
        obtain ⟨-, x, hx, hrange, -⟩ := hoffers.offered _ hreply (replyType_dhcpOfferPacket ..)
        rw [hx.unique hcarries, inRange_poolIp_iff] at hrange
        exact ⟨i, hfree, hfirst, hrange⟩
      · intro hslot
        obtain ⟨j, hfree', hfirst', hrange⟩ := hslot
        obtain rfl : i = j := by
          rcases lt_trichotomy i j with hlt | heq | hgt
          · exact absurd hfree (hfirst' i hlt)
          · exact heq
          · exact absurd hfree' (hfirst j hgt)
        refine ⟨fun reply hmem htype => ⟨hdisc, poolIp pool i, ?_, ?_, halloc⟩, fun hnone => ?_⟩
        · rw [hreply] at hmem
          exact Option.mem_some_iff.1 hmem ▸ hcarries
        · exact (inRange_poolIp_iff pool i).2 hrange
        · exact absurd hfree (hnone i)
    · constructor
      · intro hoffers
        exact absurd (replyType_dhcpOfferPacket ..) ((hoffers.exhausted htaken).1 _ hreply)
      · intro hslot
        obtain ⟨i, hfree, -⟩ := hslot
        exact absurd hfree (htaken i)
  · refine iff_of_true ⟨fun reply hmem htype => ?_, fun _ => ⟨fun reply hmem htype => ?_, ?_⟩⟩
      fun h => absurd h hdisc
    · exact absurd (discovers_of_offer hmem htype) hdisc
    · exact absurd (discovers_of_offer hmem htype) hdisc
    · exact (dhcpStep_spec hstep).2.2.2 hdisc

end Offered

/-- **Only addresses of the pool are offered** exactly when every DISCOVER finds a slot that is
free and whose address is in the pool. -/
theorem offers_pool_iff {pool : DhcpPool} {clock : Int} {tr : List DhcpStep} {s : DhcpState}
    (h : DhcpRun pool clock tr s) :
    (∀ t ∈ tr, OffersPool pool t) ↔ ∀ t ∈ tr, Discovers t → HasSlot pool t := by
  refine forall₂_congr fun t ht => offersPool_iff ?_
  obtain ⟨before, after, rfl⟩ := List.append_of_mem ht
  exact h.cut.2.1

/-- A DISCOVER in an empty table. -/
theorem offers_pool_one : ∃ t : DhcpStep, DhcpRun initDhcpPool 0 [t] t.post ∧
    Offers initDhcpPool t (poolIp initDhcpPool 0) ∧ OffersPool initDhcpPool t := by
  obtain ⟨tr, t, hrun, hinputs, hlast⟩ := exists_run_snoc (dhcpStep initDhcpPool)
    ⟨leaseTableInit, 0⟩ [] (dhcpDiscoverFrom 1 0) (fun _ t =>
      decide (Offers initDhcpPool t (poolIp initDhcpPool 0) ∧ HasSlot initDhcpPool t))
      (by decide +kernel)
  obtain ⟨hoffer, hslot⟩ := of_decide_eq_true hlast
  obtain rfl : tr = [] := by
    simpa using congrArg List.length hinputs
  refine ⟨t, hrun, hoffer, (offers_pool_iff hrun).2 (fun u hu _ => ?_) t (by simp)⟩
  rw [List.mem_singleton.1 hu]
  exact hslot

/-- The eleventh DISCOVER is offered the address zero. -/
theorem offers_pool_fails : ∃ tr t, DhcpRun initDhcpPool 0 (tr ++ [t]) t.post ∧
    (tr ++ [t]).map (·.input) = (List.range 11).map (fun i => dhcpDiscoverFrom (UInt8.ofNat i) i) ∧
      Offers initDhcpPool t 0 ∧ ¬ OffersPool initDhcpPool t := by
  obtain ⟨tr, t, hrun, hinputs, hlast⟩ := exists_run_snoc (dhcpStep initDhcpPool)
    ⟨leaseTableInit, 0⟩ ((List.range 10).map fun i => dhcpDiscoverFrom (UInt8.ofNat i) i)
    (dhcpDiscoverFrom 10 10) (fun _ t =>
      decide (Offers initDhcpPool t 0 ∧ ∀ i, ¬ Free t i)) (by decide +kernel)
  obtain ⟨hoffer, htaken⟩ := of_decide_eq_true hlast
  refine ⟨tr, t, hrun, hinputs, hoffer, fun hpool => ?_⟩
  obtain ⟨reply, hreply, htype, -⟩ := hoffer
  exact (hpool.exhausted htaken).1 reply hreply htype

end NaptRouter
