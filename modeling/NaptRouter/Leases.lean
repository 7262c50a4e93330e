import NaptRouter.DhcpRuns

/-!
# Leases over whole runs

What the server promises and what it keeps. An offered address is reserved for 180000 seconds
and offered to nobody else meanwhile (`offers_apart`), and a REQUEST is acknowledged exactly
while the address is so reserved (`request_answer`). But nobody's name is on a lease: any client
may have an address acknowledged that another one was promised (`lease_exclusive_iff`). And the
time runs from the offer, so a late acknowledgement promises more than is left
(`ack_honoured_iff`).
-/

namespace NaptRouter

open ByteMemory Runs

variable {pool : DhcpPool} {clock : Int}

/-! ## Messages -/

/-- A datagram with this first byte of the hardware address and these options. -/
def dhcpMessage (hw : UInt8) (now : Int) (options : List UInt8) : DhcpInput where
  now := now
  buffer := (Mem.zero.write 28 [hw]).write 240 options
  recvLen := 240 + options.length

def dhcpDiscoverFrom (hw : UInt8) (now : Int) : DhcpInput :=
  dhcpMessage hw now [dhcpOptionMessageType, 1, dhcpDiscover, dhcpEnd]

def dhcpRequestFrom (hw : UInt8) (now : Int) (ip : UInt32) : DhcpInput :=
  dhcpMessage hw now ([dhcpOptionMessageType, 1, dhcpRequest, dhcpOptionRequestedIp, 4] ++
    le32 ip ++ [dhcpEnd])

theorem messageType_dhcpMessage (hw : UInt8) (now : Int) (type : UInt8) (rest : List UInt8) :
    let message := dhcpMessage hw now (dhcpOptionMessageType :: 1 :: type :: rest)
    messageType message.buffer message.recvLen = type := by
  intro message
  have hbyte {i : Nat} (hi : i < rest.length + 3) :
      message.buffer (240 + i) = (dhcpOptionMessageType :: 1 :: type :: rest).getD i 0 :=
    Mem.write_apply_inside _ _ hi
  have hfound : findOption message.buffer message.recvLen dhcpOptionMessageType = some 240 := by
    have hfirst : message.buffer 240 = dhcpOptionMessageType := hbyte (i := 0) (by omega)
    have hend : dhcpOptionMessageType ≠ dhcpEnd := by decide
    show findOptionLoop message.buffer (240 + (rest.length + 3)) dhcpOptionMessageType
      ((240 + (rest.length + 2)) + 1) 240 = some 240
    rw [findOptionLoop, hfirst, if_pos ⟨hend, by omega⟩, if_pos rfl]
  rw [messageType, hfound]
  exact hbyte (i := 2) (by omega)

/-! ## The history of the table -/

/-- How the table and the offers of a run belong together. -/
structure LeaseHistory (pool : DhcpPool) (tr : List DhcpStep) (s : DhcpState) : Prop where
  /-- An allocated slot holds its own address, for 180000 seconds from its offer. -/
  origin : ∀ i, (s.leaseTable i).allocated = true → (s.leaseTable i).ip = poolIp pool i ∧
    (s.leaseTable i).leaseExpiry = (s.leaseTable i).leaseStart + 180000 ∧
    ∃ t ∈ tr, Offers pool t (poolIp pool i) ∧ t.input.now = (s.leaseTable i).leaseStart
  /-- An offer is in the table until its time is over. -/
  offers : ∀ t ∈ tr, ∀ x, x ≠ 0 → Offers pool t x → s.clock < t.input.now + 180000 →
    ∃ i : Fin maxLeases, x = poolIp pool i ∧ (s.leaseTable i).allocated = true ∧
      (s.leaseTable i).leaseStart = t.input.now
  past : ∀ t ∈ tr, t.input.now ≤ s.clock

theorem lease_history {tr : List DhcpStep} {s : DhcpState} (h : DhcpRun pool clock tr s) :
    LeaseHistory pool tr s := by
  have hinit : LeaseHistory pool [] ⟨leaseTableInit, clock⟩ :=
    ⟨fun i hi => Bool.noConfusion hi, by simp, by simp⟩
  refine h.history hinit ?_
  rintro tr s i s' - hI hstep
  let t : DhcpStep := ⟨s, i, s'⟩
  have ht : dhcpStep pool t.pre t.input = some t.post := hstep
  have hle : s.clock ≤ i.now := (dhcpStep_spec ht).1
  have hclock : s'.clock = i.now := (dhcpStep_spec ht).2.1
  refine ⟨fun j hj => ?_, fun u hu x hx hoff hlive => ?_, fun u hu => ?_⟩
  · -- The slot is as before, or this step has offered it.
    rcases lease_origin ht hj with hsame | ⟨hoff, old, hnew⟩
    · have hold := hsame ▸ hj
      obtain ⟨hip, hexp, u, hu, hoff, hnow⟩ := hI.origin j hold
      rw [show s'.leaseTable j = s.leaseTable j from hsame]
      exact ⟨hip, hexp, u, List.mem_append_left _ hu, hoff, hnow⟩
    · rw [show s'.leaseTable j = _ from hnew]
      exact ⟨rfl, rfl, t, by simp [t], hoff, rfl⟩
  · rcases List.mem_append.1 hu with hu | hu
    · obtain ⟨j, hj, halloc, hstart⟩ := hI.offers u hu x hx hoff (by omega)
      have hexp := (hI.origin j halloc).2.1
      have hkept : s'.leaseTable j = s.leaseTable j :=
        lease_kept ht halloc (show i.now < (s.leaseTable j).leaseExpiry by omega)
      exact ⟨j, hj, by rw [hkept, halloc], by rw [hkept, hstart]⟩
    · obtain rfl := List.mem_singleton.1 hu
      obtain ⟨j, hj, -, old, hnew⟩ := offered ht hx hoff
      exact ⟨j, hj, by rw [show s'.leaseTable j = _ from hnew]; rfl,
        by rw [show s'.leaseTable j = _ from hnew]; rfl⟩
  · rcases List.mem_append.1 hu with hu | hu
    · exact (hI.past u hu).trans (hle.trans_eq hclock.symm)
    · rw [List.mem_singleton.1 hu]
      exact hclock.ge

theorem clock_le {s s' : DhcpState} {tr : List DhcpStep} (h : Run (dhcpStep pool) s tr s') :
    s.clock ≤ s'.clock := by
  refine h.invariant (I := fun s' => s.clock ≤ s'.clock) le_rfl fun s₁ i s₂ hle hstep => ?_
  have hspec := dhcpStep_spec (t := ⟨s₁, i, s₂⟩) hstep
  exact hle.trans (hspec.1.trans_eq hspec.2.1.symm)

theorem lease_persists {s s' : DhcpState} {tr : List DhcpStep}
    (h : Run (dhcpStep pool) s tr s') {i : Fin maxLeases}
    (halloc : (s.leaseTable i).allocated = true)
    (hlive : s'.clock < (s.leaseTable i).leaseExpiry) : s'.leaseTable i = s.leaseTable i := by
  induction h with
  | nil => rfl
  | @snoc tr s₁ s₂ j hr hstep ih =>
    have hspec := dhcpStep_spec (t := ⟨s₁, j, s₂⟩) hstep
    have hsame := ih (hspec.1.trans_lt (hspec.2.1 ▸ hlive))
    refine (lease_kept (t := ⟨s₁, j, s₂⟩) hstep ?_ ?_).trans hsame
    · show (s₁.leaseTable i).allocated = true
      rw [hsame, halloc]
    · show j.now < (s₁.leaseTable i).leaseExpiry
      rw [hsame]
      exact hspec.2.1 ▸ hlive

/-! ## Offers -/

/-- **Live offers never share an address.** Two offers of one address are at least 180000
seconds apart; an allocated slot holds its own address for 180000 seconds; and no two slots hold
the same address. -/
theorem offers_apart {tr : List DhcpStep} {s : DhcpState} (h : DhcpRun pool clock tr s) :
    (∀ before t mid u after x, tr = before ++ t :: (mid ++ u :: after) → x ≠ 0 →
        Offers pool t x → Offers pool u x → t.input.now + 180000 ≤ u.input.now) ∧
      (∀ i, (s.leaseTable i).allocated = true → (s.leaseTable i).ip = poolIp pool i ∧
        (s.leaseTable i).leaseExpiry = (s.leaseTable i).leaseStart + 180000) ∧
      ∀ i j, (s.leaseTable i).allocated = true → (s.leaseTable j).allocated = true →
        (s.leaseTable i).ip = (s.leaseTable j).ip → i = j := by
  have hI := lease_history h
  refine ⟨?_, fun i hi => ⟨(hI.origin i hi).1, (hI.origin i hi).2.1⟩, fun i j hi hj hip => ?_⟩
  · rintro before t mid u after x rfl hx ht hu
    rw [← List.cons_append, ← List.append_assoc] at h
    obtain ⟨hpre, hstep, -⟩ := h.cut
    have hle := (dhcpStep_spec hstep).1
    have hI := lease_history hpre
    -- Otherwise the first offer is still in the table, in the slot that the second one takes.
    by_contra hlt
    obtain ⟨i, hi, halloc, hstart⟩ := hI.offers t (by simp) x hx ht (by omega)
    obtain ⟨j, hj, hfree, -⟩ := offered hstep hx hu
    obtain rfl := poolIp_injective pool (hi.symm.trans hj)
    have hexp := (hI.origin i halloc).2.1
    have := hfree halloc
    omega
  · rw [(hI.origin i hi).1, (hI.origin j hj).1] at hip
    exact poolIp_injective pool hip

/-- An address that nobody asks for is offered again after its time. -/
theorem offers_apart_again : ∃ t u : DhcpStep, ∃ x, Offers initDhcpPool t x ∧
    Offers initDhcpPool u x ∧ t.input.now + 180000 ≤ u.input.now := by
  obtain ⟨t, tr, u, hrun, -, htest⟩ := exists_run_cons_snoc (dhcpStep initDhcpPool)
    ⟨leaseTableInit, 0⟩ (dhcpDiscoverFrom 1 0) [] (dhcpDiscoverFrom 2 180000)
    (fun t tr u => decide (Offers initDhcpPool t (poolIp initDhcpPool 0) ∧
      Offers initDhcpPool u (poolIp initDhcpPool 0)) && tr.isEmpty) (by decide +kernel)
  obtain ⟨htu, hnil⟩ := Bool.and_eq_true_iff.1 htest
  obtain ⟨hoff, hoff'⟩ := of_decide_eq_true htu
  obtain rfl : tr = [] := List.isEmpty_iff.1 hnil
  exact ⟨t, u, _, hoff, hoff', (offers_apart hrun).1 [] t [] u [] _ rfl (by decide +kernel) hoff
    hoff'⟩

/-! ## Acknowledgements -/

/-- Every address of the configured pool that can be offered passes the pool test, although that
compares words in network order. -/
theorem poolIp_initDhcpPool : ∀ i : Fin maxLeases, poolIp initDhcpPool i ≠ 0 ∧
    isIpInPool initDhcpPool (poolIp initDhcpPool i) = true := by
  decide +kernel

/-- **ACK exactly when offered and live.** -/
theorem request_answer {before after : List DhcpStep} {t : DhcpStep} {s : DhcpState} {x : UInt32}
    (h : DhcpRun initDhcpPool clock (before ++ t :: after) s) (hreq : Requests t x) :
    (Acks initDhcpPool t x ↔
        x ≠ 0 ∧ ∃ t₀ ∈ before, Offers initDhcpPool t₀ x ∧
          t.input.now < t₀.input.now + 180000) ∧
      (Naks initDhcpPool t ↔ ¬ Acks initDhcpPool t x) ∧
      t.post.leaseTable = t.pre.leaseTable := by
  obtain ⟨hpre, hstep, -⟩ := h.cut
  obtain ⟨hle, -, -, hsame⟩ := dhcpStep_spec hstep
  have hI := lease_history hpre
  refine ⟨?_, naks_iff hreq, hsame hreq.not_discovers⟩
  rw [acks_iff, isIpAvailable_eq_false_iff]
  constructor
  · intro hex
    obtain ⟨-, -, expiry, ⟨i, halloc, rfl, rfl⟩, hlive⟩ := hex
    obtain ⟨hip, hexp, t₀, ht₀, hoff, hstart⟩ := hI.origin i halloc
    rw [hip]
    exact ⟨(poolIp_initDhcpPool i).1, t₀, ht₀, hoff, by omega⟩
  · intro hex
    obtain ⟨hx, t₀, ht₀, hoff, hlive⟩ := hex
    obtain ⟨i, rfl, halloc, hstart⟩ := hI.offers t₀ ht₀ x hx hoff (by omega)
    obtain ⟨hip, hexp, -⟩ := hI.origin i halloc
    exact ⟨hreq, (poolIp_initDhcpPool i).2, _, ⟨i, halloc, hip, rfl⟩, by omega⟩

/-- A client that requests the address it was offered. -/
theorem request_answer_offered : ∃ t : DhcpStep, ∃ x, Requests t x ∧ Acks initDhcpPool t x := by
  obtain ⟨tr, t, hrun, -, hlast⟩ := exists_run_snoc (dhcpStep initDhcpPool) ⟨leaseTableInit, 0⟩
    [dhcpDiscoverFrom 1 0] (dhcpRequestFrom 1 10 (poolIp initDhcpPool 0)) (fun tr t =>
      decide ((∃ t₀ ∈ tr, Offers initDhcpPool t₀ (poolIp initDhcpPool 0) ∧
        t.input.now < t₀.input.now + 180000) ∧ Requests t (poolIp initDhcpPool 0)))
    (by decide +kernel)
  obtain ⟨hoff, hreq⟩ := of_decide_eq_true hlast
  exact ⟨t, _, hreq, (request_answer hrun hreq).1.2 ⟨by decide +kernel, hoff⟩⟩

/-! ## Who owns a lease -/

/-- Once an address has been acknowledged to one hardware address, it is not acknowledged to
another until the lease expires. -/
def LeaseExclusive (pool : DhcpPool) (tr : List DhcpStep) : Prop :=
  ∀ before t mid u after x expiry, tr = before ++ t :: (mid ++ u :: after) → Acks pool t x →
    LeaseUntil t.post.leaseTable x expiry → u.input.now < expiry → Acks pool u x →
      chaddr u = chaddr t

/-- While an address is leased and has been requested from one hardware address, no REQUEST for
it comes from another. -/
def NoForeignRequest (pool : DhcpPool) (tr : List DhcpStep) : Prop :=
  ∀ before t mid u after x expiry, tr = before ++ t :: (mid ++ u :: after) → Requests t x →
    isIpInPool pool x = true → LeaseUntil t.pre.leaseTable x expiry → u.input.now < expiry →
      Requests u x → chaddr u = chaddr t

/-- **Lease exclusivity is left to the clients.** In every run the server keeps an acknowledged
lease to one hardware address if and only if nobody else asks for it. -/
theorem lease_exclusive_iff {tr : List DhcpStep} {s : DhcpState} (h : DhcpRun pool clock tr s) :
    LeaseExclusive pool tr ↔ NoForeignRequest pool tr := by
  constructor
  · rintro hexcl before t mid u after x expiry rfl ht hpool ⟨i, halloc, hip, hexp⟩ hlive hu
    obtain ⟨hbefore, hstep, hafter⟩ := h.cut
    obtain ⟨hmid, hstep', -⟩ := hafter.cut
    have hsame := (dhcpStep_spec hstep).2.2.2 ht.not_discovers
    have hclock : t.input.now ≤ u.input.now :=
      (dhcpStep_spec hstep).2.1 ▸ (clock_le hmid).trans (dhcpStep_spec hstep').1
    -- The lease is still there when the second REQUEST comes.
    have hkept : u.pre.leaseTable i = t.pre.leaseTable i := by
      rw [← hsame] at halloc hexp ⊢
      exact lease_persists hmid halloc (hexp ▸ (dhcpStep_spec hstep').1.trans_lt hlive)
    have hleased : LeaseUntil u.pre.leaseTable x expiry :=
      ⟨i, by rw [hkept, halloc], by rw [hkept, hip], by rw [hkept, hexp]⟩
    refine hexcl before t mid u after x expiry rfl ?_ (hsame ▸ ⟨i, halloc, hip, hexp⟩) hlive ?_
    · exact acks_iff.2 ⟨ht, hpool, isIpAvailable_eq_false_iff.2
        ⟨expiry, ⟨i, halloc, hip, hexp⟩, hclock.trans_lt hlive⟩⟩
    · exact acks_iff.2 ⟨hu, hpool, isIpAvailable_eq_false_iff.2 ⟨expiry, hleased, hlive⟩⟩
  · rintro hforeign before t mid u after x expiry rfl ht hleased hlive hu
    obtain ⟨-, hstep, -⟩ := h.cut
    obtain ⟨hreq, hpool, -⟩ := acks_iff.1 ht
    have hsame := (dhcpStep_spec hstep).2.2.2 hreq.not_discovers
    exact hforeign before t mid u after x expiry rfl hreq hpool (hsame ▸ hleased) hlive
      (acks_iff.1 hu).1

/-- A run with one client keeps its lease to it. -/
theorem lease_exclusive_one_client : ∃ tr s, DhcpRun initDhcpPool 0 tr s ∧
    (∃ t ∈ tr, Acks initDhcpPool t (poolIp initDhcpPool 0)) ∧ LeaseExclusive initDhcpPool tr := by
  let client : List UInt8 := 1 :: List.replicate 15 0
  obtain ⟨tr, t, hrun, -, hlast⟩ := exists_run_snoc (dhcpStep initDhcpPool) ⟨leaseTableInit, 0⟩
    [dhcpDiscoverFrom 1 0] (dhcpRequestFrom 1 10 (poolIp initDhcpPool 0)) (fun tr t =>
      decide (Acks initDhcpPool t (poolIp initDhcpPool 0) ∧ chaddr t = client ∧
        ∀ u ∈ tr, chaddr u = client)) (by decide +kernel)
  obtain ⟨hack, ht, htr⟩ := of_decide_eq_true hlast
  have hclient : ∀ u ∈ tr ++ [t], chaddr u = client := by
    intro u hu
    rcases List.mem_append.1 hu with hu | hu
    · exact htr u hu
    · rw [List.mem_singleton.1 hu, ht]
  refine ⟨tr ++ [t], t.post, hrun, ⟨t, by simp, hack⟩, (lease_exclusive_iff hrun).2 ?_⟩
  intro before v mid u after x expiry heq _ _ _ _ _
  rw [heq] at hclient
  rw [hclient u (by simp), hclient v (by simp)]

/-- The address of one client is acknowledged to another two seconds later. -/
theorem lease_exclusive_fails :
    let x := poolIp initDhcpPool 0
    ∃ tr s, DhcpRun initDhcpPool 0 tr s ∧
      tr.map (·.input) = [dhcpDiscoverFrom 1 0, dhcpRequestFrom 1 1 x, dhcpRequestFrom 2 3 x] ∧
      ¬ LeaseExclusive initDhcpPool tr := by
  intro x
  obtain ⟨tr, u, hrun, hinputs, hlast⟩ := exists_run_snoc (dhcpStep initDhcpPool)
    ⟨leaseTableInit, 0⟩ [dhcpDiscoverFrom 1 0, dhcpRequestFrom 1 1 x] (dhcpRequestFrom 2 3 x)
    (fun tr u => match tr with
      | [_, t] => decide (Acks initDhcpPool t x ∧ Acks initDhcpPool u x ∧ chaddr u ≠ chaddr t ∧
          LeaseUntil t.post.leaseTable x 180000 ∧ u.input.now < 180000)
      | _ => false) (by decide +kernel)
  rcases tr with _ | ⟨d, _ | ⟨t, _ | ⟨_, _⟩⟩⟩ <;> try cases hlast
  obtain ⟨hack, hack', hne, hleased, hlive⟩ := of_decide_eq_true hlast
  exact ⟨_, _, hrun, hinputs,
    fun hexcl => hne (hexcl [d] t [] u [] x _ rfl hack hleased hlive hack')⟩

/-! ## How long a lease is honoured -/

theorem reclaim_reclaim (now : Int) (lease : DhcpLease) :
    reclaim now (reclaim now lease) = reclaim now lease := by
  unfold reclaim
  split_ifs <;> simp_all

theorem reclaim_newLease (pool : DhcpPool) (now : Int) (i : Fin maxLeases) (old : DhcpLease) :
    reclaim now (newLease pool now i old) = newLease pool now i old := by
  have hlive : ¬ now + 180000 ≤ now := by omega
  simp [reclaim, newLease, hlive]

/-- A slot that a cleanup at `now` leaves free is offered within a few DISCOVERs at `now`: each
takes the first free slot, so that `m`, below which all slots are taken, comes closer. -/
theorem exists_offer (pool : DhcpPool) (now : Int) (i : Fin maxLeases) (m : Nat) {s : DhcpState}
    (hclock : s.clock ≤ now)
    (htaken : ∀ k : Fin maxLeases, k.val < m → (reclaim now (s.leaseTable k)).allocated = true)
    (hfree : (reclaim now (s.leaseTable i)).allocated = false) :
    ∃ tr u, Run (dhcpStep pool) s (tr ++ [u]) u.post ∧ Offers pool u (poolIp pool i) ∧
      u.input.now = now := by
  -- Each DISCOVER takes the first free slot; what is left of the slots before `i` decreases.
  induction hd : i.val - m using Nat.strong_induction_on generalizing m s with
  | _ d ih =>
    let input := dhcpDiscoverFrom 0 now
    obtain ⟨s', hstep⟩ := exists_dhcpStep pool (i := input) hclock
    let t : DhcpStep := ⟨s, input, s'⟩
    have hdisc : Discovers t := messageType_dhcpMessage 0 now dhcpDiscover [dhcpEnd]
    have hpost : s'.leaseTable = (getAvailableIp pool now s.leaseTable).1 :=
      (dhcpStep_spec (t := t) hstep).2.2.1 hdisc
    rcases getAvailableIp_spec pool now s.leaseTable with
      ⟨j, hjfree, hfirst, htable, hip⟩ | ⟨hfull, -⟩
    · rw [htable] at hpost
      by_cases hij : i = j
      · subst hij
        exact ⟨[], t, Run.nil.snoc hstep, offers_iff.2 ⟨hdisc, hip⟩, rfl⟩
      · have hji : j < i := by
          refine lt_of_le_of_ne (not_lt.1 fun hlt => ?_) (Ne.symm hij)
          exact absurd ((hfirst i hlt).symm.trans hfree) (by simp)
        have hmj : m ≤ j.val := by
          refine not_lt.1 fun hlt => ?_
          exact absurd ((htaken j hlt).symm.trans hjfree) (by simp)
        have htaken' : ∀ k : Fin maxLeases, k.val < j.val + 1 →
            (reclaim now (s'.leaseTable k)).allocated = true := by
          intro k hk
          rw [hpost]
          by_cases hkj : k = j
          · rw [hkj, Function.update_self, reclaim_newLease]
            rfl
          · rw [Function.update_of_ne hkj, cleanupExpiredLeases, reclaim_reclaim]
            exact hfirst k (lt_of_le_of_ne (Nat.lt_succ_iff.1 hk) hkj)
        have hfree' : (reclaim now (s'.leaseTable i)).allocated = false := by
          rw [hpost, Function.update_of_ne hij, cleanupExpiredLeases, reclaim_reclaim, hfree]
        obtain ⟨tr, u, hrun, hoff, hnow⟩ := ih (i.val - (j.val + 1))
          (by have := Fin.lt_def.1 hji; omega) (j.val + 1)
          (dhcpStep_spec (t := t) hstep).2.1.le htaken' hfree' rfl
        exact ⟨t :: tr, u, (Run.nil.snoc hstep : Run _ s [t] s').append hrun, hoff, hnow⟩
    · exact absurd ((hfull i).symm.trans hfree) (by simp)

/-- **An acknowledged lease is honoured for the time it announces exactly when the reservation
lasts that long.** The acknowledgement announces 18000 seconds; after it the address is not
offered before they are over, whatever datagrams come, if and only if the lease in the table
expires no sooner. -/
theorem ack_honoured_iff {tr : List DhcpStep} {t : DhcpStep} {x : UInt32}
    (h : DhcpRun initDhcpPool clock (tr ++ [t]) t.post) (hack : Acks initDhcpPool t x) :
    (∀ d ∈ dhcpReply initDhcpPool t, replyLeaseTime d = 18000) ∧
      ((∀ tr' u, Run (dhcpStep initDhcpPool) t.post (tr' ++ [u]) u.post →
          Offers initDhcpPool u x → t.input.now + 18000 ≤ u.input.now) ↔
        ∃ expiry, LeaseUntil t.pre.leaseTable x expiry ∧ t.input.now + 18000 ≤ expiry) := by
  obtain ⟨hpre, hstep, -⟩ := h.cut
  have hI := lease_history hpre
  obtain ⟨hreq, -, havail⟩ := acks_iff.1 hack
  have hsame := (dhcpStep_spec hstep).2.2.2 hreq.not_discovers
  have hclock := (dhcpStep_spec hstep).2.1
  obtain ⟨_, ⟨i, halloc, rfl, rfl⟩, hlive⟩ := isIpAvailable_eq_false_iff.1 havail
  have hip := (hI.origin i halloc).1
  refine ⟨fun d hd => ?_, fun hafter => ?_, ?_⟩
  · obtain ⟨d', hd', htype, -⟩ := hack
    obtain rfl : d' = d := Option.some.inj (hd'.symm.trans hd)
    rcases dhcpReply_cases initDhcpPool t with ⟨hdisc, -⟩ | ⟨y, -, ⟨-, hreply⟩ | ⟨-, hreply⟩⟩ |
      ⟨-, hnone, -⟩
    · exact absurd hdisc hreq.not_discovers
    · rw [← Option.some.inj (hreply.symm.trans hd)]
      exact replyLeaseTime_dhcpAckPacket ..
    · rw [← Option.some.inj (hreply.symm.trans hd), replyType_dhcpNakPacket] at htype
      cases htype
    · exact absurd hreq (hnone _)
  · -- Otherwise DISCOVERs at the moment of expiry get the address offered again.
    by_contra hexpiry
    have hshort : (t.pre.leaseTable i).leaseExpiry < t.input.now + 18000 :=
      not_le.1 fun hle => hexpiry ⟨_, ⟨i, halloc, rfl, rfl⟩, hle⟩
    have hfree : (reclaim (t.pre.leaseTable i).leaseExpiry (t.post.leaseTable i)).allocated =
        false := by
      rw [hsame]
      simp [reclaim, halloc]
    obtain ⟨tr', u, hrun, hoff, hnow⟩ := exists_offer initDhcpPool
      (t.pre.leaseTable i).leaseExpiry i 0 (hclock ▸ hlive.le) (by simp) hfree
    have := hafter tr' u hrun (hip ▸ hoff)
    omega
  · rintro ⟨_, ⟨j, hjalloc, hjip, rfl⟩, hlong⟩ tr' u hrun hoff
    obtain ⟨hmid, hustep, -⟩ := hrun.cut
    by_contra hearly
    have hjpool := (hI.origin j hjalloc).1
    have hx : (t.pre.leaseTable i).ip ≠ 0 := hip ▸ (poolIp_initDhcpPool i).1
    obtain ⟨k, hk, hexpired, -⟩ := offered hustep hx hoff
    obtain rfl : j = k := poolIp_injective initDhcpPool (hjpool.symm.trans (hjip.trans hk))
    have hle := (dhcpStep_spec hustep).1
    have hkept : u.pre.leaseTable j = t.post.leaseTable j :=
      lease_persists hmid (by rw [hsame, hjalloc]) (by rw [hsame]; omega)
    rw [hkept, hsame] at hexpired
    have := hexpired hjalloc
    omega

/-- An address that is requested soon after its offer. -/
theorem ack_honoured_soon : ∃ t : DhcpStep, ∃ x, Acks initDhcpPool t x ∧
    ∀ tr u, Run (dhcpStep initDhcpPool) t.post (tr ++ [u]) u.post → Offers initDhcpPool u x →
      t.input.now + 18000 ≤ u.input.now := by
  let x := poolIp initDhcpPool 0
  obtain ⟨tr, t, hrun, -, hlast⟩ := exists_run_snoc (dhcpStep initDhcpPool) ⟨leaseTableInit, 0⟩
    [dhcpDiscoverFrom 1 0] (dhcpRequestFrom 1 10 x) (fun _ t =>
      decide (Acks initDhcpPool t x ∧ LeaseUntil t.pre.leaseTable x 180000 ∧
        t.input.now + 18000 ≤ 180000)) (by decide +kernel)
  obtain ⟨hack, hleased⟩ := of_decide_eq_true hlast
  exact ⟨t, x, hack, (ack_honoured_iff hrun hack).2.2 ⟨180000, hleased⟩⟩

/-- An address acknowledged 170000 seconds after its offer is offered again 10000 seconds
later. -/
theorem ack_honoured_fails :
    let x := poolIp initDhcpPool 0
    ∃ tr t u, DhcpRun initDhcpPool 0 (tr ++ [t] ++ [u]) u.post ∧
      (tr ++ [t] ++ [u]).map (·.input) =
        [dhcpDiscoverFrom 1 0, dhcpRequestFrom 1 170000 x, dhcpDiscoverFrom 2 180000] ∧
      Acks initDhcpPool t x ∧ (∀ d ∈ dhcpReply initDhcpPool t, replyLeaseTime d = 18000) ∧
      Offers initDhcpPool u x ∧ t.input.now ≤ u.input.now ∧
      u.input.now < t.input.now + 18000 := by
  intro x
  obtain ⟨tr, u, hrun, hinputs, hlast⟩ := exists_run_snoc (dhcpStep initDhcpPool)
    ⟨leaseTableInit, 0⟩ [dhcpDiscoverFrom 1 0, dhcpRequestFrom 1 170000 x]
    (dhcpDiscoverFrom 2 180000)
    (fun tr u => match tr with
      | [_, t] => decide (Acks initDhcpPool t x ∧
          (∀ d ∈ dhcpReply initDhcpPool t, replyLeaseTime d = 18000) ∧ Offers initDhcpPool u x ∧
          t.input.now ≤ u.input.now ∧ u.input.now < t.input.now + 18000)
      | _ => false) (by decide +kernel)
  rcases tr with _ | ⟨d, _ | ⟨t, _ | ⟨_, _⟩⟩⟩ <;> try cases hlast
  exact ⟨[d], t, u, hrun, hinputs, of_decide_eq_true hlast⟩

end NaptRouter
