import NaptRouter.DhcpPool
import Mathlib.Data.Fintype.Card

/-!
# How many clients the pool can take

A DISCOVER takes a slot for 180000 seconds. So the slots that are taken at some time are as many
as DISCOVERs have come in the 180000 seconds before (`card_live`), and the server keeps to its
pool as long as no DISCOVER comes when ten others have come within that time
(`offers_pool_few_iff`).
-/

namespace NaptRouter

open ByteMemory Runs

/-- The lease of the slot has not expired. -/
def Live (leaseTable : LeaseTable) (now : Int) (i : Fin maxLeases) : Prop :=
  (leaseTable i).allocated = true ∧ now < (leaseTable i).leaseExpiry

instance (leaseTable : LeaseTable) (now : Int) (i : Fin maxLeases) :
    Decidable (Live leaseTable now i) := inferInstanceAs (Decidable (_ ∧ _))

instance (t : DhcpStep) : Decidable (Discovers t) := inferInstanceAs (Decidable (_ = _))

/-- The slots that are taken at the time. -/
def live (leaseTable : LeaseTable) (now : Int) : Finset (Fin maxLeases) :=
  Finset.univ.filter (Live leaseTable now)

/-- The DISCOVERs that have come in the 180000 seconds before `now`. -/
def recent (tr : List DhcpStep) (now : Int) : List DhcpStep :=
  tr.filter fun t => Discovers t ∧ now < t.input.now + 180000

section Count

variable {pool : DhcpPool} {clock : Int} {t : DhcpStep} {tr : List DhcpStep} {s : DhcpState}

theorem live_iff_not_free {i : Fin maxLeases} :
    Live t.pre.leaseTable t.input.now i ↔ ¬ Free t i := by
  rw [Live, Free, Classical.not_imp, Int.not_le]

theorem exists_free_iff :
    (∃ i, Free t i) ↔ (live t.pre.leaseTable t.input.now).card < maxLeases := by
  have hcard : (Finset.univ : Finset (Fin maxLeases)).card = maxLeases := Finset.card_fin maxLeases
  constructor
  · intro hfree
    obtain ⟨i, hi⟩ := hfree
    have hsub : live t.pre.leaseTable t.input.now ⊂ Finset.univ :=
      Finset.filter_ssubset.2 ⟨i, Finset.mem_univ i, mt live_iff_not_free.1 (not_not_intro hi)⟩
    exact (Finset.card_lt_card hsub).trans_eq hcard
  · intro hlt
    by_contra hnone
    have hall : live t.pre.leaseTable t.input.now = Finset.univ :=
      Finset.filter_true_of_mem fun i _ => live_iff_not_free.2 fun hi => hnone ⟨i, hi⟩
    rw [hall, hcard] at hlt
    exact hlt.false

theorem live_cleanup {leaseTable : LeaseTable} {now later : Int} (hle : now ≤ later)
    {i : Fin maxLeases} :
    Live (cleanupExpiredLeases now leaseTable) later i ↔ Live leaseTable later i := by
  rw [Live, Live, cleanupExpiredLeases, reclaim]
  split_ifs with hexpired
  · rw [Bool.and_eq_true, decide_eq_true_iff] at hexpired
    exact iff_of_false (fun h => h.1) fun h => Int.not_lt.2 (hexpired.2.trans hle) h.2
  · rfl

/-- A DISCOVER that finds a free slot takes one more. -/
theorem card_live_discover (hstep : dhcpStep pool t.pre t.input = some t.post)
    (hdisc : Discovers t) (hfree : ∃ i, Free t i) {later : Int} (hle : t.input.now ≤ later) :
    (live t.post.leaseTable later).card = (live t.pre.leaseTable later).card +
      if later < t.input.now + 180000 then 1 else 0 := by
  have htable := (dhcpStep_spec hstep).2.2.1 hdisc
  rcases getAvailableIp_spec pool t.input.now t.pre.leaseTable with
    ⟨i, hslot, -, hget, -⟩ | ⟨htaken, -⟩
  · rw [hget] at htable
    have hself : Live t.post.leaseTable later i ↔ later < t.input.now + 180000 := by
      rw [Live, htable, Function.update_self]
      exact and_iff_right rfl
    have hother (j : Fin maxLeases) (hj : j ≠ i) :
        Live t.post.leaseTable later j ↔ Live t.pre.leaseTable later j := by
      rw [Live, htable, Function.update_of_ne hj]
      exact live_cleanup hle
    have hwas : ¬ Live t.pre.leaseTable later i := by
      intro hlive
      exact Int.not_lt.2 ((free_iff.2 hslot hlive.1).trans hle) hlive.2
    split_ifs with hlater
    · have hinsert : live t.post.leaseTable later = insert i (live t.pre.leaseTable later) := by
        ext j
        rw [Finset.mem_insert, live, live, Finset.mem_filter, Finset.mem_filter]
        rcases eq_or_ne j i with rfl | hj
        · simp [hself, hlater]
        · simp [hother j hj, hj]
      rw [hinsert, Finset.card_insert_of_notMem]
      simpa [live] using hwas
    · have hsame : live t.post.leaseTable later = live t.pre.leaseTable later := by
        apply Finset.filter_congr
        intro j _
        rcases eq_or_ne j i with rfl | hj
        · exact iff_of_false (mt hself.1 hlater) hwas
        · exact hother j hj
      rw [hsame, Nat.add_zero]
  · obtain ⟨i, hi⟩ := hfree
    rw [free_iff, htaken i] at hi
    exact absurd hi Bool.false_ne_true.symm

theorem length_recent_snoc (tr : List DhcpStep) (t : DhcpStep) (now : Int) :
    (recent (tr ++ [t]) now).length =
      (recent tr now).length + if Discovers t ∧ now < t.input.now + 180000 then 1 else 0 := by
  rw [recent, List.filter_append, List.length_append, ← recent]
  split_ifs with ht
  · rw [List.filter_cons_of_pos (by simpa using ht), List.filter_nil, List.length_singleton]
  · rw [List.filter_cons_of_neg (by simpa using ht), List.filter_nil, List.length_nil]

/-- **As many slots are taken as DISCOVERs have come recently**, as long as each has found one. -/
theorem card_live (h : DhcpRun pool clock tr s) (hfree : ∀ t ∈ tr, Discovers t → ∃ i, Free t i)
    {later : Int} (hle : s.clock ≤ later) :
    (live s.leaseTable later).card = (recent tr later).length := by
  induction h generalizing later with
  | nil => simp [live, Live, leaseTableInit, recent]
  | @snoc tr s s' i hr hs ih =>
    have hstep : dhcpStep pool s i = some s' := hs
    obtain ⟨hclock, hnow, -, hother⟩ := dhcpStep_spec (t := ⟨s, i, s'⟩) hstep
    simp only [List.forall_mem_append, List.forall_mem_singleton] at hfree
    have hlater : i.now ≤ later := hnow ▸ hle
    have hbefore := ih hfree.1 (hclock.trans hlater)
    rw [length_recent_snoc, ← hbefore]
    by_cases hdisc : Discovers ⟨s, i, s'⟩
    · rw [card_live_discover (t := ⟨s, i, s'⟩) hstep hdisc (hfree.2 hdisc) hlater]
      simp only [hdisc, true_and]
    · rw [hother hdisc, if_neg fun hand => hdisc hand.1, Nat.add_zero]

theorem hasSlot_initDhcpPool (hstep : dhcpStep initDhcpPool t.pre t.input = some t.post)
    (hdisc : Discovers t) : HasSlot initDhcpPool t ↔ ∃ i, Free t i := by
  have hall : ∀ i : Fin maxLeases,
      hostOrder initDhcpPool.poolStart + i ≤ hostOrder initDhcpPool.poolEnd := by decide +kernel
  constructor
  · intro hslot
    obtain ⟨i, hi, -⟩ := hslot
    exact ⟨i, hi⟩
  · intro hfree
    rcases discover_cases hstep hdisc with ⟨i, hi, hfirst, -⟩ | ⟨hnone, -⟩
    · exact ⟨i, hi, hfirst, hall i⟩
    · obtain ⟨i, hi⟩ := hfree
      exact absurd hi (hnone i)

/-- Ten DISCOVERs in 180000 seconds are never followed by another one within that time. -/
def FewDiscovers (tr : List DhcpStep) : Prop :=
  ∀ before t after, tr = before ++ t :: after → Discovers t →
    (recent before t.input.now).length < maxLeases

theorem exists_free_iff_recent (h : DhcpRun pool clock tr t.pre)
    (hstep : dhcpStep pool t.pre t.input = some t.post)
    (hfree : ∀ u ∈ tr, Discovers u → ∃ i, Free u i) :
    (∃ i, Free t i) ↔ (recent tr t.input.now).length < maxLeases := by
  rw [exists_free_iff, card_live h hfree (dhcpStep_spec hstep).1]

/-- Every DISCOVER of a run finds a slot exactly when they are few. -/
theorem all_free_iff (h : DhcpRun pool clock tr s) :
    (∀ t ∈ tr, Discovers t → ∃ i, Free t i) ↔ FewDiscovers tr := by
  constructor
  · rintro hall before t after rfl hdisc
    obtain ⟨hbefore, hstep, -⟩ := h.cut
    have hfree : ∀ u ∈ before, Discovers u → ∃ i, Free u i :=
      fun u hu => hall u (List.mem_append_left _ hu)
    exact (exists_free_iff_recent hbefore hstep hfree).1 (hall t (by simp) hdisc)
  · intro hfew
    induction h with
    | nil =>
      intro t ht
      cases ht
    | @snoc tr s s' i hr hs ih =>
      have hinit : ∀ u ∈ tr, Discovers u → ∃ i, Free u i := by
        apply ih
        rintro before t after rfl
        exact hfew before t (after ++ [⟨s, i, s'⟩]) (by simp)
      intro t ht hdisc
      rcases List.mem_append.1 ht with ht | ht
      · exact hinit t ht hdisc
      · obtain rfl := List.mem_singleton.1 ht
        exact (exists_free_iff_recent (t := ⟨s, i, s'⟩) hr hs hinit).2 (hfew tr _ [] rfl hdisc)

end Count

/-- **The pool of the router is never exhausted** exactly when no DISCOVER comes when ten others
have come in the last 180000 seconds. -/
theorem offers_pool_few_iff {clock : Int} {tr : List DhcpStep} {s : DhcpState}
    (h : DhcpRun initDhcpPool clock tr s) :
    (∀ t ∈ tr, OffersPool initDhcpPool t) ↔ FewDiscovers tr := by
  rw [← all_free_iff h]
  refine forall₂_congr fun t ht => ?_
  obtain ⟨before, after, rfl⟩ := List.append_of_mem ht
  have hstep := h.cut.2.1
  rw [offersPool_iff hstep]
  exact forall_congr' fun hdisc => hasSlot_initDhcpPool hstep hdisc

/-- The first DISCOVER is offered an address of the pool. -/
theorem offers_pool_few_one : ∃ t : DhcpStep, DhcpRun initDhcpPool 0 [t] t.post ∧ Discovers t ∧
    OffersPool initDhcpPool t := by
  obtain ⟨tr, t, hrun, hinputs, hlast⟩ := exists_run_snoc (dhcpStep initDhcpPool)
    ⟨leaseTableInit, 0⟩ [] (dhcpDiscoverFrom 1 0) (fun _ t =>
      decide (messageType t.input.buffer t.input.recvLen = dhcpDiscover)) (by decide +kernel)
  obtain rfl : tr = [] := by
    simpa using congrArg List.length hinputs
  have hfew : FewDiscovers [t] := by
    intro before u after heq _
    obtain rfl : before = [] := by
      have hlen := congrArg List.length heq
      simp only [List.length_append, List.length_cons, List.length_nil] at hlen
      exact List.eq_nil_of_length_eq_zero (by omega)
    exact Nat.succ_pos 9
  exact ⟨t, hrun, of_decide_eq_true hlast, (offers_pool_few_iff hrun).2 hfew t (by simp)⟩

end NaptRouter
