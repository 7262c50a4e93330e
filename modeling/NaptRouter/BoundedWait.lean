import NaptRouter.ArpTimeout

/-!
# How long a packet waits

A node is asked for again when the timer runs out next, and given up the time after that. So no
packet waits longer than two seconds for an address, as long as the timer runs. It stops when
`timer_update_packets` takes out the head while others wait and the timer has exactly a second left
(`bounded_wait_iff`), and then it does not run again before the list is empty
(`stranded_until_empty`).
-/

namespace NaptRouter

open ByteMemory Runs Lifecycle

variable {cfg : Config} {r r' : Router} {es : List (Nat × NodeEvent)} {s s' : ClockState}
  {i : ClockInput cfg} {dst : IpAddr}

/-! ## Deadlines of nodes -/

/-- The node of the address goes. -/
def Gone (dst : IpAddr) (e : NodeEvent) : Prop := e = .dropped dst ∨ e = .resolved dst

/-- The node of the address was opened at that time, and has not gone since. -/
def OpenedAt (es : List (Nat × NodeEvent)) (dst : IpAddr) (time : Nat) : Prop :=
  Since (· = (time, .opened dst)) (fun e => Gone dst e.2) es

theorem life_retried {e : NodeEvent} {before : Option Nat} {later : Nat}
    (hopened : ∀ dst, e ≠ .opened dst) (h : life before e = some (some later)) :
    ∃ earlier, before = some earlier ∧ later = earlier + 1 ∧ ∀ dst, ¬ Gone dst e := by
  cases e with
  | opened dst => exact absurd rfl (hopened dst)
  | retried dst =>
    rcases before with _ | _ | _ | earlier
    · cases h
    · refine ⟨0, rfl, (Option.some.inj (Option.some.inj h)).symm, fun dst' hgone => ?_⟩
      rcases hgone with hgone | hgone <;> cases hgone
    · cases h
    · cases h
  | dropped dst => rcases before with _ | _ | _ | earlier <;> cases h
  | resolved dst =>
    cases before with
    | none => cases h
    | some earlier =>
      rw [life_resolved] at h
      cases h

/-- If nothing is opened, a node that is there was there before, and every event is a retry. -/
theorem life_kept {events : List NodeEvent} {before : Option Nat} {retries : Nat}
    (hopened : ∀ e ∈ events, ∀ dst, e ≠ .opened dst)
    (h : events.foldlM life before = some (some retries)) :
    ∃ earlier, before = some earlier ∧ retries = earlier + events.length ∧
      ∀ e ∈ events, ∀ dst, ¬ Gone dst e := by
  induction events generalizing before with
  | nil => exact ⟨retries, Option.some.inj h, rfl, fun e he => by cases he⟩
  | cons e rest ih =>
    rw [List.foldlM_cons, Option.bind_eq_bind] at h
    obtain ⟨next, hnext, hrest⟩ := Option.bind_eq_some_iff.1 h
    obtain ⟨later, rfl, rfl, hkept⟩ :=
      ih (fun e he => hopened e (List.mem_cons_of_mem _ he)) hrest
    obtain ⟨earlier, rfl, rfl, hgone⟩ := life_retried (hopened e List.mem_cons_self) hnext
    refine ⟨earlier, rfl, by rw [List.length_cons]; omega, fun e' he' => ?_⟩
    rcases List.mem_cons.1 he' with rfl | he'
    · exact hgone
    · exact hkept e' he'

/-- While the timer runs, a node is asked for again within a second of its opening, and then given
up within two. -/
def DueIn (es : List (Nat × NodeEvent)) (r : Router) (now : Nat) : Prop :=
  0 < r.timer → ∀ dst retries, lifeOf r.deltaList dst = some retries →
    ∃ time, OpenedAt es dst time ∧ now + r.timer ≤ time + (retries + 1) * 1000000000

theorem Gone.dst_eq {e : NodeEvent} (h : Gone dst e) : e.dst = dst := by
  rcases h with rfl | rfl
  · rfl
  · rfl

/-- A node that is there after a step without openings was there before. Each event of its address
is a retry. -/
theorem step_kept {retries : Nat}
    (hlive : NodesLive (clockEvents cfg s.router i) s.router.deltaList s'.router.deltaList)
    (hopened : ∀ e ∈ clockEvents cfg s.router i, ∀ dst, e ≠ .opened dst)
    (hlife : lifeOf s'.router.deltaList dst = some retries) :
    ∃ earlier, lifeOf s.router.deltaList dst = some earlier ∧
      retries = earlier + ((clockEvents cfg s.router i).filter (·.dst = dst)).length ∧
      ∀ u ∈ stamped ⟨s, i, s'⟩, ¬ Gone dst u.2 := by
  obtain ⟨earlier, hbefore, hcount, hgone⟩ := life_kept
    (fun e he => hopened e (List.mem_of_mem_filter he)) ((hlive dst).trans (congrArg some hlife))
  refine ⟨earlier, hbefore, hcount, fun u hu hu' => ?_⟩
  obtain ⟨e, he, rfl⟩ := List.mem_map.1 hu
  exact hgone e (List.mem_filter.2 ⟨he, decide_eq_true hu'.dst_eq⟩) dst hu'

theorem DueIn.keep (h : DueIn es s.router s.now)
    (hlive : NodesLive (clockEvents cfg s.router i) s.router.deltaList s'.router.deltaList)
    (hopened : ∀ e ∈ clockEvents cfg s.router i, ∀ dst, e ≠ .opened dst)
    (htimer : 0 < s'.router.timer → 0 < s.router.timer ∧
      s'.now + s'.router.timer = s.now + s.router.timer) :
    DueIn (es ++ stamped ⟨s, i, s'⟩) s'.router s'.now := by
  intro hpos dst retries hlife
  obtain ⟨hpos', hend⟩ := htimer hpos
  obtain ⟨earlier, hbefore, hcount, hgone⟩ := step_kept hlive hopened hlife
  obtain ⟨time, hopen, hdue⟩ := h hpos' dst earlier hbefore
  have hretries : earlier + 1 ≤ retries + 1 := by omega
  exact ⟨time, hopen.append hgone, (hend.trans_le hdue).trans
    (Nat.add_le_add_left (Nat.mul_le_mul_right _ hretries) _)⟩

/-- **The timer runs out**, and is armed again for a second. Every node that is still there has
been asked for again. -/
theorem DueIn.handler (h : DueIn es s.router s.now) (hfront : Fronted s.router.deltaList)
    (hlive : NodesLive (clockEvents cfg s.router .handler) s.router.deltaList
      s'.router.deltaList) (hpos : 0 < s.router.timer)
    (hnow : s'.now = s.now + s.router.timer) (htimer : s'.router.timer ≤ 1000000000) :
    DueIn (es ++ stamped ⟨s, (.handler : ClockInput cfg), s'⟩) s'.router s'.now := by
  intro _ dst retries hlife
  have hopened : ∀ e ∈ clockEvents cfg s.router .handler, ∀ dst, e ≠ .opened dst := by
    intro e he dst heq
    obtain ⟨node, -, hnode⟩ := List.mem_map.1 he
    have hpops := expiry_pops node
    rw [hnode, heq] at hpops
    rcases hpops with hpops | hpops <;> cases hpops
  obtain ⟨earlier, hbefore, hcount, hgone⟩ := step_kept hlive hopened hlife
  obtain ⟨time, hopen, hdue⟩ := h hpos dst earlier hbefore
  have hmem : dst ∈ (popped cfg s.router).map (·.ipAddr) := by
    rw [hfront.popped_addrs cfg]
    by_contra hnew
    rw [lifeOf_eq_none hnew] at hbefore
    cases hbefore
  have hretried : 0 < ((clockEvents cfg s.router .handler).filter (·.dst = dst)).length := by
    obtain ⟨node, hnode, rfl⟩ := List.mem_map.1 hmem
    exact List.length_pos_of_mem (List.mem_filter.2
      ⟨List.mem_map_of_mem hnode, decide_eq_true (expiry_pops node).dst_eq⟩)
  have hretries : earlier + 1 + 1 ≤ retries + 1 := by omega
  refine ⟨time, hopen.append hgone, ?_⟩
  calc s'.now + s'.router.timer ≤ time + (earlier + 1) * 1000000000 + 1000000000 :=
        Nat.add_le_add (hnow.trans_le hdue) htimer
    _ = time + (earlier + 1 + 1) * 1000000000 := by rw [Nat.succ_mul (earlier + 1), Nat.add_assoc]
    _ ≤ time + (retries + 1) * 1000000000 :=
        Nat.add_le_add_left (Nat.mul_le_mul_right _ hretries) _

theorem lifeOf_ne_nil {nodes : List DeltaNode} {retries : Nat}
    (h : lifeOf nodes dst = some retries) : nodes ≠ [] := by
  rintro rfl
  cases h

/-- **A packet is queued**: a node that it opens has no more than a second. -/
theorem DueIn.add (h : DueIn es s.router s.now)
    (hlive : NodesLive (addEvents s.router dst) s.router.deltaList s'.router.deltaList)
    (hnow : s'.now = s.now) (hle : s'.router.timer ≤ 1000000000)
    (htimer : s.router.deltaList ≠ [] → s'.router.timer = s.router.timer) :
    DueIn (es ++ (addEvents s.router dst).map fun e => (s'.now, e)) s'.router s'.now := by
  intro hpos k retries hlife
  have hfold := (hlive k).trans (congrArg some hlife)
  have hother (hbefore : lifeOf s.router.deltaList k = some retries) :
      ∃ time, OpenedAt es k time ∧
        s'.now + s'.router.timer ≤ time + (retries + 1) * 1000000000 := by
    have hsame := htimer (lifeOf_ne_nil hbefore)
    rw [hnow, hsame]
    exact h (hsame ▸ hpos) k retries hbefore
  rw [addEvents] at hfold ⊢
  by_cases hmem : dst ∈ addrs s.router.deltaList
  · rw [if_pos hmem] at hfold ⊢
    rw [List.map_nil, List.append_nil]
    exact hother (Option.some.inj hfold)
  · rw [if_neg hmem] at hfold ⊢
    rcases eq_or_ne dst k with rfl | hne
    · have hfilter : [NodeEvent.opened dst].filter (·.dst = dst) = [.opened dst] :=
        List.filter_cons_of_pos (decide_eq_true rfl)
      rw [hfilter, lifeOf_eq_none hmem] at hfold
      obtain rfl : 0 = retries := Option.some.inj (Option.some.inj hfold)
      refine ⟨s'.now, since_snoc.2 (Or.inl rfl), ?_⟩
      rw [Nat.zero_add, Nat.one_mul]
      exact Nat.add_le_add_left hle _
    · have hfilter : [NodeEvent.opened dst].filter (·.dst = k) = [] :=
        List.filter_cons_of_neg fun heq => hne (of_decide_eq_true heq)
      rw [hfilter] at hfold
      obtain ⟨time, hopen, hdue⟩ := hother (Option.some.inj hfold)
      refine ⟨time, hopen.append fun u hu hgone => ?_, hdue⟩
      rw [List.map_singleton, List.mem_singleton] at hu
      rw [hu] at hgone
      rcases hgone with hgone | hgone <;> cases hgone

/-! ## The clock -/

/-- The timer runs if a node waits. -/
def Armed (r : Router) : Prop := r.deltaList ≠ [] → 0 < r.timer

/-- The head is taken out while others wait and the timer has exactly a second left. -/
def StopsTimer (r : Router) : ClockInput cfg → Prop
  | .unlink dst => headIs dst r.deltaList = true ∧ 1 < r.deltaList.length ∧ r.timer = 1000000000
  | .addPacket .. | .flush .. | .handler | .elapse _ | .learn _ => False

instance (r : Router) (i : ClockInput cfg) : Decidable (StopsTimer r i) :=
  match i with
  | .unlink _ => inferInstanceAs (Decidable (_ ∧ _ ∧ _))
  | .addPacket .. => isFalse id
  | .flush .. => isFalse id
  | .handler => isFalse id
  | .elapse _ => isFalse id
  | .learn _ => isFalse id

theorem armed_of_add (h : Armed r) (htimer : r'.timer = if r.deltaList = [] then 1000000000
    else r.timer) : Armed r' := by
  intro _
  rw [htimer]
  split_ifs with hnil
  · decide
  · exact h hnil

theorem unlinked_head {node : DeltaNode} (hfront : Fronted r.deltaList)
    (hunlinked : unlinked r dst = some (node, r')) (hhead : headIs dst r.deltaList = true)
    (hlen : 1 < r.deltaList.length) : r'.deltaList ≠ [] ∧ r'.timer = r.timer % 1000000000 := by
  obtain ⟨hunlink, head, rest, hlist, htimer⟩ := unlinked_spec hunlinked
  rw [hlist] at hfront hhead hlen hunlink
  have heq : ipAddrEquals head.ipAddr dst = true := by simpa [headIs] using hhead
  cases rest with
  | nil => exact absurd hlen (Nat.lt_irrefl 1)
  | cons next rest =>
    obtain rfl := ipAddrEquals_iff.1 heq
    rw [unlinkNode_self] at hunlink
    obtain ⟨-, hnodes⟩ := Prod.mk.inj (Option.some.inj hunlink)
    refine ⟨hnodes ▸ List.cons_ne_nil _ _, ?_⟩
    rw [htimer, if_pos heq, rearmAfterHead, hfront.2 next List.mem_cons_self]
    simp only [Router.timerSettime, Router.timerTvNsec, Nat.zero_mul, Nat.add_zero,
      Nat.div_add_mod']

theorem unlinked_other {node : DeltaNode} (hunlinked : unlinked r dst = some (node, r'))
    (h : ¬ (headIs dst r.deltaList = true ∧ 1 < r.deltaList.length)) :
    r'.deltaList = [] ∨ r'.timer = r.timer := by
  obtain ⟨hunlink, head, rest, hlist, htimer⟩ := unlinked_spec hunlinked
  by_cases heq : ipAddrEquals head.ipAddr dst = true
  · left
    have hhead : headIs dst r.deltaList = true := by simpa [headIs, hlist] using heq
    have hlen := fun hlen => h ⟨hhead, hlen⟩
    rw [hlist] at hunlink hlen
    cases rest with
    | nil =>
      obtain rfl := ipAddrEquals_iff.1 heq
      rw [unlinkNode_self] at hunlink
      exact (Prod.mk.inj (Option.some.inj hunlink)).2.symm
    | cons next rest => exact absurd (by simp) hlen
  · exact Or.inr (htimer.trans (if_neg heq))

theorem exists_unlinked (h : headIs dst r.deltaList = true) :
    ∃ node r', unlinked r dst = some (node, r') := by
  cases hlist : r.deltaList with
  | nil =>
    rw [hlist] at h
    cases h
  | cons head rest =>
    rw [hlist] at h
    obtain rfl : head.ipAddr = dst := ipAddrEquals_iff.1 (by simpa [headIs] using h)
    rw [unlinked, hlist, unlinkNode_self]
    exact ⟨_, _, rfl⟩

theorem armed_unlinked {node : DeltaNode} (hok : ClockOk es s) (h : Armed s.router)
    (hunlinked : unlinked s.router dst = some (node, r')) :
    Armed r' ↔ ¬ StopsTimer s.router (.unlink dst : ClockInput cfg) := by
  obtain ⟨-, head, rest, hlist, -⟩ := unlinked_spec hunlinked
  have hpos : 0 < s.router.timer := h (hlist ▸ List.cons_ne_nil head rest)
  by_cases hhead : headIs dst s.router.deltaList = true ∧ 1 < s.router.deltaList.length
  · obtain ⟨hne, htimer⟩ := unlinked_head hok.fronted hunlinked hhead.1 hhead.2
    constructor
    · intro harmed hstop
      have hleft := harmed hne
      rw [htimer, hstop.2.2, Nat.mod_self] at hleft
      exact Nat.lt_irrefl 0 hleft
    · intro hrun _
      rcases hok.timer.lt_or_eq with hlt | heq
      · rwa [htimer, Nat.mod_eq_of_lt hlt]
      · exact absurd ⟨hhead.1, hhead.2, heq⟩ hrun
  · refine iff_of_true (fun hne => ?_) fun hstop => hhead ⟨hstop.1, hstop.2.1⟩
    rcases unlinked_other hunlinked hhead with hnil | hsame
    · exact absurd hnil hne
    · rwa [hsame]

/-- **One call** keeps the timer running, unless it stops it. -/
theorem armed_clockStep (hok : ClockOk es s) (h : Armed s.router)
    (hstep : clockStep cfg s i = some s') : Armed s'.router ↔ ¬ StopsTimer s.router i := by
  cases i with
  | addPacket q intId dst =>
    rw [← Option.some.inj hstep]
    exact iff_of_true (armed_of_add h (timerAddPacket_timer cfg s.router q intId dst).2) id
  | unlink dst =>
    rw [← Option.some.inj hstep]
    cases hunlinked : unlinked s.router dst with
    | none =>
      refine iff_of_true h fun hstop => ?_
      obtain ⟨node, r', hsome⟩ := exists_unlinked hstop.1
      cases hunlinked.symm.trans hsome
    | some found => exact armed_unlinked hok h hunlinked
  | flush q nh =>
    rw [← Option.some.inj hstep]
    refine iff_of_true ?_ id
    -- The packet is sent, or queued again as any other.
    rcases sendIpv4_timer cfg s.router q.pkt with ⟨htimer, hlist⟩ | ⟨-, htimer⟩
    · intro hne
      exact htimer ▸ h (hlist ▸ hne)
    · have harmed : Armed (sendIpv4 cfg s.router q.pkt) := armed_of_add h htimer
      exact harmed
  | handler =>
    obtain ⟨-, rfl⟩ := clockStep_handler.1 hstep
    have hfront := fronted_timerHandler cfg (r := { s.router with timer := 0 }) hok.fronted
    refine iff_of_true (fun hne => ?_) id
    rw [timerHandler_timer cfg rfl, hfront.headTimer_eq, if_neg hne]
    decide
  | elapse nsec =>
    rw [clockStep] at hstep
    split_ifs at hstep with hlt
    rw [← Option.some.inj hstep]
    refine iff_of_true (fun hne => ?_) id
    have hpos := h hne
    show 0 < s.router.timer - nsec
    omega
  | learn pair =>
    rw [← Option.some.inj hstep]
    exact iff_of_true h id

theorem dueIn_clockStep (hok : ClockOk es s) (h : DueIn es s.router s.now)
    (hstep : clockStep cfg s i = some s') :
    DueIn (es ++ stamped ⟨s, i, s'⟩) s'.router s'.now := by
  have hlive := clockEvents_live hok.list hstep
  have htimer' := (clockStep_list hok.list hok.fronted hok.timer hstep).2.2
  cases i with
  | addPacket q intId dst =>
    rw [← Option.some.inj hstep] at hlive htimer' ⊢
    refine h.add hlive rfl htimer' fun hne => ?_
    exact (timerAddPacket_timer cfg s.router q intId dst).2.trans (if_neg hne)
  | unlink dst =>
    rw [← Option.some.inj hstep] at hlive ⊢
    cases hunlinked : unlinked s.router dst with
    | none => simpa [stamped, clockEvents, hunlinked] using h
    | some found =>
      obtain ⟨node, r'⟩ := found
      rw [hunlinked] at hlive
      refine h.keep hlive (by simp [clockEvents, hunlinked]) fun hpos => ?_
      -- Unlinking the head keeps the time left, or disarms the timer.
      rcases unlinked_timer hok.fronted hok.timer hunlinked with hsame | hzero
      · exact ⟨hsame ▸ hpos, congrArg (s.now + ·) hsame⟩
      · exact absurd hzero hpos.ne'
  | flush q nh =>
    rw [← Option.some.inj hstep] at hlive htimer' ⊢
    cases hres : hasMacForIp s.router.ipMacMap (nextHop cfg q.pkt) with
    | true =>
      obtain ⟨-, htimer⟩ := sendIpv4_resolved_list hres
      refine h.keep hlive (by simp [clockEvents, sendEvents, hres]) fun hpos => ?_
      exact ⟨htimer ▸ hpos, congrArg (s.now + ·) htimer⟩
    | false =>
      have hevents : clockEvents cfg s.router (.flush q nh) =
          addEvents s.router (nextHop cfg q.pkt) := by
        simp [clockEvents, sendEvents, hres]
      rw [hevents] at hlive
      rw [stamped, hevents]
      refine h.add hlive rfl htimer' fun hne => ?_
      exact (sendIpv4_timer_of_ne cfg hne q.pkt).2
  | handler =>
    obtain ⟨hpos, hs'⟩ := clockStep_handler.1 hstep
    exact h.handler hok.fronted hlive hpos (by rw [hs']) htimer'
  | elapse nsec =>
    refine h.keep hlive (fun e he => by cases he) fun hpos => ?_
    rw [clockStep_elapse hstep] at hpos ⊢
    have hpos' : 0 < s.router.timer - nsec := hpos
    show 0 < s.router.timer ∧ s.now + nsec + (s.router.timer - nsec) = s.now + s.router.timer
    omega
  | learn pair =>
    refine h.keep hlive (fun e he => by cases he) fun hpos => ?_
    rw [← Option.some.inj hstep] at hpos ⊢
    exact ⟨hpos, rfl⟩

/-- However long no call comes next, no node will have waited for more than two seconds. -/
def Prompt (tr : List (Step ClockState (ClockInput cfg))) (s : ClockState) : Prop :=
  ∀ nsec s', clockStep cfg s (.elapse nsec) = some s' → ∀ dst ∈ addrs s'.router.deltaList,
    ∃ time, OpenedAt (timedEvents tr) dst time ∧ s'.now ≤ time + 2000000000

variable {tr tr' : List (Step ClockState (ClockInput cfg))}

theorem dueIn (h : ClockRun cfg r tr s) : DueIn (timedEvents tr) s.router s.now := by
  refine h.history (I := fun tr s => DueIn (timedEvents tr) s.router s.now)
    (fun hpos => absurd hpos (Nat.lt_irrefl 0)) ?_
  intro tr s i s' hrun ih hstep
  rw [timedEvents_snoc]
  exact dueIn_clockStep (clockOk hrun) ih hstep

/-- The wait is bounded while the timer runs, and not when it has stopped. -/
theorem prompt_iff (h : ClockRun cfg r tr s) : Prompt tr s ↔ Armed s.router := by
  have hok := clockOk h
  constructor
  · intro hprompt hne
    by_contra hzero
    have htimer : s.router.timer = 0 := Nat.eq_zero_of_not_pos hzero
    obtain ⟨node, rest, hlist⟩ := List.exists_cons_of_ne_nil hne
    -- With the timer disarmed, any time may pass.
    obtain ⟨long, hlong⟩ : ∃ long, long = 2000000001 := ⟨_, rfl⟩
    have hstep : clockStep cfg s (.elapse long) =
        some ⟨{ s.router with timer := s.router.timer - long }, s.now + long⟩ :=
      if_pos (Or.inl htimer)
    have hmem : node.ipAddr ∈ addrs s.router.deltaList := by
      rw [hlist]
      exact List.mem_cons_self
    obtain ⟨time, hopen, hlate⟩ := hprompt _ _ hstep node.ipAddr hmem
    obtain ⟨e, he, rfl⟩ := hopen.exists_mem
    have hpast : time ≤ s.now := hok.past _ he
    have hlate' : s.now + long ≤ time + 2000000000 := hlate
    omega
  · intro harmed nsec s' hstep dst hdst
    obtain ⟨node, hnode, rfl⟩ := List.mem_map.1 hdst
    rw [clockStep] at hstep
    split_ifs at hstep with hlt
    rw [← Option.some.inj hstep] at hnode ⊢
    have hpos := harmed (List.ne_nil_of_mem hnode)
    obtain ⟨time, hopen, hdue⟩ := dueIn h hpos _ _ (lifeOf_of_mem hok.list.nodup hnode)
    have hretry := hok.list.retry node hnode
    have hscale : (node.retryAmt + 1) * 1000000000 ≤ 2 * 1000000000 :=
      Nat.mul_le_mul_right _ (Nat.succ_le_succ hretry)
    refine ⟨time, hopen, ?_⟩
    show s.now + nsec ≤ time + 2 * 1000000000
    omega

/-- **No node waits longer than two seconds**, throughout a run, if and only if no call stops the
timer. -/
theorem bounded_wait_iff (h : ClockRun cfg r tr s) :
    (∀ before t after, tr = before ++ t :: after → Prompt (before ++ [t]) t.post) ↔
      ∀ t ∈ tr, ¬ StopsTimer t.pre.router t.input := by
  have hstart : Armed (clockIdle r).router := fun hne => absurd rfl hne
  rw [← h.forall_upto_iff (P := fun _ s => Armed s.router) hstart fun tr s i s' hrun harmed hstep =>
    armed_clockStep (clockOk hrun) harmed hstep]
  refine forall₄_congr fun before t after heq => ?_
  subst heq
  exact prompt_iff h.upto

/-- Two hosts are asked for, one after the other; the first one answers, the other does not. -/
theorem bounded_wait_two :
    ∃ tr s, ClockRun shippedConfig routerInit tr s ∧
      timedEvents tr = [(0, .opened ⟨192, 168, 1, 100⟩), (400000000, .opened ⟨192, 168, 1, 101⟩),
        (400000000, .resolved ⟨192, 168, 1, 100⟩), (1000000000, .retried ⟨192, 168, 1, 101⟩),
        (2000000000, .dropped ⟨192, 168, 1, 101⟩)] ∧
      ∀ before t after, tr = before ++ t :: after → Prompt (before ++ [t]) t.post := by
  obtain ⟨tr, t, hrun, -, hlast⟩ := exists_run_snoc (clockStep shippedConfig)
    (clockIdle routerInit)
    [.addPacket ⟨0, Mem.zero⟩ ⟨0, by decide⟩ ⟨192, 168, 1, 100⟩, .elapse 400000000,
      .addPacket ⟨1, Mem.zero⟩ ⟨0, by decide⟩ ⟨192, 168, 1, 101⟩, .unlink ⟨192, 168, 1, 100⟩,
      .handler]
    .handler
    (fun tr t => decide (timedEvents (tr ++ [t]) =
        [(0, .opened ⟨192, 168, 1, 100⟩), (400000000, .opened ⟨192, 168, 1, 101⟩),
          (400000000, .resolved ⟨192, 168, 1, 100⟩), (1000000000, .retried ⟨192, 168, 1, 101⟩),
          (2000000000, .dropped ⟨192, 168, 1, 101⟩)] ∧
      ∀ u ∈ tr ++ [t], ¬ StopsTimer u.pre.router u.input)) (by decide +kernel)
  obtain ⟨hevents, hok⟩ := of_decide_eq_true hlast
  exact ⟨tr ++ [t], t.post, hrun, hevents, (bounded_wait_iff hrun).2 hok⟩

/-! ## When the timer has stopped -/

/-- Nodes wait, and the timer does not run. -/
def Stranded (r : Router) : Prop := r.deltaList ≠ [] ∧ r.timer = 0

theorem stranded_clockStep (hok : ClockOk es s) (h : Stranded s.router)
    (hstep : clockStep cfg s i = some s') (hne : s'.router.deltaList ≠ []) :
    Stranded s'.router ∧ i ≠ .handler := by
  cases i with
  | addPacket q intId dst =>
    rw [← Option.some.inj hstep] at hne ⊢
    refine ⟨⟨hne, ?_⟩, nofun⟩
    exact (timerAddPacket_timer cfg s.router q intId dst).2.trans ((if_neg h.1).trans h.2)
  | unlink dst =>
    rw [← Option.some.inj hstep] at hne ⊢
    refine ⟨⟨hne, ?_⟩, nofun⟩
    cases hunlinked : unlinked s.router dst with
    | none => exact h.2
    | some found =>
      rcases unlinked_timer hok.fronted hok.timer hunlinked with hsame | hzero
      · exact hsame.trans h.2
      · exact hzero
  | flush q nh =>
    rw [← Option.some.inj hstep] at hne ⊢
    exact ⟨⟨hne, (sendIpv4_timer_of_ne cfg h.1 q.pkt).2.trans h.2⟩, nofun⟩
  | handler => exact absurd h.2 (clockStep_handler.1 hstep).1.ne'
  | elapse nsec =>
    rw [clockStep_elapse hstep] at hne ⊢
    refine ⟨⟨hne, ?_⟩, nofun⟩
    show s.router.timer - nsec = 0
    rw [h.2, Nat.zero_sub]
  | learn pair =>
    rw [← Option.some.inj hstep] at hne ⊢
    exact ⟨⟨hne, h.2⟩, nofun⟩

/-- **Once the timer has stopped** while nodes wait, it does not run out before all of them are
resolved: nothing is asked for again, and nothing is given up. -/
theorem stranded_until_empty (h : ClockRun cfg r tr s) (hstop : Stranded s.router)
    (h' : Run (clockStep cfg) s tr' s') (hne : ∀ t ∈ tr', t.post.router.deltaList ≠ []) :
    Stranded s'.router ∧ ∀ e ∈ timedEvents tr', ∀ dst, ¬ e.2.Pops dst := by
  induction h' with
  | nil => exact ⟨hstop, fun e he => by cases he⟩
  | @snoc tr' s₁ s₂ i hr hs ih =>
    obtain ⟨hstop₁, hevents⟩ := ih fun t ht => hne t (List.mem_append_left _ ht)
    have hne₂ : s₂.router.deltaList ≠ [] := hne ⟨s₁, i, s₂⟩ (by simp)
    obtain ⟨hstop₂, hi⟩ := stranded_clockStep (clockOk (h.append hr)) hstop₁ hs hne₂
    refine ⟨hstop₂, fun e he dst => ?_⟩
    rw [timedEvents_snoc] at he
    rcases List.mem_append.1 he with he | he
    · exact hevents e he dst
    · obtain ⟨e', he', rfl⟩ := List.mem_map.1 he
      exact clockEvents_pops hi he' dst

/-- Two hosts are asked for at once, and the first one answers at once: the other waits for ever. -/
theorem stranded_until_empty_two :
    ∃ tr s, ClockRun shippedConfig routerInit tr s ∧
      timedEvents tr = [(0, .opened ⟨192, 168, 1, 100⟩), (0, .opened ⟨192, 168, 1, 101⟩),
        (0, .resolved ⟨192, 168, 1, 100⟩)] ∧
      ∀ nsec, ∃ tr' s', Run (clockStep shippedConfig) s tr' s' ∧ s'.now = s.now + nsec ∧
        Stranded s'.router := by
  obtain ⟨tr, t, hrun, -, hlast⟩ := exists_run_snoc (clockStep shippedConfig)
    (clockIdle routerInit)
    [.addPacket ⟨0, Mem.zero⟩ ⟨0, by decide⟩ ⟨192, 168, 1, 100⟩,
      .addPacket ⟨1, Mem.zero⟩ ⟨0, by decide⟩ ⟨192, 168, 1, 101⟩]
    (.unlink ⟨192, 168, 1, 100⟩)
    (fun tr t => decide (timedEvents (tr ++ [t]) =
        [(0, .opened ⟨192, 168, 1, 100⟩), (0, .opened ⟨192, 168, 1, 101⟩),
          (0, .resolved ⟨192, 168, 1, 100⟩)] ∧
      addrs t.post.router.deltaList = [⟨192, 168, 1, 101⟩] ∧ t.post.router.timer = 0))
    (by decide +kernel)
  obtain ⟨hevents, haddrs, htimer⟩ := of_decide_eq_true hlast
  have hne : t.post.router.deltaList ≠ [] := by
    intro hnil
    rw [hnil] at haddrs
    cases haddrs
  refine ⟨tr ++ [t], t.post, hrun, hevents, fun nsec => ?_⟩
  have hwait : Run (clockStep shippedConfig) t.post [⟨t.post, .elapse nsec, _⟩] _ :=
    .snoc .nil (if_pos (Or.inl htimer))
  refine ⟨_, _, hwait, rfl, (stranded_until_empty hrun ⟨hne, htimer⟩ hwait fun u hu => ?_).1⟩
  rw [List.mem_singleton.1 hu]
  exact hne

end NaptRouter
