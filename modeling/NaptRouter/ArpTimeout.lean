import Mathlib.Data.List.TakeWhile
import NaptRouter.Deadlines
import NaptRouter.NodeLife

/-!
# ARP timeouts in real time

The critical sections of `timer.c` against a clock in nanoseconds: the timer runs out exactly when
its time is up, and calls come at any other moment. `timer_add_packet` computes the delta of a new
node from the stored deltas, of which the first has partly elapsed. The delta is 0 if the list has
a node (`Fronted`), so the new node shares the timer with the others and is asked for again too
early. Nothing else is early (`no_early_timeout_iff`). Nodes still expire in order, each address
once a call, when other calls come between the two halves of `timer_update_packets`
(`clock_expiry_once`).
-/

namespace NaptRouter

open ByteMemory Runs Lifecycle

variable {cfg : Config} {r r' : Router} {nodes nodes' : List DeltaNode}

/-! ## The deltas -/

/-- The first delta is a second, and the others are 0. -/
def Fronted : List DeltaNode → Prop
  | [] => True
  | head :: rest => head.msec = 1000 ∧ ∀ node ∈ rest, node.msec = 0

theorem Fronted.nextDelta_eq (h : Fronted nodes) :
    nextDelta nodes = if nodes = [] then 1000 else 0 := by
  cases nodes with
  | nil => rfl
  | cons head rest =>
    have hrest : totalTime rest = 0 := totalTime_eq_zero h.2
    rw [if_neg (List.cons_ne_nil head rest), nextDelta, totalTime_cons, hrest, h.1]
    rfl

theorem Fronted.push (h : Fronted nodes) {node : DeltaNode} (hmsec : node.msec = nextDelta nodes) :
    Fronted (nodes ++ [node]) := by
  rw [h.nextDelta_eq] at hmsec
  cases nodes with
  | nil => exact ⟨hmsec, by simp⟩
  | cons head rest =>
    rw [if_neg (List.cons_ne_nil head rest)] at hmsec
    refine ⟨h.1, fun n hn => ?_⟩
    rcases List.mem_append.1 hn with hn | hn
    · exact h.2 n hn
    · rwa [List.mem_singleton.1 hn]

theorem Fronted.append {q : QueuedPkt} {dst : IpAddr} (h : Fronted nodes)
    (happend : appendToNode q dst nodes = some nodes') : Fronted nodes' := by
  cases nodes with
  | nil => cases happend
  | cons head rest =>
    rw [appendToNode] at happend
    split_ifs at happend
    · rw [← Option.some.inj happend]
      exact h
    · obtain ⟨rest', hrest, rfl⟩ := Option.map_eq_some_iff.1 happend
      have htotal := (appendToNode_nodes hrest).1
      rw [totalTime_eq_zero h.2] at htotal
      refine ⟨h.1, fun node hnode => ?_⟩
      exact Nat.le_zero.1 (htotal ▸ msec_le_totalTime hnode)

theorem Fronted.unlink {dst : IpAddr} {node : DeltaNode} (h : Fronted nodes)
    (hunlink : unlinkNode dst nodes = some (node, nodes')) : Fronted nodes' := by
  cases nodes with
  | nil => cases hunlink
  | cons head rest =>
    rcases unlinkNode_cases hunlink with ⟨-, -, rfl⟩ | ⟨-, rest', hrest, rfl⟩
    · cases rest with
      | nil => exact trivial
      | cons next rest =>
        rw [passDelta, Fronted, h.2 next List.mem_cons_self, Nat.zero_add]
        exact ⟨h.1, fun n hn => h.2 n (List.mem_cons_of_mem _ hn)⟩
    · have htotal := (unlinkNode_nodes hrest).1
      rw [totalTime_eq_zero h.2] at htotal
      refine ⟨h.1, fun n hn => ?_⟩
      exact Nat.le_zero.1 ((msec_le_totalTime hn).trans htotal)

theorem fronted_timerAddPacket (cfg : Config) (h : Fronted r.deltaList) (q : QueuedPkt)
    (intId : cfg.IntId) (dst : IpAddr) :
    Fronted (timerAddPacket cfg r q intId dst).deltaList := by
  rw [timerAddPacket_deltaList]
  cases happend : appendToNode q dst r.deltaList with
  | some nodes => exact h.append happend
  | none => exact h.push rfl

theorem fronted_sendIpv4 (cfg : Config) (h : Fronted r.deltaList) (pkt : Mem) :
    Fronted (sendIpv4 cfg r pkt).deltaList :=
  sendIpv4_keeps (fun _ q intId dst hr => fronted_timerAddPacket cfg hr q intId dst) h pkt

/-- The nodes that are put back have the deltas of a new list. -/
theorem fronted_expireLoop (cfg : Config) {old again : List DeltaNode}
    (hr : r.deltaList = old ++ again) (hold : ∀ node ∈ old, node.msec = 0) (h : Fronted again) :
    Fronted (expireLoop cfg old.length r).deltaList := by
  induction old generalizing again r with
  | nil =>
    rw [List.length_nil, expireLoop, hr]
    exact h
  | cons node old ih =>
    have hrest := fun n hn => hold n (List.mem_cons_of_mem _ hn)
    rw [List.length_cons, expireLoop, hr]
    simp only [List.cons_append]
    rw [if_pos (hold node List.mem_cons_self)]
    have hnext : nextDelta (old ++ again) = nextDelta again := by
      rw [nextDelta, totalTime_append, totalTime_eq_zero hrest, Nat.zero_add, nextDelta]
    by_cases hretry : node.retryAmt ≥ 1
    · refine ih ?_ hrest h
      rw [expireNode_deltaList, if_pos hretry]
    · have hpush : Fronted (again ++
          [{ node with retryAmt := node.retryAmt + 1, msec := nextDelta (old ++ again) }]) :=
        h.push hnext
      refine ih ?_ hrest hpush
      rw [expireNode_deltaList, if_neg hretry, List.append_assoc]

theorem fronted_timerHandler (cfg : Config) (h : Fronted r.deltaList) :
    Fronted (timerHandler cfg r).deltaList := by
  cases hlist : r.deltaList with
  | nil =>
    rw [timerHandler_nil cfg hlist, hlist]
    exact trivial
  | cons node rest =>
    rw [hlist] at h
    rw [timerHandler_eq cfg hlist]
    have hdue : ∀ n ∈ { node with msec := 0 } :: rest, n.msec = 0 := by
      intro n hn
      rcases List.mem_cons.1 hn with rfl | hn
      · rfl
      · exact h.2 n hn
    exact fronted_expireLoop cfg (r := { r with deltaList := { node with msec := 0 } :: rest })
      (List.append_nil _).symm hdue trivial

theorem Fronted.headTimer_eq (h : Fronted nodes) :
    headTimer nodes = if nodes = [] then 0 else 1000000000 := by
  cases nodes with
  | nil => rfl
  | cons head rest => rw [headTimer, h.1, if_neg (List.cons_ne_nil head rest)]

theorem popped_timer (cfg : Config) (r : Router) (timer : Nat) :
    popped cfg { r with timer } = popped cfg r := by
  cases hlist : r.deltaList with
  | nil => rw [popped, popped, hlist]
  | cons node rest =>
    rw [popped_eq cfg hlist]
    exact popped_eq cfg rfl

theorem Fronted.popped_addrs (cfg : Config) (h : Fronted r.deltaList) :
    (popped cfg r).map (·.ipAddr) = addrs r.deltaList := by
  cases hlist : r.deltaList with
  | nil => rw [popped, hlist]; rfl
  | cons node rest =>
    rw [hlist] at h
    have hall : rest.takeWhile (·.msec = 0) = rest :=
      List.takeWhile_eq_self_iff.2 fun n hn => decide_eq_true (h.2 n hn)
    rw [popped_eq cfg hlist, hall]
    rfl

/-! ## Critical sections and the clock -/

structure ClockState where
  router : Router
  /-- Nanoseconds since the start. -/
  now : Nat

/-- What happens while `timer_mutex` is held, and what happens between. -/
inductive ClockInput (cfg : Config)
  | addPacket (q : QueuedPkt) (intId : cfg.IntId) (dst : IpAddr)
  /-- `timer_update_packets`, up to the end of its critical section. -/
  | unlink (dst : IpAddr)
  /-- One round of the loop with which `timer_update_packets` sends the packets. -/
  | flush (q : QueuedPkt) (nh : IpAddr)
  /-- The timer runs out. -/
  | handler
  /-- Time passes, and the timer does not run out. -/
  | elapse (nsec : Nat)
  | learn (pair : IpMacPair)

def clockStep (cfg : Config) (s : ClockState) : ClockInput cfg → Option ClockState
  | .addPacket q intId dst => some { s with router := timerAddPacket cfg s.router q intId dst }
  | .unlink dst => some { s with router := (unlinked s.router dst).elim s.router (·.2) }
  | .flush q nh => some { s with router := (sendIpv4 cfg s.router q.pkt).emit (.flushed q nh) }
  | .handler =>
      if 0 < s.router.timer then
        some ⟨timerHandler cfg { s.router with timer := 0 }, s.now + s.router.timer⟩
      else none
  | .elapse nsec =>
      if s.router.timer = 0 ∨ nsec < s.router.timer then
        some ⟨{ s.router with timer := s.router.timer - nsec }, s.now + nsec⟩
      else none
  | .learn pair => some { s with router := learn s.router pair }

theorem clockStep_handler {s s' : ClockState} :
    clockStep cfg s .handler = some s' ↔ 0 < s.router.timer ∧
      s' = ⟨timerHandler cfg { s.router with timer := 0 }, s.now + s.router.timer⟩ := by
  rw [clockStep]
  split_ifs with hpos
  · rw [Option.some.injEq, and_iff_right hpos]
    exact eq_comm
  · exact iff_of_false nofun fun hand => hpos hand.1

theorem clockStep_elapse {s s' : ClockState} {nsec : Nat}
    (h : clockStep cfg s (.elapse nsec) = some s') :
    s' = ⟨{ s.router with timer := s.router.timer - nsec }, s.now + nsec⟩ := by
  rw [clockStep] at h
  split_ifs at h
  exact (Option.some.inj h).symm

def clockIdle (r : Router) : ClockState := ⟨{ r with deltaList := [], timer := 0 }, 0⟩

abbrev ClockRun (cfg : Config) (r : Router) := Run (clockStep cfg) (clockIdle r)

def clockEvents (cfg : Config) (r : Router) : ClockInput cfg → List NodeEvent
  | .addPacket _ _ dst => addEvents r dst
  | .unlink dst => (unlinked r dst).elim [] fun _ => [.resolved dst]
  | .flush q _ => sendEvents cfg r q.pkt
  | .handler => (popped cfg r).map expiry
  | .elapse _ | .learn _ => []

/-- The events of a step, with the time at which they happen. -/
def stamped (t : Step ClockState (ClockInput cfg)) : List (Nat × NodeEvent) :=
  (clockEvents cfg t.pre.router t.input).map fun e => (t.post.now, e)

def timedEvents (tr : List (Step ClockState (ClockInput cfg))) : List (Nat × NodeEvent) :=
  tr.flatMap stamped

theorem timedEvents_snoc (tr : List (Step ClockState (ClockInput cfg)))
    (t : Step ClockState (ClockInput cfg)) :
    timedEvents (tr ++ [t]) = timedEvents tr ++ stamped t := by
  rw [timedEvents, List.flatMap_append, List.flatMap_singleton, timedEvents]

/-- The sends of `timer_update_packets` after its critical section. -/
theorem flushPkts_run (cfg : Config) (nh : IpAddr) (pkts : List QueuedPkt) (r : Router)
    (now : Nat) :
    ∃ tr, Run (clockStep cfg) ⟨r, now⟩ tr ⟨flushPkts cfg nh pkts r, now⟩ ∧
      timedEvents tr = (flushNodeEvents cfg nh pkts r).map fun e => (now, e) := by
  induction pkts generalizing r with
  | nil => exact ⟨[], .nil, rfl⟩
  | cons q rest ih =>
    obtain ⟨tr, hrun, hevents⟩ := ih ((sendIpv4 cfg r q.pkt).emit (.flushed q nh))
    have hfirst : Run (clockStep cfg) ⟨r, now⟩ [⟨⟨r, now⟩, .flush q nh, _⟩] _ := .snoc .nil rfl
    refine ⟨_, hfirst.append hrun, ?_⟩
    rw [timedEvents, List.flatMap_append, List.flatMap_singleton, ← timedEvents, hevents,
      flushNodeEvents, List.map_append]
    rfl

/-- **`timer_update_packets` is a critical section and sends**, with the same events. -/
theorem timerUpdatePackets_run (cfg : Config) (r : Router) (dst : IpAddr) (now : Nat) :
    ∃ tr, Run (clockStep cfg) ⟨r, now⟩ tr ⟨timerUpdatePackets cfg r dst, now⟩ ∧
      timedEvents tr = (updateEvents cfg r dst).map fun e => (now, e) := by
  rw [timerUpdatePackets_unlinked, updateEvents]
  cases hunlinked : unlinked r dst with
  | none => exact ⟨[], .nil, rfl⟩
  | some found =>
    obtain ⟨node, r'⟩ := found
    obtain ⟨tr, hrun, hevents⟩ := flushPkts_run cfg dst node.pktList r' now
    have hstep : clockStep cfg ⟨r, now⟩ (.unlink dst) = some ⟨r', now⟩ := by
      rw [clockStep, hunlinked]
      rfl
    refine ⟨_, (Run.nil.snoc hstep).append hrun, ?_⟩
    rw [timedEvents, List.flatMap_append, ← timedEvents, ← timedEvents, hevents, List.nil_append,
      List.map_cons]
    simp only [timedEvents, List.flatMap_singleton, stamped, clockEvents, hunlinked]
    rfl

/-! ## What every step keeps -/

structure ClockOk (es : List (Nat × NodeEvent)) (s : ClockState) : Prop where
  list : DeltaOk s.router.deltaList
  fronted : Fronted s.router.deltaList
  timer : s.router.timer ≤ 1000000000
  past : ∀ e ∈ es, e.1 ≤ s.now

/-- The time left is kept, or the timer is disarmed: after the last node, or at a full second. -/
theorem unlinked_timer {dst : IpAddr} {node : DeltaNode} (h : Fronted r.deltaList)
    (htimer : r.timer ≤ 1000000000) (hunlinked : unlinked r dst = some (node, r')) :
    r'.timer = r.timer ∨ r'.timer = 0 := by
  obtain ⟨-, head, rest, hlist, hr'⟩ := unlinked_spec hunlinked
  rw [hlist] at h
  rw [hr']
  split_ifs
  · cases rest with
    | nil => exact Or.inr rfl
    | cons next rest =>
      simp only [rearmAfterHead, Router.timerSettime, h.2 next List.mem_cons_self,
        Nat.zero_mul, Nat.add_zero, Nat.div_add_mod', Router.timerTvNsec]
      rcases htimer.lt_or_eq with hlt | heq
      · exact Or.inl (Nat.mod_eq_of_lt hlt)
      · rw [heq]
        exact Or.inr (Nat.mod_self _)
  · exact Or.inl rfl

theorem timerHandler_timer (cfg : Config) (h : r.timer = 0) :
    (timerHandler cfg r).timer = headTimer (timerHandler cfg r).deltaList := by
  cases hlist : r.deltaList with
  | nil =>
    rw [timerHandler_nil cfg hlist, hlist, h]
    rfl
  | cons node rest => rw [timerHandler_eq cfg hlist]

theorem clockStep_now {s s' : ClockState} {i : ClockInput cfg} (h : clockStep cfg s i = some s') :
    s.now ≤ s'.now := by
  cases i with
  | addPacket q intId dst => rw [← Option.some.inj h]
  | unlink dst => rw [← Option.some.inj h]
  | flush q nh => rw [← Option.some.inj h]
  | handler =>
    obtain ⟨-, rfl⟩ := clockStep_handler.1 h
    exact Nat.le_add_right _ _
  | elapse nsec =>
    rw [clockStep_elapse h]
    exact Nat.le_add_right _ _
  | learn pair => rw [← Option.some.inj h]

/-- The list and the timer, whatever happens. -/
theorem clockStep_list {s s' : ClockState} {i : ClockInput cfg} (hok : DeltaOk s.router.deltaList)
    (hfront : Fronted s.router.deltaList) (htimer : s.router.timer ≤ 1000000000)
    (h : clockStep cfg s i = some s') :
    DeltaOk s'.router.deltaList ∧ Fronted s'.router.deltaList ∧
      s'.router.timer ≤ 1000000000 := by
  cases i with
  | addPacket q intId dst =>
    rw [← Option.some.inj h]
    refine ⟨deltaOk_timerAddPacket hok q intId dst,
      fronted_timerAddPacket cfg hfront q intId dst, ?_⟩
    show (timerAddPacket cfg s.router q intId dst).timer ≤ _
    rw [(timerAddPacket_timer cfg s.router q intId dst).2]
    split_ifs
    · exact le_rfl
    · exact htimer
  | unlink dst =>
    rw [← Option.some.inj h]
    cases hunlinked : unlinked s.router dst with
    | none => exact ⟨hok, hfront, htimer⟩
    | some found =>
      obtain ⟨node, r'⟩ := found
      have hunlink := (unlinked_spec hunlinked).1
      refine ⟨hok.unlink hunlink, hfront.unlink hunlink, ?_⟩
      show r'.timer ≤ _
      rcases unlinked_timer hfront htimer hunlinked with hsame | hzero
      · rwa [hsame]
      · rw [hzero]
        exact Nat.zero_le _
  | flush q nh =>
    rw [← Option.some.inj h]
    refine ⟨deltaOk_sendIpv4 cfg hok q.pkt, fronted_sendIpv4 cfg hfront q.pkt, ?_⟩
    show (sendIpv4 cfg s.router q.pkt).timer ≤ _
    rcases sendIpv4_timer cfg s.router q.pkt with ⟨hsame, -⟩ | ⟨-, hset⟩
    · rwa [hsame]
    · rw [hset]
      split_ifs
      · exact le_rfl
      · exact htimer
  | handler =>
    obtain ⟨-, rfl⟩ := clockStep_handler.1 h
    have hfront' := fronted_timerHandler cfg (r := { s.router with timer := 0 }) hfront
    -- The handler runs with an expired timer and arms it from the new head.
    refine ⟨deltaOk_timerHandler (r := { s.router with timer := 0 }) hok, hfront', ?_⟩
    show (timerHandler cfg { s.router with timer := 0 }).timer ≤ _
    rw [timerHandler_timer cfg rfl, hfront'.headTimer_eq]
    split_ifs
    · exact Nat.zero_le _
    · exact le_rfl
  | elapse nsec =>
    rw [clockStep_elapse h]
    exact ⟨hok, hfront, (Nat.sub_le _ _).trans htimer⟩
  | learn pair =>
    rw [← Option.some.inj h]
    exact ⟨hok, hfront, htimer⟩

theorem clockOk_snoc {es : List (Nat × NodeEvent)} {s s' : ClockState} {i : ClockInput cfg}
    (h : ClockOk es s) (hstep : clockStep cfg s i = some s') :
    ClockOk (es ++ stamped ⟨s, i, s'⟩) s' := by
  obtain ⟨hok, hfront, htimer⟩ := clockStep_list h.list h.fronted h.timer hstep
  refine ⟨hok, hfront, htimer, fun e he => ?_⟩
  rcases List.mem_append.1 he with he | he
  · exact (h.past e he).trans (clockStep_now hstep)
  · obtain ⟨e', -, rfl⟩ := List.mem_map.1 he
    exact le_rfl

theorem clockOk {s : ClockState} {tr : List (Step ClockState (ClockInput cfg))}
    (h : ClockRun cfg r tr s) : ClockOk (timedEvents tr) s := by
  have hstart : ClockOk (timedEvents ([] : List (Step ClockState (ClockInput cfg))))
      (clockIdle r) := ⟨deltaOk_nil, trivial, Nat.zero_le _, by simp [timedEvents]⟩
  refine h.history (I := fun tr s => ClockOk (timedEvents tr) s) hstart ?_
  intro tr s i s' hrun ih hstep
  rw [timedEvents_snoc]
  exact clockOk_snoc ih hstep

/-! ## The life of a node, one critical section after another -/

theorem clockEvents_live {s s' : ClockState} {i : ClockInput cfg} (h : DeltaOk s.router.deltaList)
    (hstep : clockStep cfg s i = some s') :
    NodesLive (clockEvents cfg s.router i) s.router.deltaList s'.router.deltaList := by
  cases i with
  | addPacket q intId dst =>
    rw [← Option.some.inj hstep]
    exact timerAddPacket_live cfg s.router q intId dst
  | unlink dst =>
    rw [← Option.some.inj hstep, clockEvents]
    cases hunlinked : unlinked s.router dst with
    | none => exact .idle fun _ => rfl
    | some found => exact unlinked_live h.nodup hunlinked
  | flush q nh =>
    rw [← Option.some.inj hstep]
    exact sendIpv4_live cfg s.router q.pkt
  | handler =>
    obtain ⟨-, rfl⟩ := clockStep_handler.1 hstep
    have hlive := timerHandler_live cfg (r := { s.router with timer := 0 }) h
    rwa [popped_timer] at hlive
  | elapse nsec =>
    rw [clockStep_elapse hstep]
    exact .idle fun _ => rfl
  | learn pair =>
    rw [← Option.some.inj hstep]
    exact .idle fun _ => rfl

/-- **Each address once, and in order**, whatever comes between the critical sections. -/
theorem clock_expiry_once {s : ClockState} {tr : List (Step ClockState (ClockInput cfg))}
    (h : ClockRun cfg r tr s) :
    ExpiresOnce cfg s.router ∧
      Lives NodeEvent.dst life ((timedEvents tr).map (·.2)) (fun _ => none)
        (lifeOf s.router.deltaList) := by
  refine ⟨expiresOnce cfg (clockOk h).list, ?_⟩
  refine h.history (I := fun tr s => Lives NodeEvent.dst life ((timedEvents tr).map (·.2))
    (fun _ => none) (lifeOf s.router.deltaList)) (.idle fun _ => rfl) ?_
  intro tr s i s' hrun ih hstep
  rw [timedEvents_snoc, List.map_append]
  have hevents : (stamped ⟨s, i, s'⟩).map (·.2) = clockEvents cfg s.router i := by
    rw [stamped, List.map_map]
    exact List.map_id _
  rw [hevents]
  exact ih.trans (clockEvents_live (clockOk hrun).list hstep)

/-! ## Timeouts -/

/-- If one event asks for an address and the other one pops it, a second is between them. -/
def Waits (e₀ e : Nat × NodeEvent) : Prop :=
  ∀ dst, e₀.2.Asks dst → e.2.Pops dst → e₀.1 + 1000000000 ≤ e.1

/-- No address is asked for again or given up less than a second after a request for it. -/
def Patient (es : List (Nat × NodeEvent)) : Prop := es.Pairwise Waits

/-- The run so far is patient, and it is if the timer runs out next. -/
structure Timely (tr : List (Step ClockState (ClockInput cfg))) (s : ClockState) : Prop where
  before : Patient (timedEvents tr)
  next : ∀ s', clockStep cfg s .handler = some s' →
    Patient (timedEvents (tr ++ [⟨s, .handler, s'⟩]))

/-- A node waits, and the timer has less than a second left. -/
def Short (r : Router) : Prop := r.deltaList ≠ [] ∧ 0 < r.timer ∧ r.timer < 1000000000

/-- `timer_add_packet` opens a node then. -/
def OpensShort (cfg : Config) (r : Router) : ClockInput cfg → Prop
  | .addPacket _ _ dst => dst ∉ addrs r.deltaList ∧ Short r
  | .flush q _ => hasMacForIp r.ipMacMap (nextHop cfg q.pkt) = false ∧
      nextHop cfg q.pkt ∉ addrs r.deltaList ∧ Short r
  | .unlink _ | .handler | .elapse _ | .learn _ => False

instance (r : Router) : Decidable (Short r) :=
  inferInstanceAs (Decidable (_ ∧ _ ∧ _))

instance (r : Router) (i : ClockInput cfg) : Decidable (OpensShort cfg r i) :=
  match i with
  | .addPacket _ _ _ => inferInstanceAs (Decidable (_ ∧ _))
  | .flush _ _ => inferInstanceAs (Decidable (_ ∧ _ ∧ _))
  | .unlink _ => isFalse id
  | .handler => isFalse id
  | .elapse _ => isFalse id
  | .learn _ => isFalse id

variable {es es' : List (Nat × NodeEvent)} {now : Nat}

theorem NodeEvent.Pops.dst_eq {dst : IpAddr} {e : NodeEvent} (h : e.Pops dst) : e.dst = dst := by
  rcases h with rfl | rfl
  · rfl
  · rfl

theorem NodeEvent.Asks.dst_eq {dst : IpAddr} {e : NodeEvent} (h : e.Asks dst) : e.dst = dst := by
  rcases h with rfl | rfl
  · rfl
  · rfl

theorem expiry_pops (node : DeltaNode) : (expiry node).Pops node.ipAddr := by
  rw [expiry]
  split_ifs
  · exact Or.inr rfl
  · exact Or.inl rfl

theorem addEvents_pops {dst : IpAddr} {e : NodeEvent} (h : e ∈ addEvents r dst) (dst' : IpAddr) :
    ¬ e.Pops dst' := by
  rw [addEvents] at h
  split_ifs at h
  · cases h
  · rw [List.mem_singleton.1 h]
    simp [NodeEvent.Pops]

theorem patient_append (h : ∀ e ∈ es', ∀ dst, ¬ e.2.Pops dst) :
    Patient (es ++ es') ↔ Patient es := by
  rw [Patient, List.pairwise_append]
  constructor
  · exact fun hall => hall.1
  · intro hes
    refine ⟨hes, List.pairwise_of_forall_mem_list fun e₀ _ e he dst _ hpops => ?_,
      fun e₀ _ e he dst _ hpops => ?_⟩
    · exact absurd hpops (h e he dst)
    · exact absurd hpops (h e he dst)

/-- Every address that has a node was asked for a second before the timer runs out. -/
def Asked (es : List (Nat × NodeEvent)) (r : Router) (now : Nat) : Prop :=
  0 < r.timer → ∀ dst ∈ addrs r.deltaList, ∀ e ∈ es, e.2.Asks dst →
    e.1 + 1000000000 ≤ now + r.timer

theorem asked_of_second (htimer : r.timer = 1000000000) (hpast : ∀ e ∈ es, e.1 ≤ now) :
    Asked es r now := by
  intro _ dst _ e he _
  rw [htimer]
  exact Nat.add_le_add_right (hpast e he) _

/-- `timer_handler` has armed the timer for the nodes that it has put back. -/
theorem ClockOk.asked_of_armed {s : ClockState} (h : ClockOk es s)
    (htimer : s.router.timer = headTimer s.router.deltaList) : Asked es s.router s.now := by
  rw [h.fronted.headTimer_eq] at htimer
  split_ifs at htimer with hnil
  · intro hpos
    exact absurd htimer hpos.ne'
  · exact asked_of_second htimer h.past

theorem Asked.mono {now' : Nat} (h : Asked es r now)
    (haddrs : addrs r'.deltaList ⊆ addrs r.deltaList) (hasks : ∀ e ∈ es', ∀ dst, ¬ e.2.Asks dst)
    (htimer : 0 < r'.timer → 0 < r.timer ∧ now' + r'.timer = now + r.timer) :
    Asked (es ++ es') r' now' := by
  intro hpos dst hdst e he heasks
  obtain ⟨hpos', hend⟩ := htimer hpos
  rw [hend]
  rcases List.mem_append.1 he with he | he
  · exact h hpos' dst (haddrs hdst) e he heasks
  · exact absurd heasks (hasks e he dst)

theorem Asked.unlink {dst : IpAddr} {node : DeltaNode} (h : Asked es r now)
    (hfront : Fronted r.deltaList) (htimer : r.timer ≤ 1000000000)
    (hunlinked : unlinked r dst = some (node, r'))
    (hasks : ∀ e ∈ es', ∀ dst, ¬ e.2.Asks dst) : Asked (es ++ es') r' now := by
  have hspec := unlinkNode_spec dst r.deltaList
  rw [(unlinked_spec hunlinked).1] at hspec
  have hsub : addrs r'.deltaList ⊆ addrs r.deltaList := by
    rw [hspec.2.2.1]
    exact List.erase_subset
  refine h.mono hsub hasks fun hpos => ?_
  rcases unlinked_timer hfront htimer hunlinked with hsame | hzero
  · exact ⟨hsame ▸ hpos, congrArg (now + ·) hsame⟩
  · exact absurd hzero hpos.ne'

/-- **A node that is opened** is due too early exactly if the timer has less than a second left. -/
theorem asked_timerAddPacket (h : Asked es r now) (htimer : r.timer ≤ 1000000000)
    (hpast : ∀ e ∈ es, e.1 ≤ now) (q : QueuedPkt) (intId : cfg.IntId) (dst : IpAddr) :
    Asked (es ++ (addEvents r dst).map fun e => (now, e)) (timerAddPacket cfg r q intId dst) now ↔
      ¬ (dst ∉ addrs r.deltaList ∧ Short r) := by
  have hpast' : ∀ e ∈ es ++ (addEvents r dst).map fun e => (now, e), e.1 ≤ now := by
    intro e he
    rcases List.mem_append.1 he with he | he
    · exact hpast e he
    · obtain ⟨e', -, rfl⟩ := List.mem_map.1 he
      exact le_rfl
  have htimer' := (timerAddPacket_timer cfg r q intId dst).2
  have haddrs' := timerAddPacket_addrs cfg r q intId dst
  by_cases hnil : r.deltaList = []
  · rw [if_pos hnil] at htimer'
    exact iff_of_true (asked_of_second htimer' hpast') fun hshort => hshort.2.1 hnil
  rw [if_neg hnil] at htimer'
  by_cases hdst : dst ∈ addrs r.deltaList
  · rw [if_pos hdst] at haddrs'
    refine iff_of_true (h.mono (haddrs' ▸ List.Subset.refl _) ?_ ?_) fun hshort => hshort.1 hdst
    · simp [addEvents, hdst]
    · intro hpos
      rw [htimer'] at hpos ⊢
      exact ⟨hpos, rfl⟩
  · rw [if_neg hdst] at haddrs'
    constructor
    · intro hasked hshort
      have hsecond := hasked (htimer'.symm ▸ hshort.2.2.1) dst (by simp [haddrs'])
        (now, .opened dst) (by simp [addEvents, hdst]) (Or.inl rfl)
      rw [htimer'] at hsecond
      exact absurd hshort.2.2.2 (Nat.not_lt.2 (Nat.le_of_add_le_add_left hsecond))
    · intro hshort
      rcases htimer.lt_or_eq with hlt | heq
      · intro hpos
        rw [htimer'] at hpos
        exact absurd ⟨hdst, hnil, hpos, hlt⟩ hshort
      · exact asked_of_second (htimer'.trans heq) hpast'

/-- **The timer runs out**: all nodes are popped, each one once. -/
theorem patient_handler (h : DeltaOk r.deltaList) (hfront : Fronted r.deltaList)
    (hes : Patient es) :
    Patient (es ++ ((popped cfg r).map expiry).map fun e => (now, e)) ↔
      ∀ dst ∈ addrs r.deltaList, ∀ e ∈ es, e.2.Asks dst → e.1 + 1000000000 ≤ now := by
  have haddrs := hfront.popped_addrs cfg
  have hnodup := h.nodup
  rw [← haddrs, List.nodup_iff_pairwise_ne, List.pairwise_map] at hnodup
  have hself : ((popped cfg r).map expiry |>.map fun e => (now, e)).Pairwise Waits := by
    rw [List.pairwise_map, List.pairwise_map]
    refine hnodup.imp fun {node node'} hne dst hasks hpops => ?_
    have heq := (expiry_pops node).dst_eq.symm.trans hasks.dst_eq
    have heq' := (expiry_pops node').dst_eq.symm.trans hpops.dst_eq
    exact absurd (heq.trans heq'.symm) hne
  rw [Patient, List.pairwise_append, ← haddrs]
  constructor
  · intro hall dst hdst e he hasks
    obtain ⟨-, -, hwaits⟩ := hall
    obtain ⟨node, hnode, rfl⟩ := List.mem_map.1 hdst
    exact hwaits e he _ (List.mem_map_of_mem (List.mem_map_of_mem hnode)) _ hasks
      (expiry_pops node)
  · intro hasked
    refine ⟨hes, hself, fun e he e' he' dst hasks hpops => ?_⟩
    obtain ⟨e₁, he₁, rfl⟩ := List.mem_map.1 he'
    obtain ⟨node, hnode, rfl⟩ := List.mem_map.1 he₁
    have heq := (expiry_pops node).dst_eq.symm.trans hpops.dst_eq
    subst heq
    exact hasked _ (List.mem_map_of_mem hnode) e he hasks

/-- **One step** is early for no node, unless it opens one with less than a second left. -/
theorem asked_clockStep {s s' : ClockState} {i : ClockInput cfg} (hok : ClockOk es s)
    (h : Asked es s.router s.now) (hstep : clockStep cfg s i = some s') :
    Asked (es ++ stamped ⟨s, i, s'⟩) s'.router s'.now ↔ ¬ OpensShort cfg s.router i := by
  cases i with
  | addPacket q intId dst =>
    rw [← Option.some.inj hstep]
    -- A new node is asked for now, so the timer has to have its full second left.
    exact asked_timerAddPacket h hok.timer hok.past q intId dst
  | unlink dst =>
    rw [← Option.some.inj hstep]
    refine iff_of_true ?_ id
    cases hunlinked : unlinked s.router dst with
    | none => simpa [stamped, clockEvents, hunlinked] using h
    | some found =>
      refine h.unlink hok.fronted hok.timer hunlinked ?_
      simp [stamped, clockEvents, hunlinked, NodeEvent.Asks]
  | flush q nh =>
    rw [← Option.some.inj hstep]
    cases hres : hasMacForIp s.router.ipMacMap (nextHop cfg q.pkt) with
    | true =>
      refine iff_of_true ?_ (by simp [OpensShort, hres])
      obtain ⟨hlist, htimer⟩ := sendIpv4_resolved_list hres
      refine h.mono (hlist ▸ List.Subset.refl _) ?_ fun hpos => ?_
      · simp [stamped, clockEvents, sendEvents, hres]
      · exact ⟨htimer ▸ hpos, congrArg (s.now + ·) htimer⟩
    | false =>
      have hadd := asked_timerAddPacket (r := { s.router with copies := s.router.copies + 1 })
        h hok.timer hok.past (queuedCopy s.router q.pkt) (cfg.getInterfaceForIp (ipDst q.pkt))
        (nextHop cfg q.pkt)
      simp only [stamped, clockEvents, sendEvents, hres, OpensShort, sendIpv4_unresolved hres,
        Bool.false_eq_true, if_false, true_and]
      exact hadd
  | handler =>
    -- The handler leaves the timer armed for the head, whatever was true before.
    have hok' := clockOk_snoc hok hstep
    obtain ⟨-, rfl⟩ := clockStep_handler.1 hstep
    exact iff_of_true (hok'.asked_of_armed (timerHandler_timer cfg rfl)) id
  | elapse nsec =>
    rw [clockStep_elapse hstep]
    refine iff_of_true (h.mono (List.Subset.refl _) (by simp [stamped, clockEvents]) ?_) id
    intro hpos
    have hpos' : 0 < s.router.timer - nsec := hpos
    show 0 < s.router.timer ∧ s.now + nsec + (s.router.timer - nsec) = s.now + s.router.timer
    omega
  | learn pair =>
    rw [← Option.some.inj hstep]
    refine iff_of_true (h.mono (List.Subset.refl _) (by simp [stamped, clockEvents]) ?_) id
    exact fun hpos => ⟨hpos, rfl⟩

theorem clockEvents_pops {i : ClockInput cfg} (hi : i ≠ .handler) {e : NodeEvent}
    (h : e ∈ clockEvents cfg r i) (dst : IpAddr) : ¬ e.Pops dst := by
  cases i with
  | addPacket q intId dst' => exact addEvents_pops h dst
  | unlink dst' =>
    rw [clockEvents] at h
    cases hunlinked : unlinked r dst' with
    | none =>
      rw [hunlinked] at h
      cases h
    | some found =>
      rw [hunlinked] at h
      rw [List.mem_singleton.1 h]
      simp [NodeEvent.Pops]
  | flush q nh =>
    rw [clockEvents, sendEvents] at h
    split_ifs at h
    · cases h
    · exact addEvents_pops h dst
  | handler => exact absurd rfl hi
  | elapse nsec => cases h
  | learn pair => cases h

theorem patient_clockStep {s s' : ClockState} {i : ClockInput cfg} (hok : ClockOk es s)
    (hes : Patient es) (hasked : Asked es s.router s.now)
    (hstep : clockStep cfg s i = some s') : Patient (es ++ stamped ⟨s, i, s'⟩) := by
  by_cases hi : i = .handler
  · subst hi
    obtain ⟨hpos, rfl⟩ := clockStep_handler.1 hstep
    exact (patient_handler hok.list hok.fronted hes).2 (hasked hpos)
  · refine (patient_append fun e he dst => ?_).2 hes
    obtain ⟨e', he', rfl⟩ := List.mem_map.1 he
    exact clockEvents_pops hi he' dst

theorem timely_iff {s : ClockState} {tr : List (Step ClockState (ClockInput cfg))}
    (hok : ClockOk (timedEvents tr) s) :
    Timely tr s ↔ Patient (timedEvents tr) ∧ Asked (timedEvents tr) s.router s.now := by
  constructor
  · intro htimely
    refine ⟨htimely.before, fun hpos => ?_⟩
    have hnext := htimely.next _ (clockStep_handler.2 ⟨hpos, rfl⟩)
    rw [timedEvents_snoc] at hnext
    exact (patient_handler hok.list hok.fronted htimely.before).1 hnext
  · rintro ⟨hpatient, hasked⟩
    refine ⟨hpatient, fun s' hstep => ?_⟩
    rw [timedEvents_snoc]
    exact patient_clockStep hok hpatient hasked hstep

/-- **No early timeout.** Throughout a run nothing is asked for again or given up less than a second
after a request, and nothing would be if the timer ran out next, if and only if no node is opened
while another one waits with less than a second left. -/
theorem no_early_timeout_iff {s : ClockState} {tr : List (Step ClockState (ClockInput cfg))}
    (h : ClockRun cfg r tr s) :
    (∀ before t after, tr = before ++ t :: after → Timely (before ++ [t]) t.post) ↔
      ∀ t ∈ tr, ¬ OpensShort cfg t.pre.router t.input := by
  have hstart : Timely ([] : List (Step ClockState (ClockInput cfg))) (clockIdle r) :=
    ⟨.nil, fun s' hstep => absurd (clockStep_handler.1 hstep).1 (Nat.lt_irrefl 0)⟩
  have hsnoc : ∀ tr s i s', ClockRun cfg r tr s → Timely tr s → clockStep cfg s i = some s' →
      (Timely (tr ++ [⟨s, i, s'⟩]) s' ↔ ¬ OpensShort cfg s.router i) := by
    intro tr s i s' hrun htimely hstep
    have hok := clockOk hrun
    obtain ⟨hpatient, hasked⟩ := (timely_iff hok).1 htimely
    rw [timely_iff (clockOk (hrun.snoc hstep)), timedEvents_snoc,
      and_iff_right (patient_clockStep hok hpatient hasked hstep)]
    exact asked_clockStep hok hasked hstep
  have hall := h.forall_upto_iff hstart hsnoc
  exact hall

/-- Two hosts are asked for at once; neither answers. -/
theorem no_early_timeout_two :
    ∃ tr s, ClockRun shippedConfig routerInit tr s ∧
      timedEvents tr = [(0, .opened ⟨192, 168, 1, 100⟩), (0, .opened ⟨192, 168, 1, 101⟩),
        (1000000000, .retried ⟨192, 168, 1, 100⟩), (1000000000, .retried ⟨192, 168, 1, 101⟩),
        (2000000000, .dropped ⟨192, 168, 1, 100⟩), (2000000000, .dropped ⟨192, 168, 1, 101⟩)] ∧
      ∀ before t after, tr = before ++ t :: after → Timely (before ++ [t]) t.post := by
  obtain ⟨tr, t, hrun, -, hlast⟩ := exists_run_snoc (clockStep shippedConfig)
    (clockIdle routerInit)
    [.addPacket ⟨0, Mem.zero⟩ ⟨0, by decide⟩ ⟨192, 168, 1, 100⟩,
      .addPacket ⟨1, Mem.zero⟩ ⟨0, by decide⟩ ⟨192, 168, 1, 101⟩, .elapse 400000000, .handler]
    .handler
    (fun tr t => decide (timedEvents (tr ++ [t]) =
        [(0, .opened ⟨192, 168, 1, 100⟩), (0, .opened ⟨192, 168, 1, 101⟩),
          (1000000000, .retried ⟨192, 168, 1, 100⟩), (1000000000, .retried ⟨192, 168, 1, 101⟩),
          (2000000000, .dropped ⟨192, 168, 1, 100⟩), (2000000000, .dropped ⟨192, 168, 1, 101⟩)] ∧
      ∀ u ∈ tr ++ [t], ¬ OpensShort shippedConfig u.pre.router u.input)) (by decide +kernel)
  obtain ⟨hevents, hok⟩ := of_decide_eq_true hlast
  exact ⟨tr ++ [t], t.post, hrun, hevents, (no_early_timeout_iff hrun).2 hok⟩

/-- The second host is asked for 400 ms after the first one, and asked for again 600 ms later. -/
theorem no_early_timeout_fails :
    ∃ tr s, ClockRun shippedConfig routerInit tr s ∧
      timedEvents tr = [(0, .opened ⟨192, 168, 1, 100⟩), (400000000, .opened ⟨192, 168, 1, 101⟩),
        (1000000000, .retried ⟨192, 168, 1, 100⟩), (1000000000, .retried ⟨192, 168, 1, 101⟩)] ∧
      ¬ Patient (timedEvents tr) := by
  obtain ⟨tr, t, hrun, -, hlast⟩ := exists_run_snoc (clockStep shippedConfig)
    (clockIdle routerInit)
    [.addPacket ⟨0, Mem.zero⟩ ⟨0, by decide⟩ ⟨192, 168, 1, 100⟩, .elapse 400000000,
      .addPacket ⟨1, Mem.zero⟩ ⟨0, by decide⟩ ⟨192, 168, 1, 101⟩]
    .handler
    (fun tr t => decide (timedEvents (tr ++ [t]) =
      [(0, .opened ⟨192, 168, 1, 100⟩), (400000000, .opened ⟨192, 168, 1, 101⟩),
        (1000000000, .retried ⟨192, 168, 1, 100⟩), (1000000000, .retried ⟨192, 168, 1, 101⟩)]))
    (by decide +kernel)
  have hevents := of_decide_eq_true hlast
  refine ⟨tr ++ [t], t.post, hrun, hevents, fun hpatient => ?_⟩
  rw [hevents] at hpatient
  have hwaits := (List.pairwise_cons.1 (List.pairwise_cons.1 hpatient).2).1
    (1000000000, .retried ⟨192, 168, 1, 101⟩) (by simp) ⟨192, 168, 1, 101⟩ (Or.inl rfl) (Or.inl rfl)
  exact absurd hwaits (by decide)

end NaptRouter
