import NaptRouter.DeltaList
import NaptRouter.Lib.Runs

/-!
# The delta list and the one-shot timer over runs

Runs are sequences of calls of `timer_add_packet`, `timer_update_packets` and `timer_handler`,
between which time passes and addresses are learned.

* `delta_list_ok` — one node an address, no node without packets, at most one retry, and deltas
  that sum to at most 1000. The clamps on `total_time` never act.
* `timer_agrees_iff` — the timer runs exactly when the list has a node, as long as
  `timer_update_packets` does not take the head out when a node with delta 0 follows and the
  time left has no nanoseconds: it reads `tv_nsec` only, and then disarms.
-/

namespace NaptRouter

open ByteMemory Runs

variable {cfg : Config} {r : Router}

/-! ## The invariant of the list -/

structure DeltaOk (nodes : List DeltaNode) : Prop where
  nodup : (addrs nodes).Nodup
  nonempty : ∀ node ∈ nodes, node.pktList ≠ []
  retry : ∀ node ∈ nodes, node.retryAmt ≤ 1
  total : totalTime nodes ≤ 1000

@[simp] theorem totalTime_nil : totalTime [] = 0 := rfl

@[simp] theorem totalTime_cons (node : DeltaNode) (rest : List DeltaNode) :
    totalTime (node :: rest) = node.msec + totalTime rest := rfl

@[simp] theorem totalTime_append (nodes nodes' : List DeltaNode) :
    totalTime (nodes ++ nodes') = totalTime nodes + totalTime nodes' := by
  simp [totalTime]

theorem deltaOk_nil : DeltaOk [] :=
  ⟨List.nodup_nil, by simp, by simp, Nat.zero_le _⟩

/-- `1000 - total_time` as it is written, without the clamp. -/
theorem nextDelta_of_le {nodes : List DeltaNode} (h : totalTime nodes ≤ 1000) :
    nextDelta nodes = 1000 - totalTime nodes := by
  rw [nextDelta, if_neg (Nat.not_lt.2 h)]

theorem DeltaOk.tail {node : DeltaNode} {rest : List DeltaNode} (h : DeltaOk (node :: rest)) :
    DeltaOk rest := by
  refine ⟨(List.nodup_cons.1 h.nodup).2, fun n hn => h.nonempty n (List.mem_cons_of_mem _ hn),
    fun n hn => h.retry n (List.mem_cons_of_mem _ hn), ?_⟩
  have htotal := h.total
  rw [totalTime_cons] at htotal
  omega

/-- A node for a new address, whose delta fills the second up, keeps it. -/
theorem DeltaOk.push {nodes : List DeltaNode} (h : DeltaOk nodes) {node : DeltaNode}
    (hnew : node.ipAddr ∉ addrs nodes) (hpkts : node.pktList ≠ []) (hretry : node.retryAmt ≤ 1)
    (hmsec : node.msec = nextDelta nodes) : DeltaOk (nodes ++ [node]) := by
  refine ⟨?_, fun n hn => ?_, fun n hn => ?_, ?_⟩
  · rw [addrs_append, addrs_cons, addrs_nil, ← List.concat_eq_append]
    exact h.nodup.concat hnew
  · rcases List.mem_append.1 hn with hn | hn
    · exact h.nonempty n hn
    · rwa [List.mem_singleton.1 hn]
  · rcases List.mem_append.1 hn with hn | hn
    · exact h.retry n hn
    · rwa [List.mem_singleton.1 hn]
  · have htotal := h.total
    rw [totalTime_append, totalTime_cons, totalTime_nil, hmsec, nextDelta_of_le htotal]
    omega

theorem appendToNode_nodes {q : QueuedPkt} {dst : IpAddr} {nodes nodes' : List DeltaNode}
    (h : appendToNode q dst nodes = some nodes') :
    totalTime nodes' = totalTime nodes ∧ ∀ node' ∈ nodes', ∃ node ∈ nodes,
      node'.retryAmt = node.retryAmt ∧
        (node'.pktList = node.pktList ∨ node'.pktList = node.pktList ++ [q]) := by
  induction nodes generalizing nodes' with
  | nil => cases h
  | cons node rest ih =>
    rw [appendToNode] at h
    split_ifs at h
    · obtain rfl := Option.some.inj h
      refine ⟨rfl, fun node' hnode' => ?_⟩
      rcases List.mem_cons.1 hnode' with rfl | hnode'
      · exact ⟨node, List.mem_cons_self, rfl, Or.inr rfl⟩
      · exact ⟨node', List.mem_cons_of_mem _ hnode', rfl, Or.inl rfl⟩
    · obtain ⟨rest', hrest, rfl⟩ := Option.map_eq_some_iff.1 h
      obtain ⟨htotal, hnodes⟩ := ih hrest
      refine ⟨by rw [totalTime_cons, totalTime_cons, htotal], fun node' hnode' => ?_⟩
      rcases List.mem_cons.1 hnode' with rfl | hnode'
      · exact ⟨node', List.mem_cons_self, rfl, Or.inl rfl⟩
      · obtain ⟨old, hold, hsame⟩ := hnodes node' hnode'
        exact ⟨old, List.mem_cons_of_mem _ hold, hsame⟩

/-- Unlinking a node keeps the others; the delta goes to the next one or is lost. -/
theorem unlinkNode_nodes {dst : IpAddr} {nodes rest : List DeltaNode} {found : DeltaNode}
    (h : unlinkNode dst nodes = some (found, rest)) :
    totalTime rest ≤ totalTime nodes ∧ ∀ node' ∈ rest, ∃ node ∈ nodes,
      node'.retryAmt = node.retryAmt ∧ node'.pktList = node.pktList := by
  induction nodes generalizing rest with
  | nil => cases h
  | cons node tail ih =>
    rcases unlinkNode_cases h with ⟨-, -, rfl⟩ | ⟨-, rest', hrest, rfl⟩
    · cases tail with
      | nil => exact ⟨Nat.zero_le _, by simp [passDelta]⟩
      | cons next tail =>
        refine ⟨by simp only [passDelta, totalTime_cons]; omega, fun node' hnode' => ?_⟩
        rcases List.mem_cons.1 hnode' with rfl | hnode'
        · exact ⟨next, by simp, rfl, rfl⟩
        · exact ⟨node', by simp [hnode'], rfl, rfl⟩
    · obtain ⟨htotal, hnodes⟩ := ih hrest
      refine ⟨by simpa using htotal, fun node' hnode' => ?_⟩
      rcases List.mem_cons.1 hnode' with rfl | hnode'
      · exact ⟨node', List.mem_cons_self, rfl, rfl⟩
      · obtain ⟨old, hold, hsame⟩ := hnodes node' hnode'
        exact ⟨old, List.mem_cons_of_mem _ hold, hsame⟩

theorem deltaOk_timerAddPacket (h : DeltaOk r.deltaList) (q : QueuedPkt) (intId : cfg.IntId)
    (dst : IpAddr) : DeltaOk (timerAddPacket cfg r q intId dst).deltaList := by
  have hspec := appendToNode_spec q dst r.deltaList
  have hnodup := timerAddPacket_nodup cfg h.nodup q intId dst
  rw [timerAddPacket_deltaList] at hnodup ⊢
  cases happend : appendToNode q dst r.deltaList with
  | none =>
    rw [happend] at hspec
    rw [Option.getD_none]
    exact h.push hspec (by simp) (Nat.zero_le _) rfl
  | some nodes =>
    rw [happend] at hnodup
    obtain ⟨htotal, hnodes⟩ := appendToNode_nodes happend
    refine ⟨hnodup, fun node' hnode' => ?_, fun node' hnode' => ?_, htotal ▸ h.total⟩
    · obtain ⟨node, hnode, -, hpkts | hpkts⟩ := hnodes node' hnode'
      · rw [hpkts]
        exact h.nonempty node hnode
      · simp [hpkts]
    · obtain ⟨node, hnode, hretry, -⟩ := hnodes node' hnode'
      rw [hretry]
      exact h.retry node hnode

theorem deltaOk_sendIpv4 (cfg : Config) (h : DeltaOk r.deltaList) (pkt : Mem) :
    DeltaOk (sendIpv4 cfg r pkt).deltaList :=
  sendIpv4_keeps (fun _ q intId dst hr => deltaOk_timerAddPacket hr q intId dst) h pkt

theorem deltaOk_flushPkts (nh : IpAddr) (pkts : List QueuedPkt) (h : DeltaOk r.deltaList) :
    DeltaOk (flushPkts cfg nh pkts r).deltaList :=
  flushPkts_keeps (P := fun s => DeltaOk s.deltaList) (fun _ q hs => deltaOk_sendIpv4 cfg hs q.pkt)
    pkts h

theorem DeltaOk.unlink {dst : IpAddr} {nodes rest : List DeltaNode} {node : DeltaNode}
    (h : DeltaOk nodes) (hunlink : unlinkNode dst nodes = some (node, rest)) : DeltaOk rest := by
  have hspec := unlinkNode_spec dst nodes
  rw [hunlink] at hspec
  obtain ⟨htotal, hnodes⟩ := unlinkNode_nodes hunlink
  refine ⟨?_, fun node' hnode' => ?_, fun node' hnode' => ?_, htotal.trans h.total⟩
  · rw [hspec.2.2.1]
    exact h.nodup.erase dst
  · obtain ⟨old, hold, -, hpkts⟩ := hnodes node' hnode'
    rw [hpkts]
    exact h.nonempty old hold
  · obtain ⟨old, hold, hretry, -⟩ := hnodes node' hnode'
    rw [hretry]
    exact h.retry old hold

theorem deltaOk_timerUpdatePackets (h : DeltaOk r.deltaList) (dst : IpAddr) :
    DeltaOk (timerUpdatePackets cfg r dst).deltaList := by
  rcases timerUpdatePackets_cases cfg r dst with ⟨-, heq⟩ | ⟨node, rest, timer, hsome, heq⟩
  · rwa [heq]
  · rw [heq]
    exact deltaOk_flushPkts dst node.pktList (h.unlink hsome)

/-- A popped node is dropped, or goes to the end of the list for its one retry. -/
theorem deltaOk_expireNode {node : DeltaNode} {rest : List DeltaNode}
    (h : DeltaOk (node :: rest)) :
    DeltaOk (expireNode cfg { r with deltaList := rest } node).deltaList := by
  rw [expireNode_deltaList]
  split_ifs with hretry
  · exact h.tail
  · have hcount : node.retryAmt + 1 ≤ 1 := by omega
    exact h.tail.push (List.nodup_cons.1 h.nodup).1 (h.nonempty node List.mem_cons_self) hcount rfl

theorem deltaOk_expireLoop (cfg : Config) (h : DeltaOk r.deltaList) (fuel : Nat) :
    DeltaOk (expireLoop cfg fuel r).deltaList :=
  expireLoop_keeps (P := fun s => DeltaOk s.deltaList)
    (fun _ _ _ hlist hs => deltaOk_expireNode (hlist ▸ hs)) fuel h

theorem DeltaOk.due {node : DeltaNode} {rest : List DeltaNode} (h : DeltaOk (node :: rest)) :
    DeltaOk ({ node with msec := 0 } :: rest) := by
  refine ⟨h.nodup, fun n hn => ?_, fun n hn => ?_, ?_⟩
  · rcases List.mem_cons.1 hn with rfl | hn
    · exact h.nonempty node List.mem_cons_self
    · exact h.nonempty n (List.mem_cons_of_mem _ hn)
  · rcases List.mem_cons.1 hn with rfl | hn
    · exact h.retry node List.mem_cons_self
    · exact h.retry n (List.mem_cons_of_mem _ hn)
  · have htotal := h.total
    rw [totalTime_cons] at htotal
    show 0 + totalTime rest ≤ 1000
    omega

theorem deltaOk_timerHandler (h : DeltaOk r.deltaList) :
    DeltaOk (timerHandler cfg r).deltaList := by
  rcases timerHandler_cases cfg r with heq | ⟨node, rest, fuel, timer, hlist, heq⟩
  · rwa [heq]
  · rw [heq]
    rw [hlist] at h
    exact deltaOk_expireLoop cfg (r := { r with deltaList := _ }) h.due fuel

/-! ## Runs -/

/-- The state of `timer.c` between two calls. -/
structure TimerState where
  router : Router
  /-- The timer has run out, and `timer_handler` has not been called since. -/
  expired : Bool

inductive TimerInput (cfg : Config)
  | addPacket (q : QueuedPkt) (intId : cfg.IntId) (dst : IpAddr)
  | updatePackets (dst : IpAddr)
  | handler
  /-- Time passes. -/
  | elapse (nsec : Nat)
  /-- `update_ip_mac_pair`: an address is learned. -/
  | learn (pair : IpMacPair)

/-- `timer_update_packets` unlinks the head of the list, and sets the timer. -/
def headIs (dst : IpAddr) (nodes : List DeltaNode) : Bool :=
  nodes.head?.any fun node => ipAddrEquals node.ipAddr dst

/-- One call. Setting the timer makes an expiry of the old setting void. -/
def timerStep (cfg : Config) (s : TimerState) : TimerInput cfg → Option TimerState
  | .addPacket q intId dst =>
      some ⟨timerAddPacket cfg s.router q intId dst,
        s.expired && !s.router.deltaList.isEmpty⟩
  | .updatePackets dst =>
      some ⟨timerUpdatePackets cfg s.router dst, s.expired && !headIs dst s.router.deltaList⟩
  | .handler => some ⟨timerHandler cfg s.router, false⟩
  | .elapse nsec =>
      some ⟨{ s.router with timer := s.router.timer - nsec },
        s.expired || decide (0 < s.router.timer ∧ s.router.timer ≤ nsec)⟩
  | .learn pair => some ⟨learn s.router pair, s.expired⟩

/-- The empty list, and the timer not armed. -/
def timerIdle (r : Router) : TimerState := ⟨{ r with deltaList := [], timer := 0 }, false⟩

abbrev TimerRun (cfg : Config) (r : Router) := Run (timerStep cfg) (timerIdle r)

/-! ## Deltas -/

/-- The call computes `total_time` over these nodes. -/
inductive Sums (cfg : Config) (s : TimerState) : TimerInput cfg → List DeltaNode → Prop
  /-- No node has the address: the new node's delta is needed. -/
  | addPacket {q : QueuedPkt} {intId : cfg.IntId} {dst : IpAddr}
      (h : appendToNode q dst s.router.deltaList = none) :
      Sums cfg s (.addPacket q intId dst) s.router.deltaList
  /-- The flush of a node queues one of its packets again. -/
  | flush {dst : IpAddr} {node : DeltaNode} {rest : List DeltaNode} (timer : Nat)
      {sent left : List QueuedPkt} {q : QueuedPkt}
      (h : unlinkNode dst s.router.deltaList = some (node, rest))
      (hpkts : node.pktList = sent ++ q :: left) :
      Sums cfg s (.updatePackets dst)
        (flushPkts cfg dst sent { s.router with timer, deltaList := rest }).deltaList
  /-- A round of the loop of `timer_handler` puts a node at the end of the list. -/
  | handler {head node : DeltaNode} {tail rest : List DeltaNode} (rounds : Nat)
      (h : s.router.deltaList = head :: tail)
      (hloop : (expireLoop cfg rounds { s.router with
        deltaList := { head with msec := 0 } :: tail }).deltaList = node :: rest)
      (hdue : node.msec = 0) (hretry : ¬ node.retryAmt ≥ 1) : Sums cfg s .handler rest

theorem Sums.total_le {s : TimerState} {i : TimerInput cfg} {nodes : List DeltaNode}
    (h : Sums cfg s i nodes) (hok : DeltaOk s.router.deltaList) : totalTime nodes ≤ 1000 := by
  cases h with
  | addPacket => exact hok.total
  | flush timer hunlink hpkts =>
    exact (deltaOk_flushPkts (r := { s.router with timer, deltaList := _ }) _ _
      (hok.unlink hunlink)).total
  | handler rounds hlist hloop hdue hretry =>
    rw [hlist] at hok
    have hround := deltaOk_expireLoop cfg
      (r := { s.router with deltaList := _ }) hok.due rounds
    rw [hloop] at hround
    exact hround.tail.total

theorem deltaOk_timerStep {s s' : TimerState} {i : TimerInput cfg}
    (h : DeltaOk s.router.deltaList) (hstep : timerStep cfg s i = some s') :
    DeltaOk s'.router.deltaList := by
  cases i with
  | addPacket q intId dst =>
    rw [← Option.some.inj hstep]
    exact deltaOk_timerAddPacket h q intId dst
  | updatePackets dst =>
    rw [← Option.some.inj hstep]
    exact deltaOk_timerUpdatePackets h dst
  | handler =>
    rw [← Option.some.inj hstep]
    exact deltaOk_timerHandler h
  | elapse nsec =>
    rw [← Option.some.inj hstep]
    exact h
  | learn pair =>
    rw [← Option.some.inj hstep]
    exact h

/-- **The delta list.** In every state of every run the representation invariant holds, and
whatever call comes next, the deltas it sums do not exceed 1000: `1000 - total_time` is not
negative, and the clamp does not act. -/
theorem delta_list_ok {s : TimerState} {tr : List (Step TimerState (TimerInput cfg))}
    (h : TimerRun cfg r tr s) :
    DeltaOk s.router.deltaList ∧ ∀ i nodes, Sums cfg s i nodes →
      ¬ totalTime nodes > 1000 ∧ 0 ≤ (1000 : Int) - totalTime nodes ∧
        nextDelta nodes = 1000 - totalTime nodes := by
  have hok : DeltaOk s.router.deltaList :=
    h.invariant (I := fun s => DeltaOk s.router.deltaList) deltaOk_nil
      fun s i s' hs hstep => deltaOk_timerStep hs hstep
  refine ⟨hok, fun i nodes hsums => ?_⟩
  have hle := hsums.total_le hok
  exact ⟨Nat.not_lt.2 hle, by omega, nextDelta_of_le hle⟩

/-- Two addresses are asked for at once: the second node adds nothing to the sum. -/
theorem delta_list_ok_two :
    ∃ tr s, TimerRun shippedConfig routerInit tr s ∧
      s.router.deltaList.map (·.msec) = [1000, 0] ∧ DeltaOk s.router.deltaList := by
  obtain ⟨tr, t, hrun, -, hlast⟩ := exists_run_snoc (timerStep shippedConfig)
    (timerIdle routerInit) [.addPacket ⟨0, Mem.zero⟩ ⟨0, by decide⟩ ⟨192, 168, 1, 100⟩]
    (.addPacket ⟨1, Mem.zero⟩ ⟨0, by decide⟩ ⟨192, 168, 1, 101⟩)
    (fun _ t => decide (t.post.router.deltaList.map (·.msec) = [1000, 0])) (by decide +kernel)
  exact ⟨tr ++ [t], t.post, hrun, of_decide_eq_true hlast, (delta_list_ok hrun).1⟩

/-! ## The timer -/

/-- The timer is armed or its expiry is still to be handled, exactly when a node waits. -/
def Agrees (s : TimerState) : Prop :=
  (0 < s.router.timer ∨ s.expired = true) ↔ s.router.deltaList ≠ []

instance (s : TimerState) : Decidable (Agrees s) :=
  decidable_of_iff ((0 < s.router.timer ∨ s.expired = true) ↔ ¬ s.router.deltaList.isEmpty = true)
    (iff_congr Iff.rfl (not_congr List.isEmpty_iff))

/-- `timer_update_packets` is called for the head of the list, the next node has delta 0, and
`tv_nsec` of the time left is 0. -/
def Disarms (s : TimerState) : TimerInput cfg → Prop
  | .updatePackets dst =>
      match s.router.deltaList with
      | node :: next :: _ => node.ipAddr = dst ∧ next.msec = 0 ∧ s.router.timerTvNsec = 0
      | [] | [_] => False
  | .addPacket .. | .handler | .elapse _ | .learn _ => False

instance (s : TimerState) (i : TimerInput cfg) : Decidable (Disarms s i) :=
  match i with
  | .updatePackets dst =>
      match h : s.router.deltaList with
      | node :: next :: _ =>
          decidable_of_iff (node.ipAddr = dst ∧ next.msec = 0 ∧ s.router.timerTvNsec = 0)
            (by simp [Disarms, h])
      | [] => isFalse (by simp [Disarms, h])
      | [_] => isFalse (by simp [Disarms, h])
  | .addPacket .. => isFalse id
  | .handler => isFalse id
  | .elapse _ => isFalse id
  | .learn _ => isFalse id

/-- The same with no expiry to be handled. -/
def Running (r : Router) : Prop := 0 < r.timer ↔ r.deltaList ≠ []

@[simp] theorem sendArp_timer (cfg : Config) (r : Router) (pkt : ArpHdr) (intId : cfg.IntId) :
    (sendArp cfg r pkt intId).timer = r.timer := by
  unfold sendArp
  split <;> rfl

/-- `timer_add_packet` arms the timer if the list was empty, and leaves it alone otherwise. -/
theorem timerAddPacket_timer (cfg : Config) (r : Router) (q : QueuedPkt) (intId : cfg.IntId)
    (dst : IpAddr) :
    (timerAddPacket cfg r q intId dst).deltaList ≠ [] ∧
      (timerAddPacket cfg r q intId dst).timer =
        if r.deltaList = [] then 1000000000 else r.timer := by
  constructor
  · have hmem : dst ∈ addrs (timerAddPacket cfg r q intId dst).deltaList := by
      rw [timerAddPacket_addrs]
      split_ifs with hdst
      · exact hdst
      · simp
    intro hnil
    rw [hnil] at hmem
    cases hmem
  · cases hlist : r.deltaList with
    | nil => simp [timerAddPacket, hlist, appendToNode, Router.emit, Router.timerSettime]
    | cons node rest =>
      rw [if_neg (List.cons_ne_nil _ _), timerAddPacket, hlist]
      cases appendToNode q dst (node :: rest) with
      | none => simp [hlist, Router.emit]
      | some nodes => rfl

/-- Sending leaves the timer and the list alone, or queues the packet. -/
theorem sendIpv4_timer (cfg : Config) (r : Router) (pkt : Mem) :
    ((sendIpv4 cfg r pkt).timer = r.timer ∧
        (sendIpv4 cfg r pkt).deltaList = r.deltaList) ∨
      (sendIpv4 cfg r pkt).deltaList ≠ [] ∧
        (sendIpv4 cfg r pkt).timer = if r.deltaList = [] then 1000000000 else r.timer := by
  cases hres : hasMacForIp r.ipMacMap (nextHop cfg pkt) with
  | true =>
    exact Or.inl (sendIpv4_resolved_list hres).symm
  | false =>
    right
    rw [sendIpv4_unresolved hres]
    exact timerAddPacket_timer cfg { r with copies := r.copies + 1 } _ _ _

theorem running_sendIpv4 (cfg : Config) (h : Running r) (pkt : Mem) :
    Running (sendIpv4 cfg r pkt) := by
  rcases sendIpv4_timer cfg r pkt with ⟨htimer, hlist⟩ | ⟨hne, htimer⟩
  · rwa [Running, htimer, hlist]
  · refine iff_of_true ?_ hne
    rw [htimer]
    split_ifs with hnil
    · decide
    · exact h.2 hnil

/-- While packets wait, sending does not set the timer. -/
theorem sendIpv4_timer_of_ne (cfg : Config) (h : r.deltaList ≠ []) (pkt : Mem) :
    (sendIpv4 cfg r pkt).deltaList ≠ [] ∧ (sendIpv4 cfg r pkt).timer = r.timer := by
  rcases sendIpv4_timer cfg r pkt with ⟨htimer, hlist⟩ | ⟨hne, htimer⟩
  · exact ⟨hlist ▸ h, htimer⟩
  · exact ⟨hne, htimer.trans (if_neg h)⟩

theorem running_flushPkts (cfg : Config) (nh : IpAddr) (pkts : List QueuedPkt) (h : Running r) :
    Running (flushPkts cfg nh pkts r) :=
  flushPkts_keeps (P := Running) (fun _ q hs => running_sendIpv4 cfg hs q.pkt) pkts h

theorem flushPkts_timer_of_ne (cfg : Config) (nh : IpAddr) (pkts : List QueuedPkt)
    (h : r.deltaList ≠ []) :
    (flushPkts cfg nh pkts r).deltaList ≠ [] ∧ (flushPkts cfg nh pkts r).timer = r.timer := by
  refine flushPkts_keeps (P := fun s => s.deltaList ≠ [] ∧ s.timer = r.timer)
    (fun s q hs => ?_) pkts ⟨h, rfl⟩
  obtain ⟨hne, htimer⟩ := sendIpv4_timer_of_ne cfg hs.1 q.pkt
  exact ⟨hne, htimer.trans hs.2⟩

/-! ## `timer_update_packets` and the timer -/

theorem timerUpdatePackets_last {node : DeltaNode} (h : r.deltaList = [node]) :
    timerUpdatePackets cfg r node.ipAddr =
      flushPkts cfg node.ipAddr node.pktList { r with timer := 0, deltaList := [] } := by
  have hself : ipAddrEquals node.ipAddr node.ipAddr = true := ipAddrEquals_iff.2 rfl
  simp [timerUpdatePackets, h, unlinkNode_self, passDelta, hself, rearmAfterHead,
    Router.timerSettime]

theorem timerUpdatePackets_head {node next : DeltaNode} {rest : List DeltaNode}
    (h : r.deltaList = node :: next :: rest) :
    timerUpdatePackets cfg r node.ipAddr =
      flushPkts cfg node.ipAddr node.pktList
        { r with
          timer := r.timerTvNsec + next.msec * 1000000
          deltaList := { next with msec := next.msec + node.msec } :: rest } := by
  have hself : ipAddrEquals node.ipAddr node.ipAddr = true := ipAddrEquals_iff.2 rfl
  simp only [timerUpdatePackets, h, unlinkNode_self, passDelta, hself, if_true, rearmAfterHead,
    Router.timerSettime]
  rw [Nat.div_add_mod']

theorem timerUpdatePackets_of_ne (cfg : Config) {node : DeltaNode} {rest : List DeltaNode}
    {dst : IpAddr} (h : r.deltaList = node :: rest) (hne : node.ipAddr ≠ dst) :
    timerUpdatePackets cfg r dst =
      match unlinkNode dst rest with
      | none => r
      | some (found, rest') =>
          flushPkts cfg dst found.pktList { r with deltaList := node :: rest' } := by
  have hhead : ¬ ipAddrEquals node.ipAddr dst = true := mt ipAddrEquals_iff.1 hne
  rw [timerUpdatePackets, h, unlinkNode_ne hne]
  cases unlinkNode dst rest with
  | none => rfl
  | some found => simp only [Option.map_some, if_neg hhead]

theorem timerUpdatePackets_tail (cfg : Config) {node : DeltaNode} {rest : List DeltaNode}
    {dst : IpAddr} (h : r.deltaList = node :: rest) (hne : node.ipAddr ≠ dst) :
    (timerUpdatePackets cfg r dst).deltaList ≠ [] ∧
      (timerUpdatePackets cfg r dst).timer = r.timer := by
  rw [timerUpdatePackets_of_ne cfg h hne]
  cases unlinkNode dst rest with
  | none => exact ⟨by simp [h], rfl⟩
  | some found =>
    exact flushPkts_timer_of_ne cfg (r := { r with deltaList := node :: found.2 }) _ _ (by simp)

/-- `timer_handler` leaves the head's delta on the timer, which is not 0, or disarms it. -/
theorem running_timerHandler (cfg : Config) (h : r.deltaList ≠ []) :
    Running (timerHandler cfg r) := by
  obtain ⟨node, rest, hlist⟩ := List.exists_cons_of_ne_nil h
  have hidle := expireLoop_stops cfg { r with deltaList := { node with msec := 0 } :: rest }
  simp only [timerHandler, hlist]
  generalize expireLoop cfg _ _ = s at hidle
  cases hs : s.deltaList with
  | nil => simp [Running, hs, Router.timerSettime]
  | cons first others =>
    have hmsec : first.msec ≠ 0 := hidle first (by rw [hs]; rfl)
    refine iff_of_true ?_ (by simp [hs, Router.timerSettime])
    simp only [Router.timerSettime]
    rw [Nat.div_add_mod']
    omega

/-! ## Runs with the timer -/

/-- `timer_update_packets` keeps the agreement unless it disarms the timer for the next node. -/
theorem agrees_updatePackets {r : Router} {expired : Bool} (h : Agrees ⟨r, expired⟩)
    (dst : IpAddr) :
    Agrees ⟨timerUpdatePackets cfg r dst, expired && !headIs dst r.deltaList⟩ ↔
      ¬ Disarms ⟨r, expired⟩ (.updatePackets dst : TimerInput cfg) := by
  simp only [Agrees, Disarms, headIs]
  cases hlist : r.deltaList with
  | nil =>
    have hsame : timerUpdatePackets cfg r dst = r := by simp [timerUpdatePackets, hlist]
    refine iff_of_true ?_ id
    have hpre := h
    simp only [Agrees, hlist] at hpre
    simpa [hsame, hlist] using hpre
  | cons node rest =>
    by_cases hhead : node.ipAddr = dst
    · subst hhead
      have hself : ipAddrEquals node.ipAddr node.ipAddr = true := ipAddrEquals_iff.2 rfl
      cases rest with
      | nil =>
        refine iff_of_true ?_ id
        have hrun := running_flushPkts cfg (r := { r with timer := 0, deltaList := [] })
          node.ipAddr node.pktList (by simp [Running])
        rw [timerUpdatePackets_last hlist]
        simpa [hself, Running] using hrun
      | cons next rest =>
        have hflush := flushPkts_timer_of_ne cfg (r := { r with
          timer := r.timerTvNsec + next.msec * 1000000
          deltaList := { next with msec := next.msec + node.msec } :: rest })
          node.ipAddr node.pktList (by simp)
        rw [timerUpdatePackets_head hlist, hflush.2]
        -- The next node needs the timer, which runs only with what it had left below a second.
        simp only [List.head?_cons, Option.any_some, hself, Bool.not_true, Bool.and_false,
          Bool.false_eq_true, or_false, true_and, iff_true_right hflush.1]
        omega
    · refine iff_of_true ?_ ?_
      · obtain ⟨hne, htimer⟩ := timerUpdatePackets_tail cfg hlist hhead
        have hpre := h.2 (by simp [hlist])
        refine iff_of_true ?_ hne
        rw [htimer]
        simpa [Bool.eq_false_iff.2 (mt ipAddrEquals_iff.1 hhead)] using hpre
      · cases rest with
        | nil => exact id
        | cons next rest => exact fun hbad => hhead hbad.1

theorem agrees_elapse {r : Router} {expired : Bool} (h : Agrees ⟨r, expired⟩) (nsec : Nat) :
    Agrees ⟨{ r with timer := r.timer - nsec },
      expired || decide (0 < r.timer ∧ r.timer ≤ nsec)⟩ := by
  refine Iff.trans ?_ h
  simp only [Bool.or_eq_true, decide_eq_true_eq]
  constructor
  · rintro (hlt | hexp | hexp)
    · exact Or.inl (by omega)
    · exact Or.inr hexp
    · exact Or.inl hexp.1
  · rintro (hlt | hexp)
    · rcases Nat.lt_or_ge nsec r.timer with hleft | hleft
      · exact Or.inl (Nat.sub_pos_of_lt hleft)
      · exact Or.inr (Or.inr ⟨hlt, hleft⟩)
    · exact Or.inr (Or.inl hexp)

/-- **One call**: it keeps the timer and the list in agreement unless it disarms the timer with
packets left to wait. -/
theorem agrees_timerStep {s s' : TimerState} {i : TimerInput cfg} (h : Agrees s)
    (hstep : timerStep cfg s i = some s') : Agrees s' ↔ ¬ Disarms s i := by
  obtain ⟨r, expired⟩ := s
  cases i with
  | addPacket q intId dst =>
    refine iff_of_true ?_ id
    rw [← Option.some.inj hstep]
    obtain ⟨hne, htimer⟩ := timerAddPacket_timer cfg r q intId dst
    refine iff_of_true ?_ hne
    show 0 < (timerAddPacket cfg r q intId dst).timer ∨ _
    rw [htimer]
    cases hlist : r.deltaList with
    | nil => simp
    | cons node rest =>
      have hpre := h.2 (by simp [hlist])
      simpa using hpre
  | updatePackets dst =>
    rw [← Option.some.inj hstep]
    exact agrees_updatePackets h dst
  | handler =>
    refine iff_of_true ?_ id
    rw [← Option.some.inj hstep]
    by_cases hnil : r.deltaList = []
    · have hpre := mt h.1 (not_not.2 hnil)
      simp only [not_or] at hpre
      simp [Agrees, timerHandler_nil cfg hnil, hnil, Nat.eq_zero_of_not_pos hpre.1]
    · simpa [Agrees, Running] using running_timerHandler cfg hnil
  | elapse nsec =>
    refine iff_of_true ?_ id
    rw [← Option.some.inj hstep]
    exact agrees_elapse h nsec
  | learn pair =>
    refine iff_of_true ?_ id
    rw [← Option.some.inj hstep]
    exact h

/-- **Timer and list.** Throughout a run they agree if and only if no call disarms the timer
with packets left to wait. -/
theorem timer_agrees_iff {s : TimerState} {tr : List (Step TimerState (TimerInput cfg))}
    (h : TimerRun cfg r tr s) :
    (∀ t ∈ tr, Agrees t.post) ↔ ∀ t ∈ tr, ¬ Disarms t.pre t.input :=
  h.forall_post_iff (P := Agrees) (by simp [Agrees, timerIdle])
    fun _ _ _ _ _ hs hstep => agrees_timerStep hs hstep

/-- Two hosts of the LAN are asked for at once, and the first one is learned. -/
def twoHosts : List (TimerInput shippedConfig) :=
  [.addPacket ⟨0, udpDatagram (⟨192, 168, 1, 1⟩, ⟨53⟩) (⟨192, 168, 1, 100⟩, ⟨5000⟩)⟩
      ⟨0, Nat.zero_lt_two⟩ ⟨192, 168, 1, 100⟩,
    .addPacket ⟨1, udpDatagram (⟨192, 168, 1, 1⟩, ⟨53⟩) (⟨192, 168, 1, 101⟩, ⟨5000⟩)⟩
      ⟨0, Nat.zero_lt_two⟩ ⟨192, 168, 1, 101⟩,
    .learn ⟨⟨192, 168, 1, 100⟩, ⟨2, 0, 0, 0, 0, 1⟩⟩]

/-- Some time after the requests: the timer goes on for the second host. -/
theorem timer_agrees_later :
    ∃ tr s, TimerRun shippedConfig routerInit tr s ∧
      addrs s.router.deltaList = [⟨192, 168, 1, 101⟩] ∧ ∀ t ∈ tr, Agrees t.post := by
  obtain ⟨tr, t, hrun, -, hlast⟩ := exists_run_snoc (timerStep shippedConfig)
    (timerIdle routerInit) (twoHosts ++ [.elapse 1000]) (.updatePackets ⟨192, 168, 1, 100⟩)
    (fun tr t => decide (addrs t.post.router.deltaList = [⟨192, 168, 1, 101⟩] ∧
      ∀ u ∈ tr ++ [t], ¬ Disarms u.pre u.input)) (by decide +kernel)
  obtain ⟨haddrs, hok⟩ := of_decide_eq_true hlast
  exact ⟨tr ++ [t], t.post, hrun, haddrs, (timer_agrees_iff hrun).2 hok⟩

/-- At once, with a full second on the timer: the second host waits and the timer is off. -/
theorem timer_agrees_fails :
    ∃ tr t, TimerRun shippedConfig routerInit (tr ++ [t]) t.post ∧
      (tr ++ [t]).map (·.input) = twoHosts ++ [.updatePackets ⟨192, 168, 1, 100⟩] ∧
      addrs t.post.router.deltaList = [⟨192, 168, 1, 101⟩] ∧ t.post.router.timer = 0 ∧
      t.post.expired = false ∧ ¬ Agrees t.post := by
  obtain ⟨tr, t, hrun, hinputs, hlast⟩ := exists_run_snoc (timerStep shippedConfig)
    (timerIdle routerInit) twoHosts (.updatePackets ⟨192, 168, 1, 100⟩)
    (fun _ t => decide (addrs t.post.router.deltaList = [⟨192, 168, 1, 101⟩] ∧
      t.post.router.timer = 0 ∧ t.post.expired = false ∧ ¬ Agrees t.post)) (by decide +kernel)
  exact ⟨tr, t, hrun, hinputs, of_decide_eq_true hlast⟩

end NaptRouter
