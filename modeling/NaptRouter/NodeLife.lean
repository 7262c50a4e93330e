import NaptRouter.QueueFlow
import NaptRouter.TimerRuns
import NaptRouter.Lib.Lifecycle

/-!
# The life of a node

What the functions of `timer.c` do to the nodes of the delta list, call by call: a node is opened
with an ARP request, asked for a second time when its time is up, and then given up; or it is
resolved. `timer_handler` pops the head and the nodes after it that have no delta, and nothing that
it puts back (`popped_eq`), so a node is given up in a later call than the one that asked for it
again (`timer_expiry_once`).
-/

namespace NaptRouter

open ByteMemory Runs Lifecycle

variable {cfg : Config} {r r' : Router} {nodes nodes' : List DeltaNode}

/-! ## Events of nodes -/

inductive NodeEvent
  /-- `timer_add_packet` asks for an address and opens its node. -/
  | opened (dst : IpAddr)
  /-- `timer_handler` asks again. -/
  | retried (dst : IpAddr)
  /-- `timer_handler` frees the node and its packets. -/
  | dropped (dst : IpAddr)
  /-- `timer_update_packets` takes the node out of the list. -/
  | resolved (dst : IpAddr)
deriving DecidableEq, Repr

def NodeEvent.dst : NodeEvent → IpAddr
  | .opened dst | .retried dst | .dropped dst | .resolved dst => dst

/-- An ARP request is sent. -/
def NodeEvent.Asks (dst : IpAddr) (e : NodeEvent) : Prop := e = .opened dst ∨ e = .retried dst

/-- The node is popped by `timer_handler`. -/
def NodeEvent.Pops (dst : IpAddr) (e : NodeEvent) : Prop := e = .retried dst ∨ e = .dropped dst

/-- The life of a node: how many retries it has had, while it is in the list. -/
def life : Option Nat → NodeEvent → Option (Option Nat)
  | none, .opened _ => some (some 0)
  | some 0, .retried _ => some (some 1)
  | some 1, .dropped _ => some none
  | some _, .resolved _ => some none
  | _, _ => none

theorem life_resolved (retries : Nat) (dst : IpAddr) :
    life (some retries) (.resolved dst) = some none := by
  rcases retries with _ | _ | retries
  · rfl
  · rfl
  · rfl

/-- `timer_add_packet` in this state. -/
def addEvents (r : Router) (dst : IpAddr) : List NodeEvent :=
  if dst ∈ addrs r.deltaList then [] else [.opened dst]

/-- `send_ipv4` in this state. -/
def sendEvents (cfg : Config) (r : Router) (pkt : Mem) : List NodeEvent :=
  if hasMacForIp r.ipMacMap (nextHop cfg pkt) then [] else addEvents r (nextHop cfg pkt)

/-- The loop that sends the packets of a node. -/
def flushNodeEvents (cfg : Config) (nh : IpAddr) : List QueuedPkt → Router → List NodeEvent
  | [], _ => []
  | q :: rest, r => sendEvents cfg r q.pkt ++
      flushNodeEvents cfg nh rest ((sendIpv4 cfg r q.pkt).emit (.flushed q nh))

/-- The first half of `timer_update_packets`: the node, and the state without it. -/
def unlinked (r : Router) (dst : IpAddr) : Option (DeltaNode × Router) :=
  match r.deltaList, unlinkNode dst r.deltaList with
  | head :: rest, some (node, deltaList) =>
      let r := if ipAddrEquals head.ipAddr dst then rearmAfterHead r rest else r
      some (node, { r with deltaList })
  | _, _ => none

def updateEvents (cfg : Config) (r : Router) (dst : IpAddr) : List NodeEvent :=
  match unlinked r dst with
  | none => []
  | some (node, r) => .resolved dst :: flushNodeEvents cfg dst node.pktList r

/-- The nodes that the loop of `timer_handler` pops. -/
def poppedLoop (cfg : Config) : Nat → Router → List DeltaNode
  | 0, _ => []
  | fuel + 1, r =>
      match r.deltaList with
      | [] => []
      | node :: rest =>
          if node.msec = 0 then
            node :: poppedLoop cfg fuel (expireNode cfg { r with deltaList := rest } node)
          else []

/-- The nodes that `timer_handler` pops. -/
def popped (cfg : Config) (r : Router) : List DeltaNode :=
  match r.deltaList with
  | [] => []
  | node :: rest =>
      let r := { r with deltaList := { node with msec := 0 } :: rest }
      poppedLoop cfg r.deltaList.length r

/-- What becomes of a popped node. -/
def expiry (node : DeltaNode) : NodeEvent :=
  if node.retryAmt ≥ 1 then .dropped node.ipAddr else .retried node.ipAddr

/-- The events of a call. -/
def nodeEvents (cfg : Config) (r : Router) : TimerInput cfg → List NodeEvent
  | .addPacket _ _ dst => addEvents r dst
  | .updatePackets dst => updateEvents cfg r dst
  | .handler => (popped cfg r).map expiry
  | .elapse _ | .learn _ => []

/-! ## The loop of `timer_handler` -/

theorem poppedLoop_eq (cfg : Config) {old again : List DeltaNode} {r : Router}
    (hr : r.deltaList = old ++ again)
    (hidle : (∀ node ∈ old, node.msec = 0) → Idle again) {fuel : Nat} (hfuel : old.length ≤ fuel) :
    poppedLoop cfg fuel r = old.takeWhile (·.msec = 0) := by
  induction old generalizing again r fuel with
  | nil =>
    cases fuel with
    | zero => rfl
    | succ fuel =>
      rw [poppedLoop, hr, List.nil_append]
      cases again with
      | nil => rfl
      | cons first rest => exact if_neg (hidle (by simp) first rfl)
  | cons node old ih =>
    obtain ⟨fuel, rfl⟩ : ∃ n, fuel = n + 1 := ⟨fuel - 1, by rw [List.length_cons] at hfuel; omega⟩
    rw [poppedLoop, hr]
    simp only [List.cons_append]
    by_cases hz : node.msec = 0
    · obtain ⟨again', hlist, hidle'⟩ := expireNode_again cfg r hz hidle
      rw [if_pos hz, ih hlist hidle' (Nat.le_of_succ_le_succ hfuel),
        List.takeWhile_cons_of_pos (by simpa using hz)]
    · rw [if_neg hz, List.takeWhile_cons_of_neg (by simpa using hz)]

theorem popped_loop (cfg : Config) {node : DeltaNode} {rest : List DeltaNode}
    (h : r.deltaList = node :: rest) :
    popped cfg r = poppedLoop cfg (rest.length + 1)
      { r with deltaList := { node with msec := 0 } :: rest } := by
  simp only [popped, h, List.length_cons]

/-- **The head is popped, and the nodes after it that have no delta**; nothing is popped that
`timer_handler` has put back. -/
theorem popped_eq (cfg : Config) {node : DeltaNode} {rest : List DeltaNode}
    (h : r.deltaList = node :: rest) :
    popped cfg r = { node with msec := 0 } :: rest.takeWhile (·.msec = 0) := by
  have hloop := poppedLoop_eq cfg
    (r := { r with deltaList := { node with msec := 0 } :: rest }) (List.append_nil _).symm
    (by simp [Idle]) le_rfl
  rw [List.takeWhile_cons_of_pos (by simp)] at hloop
  rw [popped_loop cfg h]
  exact hloop

/-- The ARP request that `send_arp` writes on Ethernet. -/
def arpEvents (cfg : Config) (pkt : ArpHdr) (intId : cfg.IntId) : List Event :=
  match cfg.interfaceGetType intId with
  | .ether => [.write intId (MacAddr.broadcast.bytes ++ pkt.senderMac.bytes ++
      le16 (ntohs ethertypeArp) ++ pkt.bytes)]
  | .wifi | .unknown => []

theorem sendArp_arpEvents (cfg : Config) (r : Router) (pkt : ArpHdr) (intId : cfg.IntId) :
    sendArp cfg r pkt intId = { r with log := r.log ++ arpEvents cfg pkt intId } := by
  rw [sendArp, arpEvents]
  cases cfg.interfaceGetType intId with
  | ether => rfl
  | wifi => rw [List.append_nil]
  | unknown => rw [List.append_nil]

/-- One request, or the packets of the node. -/
def expiryLog (cfg : Config) (node : DeltaNode) : List Event :=
  if node.retryAmt ≥ 1 then discardEvents node.ipAddr node.pktList
  else arpEvents cfg (arpRequest cfg (cfg.getInterfaceForIp node.ipAddr) node.ipAddr)
    (cfg.getInterfaceForIp node.ipAddr)

theorem expireNode_log (cfg : Config) (r : Router) (node : DeltaNode) :
    (expireNode cfg r node).log = r.log ++ expiryLog cfg node := by
  rw [expireNode, expiryLog]
  split_ifs
  · rw [discardPkts_eq]
  · simp only [sendArp_arpEvents]

theorem expireLoop_log (cfg : Config) (fuel : Nat) (r : Router) :
    (expireLoop cfg fuel r).log = r.log ++ (poppedLoop cfg fuel r).flatMap (expiryLog cfg) := by
  induction fuel generalizing r with
  | zero => rw [expireLoop, poppedLoop, List.flatMap_nil, List.append_nil]
  | succ fuel ih =>
    rw [expireLoop, poppedLoop]
    cases hlist : r.deltaList with
    | nil => rw [List.flatMap_nil, List.append_nil]
    | cons node rest =>
      by_cases hz : node.msec = 0
      · simp only [if_pos hz]
        rw [ih, expireNode_log, List.flatMap_cons, List.append_assoc]
      · simp only [if_neg hz]
        rw [List.flatMap_nil, List.append_nil]

theorem timerHandler_log (cfg : Config) (r : Router) :
    (timerHandler cfg r).log = r.log ++ (popped cfg r).flatMap (expiryLog cfg) := by
  cases hlist : r.deltaList with
  | nil => rw [timerHandler_nil cfg hlist, popped, hlist, List.flatMap_nil, List.append_nil]
  | cons node rest =>
    rw [timerHandler_eq cfg hlist, popped_loop cfg hlist]
    exact expireLoop_log cfg _ { r with deltaList := { node with msec := 0 } :: rest }

/-- One request if a node is opened. -/
theorem timerAddPacket_asks (cfg : Config) (r : Router) (q : QueuedPkt) (intId : cfg.IntId)
    (dst : IpAddr) :
    (timerAddPacket cfg r q intId dst).log =
      r.log ++ (addEvents r dst).flatMap
        (fun _ => arpEvents cfg (arpRequest cfg intId dst) intId) ++ [.queued q dst] := by
  have hspec := appendToNode_spec q dst r.deltaList
  rw [timerAddPacket, addEvents]
  cases happend : appendToNode q dst r.deltaList with
  | some nodes =>
    rw [happend] at hspec
    rw [if_pos hspec.1, List.flatMap_nil, List.append_nil]
    rfl
  | none =>
    rw [happend] at hspec
    rw [if_neg hspec, List.flatMap_singleton, sendArp_arpEvents]
    cases r.deltaList with
    | nil => rfl
    | cons head rest => rfl

/-! ## The state of a node -/

/-- How many retries the node of an address has had, if there is one. -/
def lifeOf (nodes : List DeltaNode) (dst : IpAddr) : Option Nat :=
  (nodes.find? (·.ipAddr = dst)).map (·.retryAmt)

theorem lifeOf_cons (node : DeltaNode) (rest : List DeltaNode) (dst : IpAddr) :
    lifeOf (node :: rest) dst =
      if node.ipAddr = dst then some node.retryAmt else lifeOf rest dst := by
  rw [lifeOf, List.find?_cons, lifeOf]
  by_cases hip : node.ipAddr = dst
  · simp [hip]
  · simp [hip]

theorem lifeOf_append (nodes nodes' : List DeltaNode) (dst : IpAddr) :
    lifeOf (nodes ++ nodes') dst = (lifeOf nodes dst).or (lifeOf nodes' dst) := by
  rw [lifeOf, List.find?_append, Option.map_or, lifeOf, lifeOf]

theorem lifeOf_eq_none {dst : IpAddr} (h : dst ∉ addrs nodes) : lifeOf nodes dst = none := by
  rw [lifeOf, Option.map_eq_none_iff, List.find?_eq_none]
  intro node hnode hip
  rw [decide_eq_true_eq] at hip
  exact h (hip ▸ mem_addrs hnode)

theorem lifeOf_of_mem (hnd : (addrs nodes).Nodup) {node : DeltaNode} (h : node ∈ nodes) :
    lifeOf nodes node.ipAddr = some node.retryAmt := by
  induction nodes with
  | nil => cases h
  | cons head rest ih =>
    obtain ⟨hnew, hrest⟩ := List.nodup_cons.1 hnd
    rw [lifeOf_cons]
    rcases List.mem_cons.1 h with rfl | h
    · exact if_pos rfl
    · have hne : head.ipAddr ≠ node.ipAddr := by
        intro hip
        have hmem : node.ipAddr ∈ addrs rest := mem_addrs h
        rw [← hip] at hmem
        exact hnew hmem
      rw [if_neg hne, ih hrest h]

theorem appendToNode_lifeOf {q : QueuedPkt} {dst : IpAddr}
    (h : appendToNode q dst nodes = some nodes') (k : IpAddr) :
    lifeOf nodes' k = lifeOf nodes k := by
  induction nodes generalizing nodes' with
  | nil => cases h
  | cons node rest ih =>
    rw [appendToNode] at h
    split_ifs at h
    · rw [← Option.some.inj h, lifeOf_cons, lifeOf_cons]
    · obtain ⟨rest', hrest, rfl⟩ := Option.map_eq_some_iff.1 h
      rw [lifeOf_cons, ih hrest, lifeOf_cons]

theorem lifeOf_passDelta (msec : Nat) (nodes : List DeltaNode) (dst : IpAddr) :
    lifeOf (passDelta msec nodes) dst = lifeOf nodes dst := by
  cases nodes with
  | nil => rfl
  | cons next rest => rw [passDelta, lifeOf_cons, lifeOf_cons]

theorem unlinkNode_lifeOf (hnd : (addrs nodes).Nodup) {dst : IpAddr} {node : DeltaNode}
    (h : unlinkNode dst nodes = some (node, nodes')) (k : IpAddr) :
    lifeOf nodes' k = if k = dst then none else lifeOf nodes k := by
  induction nodes generalizing nodes' with
  | nil => cases h
  | cons head rest ih =>
    obtain ⟨hnew, hnd'⟩ := List.nodup_cons.1 hnd
    rcases unlinkNode_cases h with ⟨rfl, -, rfl⟩ | ⟨hhead, rest', hrest, rfl⟩
    · rw [lifeOf_passDelta, lifeOf_cons]
      by_cases hk : k = head.ipAddr
      · rw [if_pos hk, hk, lifeOf_eq_none hnew]
      · rw [if_neg hk, if_neg (Ne.symm hk)]
    · rw [lifeOf_cons, ih hnd' hrest, lifeOf_cons]
      by_cases hk : k = dst
      · rw [if_pos hk, if_pos hk, hk, if_neg hhead]
      · rw [if_neg hk, if_neg hk]

/-! ## What the calls do to the nodes -/

/-- The events are the life of the nodes between two lists. -/
abbrev NodesLive (es : List NodeEvent) (nodes nodes' : List DeltaNode) : Prop :=
  Lives NodeEvent.dst life es (lifeOf nodes) (lifeOf nodes')

theorem timerAddPacket_live (cfg : Config) (r : Router) (q : QueuedPkt) (intId : cfg.IntId)
    (dst : IpAddr) :
    NodesLive (addEvents r dst) r.deltaList (timerAddPacket cfg r q intId dst).deltaList := by
  have hspec := appendToNode_spec q dst r.deltaList
  rw [addEvents, timerAddPacket_deltaList]
  cases happend : appendToNode q dst r.deltaList with
  | some nodes =>
    rw [happend] at hspec
    rw [if_pos hspec.1]
    exact .idle fun k => appendToNode_lifeOf happend k
  | none =>
    rw [happend] at hspec
    rw [if_neg hspec, Option.getD_none]
    refine .event ?_ fun k hk => ?_
    · rw [NodeEvent.dst, lifeOf_append, lifeOf_eq_none hspec, lifeOf_cons, if_pos rfl]
      rfl
    · have hne : dst ≠ k := Ne.symm hk
      rw [lifeOf_append, lifeOf_cons, if_neg hne]
      exact Option.or_none

theorem sendIpv4_live (cfg : Config) (r : Router) (pkt : Mem) :
    NodesLive (sendEvents cfg r pkt) r.deltaList (sendIpv4 cfg r pkt).deltaList := by
  rw [sendEvents]
  cases hres : hasMacForIp r.ipMacMap (nextHop cfg pkt) with
  | true =>
    rw [(sendIpv4_resolved_list hres).1]
    exact .idle fun _ => rfl
  | false =>
    rw [sendIpv4_unresolved hres]
    exact timerAddPacket_live cfg { r with copies := r.copies + 1 } _ _ _

theorem flushPkts_live (cfg : Config) (nh : IpAddr) (pkts : List QueuedPkt) (r : Router) :
    NodesLive (flushNodeEvents cfg nh pkts r) r.deltaList (flushPkts cfg nh pkts r).deltaList := by
  induction pkts generalizing r with
  | nil => exact .idle fun _ => rfl
  | cons q rest ih => exact (sendIpv4_live cfg r q.pkt).trans (ih _)

theorem timerUpdatePackets_unlinked (cfg : Config) (r : Router) (dst : IpAddr) :
    timerUpdatePackets cfg r dst =
      match unlinked r dst with
      | none => r
      | some (node, r) => flushPkts cfg dst node.pktList r := by
  rw [timerUpdatePackets, unlinked]
  cases r.deltaList with
  | nil => rfl
  | cons head rest => cases unlinkNode dst (head :: rest) <;> rfl

theorem unlinked_spec {dst : IpAddr} {node : DeltaNode} (h : unlinked r dst = some (node, r')) :
    unlinkNode dst r.deltaList = some (node, r'.deltaList) ∧
      ∃ head rest, r.deltaList = head :: rest ∧
        r'.timer = if ipAddrEquals head.ipAddr dst then (rearmAfterHead r rest).timer
          else r.timer := by
  rw [unlinked] at h
  cases hlist : r.deltaList with
  | nil => simp [hlist] at h
  | cons head rest =>
    cases hunlink : unlinkNode dst (head :: rest) with
    | none => simp [hlist, hunlink] at h
    | some found =>
      simp only [hlist, hunlink, Option.some.injEq, Prod.mk.injEq] at h
      obtain ⟨rfl, rfl⟩ := h
      refine ⟨rfl, head, rest, rfl, ?_⟩
      split_ifs
      · rfl
      · rfl

theorem unlinked_live (hnd : (addrs r.deltaList).Nodup) {dst : IpAddr} {node : DeltaNode}
    (h : unlinked r dst = some (node, r')) :
    NodesLive [.resolved dst] r.deltaList r'.deltaList := by
  have hunlink := (unlinked_spec h).1
  have hspec := unlinkNode_spec dst r.deltaList
  rw [hunlink] at hspec
  refine .event ?_ fun k hk => ?_
  · obtain ⟨hmem, rfl, -, -⟩ := hspec
    rw [NodeEvent.dst, lifeOf_of_mem hnd hmem, unlinkNode_lifeOf hnd hunlink, if_pos rfl]
    exact life_resolved node.retryAmt node.ipAddr
  · have hne : k ≠ dst := hk
    rw [unlinkNode_lifeOf hnd hunlink, if_neg hne]

theorem timerUpdatePackets_live (cfg : Config) (hnd : (addrs r.deltaList).Nodup) (dst : IpAddr) :
    NodesLive (updateEvents cfg r dst) r.deltaList (timerUpdatePackets cfg r dst).deltaList := by
  rw [updateEvents, timerUpdatePackets_unlinked]
  cases hunlinked : unlinked r dst with
  | none => exact .idle fun _ => rfl
  | some found =>
    obtain ⟨node, r'⟩ := found
    exact (unlinked_live hnd hunlinked).trans (flushPkts_live cfg dst node.pktList r')

theorem expireNode_live (cfg : Config) (r : Router) {node : DeltaNode} {rest : List DeltaNode}
    (h : DeltaOk (node :: rest)) :
    NodesLive [expiry node] (node :: rest)
      (expireNode cfg { r with deltaList := rest } node).deltaList := by
  have hnew : lifeOf rest node.ipAddr = none := lifeOf_eq_none (List.nodup_cons.1 h.nodup).1
  have hretry := h.retry node List.mem_cons_self
  rw [expireNode_deltaList, expiry]
  by_cases hdrop : node.retryAmt ≥ 1
  · have hone : node.retryAmt = 1 := by omega
    rw [if_pos hdrop, if_pos hdrop]
    refine .event ?_ fun k hk => ?_
    · rw [NodeEvent.dst, lifeOf_cons, if_pos rfl, hone, hnew]
      rfl
    · have hne : node.ipAddr ≠ k := Ne.symm hk
      rw [lifeOf_cons, if_neg hne]
  · have hzero : node.retryAmt = 0 := by omega
    rw [if_neg hdrop, if_neg hdrop]
    refine .event ?_ fun k hk => ?_
    · rw [NodeEvent.dst, lifeOf_cons, if_pos rfl, hzero, lifeOf_append, hnew, lifeOf_cons,
        if_pos rfl]
      rfl
    · have hne : node.ipAddr ≠ k := Ne.symm hk
      rw [lifeOf_append, lifeOf_cons, lifeOf_cons, if_neg hne, if_neg hne]
      exact Option.or_none

theorem expireLoop_live (cfg : Config) (h : DeltaOk r.deltaList) (fuel : Nat) :
    NodesLive ((poppedLoop cfg fuel r).map expiry) r.deltaList
      (expireLoop cfg fuel r).deltaList := by
  induction fuel generalizing r with
  | zero => exact .idle fun _ => rfl
  | succ fuel ih =>
    rw [expireLoop, poppedLoop]
    cases hlist : r.deltaList with
    | nil => exact .idle fun k => congrArg (lifeOf · k) hlist
    | cons node rest =>
      rw [hlist] at h
      by_cases hz : node.msec = 0
      · simp only [if_pos hz]
        exact (expireNode_live cfg r h).trans (ih (deltaOk_expireNode h))
      · simp only [if_neg hz]
        exact .idle fun k => congrArg (lifeOf · k) hlist

theorem timerHandler_live (cfg : Config) (h : DeltaOk r.deltaList) :
    NodesLive ((popped cfg r).map expiry) r.deltaList (timerHandler cfg r).deltaList := by
  cases hlist : r.deltaList with
  | nil =>
    rw [timerHandler_nil cfg hlist, popped, hlist]
    exact .idle fun k => rfl
  | cons node rest =>
    rw [hlist] at h
    rw [timerHandler_eq cfg hlist, popped_loop cfg hlist]
    have hhead : NodesLive [] (node :: rest) ({ node with msec := 0 } :: rest) := by
      refine .idle fun k => ?_
      rw [lifeOf_cons, lifeOf_cons]
    have hloop := expireLoop_live cfg
      (r := { r with deltaList := { node with msec := 0 } :: rest }) h.due (rest.length + 1)
    have hboth := hhead.trans hloop
    rwa [List.nil_append] at hboth

/-- **One call.** -/
theorem nodeEvents_live {s s' : TimerState} {i : TimerInput cfg} (h : DeltaOk s.router.deltaList)
    (hstep : timerStep cfg s i = some s') :
    NodesLive (nodeEvents cfg s.router i) s.router.deltaList s'.router.deltaList := by
  cases i with
  | addPacket q intId dst =>
    rw [← Option.some.inj hstep]
    exact timerAddPacket_live cfg s.router q intId dst
  | updatePackets dst =>
    rw [← Option.some.inj hstep]
    exact timerUpdatePackets_live cfg h.nodup dst
  | handler =>
    rw [← Option.some.inj hstep]
    exact timerHandler_live cfg h
  | elapse nsec =>
    rw [← Option.some.inj hstep]
    exact .idle fun _ => rfl
  | learn pair =>
    rw [← Option.some.inj hstep]
    exact .idle fun _ => rfl

/-! ## Expiry over runs -/

/-- The events of a run, in order. -/
def lifeOfRun (tr : List (Step TimerState (TimerInput cfg))) : List NodeEvent :=
  tr.flatMap fun t => nodeEvents cfg t.pre.router t.input

/-- One call of `timer_handler`. -/
structure ExpiresOnce (cfg : Config) (r : Router) : Prop where
  /-- The loop ends by itself. -/
  ends : ∀ node rest, r.deltaList = node :: rest → ∀ fuel, rest.length < fuel →
    Idle (expireLoop cfg fuel { r with deltaList := { node with msec := 0 } :: rest }).deltaList ∧
      timerHandler cfg r =
        { expireLoop cfg fuel { r with deltaList := { node with msec := 0 } :: rest } with
          timer := (timerHandler cfg r).timer }
  /-- No address is popped twice. -/
  once : ((popped cfg r).map (·.ipAddr)).Nodup
  /-- What is popped was in the list before the call, with as many retries. -/
  before : ∀ node ∈ popped cfg r, lifeOf r.deltaList node.ipAddr = some node.retryAmt
  /-- A popped node without a retry is asked for once, and one with a retry is given up. -/
  log : (timerHandler cfg r).log = r.log ++ (popped cfg r).flatMap (expiryLog cfg)

theorem expiresOnce (cfg : Config) (h : DeltaOk r.deltaList) : ExpiresOnce cfg r := by
  refine ⟨fun node rest hlist fuel hfuel => ?_, ?_, ?_, timerHandler_log cfg r⟩
  · have hrounds : ({ node with msec := 0 } :: rest).length ≤ fuel := hfuel
    rw [expireLoop_enough cfg { r with deltaList := { node with msec := 0 } :: rest } hrounds]
    refine ⟨expireLoop_stops cfg _, ?_⟩
    rw [timerHandler_eq cfg hlist]
    rfl
  · cases hlist : r.deltaList with
    | nil =>
      rw [popped, hlist]
      exact List.nodup_nil
    | cons node rest =>
      rw [hlist] at h
      rw [popped_eq cfg hlist]
      exact h.nodup.sublist (((List.takeWhile_sublist _).map _).cons_cons _)
  · cases hlist : r.deltaList with
    | nil =>
      rw [popped, hlist]
      simp
    | cons node rest =>
      rw [hlist] at h
      rw [popped_eq cfg hlist]
      intro old hold
      rcases List.mem_cons.1 hold with rfl | hold
      · rw [lifeOf_cons, if_pos rfl]
      · exact lifeOf_of_mem h.nodup
          (List.mem_cons_of_mem _ ((List.takeWhile_sublist _).subset hold))

/-- **One expiry treats each address once.** In every reachable state `timer_handler` ends, pops no
address twice, and gives up only nodes that had their retry before the call. Over a run the nodes
of an address are opened with one request, asked for once more, and only then given up; a request
is sent when, and only when, a node is opened, in a flush too, or retried. -/
theorem timer_expiry_once {s : TimerState} {tr : List (Step TimerState (TimerInput cfg))}
    (h : TimerRun cfg r tr s) :
    ExpiresOnce cfg s.router ∧
      (∀ (r' : Router) q intId dst, (timerAddPacket cfg r' q intId dst).log = r'.log ++
        (addEvents r' dst).flatMap
          (fun _ => arpEvents cfg (arpRequest cfg intId dst) intId) ++ [.queued q dst]) ∧
      Lives NodeEvent.dst life (lifeOfRun tr) (fun _ => none) (lifeOf s.router.deltaList) := by
  refine ⟨expiresOnce cfg (delta_list_ok h).1, timerAddPacket_asks cfg, ?_⟩
  refine h.history (I := fun tr s => Lives NodeEvent.dst life (lifeOfRun tr) (fun _ => none)
    (lifeOf s.router.deltaList)) (.idle fun _ => rfl) ?_
  intro tr s i s' hrun ih hstep
  rw [lifeOfRun, List.flatMap_append, List.flatMap_singleton]
  exact ih.trans (nodeEvents_live (delta_list_ok hrun).1 hstep)

/-- A host that does not answer is given up; a second one is asked again in the same call. -/
theorem timer_expiry_once_two :
    ∃ tr s, TimerRun shippedConfig routerInit tr s ∧
      lifeOfRun tr = [.opened ⟨192, 168, 1, 100⟩, .retried ⟨192, 168, 1, 100⟩,
        .opened ⟨192, 168, 1, 101⟩, .dropped ⟨192, 168, 1, 100⟩, .retried ⟨192, 168, 1, 101⟩] ∧
      addrs s.router.deltaList = [⟨192, 168, 1, 101⟩] ∧ ExpiresOnce shippedConfig s.router := by
  obtain ⟨tr, t, hrun, -, hlast⟩ := exists_run_snoc (timerStep shippedConfig)
    (timerIdle routerInit)
    [.addPacket ⟨0, Mem.zero⟩ ⟨0, by decide⟩ ⟨192, 168, 1, 100⟩, .elapse 1000000000, .handler,
      .addPacket ⟨1, Mem.zero⟩ ⟨0, by decide⟩ ⟨192, 168, 1, 101⟩, .elapse 1000000000]
    .handler
    (fun tr t => decide (lifeOfRun (tr ++ [t]) = [.opened ⟨192, 168, 1, 100⟩,
        .retried ⟨192, 168, 1, 100⟩, .opened ⟨192, 168, 1, 101⟩, .dropped ⟨192, 168, 1, 100⟩,
        .retried ⟨192, 168, 1, 101⟩] ∧
      addrs t.post.router.deltaList = [⟨192, 168, 1, 101⟩])) (by decide +kernel)
  obtain ⟨hlife, haddrs⟩ := of_decide_eq_true hlast
  exact ⟨tr ++ [t], t.post, hrun, hlife, haddrs, (timer_expiry_once hrun).1⟩

end NaptRouter
