import NaptRouter.ArpQueue
import NaptRouter.NodeLife
import NaptRouter.Learning
import NaptRouter.Lib.ThreadPool

/-!
# Threads between two critical sections

`main` starts a thread for every interface, and the timer has its own. What they share of
`devices.c` and `timer.c` is guarded by `ip_mac_map_mutex` and `timer_mutex`, which no thread holds
together. So a call is a sequence of critical sections and of work on data of its own, and what
other threads do comes in between: after `has_mac_for_ip` has found no MAC address, another thread
may enter one and take the node out before `timer_add_packet` opens it again.

Whatever the interleaving, every copy of a packet is in one place and freed at most once
(`copies_conserved`), and every frame goes to a MAC address that was entered for its next hop
(`frames_resolved`). Calls that nothing interrupts are those of the other modules
(`exists_serial_threads`).
-/

namespace NaptRouter

open ByteMemory Runs ThreadPool

variable {cfg : Config} {r r' : Router}

/-! ## Operations -/

/-- A packet in `send_ipv4`, its checksums filled in, with its interface and its next hop. -/
structure Sending (cfg : Config) where
  pkt : Mem
  intId : cfg.IntId
  localDstIp : IpAddr

/-- `send_ipv4` before it calls `has_mac_for_ip`. -/
def sending (cfg : Config) (pkt : Mem) : Sending cfg :=
  let dstIp := ipDst pkt
  let intId := cfg.getInterfaceForIp dstIp
  { pkt := fillChecksums pkt, intId, localDstIp := cfg.localDstIp intId dstIp }

/-- What a thread does without another one in between. -/
inductive ThreadOp (cfg : Config)
  /-- `has_mac_for_ip`, and the branch on what it returns. -/
  | hasMac (s : Sending cfg)
  /-- `malloc` and `memcpy` of a packet to be queued. -/
  | copy (s : Sending cfg)
  | addPacket (q : QueuedPkt) (intId : cfg.IntId) (dst : IpAddr)
  | getMac (s : Sending cfg)
  /-- The frame is built and written. -/
  | write (s : Sending cfg) (dstMac : MacAddr)
  | updatePair (pair : IpMacPair)
  /-- The critical section of `timer_update_packets`. -/
  | unlink (dst : IpAddr)
  /-- A packet of an unlinked node is freed. -/
  | free (q : QueuedPkt) (nextHop : IpAddr)
  | timerHandler

def threadExec (cfg : Config) (r : Router) : ThreadOp cfg → Option (Router × List (ThreadOp cfg))
  | .hasMac s => some (r, if !hasMacForIp r.ipMacMap s.localDstIp then [.copy s] else [.getMac s])
  | .copy s =>
      let len := (ntohs (totalLength s.pkt)).toNat
      let newPkt : QueuedPkt := { ptr := r.copies, pkt := Mem.zero.write 0 (s.pkt.read 0 len) }
      some ({ r with copies := r.copies + 1 }, [.addPacket newPkt s.intId s.localDstIp])
  | .addPacket q intId dst => some (timerAddPacket cfg r q intId dst, [])
  | .getMac s => some (r, [.write s (getMacFromIp r.ipMacMap s.localDstIp)])
  | .write s dstMac =>
      match cfg.interfaceGetType s.intId with
      | .ether =>
          let len := (ntohs (totalLength s.pkt)).toNat
          some (r.emit (.write s.intId
            (ipv4Frame dstMac (cfg.interfaceGetMacAddr s.intId) s.pkt len)), [])
      | .wifi | .unknown => some (r, [])
  | .updatePair pair => some (learn r pair, [])
  | .unlink dst =>
      match unlinked r dst with
      | none => some (r, [])
      | some (node, r) =>
          some (r, node.pktList.flatMap fun q => [.hasMac (sending cfg q.pkt), .free q dst])
  | .free q nextHop => some (r.emit (.flushed q nextHop), [])
  | .timerHandler => some (NaptRouter.timerHandler cfg r, [])

inductive ThreadCall (cfg : Config)
  /-- `ethernet_handle` of an IPv4 frame: its sender is entered, and the packet that `ipv4_handle`
  makes of it is sent. Which packet that is, if any, does not matter here. -/
  | ipv4 (pair : IpMacPair) (pkt : Option Mem)
  /-- `arp_handle`. -/
  | arp (pkt : ArpHdr) (intId : cfg.IntId) (src : MacAddr)
  /-- The signal of the timer. -/
  | timer

def threadStart (cfg : Config) : ThreadCall cfg → List (ThreadOp cfg)
  | .ipv4 pair pkt => .updatePair pair :: (pkt.map fun p => .hasMac (sending cfg p)).toList
  | .arp pkt _ _ =>
      if !arpValid pkt then []
      else [.updatePair { ipAddr := pkt.senderIp, macAddr := pkt.senderMac }, .unlink pkt.senderIp]
  | .timer => [.timerHandler]

/-- The effect of a call that nothing interrupts. -/
def threadCall (cfg : Config) (r : Router) : ThreadCall cfg → Router
  | .ipv4 pair pkt => pkt.elim (learn r pair) (sendIpv4 cfg (learn r pair))
  | .arp pkt intId src => arpHandle cfg r pkt intId src
  | .timer => timerHandler cfg r

abbrev ThreadRun (cfg : Config) (τ : Type) [DecidableEq τ] (r : Router) :=
  Run (poolStep (threadExec cfg) (threadStart cfg)) (idle (emptyQueue r) : Pool τ Router _)

/-! ## Calls that nothing interrupts -/

theorem finishes_sendIpv4 (cfg : Config) (r : Router) (pkt : Mem) :
    Finishes (threadExec cfg) r [.hasMac (sending cfg pkt)] (sendIpv4 cfg r pkt) := by
  cases hres : hasMacForIp r.ipMacMap (nextHop cfg pkt) with
  | false =>
    have hbranch : threadExec cfg r (.hasMac (sending cfg pkt)) =
        some (r, [.copy (sending cfg pkt)]) := by
      rw [nextHop] at hres
      simp [threadExec, sending, hres]
    rw [sendIpv4_unresolved hres]
    exact .cons hbranch (.cons rfl (.single rfl))
  | true =>
    have hbranch : threadExec cfg r (.hasMac (sending cfg pkt)) =
        some (r, [.getMac (sending cfg pkt)]) := by
      rw [nextHop] at hres
      simp [threadExec, sending, hres]
    refine .cons hbranch (.cons rfl (.single ?_))
    rw [sendIpv4_resolved hres, threadExec]
    cases htype : cfg.interfaceGetType (cfg.getInterfaceForIp (ipDst pkt)) with
    | ether => simp [sending, htype, nextHop]
    | wifi => simp [sending, htype]
    | unknown => simp [sending, htype]

theorem finishes_flushPkts (cfg : Config) (nh : IpAddr) (pkts : List QueuedPkt) (r : Router) :
    Finishes (threadExec cfg) r
      (pkts.flatMap fun q => [.hasMac (sending cfg q.pkt), .free q nh])
      (flushPkts cfg nh pkts r) := by
  induction pkts generalizing r with
  | nil => exact .nil r
  | cons q rest ih =>
    have hsend := finishes_sendIpv4 cfg r q.pkt
    have hfree : Finishes (threadExec cfg) (sendIpv4 cfg r q.pkt) [.free q nh]
        ((sendIpv4 cfg r q.pkt).emit (.flushed q nh)) := .single rfl
    rw [List.flatMap_cons]
    exact (hsend.append hfree).append (ih _)

/-- **A call that nothing interrupts** has the effect of the function. -/
theorem finishes_threadCall (cfg : Config) (r : Router) (c : ThreadCall cfg) :
    Finishes (threadExec cfg) r (threadStart cfg c) (threadCall cfg r c) := by
  cases c with
  | ipv4 pair pkt =>
    cases pkt with
    | none => exact .single rfl
    | some pkt => exact .cons rfl (finishes_sendIpv4 cfg (learn r pair) pkt)
  | arp pkt intId src =>
    rw [threadStart, threadCall, arpHandle]
    cases arpValid pkt with
    | false => exact .nil r
    | true =>
      refine .cons rfl ?_
      show Finishes (threadExec cfg) (learn r _) [.unlink pkt.senderIp]
        (timerUpdatePackets cfg (learn r _) pkt.senderIp)
      rw [timerUpdatePackets_unlinked]
      cases hunlinked : unlinked (learn r _) pkt.senderIp with
      | none => exact .single (by rw [threadExec, hunlinked])
      | some found =>
        obtain ⟨node, r'⟩ := found
        refine .cons (by rw [threadExec, hunlinked]) ?_
        rw [List.append_nil]
        exact finishes_flushPkts cfg pkt.senderIp node.pktList r'
  | timer => exact .single rfl

/-- So the calls of the other modules, one after the other and from any thread, are a run. -/
theorem exists_serial_threads (cfg : Config) {τ : Type} [DecidableEq τ] (r : Router)
    (calls : List (τ × ThreadCall cfg)) :
    ∃ tr, ThreadRun cfg τ r tr
      (idle (calls.foldl (fun r p => threadCall cfg r p.2) (emptyQueue r))) :=
  exists_serial_run (finishes_threadCall cfg) (emptyQueue r) calls

/-- `ethernet_handle` is such a call, but for the NAPT tables. -/
theorem ethernetHandle_threadCall {f : Frame cfg} (h : ethernetHandle cfg r f = some r') :
    r' = r ∨ ∃ napt c, r' = threadCall cfg { r with napt } c := by
  rw [ethernetHandle] at h
  split_ifs at h
  · obtain ⟨napt, hkept | ⟨pkt, hsent⟩⟩ := ipv4Handle_cases h
    · exact Or.inr ⟨napt, .ipv4 _ none, hkept⟩
    · exact Or.inr ⟨napt, .ipv4 _ (some pkt), hsent⟩
  · exact Or.inr ⟨r.napt, .arp _ f.intId (macSrc f.bytes), (Option.some.inj h).symm⟩
  · exact Or.inl (Option.some.inj h).symm

/-! ## The copies that a function moves -/

/-- How often a copy is in these nodes. -/
def inNodes (ptr : Nat) (nodes : List DeltaNode) : Nat :=
  (nodes.flatMap (·.pktList)).countP (·.ptr = ptr)

/-- How often the events of a log free it. -/
def timesFreed (ptr : Nat) (log : List Event) : Nat :=
  (log.filterMap Event.leaves).countP (·.2.ptr = ptr)

section Count

variable {ptr : Nat} {nodes nodes' : List DeltaNode}

@[simp] theorem inNodes_nil : inNodes ptr [] = 0 := rfl

@[simp] theorem inNodes_cons (node : DeltaNode) (rest : List DeltaNode) :
    inNodes ptr (node :: rest) = node.pktList.countP (·.ptr = ptr) + inNodes ptr rest := by
  simp [inNodes]

@[simp] theorem inNodes_append :
    inNodes ptr (nodes ++ nodes') = inNodes ptr nodes + inNodes ptr nodes' := by
  simp [inNodes]

@[simp] theorem inNodes_passDelta (msec : Nat) : inNodes ptr (passDelta msec nodes) =
    inNodes ptr nodes := by
  cases nodes with
  | nil => rfl
  | cons next rest => simp [passDelta]

theorem timesFreed_append (log es : List Event) :
    timesFreed ptr (log ++ es) = timesFreed ptr log + timesFreed ptr es := by
  simp [timesFreed]

theorem timesFreed_of_leaves {es : List Event} (h : ∀ e ∈ es, e.leaves = none) :
    timesFreed ptr es = 0 := by
  have hnil : es.filterMap Event.leaves = [] := List.filterMap_eq_nil_iff.2 h
  rw [timesFreed, hnil, List.countP_nil]

theorem inNodes_appendToNode {q : QueuedPkt} {dst : IpAddr}
    (h : appendToNode q dst nodes = some nodes') :
    inNodes ptr nodes' = inNodes ptr nodes + if q.ptr = ptr then 1 else 0 := by
  induction nodes generalizing nodes' with
  | nil => cases h
  | cons node rest ih =>
    rw [appendToNode] at h
    split_ifs at h
    · rw [← Option.some.inj h]
      simp only [inNodes_cons, List.countP_append, List.countP_singleton, decide_eq_true_eq]
      omega
    · obtain ⟨rest', hrest, rfl⟩ := Option.map_eq_some_iff.1 h
      rw [inNodes_cons, inNodes_cons, ih hrest, Nat.add_assoc]

theorem inNodes_unlinkNode {dst : IpAddr} {node : DeltaNode}
    (h : unlinkNode dst nodes = some (node, nodes')) :
    node.pktList.countP (·.ptr = ptr) + inNodes ptr nodes' = inNodes ptr nodes := by
  induction nodes generalizing nodes' with
  | nil => cases h
  | cons head rest ih =>
    rcases unlinkNode_cases h with ⟨-, rfl, rfl⟩ | ⟨-, rest', hrest, rfl⟩
    · rw [inNodes_passDelta, inNodes_cons]
    · rw [inNodes_cons, inNodes_cons, ← ih hrest]
      omega

end Count

theorem unlinked_frame {dst : IpAddr} {node : DeltaNode} (h : unlinked r dst = some (node, r')) :
    ∃ timer, r' = { r with deltaList := r'.deltaList, timer } := by
  rw [unlinked] at h
  cases hlist : r.deltaList with
  | nil => simp [hlist] at h
  | cons head rest =>
    cases hunlink : unlinkNode dst (head :: rest) with
    | none => simp [hlist, hunlink] at h
    | some found =>
      simp only [hlist, hunlink, Option.some.injEq, Prod.mk.injEq] at h
      obtain ⟨-, rfl⟩ := h
      obtain ⟨timer, htimer⟩ := rearmAfterHead_eq r rest
      split_ifs
      · exact ⟨timer, by rw [htimer]⟩
      · exact ⟨r.timer, rfl⟩

theorem threadExec_write {s : Sending cfg} {dstMac : MacAddr} {more : List (ThreadOp cfg)}
    (h : threadExec cfg r (.write s dstMac) = some (r', more)) :
    more = [] ∧ (r' = r ∨ ∃ frame, r' = r.emit (.write s.intId frame)) := by
  rw [threadExec] at h
  cases htype : cfg.interfaceGetType s.intId with
  | ether =>
    rw [htype] at h
    obtain ⟨rfl, rfl⟩ := Prod.mk.inj (Option.some.inj h)
    exact ⟨rfl, Or.inr ⟨_, rfl⟩⟩
  | wifi | unknown =>
    rw [htype] at h
    obtain ⟨rfl, rfl⟩ := Prod.mk.inj (Option.some.inj h)
    exact ⟨rfl, Or.inl rfl⟩

theorem threadExec_unlink {dst : IpAddr} {more : List (ThreadOp cfg)}
    (h : threadExec cfg r (.unlink dst) = some (r', more)) :
    r' = r ∧ more = [] ∨ ∃ node, unlinked r dst = some (node, r') ∧
      more = node.pktList.flatMap fun q => [.hasMac (sending cfg q.pkt), .free q dst] := by
  rw [threadExec] at h
  cases hunlinked : unlinked r dst with
  | none =>
    rw [hunlinked] at h
    obtain ⟨rfl, rfl⟩ := Prod.mk.inj (Option.some.inj h)
    exact Or.inl ⟨rfl, rfl⟩
  | some found =>
    obtain ⟨node, r₁⟩ := found
    rw [hunlinked] at h
    obtain ⟨rfl, rfl⟩ := Prod.mk.inj (Option.some.inj h)
    exact Or.inr ⟨node, rfl, rfl⟩

theorem inNodes_timerAddPacket (cfg : Config) (r : Router) (q : QueuedPkt) (intId : cfg.IntId)
    (dst : IpAddr) (ptr : Nat) :
    inNodes ptr (timerAddPacket cfg r q intId dst).deltaList =
      inNodes ptr r.deltaList + if q.ptr = ptr then 1 else 0 := by
  rw [timerAddPacket_deltaList]
  cases h : appendToNode q dst r.deltaList with
  | some nodes => exact inNodes_appendToNode h
  | none => simp

theorem timesFreed_timerAddPacket (cfg : Config) (r : Router) (q : QueuedPkt)
    (intId : cfg.IntId) (dst : IpAddr) (ptr : Nat) :
    timesFreed ptr (timerAddPacket cfg r q intId dst).log = timesFreed ptr r.log := by
  obtain ⟨-, ws, hws, hlog⟩ := timerAddPacket_log cfg r q intId dst
  have hleaves : ∀ e ∈ ws ++ [Event.queued q dst], e.leaves = none := by
    intro e he
    rcases List.mem_append.1 he with he | he
    · exact (hws e he).leaves
    · rw [List.mem_singleton.1 he]
      rfl
  rw [hlog, timesFreed_append, timesFreed_of_leaves hleaves, Nat.add_zero]

/-- What a popped node adds to the end of the list. -/
def againNode (node : DeltaNode) (nodes : List DeltaNode) : List DeltaNode :=
  if node.retryAmt ≥ 1 then []
  else [{ node with retryAmt := node.retryAmt + 1, msec := nextDelta nodes }]

theorem deltaList_expireNode (cfg : Config) (r : Router) (node : DeltaNode) :
    (expireNode cfg r node).deltaList = r.deltaList ++ againNode node r.deltaList := by
  rw [expireNode_deltaList, againNode]
  split_ifs
  · exact (List.append_nil _).symm
  · rfl

theorem popped_copies (cfg : Config) (node : DeltaNode) (nodes : List DeltaNode) (ptr : Nat) :
    inNodes ptr (againNode node nodes) + timesFreed ptr (expiryLog cfg node) =
      node.pktList.countP (·.ptr = ptr) := by
  rw [againNode, expiryLog]
  split_ifs
  · rw [timesFreed, leaves_discardEvents, List.countP_map, inNodes_nil, Nat.zero_add]
    rfl
  · rw [timesFreed_of_leaves, Nat.add_zero, inNodes_cons, inNodes_nil, Nat.add_zero]
    intro e he
    have hcases := he
    rw [arpEvents] at hcases
    cases htype : cfg.interfaceGetType (cfg.getInterfaceForIp node.ipAddr) with
    | ether =>
      rw [htype] at hcases
      rw [List.mem_singleton.1 hcases]
      rfl
    | wifi =>
      rw [htype] at hcases
      cases hcases
    | unknown =>
      rw [htype] at hcases
      cases hcases

theorem expireLoop_copies (cfg : Config) (fuel : Nat) (r : Router) (ptr : Nat) :
    inNodes ptr (expireLoop cfg fuel r).deltaList + timesFreed ptr (expireLoop cfg fuel r).log =
      inNodes ptr r.deltaList + timesFreed ptr r.log := by
  refine expireLoop_keeps (P := fun s => inNodes ptr s.deltaList + timesFreed ptr s.log =
    inNodes ptr r.deltaList + timesFreed ptr r.log) (fun s node rest hlist hs => ?_) fuel rfl
  have hpop := popped_copies cfg node rest ptr
  rw [hlist, inNodes_cons] at hs
  rw [deltaList_expireNode, expireNode_log, inNodes_append, timesFreed_append]
  simp only
  omega

theorem timerHandler_copies (cfg : Config) (r : Router) (ptr : Nat) :
    inNodes ptr (timerHandler cfg r).deltaList + timesFreed ptr (timerHandler cfg r).log =
      inNodes ptr r.deltaList + timesFreed ptr r.log := by
  rcases timerHandler_cases cfg r with heq | ⟨node, rest, fuel, timer, hlist, heq⟩
  · rw [heq]
  · have hloop := expireLoop_copies cfg fuel
      { r with deltaList := { node with msec := 0 } :: rest } ptr
    rw [heq, hlist]
    simpa using hloop

/-! ## Conservation -/

/-- How often an operation still to do has a copy in hand, to queue it or to free it. -/
def ThreadOp.holds (ptr : Nat) : ThreadOp cfg → Nat
  | .addPacket q _ _ | .free q _ => if q.ptr = ptr then 1 else 0
  | .hasMac _ | .copy _ | .getMac _ | .write _ _ | .updatePair _ | .unlink _ | .timerHandler => 0

/-- Where a copy can be but in the hands of a thread: not made yet, in the delta list, freed. -/
def copyKept (ptr : Nat) (r : Router) : Nat :=
  (if r.copies ≤ ptr then 1 else 0) + inNodes ptr r.deltaList + timesFreed ptr r.log

theorem holds_flush (nh : IpAddr) (pkts : List QueuedPkt) (ptr : Nat) :
    ((pkts.flatMap fun q => [ThreadOp.hasMac (sending cfg q.pkt), .free q nh]).map
      (ThreadOp.holds ptr)).sum = pkts.countP (·.ptr = ptr) := by
  induction pkts with
  | nil => rfl
  | cons q rest ih =>
    rw [List.flatMap_cons, List.map_append, List.sum_append, ih, List.countP_cons]
    simp [ThreadOp.holds, Nat.add_comm]

/-- **No operation makes a copy or loses one.** -/
theorem threadExec_copies {op : ThreadOp cfg} {more : List (ThreadOp cfg)}
    (h : threadExec cfg r op = some (r', more)) (ptr : Nat) :
    copyKept ptr r' + (more.map (ThreadOp.holds ptr)).sum = copyKept ptr r + op.holds ptr := by
  cases op with
  | hasMac s =>
    obtain ⟨rfl, rfl⟩ := Prod.mk.inj (Option.some.inj h)
    split_ifs <;> rfl
  | copy s =>
    obtain ⟨rfl, rfl⟩ := Prod.mk.inj (Option.some.inj h)
    simp only [copyKept, List.map_cons, List.map_nil, List.sum_cons, List.sum_nil,
      ThreadOp.holds]
    split_ifs <;> omega
  | addPacket q intId dst =>
    obtain ⟨rfl, rfl⟩ := Prod.mk.inj (Option.some.inj h)
    rw [copyKept, copyKept, (timerAddPacket_log cfg r q intId dst).1, inNodes_timerAddPacket,
      timesFreed_timerAddPacket, ThreadOp.holds, List.map_nil, List.sum_nil]
    omega
  | getMac s =>
    obtain ⟨rfl, rfl⟩ := Prod.mk.inj (Option.some.inj h)
    rfl
  | write s dstMac =>
    obtain ⟨rfl, rfl | ⟨frame, rfl⟩⟩ := threadExec_write h
    · rfl
    · simp only [copyKept, Router.emit, timesFreed_append]
      rfl
  | updatePair pair =>
    obtain ⟨rfl, rfl⟩ := Prod.mk.inj (Option.some.inj h)
    rfl
  | unlink dst =>
    rcases threadExec_unlink h with ⟨rfl, rfl⟩ | ⟨node, hunlinked, rfl⟩
    · rfl
    · -- The packets move from the node to the thread that will flush them.
      have hnodes : node.pktList.countP (·.ptr = ptr) + inNodes ptr r'.deltaList =
          inNodes ptr r.deltaList := inNodes_unlinkNode (unlinked_spec hunlinked).1
      obtain ⟨timer, hframe⟩ := unlinked_frame hunlinked
      have hcopies : r'.copies = r.copies := by rw [hframe]
      have hlog : r'.log = r.log := by rw [hframe]
      rw [holds_flush, copyKept, copyKept, hcopies, hlog, ThreadOp.holds, ← hnodes]
      omega
  | free q nh =>
    obtain ⟨rfl, rfl⟩ := Prod.mk.inj (Option.some.inj h)
    have hfreed : timesFreed ptr [Event.flushed q nh] = if q.ptr = ptr then 1 else 0 := by
      simp [timesFreed, Event.leaves, List.countP_singleton]
    rw [copyKept, copyKept, Router.emit_copies, Router.emit_deltaList, Router.emit_log,
      timesFreed_append, hfreed, ThreadOp.holds, List.map_nil, List.sum_nil]
    omega
  | timerHandler =>
    obtain ⟨rfl, rfl⟩ := Prod.mk.inj (Option.some.inj h)
    have hcopies := timerHandler_copies cfg r ptr
    obtain ⟨deltaList, timer, log, hframe⟩ := timerHandler_frame cfg r
    have hsame : (NaptRouter.timerHandler cfg r).copies = r.copies := by rw [hframe]
    rw [copyKept, copyKept, hsame, ThreadOp.holds, List.map_nil, List.sum_nil]
    omega

/-- **Every copy is in one place**, whatever the interleaving: in the hands of the thread that
queues or frees it, in the delta list, sent and freed, or discarded. So none is freed twice, and
when no thread has anything to do, none is lost. -/
theorem copies_conserved (cfg : Config) (r : Router) {τ : Type} [DecidableEq τ] [Fintype τ]
    {tr : List (PoolStep τ Router (ThreadOp cfg) (ThreadCall cfg))}
    {s : Pool τ Router (ThreadOp cfg)} (h : ThreadRun cfg τ r tr s) (ptr : Nat) :
    inHand (ThreadOp.holds ptr) s + timesWaiting s.shared ptr + timesFlushed s.shared ptr +
      timesDiscarded s.shared ptr = if ptr < s.shared.copies then 1 else 0 := by
  have hstart : ∀ c, ((threadStart cfg c).map (ThreadOp.holds ptr)).sum = 0 := by
    intro c
    cases c with
    | ipv4 pair pkt => cases pkt <;> rfl
    | arp pkt intId src =>
      rw [threadStart]
      split_ifs <;> rfl
    | timer => rfl
  have haccount := account hstart (fun _ _ _ _ hop => threadExec_copies hop ptr) h
  have hfreed : timesFreed ptr s.shared.log =
      timesFlushed s.shared ptr + timesDiscarded s.shared ptr := countP_leaves _ _
  have hwaiting : inNodes ptr s.shared.deltaList = timesWaiting s.shared ptr := rfl
  have hinit : copyKept ptr (emptyQueue r) = 1 := by
    simp [copyKept, emptyQueue, timesFreed]
  rw [hinit, copyKept, hfreed, hwaiting] at haccount
  split_ifs at haccount ⊢ <;> omega

/-- The answer of a host in the LAN to the ARP request of the router. -/
def lanAnswer (mac : MacAddr) : ArpHdr where
  hardwareType := ntohs 1
  protocolType := ntohs 0x0800
  hardwareLength := 6
  protocolLength := 4
  operation := ntohs 2
  senderMac := mac
  senderIp := ⟨192, 168, 1, 100⟩
  targetMac := ⟨0, 0, 0, 0, 0, 0⟩
  targetIp := ⟨192, 168, 1, 1⟩

/-- The host answers between `has_mac_for_ip` and `timer_add_packet`: its packet waits, although
the map has its MAC address. -/
theorem copies_conserved_race :
    ∃ tr t, ThreadRun shippedConfig Bool routerInit (tr ++ [t]) t.post ∧
      hasMacForIp t.post.shared.ipMacMap ⟨192, 168, 1, 100⟩ = true ∧
      inHand (ThreadOp.holds 0) t.pre = 1 ∧ inHand (ThreadOp.holds 0) t.post +
        timesWaiting t.post.shared 0 + timesFlushed t.post.shared 0 +
          timesDiscarded t.post.shared 0 = 1 := by
  let pkt : Mem := udpDatagram (⟨8, 8, 8, 8⟩, ⟨53⟩) (⟨192, 168, 1, 100⟩, ⟨5000⟩)
  let call : ThreadCall shippedConfig :=
    .ipv4 ⟨⟨8, 8, 8, 8⟩, ⟨2, 0, 0, 0, 0, 2⟩⟩ (some pkt)
  let answer : ThreadCall shippedConfig :=
    .arp (lanAnswer ⟨2, 0, 0, 0, 0, 1⟩) ⟨0, by decide⟩ ⟨2, 0, 0, 0, 0, 1⟩
  obtain ⟨tr, t, hrun, -, hlast⟩ := exists_run_snoc
    (poolStep (threadExec shippedConfig) (threadStart shippedConfig))
    (idle (emptyQueue routerInit) : Pool Bool Router _)
    [.call false call, .turn false, .turn false, .call true answer, .turn true, .turn true,
      .turn false] (.turn false)
    (fun _ t => decide (hasMacForIp t.post.shared.ipMacMap ⟨192, 168, 1, 100⟩ = true ∧
      inHand (ThreadOp.holds 0) t.pre = 1 ∧ t.post.shared.copies = 1)) (by decide +kernel)
  obtain ⟨hres, hpre, hcopies⟩ := of_decide_eq_true hlast
  have honce := copies_conserved shippedConfig routerInit hrun 0
  rw [hcopies] at honce
  exact ⟨tr, t, hrun, hres, hpre, honce⟩

/-! ## Where frames go -/

/-- The map after these operations. -/
def mapAfter (m : IpMacMap) (ops : List (ThreadOp cfg)) : IpMacMap :=
  ops.foldl (fun m op =>
    match op with
    | .updatePair pair => updateIpMacPair m pair
    | _ => m) m

theorem mapAfter_append (m : IpMacMap) (ops ops' : List (ThreadOp cfg)) :
    mapAfter m (ops ++ ops') = mapAfter (mapAfter m ops) ops' :=
  List.foldl_append

theorem timerAddPacket_ipMacMap (cfg : Config) (r : Router) (q : QueuedPkt) (intId : cfg.IntId)
    (dst : IpAddr) : (timerAddPacket cfg r q intId dst).ipMacMap = r.ipMacMap := by
  rw [timerAddPacket]
  cases appendToNode q dst r.deltaList with
  | some nodes => rfl
  | none =>
    simp only [sendArp_deltaList]
    cases r.deltaList with
    | nil => exact sendArp_ipMacMap ..
    | cons node rest => exact sendArp_ipMacMap ..

theorem threadExec_ipMacMap {op : ThreadOp cfg} {more : List (ThreadOp cfg)}
    (h : threadExec cfg r op = some (r', more)) :
    r'.ipMacMap = mapAfter r.ipMacMap [op] := by
  cases op with
  | hasMac s | copy s | getMac s | updatePair pair | free q nh =>
    obtain ⟨rfl, rfl⟩ := Prod.mk.inj (Option.some.inj h)
    rfl
  | addPacket q intId dst =>
    obtain ⟨rfl, rfl⟩ := Prod.mk.inj (Option.some.inj h)
    exact timerAddPacket_ipMacMap cfg r q intId dst
  | write s dstMac =>
    obtain ⟨rfl, rfl | ⟨frame, rfl⟩⟩ := threadExec_write h <;> rfl
  | unlink dst =>
    rcases threadExec_unlink h with ⟨rfl, rfl⟩ | ⟨node, hunlinked, rfl⟩
    · rfl
    · obtain ⟨timer, hframe⟩ := unlinked_frame hunlinked
      rw [hframe]
      rfl
  | timerHandler =>
    obtain ⟨rfl, rfl⟩ := Prod.mk.inj (Option.some.inj h)
    obtain ⟨deltaList, timer, log, hframe⟩ := timerHandler_frame cfg r
    rw [hframe]
    rfl

theorem hasMac_mapAfter {m : IpMacMap} {ip : IpAddr} (h : macOf m ip ≠ none)
    (ops : List (ThreadOp cfg)) : macOf (mapAfter m ops) ip ≠ none := by
  induction ops generalizing m with
  | nil => exact h
  | cons op rest ih =>
    apply ih
    cases op with
    | updatePair pair =>
      show macOf (updateIpMacPair m pair) ip ≠ none
      rw [macOf_update]
      split_ifs
      · simp
      · exact h
    | hasMac s | copy s | addPacket q intId dst | getMac s | write s dstMac | unlink dst
    | free q nh | timerHandler => exact h

/-- `dstMac` is what a thread found that looked up the next hop, at some time in `ops`. -/
def LookedUp (m : IpMacMap) (ops : List (ThreadOp cfg)) (s : Sending cfg) (dstMac : MacAddr) :
    Prop :=
  ∃ before after, ops = before ++ .getMac s :: after ∧
    macOf (mapAfter m before) s.localDstIp = some dstMac

theorem LookedUp.append {m : IpMacMap} {ops : List (ThreadOp cfg)} {s : Sending cfg}
    {dstMac : MacAddr} (h : LookedUp m ops s dstMac) (ops' : List (ThreadOp cfg)) :
    LookedUp m (ops ++ ops') s dstMac := by
  obtain ⟨before, after, rfl, hmac⟩ := h
  exact ⟨before, after ++ ops', by rw [List.append_assoc, List.cons_append], hmac⟩

/-- What an operation may assume of the map and of what has been done. -/
def Assumes (m : IpMacMap) (ops : List (ThreadOp cfg)) (r : Router) : ThreadOp cfg → Prop
  | .getMac s => macOf r.ipMacMap s.localDstIp ≠ none
  | .write s dstMac => LookedUp m ops s dstMac
  | .hasMac _ | .copy _ | .addPacket _ _ _ | .updatePair _ | .unlink _ | .free _ _
  | .timerHandler => True

/-- What has been done: the map has every pair that was entered, and every frame a MAC address
that was looked up. -/
structure Addressed (m : IpMacMap) (ops : List (ThreadOp cfg)) (r : Router) : Prop where
  map : r.ipMacMap = mapAfter m ops
  write : ∀ before after s dstMac, ops = before ++ .write s dstMac :: after →
    LookedUp m before s dstMac

theorem Addressed.exec {m : IpMacMap} {ops : List (ThreadOp cfg)} {op : ThreadOp cfg}
    {more : List (ThreadOp cfg)} (h : Addressed m ops r) (hop : Assumes m ops r op)
    (hexec : threadExec cfg r op = some (r', more)) : Addressed m (ops ++ [op]) r' := by
  refine ⟨?_, fun before after s dstMac hops => ?_⟩
  · rw [threadExec_ipMacMap hexec, h.map, mapAfter_append]
  · rcases List.eq_nil_or_concat after with rfl | ⟨after, last, rfl⟩
    · obtain ⟨rfl, hlast⟩ := List.append_inj' hops rfl
      obtain rfl : op = .write s dstMac := List.singleton_inj.1 hlast
      exact hop
    · rw [List.concat_eq_append, ← List.cons_append, ← List.append_assoc] at hops
      exact h.write before after s dstMac (List.append_inj' hops rfl).1

/-- What an operation puts in its place may assume what it must. -/
theorem Addressed.more {m : IpMacMap} {ops : List (ThreadOp cfg)} {op : ThreadOp cfg}
    {more : List (ThreadOp cfg)} (h : Addressed m ops r) (hop : Assumes m ops r op)
    (hexec : threadExec cfg r op = some (r', more)) :
    ∀ op' ∈ more, Assumes m (ops ++ [op]) r' op' := by
  intro op' hmem
  cases op with
  | hasMac s =>
    obtain ⟨rfl, rfl⟩ := Prod.mk.inj (Option.some.inj hexec)
    split_ifs at hmem with hres
    · rw [List.mem_singleton.1 hmem]
      trivial
    · rw [List.mem_singleton.1 hmem]
      show macOf r.ipMacMap s.localDstIp ≠ none
      rw [macOf]
      simpa using hres
  | copy s =>
    obtain ⟨rfl, rfl⟩ := Prod.mk.inj (Option.some.inj hexec)
    rw [List.mem_singleton.1 hmem]
    trivial
  | getMac s =>
    obtain ⟨rfl, rfl⟩ := Prod.mk.inj (Option.some.inj hexec)
    rw [List.mem_singleton.1 hmem]
    refine ⟨ops, [], rfl, ?_⟩
    rw [← h.map]
    have hmac : macOf r.ipMacMap s.localDstIp ≠ none := hop
    rw [macOf] at hmac ⊢
    split_ifs at hmac ⊢
    · rfl
    · exact absurd rfl hmac
  | write s dstMac =>
    obtain ⟨rfl, -⟩ := threadExec_write hexec
    cases hmem
  | unlink dst =>
    rcases threadExec_unlink hexec with ⟨rfl, rfl⟩ | ⟨node, hunlinked, rfl⟩
    · cases hmem
    · obtain ⟨q, -, hq⟩ := List.mem_flatMap.1 hmem
      rcases List.mem_pair.1 hq with rfl | rfl <;> trivial
  | addPacket q intId dst | updatePair pair | free q nh | timerHandler =>
    obtain ⟨rfl, rfl⟩ := Prod.mk.inj (Option.some.inj hexec)
    cases hmem

/-- No thread takes away what another may assume. -/
theorem Assumes.keep {m : IpMacMap} {ops : List (ThreadOp cfg)} {op op' : ThreadOp cfg}
    {more : List (ThreadOp cfg)} (h : Assumes m ops r op')
    (hexec : threadExec cfg r op = some (r', more)) : Assumes m (ops ++ [op]) r' op' := by
  cases op' with
  | getMac s =>
    show macOf r'.ipMacMap s.localDstIp ≠ none
    rw [threadExec_ipMacMap hexec]
    exact hasMac_mapAfter h [op]
  | write s dstMac => exact LookedUp.append h [op]
  | hasMac s | copy s | addPacket q intId dst | updatePair pair | unlink dst | free q nh
  | timerHandler => trivial

/-- **Every frame goes to a MAC address that was entered for its next hop**, whatever comes
between `has_mac_for_ip`, `get_mac_from_ip` and the write: the one that the map held when the
thread looked it up, never the zero address. -/
theorem frames_resolved (cfg : Config) (r : Router) {τ : Type} [DecidableEq τ]
    {tr : List (PoolStep τ Router (ThreadOp cfg) (ThreadCall cfg))}
    {s : Pool τ Router (ThreadOp cfg)} (h : ThreadRun cfg τ r tr s) :
    ∀ before after sent dstMac, executed tr = before ++ .write sent dstMac :: after →
      LookedUp r.ipMacMap before sent dstMac := by
  have hinit : Addressed r.ipMacMap ([] : List (ThreadOp cfg)) (emptyQueue r) :=
    ⟨rfl, fun before after sent dstMac hops => by simp at hops⟩
  have hpending := pending (I := Addressed r.ipMacMap) (J := Assumes r.ipMacMap) hinit
    (fun ops s c _ op hop => ?_)
    (fun ops s op s' more hI hJ hexec => ⟨hI.exec hJ hexec, hI.more hJ hexec⟩)
    (fun ops s op s' more _ _ hexec op' hJ => hJ.keep hexec) h
  · exact hpending.1.write
  · cases c with
    | ipv4 pair pkt =>
      cases pkt with
      | none =>
        rw [List.mem_singleton.1 hop]
        trivial
      | some pkt =>
        rcases List.mem_pair.1 hop with rfl | rfl <;> trivial
    | arp pkt intId src =>
      rw [threadStart] at hop
      split_ifs at hop
      · cases hop
      · rcases List.mem_pair.1 hop with rfl | rfl <;> trivial
    | timer =>
      rw [List.mem_singleton.1 hop]
      trivial

/-- The MAC address that a frame is written to. -/
def ThreadOp.writtenTo : ThreadOp cfg → Option MacAddr
  | .write _ dstMac => some dstMac
  | .hasMac _ | .copy _ | .addPacket .. | .getMac _ | .updatePair _ | .unlink _ | .free ..
  | .timerHandler => none

theorem ThreadOp.writtenTo_eq_some {op : ThreadOp cfg} {dstMac : MacAddr}
    (h : op.writtenTo = some dstMac) : ∃ sent, op = .write sent dstMac := by
  cases op with
  | write sent mac => exact ⟨sent, congrArg _ (Option.some.inj h)⟩
  | hasMac s | copy s | addPacket q intId dst | getMac s | updatePair pair | unlink dst
  | free q nh | timerHandler => cases h


/-- A host takes another MAC address between `has_mac_for_ip` and `get_mac_from_ip`. -/
theorem frames_resolved_race :
    ∃ tr t sent, ThreadRun shippedConfig Bool routerInit (tr ++ [t]) t.post ∧
      PoolStep.op t = some (.write sent ⟨2, 0, 0, 0, 0, 3⟩) ∧
      LookedUp routerInit.ipMacMap (executed tr) sent ⟨2, 0, 0, 0, 0, 3⟩ := by
  let pkt : Mem := udpDatagram (⟨8, 8, 8, 8⟩, ⟨53⟩) (⟨192, 168, 1, 100⟩, ⟨5000⟩)
  let call : ThreadCall shippedConfig :=
    .ipv4 ⟨⟨192, 168, 1, 100⟩, ⟨2, 0, 0, 0, 0, 1⟩⟩ (some pkt)
  let answer : ThreadCall shippedConfig :=
    .arp (lanAnswer ⟨2, 0, 0, 0, 0, 3⟩) ⟨0, by decide⟩ ⟨2, 0, 0, 0, 0, 3⟩
  obtain ⟨tr, t, hrun, -, hlast⟩ := exists_run_snoc
    (poolStep (threadExec shippedConfig) (threadStart shippedConfig))
    (idle (emptyQueue routerInit) : Pool Bool Router _)
    [.call false call, .turn false, .turn false, .call true answer, .turn true, .turn false]
    (.turn false)
    (fun _ t => (PoolStep.op t).any fun op => op.writtenTo = some ⟨2, 0, 0, 0, 0, 3⟩)
    (by decide +kernel)
  obtain ⟨op, hop, hmac⟩ := (Option.any_eq_true _ _).1 hlast
  obtain ⟨sent, rfl⟩ := ThreadOp.writtenTo_eq_some (of_decide_eq_true hmac)
  have hexecuted : executed (tr ++ [t]) =
      executed tr ++ .write sent ⟨2, 0, 0, 0, 0, 3⟩ :: [] := by
    simp [executed, hop]
  exact ⟨tr, t, sent, hrun, hop,
    frames_resolved shippedConfig routerInit hrun _ _ _ _ hexecuted⟩

end NaptRouter
