import NaptRouter.QueueFlow
import NaptRouter.Lib.Runs

/-!
# No queued packet is lost

Runs in which packets are sent, ARP packets are handled and the timer expires, in any order.
The log of a run leads from the empty queues to the queues of the state it ends in
(`queue_run`), so every packet handed to `timer_add_packet` is in a node, has been sent or has
been discarded, once. A packet that is still waiting has had no answer since it was queued
(`unanswered`), because a valid ARP packet empties the queue of its sender.
-/

namespace NaptRouter

open ByteMemory KeyedFifo Runs

variable {cfg : Config}

/-! ## Runs -/

inductive QueueInput (cfg : Config)
  /-- `send_ipv4`. -/
  | send (pkt : Mem)
  /-- `arp_handle`. -/
  | arp (pkt : ArpHdr) (intId : cfg.IntId) (src : MacAddr)
  /-- `timer_handler`. -/
  | timer
  /-- Time passes for the one-shot timer. -/
  | elapse (nsec : Nat)

/-- Only well-formed packets are sent, and only to destinations on Ethernet. -/
def queueStep (cfg : Config) (r : Router) : QueueInput cfg → Option Router
  | .send pkt =>
      if WellFormed pkt ∧
          cfg.interfaceGetType (cfg.getInterfaceForIp (ipDst pkt)) = .ether then
        some (sendIpv4 cfg r pkt)
      else none
  | .arp pkt intId src => some (arpHandle cfg r pkt intId src)
  | .timer => some (timerHandler cfg r)
  | .elapse nsec => some { r with timer := r.timer - nsec }

/-- A valid ARP packet from an address is handled. -/
def ArpFrom (nh : IpAddr) (i : QueueInput cfg) : Prop :=
  ∃ pkt intId src, i = .arp pkt intId src ∧ arpValid pkt = true ∧ pkt.senderIp = nh

/-- What a step has added to the log. -/
def emitted {ι : Type*} (t : Step Router ι) : List Event := t.post.log.drop t.pre.log.length

/-- **What one step does to the queues.** -/
theorem queueStep_moves {s s' : Router} {i : QueueInput cfg} (h : queueStep cfg s i = some s')
    (hq : WellQueued cfg s.deltaList) :
    ∃ es, Moves cfg s s' es ∧ WellQueued cfg s'.deltaList ∧
      (∀ q nh, .discarded q nh ∈ es → q ∈ waiting s.deltaList nh) ∧
      ∀ nh, ArpFrom nh i → waiting s'.deltaList nh = [] := by
  cases i with
  | send pkt =>
    by_cases hpkt : WellFormed pkt ∧
        cfg.interfaceGetType (cfg.getInterfaceForIp (ipDst pkt)) = .ether
    · rw [queueStep, if_pos hpkt, Option.some.injEq] at h
      subst h
      obtain ⟨es, hmoves, hq', hleave⟩ := sendIpv4_moves hq hpkt.1 hpkt.2
      refine ⟨es, hmoves, hq', fun q nh hmem => ?_, ?_⟩
      · cases hleave _ hmem
      · intro nh ⟨_, _, _, hi, _⟩
        cases hi
    · rw [queueStep, if_neg hpkt] at h
      cases h
  | arp pkt intId src =>
    rw [queueStep, Option.some.injEq] at h
    subst h
    obtain ⟨es, hmoves, hq', hempty, hdiscard⟩ := arpHandle_moves hq pkt intId src
    refine ⟨es, hmoves, hq', fun q nh hmem => ?_, ?_⟩
    · cases hdiscard _ hmem
    · intro nh ⟨_, _, _, hi, hvalid, hsender⟩
      cases hi
      rw [← hsender]
      exact hempty hvalid
  | timer =>
    rw [queueStep, Option.some.injEq] at h
    subst h
    obtain ⟨es, hmoves, hq', hput⟩ := timerHandler_moves hq
    refine ⟨es, hmoves, hq', fun q nh hmem => ?_, ?_⟩
    · have htaken : (nh, q) ∈ es.filterMap Event.leaves := List.mem_filterMap.2 ⟨_, hmem, rfl⟩
      -- The handler queues nothing, so what it drops was waiting before it.
      rcases hmoves.flow.mem_taken htaken with hold | hnew
      · exact hold
      · obtain ⟨e, he, hqueue⟩ := List.mem_filterMap.1 hnew
        rw [hput e he] at hqueue
        cases hqueue
    · intro nh ⟨_, _, _, hi, _⟩
      cases hi
  | elapse nsec =>
    rw [queueStep, Option.some.injEq] at h
    subst h
    refine ⟨[], .of_writes (List.append_nil _).symm (by simp) (fun _ => rfl) rfl, hq, by simp, ?_⟩
    intro nh ⟨_, _, _, hi, _⟩
    cases hi

/-! ## What holds after every run -/

/-- The router before the first packet is queued. -/
def emptyQueue (r : Router) : Router := { r with deltaList := [], copies := 0, log := [] }

variable {r s : Router} {tr : List (Step Router (QueueInput cfg))}

theorem queue_run (h : Run (queueStep cfg) (emptyQueue r) tr s) :
    Moves cfg (emptyQueue r) s s.log ∧ WellQueued cfg s.deltaList := by
  apply h.invariant (I := fun s => Moves cfg (emptyQueue r) s s.log ∧ WellQueued cfg s.deltaList)
  · exact ⟨.refl cfg _, List.nodup_nil, by simp [emptyQueue]⟩
  · intro s i s' ⟨hmoves, hq⟩ hstep
    obtain ⟨es, hmoves', hq', -⟩ := queueStep_moves hstep hq
    refine ⟨?_, hq'⟩
    rw [hmoves'.log]
    exact hmoves.trans hmoves'

theorem emitted_eq {t : Step Router (QueueInput cfg)} {es : List Event}
    (h : t.post.log = t.pre.log ++ es) : emitted t = es := by
  rw [emitted, h, List.drop_left]

/-- A packet that waits has been queued, and nothing valid has come from its next hop since. -/
theorem unanswered (h : Run (queueStep cfg) (emptyQueue r) tr s) :
    ∀ q nh, q ∈ waiting s.deltaList nh →
      Since (fun t => .queued q nh ∈ emitted t) (fun t => ArpFrom nh t.input) tr := by
  refine h.history (I := fun tr s => ∀ q nh, q ∈ waiting s.deltaList nh →
    Since (fun t => .queued q nh ∈ emitted t) (fun t => ArpFrom nh t.input) tr) ?_ ?_
  · intro q nh hmem
    cases hmem
  · intro tr s i s' hrun ih hstep q nh hmem
    obtain ⟨es, hmoves, -, -, hempty⟩ := queueStep_moves hstep (queue_run hrun).2
    rw [since_snoc, emitted_eq (t := ⟨s, i, s'⟩) hmoves.log]
    rcases hmoves.flow.mem_after hmem with hold | hnew
    · right
      refine ⟨fun harp => ?_, ih q nh hold⟩
      rw [hempty nh harp] at hmem
      cases hmem
    · left
      obtain ⟨e, he, hqueue⟩ := List.mem_filterMap.1 hnew
      cases e with
      | queued q' nh' =>
        cases hqueue
        exact he
      | write intId frame => cases hqueue
      | flushed q' nh' => cases hqueue
      | discarded q' nh' => cases hqueue

/-! ## Conservation -/

/-- How often a copy is in the delta list. -/
def timesWaiting (s : Router) (ptr : Nat) : Nat :=
  (s.deltaList.flatMap (·.pktList)).countP (·.ptr = ptr)

/-- How often a copy has been sent from the queue. -/
def timesFlushed (s : Router) (ptr : Nat) : Nat :=
  (s.log.filterMap Event.flushes).countP (·.2.ptr = ptr)

/-- How often a copy has been discarded. -/
def timesDiscarded (s : Router) (ptr : Nat) : Nat :=
  (s.log.filterMap Event.discards).countP (·.2.ptr = ptr)

theorem countP_leaves (p : IpAddr × QueuedPkt → Bool) (log : List Event) :
    (log.filterMap Event.leaves).countP p =
      (log.filterMap Event.flushes).countP p + (log.filterMap Event.discards).countP p := by
  induction log with
  | nil => rfl
  | cons e rest ih =>
    cases e with
    | write intId frame => exact ih
    | queued q nh => exact ih
    | flushed q nh =>
      simp only [List.filterMap_cons, Event.leaves, Event.flushes, Event.discards,
        List.countP_cons, ih]
      omega
    | discarded q nh =>
      simp only [List.filterMap_cons, Event.leaves, Event.flushes, Event.discards,
        List.countP_cons, ih]
      omega

/-- What the queues and the log of a state say about the packets handed to
`timer_add_packet`. -/
structure Conserved (cfg : Config) (s : Router) : Prop where
  /-- Every packet is waiting, sent or discarded, and this once. -/
  onePlace : ∀ q nh, .queued q nh ∈ s.log →
    timesWaiting s q.ptr + timesFlushed s q.ptr + timesDiscarded s q.ptr = 1
  /-- No two packets are confused. -/
  distinct : ((s.log.filterMap Event.queues).map (·.2.ptr)).Nodup
  /-- No two nodes have the same address. -/
  oneNode : (addrs s.deltaList).Nodup
  /-- A packet that waits is in the node of its next hop, where it was queued. -/
  ownNode : ∀ node ∈ s.deltaList, ∀ q ∈ node.pktList,
    nextHop cfg q.pkt = node.ipAddr ∧ .queued q node.ipAddr ∈ s.log
  /-- What has been flushed was written to its interface just before. -/
  sent : Sent cfg s.log
  /-- The packets of a next hop are sent in the order they were queued. -/
  fifo : ∀ nh, (entries Event.flushes nh s.log).Sublist (entries Event.queues nh s.log)

theorem mem_log_of_queues {log : List Event} {q : QueuedPkt} {nh : IpAddr}
    (h : (nh, q) ∈ log.filterMap Event.queues) : .queued q nh ∈ log := by
  obtain ⟨e, he, hqueue⟩ := List.mem_filterMap.1 h
  cases e with
  | queued q' nh' =>
    cases hqueue
    exact he
  | write intId frame => cases hqueue
  | flushed q' nh' => cases hqueue
  | discarded q' nh' => cases hqueue

theorem conserved_of_run (h : Run (queueStep cfg) (emptyQueue r) tr s) : Conserved cfg s := by
  obtain ⟨hmoves, hq⟩ := queue_run h
  have hflow : Flow Event.queues Event.leaves s.log (fun _ => []) (waiting s.deltaList) :=
    hmoves.flow
  have hnd : ((s.log.filterMap Event.queues).map (·.2.ptr)).Nodup := by
    rw [hmoves.ptrs]
    exact List.nodup_range'
  refine ⟨fun q nh hmem => ?_, hnd, hq.nodup, fun node hnode q hmem => ?_, hmoves.sent,
    fun nh => ?_⟩
  · have hput : (nh, q) ∈ s.log.filterMap Event.queues := List.mem_filterMap.2 ⟨_, hmem, rfl⟩
    have hwait : timesWaiting s q.ptr = (waiting s.deltaList nh).countP (·.ptr = q.ptr) := by
      apply countP_waiting
      intro node hnode q' hq' hptr
      have hmem' : q' ∈ waiting s.deltaList node.ipAddr := mem_waiting.2 ⟨node, hnode, rfl, hq'⟩
      exact (hflow.key_unique QueuedPkt.ptr hnd hput (Or.inr hmem')
        (by simpa using hptr)).1
    -- Copies have different pointers, so counting pointers counts the packet.
    have honce := hflow.once QueuedPkt.ptr hnd hput
    rw [countP_leaves] at honce
    rw [hwait, timesFlushed, timesDiscarded]
    omega
  · have hmem' : q ∈ waiting s.deltaList node.ipAddr := mem_waiting.2 ⟨node, hnode, rfl, hmem⟩
    refine ⟨(hq.routed _ q hmem').1, mem_log_of_queues ?_⟩
    rcases hflow.mem_after hmem' with hold | hnew
    · cases hold
    · exact hnew
  · refine (entries_sublist ?_ nh s.log).trans (hflow.takes_isPrefix nh).sublist
    intro e p he
    cases e with
    | flushed q nh => exact he
    | write intId frame => cases he
    | queued q nh => cases he
    | discarded q nh => cases he

/-- **The ARP queue conserves packets.** After every run, each packet handed to
`timer_add_packet` is in one place, once; the packets of a next hop are sent in order; and a
step discards a packet only if no valid ARP packet from its next hop was handled after it was
queued. -/
theorem arp_queue_conserved (cfg : Config) (r : Router)
    {tr : List (Step Router (QueueInput cfg))} {s : Router}
    (h : Run (queueStep cfg) (emptyQueue r) tr s) :
    Conserved cfg s ∧
      ∀ before t after, tr = before ++ t :: after → ∀ q nh, .discarded q nh ∈ emitted t →
        Since (fun u => .queued q nh ∈ emitted u) (fun u => ArpFrom nh u.input) before := by
  refine ⟨conserved_of_run h, fun before t after htr q nh hmem => ?_⟩
  subst htr
  obtain ⟨hrun, hstep, -⟩ := h.cut
  obtain ⟨es, hmoves, -, hdiscard, -⟩ := queueStep_moves hstep (queue_run hrun).2
  rw [emitted_eq hmoves.log] at hmem
  exact unanswered hrun q nh (hdiscard q nh hmem)

/-- Two packets for a host that answers, and one for a host that does not. -/
theorem arp_queue_conserved_three :
    ∃ tr t, Run (queueStep shippedConfig) (emptyQueue routerInit) (tr ++ [t]) t.post ∧
      Conserved shippedConfig t.post ∧
      (∀ q nh, .discarded q nh ∈ emitted t →
        Since (fun u => .queued q nh ∈ emitted u) (fun u => ArpFrom nh u.input) tr) ∧
      timesFlushed t.post 0 = 1 ∧ timesFlushed t.post 1 = 1 ∧ timesDiscarded t.post 2 = 1 := by
  let pkt (host : UInt8) (port : UInt16) : Mem :=
    udpDatagram (⟨8, 8, 8, 8⟩, ⟨53⟩) (⟨192, 168, 1, host⟩, ⟨port⟩)
  let answer : ArpHdr :=
    { hardwareType := ntohs 1, protocolType := ntohs 0x0800, hardwareLength := 6,
      protocolLength := 4, operation := ntohs 2, senderMac := ⟨2, 0, 0, 0, 0, 1⟩,
      senderIp := ⟨192, 168, 1, 100⟩, targetMac := ⟨2, 0, 0, 0, 0, 9⟩,
      targetIp := ⟨192, 168, 1, 1⟩ }
  obtain ⟨tr, t, hrun, -, hcounts⟩ := exists_run_snoc (queueStep shippedConfig)
    (emptyQueue routerInit)
    [.send (pkt 100 5000), .send (pkt 100 5001), .send (pkt 101 5000), .elapse 1000000000,
      .timer, .arp answer ⟨0, by decide⟩ ⟨2, 0, 0, 0, 0, 1⟩] .timer
    (fun _ t => decide (timesFlushed t.post 0 = 1 ∧ timesFlushed t.post 1 = 1 ∧
      timesDiscarded t.post 2 = 1)) (by decide +kernel)
  obtain ⟨hconserved, hdiscard⟩ := arp_queue_conserved shippedConfig routerInit hrun
  exact ⟨tr, t, hrun, hconserved, hdiscard tr t [] rfl, of_decide_eq_true hcounts⟩

end NaptRouter
