import NaptRouter.DeltaList
import NaptRouter.Lib.KeyedFifo

/-!
# What the queue functions move

Each function that touches the delta list is described by the events it adds to the log: they
lead from the queues before the call to the queues after it (`Moves`). Packets come by
`send_ipv4`, and go by the flush of `timer_update_packets` or by the expiry of `timer_handler`.

A queued packet is flushed to the next hop it was queued for, because its destination address
is not among the bytes that `send_ipv4` rewrites (`Routed`, `ipDst_queuedCopy`).
-/

namespace NaptRouter

open ByteMemory KeyedFifo

variable {cfg : Config} {r r' r'' : Router} {es es' : List Event}

/-! ## Events that move packets -/

def Event.queues : Event → Option (IpAddr × QueuedPkt)
  | .queued q nextHop => some (nextHop, q)
  | _ => none

def Event.flushes : Event → Option (IpAddr × QueuedPkt)
  | .flushed q nextHop => some (nextHop, q)
  | _ => none

def Event.discards : Event → Option (IpAddr × QueuedPkt)
  | .discarded q nextHop => some (nextHop, q)
  | _ => none

/-- A packet leaves its queue when it is sent and when it is given up. -/
def Event.leaves : Event → Option (IpAddr × QueuedPkt)
  | .flushed q nextHop | .discarded q nextHop => some (nextHop, q)
  | _ => none

/-- A frame is written, and no packet moves. -/
def Event.IsWrite (e : Event) : Prop := ∃ intId frame, e = .write intId frame

theorem Event.IsWrite.queues {e : Event} (h : e.IsWrite) : e.queues = none := by
  obtain ⟨intId, frame, rfl⟩ := h
  rfl

theorem Event.IsWrite.leaves {e : Event} (h : e.IsWrite) : e.leaves = none := by
  obtain ⟨intId, frame, rfl⟩ := h
  rfl

theorem sendArp_eq (cfg : Config) (r : Router) (pkt : ArpHdr) (intId : cfg.IntId) :
    ∃ ws : List Event, (∀ e ∈ ws, e.IsWrite) ∧
      sendArp cfg r pkt intId = { r with log := r.log ++ ws } := by
  unfold sendArp
  cases cfg.interfaceGetType intId with
  | ether => exact ⟨[_], fun e he => ⟨intId, _, List.mem_singleton.1 he⟩, rfl⟩
  | wifi => exact ⟨[], by simp, by simp⟩
  | unknown => exact ⟨[], by simp, by simp⟩

theorem flushes_of_leaves {e : Event} (h : e.leaves = none) : e.flushes = none := by
  cases e with
  | flushed q nh => cases h
  | write intId frame => rfl
  | queued q nh => rfl
  | discarded q nh => rfl

/-- The frame that `send_ipv4` writes for a packet. -/
def transmission (cfg : Config) (dstMac : MacAddr) (pkt : Mem) : Event :=
  let intId := cfg.getInterfaceForIp (ipDst pkt)
  .write intId (ipv4Frame dstMac (cfg.interfaceGetMacAddr intId) (fillChecksums pkt)
    (ntohs (totalLength (fillChecksums pkt))).toNat)

/-- Every packet flushed has been written just before. -/
def Sent (cfg : Config) (log : List Event) : Prop :=
  ∀ before q nh after, log = before ++ .flushed q nh :: after →
    ∃ earlier dstMac, before = earlier ++ [transmission cfg dstMac q.pkt]

theorem Sent.append {log : List Event} (h : Sent cfg log) (h' : Sent cfg es) :
    Sent cfg (log ++ es) := by
  intro before q nh after heq
  rcases List.append_eq_append_iff.1 heq with ⟨mid, rfl, hes⟩ | ⟨mid, rfl, hlog⟩
  · obtain ⟨earlier, dstMac, rfl⟩ := h' mid q nh after hes
    exact ⟨log ++ earlier, dstMac, by rw [List.append_assoc]⟩
  · cases mid with
    | nil =>
      obtain ⟨earlier, dstMac, hmid⟩ := h' [] q nh after (by simpa using hlog.symm)
      simp at hmid
    | cons e mid =>
      rw [List.cons_append, List.cons.injEq] at hlog
      obtain ⟨rfl, -⟩ := hlog
      exact h before q nh mid rfl

theorem sent_of_no_flush (h : ∀ e ∈ es, e.flushes = none) : Sent cfg es := by
  intro before q nh after heq
  have hmem : Event.flushed q nh ∈ es := by simp [heq]
  cases h _ hmem

/-- The events of a flush. -/
def flushEvents (cfg : Config) (dstMac : MacAddr) (nh : IpAddr) (pkts : List QueuedPkt) :
    List Event :=
  pkts.flatMap fun q => [transmission cfg dstMac q.pkt, .flushed q nh]

theorem of_mem_flushEvents {dstMac : MacAddr} {nh : IpAddr} {pkts : List QueuedPkt} {e : Event}
    (h : e ∈ flushEvents cfg dstMac nh pkts) : e.queues = none ∧ e.discards = none := by
  obtain ⟨q, -, hq⟩ := List.mem_flatMap.1 h
  rcases List.mem_cons.1 hq with rfl | hq
  · exact ⟨rfl, rfl⟩
  · rw [List.mem_singleton.1 hq]
    exact ⟨rfl, rfl⟩

theorem leaves_flushEvents (dstMac : MacAddr) (nh : IpAddr) (pkts : List QueuedPkt) :
    (flushEvents cfg dstMac nh pkts).filterMap Event.leaves = pkts.map fun q => (nh, q) := by
  rw [flushEvents, List.filterMap_flatMap]
  exact (List.map_eq_flatMap ..).symm

theorem sent_flushEvents (dstMac : MacAddr) (nh : IpAddr) (pkts : List QueuedPkt) :
    Sent cfg (flushEvents cfg dstMac nh pkts) := by
  induction pkts with
  | nil => exact sent_of_no_flush (by simp [flushEvents])
  | cons q rest ih =>
    refine Sent.append ?_ ih
    intro before q' nh' after heq
    cases before with
    | nil => simp [transmission] at heq
    | cons e before =>
      cases before with
      | nil =>
        simp only [List.cons_append, List.nil_append, List.cons.injEq] at heq
        obtain ⟨rfl, hflush, -⟩ := heq
        cases hflush
        exact ⟨[], dstMac, rfl⟩
      | cons e' before => simp at heq

/-- The events of giving up a node. -/
def discardEvents (nh : IpAddr) (pkts : List QueuedPkt) : List Event :=
  pkts.map fun q => .discarded q nh

theorem of_mem_discardEvents {nh : IpAddr} {pkts : List QueuedPkt} {e : Event}
    (h : e ∈ discardEvents nh pkts) : e.queues = none ∧ e.flushes = none := by
  obtain ⟨q, -, rfl⟩ := List.mem_map.1 h
  exact ⟨rfl, rfl⟩

theorem leaves_discardEvents (nh : IpAddr) (pkts : List QueuedPkt) :
    (discardEvents nh pkts).filterMap Event.leaves = pkts.map fun q => (nh, q) := by
  rw [discardEvents, List.filterMap_map]
  exact congrFun (List.filterMap_eq_map (f := fun q => (nh, q))) _

/-! ## The account of a function -/

/-- The events `es` account for what a function has done to the queues. -/
structure Moves (cfg : Config) (r r' : Router) (es : List Event) : Prop where
  log : r'.log = r.log ++ es
  flow : Flow Event.queues Event.leaves es (waiting r.deltaList) (waiting r'.deltaList)
  /-- The packets queued are the copies made. -/
  ptrs : (es.filterMap Event.queues).map (·.2.ptr) =
    List.range' r.copies (es.filterMap Event.queues).length
  copies : r'.copies = r.copies + (es.filterMap Event.queues).length
  sent : Sent cfg es

theorem Moves.trans (h : Moves cfg r r' es) (h' : Moves cfg r' r'' es') :
    Moves cfg r r'' (es ++ es') where
  log := by rw [h'.log, h.log, List.append_assoc]
  flow := h.flow.trans h'.flow
  ptrs := by
    rw [List.filterMap_append, List.map_append, h.ptrs, h'.ptrs, h.copies, List.length_append,
      List.range'_append_1]
  copies := by rw [h'.copies, h.copies, List.filterMap_append, List.length_append, Nat.add_assoc]
  sent := h.sent.append h'.sent

theorem Moves.of_no_put (hlog : r'.log = r.log ++ es) (hput : ∀ e ∈ es, e.queues = none)
    (hflow : Flow Event.queues Event.leaves es (waiting r.deltaList) (waiting r'.deltaList))
    (hcopies : r'.copies = r.copies) (hsent : Sent cfg es) : Moves cfg r r' es := by
  have hnil : es.filterMap Event.queues = [] := List.filterMap_eq_nil_iff.2 hput
  exact ⟨hlog, hflow, by simp [hnil], by simp [hnil, hcopies], hsent⟩

theorem Moves.of_writes (hlog : r'.log = r.log ++ es) (hes : ∀ e ∈ es, e.IsWrite)
    (hwait : ∀ nh, waiting r'.deltaList nh = waiting r.deltaList nh)
    (hcopies : r'.copies = r.copies) : Moves cfg r r' es := by
  have hput : ∀ e ∈ es, e.queues = none := fun e he => (hes e he).queues
  have hleave : ∀ e ∈ es, e.leaves = none := fun e he => (hes e he).leaves
  refine .of_no_put hlog hput (Flow.idle hput hleave hwait) hcopies (sent_of_no_flush ?_)
  intro e he
  obtain ⟨intId, frame, rfl⟩ := hes e he
  rfl

theorem Moves.refl (cfg : Config) (r : Router) : Moves cfg r r [] :=
  .of_writes (List.append_nil _).symm (by simp) (fun _ => rfl) rfl

theorem Moves.of_drain {dst : IpAddr} {pkts : List QueuedPkt} (hlog : r'.log = r.log ++ es)
    (hput : ∀ e ∈ es, e.queues = none)
    (hleave : es.filterMap Event.leaves = pkts.map fun q => (dst, q))
    (hself : waiting r.deltaList dst = pkts) (hgone : waiting r'.deltaList dst = [])
    (hother : ∀ nh, nh ≠ dst → waiting r'.deltaList nh = waiting r.deltaList nh)
    (hcopies : r'.copies = r.copies) (hsent : Sent cfg es) : Moves cfg r r' es := by
  refine .of_no_put hlog hput (.leave hput hleave ?_ hother) hcopies hsent
  rw [hself, hgone, List.append_nil]

/-! ## The packets of a queue -/

/-- The packet is sent to this next hop, on Ethernet. -/
def Routed (cfg : Config) (pkt : Mem) (nh : IpAddr) : Prop :=
  nextHop cfg pkt = nh ∧ cfg.interfaceGetType (cfg.getInterfaceForIp (ipDst pkt)) = .ether

/-- One node an address, and in it only packets for that next hop. -/
structure WellQueued (cfg : Config) (nodes : List DeltaNode) : Prop where
  nodup : (addrs nodes).Nodup
  routed : ∀ nh, ∀ q ∈ waiting nodes nh, Routed cfg q.pkt nh

theorem Moves.wellQueued (h : Moves cfg r r' es) (hq : WellQueued cfg r.deltaList)
    (hnd : (addrs r'.deltaList).Nodup)
    (hput : ∀ p ∈ es.filterMap Event.queues, Routed cfg p.2.pkt p.1) :
    WellQueued cfg r'.deltaList := by
  refine ⟨hnd, fun nh q hmem => ?_⟩
  rcases h.flow.mem_after hmem with hold | hnew
  · exact hq.routed nh q hold
  · exact hput (nh, q) hnew

theorem Moves.wellQueued_of_no_put (h : Moves cfg r r' es) (hq : WellQueued cfg r.deltaList)
    (hnd : (addrs r'.deltaList).Nodup) (hput : ∀ e ∈ es, e.queues = none) :
    WellQueued cfg r'.deltaList := by
  apply h.wellQueued hq hnd
  intro p hp
  obtain ⟨e, he, hqueue⟩ := List.mem_filterMap.1 hp
  rw [hput e he] at hqueue
  cases hqueue

/-! ## Sending -/

/-- The bytes of transport header that the protocol has. -/
def transportLen (pkt : Mem) : Nat :=
  if protocol pkt = 0x11 then 8 else if protocol pkt = 0x06 then 20 else 0

/-- The header has its fixed part, and the length covers the IP and the transport header. -/
def WellFormed (pkt : Mem) : Prop :=
  20 ≤ headerLen pkt ∧ headerLen pkt + transportLen pkt ≤ (ntohs (totalLength pkt)).toNat

instance (pkt : Mem) : Decidable (WellFormed pkt) :=
  inferInstanceAs (Decidable (_ ∧ _))

/-- The copy of a packet has the packet's destination. -/
theorem ipDst_queuedCopy (r : Router) {pkt : Mem} (h : WellFormed pkt) :
    ipDst (queuedCopy r pkt).pkt = ipDst pkt := by
  have hheader : 20 ≤ headerLen pkt := h.1
  have hlen : 20 ≤ (ntohs (totalLength pkt)).toNat := by
    have := h.2
    omega
  have htotal : totalLength (fillChecksums pkt) = totalLength pkt := by
    apply load16_congr
    apply Mem.read_congr
    intro i hi
    exact fillChecksums_apply (by omega) (by omega) (by omega)
  apply IpAddr.read_congr
  apply Mem.read_congr
  intro i hi
  rw [queuedCopy, htotal]
  refine (Mem.write_read_apply _ _ (by omega)).trans ?_
  exact fillChecksums_apply (by omega) (by omega) (by omega)

theorem timerAddPacket_log (cfg : Config) (r : Router) (q : QueuedPkt) (intId : cfg.IntId)
    (dst : IpAddr) :
    (timerAddPacket cfg r q intId dst).copies = r.copies ∧
      ∃ ws : List Event, (∀ e ∈ ws, e.IsWrite) ∧
        (timerAddPacket cfg r q intId dst).log = r.log ++ (ws ++ [.queued q dst]) := by
  unfold timerAddPacket
  cases appendToNode q dst r.deltaList with
  | some nodes => exact ⟨rfl, [], by simp, rfl⟩
  | none =>
    obtain ⟨ws, hws, harp⟩ := sendArp_eq cfg r (arpRequest cfg intId dst) intId
    refine ⟨?_, ws, hws, ?_⟩
    · simp only [harp]
      cases r.deltaList <;> rfl
    · simp only [harp]
      cases r.deltaList <;> simp [Router.timerSettime]

theorem timerAddPacket_moves (hq : WellQueued cfg r.deltaList) {q : QueuedPkt} {dst : IpAddr}
    (hptr : q.ptr = r.copies) (hroute : Routed cfg q.pkt dst) (intId : cfg.IntId)
    (hr' : r' = timerAddPacket cfg { r with copies := r.copies + 1 } q intId dst) :
    ∃ es, Moves cfg r r' es ∧ WellQueued cfg r'.deltaList ∧ ∀ e ∈ es, e.leaves = none := by
  subst hr'
  obtain ⟨hcopies, ws, hws, hlog⟩ :=
    timerAddPacket_log cfg { r with copies := r.copies + 1 } q intId dst
  obtain ⟨hself, hother⟩ :=
    timerAddPacket_waiting cfg (r := { r with copies := r.copies + 1 }) hq.nodup q intId dst
  have hputs : (ws ++ [Event.queued q dst]).filterMap Event.queues = [(dst, q)] := by
    have hnil : ws.filterMap Event.queues = [] :=
      List.filterMap_eq_nil_iff.2 fun e he => (hws e he).queues
    rw [List.filterMap_append, hnil]
    rfl
  have hleaves : ∀ e ∈ ws ++ [Event.queued q dst], e.leaves = none := by
    intro e he
    rcases List.mem_append.1 he with he | he
    · exact (hws e he).leaves
    · rw [List.mem_singleton.1 he]
      rfl
  have hmoves : Moves cfg r (timerAddPacket cfg { r with copies := r.copies + 1 } q intId dst)
      (ws ++ [Event.queued q dst]) := by
    have hflow : Flow Event.queues Event.leaves (ws ++ [Event.queued q dst])
        (waiting r.deltaList) _ :=
      .enter (show _ = [q].map fun q => (dst, q) from hputs) hleaves hself hother
    refine ⟨hlog, hflow, ?_, ?_, ?_⟩
    · rw [hputs]
      simp [hptr]
    · rw [hputs, hcopies]
      rfl
    · apply sent_of_no_flush
      intro e he
      exact flushes_of_leaves (hleaves e he)
  refine ⟨_, hmoves, hmoves.wellQueued hq ?_ ?_, hleaves⟩
  · exact timerAddPacket_nodup cfg (r := { r with copies := r.copies + 1 }) hq.nodup q intId dst
  · rw [hputs]
    intro p hp
    rw [List.mem_singleton.1 hp]
    exact hroute

/-- A well-formed packet on Ethernet is queued for its next hop or written. -/
theorem sendIpv4_moves (hq : WellQueued cfg r.deltaList) {pkt : Mem} (hpkt : WellFormed pkt)
    (hether : cfg.interfaceGetType (cfg.getInterfaceForIp (ipDst pkt)) = .ether) :
    ∃ es, Moves cfg r (sendIpv4 cfg r pkt) es ∧
      WellQueued cfg (sendIpv4 cfg r pkt).deltaList ∧ ∀ e ∈ es, e.leaves = none := by
  cases hres : hasMacForIp r.ipMacMap (nextHop cfg pkt) with
  | true =>
    rw [sendIpv4_resolved hres, if_pos hether]
    refine ⟨[_], .of_writes rfl ?_ (fun _ => rfl) rfl, hq, ?_⟩
    · intro e he
      exact ⟨_, _, List.mem_singleton.1 he⟩
    · intro e he
      rw [List.mem_singleton.1 he]
      rfl
  | false =>
    have hroute : Routed cfg (queuedCopy r pkt).pkt (nextHop cfg pkt) := by
      refine ⟨?_, ?_⟩
      · rw [nextHop, ipDst_queuedCopy r hpkt, nextHop]
      · rwa [ipDst_queuedCopy r hpkt]
    exact timerAddPacket_moves hq rfl hroute _ (sendIpv4_unresolved hres)

/-! ## Flushing -/

theorem flushPkts_eq {dst : IpAddr} {pkts : List QueuedPkt}
    (hroute : ∀ q ∈ pkts, Routed cfg q.pkt dst) (hres : hasMacForIp r.ipMacMap dst = true) :
    flushPkts cfg dst pkts r =
      { r with log := r.log ++ flushEvents cfg (getMacFromIp r.ipMacMap dst) dst pkts } := by
  induction pkts generalizing r with
  | nil => simp [flushPkts, flushEvents]
  | cons q rest ih =>
    obtain ⟨hnext, hether⟩ := hroute q List.mem_cons_self
    have hsend : sendIpv4 cfg r q.pkt = _ := sendIpv4_resolved (hnext ▸ hres)
    rw [hnext, if_pos hether] at hsend
    rw [flushPkts, hsend]
    have hrest : ∀ q' ∈ rest, Routed cfg q'.pkt dst :=
      fun q' hq' => hroute q' (List.mem_cons_of_mem q hq')
    refine (ih (r := (r.emit _).emit _) hrest hres).trans ?_
    simp [flushEvents, transmission, Router.emit]

/-- **Flushing empties the queue** of a resolved address, and no other. -/
theorem timerUpdatePackets_moves (hq : WellQueued cfg r.deltaList) {dst : IpAddr}
    (hres : hasMacForIp r.ipMacMap dst = true) :
    ∃ es, Moves cfg r (timerUpdatePackets cfg r dst) es ∧
      WellQueued cfg (timerUpdatePackets cfg r dst).deltaList ∧
      waiting (timerUpdatePackets cfg r dst).deltaList dst = [] ∧
      ∀ e ∈ es, e.discards = none := by
  have hspec := unlinkNode_spec dst r.deltaList
  rcases timerUpdatePackets_cases cfg r dst with ⟨hnone, heq⟩ | ⟨node, rest, timer, hsome, heq⟩
  · rw [hnone] at hspec
    rw [heq]
    exact ⟨[], .refl cfg r, hq, waiting_eq_nil hspec, by simp⟩
  · rw [hsome] at hspec
    obtain ⟨hmem, rfl, haddrs, hother⟩ := hspec
    have hpkts : waiting r.deltaList node.ipAddr = node.pktList := waiting_of_mem hq.nodup hmem
    have hgone : waiting rest node.ipAddr = [] := by
      apply waiting_eq_nil
      rw [haddrs]
      exact hq.nodup.not_mem_erase
    have hroute : ∀ q ∈ node.pktList, Routed cfg q.pkt node.ipAddr := by
      intro q hmem
      exact hq.routed _ q (hpkts ▸ hmem)
    rw [heq, flushPkts_eq (r := { r with timer, deltaList := rest }) hroute hres]
    generalize getMacFromIp r.ipMacMap node.ipAddr = dstMac
    have hmoves : Moves cfg r { r with
        timer, deltaList := rest
        log := r.log ++ flushEvents cfg dstMac node.ipAddr node.pktList } _ :=
      .of_drain rfl (fun e he => (of_mem_flushEvents he).1) (leaves_flushEvents ..) hpkts hgone
        hother rfl (sent_flushEvents dstMac node.ipAddr node.pktList)
    refine ⟨_, hmoves, hmoves.wellQueued_of_no_put hq ?_ fun e he => (of_mem_flushEvents he).1,
      hgone, fun e he => (of_mem_flushEvents he).2⟩
    rw [haddrs]
    exact hq.nodup.erase _

/-- A valid ARP packet resolves its sender and empties the sender's queue. -/
theorem arpHandle_moves (hq : WellQueued cfg r.deltaList) (pkt : ArpHdr) (intId : cfg.IntId)
    (src : MacAddr) :
    ∃ es, Moves cfg r (arpHandle cfg r pkt intId src) es ∧
      WellQueued cfg (arpHandle cfg r pkt intId src).deltaList ∧
      (arpValid pkt = true →
        waiting (arpHandle cfg r pkt intId src).deltaList pkt.senderIp = []) ∧
      ∀ e ∈ es, e.discards = none := by
  rw [arpHandle]
  cases arpValid pkt with
  | false => exact ⟨[], .refl cfg r, hq, fun hvalid => Bool.noConfusion hvalid, by simp⟩
  | true =>
    have hmap : Moves cfg r (learn r ⟨pkt.senderIp, pkt.senderMac⟩) [] :=
      .of_writes (List.append_nil _).symm (by simp) (fun _ => rfl) rfl
    obtain ⟨es, hmoves, hq', hempty, hdiscard⟩ := timerUpdatePackets_moves
      (r := learn r ⟨pkt.senderIp, pkt.senderMac⟩) hq (hasMacForIp_learn_self r _)
    exact ⟨es, hmap.trans hmoves, hq', fun _ => hempty, hdiscard⟩

/-! ## Expiry -/

theorem discardPkts_eq (nh : IpAddr) (pkts : List QueuedPkt) (r : Router) :
    discardPkts nh pkts r = { r with log := r.log ++ discardEvents nh pkts } := by
  induction pkts generalizing r with
  | nil => simp [discardPkts, discardEvents]
  | cons q rest ih => simp [discardPkts, discardEvents, ih, Router.emit]

/-- A node that is due gives up its packets, or goes to the end of the list with them. -/
theorem expireNode_moves {node : DeltaNode} {rest : List DeltaNode}
    (hlist : r.deltaList = node :: rest) (hq : WellQueued cfg r.deltaList)
    (hr' : r' = expireNode cfg { r with deltaList := rest } node) :
    ∃ es, Moves cfg r r' es ∧ WellQueued cfg r'.deltaList ∧ ∀ e ∈ es, e.queues = none := by
  subst hr'
  have hnd : (addrs r.deltaList).Nodup := hq.nodup
  rw [hlist] at hnd
  by_cases hretry : node.retryAmt ≥ 1
  · rw [expireNode, if_pos hretry, discardPkts_eq]
    have hself : waiting r.deltaList node.ipAddr = node.pktList :=
      waiting_of_mem hq.nodup (hlist ▸ List.mem_cons_self)
    have hgone : waiting rest node.ipAddr = [] := waiting_eq_nil (List.nodup_cons.1 hnd).1
    have hother : ∀ nh, nh ≠ node.ipAddr → waiting rest nh = waiting r.deltaList nh := by
      intro nh hne
      rw [hlist, waiting_cons, if_neg hne.symm, List.nil_append]
    have hmoves : Moves cfg r { r with
        deltaList := rest
        log := r.log ++ discardEvents node.ipAddr node.pktList } _ :=
      .of_drain rfl (fun e he => (of_mem_discardEvents he).1) (leaves_discardEvents ..) hself
        hgone hother rfl (sent_of_no_flush fun e he => (of_mem_discardEvents he).2)
    exact ⟨_, hmoves, hmoves.wellQueued_of_no_put hq (List.nodup_cons.1 hnd).2
      fun e he => (of_mem_discardEvents he).1, fun e he => (of_mem_discardEvents he).1⟩
  · rw [expireNode, if_neg hretry]
    -- The node is put at the end; a request goes out, and no packet moves.
    obtain ⟨ws, hws, harp⟩ := sendArp_eq cfg { r with deltaList := rest }
      (arpRequest cfg (cfg.getInterfaceForIp node.ipAddr) node.ipAddr)
      (cfg.getInterfaceForIp node.ipAddr)
    simp only [harp]
    have hput : ∀ e ∈ ws, e.queues = none := fun e he => (hws e he).queues
    have hmoves : Moves cfg r { r with
        deltaList := rest ++ [{ node with retryAmt := node.retryAmt + 1, msec := nextDelta rest }]
        log := r.log ++ ws } ws := by
      refine .of_writes rfl hws (fun nh => ?_) rfl
      rw [hlist]
      apply waiting_rotate hnd
      · rfl
      · rfl
    exact ⟨ws, hmoves, hmoves.wellQueued_of_no_put hq (addrs_rotate_nodup hnd rfl) hput, hput⟩

theorem expireLoop_moves (hq : WellQueued cfg r.deltaList) (fuel : Nat) :
    ∃ es, Moves cfg r (expireLoop cfg fuel r) es ∧
      WellQueued cfg (expireLoop cfg fuel r).deltaList ∧ ∀ e ∈ es, e.queues = none := by
  refine expireLoop_keeps (P := fun s => ∃ es, Moves cfg r s es ∧ WellQueued cfg s.deltaList ∧
    ∀ e ∈ es, e.queues = none) (fun s node rest hlist hs => ?_) fuel
      ⟨[], .refl cfg r, hq, by simp⟩
  obtain ⟨es, hmoves, hq₁, hput⟩ := hs
  obtain ⟨es', hmoves', hq', hput'⟩ := expireNode_moves hlist hq₁ rfl
  refine ⟨es ++ es', hmoves.trans hmoves', hq', fun e he => ?_⟩
  rcases List.mem_append.1 he with he | he
  · exact hput e he
  · exact hput' e he

/-- **Expiry queues nothing**: packets stay or are given up. -/
theorem timerHandler_moves (hq : WellQueued cfg r.deltaList) :
    ∃ es, Moves cfg r (timerHandler cfg r) es ∧
      WellQueued cfg (timerHandler cfg r).deltaList ∧ ∀ e ∈ es, e.queues = none := by
  rcases timerHandler_cases cfg r with heq | ⟨node, rest, fuel, timer, hlist, heq⟩
  · rw [heq]
    exact ⟨[], .refl cfg r, hq, by simp⟩
  · rw [heq]
    have hwait : ∀ nh, waiting ({ node with msec := 0 } :: rest) nh = waiting r.deltaList nh := by
      intro nh
      rw [hlist]
      apply waiting_congr_head
      · rfl
      · rfl
    have hhead : Moves cfg r { r with deltaList := { node with msec := 0 } :: rest } [] :=
      .of_writes (by simp) (by simp) hwait rfl
    have hq₁ := hhead.wellQueued_of_no_put hq (by simpa [hlist] using hq.nodup) (by simp)
    obtain ⟨es, hmoves, hq', hput⟩ := expireLoop_moves hq₁ fuel
    have hall := hhead.trans hmoves
    exact ⟨es, ⟨hall.log, hall.flow, hall.ptrs, hall.copies, hall.sent⟩, hq', hput⟩

end NaptRouter
