import NaptRouter.Resolution
import NaptRouter.NodeLife
import NaptRouter.Egress
import NaptRouter.ArpQueue

/-!
# How much the router sends

Each frame that is written is paid for by an IPv4 frame that was received. A packet costs three
frames at most: the ARP request for its next hop, the one retry, and the packet itself
(`traffic_bound`). ARP frames and the timer cause no others, except that a copy may be queued once
more when it is flushed, and that does not happen to well-formed packets (`traffic_bound_ipv4`).
-/

namespace NaptRouter

open ByteMemory KeyedFifo Runs

variable {cfg : Config} {r r' : Router}

/-! ## What is written, and what is still to be written -/

def Event.isWrite : Event → Bool
  | .write .. => true
  | .queued .. | .flushed .. | .discarded .. => false

/-- How many frames have been written. -/
def framesWritten (log : List Event) : Nat := log.countP Event.isWrite

/-- What the nodes may still cost: the retry, and the packets. -/
def owed (nodes : List DeltaNode) : Nat :=
  (nodes.map fun node => 1 - node.retryAmt + node.pktList.length).sum

/-- What has been written and what may still be. -/
def account (r : Router) : Nat := framesWritten r.log + owed r.deltaList

@[simp] theorem owed_cons (node : DeltaNode) (rest : List DeltaNode) :
    owed (node :: rest) = 1 - node.retryAmt + node.pktList.length + owed rest := rfl

@[simp] theorem owed_append (nodes nodes' : List DeltaNode) :
    owed (nodes ++ nodes') = owed nodes + owed nodes' := by
  simp [owed]

@[simp] theorem framesWritten_append (log log' : List Event) :
    framesWritten (log ++ log') = framesWritten log + framesWritten log' :=
  List.countP_append

theorem owed_appendToNode {q : QueuedPkt} {dst : IpAddr} {nodes nodes' : List DeltaNode}
    (h : appendToNode q dst nodes = some nodes') : owed nodes' = owed nodes + 1 := by
  induction nodes generalizing nodes' with
  | nil => cases h
  | cons node rest ih =>
    rw [appendToNode] at h
    split_ifs at h
    · rw [← Option.some.inj h, owed_cons, owed_cons, List.length_append, List.length_singleton]
      exact Nat.add_right_comm _ 1 _
    · obtain ⟨rest', hrest, rfl⟩ := Option.map_eq_some_iff.1 h
      rw [owed_cons, owed_cons, ih hrest]
      rfl

theorem owed_passDelta (msec : Nat) (nodes : List DeltaNode) :
    owed (passDelta msec nodes) = owed nodes := by
  cases nodes with
  | nil => rfl
  | cons next rest => rfl

theorem owed_unlinkNode {dst : IpAddr} {nodes rest : List DeltaNode} {node : DeltaNode}
    (h : unlinkNode dst nodes = some (node, rest)) :
    owed rest + node.pktList.length ≤ owed nodes := by
  induction nodes generalizing rest with
  | nil => cases h
  | cons head tail ih =>
    rcases unlinkNode_cases h with ⟨-, rfl, rfl⟩ | ⟨-, rest', hrest, rfl⟩
    · rw [owed_passDelta, owed_cons]
      omega
    · have hle := ih hrest
      rw [owed_cons, owed_cons]
      omega

/-! ## Sending -/

theorem framesWritten_arpEvents (cfg : Config) (pkt : ArpHdr) (intId : cfg.IntId) :
    framesWritten (arpEvents cfg pkt intId) ≤ 1 := by
  rw [arpEvents]
  cases cfg.interfaceGetType intId with
  | ether => exact le_rfl
  | wifi => exact Nat.zero_le 1
  | unknown => exact Nat.zero_le 1

/-- Queueing a packet may open a node: a request now, a retry and the packet later. -/
theorem account_timerAddPacket (cfg : Config) (r : Router) (q : QueuedPkt) (intId : cfg.IntId)
    (dst : IpAddr) : account (timerAddPacket cfg r q intId dst) ≤ account r + 3 := by
  have hspec := appendToNode_spec q dst r.deltaList
  have harp := framesWritten_arpEvents cfg (arpRequest cfg intId dst) intId
  have hqueued : framesWritten [.queued q dst] = 0 := rfl
  rw [account, timerAddPacket_asks, timerAddPacket_deltaList, account, addEvents,
    framesWritten_append, framesWritten_append, hqueued]
  cases happend : appendToNode q dst r.deltaList with
  | some nodes =>
    rw [happend] at hspec
    rw [if_pos hspec.1, List.flatMap_nil, Option.getD_some, owed_appendToNode happend]
    show framesWritten r.log + 0 + 0 + _ ≤ _
    omega
  | none =>
    rw [happend] at hspec
    have hnew (msec : Nat) : owed [⟨msec, dst, [q], 0⟩] = 2 := rfl
    rw [if_neg hspec, List.flatMap_singleton, Option.getD_none, owed_append, hnew]
    omega

/-- Sending writes one frame, or makes a copy that costs three at most. -/
theorem account_sendIpv4 (cfg : Config) (r : Router) (pkt : Mem) :
    account (sendIpv4 cfg r pkt) + 2 * r.copies ≤
        account r + 1 + 2 * (sendIpv4 cfg r pkt).copies ∧
      r.copies ≤ (sendIpv4 cfg r pkt).copies ∧ (sendIpv4 cfg r pkt).copies ≤ r.copies + 1 := by
  cases hres : hasMacForIp r.ipMacMap (nextHop cfg pkt) with
  | true =>
    rw [sendIpv4_resolved hres]
    split_ifs
    · refine ⟨?_, le_rfl, Nat.le_succ _⟩
      rw [account, Router.emit_log, framesWritten_append, account]
      show framesWritten r.log + 1 + owed r.deltaList + 2 * r.copies ≤ _
      rw [Router.emit_copies]
      omega
    · exact ⟨by omega, le_rfl, Nat.le_succ _⟩
  | false =>
    have hadd := account_timerAddPacket cfg { r with copies := r.copies + 1 } (queuedCopy r pkt)
      (cfg.getInterfaceForIp (ipDst pkt)) (nextHop cfg pkt)
    have hcopies := (timerAddPacket_log cfg { r with copies := r.copies + 1 } (queuedCopy r pkt)
      (cfg.getInterfaceForIp (ipDst pkt)) (nextHop cfg pkt)).1
    have hsame : account { r with copies := r.copies + 1 } = account r := rfl
    rw [sendIpv4_unresolved hres, hcopies]
    show _ + 2 * r.copies ≤ _ + 2 * (r.copies + 1) ∧ r.copies ≤ r.copies + 1 ∧ _
    exact ⟨by omega, Nat.le_succ _, le_rfl⟩

theorem account_sendIpv4_le (cfg : Config) (r : Router) (pkt : Mem) :
    account (sendIpv4 cfg r pkt) ≤ account r + 3 := by
  obtain ⟨hsend, -, hcopies⟩ := account_sendIpv4 cfg r pkt
  omega

/-- Flushing pays for every packet what its node was owed, unless it makes a copy. -/
theorem account_flushPkts (cfg : Config) (nh : IpAddr) (pkts : List QueuedPkt) (r : Router) :
    account (flushPkts cfg nh pkts r) + 2 * r.copies ≤
        account r + pkts.length + 2 * (flushPkts cfg nh pkts r).copies ∧
      r.copies ≤ (flushPkts cfg nh pkts r).copies := by
  induction pkts generalizing r with
  | nil => exact ⟨le_rfl, le_rfl⟩
  | cons q rest ih =>
    obtain ⟨hsend, hcopies, -⟩ := account_sendIpv4 cfg r q.pkt
    obtain ⟨hrest, hcopies'⟩ := ih ((sendIpv4 cfg r q.pkt).emit (.flushed q nh))
    have hemit : account ((sendIpv4 cfg r q.pkt).emit (.flushed q nh)) =
        account (sendIpv4 cfg r q.pkt) := by
      rw [account, Router.emit_log, framesWritten_append]
      rfl
    rw [hemit, Router.emit_copies] at hrest
    rw [Router.emit_copies] at hcopies'
    rw [flushPkts, List.length_cons]
    exact ⟨by omega, by omega⟩

theorem account_timerUpdatePackets (cfg : Config) (r : Router) (dst : IpAddr) :
    account (timerUpdatePackets cfg r dst) ≤
      account r + 2 * ((timerUpdatePackets cfg r dst).copies - r.copies) := by
  rcases timerUpdatePackets_cases cfg r dst with ⟨-, heq⟩ | ⟨node, rest, timer, hunlink, heq⟩
  · rw [heq]
    exact Nat.le_add_right _ _
  · have howed := owed_unlinkNode hunlink
    have hflush := account_flushPkts cfg dst node.pktList { r with timer, deltaList := rest }
    have hsame : account { r with timer, deltaList := rest } =
        framesWritten r.log + owed rest := rfl
    have hcopies : ({ r with timer, deltaList := rest } : Router).copies = r.copies := rfl
    rw [hsame, hcopies] at hflush
    rw [heq, account.eq_def r]
    omega

/-! ## Expiry -/

theorem framesWritten_discardEvents (nh : IpAddr) (pkts : List QueuedPkt) :
    framesWritten (discardEvents nh pkts) = 0 := by
  refine List.countP_eq_zero.2 fun e he => ?_
  obtain ⟨q, -, rfl⟩ := List.mem_map.1 he
  exact Bool.false_ne_true

theorem account_expireNode (cfg : Config) (r : Router) (node : DeltaNode)
    (rest : List DeltaNode) : account (expireNode cfg { r with deltaList := rest } node) ≤
      framesWritten r.log + owed (node :: rest) := by
  rw [account, expireNode_log, expireNode_deltaList, expiryLog, framesWritten_append, owed_cons]
  split_ifs with hretry
  · rw [framesWritten_discardEvents]
    show framesWritten r.log + 0 + owed rest ≤ _
    omega
  · have harp := framesWritten_arpEvents cfg
      (arpRequest cfg (cfg.getInterfaceForIp node.ipAddr) node.ipAddr)
      (cfg.getInterfaceForIp node.ipAddr)
    rw [owed_append, owed_cons]
    show framesWritten r.log + _ + (owed rest + (1 - (node.retryAmt + 1) + node.pktList.length + 0))
      ≤ _
    omega

theorem account_expireLoop (cfg : Config) (fuel : Nat) (r : Router) :
    account (expireLoop cfg fuel r) ≤ account r :=
  expireLoop_keeps (P := fun s => account s ≤ account r) (fun s node rest hlist hs => by
    rw [account.eq_def s, hlist] at hs
    exact (account_expireNode cfg s node rest).trans hs) fuel le_rfl

/-- **Expiry** writes what was owed. -/
theorem account_timerHandler (cfg : Config) (r : Router) :
    account (timerHandler cfg r) ≤ account r ∧ (timerHandler cfg r).copies = r.copies := by
  obtain ⟨deltaList, timer, log, hframe⟩ := timerHandler_frame cfg r
  refine ⟨?_, by rw [hframe]⟩
  rcases timerHandler_cases cfg r with heq | ⟨node, rest, fuel, timer, hlist, heq⟩
  · rw [heq]
  · have hloop := account_expireLoop cfg fuel
      { r with deltaList := { node with msec := 0 } :: rest }
    have hhead : account { r with deltaList := { node with msec := 0 } :: rest } = account r := by
      rw [account.eq_def r, hlist]
      rfl
    rw [heq]
    exact hloop.trans hhead.le

/-! ## Frames -/

/-- An IPv4 frame is received. -/
def ReceivesIpv4 : WireInput cfg → Prop
  | .frame f => ntohs (ethertype f.bytes) = ethertypeIpv4
  | .timer | .elapse _ => False

instance (i : WireInput cfg) : Decidable (ReceivesIpv4 i) :=
  match i with
  | .frame _ => inferInstanceAs (Decidable (_ = _))
  | .timer => isFalse id
  | .elapse _ => isFalse id

/-- An IPv4 frame pays for three frames. In other steps each copy that is made costs two more. -/
def allowance (t : Step Router (WireInput cfg)) : Nat :=
  if ReceivesIpv4 t.input then 3 else 2 * (t.post.copies - t.pre.copies)

theorem account_ethernetHandle {f : Frame cfg} (h : ethernetHandle cfg r f = some r') :
    account r' ≤ account r + allowance ⟨r, .frame f, r'⟩ := by
  rw [ethernetHandle] at h
  by_cases hipv4 : ntohs (ethertype f.bytes) = ethertypeIpv4
  · have hpays : allowance ⟨r, .frame f, r'⟩ = 3 := if_pos hipv4
    rw [if_pos hipv4] at h
    rw [hpays]
    obtain ⟨napt, rfl | ⟨pkt, rfl⟩⟩ :=
      ipv4Handle_cases (r := learn r ⟨ipSrc (payload f.bytes), macSrc f.bytes⟩) h
    · exact Nat.le_add_right _ _
    · exact account_sendIpv4_le cfg { learn r _ with napt } pkt
  · have hpays : allowance ⟨r, .frame f, r'⟩ = 2 * (r'.copies - r.copies) := if_neg hipv4
    rw [if_neg hipv4] at h
    rw [hpays]
    split_ifs at h
    · rw [← Option.some.inj h, arpHandle]
      split_ifs
      · exact Nat.le_add_right _ _
      · exact account_timerUpdatePackets cfg (learn r _) _
    · rw [← Option.some.inj h]
      exact Nat.le_add_right _ _

/-- **One step** raises the account by its allowance at most. -/
theorem account_wireStep {i : WireInput cfg} (hstep : wireStep cfg r i = some r') :
    account r' ≤ account r + allowance ⟨r, i, r'⟩ := by
  cases i with
  | frame f => exact account_ethernetHandle hstep
  | timer =>
    rw [← Option.some.inj hstep]
    exact (account_timerHandler cfg r).1.trans (Nat.le_add_right _ _)
  | elapse nsec =>
    rw [← Option.some.inj hstep]
    exact Nat.le_add_right _ _

/-- How many IPv4 frames have been received. -/
def ipv4Frames (tr : List (Step Router (WireInput cfg))) : Nat :=
  tr.countP fun t => decide (ReceivesIpv4 t.input)

/-- How many copies of packets have been made that were flushed. -/
def requeued (tr : List (Step Router (WireInput cfg))) : Nat :=
  (tr.map fun t => if ReceivesIpv4 t.input then 0 else t.post.copies - t.pre.copies).sum

theorem sum_allowance (tr : List (Step Router (WireInput cfg))) :
    (tr.map allowance).sum = 3 * ipv4Frames tr + 2 * requeued tr := by
  induction tr with
  | nil => rfl
  | cons t tr ih =>
    rw [List.map_cons, List.sum_cons, ih, ipv4Frames, ipv4Frames, requeued, requeued,
      List.map_cons, List.sum_cons, List.countP_cons, allowance]
    by_cases hipv4 : ReceivesIpv4 t.input
    · simp only [if_pos hipv4, decide_eq_true hipv4, if_true]
      omega
    · simp only [if_neg hipv4, decide_eq_false hipv4, Bool.false_eq_true, if_false]
      omega

/-- A run begins with nothing written and nothing owed. -/
theorem account_le_allowances {tr : List (Step Router (WireInput cfg))} {s : Router}
    (h : Run (wireStep cfg) (emptyQueue r) tr s) : account s ≤ (tr.map allowance).sum := by
  have hcharge : account s ≤ account (emptyQueue r) + (tr.map allowance).sum :=
    h.charge fun s i s' hstep => account_wireStep hstep
  exact hcharge.trans (Nat.zero_add _).le

/-- **What the router sends is paid for.** In every run, the frames that it has written and may
still have to write for the nodes that it has are at most three for each IPv4 frame that it has
received, and two for each packet that it has queued again. -/
theorem traffic_bound {tr : List (Step Router (WireInput cfg))} {s : Router}
    (h : Run (wireStep cfg) (emptyQueue r) tr s) :
    framesWritten s.log + owed s.deltaList ≤ 3 * ipv4Frames tr + 2 * requeued tr := by
  rw [← sum_allowance]
  exact account_le_allowances h

/-- A LAN host sends one packet. The router asks for the gateway, asks again after a second, and
sends the packet when the gateway answers. -/
def retriedPacket : List (WireInput shippedConfig) :=
  let answer : ArpHdr :=
    { hardwareType := ntohs 1, protocolType := ntohs 0x0800, hardwareLength := 6,
      protocolLength := 4, operation := ntohs 2, senderMac := ⟨2, 0, 0, 0, 0, 2⟩,
      senderIp := ⟨192, 168, 0, 1⟩, targetMac := ⟨0, 0, 0, 0, 0, 0⟩,
      targetIp := ⟨192, 168, 0, 2⟩ }
  [.frame ⟨udpFrame ⟨2, 0, 0, 0, 0, 1⟩ (⟨192, 168, 1, 100⟩, ⟨5000⟩) (⟨8, 8, 8, 8⟩, ⟨53⟩),
    ⟨0, Nat.zero_lt_two⟩, fun _ => 0⟩, .elapse 1000000000, .timer,
  .frame ⟨Mem.zero.write 0 (MacAddr.broadcast.bytes ++ answer.senderMac.bytes ++
    le16 (ntohs ethertypeArp) ++ answer.bytes), ⟨1, Nat.one_lt_two⟩, fun _ => 0⟩]

theorem traffic_bound_retried :
    ∃ tr t, Run (wireStep shippedConfig) (emptyQueue routerInit) (tr ++ [t]) t.post ∧
      (tr ++ [t]).map (·.input) = retriedPacket ++ [.timer] ∧ framesWritten t.post.log = 3 ∧
      ipv4Frames (tr ++ [t]) = 1 ∧ framesWritten t.post.log + owed t.post.deltaList ≤
        3 * ipv4Frames (tr ++ [t]) + 2 * requeued (tr ++ [t]) := by
  obtain ⟨tr, t, hrun, hinputs, hlast⟩ := exists_run_snoc (wireStep shippedConfig)
    (emptyQueue routerInit) retriedPacket .timer
    (fun tr t => decide (framesWritten t.post.log = 3 ∧ ipv4Frames (tr ++ [t]) = 1))
    (by decide +kernel)
  obtain ⟨hsent, hreceived⟩ := of_decide_eq_true hlast
  exact ⟨tr, t, hrun, hinputs, hsent, hreceived, traffic_bound hrun⟩

/-! ## Well-formed packets -/

theorem wellFormed_of_agree {pkt pkt' : Mem} (h : ∀ i < 12, pkt' i = pkt i)
    (hpkt : WellFormed pkt) : WellFormed pkt' := by
  have hlen : headerLen pkt' = headerLen pkt := headerLen_congr (h 0 (by decide))
  have hproto : protocol pkt' = protocol pkt := h 9 (by decide)
  have htotal : totalLength pkt' = totalLength pkt :=
    load16_congr (Mem.read_congr fun i hi => h (2 + i) (by omega))
  rwa [WellFormed, transportLen, hlen, hproto, htotal]

theorem wellFormed_sentPacket {napt : Napt} {i : Ipv4Input cfg} {pkt : Mem}
    (hpkt : WellFormed i.pkt) (h : sentPacket cfg napt i = some pkt) : WellFormed pkt := by
  have hlen : 20 ≤ headerLen i.pkt := hpkt.1
  rw [sentPacket] at h
  cases hpath : ipv4Path cfg i.pkt i.intId with
  | ignored =>
    rw [hpath] at h
    cases h
  | bridged =>
    rw [hpath] at h
    exact Option.some.inj h ▸ hpkt
  | inc =>
    rw [hpath] at h
    obtain ⟨⟨napt', endpoint⟩, -, h⟩ := Option.bind_eq_some_iff.1 h
    obtain ⟨⟨lanIp, lanPort⟩, -, h⟩ := Option.bind_eq_some_iff.1 h
    rw [← Option.some.inj h]
    refine wellFormed_of_agree (fun j hj => ?_) hpkt
    rw [naptIncRewrite, setPortDst, store16_apply_of_lt _ _ (by omega), setIpDst,
      Mem.write_apply_of_lt _ _ (by omega)]
  | out =>
    rw [hpath] at h
    obtain ⟨⟨napt', port⟩, -, h⟩ := Option.bind_eq_some_iff.1 h
    obtain ⟨newPortSrc, -, h⟩ := Option.bind_eq_some_iff.1 h
    rw [← Option.some.inj h]
    refine wellFormed_of_agree (fun j hj => ?_) hpkt
    rw [naptOutRewrite, setPortSrc, store16_apply_of_lt _ _ (by omega), setIpSrc,
      Mem.write_apply_of_lt _ _ hj]

/-- The packets of a resolved node are written, not copied. -/
theorem copies_timerUpdatePackets {dst : IpAddr} (hq : WellQueued cfg r.deltaList)
    (hres : hasMacForIp r.ipMacMap dst = true) :
    (timerUpdatePackets cfg r dst).copies = r.copies := by
  rcases timerUpdatePackets_cases cfg r dst with ⟨-, heq⟩ | ⟨node, rest, timer, hunlink, heq⟩
  · rw [heq]
  · have hspec := unlinkNode_spec dst r.deltaList
    rw [hunlink] at hspec
    obtain ⟨hmem, rfl, -, -⟩ := hspec
    have hroute : ∀ q ∈ node.pktList, Routed cfg q.pkt node.ipAddr := by
      intro q hpkt
      exact hq.routed _ q (waiting_of_mem hq.nodup hmem ▸ hpkt)
    rw [heq, flushPkts_eq (r := { r with timer, deltaList := rest }) hroute hres]

theorem copies_arpHandle {pkt : ArpHdr} {intId : cfg.IntId} {src : MacAddr}
    (hq : WellQueued cfg r.deltaList) : (arpHandle cfg r pkt intId src).copies = r.copies := by
  rw [arpHandle]
  split_ifs
  · rfl
  · exact copies_timerUpdatePackets (r := learn r _) hq (hasMacForIp_learn_self r _)

theorem wellQueued_ipv4Handle {i : Ipv4Input cfg} (h : ipv4Handle cfg r i = some r')
    (hether : ∀ intId, cfg.interfaceGetType intId = .ether) (hpkt : WellFormed i.pkt)
    (hq : WellQueued cfg r.deltaList) : WellQueued cfg r'.deltaList := by
  obtain ⟨napt, rfl⟩ := ipv4Handle_sent h
  cases hsent : sentPacket cfg r.napt i with
  | none => exact hq
  | some pkt =>
    obtain ⟨-, -, hq', -⟩ := sendIpv4_moves (r := { r with napt }) hq
      (wellFormed_sentPacket hpkt hsent) (hether _)
    exact hq'

/-- Every IPv4 frame that is received holds a well-formed packet. -/
def WellFormedInput (i : WireInput cfg) : Prop :=
  match i with
  | .frame f => ReceivesIpv4 (.frame f) → WellFormed (payload f.bytes)
  | .timer | .elapse _ => True

instance (i : WireInput cfg) : Decidable (WellFormedInput i) :=
  match i with
  | .frame _ => inferInstanceAs (Decidable (_ → _))
  | .timer => isTrue trivial
  | .elapse _ => isTrue trivial

/-- A step keeps the queues in order, and makes no copy unless an IPv4 frame is received. -/
theorem wellQueued_wireStep {i : WireInput cfg} (hstep : wireStep cfg r i = some r')
    (hether : ∀ intId, cfg.interfaceGetType intId = .ether) (hpkt : WellFormedInput i)
    (hq : WellQueued cfg r.deltaList) :
    WellQueued cfg r'.deltaList ∧ (¬ ReceivesIpv4 i → r'.copies = r.copies) := by
  cases i with
  | frame f =>
    rw [wireStep, ethernetHandle] at hstep
    by_cases hipv4 : ntohs (ethertype f.bytes) = ethertypeIpv4
    · rw [if_pos hipv4] at hstep
      refine ⟨?_, fun hnot => absurd hipv4 hnot⟩
      exact wellQueued_ipv4Handle (r := learn r _) hstep hether (hpkt hipv4) hq
    · rw [if_neg hipv4] at hstep
      split_ifs at hstep
      · obtain ⟨-, -, hq', -⟩ := arpHandle_moves hq (ArpHdr.read (payload f.bytes) 0) f.intId
          (macSrc f.bytes)
        rw [← Option.some.inj hstep]
        exact ⟨hq', fun _ => copies_arpHandle hq⟩
      · rw [← Option.some.inj hstep]
        exact ⟨hq, fun _ => rfl⟩
  | timer =>
    rw [← Option.some.inj hstep]
    obtain ⟨-, -, hq', -⟩ := timerHandler_moves hq
    exact ⟨hq', fun _ => (account_timerHandler cfg r).2⟩
  | elapse nsec =>
    rw [← Option.some.inj hstep]
    exact ⟨hq, fun _ => rfl⟩

theorem requeued_snoc (tr : List (Step Router (WireInput cfg))) (t : Step Router (WireInput cfg)) :
    requeued (tr ++ [t]) =
      requeued tr + if ReceivesIpv4 t.input then 0 else t.post.copies - t.pre.copies := by
  simp [requeued]

/-- On Ethernet no packet is queued twice while only well-formed packets are received. -/
theorem requeued_eq_zero (hether : ∀ intId, cfg.interfaceGetType intId = .ether)
    {tr : List (Step Router (WireInput cfg))} {s : Router}
    (h : Run (wireStep cfg) (emptyQueue r) tr s) (hpkts : ∀ t ∈ tr, WellFormedInput t.input) :
    WellQueued cfg s.deltaList ∧ requeued tr = 0 := by
  induction h with
  | nil => exact ⟨⟨List.nodup_nil, fun nh q hmem => absurd hmem List.not_mem_nil⟩, rfl⟩
  | @snoc tr s s' i _ hstep ih =>
    obtain ⟨hall, hlast⟩ := List.forall_mem_append.1 hpkts
    obtain ⟨hq, hzero⟩ := ih hall
    obtain ⟨hq', hcopies⟩ := wellQueued_wireStep hstep hether (hlast _ List.mem_cons_self) hq
    refine ⟨hq', ?_⟩
    rw [requeued_snoc, hzero]
    by_cases hipv4 : ReceivesIpv4 i
    · rw [if_pos hipv4]
    · rw [if_neg hipv4, hcopies hipv4, Nat.sub_self]

/-- **Three frames for a packet.** On Ethernet, in every run in which only well-formed IPv4 packets
are received, the router has never written more than three frames for each IPv4 frame that it has
received, whatever ARP frames come and however often the timer runs. -/
theorem traffic_bound_ipv4 (hether : ∀ intId, cfg.interfaceGetType intId = .ether)
    {tr : List (Step Router (WireInput cfg))} {s : Router}
    (h : Run (wireStep cfg) (emptyQueue r) tr s) (hpkts : ∀ t ∈ tr, WellFormedInput t.input) :
    framesWritten s.log + owed s.deltaList ≤ 3 * ipv4Frames tr := by
  have hle := account_le_allowances h
  rwa [sum_allowance, (requeued_eq_zero hether h hpkts).2] at hle

/-- After the packet is sent, more answers and expiries cause nothing. -/
theorem traffic_bound_ipv4_answers :
    ∃ tr t, Run (wireStep shippedConfig) (emptyQueue routerInit) (tr ++ [t]) t.post ∧
      (tr ++ [t]).map (·.input) =
        retriedPacket ++ retriedPacket.drop 1 ++ retriedPacket.drop 1 ++ [.timer] ∧
      framesWritten t.post.log = 3 ∧ ipv4Frames (tr ++ [t]) = 1 ∧
      framesWritten t.post.log + owed t.post.deltaList ≤ 3 * ipv4Frames (tr ++ [t]) := by
  obtain ⟨tr, t, hrun, hinputs, hlast⟩ := exists_run_snoc (wireStep shippedConfig)
    (emptyQueue routerInit) (retriedPacket ++ retriedPacket.drop 1 ++ retriedPacket.drop 1) .timer
    (fun tr t => decide ((framesWritten t.post.log = 3 ∧ ipv4Frames (tr ++ [t]) = 1) ∧
      ∀ u ∈ tr ++ [t], WellFormedInput u.input)) (by decide +kernel)
  obtain ⟨⟨hsent, hreceived⟩, hpkts⟩ := of_decide_eq_true hlast
  exact ⟨tr, t, hrun, hinputs, hsent, hreceived, traffic_bound_ipv4 (by decide) hrun hpkts⟩

end NaptRouter
