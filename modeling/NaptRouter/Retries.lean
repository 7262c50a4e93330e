import NaptRouter.NodeLife
import NaptRouter.QueuedPath
import NaptRouter.Routing

/-!
# Where an ARP request is repeated

`timer_add_packet` asks for a next hop on the interface of the packet that opens its node, and
every packet is later sent on the interface of its destination. `timer_handler` looks the interface
up again, with the address of the next hop. In all runs the three agree for a destination unless
some destination with the same next hop is sent elsewhere than the next hop itself
(`asksOnce_iff`), and in the shipped table that takes a gateway inside the LAN
(`retry_interface_iff`).
-/

namespace NaptRouter

open BestMatch ByteMemory IpAddr Runs

variable {cfg : Config} {r r' : Router}

/-! ## Between two critical sections -/

/-- What threads do without another one in between, as far as the delta list is concerned. -/
inductive SectionInput (cfg : Config)
  /-- `send_ipv4`. -/
  | send (pkt : Mem)
  /-- `send_ipv4` when another thread has entered the MAC address after `has_mac_for_ip`. -/
  | queue (pkt : Mem)
  /-- The critical section of `timer_update_packets`. -/
  | unlink (dst : IpAddr)
  /-- `timer_update_packets` sends a packet of the node and frees it. -/
  | flush (q : QueuedPkt) (nextHop : IpAddr)
  /-- `timer_handler`. -/
  | handler
  /-- Time passes for the one-shot timer. -/
  | elapse (nsec : Nat)
  /-- `update_ip_mac_pair`. -/
  | learn (pair : IpMacPair)

/-- The branch of `send_ipv4` for a next hop without a MAC address. -/
def queueIpv4 (cfg : Config) (r : Router) (pkt : Mem) : Router :=
  timerAddPacket cfg { r with copies := r.copies + 1 } (queuedCopy r pkt)
    (cfg.getInterfaceForIp (ipDst pkt)) (nextHop cfg pkt)

def sectionStep (cfg : Config) (r : Router) : SectionInput cfg → Option Router
  | .send pkt => some (sendIpv4 cfg r pkt)
  | .queue pkt => some (queueIpv4 cfg r pkt)
  | .unlink dst => some ((unlinked r dst).elim r (·.2))
  | .flush q nextHop => some ((sendIpv4 cfg r q.pkt).emit (.flushed q nextHop))
  | .handler => some (timerHandler cfg r)
  | .elapse nsec => some { r with timer := r.timer - nsec }
  | .learn pair => some (learn r pair)

/-- The packet that `timer_add_packet` is called with. -/
def queuedBy (cfg : Config) (r : Router) : SectionInput cfg → Option Mem
  | .send pkt => if hasMacForIp r.ipMacMap (nextHop cfg pkt) then none else some pkt
  | .queue pkt => some pkt
  | .flush q _ => if hasMacForIp r.ipMacMap (nextHop cfg q.pkt) then none else some q.pkt
  | .unlink _ | .handler | .elapse _ | .learn _ => none

theorem run_flushPkts (cfg : Config) (nh : IpAddr) (pkts : List QueuedPkt) (r : Router) :
    ∃ tr, Run (sectionStep cfg) r tr (flushPkts cfg nh pkts r) := by
  induction pkts generalizing r with
  | nil => exact ⟨[], .nil⟩
  | cons q rest ih =>
    have hstep : sectionStep cfg r (.flush q nh) =
        some ((sendIpv4 cfg r q.pkt).emit (.flushed q nh)) := rfl
    obtain ⟨tr, hrest⟩ := ih ((sendIpv4 cfg r q.pkt).emit (.flushed q nh))
    exact ⟨_, (Run.nil.snoc hstep).append hrest⟩

/-- A call of `timer_update_packets` that nothing interrupts. -/
theorem run_timerUpdatePackets (cfg : Config) (r : Router) (dst : IpAddr) :
    ∃ tr, Run (sectionStep cfg) r tr (timerUpdatePackets cfg r dst) := by
  rw [timerUpdatePackets_unlinked]
  cases hunlinked : unlinked r dst with
  | none => exact ⟨[], .nil⟩
  | some found =>
    obtain ⟨node, r'⟩ := found
    have hstep : sectionStep cfg r (.unlink dst) = some r' := by
      rw [sectionStep, hunlinked]
      rfl
    obtain ⟨tr, hflush⟩ := run_flushPkts cfg dst node.pktList r'
    exact ⟨_, (Run.nil.snoc hstep).append hflush⟩

/-! ## Who opens a node -/

/-- The next hop of a destination. -/
def hopOf (cfg : Config) (dst : IpAddr) : IpAddr :=
  cfg.localDstIp (cfg.getInterfaceForIp dst) dst

theorem nextHop_eq {pkt : Mem} {dst : IpAddr} (h : ipDst pkt = dst) :
    nextHop cfg pkt = hopOf cfg dst := by
  rw [nextHop, h, hopOf]

/-- The step opens the node of `nh`, with a request on `intId`. -/
def OpensNode (cfg : Config) (nh : IpAddr) (intId : cfg.IntId)
    (t : Step Router (SectionInput cfg)) : Prop :=
  nh ∉ addrs t.pre.deltaList ∧ ∃ after,
    t.post.log = t.pre.log ++ arpEvents cfg (arpRequest cfg intId nh) intId ++ after

/-- There is no node of `nh` any more. -/
def ClosesNode (nh : IpAddr) (t : Step Router (SectionInput cfg)) : Prop :=
  nh ∉ addrs t.post.deltaList

theorem queueIpv4_addrs (cfg : Config) (r : Router) (pkt : Mem) :
    addrs (queueIpv4 cfg r pkt).deltaList =
      if nextHop cfg pkt ∈ addrs r.deltaList then addrs r.deltaList
      else addrs r.deltaList ++ [nextHop cfg pkt] :=
  timerAddPacket_addrs cfg { r with copies := r.copies + 1 } _ _ _

/-- The first request is on the interface of the destination. -/
theorem queueIpv4_log (cfg : Config) (r : Router) (pkt : Mem) :
    (queueIpv4 cfg r pkt).log =
      r.log ++ (addEvents r (nextHop cfg pkt)).flatMap
        (fun _ => arpEvents cfg (arpRequest cfg (cfg.getInterfaceForIp (ipDst pkt))
          (nextHop cfg pkt)) (cfg.getInterfaceForIp (ipDst pkt))) ++
        [.queued (queuedCopy r pkt) (nextHop cfg pkt)] :=
  timerAddPacket_asks cfg { r with copies := r.copies + 1 } (queuedCopy r pkt) _ _

/-- A step that queues a packet goes through `timer_add_packet`. -/
theorem sectionStep_queues {i : SectionInput cfg} {pkt : Mem}
    (hstep : sectionStep cfg r i = some r') (h : queuedBy cfg r i = some pkt) :
    r'.deltaList = (queueIpv4 cfg r pkt).deltaList ∧
      ∃ after, r'.log = (queueIpv4 cfg r pkt).log ++ after := by
  cases i with
  | send pkt' =>
    rw [queuedBy] at h
    split_ifs at h with hmac
    obtain rfl := Option.some.inj h
    rw [← Option.some.inj hstep, sendIpv4_unresolved (Bool.eq_false_iff.2 hmac)]
    exact ⟨rfl, [], (List.append_nil _).symm⟩
  | queue pkt' =>
    obtain rfl := Option.some.inj h
    rw [← Option.some.inj hstep]
    exact ⟨rfl, [], (List.append_nil _).symm⟩
  | flush q nh =>
    rw [queuedBy] at h
    split_ifs at h with hmac
    obtain rfl := Option.some.inj h
    rw [← Option.some.inj hstep, sendIpv4_unresolved (Bool.eq_false_iff.2 hmac)]
    exact ⟨rfl, [.flushed q nh], rfl⟩
  | unlink dst => cases h
  | handler => cases h
  | elapse nsec => cases h
  | learn pair => cases h

theorem mem_addrs_of_sectionStep {i : SectionInput cfg} {nh : IpAddr}
    (hstep : sectionStep cfg r i = some r') (h : queuedBy cfg r i = none)
    (hnh : nh ∈ addrs r'.deltaList) : nh ∈ addrs r.deltaList := by
  have hsend {pkt : Mem} (hnone : (if hasMacForIp r.ipMacMap (nextHop cfg pkt) then none
      else some pkt) = none) : (sendIpv4 cfg r pkt).deltaList = r.deltaList := by
    split_ifs at hnone with hmac
    exact (sendIpv4_resolved_list hmac).1
  cases i with
  | send pkt =>
    rwa [← Option.some.inj hstep, hsend h] at hnh
  | queue pkt => cases h
  | unlink dst =>
    rw [← Option.some.inj hstep] at hnh
    cases hunlinked : unlinked r dst with
    | none => rwa [hunlinked] at hnh
    | some found =>
      obtain ⟨node, s⟩ := found
      rw [hunlinked] at hnh
      have hspec := unlinkNode_spec dst r.deltaList
      rw [(unlinked_spec hunlinked).1] at hspec
      obtain ⟨-, -, herase, -⟩ := hspec
      exact List.mem_of_mem_erase (herase ▸ hnh)
  | flush q nh' =>
    rw [← Option.some.inj hstep, Router.emit_deltaList, hsend h] at hnh
    exact hnh
  | handler =>
    rw [← Option.some.inj hstep] at hnh
    exact mem_addrs_of_timerHandler hnh
  | elapse nsec =>
    rw [← Option.some.inj hstep] at hnh
    exact hnh
  | learn pair =>
    rw [← Option.some.inj hstep] at hnh
    exact hnh

/-- The request of a packet that finds no node of its next hop. -/
theorem opensNode {i : SectionInput cfg} {pkt : Mem} (hstep : sectionStep cfg r i = some r')
    (h : queuedBy cfg r i = some pkt) (hnew : nextHop cfg pkt ∉ addrs r.deltaList) :
    OpensNode cfg (nextHop cfg pkt) (cfg.getInterfaceForIp (ipDst pkt)) ⟨r, i, r'⟩ := by
  obtain ⟨-, after, hlog⟩ := sectionStep_queues hstep h
  refine ⟨hnew, .queued (queuedCopy r pkt) (nextHop cfg pkt) :: after, ?_⟩
  show r'.log = _
  rw [hlog, queueIpv4_log, addEvents, if_neg hnew, List.flatMap_singleton, List.append_assoc,
    List.append_assoc, List.singleton_append, List.append_assoc]

/-- **Every node has been opened** for a packet with this next hop, on the interface of the
packet's destination. -/
theorem exists_opensNode {tr : List (Step Router (SectionInput cfg))} {s : Router}
    (hempty : r.deltaList = []) (h : Run (sectionStep cfg) r tr s) {nh : IpAddr}
    (hnh : nh ∈ addrs s.deltaList) :
    ∃ dst, hopOf cfg dst = nh ∧
      Since (OpensNode cfg nh (cfg.getInterfaceForIp dst)) (ClosesNode nh) tr := by
  revert hnh
  refine h.history (I := fun tr s => nh ∈ addrs s.deltaList → ∃ dst, hopOf cfg dst = nh ∧
    Since (OpensNode cfg nh (cfg.getInterfaceForIp dst)) (ClosesNode nh) tr) ?_ ?_
  · intro hnh
    rw [hempty] at hnh
    cases hnh
  intro tr s i s' _ ih hstep hnh
  by_cases hold : nh ∈ addrs s.deltaList
  · obtain ⟨dst, hdst, hsince⟩ := ih hold
    exact ⟨dst, hdst, since_snoc.2 (Or.inr ⟨not_not_intro hnh, hsince⟩)⟩
  · cases hqueued : queuedBy cfg s i with
    | none => exact absurd (mem_addrs_of_sectionStep hstep hqueued hnh) hold
    | some pkt =>
      rw [(sectionStep_queues hstep hqueued).1, queueIpv4_addrs] at hnh
      -- The only address that is new is the packet's next hop.
      obtain rfl : nh = nextHop cfg pkt := by
        split_ifs at hnh
        · exact absurd hnh hold
        · exact List.mem_singleton.1 ((List.mem_append.1 hnh).resolve_left hold)
      exact ⟨ipDst pkt, rfl, since_snoc.2 (Or.inl (opensNode hstep hqueued hold))⟩

/-! ## Three lookups -/

/-- The step queues this packet. -/
def Queues (cfg : Config) (pkt : Mem) (t : Step Router (SectionInput cfg)) : Prop :=
  queuedBy cfg t.pre t.input = some pkt

/-- All that is sent for the packets that wait for `nh` is sent on one interface. -/
structure StaysOn (cfg : Config) (nh : IpAddr) (tr : List (Step Router (SectionInput cfg)))
    (s : Router) (intId : cfg.IntId) : Prop where
  /-- The request with which `timer_add_packet` has opened the node. -/
  first : Since (OpensNode cfg nh intId) (ClosesNode nh) tr
  /-- The frames of the packets in the node, once the next hop is resolved. -/
  transmitted : ∀ (s₁ : Router) (pkt : Mem), nextHop cfg pkt = nh → WellFormed pkt →
    Since (fun t => t.pre = s₁ ∧ Queues cfg pkt t) (ClosesNode nh) tr →
      ∀ d : Router, hasMacForIp d.ipMacMap nh = true →
        ∃ frame, sendIpv4 cfg d (queuedCopy s₁ pkt).pkt = d.emit (.write intId frame)
  /-- The request with which `timer_handler` repeats the first one. -/
  retried : ∀ before node after, popped cfg s = before ++ node :: after →
    node.ipAddr = nh → node.retryAmt = 0 →
      (timerHandler cfg s).log = s.log ++ (before.flatMap (expiryLog cfg) ++
        (arpEvents cfg (arpRequest cfg intId nh) intId ++ after.flatMap (expiryLog cfg)))

/-- Whenever a packet for `dst` waits for its next hop, the packets of this next hop stay on one
interface. -/
def AsksOnce (cfg : Config) (dst : IpAddr) : Prop :=
  ∀ r tr s pkt, r.deltaList = [] → Run (sectionStep cfg) r tr s → ipDst pkt = dst →
    Since (Queues cfg pkt) (ClosesNode (hopOf cfg dst)) tr →
      ∃ intId, StaysOn cfg (hopOf cfg dst) tr s intId

theorem timerHandler_retry {r : Router} {before after : List DeltaNode} {node : DeltaNode}
    (h : popped cfg r = before ++ node :: after) (hretry : node.retryAmt = 0) :
    (timerHandler cfg r).log = r.log ++ (before.flatMap (expiryLog cfg) ++
      (arpEvents cfg (arpRequest cfg (cfg.getInterfaceForIp node.ipAddr) node.ipAddr)
        (cfg.getInterfaceForIp node.ipAddr) ++ after.flatMap (expiryLog cfg))) := by
  have hnode : expiryLog cfg node =
      arpEvents cfg (arpRequest cfg (cfg.getInterfaceForIp node.ipAddr) node.ipAddr)
        (cfg.getInterfaceForIp node.ipAddr) := by
    rw [expiryLog, if_neg (by omega)]
  rw [timerHandler_log, h, List.flatMap_append, List.flatMap_cons, hnode]

theorem mem_addrs_of_queues {tr : List (Step Router (SectionInput cfg))} {s : Router}
    (h : Run (sectionStep cfg) r tr s) {pkt : Mem} {nh : IpAddr} (hhop : nextHop cfg pkt = nh)
    (hsince : Since (Queues cfg pkt) (ClosesNode nh) tr) : nh ∈ addrs s.deltaList := by
  obtain ⟨before, t, after, rfl, hqueues, hopen⟩ := hsince
  have hpost : nh ∈ addrs t.post.deltaList := by
    rw [(sectionStep_queues h.cut.2.1 hqueues).1, queueIpv4_addrs, hhop]
    split_ifs with hold
    · exact hold
    · exact List.mem_append_right _ List.mem_cons_self
  have hlater := h.cut.2.2
  clear h
  cases hlater with
  | nil => exact hpost
  | snoc hrun hstep => exact not_not.1 (hopen _ (List.mem_append_right _ List.mem_cons_self))

theorem arpEvents_inj {pkt pkt' : ArpHdr} {intId intId' : cfg.IntId} {es es' : List Event}
    (hether : ∀ i, cfg.interfaceGetType i = .ether)
    (h : arpEvents cfg pkt intId ++ es = arpEvents cfg pkt' intId' ++ es') : intId = intId' := by
  rw [arpEvents, arpEvents, hether, hether] at h
  simp only [List.singleton_append, List.cons.injEq, Event.write.injEq] at h
  exact Fin.ext h.1.1

/-- Two requests cannot both be the first event. -/
theorem OpensNode.unique {nh : IpAddr} {intId intId' : cfg.IntId}
    {t : Step Router (SectionInput cfg)} (h : OpensNode cfg nh intId t)
    (hether : ∀ i, cfg.interfaceGetType i = .ether) (h' : OpensNode cfg nh intId' t) :
    intId = intId' := by
  obtain ⟨-, after, hlog⟩ := h
  obtain ⟨-, after', hlog'⟩ := h'
  rw [hlog, List.append_assoc, List.append_assoc] at hlog'
  exact arpEvents_inj hether (List.append_cancel_left hlog')

theorem queueIpv4_nil {pkt : Mem} (hlist : r.deltaList = []) :
    (queueIpv4 cfg r pkt).deltaList =
      [{ msec := 1000, ipAddr := nextHop cfg pkt, pktList := [queuedCopy r pkt],
         retryAmt := 0 }] := by
  rw [queueIpv4, timerAddPacket_deltaList]
  simp only [hlist]
  rfl

theorem queueIpv4_single {pkt : Mem} {node : DeltaNode} (hlist : r.deltaList = [node])
    (hip : node.ipAddr = nextHop cfg pkt) :
    (queueIpv4 cfg r pkt).deltaList =
      [{ node with pktList := node.pktList ++ [queuedCopy r pkt] }] := by
  rw [queueIpv4, timerAddPacket_deltaList]
  simp only [hlist, appendToNode, if_pos (ipAddrEquals_iff.2 hip), Option.getD_some]

/-- A packet for this destination. -/
def pktTo (dst : IpAddr) : Mem := Mem.zero.write 16 dst.bytes

theorem nextHop_pktTo (cfg : Config) (dst : IpAddr) : nextHop cfg (pktTo dst) = hopOf cfg dst :=
  nextHop_eq (IpAddr.read_eq_iff.2 (Mem.read_write_same Mem.zero 16 dst.bytes))

theorem ipDst_pktTo (dst : IpAddr) : ipDst (pktTo dst) = dst :=
  IpAddr.read_eq_iff.2 (Mem.read_write_same Mem.zero 16 dst.bytes)

/-- The router after the first of two packets. -/
def afterFirst (cfg : Config) (dst : IpAddr) : Router := sendIpv4 cfg routerInit (pktTo dst)

def afterSecond (cfg : Config) (dst' dst : IpAddr) : Router :=
  sendIpv4 cfg (afterFirst cfg dst') (pktTo dst)

def afterSilence (cfg : Config) (dst' dst : IpAddr) (nsec : Nat) : Router :=
  { afterSecond cfg dst' dst with timer := (afterSecond cfg dst' dst).timer - nsec }

/-- Two packets, and no answer for some time. -/
def twoPackets (cfg : Config) (dst' dst : IpAddr) (nsec : Nat) :
    List (Step Router (SectionInput cfg)) :=
  [⟨routerInit, .send (pktTo dst'), afterFirst cfg dst'⟩,
    ⟨afterFirst cfg dst', .send (pktTo dst), afterSecond cfg dst' dst⟩,
    ⟨afterSecond cfg dst' dst, .elapse nsec, afterSilence cfg dst' dst nsec⟩]

theorem run_twoPackets (cfg : Config) (dst' dst : IpAddr) (nsec : Nat) :
    Run (sectionStep cfg) routerInit (twoPackets cfg dst' dst nsec)
      (afterSilence cfg dst' dst nsec) :=
  ((Run.nil.snoc rfl).snoc rfl).snoc rfl

theorem afterFirst_eq (cfg : Config) (dst : IpAddr) :
    afterFirst cfg dst = queueIpv4 cfg routerInit (pktTo dst) :=
  sendIpv4_unresolved rfl

theorem afterFirst_unresolved (cfg : Config) (dst nh : IpAddr) :
    hasMacForIp (afterFirst cfg dst).ipMacMap nh = false := by
  rw [afterFirst, sendIpv4_ipMacMap]
  rfl

theorem afterSecond_eq (cfg : Config) (dst' dst : IpAddr) :
    afterSecond cfg dst' dst = queueIpv4 cfg (afterFirst cfg dst') (pktTo dst) :=
  sendIpv4_unresolved (afterFirst_unresolved cfg dst' _)

theorem afterFirst_deltaList (cfg : Config) (dst : IpAddr) :
    (afterFirst cfg dst).deltaList =
      [{ msec := 1000, ipAddr := hopOf cfg dst, pktList := [queuedCopy routerInit (pktTo dst)],
         retryAmt := 0 }] := by
  rw [afterFirst_eq, queueIpv4_nil rfl, nextHop_pktTo]

theorem afterSecond_deltaList {dst' dst : IpAddr} (h : hopOf cfg dst' = hopOf cfg dst) :
    (afterSecond cfg dst' dst).deltaList =
      [{ msec := 1000, ipAddr := hopOf cfg dst,
         pktList := [queuedCopy routerInit (pktTo dst'),
           queuedCopy (afterFirst cfg dst') (pktTo dst)],
         retryAmt := 0 }] := by
  have hjoin : hopOf cfg dst' = nextHop cfg (pktTo dst) := h.trans (nextHop_pktTo cfg dst).symm
  rw [afterSecond_eq, queueIpv4_single (afterFirst_deltaList cfg dst') hjoin, h]
  rfl

theorem since_opens_twoPackets (hether : ∀ i, cfg.interfaceGetType i = .ether)
    {dst' dst : IpAddr} (h : hopOf cfg dst' = hopOf cfg dst) {nsec : Nat} {intId : cfg.IntId}
    (hsince : Since (OpensNode cfg (hopOf cfg dst) intId) (ClosesNode (hopOf cfg dst))
      (twoPackets cfg dst' dst nsec)) : intId = cfg.getInterfaceForIp dst' := by
  have hopen : hopOf cfg dst ∈ addrs (afterFirst cfg dst').deltaList := by
    rw [afterFirst_deltaList, h]
    exact List.mem_cons_self
  have hopen' : hopOf cfg dst ∈ addrs (afterSecond cfg dst' dst).deltaList := by
    rw [afterSecond_deltaList h]
    exact List.mem_cons_self
  change Since _ _ ([] ++ [_] ++ [_] ++ [_]) at hsince
  rw [since_snoc, since_snoc, since_snoc] at hsince
  rcases hsince with hnow | ⟨-, hnow | ⟨-, hnow | ⟨-, hnever⟩⟩⟩
  · exact absurd hopen' hnow.1
  · exact absurd hopen hnow.1
  · have hstep : sectionStep cfg routerInit (.send (pktTo dst')) = some (afterFirst cfg dst') := rfl
    have hfirst := opensNode hstep rfl List.not_mem_nil
    rw [nextHop_pktTo, ipDst_pktTo, h] at hfirst
    exact hnow.unique hether hfirst
  · exact absurd hnever not_since_nil

/-- The retry shows where the packet that opened the node is sent. -/
theorem AsksOnce.sameInterface {dst' dst : IpAddr} (hask : AsksOnce cfg dst)
    (hether : ∀ i, cfg.interfaceGetType i = .ether) (hhop : hopOf cfg dst' = hopOf cfg dst)
    (nsec : Nat) : cfg.getInterfaceForIp dst' = cfg.getInterfaceForIp (hopOf cfg dst) := by
  have hqueues : Queues cfg (pktTo dst)
      ⟨afterFirst cfg dst', .send (pktTo dst), afterSecond cfg dst' dst⟩ := by
    rw [Queues, queuedBy, if_neg (by rw [afterFirst_unresolved]; exact Bool.false_ne_true)]
  have hlist : (afterSilence cfg dst' dst nsec).deltaList = _ := afterSecond_deltaList hhop
  have hwaits : hopOf cfg dst ∈ addrs (afterSilence cfg dst' dst nsec).deltaList := by
    rw [hlist]
    exact List.mem_cons_self
  have hsince : Since (Queues cfg (pktTo dst)) (ClosesNode (hopOf cfg dst))
      (twoPackets cfg dst' dst nsec) := by
    change Since _ _ ([_] ++ [_] ++ [_])
    rw [since_snoc, since_snoc]
    exact Or.inr ⟨fun hclosed => hclosed hwaits, Or.inl hqueues⟩
  obtain ⟨intId, hstays⟩ := hask routerInit _ _ (pktTo dst) rfl
      (run_twoPackets cfg dst' dst nsec) (ipDst_pktTo dst) hsince
  have hpopped : popped cfg (afterSilence cfg dst' dst nsec) = [] ++ _ :: [] := popped_eq cfg hlist
  have hretry := (timerHandler_retry hpopped rfl).symm.trans
    (hstays.retried [] _ [] hpopped rfl rfl)
  rw [← since_opens_twoPackets hether hhop hstays.first]
  exact (arpEvents_inj hether (List.append_cancel_left hretry)).symm

/-- **One interface for the three lookups**, in every run, just when all destinations with this
next hop are sent where the table sends the next hop itself. -/
theorem asksOnce_iff (hether : ∀ i, cfg.interfaceGetType i = .ether) (dst : IpAddr) :
    AsksOnce cfg dst ↔ ∀ dst', hopOf cfg dst' = hopOf cfg dst →
      cfg.getInterfaceForIp dst' = cfg.getInterfaceForIp (hopOf cfg dst) := by
  constructor
  · intro hask dst' hhop
    exact hask.sameInterface hether hhop 1000000000
  · intro hsame r tr s pkt hempty hrun hdst hqueued
    have hnh := mem_addrs_of_queues hrun (nextHop_eq hdst) hqueued
    obtain ⟨dst', hdst', hopened⟩ := exists_opensNode hempty hrun hnh
    refine ⟨cfg.getInterfaceForIp (hopOf cfg dst), ?_, ?_, ?_⟩
    · rwa [hsame dst' hdst'] at hopened
    · intro s₁ pkt' hhop hpkt hwaits d hres
      have hcopy : ipDst (queuedCopy s₁ pkt').pkt = ipDst pkt' := ipDst_queuedCopy s₁ hpkt
      rw [← hhop, nextHop_eq rfl, ← nextHop_eq hcopy] at hres
      rw [sendIpv4_resolved hres, hcopy, if_pos (hether _), hsame (ipDst pkt') hhop]
      exact ⟨_, rfl⟩
    · intro before node after hpopped hip hretry
      rw [timerHandler_retry hpopped hretry, hip]

/-! ## What `main` configures -/

/-- The addresses of the devices. -/
def Config.setMacs (cfg : Config) (macs : cfg.IntId → MacAddr) : Config :=
  { cfg with interfaceArr := fun i => { cfg.interfaceArr i with deviceMacAddr := macs i } }

/-- The table and the WAN settings after `main` has read the system's addresses. -/
def mainConfig (macs : shippedConfig.IntId → MacAddr) (ip mask : IpAddr) (stale : Nat) : Config :=
  (shippedConfig.setMacs macs).setWan ip mask stale

/-- In the LAN of the shipped table, `192.168.1.0/24`. -/
def InLan (ip : IpAddr) : Prop := applyMask (createSubnetMask 24) ip = ⟨192, 168, 1, 0⟩

instance (ip : IpAddr) : Decidable (InLan ip) := inferInstanceAs (Decidable (_ = _))

/-- In the WAN network, as `send_ipv4` tests it. -/
def OnLink (cfg : Config) (dst : IpAddr) : Prop :=
  applyMask (createSubnetMask (UInt8.ofNat cfg.wanCidrPrefixLen)) dst = cfg.wanNetworkIp

instance (cfg : Config) (dst : IpAddr) : Decidable (OnLink cfg dst) :=
  inferInstanceAs (Decidable (_ = _))

variable (macs : shippedConfig.IntId → MacAddr) (ip mask : IpAddr) (stale : Nat)

variable {macs ip mask stale} in
theorem mainConfig_rows {P : (mainConfig macs ip mask stale).IntId → Prop} (hlan : P (0 : Fin 2))
    (hwan : P (1 : Fin 2)) (intId : (mainConfig macs ip mask stale).IntId) : P intId := by
  obtain ⟨_ | _ | i, hi⟩ := intId
  · exact hlan
  · exact hwan
  · exact absurd hi (by simp [mainConfig, Config.setMacs, Config.setWan, shippedConfig])

theorem mainConfig_type (intId : (mainConfig macs ip mask stale).IntId) :
    (mainConfig macs ip mask stale).interfaceGetType intId = .ether :=
  mainConfig_rows (P := fun i => (mainConfig macs ip mask stale).interfaceGetType i = .ether)
    rfl rfl intId

theorem mainConfig_routingTable : (mainConfig macs ip mask stale).RoutingTable where
  prefixLen_le := mainConfig_rows (show 24 ≤ 32 by decide) (show 0 ≤ 32 by decide)
  hostBits := mainConfig_rows (show ZeroBits 24 32 ⟨192, 168, 1, 0⟩ by unfold ZeroBits; decide)
    (show ZeroBits 0 32 ⟨0, 0, 0, 0⟩ by unfold ZeroBits; decide)
  fallback := ⟨(1 : Fin 2), rfl, rfl⟩

/-- The LAN's row for its addresses, the WAN's row for all others. -/
theorem getInterfaceForIp_mainConfig (dst : IpAddr) :
    (mainConfig macs ip mask stale).getInterfaceForIp dst =
      if InLan dst then (0 : Fin 2) else (1 : Fin 2) := by
  have hbest : Best (mainConfig macs ip mask stale).prefixLen
      (fun i => (mainConfig macs ip mask stale).rowTest dst i = true)
      ((mainConfig macs ip mask stale).getInterfaceForIp dst) :=
    getInterfaceForIp_rowTest (mainConfig_routingTable macs ip mask stale)
  have hlan : (mainConfig macs ip mask stale).rowTest dst (0 : Fin 2) = true ↔ InLan dst :=
    ipAddrEquals_iff
  generalize (mainConfig macs ip mask stale).getInterfaceForIp dst = intId at hbest
  induction intId using mainConfig_rows with
  | hlan => rw [if_pos (hlan.1 hbest.holds)]
  | hwan =>
    rw [if_neg]
    intro hdst
    have hne : (0 : Fin 2) ≠ 1 := by decide
    rcases hbest.best (0 : Fin 2) (hlan.2 hdst) hne with hlt | ⟨heq, -⟩
    · exact absurd hlt (show ¬ 24 < 0 by decide)
    · exact absurd heq (show ¬ 24 = 0 by decide)

/-- The next hop is the gateway for what is neither in the LAN nor in the WAN network. -/
theorem hopOf_mainConfig (dst : IpAddr) :
    hopOf (mainConfig macs ip mask stale) dst =
      if InLan dst ∨ OnLink (mainConfig macs ip mask stale) dst then dst
      else (mainConfig macs ip mask stale).wanGatewayIp := by
  rw [hopOf, getInterfaceForIp_mainConfig]
  by_cases hdst : InLan dst
  · rw [if_pos hdst, if_pos (Or.inl hdst)]
    rfl
  · rw [if_neg hdst]
    exact if_congr (ipAddrEquals_iff.trans (or_iff_right hdst).symm) rfl rfl

/-- If the gateway is in the LAN, the network of the WAN begins with 192. -/
theorem not_onLink_of_inLan (h : InLan (mainConfig macs ip mask stale).wanGatewayIp) :
    ¬ OnLink (mainConfig macs ip mask stale) ⟨8, 8, 8, 8⟩ := by
  intro hlink
  have hnetwork : 255 &&& (mask.b0 &&& ip.b0) = 192 := congrArg IpAddr.b0 h
  have hmasked : (createSubnetMask
      (UInt8.ofNat (mainConfig macs ip mask stale).wanCidrPrefixLen)).b0 &&& 8 =
        mask.b0 &&& ip.b0 := congrArg IpAddr.b0 hlink
  rw [← hmasked] at hnetwork
  have hbound : (192 : UInt8).toNat ≤ 8 := by
    rw [← hnetwork, UInt8.toNat_and, UInt8.toNat_and]
    exact Nat.le_trans Nat.and_le_right Nat.and_le_right
  exact absurd hbound (by decide)

/-- The gateway is the only next hop that packets can share with other destinations. -/
theorem hopOf_mainConfig_eq {dst dst' : IpAddr}
    (h : hopOf (mainConfig macs ip mask stale) dst' = hopOf (mainConfig macs ip mask stale) dst) :
    dst' = dst ∨ hopOf (mainConfig macs ip mask stale) dst =
      (mainConfig macs ip mask stale).wanGatewayIp := by
  rw [hopOf_mainConfig, hopOf_mainConfig] at h
  rw [hopOf_mainConfig]
  split_ifs at h ⊢
  · exact Or.inl h
  · exact Or.inr h.symm
  · exact Or.inr rfl
  · exact Or.inr rfl

/-- **The interface of the retry.** Whatever `main` configures, the first request for a next hop,
the retry and the packets that wait for it are on one interface in every run exactly when the
gateway is outside the LAN, or the destination is in the LAN or in the WAN network and not the
gateway itself. -/
theorem retry_interface_iff (dst : IpAddr) :
    AsksOnce (mainConfig macs ip mask stale) dst ↔
      ¬ InLan (mainConfig macs ip mask stale).wanGatewayIp ∨
        (InLan dst ∨ OnLink (mainConfig macs ip mask stale) dst) ∧
          dst ≠ (mainConfig macs ip mask stale).wanGatewayIp := by
  rw [asksOnce_iff (mainConfig_type macs ip mask stale)]
  by_cases hgw : InLan (mainConfig macs ip mask stale).wanGatewayIp
  · rw [or_iff_right (not_not_intro hgw)]
    constructor
    · -- A packet for `8.8.8.8` may have opened the node of the gateway.
      intro hsame
      by_contra hcond
      have hhop : hopOf (mainConfig macs ip mask stale) dst =
          (mainConfig macs ip mask stale).wanGatewayIp := by
        rw [hopOf_mainConfig]
        split_ifs with hlocal
        · exact not_not.1 fun hne => hcond ⟨hlocal, hne⟩
        · rfl
      have hfar : ¬ InLan ⟨8, 8, 8, 8⟩ := by decide
      have height : hopOf (mainConfig macs ip mask stale) ⟨8, 8, 8, 8⟩ =
          (mainConfig macs ip mask stale).wanGatewayIp := by
        rw [hopOf_mainConfig, if_neg (not_or.2 ⟨hfar, not_onLink_of_inLan macs ip mask stale hgw⟩)]
      have hone := hsame ⟨8, 8, 8, 8⟩ (height.trans hhop.symm)
      rw [hhop, getInterfaceForIp_mainConfig, getInterfaceForIp_mainConfig, if_neg hfar,
        if_pos hgw] at hone
      exact absurd hone (show ¬ (1 : Fin 2) = 0 by decide)
    · rintro ⟨hlocal, hne⟩ dst' hhop
      have hself : hopOf (mainConfig macs ip mask stale) dst = dst := by
        rw [hopOf_mainConfig, if_pos hlocal]
      rcases hopOf_mainConfig_eq macs ip mask stale hhop with rfl | hgateway
      · rw [hself]
      · exact absurd (hself.symm.trans hgateway) hne
  · refine iff_of_true (fun dst' hhop => ?_) (Or.inl hgw)
    rw [← hhop, hopOf_mainConfig]
    split_ifs with hlocal
    · rfl
    · rw [getInterfaceForIp_mainConfig, getInterfaceForIp_mainConfig, if_neg hgw,
        if_neg fun hlan => hlocal (Or.inl hlan)]

/-- A WAN network apart from the LAN: a host on the internet is asked for on one side. -/
theorem retry_interface_apart :
    AsksOnce (mainConfig (fun i => ⟨2, 0, 0, 0, 0, UInt8.ofNat i⟩) ⟨192, 168, 0, 2⟩
      ⟨255, 255, 255, 0⟩ 0) ⟨8, 8, 8, 8⟩ :=
  (retry_interface_iff _ _ _ _ _).2 (by decide)

/-- A WAN network that is the LAN's, too. -/
def overlapConfig : Config :=
  mainConfig (fun i => ⟨2, 0, 0, 0, 0, UInt8.ofNat i⟩) ⟨192, 168, 1, 50⟩ ⟨255, 255, 255, 0⟩ 0

/-- A host on the internet is asked for on the WAN side at first, and on the LAN side then. -/
theorem retry_interface_overlap :
    (overlapConfig.getInterfaceForIp ⟨8, 8, 8, 8⟩).val = 1 ∧
      hopOf overlapConfig ⟨8, 8, 8, 8⟩ = ⟨192, 168, 1, 1⟩ ∧
      (overlapConfig.getInterfaceForIp ⟨192, 168, 1, 1⟩).val = 0 ∧
      ¬ AsksOnce overlapConfig ⟨8, 8, 8, 8⟩ := by
  have hether : ∀ i, overlapConfig.interfaceGetType i = .ether := mainConfig_type _ _ _ _
  refine ⟨by decide +kernel, by decide +kernel, by decide +kernel, fun hask => ?_⟩
  have hsame := (asksOnce_iff hether _).1 hask ⟨8, 8, 8, 8⟩ rfl
  revert hsame
  decide +kernel

end NaptRouter
