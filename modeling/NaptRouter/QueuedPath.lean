import NaptRouter.ArpQueue
import NaptRouter.ReceivedLength
import NaptRouter.TimerRuns

/-!
# The queued path and the direct path

A packet whose next hop has no MAC address goes through `send_ipv4` twice: it is copied with its
checksums filled in, and the copy is sent when the next hop answers. The frame is the one that a
single call writes where the next hop has the MAC address of the answer (`queued_path_direct`).
-/

namespace NaptRouter

open ByteMemory Runs

variable {cfg : Config}

/-! ## The frame of the copy -/

/-- The copy is the packet with its checksums, to its end. -/
theorem queuedCopy_agree (r : Router) (pkt : Mem) :
    AgreeTo (ntohs (totalLength (fillChecksums pkt))).toNat (fillChecksums pkt)
      (queuedCopy r pkt).pkt :=
  fun _ hi => (Mem.write_read_apply (fillChecksums pkt) Mem.zero hi).symm

/-- **The copy gives the frame of the packet.** -/
theorem transmission_queuedCopy (cfg : Config) (r : Router) {pkt : Mem} (h : SegmentInside pkt)
    (mac : MacAddr) :
    transmission cfg mac (queuedCopy r pkt).pkt = transmission cfg mac pkt := by
  obtain ⟨h20, htotal⟩ := h.wellFormed
  have hsame := sameLengths_fillChecksums h
  have hreach := (hsame.segmentInside h).sendReach_le
  have hfill := fillChecksums_agree (queuedCopy_agree r pkt) hreach
  rw [fillChecksums_idem h] at hfill
  have hlen :
      totalLength (fillChecksums pkt) = totalLength (fillChecksums (queuedCopy r pkt).pkt) :=
    hfill.load16 (by rw [hsame.total]; omega)
  have hread := hfill.read (Nat.le_of_eq (Nat.zero_add _))
  simp only [transmission, ipv4Frame, ipDst_queuedCopy r h.wellFormed]
  rw [← hlen, hread]

/-! ## Flushing -/

theorem flushPkts_append (nh : IpAddr) (pkts pkts' : List QueuedPkt) (r : Router) :
    flushPkts cfg nh (pkts ++ pkts') r = flushPkts cfg nh pkts' (flushPkts cfg nh pkts r) := by
  induction pkts generalizing r with
  | nil => rfl
  | cons q rest ih => exact ih _

theorem flushPkts_log (cfg : Config) (nh : IpAddr) (pkts : List QueuedPkt) (r : Router) :
    r.log <+: (flushPkts cfg nh pkts r).log := by
  refine flushPkts_keeps (P := fun s => r.log <+: s.log) (fun s q hs => ?_) pkts List.prefix_rfl
  obtain ⟨es, hlog, -⟩ := sendIpv4_log cfg s q.pkt
  rw [Router.emit_log, hlog, List.append_assoc]
  exact hs.trans (List.prefix_append ..)

theorem sendIpv4_direct {r : Router} {pkt : Mem} {nh : IpAddr} (hroute : Routed cfg pkt nh)
    {mac : MacAddr} (hmac : macOf r.ipMacMap nh = some mac) :
    sendIpv4 cfg r pkt = r.emit (transmission cfg mac pkt) := by
  obtain ⟨rfl, hether⟩ := hroute
  rw [macOf] at hmac
  split_ifs at hmac with hres
  rw [sendIpv4_resolved hres, if_pos hether, Option.some.inj hmac]
  rfl

theorem flushPkts_sends {r : Router} {nh : IpAddr} {pkts : List QueuedPkt} {q : QueuedPkt}
    (hq : q ∈ pkts) (hroute : Routed cfg q.pkt nh) {mac : MacAddr}
    (hmac : macOf r.ipMacMap nh = some mac) :
    ∃ es, (flushPkts cfg nh pkts r).log = r.log ++ es ∧
      [transmission cfg mac q.pkt, .flushed q nh] <:+: es := by
  obtain ⟨sent, left, rfl⟩ := List.append_of_mem hq
  have hmap : (flushPkts cfg nh sent r).ipMacMap = r.ipMacMap := flushPkts_ipMacMap nh sent r
  rw [← hmap] at hmac
  obtain ⟨before, hbefore⟩ := flushPkts_log cfg nh sent r
  rw [flushPkts_append, flushPkts, sendIpv4_direct hroute hmac]
  obtain ⟨after, hafter⟩ := flushPkts_log cfg nh left
    (((flushPkts cfg nh sent r).emit (transmission cfg mac q.pkt)).emit (.flushed q nh))
  refine ⟨before ++ [transmission cfg mac q.pkt, .flushed q nh] ++ after, ?_, before, after, rfl⟩
  rw [← hafter, Router.emit_log, Router.emit_log, ← hbefore]
  simp

/-- **An answer sends what waits** for its sender. -/
theorem arpHandle_sends {r : Router} (hnd : (addrs r.deltaList).Nodup) {arp : ArpHdr}
    (hvalid : arpValid arp = true) {q : QueuedPkt} (hq : q ∈ waiting r.deltaList arp.senderIp)
    (hroute : Routed cfg q.pkt arp.senderIp) (intId : cfg.IntId) (src : MacAddr) :
    ∃ es, (arpHandle cfg r arp intId src).log = r.log ++ es ∧
      [transmission cfg arp.senderMac q.pkt, .flushed q arp.senderIp] <:+: es := by
  have hspec := unlinkNode_spec arp.senderIp r.deltaList
  have hmac : macOf (updateIpMacPair r.ipMacMap ⟨arp.senderIp, arp.senderMac⟩) arp.senderIp =
      some arp.senderMac := by
    rw [macOf_update, if_pos rfl]
  rw [arpHandle, hvalid]
  rcases timerUpdatePackets_cases cfg (learn r ⟨arp.senderIp, arp.senderMac⟩) arp.senderIp with
    ⟨hnone, -⟩ | ⟨node, rest, timer, hsome, heq⟩
  · rw [show unlinkNode arp.senderIp r.deltaList = none from hnone] at hspec
    rw [waiting_eq_nil hspec] at hq
    cases hq
  · rw [show unlinkNode arp.senderIp r.deltaList = some (node, rest) from hsome] at hspec
    obtain ⟨hmem, haddr, -, -⟩ := hspec
    rw [← haddr, waiting_of_mem hnd hmem] at hq
    obtain ⟨es, hlog, hes⟩ := flushPkts_sends hq hroute hmac
      (r := { learn r ⟨arp.senderIp, arp.senderMac⟩ with timer, deltaList := rest })
    exact ⟨es, (congrArg Router.log heq).trans hlog, hes⟩

/-! ## Runs -/

/-- One call, with a packet of any form. -/
def queueCall (cfg : Config) (r : Router) : QueueInput cfg → Option Router
  | .send pkt => some (sendIpv4 cfg r pkt)
  | .arp pkt intId src => some (arpHandle cfg r pkt intId src)
  | .timer => some (timerHandler cfg r)
  | .elapse nsec => some { r with timer := r.timer - nsec }

theorem deltaOk_queueCall {r r' : Router} {i : QueueInput cfg} (h : DeltaOk r.deltaList)
    (hcall : queueCall cfg r i = some r') : DeltaOk r'.deltaList := by
  cases i with
  | send pkt =>
    rw [← Option.some.inj hcall]
    exact deltaOk_sendIpv4 cfg h pkt
  | arp pkt intId src =>
    rw [← Option.some.inj hcall, arpHandle]
    split_ifs
    · exact h
    · exact deltaOk_timerUpdatePackets (r := learn r ⟨pkt.senderIp, pkt.senderMac⟩) h _
  | timer =>
    rw [← Option.some.inj hcall]
    exact deltaOk_timerHandler h
  | elapse nsec =>
    rw [← Option.some.inj hcall]
    exact h

/-- `nh` answers with `mac`. -/
def Answers (nh : IpAddr) (mac : MacAddr) (i : QueueInput cfg) : Prop :=
  ∃ arp intId src, i = .arp arp intId src ∧ arpValid arp = true ∧ arp.senderIp = nh ∧
    arp.senderMac = mac

/-- **The queued path sends what the direct path sends.** In a run of any calls, a packet on
Ethernet whose segment is inside it is sent while its next hop is not resolved. The copy is then
queued; and if it still waits when the next hop answers, the frame written for it is the one that
`send_ipv4` writes for the packet in any state where the next hop has the MAC address of the
answer. -/
theorem queued_path_direct (cfg : Config) (r : Router)
    {before after : List (Step Router (QueueInput cfg))} {t : Step Router (QueueInput cfg)}
    {s : Router} (h : Run (queueCall cfg) (emptyQueue r) (before ++ t :: after) s) {pkt : Mem}
    (hpkt : SegmentInside pkt)
    (hether : cfg.interfaceGetType (cfg.getInterfaceForIp (ipDst pkt)) = .ether)
    (hsend : t.input = .send pkt)
    (hunresolved : hasMacForIp t.pre.ipMacMap (nextHop cfg pkt) = false) :
    queuedCopy t.pre pkt ∈ waiting t.post.deltaList (nextHop cfg pkt) ∧
      ∀ u ∈ after, ∀ mac, Answers (nextHop cfg pkt) mac u.input →
        queuedCopy t.pre pkt ∈ waiting u.pre.deltaList (nextHop cfg pkt) →
          ∀ d : Router, macOf d.ipMacMap (nextHop cfg pkt) = some mac →
            ∃ intId frame, sendIpv4 cfg d pkt = d.emit (.write intId frame) ∧
              [.write intId frame, .flushed (queuedCopy t.pre pkt) (nextHop cfg pkt)] <:+:
                emitted u := by
  have hdelta {tr : List (Step Router (QueueInput cfg))} {s : Router}
      (h : Run (queueCall cfg) (emptyQueue r) tr s) : DeltaOk s.deltaList :=
    h.invariant (I := fun s => DeltaOk s.deltaList) deltaOk_nil
      fun _ _ _ hs hcall => deltaOk_queueCall hs hcall
  obtain ⟨hbefore, hstep, -⟩ := h.cut
  constructor
  · rw [hsend, queueCall, Option.some.injEq, sendIpv4_unresolved hunresolved] at hstep
    rw [← hstep, (timerAddPacket_waiting cfg (r := { t.pre with copies := t.pre.copies + 1 })
      (hdelta hbefore).nodup _ _ _).1]
    exact List.mem_append_right _ List.mem_cons_self
  · intro u hu mac hanswer hwait d hmac
    obtain ⟨mid, rest, rfl⟩ := List.append_of_mem hu
    rw [← List.cons_append, ← List.append_assoc] at h
    obtain ⟨hmid, hcall, -⟩ := h.cut
    obtain ⟨arp, intId, src, harp, hvalid, hsender, rfl⟩ := hanswer
    have hroute : Routed cfg (queuedCopy t.pre pkt).pkt arp.senderIp := by
      rw [hsender, Routed, nextHop, ipDst_queuedCopy t.pre hpkt.wellFormed]
      exact ⟨rfl, hether⟩
    rw [← hsender] at hwait
    -- What is sent from the queue is the transmission of the copy, which has the packet's bytes.
    obtain ⟨es, hlog, hes⟩ := arpHandle_sends (hdelta hmid).nodup hvalid hwait hroute intId src
    rw [transmission_queuedCopy cfg t.pre hpkt, hsender] at hes
    rw [harp, queueCall, Option.some.injEq] at hcall
    rw [hcall] at hlog
    refine ⟨_, _, sendIpv4_direct ⟨rfl, hether⟩ hmac, ?_⟩
    rw [emitted_eq hlog]
    exact hes

/-- A UDP datagram with a checksum and one byte of payload, for a host that answers. -/
theorem queued_path_direct_odd :
    ∃ pkt t u, Run (queueCall shippedConfig) (emptyQueue routerInit) [t, u] u.post ∧
      t.input = .send pkt ∧ Summed pkt ∧ segmentLen pkt = 9 ∧
      ∃ intId frame,
        sendIpv4 shippedConfig (learn routerInit ⟨⟨192, 168, 1, 100⟩, ⟨2, 0, 0, 0, 0, 1⟩⟩) pkt =
          (learn routerInit ⟨⟨192, 168, 1, 100⟩, ⟨2, 0, 0, 0, 0, 1⟩⟩).emit (.write intId frame) ∧
        [.write intId frame, .flushed (queuedCopy t.pre pkt) ⟨192, 168, 1, 100⟩] <:+:
          emitted u := by
  let pkt := Mem.zero.write 0 ([0x45, 0, 0, 29, 0, 0, 0, 0, 64, 17, 0, 0, 8, 8, 8, 8,
    192, 168, 1, 100, 0, 53, 0x13, 0x88, 0, 9, 0xAB, 0xCD, 0x7F])
  let answer : ArpHdr :=
    { hardwareType := ntohs 1, protocolType := ntohs 0x0800, hardwareLength := 6,
      protocolLength := 4, operation := ntohs 2, senderMac := ⟨2, 0, 0, 0, 0, 1⟩,
      senderIp := ⟨192, 168, 1, 100⟩, targetMac := ⟨2, 0, 0, 0, 0, 9⟩,
      targetIp := ⟨192, 168, 1, 1⟩ }
  let t : Step Router (QueueInput shippedConfig) :=
    ⟨emptyQueue routerInit, .send pkt, sendIpv4 shippedConfig (emptyQueue routerInit) pkt⟩
  let u : Step Router (QueueInput shippedConfig) :=
    ⟨t.post, .arp answer ⟨0, by decide⟩ ⟨2, 0, 0, 0, 0, 1⟩,
      arpHandle shippedConfig t.post answer ⟨0, by decide⟩ ⟨2, 0, 0, 0, 0, 1⟩⟩
  have hrun : Run (queueCall shippedConfig) (emptyQueue routerInit) ([] ++ t :: [u]) u.post :=
    (Run.nil.snoc rfl).snoc rfl
  obtain ⟨hqueued, hsent⟩ := queued_path_direct shippedConfig routerInit hrun
    ⟨by decide, by decide⟩ (by decide) rfl (by decide)
  have hanswers : Answers (nextHop shippedConfig pkt) ⟨2, 0, 0, 0, 0, 1⟩ u.input :=
    ⟨answer, _, _, rfl, by decide, by decide, rfl⟩
  refine ⟨pkt, t, u, hrun, rfl, Or.inr (by decide), by decide, ?_⟩
  have hsame := hsent u List.mem_cons_self _ hanswers hqueued
    (learn routerInit ⟨⟨192, 168, 1, 100⟩, ⟨2, 0, 0, 0, 0, 1⟩⟩) (by decide)
  have hnext : nextHop shippedConfig pkt = ⟨192, 168, 1, 100⟩ := by decide
  rwa [hnext] at hsame

end NaptRouter
