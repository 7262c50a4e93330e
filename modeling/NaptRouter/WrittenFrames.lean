import NaptRouter.Learning
import NaptRouter.NodeLife
import NaptRouter.Traffic

/-!
# What the router writes

A frame that is written, read back the way `ethernet_handle` reads frames, is one of two things:
an ARP request of the interface that it is written to, or a packet for the owner of an address,
at the MAC address that a received frame gave for it (`written_frames`). So `arp_handle` answers
nobody, and nothing is sent to a MAC address that has not been heard of.
-/

namespace NaptRouter

open ByteMemory Runs

variable {cfg : Config} {r r' : Router} {T : IpAddr → MacAddr → Prop}

/-! ## The frames -/

/-- The frame of an ARP request. -/
def arpFrame (pkt : ArpHdr) : List UInt8 :=
  MacAddr.broadcast.bytes ++ pkt.senderMac.bytes ++ le16 (ntohs ethertypeArp) ++ pkt.bytes

/-- What is written to an interface, where `T ip mac` says that `mac` may belong to `ip`. -/
inductive Written (cfg : Config) (T : IpAddr → MacAddr → Prop) : Nat → List UInt8 → Prop
  | request {intId : cfg.IntId} (ether : cfg.interfaceGetType intId = .ether) (dst : IpAddr) :
      Written cfg T intId (arpFrame (arpRequest cfg intId dst))
  | forward {pkt : Mem} {mac : MacAddr}
      (ether : cfg.interfaceGetType (cfg.getInterfaceForIp (ipDst pkt)) = .ether)
      (owner : T (nextHop cfg pkt) mac) :
      Written cfg T (cfg.getInterfaceForIp (ipDst pkt))
        (ipv4Frame mac (cfg.interfaceGetMacAddr (cfg.getInterfaceForIp (ipDst pkt)))
          (fillChecksums pkt) (ntohs (totalLength (fillChecksums pkt))).toNat)

theorem Written.mono {T' : IpAddr → MacAddr → Prop} (hT : ∀ ip mac, T ip mac → T' ip mac)
    {intId : Nat} {frame : List UInt8} (h : Written cfg T intId frame) :
    Written cfg T' intId frame := by
  cases h with
  | request ether dst => exact .request ether dst
  | forward ether owner => exact .forward ether (hT _ _ owner)

/-- All that is known and all that has been written comes from what is told. -/
structure Told (cfg : Config) (T : IpAddr → MacAddr → Prop) (r : Router) : Prop where
  known : ∀ ip mac, macOf r.ipMacMap ip = some mac → T ip mac
  written : ∀ intId frame, .write intId frame ∈ r.log → Written cfg T intId frame

theorem Told.mono {T' : IpAddr → MacAddr → Prop} (hT : ∀ ip mac, T ip mac → T' ip mac)
    (h : Told cfg T r) : Told cfg T' r :=
  ⟨fun ip mac hmac => hT ip mac (h.known ip mac hmac), fun _ _ hw => (h.written _ _ hw).mono hT⟩

theorem Told.append (h : Told cfg T r) {es : List Event} (hmap : r'.ipMacMap = r.ipMacMap)
    (hlog : r'.log = r.log ++ es)
    (hes : ∀ intId frame, .write intId frame ∈ es → Written cfg T intId frame) :
    Told cfg T r' := by
  refine ⟨by rw [hmap]; exact h.known, fun intId frame hw => ?_⟩
  rw [hlog] at hw
  exact (List.mem_append.1 hw).elim (h.written intId frame) (hes intId frame)

theorem told_learn {pair : IpMacPair} (h : Told cfg T r) (hpair : T pair.ipAddr pair.macAddr) :
    Told cfg T (learn r pair) := by
  refine ⟨fun ip mac hmac => ?_, h.written⟩
  replace hmac : macOf (updateIpMacPair r.ipMacMap pair) ip = some mac := hmac
  rw [macOf_update] at hmac
  split_ifs at hmac with hip
  · rw [hip, ← Option.some.inj hmac]
    exact hpair
  · exact h.known ip mac hmac

/-! ## Sending -/

theorem written_arpEvents (intId : cfg.IntId) (dst : IpAddr) {n : Nat} {frame : List UInt8}
    (h : .write n frame ∈ arpEvents cfg (arpRequest cfg intId dst) intId) :
    Written cfg T n frame := by
  rw [arpEvents] at h
  cases htype : cfg.interfaceGetType intId with
  | ether =>
    rw [htype] at h
    cases List.mem_singleton.1 h
    exact .request htype dst
  | wifi =>
    rw [htype] at h
    cases h
  | unknown =>
    rw [htype] at h
    cases h

theorem told_sendIpv4 (h : Told cfg T r) (pkt : Mem) : Told cfg T (sendIpv4 cfg r pkt) := by
  have hmap := sendIpv4_ipMacMap cfg r pkt
  cases hres : hasMacForIp r.ipMacMap (nextHop cfg pkt) with
  | true =>
    rw [sendIpv4_resolved hres]
    split_ifs with hether
    · refine h.append rfl (Router.emit_log ..) fun intId frame hw => ?_
      cases List.mem_singleton.1 hw
      exact .forward hether (h.known _ _ (if_pos hres))
    · exact h
  | false =>
    have hasks := timerAddPacket_asks cfg { r with copies := r.copies + 1 } (queuedCopy r pkt)
      (cfg.getInterfaceForIp (ipDst pkt)) (nextHop cfg pkt)
    rw [← sendIpv4_unresolved hres, List.append_assoc] at hasks
    refine h.append hmap hasks fun intId frame hw => ?_
    rcases List.mem_append.1 hw with hw | hw
    · obtain ⟨-, -, hw⟩ := List.mem_flatMap.1 hw
      exact written_arpEvents _ _ hw
    · cases List.mem_singleton.1 hw

theorem told_timerUpdatePackets (h : Told cfg T r) (dst : IpAddr) :
    Told cfg T (timerUpdatePackets cfg r dst) := by
  rcases timerUpdatePackets_cases cfg r dst with ⟨-, heq⟩ | ⟨node, rest, timer, -, heq⟩
  · rw [heq]
    exact h
  · rw [heq]
    refine flushPkts_keeps (fun s q hs => ?_) node.pktList ⟨h.known, h.written⟩
    refine (told_sendIpv4 hs q.pkt).append rfl (Router.emit_log ..) fun intId frame hw => ?_
    cases List.mem_singleton.1 hw

/-! ## Expiry -/

theorem told_timerHandler (h : Told cfg T r) : Told cfg T (timerHandler cfg r) := by
  refine h.append (timerHandler_ipMacMap cfg r) (timerHandler_log cfg r) fun intId frame hw => ?_
  obtain ⟨node, -, hw⟩ := List.mem_flatMap.1 hw
  rw [expiryLog] at hw
  split_ifs at hw
  · obtain ⟨q, -, hdiscard⟩ := List.mem_map.1 hw
    cases hdiscard
  · exact written_arpEvents _ _ hw

/-! ## Frames -/

/-- **One frame** adds what it says of its sender to what is told. -/
theorem told_ethernetHandle {f : Frame cfg} (h : Told cfg T r)
    (hstep : ethernetHandle cfg r f = some r')
    (hlearned : ∀ pair ∈ learned f.bytes, T pair.ipAddr pair.macAddr) : Told cfg T r' := by
  rw [ethernetHandle] at hstep
  rw [learned] at hlearned
  by_cases hipv4 : ntohs (ethertype f.bytes) = ethertypeIpv4
  · rw [if_pos hipv4] at hstep hlearned
    have hsender := told_learn h (hlearned _ rfl)
    obtain ⟨napt, rfl | ⟨pkt, rfl⟩⟩ := ipv4Handle_cases hstep
    · exact ⟨hsender.known, hsender.written⟩
    · exact told_sendIpv4 (r := { learn r _ with napt }) ⟨hsender.known, hsender.written⟩ pkt
  · rw [if_neg hipv4] at hstep hlearned
    by_cases harp : ntohs (ethertype f.bytes) = ethertypeArp
    · rw [if_pos harp] at hstep hlearned
      rw [← Option.some.inj hstep, arpHandle]
      cases hvalid : arpValid (ArpHdr.read (payload f.bytes) 0) with
      | false => exact h
      | true =>
        exact told_timerUpdatePackets (told_learn h (hlearned _ (if_pos hvalid))) _
    · rw [if_neg harp] at hstep
      exact Option.some.inj hstep ▸ h

/-- A frame that was received says that the address has the MAC address. -/
def Claimed (tr : List (Step Router (WireInput cfg))) (ip : IpAddr) (mac : MacAddr) : Prop :=
  ∃ t ∈ tr, ∃ f, t.input = .frame f ∧ learned f.bytes = some ⟨ip, mac⟩

theorem told_of_run {s : Router} {tr : List (Step Router (WireInput cfg))}
    (h : Run (wireStep cfg) routerInit tr s) : Told cfg (Claimed tr) s := by
  induction h with
  | nil =>
    refine ⟨fun ip mac hmac => ?_, fun intId frame hw => ?_⟩
    · cases hmac
    · cases hw
  | @snoc tr s s' i _ hstep ih =>
    have hmono (ip : IpAddr) (mac : MacAddr) (hc : Claimed tr ip mac) :
        Claimed (tr ++ [⟨s, i, s'⟩]) ip mac := by
      obtain ⟨t, ht, hf⟩ := hc
      exact ⟨t, List.mem_append_left _ ht, hf⟩
    replace ih := ih.mono hmono
    cases i with
    | frame f =>
      refine told_ethernetHandle ih hstep fun pair hpair => ?_
      exact ⟨_, List.mem_append_right _ List.mem_cons_self, f, rfl, hpair⟩
    | timer =>
      obtain rfl : timerHandler cfg s = s' := Option.some.inj hstep
      exact told_timerHandler ih
    | elapse nsec =>
      obtain rfl : { s with timer := s.timer - nsec } = s' := Option.some.inj hstep
      exact ⟨ih.known, ih.written⟩

/-! ## Reading a frame back -/

/-- `pkt_ptr->mac_dst`. -/
def macDst (frame : Mem) : MacAddr := .read frame 0

theorem MacAddr.read_of_bytes {m : Mem} {off : Nat} {mac : MacAddr}
    (h : m.read off 6 = mac.bytes) : MacAddr.read m off = mac := by
  cases mac
  simpa [Mem.read, MacAddr.bytes, MacAddr.read, List.range_succ] using h

theorem ArpHdr.read_of_bytes {m : Mem} {off : Nat} {pkt : ArpHdr}
    (h : m.read off 28 = pkt.bytes) : ArpHdr.read m off = pkt := by
  have hslice {i k : Nat} (hik : i + k ≤ 28) :
      m.read (off + i) k = (pkt.bytes.drop i).take k := by
    rw [Mem.read_slice m off hik, h]
  have hbyte {i : Nat} {b : UInt8} (hb : m.read (off + i) 1 = [b]) : m (off + i) = b := by
    simpa [Mem.read] using hb
  have hhardware : m.load16 off = pkt.hardwareType := load16_of_read (hslice (i := 0) (by decide))
  have hprotocol : m.load16 (off + 2) = pkt.protocolType := load16_of_read (hslice (by decide))
  have hhardwareLength : m (off + 4) = pkt.hardwareLength := hbyte (hslice (by decide))
  have hprotocolLength : m (off + 5) = pkt.protocolLength := hbyte (hslice (by decide))
  have hoperation : m.load16 (off + 6) = pkt.operation := load16_of_read (hslice (by decide))
  have hsenderMac : MacAddr.read m (off + 8) = pkt.senderMac :=
    MacAddr.read_of_bytes (hslice (by decide))
  have hsenderIp : IpAddr.read m (off + 14) = pkt.senderIp :=
    IpAddr.read_eq_iff.2 (hslice (by decide))
  have htargetMac : MacAddr.read m (off + 18) = pkt.targetMac :=
    MacAddr.read_of_bytes (hslice (by decide))
  have htargetIp : IpAddr.read m (off + 24) = pkt.targetIp :=
    IpAddr.read_eq_iff.2 (hslice (by decide))
  rw [ArpHdr.read, hhardware, hprotocol, hhardwareLength, hprotocolLength, hoperation, hsenderMac,
    hsenderIp, htargetMac, htargetIp]

/-- The buffer holds a frame with these fields. -/
structure HoldsFrame (m : Mem) (dst src : MacAddr) (type : UInt16) (body : List UInt8) : Prop where
  macDst : macDst m = dst
  macSrc : macSrc m = src
  ethertype : ntohs (ethertype m) = type
  body : (payload m).read 0 body.length = body

theorem holdsFrame {m : Mem} (dst : MacAddr) {src : MacAddr} {type : UInt16}
    {body frame : List UInt8}
    (hframe : frame = dst.bytes ++ src.bytes ++ le16 (ntohs type) ++ body)
    (hm : m.read 0 frame.length = frame) : HoldsFrame m dst src type body := by
  have hlen : frame.length = 14 + body.length := by
    rw [hframe]
    simp [MacAddr.bytes, le16]
    omega
  have hslice {i k : Nat} (hik : i + k ≤ 14 + body.length) :
      m.read i k = (frame.drop i).take k := by
    have hread := Mem.read_slice m 0 (hlen ▸ hik : i + k ≤ frame.length)
    rwa [hm, Nat.zero_add] at hread
  refine ⟨MacAddr.read_of_bytes ?_, MacAddr.read_of_bytes ?_, ?_, ?_⟩
  · rw [hslice (by omega), hframe]
    rfl
  · rw [hslice (by omega), hframe]
    rfl
  · have htype : m.load16 12 = ntohs type := by
      apply load16_of_read
      rw [hslice (by omega), hframe]
      rfl
    rw [ethertype, htype, ntohs_ntohs]
  · have hbody : (payload m).read 0 body.length = m.read 14 body.length := by
      apply Mem.read_congr
      intro i hi
      rw [Nat.zero_add]
      rfl
    rw [hbody, hslice le_rfl, hframe]
    exact List.take_length ..

/-- What a request says, and that the reader learns who asks. -/
theorem reads_arpFrame {m : Mem} {pkt : ArpHdr}
    (hm : m.read 0 (arpFrame pkt).length = arpFrame pkt) :
    HoldsFrame m MacAddr.broadcast pkt.senderMac ethertypeArp pkt.bytes ∧
      ArpHdr.read (payload m) 0 = pkt ∧
      learned m = if arpValid pkt then some ⟨pkt.senderIp, pkt.senderMac⟩ else none := by
  have hframe := holdsFrame MacAddr.broadcast rfl hm
  have hread : ArpHdr.read (payload m) 0 = pkt := ArpHdr.read_of_bytes hframe.body
  refine ⟨hframe, hread, ?_⟩
  rw [learned, hframe.ethertype, hread]
  rfl

theorem arpValid_arpRequest (intId : cfg.IntId) (dst : IpAddr) :
    arpValid (arpRequest cfg intId dst) =
      !ipAddrEquals (cfg.interfaceGetIp intId) ⟨0, 0, 0, 0⟩ := by
  simp [arpValid, arpRequest, ntohs_ntohs]

/-- The frame in the buffer is a request of the interface, for all to hear. Another router that
reads it learns the addresses of the interface. -/
structure Asks (cfg : Config) (intId : cfg.IntId) (frame : List UInt8) (m : Mem) : Prop where
  length : frame.length = 42
  ethertype : ntohs (ethertype m) = ethertypeArp
  macDst : macDst m = MacAddr.broadcast
  request : ∃ dst, ArpHdr.read (payload m) 0 = arpRequest cfg intId dst
  learned : cfg.interfaceGetIp intId ≠ ⟨0, 0, 0, 0⟩ →
    learned m = some ⟨cfg.interfaceGetIp intId, cfg.interfaceGetMacAddr intId⟩

/-- The frame in the buffer carries a packet, with its checksums, to a MAC address that a received
frame gave for the next hop. -/
structure HoldsPacket (cfg : Config) (tr : List (Step Router (WireInput cfg))) (intId : cfg.IntId)
    (frame : List UInt8) (m pkt : Mem) : Prop where
  length : frame.length = 14 + (ntohs (totalLength (fillChecksums pkt))).toNat
  ethertype : ntohs (ethertype m) = ethertypeIpv4
  body : (payload m).read 0 (ntohs (totalLength (fillChecksums pkt))).toNat =
    (fillChecksums pkt).read 0 (ntohs (totalLength (fillChecksums pkt))).toNat
  intId : intId = cfg.getInterfaceForIp (ipDst pkt)
  claimed : Claimed tr (nextHop cfg pkt) (macDst m)
  destination : WellFormed pkt → ipDst (payload m) = ipDst pkt

theorem asks_arpFrame {m : Mem} (intId : cfg.IntId) (dst : IpAddr)
    (hm : m.read 0 (arpFrame (arpRequest cfg intId dst)).length =
      arpFrame (arpRequest cfg intId dst)) :
    Asks cfg intId (arpFrame (arpRequest cfg intId dst)) m := by
  obtain ⟨hframe, hread, hlearned⟩ := reads_arpFrame hm
  refine ⟨rfl, hframe.ethertype, hframe.macDst, ⟨dst, hread⟩, fun hip => ?_⟩
  rw [hlearned, arpValid_arpRequest, Bool.eq_false_iff.2 (mt ipAddrEquals_iff.1 hip)]
  rfl

theorem holdsPacket_ipv4Frame {tr : List (Step Router (WireInput cfg))} {m pkt : Mem}
    {mac srcMac : MacAddr} {frame : List UInt8} (hc : Claimed tr (nextHop cfg pkt) mac)
    (hframe : frame = ipv4Frame mac srcMac (fillChecksums pkt)
      (ntohs (totalLength (fillChecksums pkt))).toNat)
    (hm : m.read 0 frame.length = frame) :
    macSrc m = srcMac ∧ HoldsPacket cfg tr (cfg.getInterfaceForIp (ipDst pkt)) frame m pkt := by
  obtain ⟨hdst, hsrc, htype, hbody⟩ := holdsFrame mac hframe hm
  rw [Mem.length_read] at hbody
  refine ⟨hsrc, ?_, htype, hbody, rfl, hdst ▸ hc, fun hpkt => ?_⟩
  · rw [hframe, ipv4Frame, List.length_append, Mem.length_read]
    rfl
  · have hheader : 20 ≤ headerLen pkt := hpkt.1
    have hlen : 20 ≤ (ntohs (totalLength pkt)).toNat := by
      have hsegment := hpkt.2
      omega
    have htotal : totalLength (fillChecksums pkt) = totalLength pkt :=
      load16_congr (Mem.read_congr fun i hi =>
        fillChecksums_apply (by omega) (by omega) (by omega))
    rw [htotal] at hbody
    apply IpAddr.read_congr
    apply Mem.read_congr
    intro i hi
    have hbyte := Mem.read_eq_iff.1 hbody (16 + i) (by omega)
    rw [Nat.zero_add] at hbyte
    rw [hbyte]
    exact fillChecksums_apply (by omega) (by omega) (by omega)

/-- **What is written.** In every run, every frame that has been written, read into any buffer,
comes from the interface that it was written to, and is an ARP request of that interface or
carries a packet to the MAC address that a received frame gave for its next hop. -/
theorem written_frames {s : Router} {tr : List (Step Router (WireInput cfg))}
    (h : Run (wireStep cfg) routerInit tr s) {n : Nat} {frame : List UInt8}
    (hw : .write n frame ∈ s.log) {m : Mem} (hm : m.read 0 frame.length = frame) :
    ∃ intId : cfg.IntId, n = intId ∧ cfg.interfaceGetType intId = .ether ∧
      macSrc m = cfg.interfaceGetMacAddr intId ∧
      (Asks cfg intId frame m ∨ ∃ pkt, HoldsPacket cfg tr intId frame m pkt) := by
  have hwritten := (told_of_run h).written n frame hw
  cases hwritten with
  | @request intId ether dst =>
    exact ⟨intId, rfl, ether, (reads_arpFrame hm).1.macSrc, Or.inl (asks_arpFrame intId dst hm)⟩
  | @forward pkt mac ether owner =>
    obtain ⟨hsrc, hpacket⟩ := holdsPacket_ipv4Frame owner rfl hm
    exact ⟨_, rfl, ether, hsrc, Or.inr ⟨pkt, hpacket⟩⟩

/-- The packet that a LAN host sends goes to the gateway when the gateway has answered. -/
theorem written_frames_retried :
    ∃ tr s frame, Run (wireStep shippedConfig) routerInit tr s ∧
      tr.map (·.input) = retriedPacket ++ [.timer] ∧ .write 1 frame ∈ s.log ∧
      ∃ pkt, HoldsPacket shippedConfig tr ⟨1, by decide⟩ frame (Mem.zero.write 0 frame) pkt := by
  obtain ⟨tr, t, hrun, hinputs, hlast⟩ := exists_run_snoc (wireStep shippedConfig) routerInit
    retriedPacket .timer
    (fun _ t => t.post.log.any fun
      | .write 1 frame => decide (ntohs (ethertype (Mem.zero.write 0 frame)) = ethertypeIpv4)
      | _ => false) (by decide +kernel)
  obtain ⟨e, he, htest⟩ := List.any_eq_true.1 hlast
  match e, htest with
  | .write 1 frame, htest =>
    have htype := of_decide_eq_true htest
    refine ⟨tr ++ [t], t.post, frame, hrun, hinputs, he, ?_⟩
    obtain ⟨intId, hn, -, -, hasks | ⟨pkt, hpacket⟩⟩ :=
      written_frames hrun he (Mem.read_write_same Mem.zero 0 frame)
    · cases hasks.ethertype.symm.trans htype
    · exact ⟨pkt, (Fin.ext hn : (⟨1, by decide⟩ : shippedConfig.IntId) = intId) ▸ hpacket⟩

end NaptRouter
