import NaptRouter.Egress
import NaptRouter.Learning
import NaptRouter.Segments

/-!
# What is read of a frame

`thread_start` reads a frame into a buffer that it uses for every frame, and does not pass on how
many bytes `read` has returned. How far `ethernet_handle` then reads depends on the lengths in
the packet (`sendReach`), and on the state: a packet that the firewall drops is not copied.

A frame that is read no further than it was received has the same effects whatever the buffer
holds after it (`noninterfering_of_covered`).
-/

namespace NaptRouter

open ByteMemory

variable {cfg : Config}

/-! ## How far a packet is read -/

/-- The bytes of the segment that are read to fill in its checksum. -/
def segmentReach (pkt : Mem) : Nat :=
  if protocol pkt = 0x11 then
    if udpChecksum pkt ≠ 0 then max 8 (ntohs (udpLength pkt (headerLen pkt))).toNat else 8
  else if protocol pkt = 0x06 then
    (ntohs (totalLength pkt) - UInt16.ofNat (headerLen pkt)).toNat
  else 0

/-- The end of what `send_ipv4` reads of a packet: the header, the segment, and the bytes that are
copied. -/
def sendReach (pkt : Mem) : Nat :=
  max 20 (max (headerLen pkt + segmentReach (headerChecksum pkt))
    (ntohs (totalLength (fillChecksums pkt))).toNat)

/-- The ports of a packet that is translated are among its first `n` bytes. -/
def PortsCovered (cfg : Config) (n : Nat) (pkt : Mem) (intId : cfg.IntId) : Prop :=
  (ipv4Path cfg pkt intId = .inc ∨ ipv4Path cfg pkt intId = .out) →
    (transportPorts pkt).isSome = true → headerLen pkt + 4 ≤ n

/-- `ipv4_handle` reads no more than the first `n` bytes of the packet. -/
structure PacketCovered (cfg : Config) (n : Nat) (napt : Napt) (i : Ipv4Input cfg) : Prop where
  ports : PortsCovered cfg n i.pkt i.intId
  sent : ∀ pkt, sentPacket cfg napt i = some pkt → sendReach pkt ≤ n

/-- The two types that `arp_handle` looks for. -/
def ArpTypes (pkt : ArpHdr) : Prop :=
  ntohs pkt.protocolType = 0x0800 ∧ ntohs pkt.hardwareType = 0x0001

/-- Every sender that the frame can have, by its first `n` bytes, is in the map with the MAC
address that comes with it, and no packet waits for it. -/
def SenderSettled (n : Nat) (r : Router) (frame : Mem) : Prop :=
  ∀ frame', AgreeTo n frame frame' → ∀ pair, learned frame' = some pair →
    macOf r.ipMacMap pair.ipAddr = some pair.macAddr ∧ pair.ipAddr ∉ addrs r.deltaList

/-- In this state `ethernet_handle` depends on no more than the first `n` bytes of the frame: it
reads no others, or a sender that makes no difference. -/
structure FrameCovered (cfg : Config) (n : Nat) (r : Router) (f : Frame cfg) : Prop where
  header : 14 ≤ n
  ipv4 : ntohs (ethertype f.bytes) = ethertypeIpv4 →
    34 ≤ n ∧ PacketCovered cfg (n - 14) r.napt f.ipv4
  arp : ntohs (ethertype f.bytes) = ethertypeArp →
    18 ≤ n ∧ (ArpTypes (.read (payload f.bytes) 0) → 32 ≤ n ∨ SenderSettled n r f.bytes)

/-! ## Packets that agree as far as they are read -/

section Agree

variable {n : Nat} {p p' : Mem}

theorem calculateChecksum_agree (h : AgreeTo n p p') {ptr len : Nat} (hlen : ptr + len ≤ n) :
    (calculateChecksum p ptr len).1 = (calculateChecksum p' ptr len).1 ∧
      AgreeTo n (calculateChecksum p ptr len).2 (calculateChecksum p' ptr len).2 := by
  refine ⟨calculateChecksum_congr (h.read hlen), ?_⟩
  simp only [calculateChecksum]
  split_ifs
  · exact h.write _ _
  · exact h

/-- The fields in the fixed part of the header. -/
structure SameHeader (p p' : Mem) : Prop where
  headerLen : headerLen p = headerLen p'
  totalLength : totalLength p = totalLength p'
  protocol : protocol p = protocol p'
  ipSrc : ipSrc p = ipSrc p'
  ipDst : ipDst p = ipDst p'

theorem sameHeader (h : AgreeTo n p p') (h20 : 20 ≤ n) : SameHeader p p' where
  headerLen := headerLen_congr (h 0 (by omega))
  totalLength := h.load16 (by omega)
  protocol := h 9 (by omega)
  ipSrc := IpAddr.read_congr (h.read (by omega))
  ipDst := IpAddr.read_congr (h.read (by omega))

theorem transportChecksum_agree (h : AgreeTo n p p') (h20 : 20 ≤ n) {off len : Nat}
    (checksumOff : Nat) (udpLength : UInt16) (hlen : off + len ≤ n) :
    (transportChecksum p off checksumOff len udpLength).1 =
        (transportChecksum p' off checksumOff len udpLength).1 ∧
      AgreeTo n (transportChecksum p off checksumOff len udpLength).2
        (transportChecksum p' off checksumOff len udpLength).2 := by
  have hfields := sameHeader h h20
  have hpseudo : pseudoHdr p udpLength = pseudoHdr p' udpLength := by
    rw [pseudoHdr, pseudoHdr, hfields.ipSrc, hfields.ipDst, hfields.protocol]
  simp only [transportChecksum]
  rw [hpseudo]
  exact calculateChecksum_agree (h.store16 _ _) hlen

theorem headerChecksum_agree (h : AgreeTo n p p') (h20 : 20 ≤ n) (hlen : headerLen p ≤ n) :
    AgreeTo n (headerChecksum p) (headerChecksum p') := by
  have hzero : AgreeTo n (setChecksum p 0) (setChecksum p' 0) := h.store16 _ _
  have hlen' : headerLen (setChecksum p 0) = headerLen p :=
    headerLen_congr (setChecksum_apply _ _ (by decide) (by decide))
  obtain ⟨hsum, hagree⟩ := calculateChecksum_agree hzero
    (by omega : 0 + headerLen (setChecksum p 0) ≤ n)
  rw [headerChecksum, headerChecksum, ← (sameHeader hzero h20).headerLen]
  simp only
  rw [← hsum]
  exact hagree.store16 _ _

theorem segmentChecksum_agree (h : AgreeTo n p p') (h20 : 20 ≤ n)
    (hlen : headerLen p + segmentReach p ≤ n) :
    AgreeTo n (segmentChecksum p) (segmentChecksum p') := by
  have hfields := sameHeader h h20
  -- The field is filled in from the sum, whichever protocol it is.
  have hstore {checksumOff len : Nat} (udpLength : UInt16) (hlen : headerLen p + len ≤ n)
      (value : UInt16 → UInt16) :
      AgreeTo n
        ((transportChecksum p (headerLen p) checksumOff len udpLength).2.store16
          (headerLen p + checksumOff)
          (value (transportChecksum p (headerLen p) checksumOff len udpLength).1))
        ((transportChecksum p' (headerLen p) checksumOff len udpLength).2.store16
          (headerLen p + checksumOff)
          (value (transportChecksum p' (headerLen p) checksumOff len udpLength).1)) := by
    obtain ⟨hsum, hagree⟩ := transportChecksum_agree h h20 checksumOff udpLength hlen
    rw [hsum]
    exact hagree.store16 _ _
  rw [segmentReach] at hlen
  rw [segmentChecksum, segmentChecksum, ← hfields.headerLen, ← hfields.protocol,
    ← hfields.totalLength]
  by_cases hudp : protocol p = 0x11
  · rw [if_pos hudp] at hlen
    have h8 : headerLen p + 8 ≤ n := by
      split_ifs at hlen <;> omega
    have hsum : udpChecksum p = udpChecksum p' := by
      rw [udpChecksum, udpChecksum, ← hfields.headerLen]
      exact h.load16 (by simp only [udpChecksumOff]; omega)
    have hlength : udpLength p (headerLen p) = udpLength p' (headerLen p) := h.load16 (by omega)
    rw [if_pos hudp, if_pos hudp, ← hsum, ← hlength]
    split_ifs at hlen ⊢
    · exact hstore _ (by omega) fun checksum => if checksum = 0 then 0xffff else checksum
    · exact h
  · rw [if_neg hudp] at hlen ⊢
    rw [if_neg hudp]
    split_ifs at hlen ⊢
    · exact hstore _ hlen id
    · exact h

theorem fillChecksums_agree (h : AgreeTo n p p') (hreach : sendReach p ≤ n) :
    AgreeTo n (fillChecksums p) (fillChecksums p') := by
  rw [sendReach] at hreach
  have hheader := headerChecksum_agree h (by omega) (by omega)
  rw [fillChecksums, fillChecksums]
  exact segmentChecksum_agree hheader (by omega) (by rw [(headerChecksum_fields p).1]; omega)

theorem sendIpv4_agree (h : AgreeTo n p p') (hreach : sendReach p ≤ n) (r : Router) :
    sendIpv4 cfg r p = sendIpv4 cfg r p' := by
  have hfill := fillChecksums_agree h hreach
  rw [sendReach] at hreach
  have hcopy : (fillChecksums p).read 0 (ntohs (totalLength (fillChecksums p))).toNat =
      (fillChecksums p').read 0 (ntohs (totalLength (fillChecksums p))).toNat :=
    hfill.read (by omega)
  simp only [sendIpv4, ipv4Frame]
  rw [hcopy, (sameHeader h (by omega)).ipDst, (sameHeader hfill (by omega)).totalLength]

/-! ## Translation -/

theorem transportPorts_agree (h : AgreeTo n p p') (h20 : 20 ≤ n)
    (hports : (transportPorts p).isSome = true → headerLen p + 4 ≤ n) :
    transportPorts p = transportPorts p' := by
  have hfields := sameHeader h h20
  unfold transportPorts at hports ⊢
  rw [← hfields.protocol, ← hfields.headerLen]
  split_ifs with hproto
  · have hlen := hports (by rw [if_pos hproto, Option.isSome_some])
    rw [portSrc, portSrc, portDst, portDst, h.load16 (by omega), h.load16 (by omega)]
  · rfl

theorem naptOutTranslate_congr (hheader : SameHeader p p')
    (hports : transportPorts p = transportPorts p') (napt : Napt) (rand : Nat → Nat) :
    naptOutTranslate cfg napt p rand = naptOutTranslate cfg napt p' rand := by
  simp only [naptOutTranslate, hports, hheader.ipSrc, hheader.ipDst, hheader.protocol]

theorem naptIncTranslate_congr (hheader : SameHeader p p')
    (hports : transportPorts p = transportPorts p') (napt : Napt) :
    naptIncTranslate napt p = naptIncTranslate napt p' := by
  simp only [naptIncTranslate, hports, hheader.ipSrc, hheader.protocol]

theorem naptOutRewrite_agree (h : AgreeTo n p p') (h20 : 20 ≤ n) (P : Port) :
    AgreeTo n (naptOutRewrite cfg p P) (naptOutRewrite cfg p' P) := by
  rw [naptOutRewrite, naptOutRewrite, (sameHeader h h20).headerLen]
  exact (h.write _ _).store16 _ _

theorem naptIncRewrite_agree (h : AgreeTo n p p') (h20 : 20 ≤ n) (lanIp : IpAddr)
    (lanPort : Port) : AgreeTo n (naptIncRewrite p lanIp lanPort)
      (naptIncRewrite p' lanIp lanPort) := by
  rw [naptIncRewrite, naptIncRewrite, (sameHeader h h20).headerLen]
  exact (h.write _ _).store16 _ _

theorem ipv4Path_congr (hheader : SameHeader p p') (intId : cfg.IntId) :
    ipv4Path cfg p intId = ipv4Path cfg p' intId := by
  simp only [ipv4Path, hheader.ipDst]

/-- The translation reads the header and the ports. -/
theorem translation_agree (h : AgreeTo n p p') (h20 : 20 ≤ n) {intId : cfg.IntId}
    (hcovered : PortsCovered cfg n p intId) (napt : Napt) (rand : Nat → Nat) :
    handledNapt cfg napt ⟨p, intId, rand⟩ = handledNapt cfg napt ⟨p', intId, rand⟩ ∧
      Option.Rel (AgreeTo n) (sentPacket cfg napt ⟨p, intId, rand⟩)
        (sentPacket cfg napt ⟨p', intId, rand⟩) := by
  have hheader := sameHeader h h20
  simp only [handledNapt, sentPacket, ← ipv4Path_congr hheader]
  cases hpath : ipv4Path cfg p intId with
  | ignored => exact ⟨rfl, .none⟩
  | bridged => exact ⟨rfl, .some h⟩
  | inc =>
    have hports := transportPorts_agree h h20 (hcovered (Or.inl hpath))
    rw [← naptIncTranslate_congr hheader hports]
    refine ⟨rfl, ?_⟩
    cases naptIncTranslate napt p with
    | none => exact .none
    | some result =>
      obtain ⟨napt', endpoint⟩ := result
      cases endpoint with
      | none => exact .none
      | some lan => exact .some (naptIncRewrite_agree h h20 lan.1 lan.2)
  | out =>
    have hports := transportPorts_agree h h20 (hcovered (Or.inr hpath))
    rw [← naptOutTranslate_congr hheader hports]
    refine ⟨rfl, ?_⟩
    cases naptOutTranslate cfg napt p rand with
    | none => exact .none
    | some result =>
      obtain ⟨napt', port⟩ := result
      cases port with
      | none => exact .none
      | some P => exact .some (naptOutRewrite_agree h h20 P)

theorem ipv4Handle_agree (h : AgreeTo n p p') (h20 : 20 ≤ n) {intId : cfg.IntId} {r : Router}
    {rand : Nat → Nat} (hcovered : PacketCovered cfg n r.napt ⟨p, intId, rand⟩) :
    ipv4Handle cfg r ⟨p, intId, rand⟩ = ipv4Handle cfg r ⟨p', intId, rand⟩ := by
  obtain ⟨hnapt, hsent⟩ := translation_agree h h20 hcovered.ports r.napt rand
  have hreach := hcovered.sent
  rw [ipv4Handle_eq, ipv4Handle_eq, ← hnapt]
  generalize sentPacket cfg r.napt ⟨p, intId, rand⟩ = sent at hsent hreach
  generalize sentPacket cfg r.napt ⟨p', intId, rand⟩ = sent' at hsent
  cases hsent with
  | none => rfl
  | some hagree =>
    refine congrArg (fun g => Option.map g _) (funext fun napt => ?_)
    exact sendIpv4_agree hagree (hreach _ rfl) _

end Agree

/-! ## Frames -/

/-- In this state the frame has the same effects whatever follows its first `n` bytes in the
buffer. -/
def Noninterfering (cfg : Config) (n : Nat) (r : Router) (f : Frame cfg) : Prop :=
  ∀ frame', AgreeTo n f.bytes frame' →
    ethernetHandle cfg r f = ethernetHandle cfg r { f with bytes := frame' }

theorem arpHandle_congr {pkt pkt' : ArpHdr} (hprotocol : pkt.protocolType = pkt'.protocolType)
    (hhardware : pkt.hardwareType = pkt'.hardwareType)
    (hsender : ArpTypes pkt → pkt.senderIp = pkt'.senderIp ∧ pkt.senderMac = pkt'.senderMac)
    (r : Router) (intId : cfg.IntId) (src src' : MacAddr) :
    arpHandle cfg r pkt intId src = arpHandle cfg r pkt' intId src' := by
  by_cases htypes : ArpTypes pkt
  · obtain ⟨hip, hmac⟩ := hsender htypes
    simp only [arpHandle, arpValid, hprotocol, hhardware, hip, hmac]
    rfl
  · have hinvalid (pkt : ArpHdr) (htypes : ¬ ArpTypes pkt) : arpValid pkt = false := by
      rw [← Bool.not_eq_true]
      intro hvalid
      rw [arpValid, Bool.and_eq_true, Bool.and_eq_true, beq_iff_eq, beq_iff_eq] at hvalid
      exact htypes hvalid.1
    have htypes' : ¬ ArpTypes pkt' := by
      rwa [ArpTypes, ← hprotocol, ← hhardware]
    simp only [arpHandle, hinvalid _ htypes, hinvalid _ htypes', Bool.not_false, if_true]

/-- A sender that is in the map already is left to `timer_update_packets`. -/
theorem arpHandle_of_known {r : Router} {frame : Mem} {pair : IpMacPair}
    (htype : ntohs (ethertype frame) = ethertypeArp) (hlearned : learned frame = some pair)
    (hknown : macOf r.ipMacMap pair.ipAddr = some pair.macAddr) (intId : cfg.IntId)
    (src : MacAddr) : arpHandle cfg r (.read (payload frame) 0) intId src =
      timerUpdatePackets cfg r pair.ipAddr := by
  cases hvalid : arpValid (.read (payload frame) 0) with
  | false =>
    rw [learned, if_neg (by rw [htype]; decide), if_pos htype] at hlearned
    simp [hvalid] at hlearned
  | true =>
    obtain rfl := Option.some.inj ((learned_arp htype hvalid).symm.trans hlearned)
    simp only [arpHandle, hvalid, Bool.not_true, Bool.false_eq_true, if_false]
    rw [updateIpMacPair_of_known hknown]

theorem ethertype_agree {n : Nat} {frame frame' : Mem} (h : AgreeTo n frame frame')
    (hn : 14 ≤ n) : ethertype frame = ethertype frame' := h.load16 (by omega)

theorem ArpTypes.agree {n : Nat} {frame frame' : Mem} (htypes : ArpTypes (.read (payload frame) 0))
    (h : AgreeTo n frame frame') (hn : 18 ≤ n) : ArpTypes (.read (payload frame') 0) := by
  have hpayload : AgreeTo 4 (payload frame) (payload frame') :=
    AgreeTo.shift fun i hi => h i (by simp only [sizeofEthernetHdr] at hi; omega)
  have hprotocol : (payload frame).load16 2 = (payload frame').load16 2 :=
    hpayload.load16 (by omega)
  have hhardware : (payload frame).load16 0 = (payload frame').load16 0 :=
    hpayload.load16 (by omega)
  exact ⟨(congrArg ntohs hprotocol).symm.trans htypes.1,
    (congrArg ntohs hhardware).symm.trans htypes.2⟩

/-- A sender that is settled changes nothing. -/
theorem SenderSettled.handled {n : Nat} {r : Router} {f : Frame cfg}
    (h : SenderSettled n r f.bytes) (hn : 14 ≤ n)
    (htype : ntohs (ethertype f.bytes) = ethertypeArp) {frame' : Mem}
    (hagree : AgreeTo n f.bytes frame') :
    ethernetHandle cfg r { f with bytes := frame' } = some r := by
  have htype' : ntohs (ethertype frame') = ethertypeArp := by
    rw [← ethertype_agree hagree hn, htype]
  rw [ethernetHandle_arp (f := { f with bytes := frame' }) htype']
  cases hvalid : arpValid (.read (payload frame') 0) with
  | false => simp [arpHandle, hvalid]
  | true =>
    have hlearned := learned_arp htype' hvalid
    obtain ⟨hknown, hwait⟩ := h frame' hagree _ hlearned
    rw [arpHandle_of_known htype' hlearned hknown, timerUpdatePackets_of_not_mem hwait]

/-- An IPv4 frame, with another packet. -/
def Frame.withPacket (f : Frame cfg) (pkt : Mem) : Frame cfg :=
  { f with bytes := fun i =>
      if i < sizeofEthernetHdr then f.bytes i else pkt (i - sizeofEthernetHdr) }

theorem Frame.payload_withPacket (f : Frame cfg) (pkt : Mem) :
    payload (f.withPacket pkt).bytes = pkt := by
  funext i
  have hge : ¬ sizeofEthernetHdr + i < sizeofEthernetHdr := Nat.not_lt.2 (Nat.le_add_right ..)
  exact (if_neg hge).trans (congrArg pkt (Nat.add_sub_cancel_left ..))

theorem AgreeTo.withPacket {n : Nat} {f : Frame cfg} {pkt : Mem}
    (h : AgreeTo (n - 14) (payload f.bytes) pkt) : AgreeTo n f.bytes (f.withPacket pkt).bytes := by
  intro i hi
  by_cases hheader : i < sizeofEthernetHdr
  · exact (if_pos hheader).symm
  · refine Eq.trans ?_ (if_neg hheader).symm
    simp only [sizeofEthernetHdr] at hheader ⊢
    rw [← h (i - 14) (by omega), payload, Mem.shift, sizeofEthernetHdr,
      Nat.add_sub_of_le (by omega)]

/-- For an IPv4 frame whose headers were received it is about the packet. -/
theorem noninterfering_ipv4_iff {n : Nat} {r : Router} {f : Frame cfg} (h34 : 34 ≤ n)
    (htype : ntohs (ethertype f.bytes) = ethertypeIpv4) :
    Noninterfering cfg n r f ↔ ∀ pkt, AgreeTo (n - 14) (payload f.bytes) pkt →
      ipv4Handle cfg (learn r f.sender) f.ipv4 =
        ipv4Handle cfg (learn r f.sender) ⟨pkt, f.intId, f.rand⟩ := by
  have hframe {frame' : Mem} (hagree : AgreeTo n f.bytes frame') :
      ethernetHandle cfg r { f with bytes := frame' } =
        ipv4Handle cfg (learn r f.sender) ⟨payload frame', f.intId, f.rand⟩ := by
    have htype' := ethertype_agree hagree (by omega)
    have hmac : macSrc f.bytes = macSrc frame' := MacAddr.read_congr (hagree.read (by omega))
    have hpayload : AgreeTo 20 (payload f.bytes) (payload frame') :=
      AgreeTo.shift fun i hi => hagree i (by simp only [sizeofEthernetHdr] at hi; omega)
    rw [ethernetHandle_ipv4 (f := { f with bytes := frame' }) (by rwa [← htype'])]
    simp only [Frame.sender, Frame.ipv4, (sameHeader hpayload le_rfl).ipSrc, hmac]
  rw [Noninterfering]
  constructor
  · intro h pkt hagree
    have hsame := h _ (AgreeTo.withPacket hagree)
    rw [ethernetHandle_ipv4 htype, hframe (AgreeTo.withPacket hagree),
      f.payload_withPacket] at hsame
    exact hsame
  · intro h frame' hagree
    rw [ethernetHandle_ipv4 htype, hframe hagree]
    exact h _ (AgreeTo.shift (by rwa [sizeofEthernetHdr, Nat.add_sub_of_le (by omega)]))

/-- **What is not read makes no difference.** -/
theorem noninterfering_of_covered {n : Nat} {r : Router} {f : Frame cfg}
    (h : FrameCovered cfg n r f) : Noninterfering cfg n r f := by
  have h14 := h.header
  by_cases hipv4 : ntohs (ethertype f.bytes) = ethertypeIpv4
  · obtain ⟨h34, hcovered⟩ := h.ipv4 hipv4
    exact (noninterfering_ipv4_iff h34 hipv4).2 fun pkt hagree =>
      ipv4Handle_agree hagree (by omega) hcovered
  intro frame' hagree
  have htype := ethertype_agree hagree h14
  by_cases harp : ntohs (ethertype f.bytes) = ethertypeArp
  · obtain ⟨h18, hsender⟩ := h.arp harp
    by_cases hsettled : SenderSettled n r f.bytes
    · exact (hsettled.handled h14 harp fun _ _ => rfl).trans
        (hsettled.handled h14 harp hagree).symm
    · have hpayload : AgreeTo (n - 14) (payload f.bytes) (payload frame') :=
        AgreeTo.shift (by rwa [sizeofEthernetHdr, Nat.add_sub_of_le h14])
      rw [ethernetHandle_arp harp, ethernetHandle_arp (f := { f with bytes := frame' })
        (by rwa [← htype])]
      refine congrArg some (arpHandle_congr (hpayload.load16 (by omega))
        (hpayload.load16 (by omega)) (fun htypes => ⟨?_, ?_⟩) ..)
      · have := (hsender htypes).resolve_right hsettled
        exact IpAddr.read_congr (hpayload.read (by omega))
      · have := (hsender htypes).resolve_right hsettled
        exact MacAddr.read_congr (hpayload.read (by omega))
  · rw [ethernetHandle, ethernetHandle, if_neg hipv4, if_neg harp, if_neg (by rwa [← htype]),
      if_neg (by rwa [← htype])]

end NaptRouter
