import NaptRouter.Noninterference

/-!
# Bytes that were not received

A regular packet that is sent has the same effects whatever follows it in the buffer only if it was
received to its end: its last byte is sent as it is. One that is not sent makes no difference
anyway, and which packets are sent is a matter of the tables (`received_length`).
-/

namespace NaptRouter

open ByteMemory

variable {cfg : Config}

/-! ## Regular packets -/

/-- The lengths of the packet fit together, and a UDP datagram has a payload. -/
structure Regular (pkt : Mem) : Prop where
  wellFormed : WellFormed pkt
  udp : protocol pkt = 0x11 →
    (ntohs (udpLength pkt (headerLen pkt))).toNat = segmentLen pkt ∧ 8 < segmentLen pkt

theorem Regular.segmentInside {pkt : Mem} (h : Regular pkt) : SegmentInside pkt := by
  refine ⟨h.wellFormed, fun hudp => ?_⟩
  obtain ⟨heq, hlt⟩ := h.udp hudp
  omega

/-- A packet is read to its end, and no further. -/
theorem SegmentInside.sendReach_le {pkt : Mem} (h : SegmentInside pkt) :
    sendReach pkt ≤ (ntohs (totalLength pkt)).toNat := by
  obtain ⟨h20, htotal⟩ := h.wellFormed
  obtain ⟨hlen, htotal', hproto, -, -⟩ := headerChecksum_fields pkt
  have hend : headerLen pkt + segmentLen pkt = (ntohs (totalLength pkt)).toNat := by
    rw [segmentLen]
    omega
  have hsegment : segmentReach (headerChecksum pkt) ≤ segmentLen pkt := by
    rw [segmentReach, hproto, hlen, htotal', toNat_tcpLen (by omega),
      udpChecksum_headerChecksum h20]
    split_ifs with hudp
    · have hlength : udpLength (headerChecksum pkt) (headerLen pkt) =
          udpLength pkt (headerLen pkt) := headerChecksum_load16 pkt (by omega)
      obtain ⟨hle, hinside⟩ := h.udp hudp
      rw [hlength]
      omega
    · have hinside := h.udp hudp
      omega
    · exact le_rfl
    · exact Nat.zero_le _
  rw [sendReach, (fillChecksums_fields h20).2.1]
  omega

theorem Regular.fillChecksums_last {pkt : Mem} (h : Regular pkt) {i : Nat} (h20 : 20 ≤ i)
    (hi : i + 1 = (ntohs (totalLength pkt)).toNat) : fillChecksums pkt i = pkt i := by
  have hheader : headerChecksum pkt i = pkt i := headerChecksum_apply _ (by omega) (by omega)
  by_cases hsum : Summed pkt
  · obtain ⟨checksumOff, ul, v, hsummed⟩ :=
      exists_segmentSummed h.wellFormed (fun hudp => (h.udp hudp).1) hsum
    have hend : headerLen pkt + segmentLen pkt = i + 1 := by
      have htotal := h.wellFormed.2
      rw [segmentLen]
      omega
    have hfield : headerLen pkt + checksumOff + 2 ≤ i := by
      rcases hsum with htcp | ⟨hudp, -⟩
      · have htotal := h.wellFormed.2
        have hlen : transportLen pkt = 20 := by
          rw [transportLen, htcp]
          rfl
        rw [hsummed.tcp htcp, tcpChecksumOff]
        omega
      · have hlt := (h.udp hudp).2
        rw [(hsummed.udp hudp).1, udpChecksumOff]
        omega
    rw [hsummed.fills, store16_apply_of_ge _ _ hfield, transportChecksum,
      calculateChecksum_apply _ (by omega), store16_apply_of_ge _ _ hfield, hheader]
  · rw [fillChecksums_unsummed h.wellFormed.1 hsum, hheader]

/-- `q` differs from `pkt` in the addresses and ports only. -/
def Rewritten (pkt q : Mem) : Prop :=
  ∀ i, i < 12 ∨ 20 ≤ i ∧ (i < headerLen pkt ∨ headerLen pkt + 4 ≤ i) → q i = pkt i

theorem rewritten_self (pkt : Mem) : Rewritten pkt pkt := fun _ _ => rfl

theorem rewritten_write {pkt : Mem} (h20 : 20 ≤ headerLen pkt) {off : Nat} {ip : IpAddr}
    (hip : off = 12 ∨ off = 16) {portOff : Nat} (hport : portOff = 0 ∨ portOff = 2) (v : UInt16) :
    Rewritten pkt ((pkt.write off ip.bytes).store16 (headerLen pkt + portOff) v) := by
  intro i hi
  have haddr : pkt.write off ip.bytes i = pkt i := by
    rcases hi with hlt | ⟨hge, -⟩
    · exact pkt.write_apply_of_lt _ (by omega)
    · exact pkt.write_apply_of_ge _ (by rw [IpAddr.length_bytes]; omega)
  rw [← haddr]
  rcases hi with hlt | ⟨-, hlt | hge⟩
  · exact store16_apply_of_lt _ _ (by omega)
  · exact store16_apply_of_lt _ _ (by omega)
  · exact store16_apply_of_ge _ _ (by omega)

theorem Regular.congr {pkt q : Mem} (h : Regular pkt) (hq : ∀ i < 12, q i = pkt i)
    (hudp : protocol pkt = 0x11 →
      udpLength q (headerLen pkt) = udpLength pkt (headerLen pkt)) :
    Regular q ∧ totalLength q = totalLength pkt := by
  have hlen : headerLen q = headerLen pkt := headerLen_congr (hq 0 (by omega))
  have htotal : totalLength q = totalLength pkt :=
    load16_congr (Mem.read_congr fun i hi => hq _ (by omega))
  have hproto : protocol q = protocol pkt := hq 9 (by omega)
  have hsegment : segmentLen q = segmentLen pkt := by
    rw [segmentLen, htotal, hlen, segmentLen]
  refine ⟨⟨?_, fun h17 => ?_⟩, htotal⟩
  · rw [WellFormed, hlen, htotal, transportLen, hproto]
    exact h.wellFormed
  · have h17' : protocol pkt = 0x11 := hproto.symm.trans h17
    rw [hlen, hudp h17', hsegment]
    exact h.udp h17'

/-- Rewriting keeps the packet regular, and its end where it is. -/
theorem Regular.rewritten {pkt q : Mem} (h : Regular pkt) (hq : Rewritten pkt q) :
    Regular q ∧ totalLength q = totalLength pkt := by
  have h20 := h.wellFormed.1
  refine h.congr (fun i hi => hq i (Or.inl hi)) fun _ => ?_
  exact load16_congr (Mem.read_congr fun i hi => hq _ (by omega))

/-- What is translated has its ports, and the segment goes on after them. -/
theorem Regular.ports_lt {pkt : Mem} (h : Regular pkt)
    (hsome : (transportPorts pkt).isSome = true) :
    headerLen pkt + 8 < (ntohs (totalLength pkt)).toNat := by
  have htotal := h.wellFormed.2
  rw [transportPorts] at hsome
  rw [transportLen] at htotal
  split_ifs at hsome with hproto
  · rcases hproto with h6 | h17
    · rw [h6, if_neg (by decide), if_pos rfl] at htotal
      omega
    · have hlt := (h.udp h17).2
      rw [segmentLen] at hlt
      omega
  · cases hsome

/-- A packet that is sent is rewritten, unless it is bridged. -/
theorem rewritten_of_sent {napt : Napt} {i : Ipv4Input cfg} {q : Mem}
    (h : sentPacket cfg napt i = some q) (h20 : 20 ≤ headerLen i.pkt) :
    Rewritten i.pkt q ∧ (q = i.pkt ∨ (transportPorts i.pkt).isSome = true) := by
  rw [sentPacket] at h
  cases hpath : ipv4Path cfg i.pkt i.intId with
  | ignored =>
    rw [hpath] at h
    cases h
  | bridged =>
    rw [hpath] at h
    obtain rfl := Option.some.inj h
    exact ⟨rewritten_self _, Or.inl rfl⟩
  | inc =>
    rw [hpath] at h
    obtain ⟨⟨napt', endpoint⟩, htr, h⟩ := Option.bind_eq_some_iff.1 h
    obtain ⟨⟨lanIp, lanPort⟩, rfl, h⟩ := Option.bind_eq_some_iff.1 h
    rw [← Option.some.inj h]
    exact ⟨rewritten_write h20 (Or.inr rfl) (Or.inr rfl) _, Or.inr (naptIncTranslate_isSome htr)⟩
  | out =>
    rw [hpath] at h
    obtain ⟨⟨napt', port⟩, htr, h⟩ := Option.bind_eq_some_iff.1 h
    obtain ⟨P, rfl, h⟩ := Option.bind_eq_some_iff.1 h
    rw [← Option.some.inj h]
    exact ⟨rewritten_write h20 (Or.inl rfl) (Or.inl rfl) _, Or.inr (naptOutTranslate_isSome htr)⟩

theorem Regular.packetCovered {napt : Napt} {i : Ipv4Input cfg} (h : Regular i.pkt) {n : Nat}
    (hn : (ntohs (totalLength i.pkt)).toNat ≤ n) : PacketCovered cfg n napt i := by
  refine ⟨fun _ hsome => ?_, fun q hq => ?_⟩
  · have hlt := h.ports_lt hsome
    omega
  · obtain ⟨hregular, htotal⟩ := h.rewritten (rewritten_of_sent hq h.wellFormed.1).1
    have hle := hregular.segmentInside.sendReach_le
    rw [htotal] at hle
    exact hle.trans hn

/-! ## Which packets are sent -/

/-- `ipv4_handle` sends the packet: it is bridged, or the tables have a mapping for it, or it gets
a new one. -/
def Forwarded (cfg : Config) (napt : Napt) (i : Ipv4Input cfg) : Prop :=
  match ipv4Path cfg i.pkt i.intId with
  | .ignored => False
  | .bridged => True
  | .inc => (transportPorts i.pkt).isSome = true ∧
      (napt.externHashmap.lookup (incExternKey i.pkt).bytes).isSome = true
  | .out => (transportPorts i.pkt).isSome = true ∧ napt.internHashmap.lock = false ∧
      ((napt.internHashmap.lookup (outInternKey i.pkt).bytes).isSome = true ∨
        ∃ n < 10, PortFree cfg napt i.pkt (i.rand n))

theorem sentPacket_isSome {napt : Napt} (hok : napt.Ok) (i : Ipv4Input cfg) :
    (sentPacket cfg napt i).isSome = true ↔ Forwarded cfg napt i := by
  rw [sentPacket, Forwarded]
  cases ipv4Path cfg i.pkt i.intId with
  | ignored => simp
  | bridged => simp
  | inc =>
    cases hports : transportPorts i.pkt with
    | none => simp [naptIncTranslate, hports]
    | some ports =>
      rcases naptIncTranslate_spec hok hports with
        ⟨hmiss, htr⟩ | ⟨v, lanIp, lanPort, hv, htr, -⟩
      · simp [htr, hmiss]
      · simp [htr, hv]
  | out =>
    cases hports : transportPorts i.pkt with
    | none => simp [naptOutTranslate, hports]
    | some ports =>
      have hspec := naptOutTranslate_spec cfg hok i.rand hports
      cases hlock : napt.internHashmap.lock with
      | true =>
        rw [hlock, if_pos rfl] at hspec
        simp [hspec]
      | false =>
        cases hlookup : napt.internHashmap.lookup (outInternKey i.pkt).bytes with
        | some v =>
          rw [hlock] at hspec
          obtain ⟨napt', port, htr, hres⟩ := hspec
          cases hres with
          | reused => simp [htr]
          | opened hmiss => cases hmiss.symm.trans hlookup
          | dropped hmiss => cases hmiss.symm.trans hlookup
        | none =>
          obtain ⟨napt', port, htr, -, hnone⟩ :=
            naptOutTranslate_miss cfg hok i.rand hports hlock hlookup
          cases port with
          | none => simpa [htr] using hnone
          | some P => simpa [htr] using hnone

/-- What the tables are after a packet that is not sent does not depend on its ports. -/
theorem handledNapt_of_dropped {napt : Napt} (hok : napt.Ok) {i i' : Ipv4Input cfg}
    (hpath : ipv4Path cfg i.pkt i.intId = ipv4Path cfg i'.pkt i'.intId)
    (hproto : protocol i.pkt = protocol i'.pkt) (hsent : sentPacket cfg napt i = none)
    (hsent' : sentPacket cfg napt i' = none) :
    handledNapt cfg napt i = handledNapt cfg napt i' := by
  have hisSome : (transportPorts i.pkt).isSome = (transportPorts i'.pkt).isSome := by
    simp only [transportPorts, hproto]
    split_ifs
    · rw [Option.isSome_some, Option.isSome_some]
    · rfl
  rw [sentPacket] at hsent hsent'
  rw [handledNapt, handledNapt]
  rw [← hpath] at hsent' ⊢
  cases hp : ipv4Path cfg i.pkt i.intId with
  | ignored => rfl
  | bridged => rfl
  | inc =>
    have hkeeps (j : Ipv4Input cfg) : (naptIncTranslate napt j.pkt).map (·.1) = some napt := by
      obtain ⟨lan, htr⟩ := exists_naptIncTranslate hok j.pkt
      rw [htr, Option.map_some]
    exact (hkeeps i).trans (hkeeps i').symm
  | out =>
    rw [hp] at hsent hsent'
    -- Without a port the call returns with the intern mutex held.
    have hdrop (j : Ipv4Input cfg) (hnone : ((naptOutTranslate cfg napt j.pkt j.rand).bind
        fun result => result.2.bind fun P => some (naptOutRewrite cfg j.pkt P)) = none)
        (P : Port) : (naptOutTranslate cfg napt j.pkt j.rand).map (·.2) ≠ some (some P) := by
      intro hport
      obtain ⟨result, htr, hsome⟩ := Option.map_eq_some_iff.1 hport
      simp [htr, hsome] at hnone
    rw [naptOutTranslate_of_drop hok (hdrop i hsent),
      naptOutTranslate_of_drop hok (hdrop i' hsent'), hisSome]

/-! ## Packets that were cut short -/

theorem sendIpv4_last (hether : ∀ intId, cfg.interfaceGetType intId = .ether) {q q' : Mem}
    (hq : Regular q) (hq' : Regular q') (hheader : SameHeader q q') {i : Nat} (h20 : 20 ≤ i)
    (hi : i + 1 = (ntohs (totalLength q)).toNat) {r : Router}
    (hsend : sendIpv4 cfg r q = sendIpv4 cfg r q') : q i = q' i := by
  have hi' : i + 1 = (ntohs (totalLength q')).toNat := by rwa [← hheader.totalLength]
  have hlen : (ntohs (totalLength (fillChecksums q))).toNat = i + 1 := by
    rw [(fillChecksums_fields hq.wellFormed.1).2.1, hi]
  have hlen' : (ntohs (totalLength (fillChecksums q'))).toNat = i + 1 := by
    rw [(fillChecksums_fields hq'.wellFormed.1).2.1, hi']
  have hnext : nextHop cfg q' = nextHop cfg q := by
    rw [nextHop, nextHop, hheader.ipDst]
  rw [← hq.fillChecksums_last h20 hi, ← hq'.fillChecksums_last h20 hi']
  cases hres : hasMacForIp r.ipMacMap (nextHop cfg q) with
  | false =>
    -- The copy that is queued has it.
    have hres' : hasMacForIp r.ipMacMap (nextHop cfg q') = false := by rwa [hnext]
    rw [sendIpv4_unresolved hres, sendIpv4_unresolved hres'] at hsend
    obtain ⟨-, ws, -, hlog⟩ := timerAddPacket_log cfg { r with copies := r.copies + 1 }
      (queuedCopy r q) (cfg.getInterfaceForIp (ipDst q)) (nextHop cfg q)
    obtain ⟨-, ws', -, hlog'⟩ := timerAddPacket_log cfg { r with copies := r.copies + 1 }
      (queuedCopy r q') (cfg.getInterfaceForIp (ipDst q')) (nextHop cfg q')
    rw [hsend, hlog', ← List.append_assoc, ← List.append_assoc] at hlog
    have hqueued := (List.append_singleton_inj.1 hlog).2
    rw [Event.queued.injEq] at hqueued
    have hcopy := congrFun (congrArg QueuedPkt.pkt hqueued.1) i
    rw [queuedCopy, queuedCopy, hlen, hlen'] at hcopy
    have hcopied (m : Mem) : Mem.zero.write 0 (m.read 0 (i + 1)) i = m i :=
      Mem.write_read_apply m Mem.zero (Nat.lt_succ_self i)
    exact ((hcopied _).symm.trans hcopy.symm).trans (hcopied _)
  | true =>
    -- The frame that is written has it.
    have hres' : hasMacForIp r.ipMacMap (nextHop cfg q') = true := by rwa [hnext]
    rw [sendIpv4_resolved hres, sendIpv4_resolved hres', if_pos (hether _), if_pos (hether _),
      hlen, hlen'] at hsend
    have hlog := congrArg Router.log hsend
    rw [Router.emit_log, Router.emit_log] at hlog
    have hwrite := (List.append_singleton_inj.1 hlog).2
    rw [Event.write.injEq] at hwrite
    have hbytes := (List.append_inj' hwrite.2 (by simp)).2
    simpa only [Nat.zero_add] using Mem.read_eq_iff.1 hbytes i (Nat.lt_succ_self i)

theorem handledNapt_of_sent {napt : Napt} {i : Ipv4Input cfg} {q : Mem}
    (h : sentPacket cfg napt i = some q) : ∃ napt', handledNapt cfg napt i = some napt' := by
  rw [sentPacket] at h
  rw [handledNapt]
  cases hpath : ipv4Path cfg i.pkt i.intId with
  | ignored => exact ⟨napt, rfl⟩
  | bridged => exact ⟨napt, rfl⟩
  | inc =>
    rw [hpath] at h
    obtain ⟨result, htr, -⟩ := Option.bind_eq_some_iff.1 h
    exact ⟨result.1, by rw [htr, Option.map_some]⟩
  | out =>
    rw [hpath] at h
    obtain ⟨result, htr, -⟩ := Option.bind_eq_some_iff.1 h
    exact ⟨result.1, by rw [htr, Option.map_some]⟩

/-- The last byte is behind the ports, and is not rewritten. -/
theorem Regular.sent_last {napt : Napt} {j : Ipv4Input cfg} (h : Regular j.pkt) {q : Mem}
    (hq : sentPacket cfg napt j = some q) {i : Nat} (h20 : 20 ≤ i)
    (hi : i + 1 = (ntohs (totalLength j.pkt)).toNat) : q i = j.pkt i := by
  obtain ⟨hrewritten, rfl | hsome⟩ := rewritten_of_sent hq h.wellFormed.1
  · rfl
  · have hlt := h.ports_lt hsome
    exact hrewritten i (Or.inr ⟨h20, Or.inr (by omega)⟩)

/-- A regular packet that is sent is told apart from one with another last byte. -/
theorem Regular.ipv4Handle_ne (hether : ∀ intId, cfg.interfaceGetType intId = .ether)
    {p p' : Mem} (h : Regular p) {i : Nat} (h20 : 20 ≤ i)
    (hi : i + 1 = (ntohs (totalLength p)).toNat) (hagree : AgreeTo i p p') (hne : p i ≠ p' i)
    {r : Router} {intId : cfg.IntId} {rand : Nat → Nat}
    (hsent : (sentPacket cfg r.napt ⟨p, intId, rand⟩).isSome = true) :
    ipv4Handle cfg r ⟨p, intId, rand⟩ ≠ ipv4Handle cfg r ⟨p', intId, rand⟩ := by
  intro heq
  have hcovered : PortsCovered cfg i p intId := fun _ hsome => by
    have hlt := h.ports_lt hsome
    omega
  obtain ⟨hnapt, hrel⟩ := translation_agree hagree h20 hcovered r.napt rand
  obtain ⟨q, hq⟩ := Option.isSome_iff_exists.1 hsent
  obtain ⟨napt', hnapt'⟩ := handledNapt_of_sent hq
  rw [ipv4Handle_eq, ipv4Handle_eq, ← hnapt, hnapt', hq] at heq
  rw [hq] at hrel
  -- The packet with the other byte is regular as well.
  obtain ⟨h', htotal⟩ : Regular p' ∧ totalLength p' = totalLength p := by
    refine h.congr (fun k hk => (hagree k (by omega)).symm) fun hudp => ?_
    have hlt := h.ports_lt (by rw [transportPorts, if_pos (Or.inr hudp), Option.isSome_some])
    exact (hagree.load16 (by omega)).symm
  cases hq' : sentPacket cfg r.napt ⟨p', intId, rand⟩ with
  | none =>
    rw [hq'] at hrel
    cases hrel
  | some q' =>
    rw [hq'] at hrel heq
    cases hrel with
    | some hqq' =>
      obtain ⟨hregular, hqtotal⟩ := h.rewritten (rewritten_of_sent hq h.wellFormed.1).1
      obtain ⟨hregular', -⟩ := h'.rewritten (rewritten_of_sent hq' h'.wellFormed.1).1
      have hlast := sendIpv4_last hether hregular hregular' (sameHeader hqq' h20) h20
        (by rw [hqtotal, hi]) (Option.some.inj heq)
      rw [h.sent_last hq h20 hi, h'.sent_last hq' h20 (by rw [htotal, hi])] at hlast
      exact hne hlast

theorem sentPacket_isSome_congr {p p' : Mem} (hheader : SameHeader p p')
    (hports : transportPorts p = transportPorts p') (napt : Napt) (intId : cfg.IntId)
    (rand : Nat → Nat) : (sentPacket cfg napt ⟨p, intId, rand⟩).isSome =
      (sentPacket cfg napt ⟨p', intId, rand⟩).isSome := by
  simp only [sentPacket, ← ipv4Path_congr hheader, ← naptIncTranslate_congr hheader hports,
    ← naptOutTranslate_congr hheader hports]
  cases ipv4Path cfg p intId with
  | ignored => rfl
  | bridged => rfl
  | inc => simp [Option.isSome_bind]
  | out => simp [Option.isSome_bind]

/-- The frame is long enough for its headers, and an IPv4 packet in it is regular. -/
structure RegularFrame (n : Nat) (frame : Mem) : Prop where
  header : 14 ≤ n
  ipv4 : ntohs (ethertype frame) = ethertypeIpv4 → 34 ≤ n ∧ Regular (payload frame)
  arp : ntohs (ethertype frame) = ethertypeArp → 18 ≤ n

/-- The packet with the ports of `p`. -/
def withPortsOf (pkt p : Mem) : Mem := fun i =>
  if headerLen pkt ≤ i ∧ i < headerLen pkt + 4 then p i else pkt i

theorem Regular.withPorts {pkt p : Mem} (h : Regular pkt) {n : Nat} (h20 : 20 ≤ n)
    (hagree : AgreeTo n pkt p) {napt : Napt} {intId : cfg.IntId} {rand : Nat → Nat}
    (hsent : (sentPacket cfg napt ⟨p, intId, rand⟩).isSome = true) :
    AgreeTo n pkt (withPortsOf pkt p) ∧
      (sentPacket cfg napt ⟨withPortsOf pkt p, intId, rand⟩).isSome = true ∧
      Regular (withPortsOf pkt p) ∧ totalLength (withPortsOf pkt p) = totalLength pkt := by
  have hlen := h.wellFormed.1
  have hsame {i : Nat} (hi : i < headerLen pkt ∨ headerLen pkt + 4 ≤ i) :
      withPortsOf pkt p i = pkt i := if_neg (by omega)
  have hagree' : AgreeTo n pkt (withPortsOf pkt p) := by
    intro i hi
    rw [withPortsOf]
    split_ifs
    · exact hagree i hi
    · rfl
  have hheader : SameHeader (withPortsOf pkt p) p :=
    sameHeader (fun i hi => (hagree' i hi).symm.trans (hagree i hi)) h20
  have hports : transportPorts (withPortsOf pkt p) = transportPorts p := by
    have hload {off : Nat} (hoff : off = 0 ∨ off = 2) :
        (withPortsOf pkt p).load16 (headerLen p + off) = p.load16 (headerLen p + off) := by
      rw [← (sameHeader hagree h20).headerLen]
      exact load16_congr (Mem.read_congr fun i hi => if_pos (by omega))
    rw [transportPorts, transportPorts, hheader.protocol, hheader.headerLen, portSrc, portSrc,
      portDst, portDst, ← Nat.add_zero (headerLen p), hload (Or.inl rfl)]
    rw [Nat.add_zero, hload (Or.inr rfl)]
  refine ⟨hagree', ?_, h.congr (fun i hi => hsame (Or.inl (by omega))) fun _ => ?_⟩
  · rwa [sentPacket_isSome_congr hheader hports]
  · exact load16_congr (Mem.read_congr fun i hi => hsame (Or.inr (by omega)))

/-- A regular packet that is sent, if only with other ports than these, was received to its
end. -/
theorem received_of_noninterfering (hether : ∀ intId, cfg.interfaceGetType intId = .ether)
    {n : Nat} {r : Router} {f : Frame cfg} (h : Noninterfering cfg n r f) (h34 : 34 ≤ n)
    (htype : ntohs (ethertype f.bytes) = ethertypeIpv4) (hregular : Regular (payload f.bytes))
    {p : Mem} (hagree : AgreeTo (n - 14) (payload f.bytes) p)
    (hsent : (sentPacket cfg r.napt ⟨p, f.intId, f.rand⟩).isSome = true) :
    14 + (ntohs (totalLength (payload f.bytes))).toNat ≤ n := by
  by_contra hlt
  have hsame := (noninterfering_ipv4_iff h34 htype).1 h
  have h20 := hregular.wellFormed.1
  obtain ⟨hqp, hqsent, hq, htotal⟩ := hregular.withPorts (by omega) hagree hsent
  generalize withPortsOf (payload f.bytes) p = q at hqp hqsent hq htotal
  -- Another byte at its end.
  obtain ⟨i, hi⟩ : ∃ i, i + 1 = (ntohs (totalLength (payload f.bytes))).toNat :=
    ⟨_, Nat.sub_add_cancel (by omega)⟩
  let q' := q.write i [q i + 1]
  have hqq' : AgreeTo i q q' := fun j hj => (q.write_apply_of_lt _ hj).symm
  have hne : q i ≠ q' i := by
    have hbyte : q' i = q i + 1 := q.write_apply_singleton i (q i + 1)
    rw [hbyte]
    simp
  refine hq.ipv4Handle_ne hether (by omega) (by rw [htotal, hi]) hqq' hne
    (r := learn r f.sender) hqsent ?_
  exact (hsame q hqp).symm.trans (hsame q' fun j hj => (hqp j hj).trans (hqq' j (by omega)))

theorem learned_senderByte {frame : Mem} (htype : ntohs (ethertype frame) = ethertypeArp)
    (htypes : ArpTypes (.read (payload frame) 0)) {b : UInt8} (hb : b ≠ 0) :
    ∃ pair, learned (frame.write 31 [b]) = some pair ∧ pair.ipAddr.b3 = b := by
  have hagree : AgreeTo 18 frame (frame.write 31 [b]) :=
    fun i hi => (frame.write_apply_of_lt _ (by omega)).symm
  have htypes' := htypes.agree hagree le_rfl
  have hwrite : frame.write 31 [b] 31 = b := frame.write_apply_inside (i := 0) [b] Nat.one_pos
  have hbyte : (ArpHdr.read (payload (frame.write 31 [b])) 0).senderIp.b3 = b := hwrite
  have hvalid : arpValid (.read (payload (frame.write 31 [b])) 0) = true := by
    rw [arpValid, htypes'.1, htypes'.2, beq_self_eq_true, beq_self_eq_true, Bool.true_and,
      Bool.true_and, Bool.not_eq_true', Bool.eq_false_iff]
    intro hzero
    rw [ipAddrEquals_iff.1 hzero] at hbyte
    exact hb hbyte.symm
  exact ⟨_, learned_arp (by rw [← ethertype_agree hagree (by omega), htype]) hvalid, hbyte⟩

theorem timerUpdatePackets_shows (cfg : Config) (r : Router) (ip : IpAddr) :
    ∃ pkts, (timerUpdatePackets cfg r ip).log.filterMap Event.flushes =
        r.log.filterMap Event.flushes ++ pkts.map (fun q => (ip, q)) ∧
      (pkts = [] →
        addrs (timerUpdatePackets cfg r ip).deltaList = (addrs r.deltaList).erase ip) := by
  have hflush (pkts : List QueuedPkt) (s : Router) :
      (flushPkts cfg ip pkts s).log.filterMap Event.flushes =
        s.log.filterMap Event.flushes ++ pkts.map fun q => (ip, q) := by
    induction pkts generalizing s with
    | nil => rw [flushPkts, List.map_nil, List.append_nil]
    | cons q rest ih =>
      obtain ⟨es, hlog, hcarries⟩ := sendIpv4_log cfg s q.pkt
      have hnone : es.filterMap Event.flushes = [] := by
        refine List.filterMap_eq_nil_iff.2 fun e he => ?_
        cases hcarries e he <;> rfl
      rw [flushPkts, ih, Router.emit_log, hlog, List.filterMap_append, List.filterMap_append, hnone,
        List.append_nil, List.append_assoc]
      rfl
  have hspec := unlinkNode_spec ip r.deltaList
  rcases timerUpdatePackets_cases cfg r ip with ⟨hnone, heq⟩ | ⟨node, rest, timer, hsome, heq⟩
  · rw [hnone] at hspec
    refine ⟨[], ?_, fun _ => ?_⟩
    · rw [heq, List.map_nil, List.append_nil]
    · rw [heq, List.erase_of_not_mem hspec]
  · rw [hsome] at hspec
    refine ⟨node.pktList, ?_, fun hnil => ?_⟩
    · rw [heq, hflush]
    · rw [heq, hnil]
      exact hspec.2.2.1

/-- Where packets wait, it matters which address is resolved. -/
theorem timerUpdatePackets_ne {r : Router} {ip ip' : IpAddr} (hwait : ip ∈ addrs r.deltaList)
    (hne : ip ≠ ip') : timerUpdatePackets cfg r ip ≠ timerUpdatePackets cfg r ip' := by
  intro heq
  obtain ⟨pkts, hflushes, hnil⟩ := timerUpdatePackets_shows cfg r ip
  obtain ⟨pkts', hflushes', hnil'⟩ := timerUpdatePackets_shows cfg r ip'
  rw [heq, hflushes'] at hflushes
  have hsame := List.append_cancel_left hflushes
  cases pkts with
  | cons q rest =>
    cases pkts' with
    | nil => cases hsame
    | cons q' rest' =>
      rw [List.map_cons, List.map_cons, List.cons.injEq, Prod.mk.injEq] at hsame
      exact hne hsame.1.1.symm
  | nil =>
    obtain rfl := List.map_eq_nil_iff.1 hsame
    have haddrs := hnil rfl
    rw [heq, hnil' rfl] at haddrs
    -- One of the two lists has lost a node of this address.
    have hcount := congrArg (List.count ip) haddrs
    rw [List.count_erase_of_ne hne, List.count_erase_self] at hcount
    have hpos := List.count_pos_iff.2 hwait
    omega

/-- If an ARP packet was received without its sender, no sender that it can have makes a
difference. -/
theorem senderSettled_of_noninterfering {n : Nat} {r : Router} {f : Frame cfg}
    (h : Noninterfering cfg n r f) (h18 : 18 ≤ n) (hlt : n < 32)
    (htype : ntohs (ethertype f.bytes) = ethertypeArp)
    (htypes : ArpTypes (.read (payload f.bytes) 0)) : SenderSettled n r f.bytes := by
  intro frame' hagree pair hpair
  have htype' : ntohs (ethertype frame') = ethertypeArp := by
    rw [← ethertype_agree hagree (by omega), htype]
  -- The same frame with another last byte of the address.
  obtain ⟨b, hb0, hb⟩ : ∃ b : UInt8, b ≠ 0 ∧ b ≠ pair.ipAddr.b3 := by
    by_cases hone : pair.ipAddr.b3 = 1
    · exact ⟨2, by decide, by rw [hone]; decide⟩
    · exact ⟨1, by decide, fun heq => hone heq.symm⟩
  obtain ⟨other, hother, hbyte⟩ := learned_senderByte htype' (htypes.agree hagree h18) hb0
  have hne : pair.ipAddr ≠ other.ipAddr := fun heq => hb (by rw [heq, hbyte])
  have hagree' : AgreeTo n f.bytes (frame'.write 31 [b]) := fun i hi =>
    (hagree i hi).trans (frame'.write_apply_of_lt _ (by omega)).symm
  have htype'' : ntohs (ethertype (frame'.write 31 [b])) = ethertypeArp := by
    rw [← ethertype_agree hagree' (by omega), htype]
  obtain ⟨s, hs⟩ : ∃ s, ethernetHandle cfg r f = some s := ⟨_, ethernetHandle_arp htype⟩
  have hs' := (h _ hagree).symm.trans hs
  have hs'' := (h _ hagree').symm.trans hs
  have hmac (ip : IpAddr) := macOf_ethernetHandle hs' ip
  have hmac' (ip : IpAddr) := macOf_ethernetHandle hs'' ip
  simp only [hpair, hother, Option.map_some, Option.some.injEq] at hmac hmac'
  -- Each frame teaches its own address only, so both were known before.
  have hknown : macOf r.ipMacMap pair.ipAddr = some pair.macAddr := by
    rw [← (hmac' _).trans (if_neg hne.symm), hmac, if_pos rfl]
  have hknown' : macOf r.ipMacMap other.ipAddr = some other.macAddr := by
    rw [← (hmac _).trans (if_neg hne), hmac', if_pos rfl]
  have hdiffer (hwait : pair.ipAddr ∈ addrs r.deltaList) :
      timerUpdatePackets cfg r pair.ipAddr ≠ timerUpdatePackets cfg r other.ipAddr :=
    timerUpdatePackets_ne hwait hne
  refine ⟨hknown, fun hwait => hdiffer hwait ?_⟩
  rw [ethernetHandle_arp (f := { f with bytes := frame' }) htype'] at hs'
  rw [ethernetHandle_arp (f := { f with bytes := frame'.write 31 [b] }) htype''] at hs''
  rw [← arpHandle_of_known htype' hpair hknown f.intId (macSrc frame'),
    ← arpHandle_of_known htype'' hother hknown' f.intId (macSrc (frame'.write 31 [b]))]
  exact Option.some.inj (hs'.trans hs''.symm)

/-! ## The property and its condition -/

/-- All that the packet announces was received, if it is sent in this state; and all that is read
of an ARP packet, unless its sender makes no difference. Where the ports were not received, it is
enough that the packet is sent for some ports. -/
structure FrameReceived (cfg : Config) (n : Nat) (r : Router) (f : Frame cfg) : Prop where
  ipv4 : ntohs (ethertype f.bytes) = ethertypeIpv4 → ∀ pkt,
    AgreeTo (n - 14) (payload f.bytes) pkt → Forwarded cfg r.napt ⟨pkt, f.intId, f.rand⟩ →
      14 + (ntohs (totalLength (payload f.bytes))).toNat ≤ n
  arp : ntohs (ethertype f.bytes) = ethertypeArp → ArpTypes (.read (payload f.bytes) 0) →
    32 ≤ n ∨ SenderSettled n r f.bytes

theorem RegularFrame.covered {n : Nat} {f : Frame cfg} (hregular : RegularFrame n f.bytes)
    {r : Router} (hipv4 : ntohs (ethertype f.bytes) = ethertypeIpv4 →
      14 + (ntohs (totalLength (payload f.bytes))).toNat ≤ n)
    (harp : ntohs (ethertype f.bytes) = ethertypeArp → ArpTypes (.read (payload f.bytes) 0) →
      32 ≤ n ∨ SenderSettled n r f.bytes) : FrameCovered cfg n r f := by
  refine ⟨hregular.header, fun htype => ?_, fun htype => ⟨hregular.arp htype, harp htype⟩⟩
  obtain ⟨h34, hpkt⟩ := hregular.ipv4 htype
  exact ⟨h34, Regular.packetCovered (i := f.ipv4) hpkt (Nat.le_sub_of_add_le' (hipv4 htype))⟩

/-- A packet that is not sent, whatever was not received of it, makes no difference. -/
theorem noninterfering_of_dropped {n : Nat} {r : Router} (hok : r.napt.Ok) {f : Frame cfg}
    (h34 : 34 ≤ n) (htype : ntohs (ethertype f.bytes) = ethertypeIpv4)
    (hdrop : ∀ pkt, AgreeTo (n - 14) (payload f.bytes) pkt →
      ¬ Forwarded cfg r.napt ⟨pkt, f.intId, f.rand⟩) : Noninterfering cfg n r f := by
  refine (noninterfering_ipv4_iff h34 htype).2 fun pkt hagree => ?_
  have hheader := sameHeader hagree (by omega)
  have hnone {pkt : Mem} (hagree : AgreeTo (n - 14) (payload f.bytes) pkt) :
      sentPacket cfg r.napt ⟨pkt, f.intId, f.rand⟩ = none := by
    rw [← Option.not_isSome_iff_eq_none, sentPacket_isSome hok]
    exact hdrop pkt hagree
  have hsent : sentPacket cfg r.napt f.ipv4 = none := hnone fun _ _ => rfl
  have hnapt : handledNapt cfg r.napt f.ipv4 =
      handledNapt cfg r.napt ⟨pkt, f.intId, f.rand⟩ :=
    handledNapt_of_dropped hok (ipv4Path_congr hheader f.intId) hheader.protocol hsent
      (hnone hagree)
  rw [ipv4Handle_eq, ipv4Handle_eq]
  simp only [learn, hsent, hnone hagree, hnapt]

/-- **Received length.** In every state, a frame that is not read beyond what was received has the
same effects whatever follows it in the buffer. Of the regular frames, on Ethernet interfaces,
those do that were received to the end or are not sent. -/
theorem received_length (cfg : Config) :
    (∀ n r f, FrameCovered cfg n r f → Noninterfering cfg n r f) ∧
      ((∀ intId, cfg.interfaceGetType intId = .ether) → ∀ n r f, r.napt.Ok →
        RegularFrame n f.bytes → (Noninterfering cfg n r f ↔ FrameReceived cfg n r f)) := by
  refine ⟨fun n r f => noninterfering_of_covered, fun hether n r f hok hregular =>
    ⟨fun h => ⟨fun htype pkt hagree hforwarded => ?_, fun htype htypes => ?_⟩, fun h => ?_⟩⟩
  · obtain ⟨h34, hpkt⟩ := hregular.ipv4 htype
    exact received_of_noninterfering hether h h34 htype hpkt hagree
      ((sentPacket_isSome hok _).2 hforwarded)
  · by_cases h32 : 32 ≤ n
    · exact Or.inl h32
    · exact Or.inr (senderSettled_of_noninterfering h (hregular.arp htype) (by omega) htype htypes)
  · by_cases hwhole : ntohs (ethertype f.bytes) = ethertypeIpv4 →
        14 + (ntohs (totalLength (payload f.bytes))).toNat ≤ n
    · exact noninterfering_of_covered (hregular.covered hwhole h.arp)
    · -- It was cut short, so it is not sent.
      obtain ⟨htype, hshort⟩ := Classical.not_imp.1 hwhole
      exact noninterfering_of_dropped hok (hregular.ipv4 htype).1 htype
        fun pkt hagree hforwarded => hshort (h.ipv4 htype pkt hagree hforwarded)

/-- A UDP datagram with one byte of payload in an Ethernet frame of 43 bytes. -/
def oneByteFrame (b : UInt8) : Mem :=
  let frame := udpFrame ⟨2, 0, 0, 0, 0, 1⟩ (⟨192, 168, 1, 100⟩, ⟨5000⟩) (⟨8, 8, 8, 8⟩, ⟨53⟩)
  -- The two lengths, and the payload.
  ((frame.write 17 [29]).write 39 [9]).write 42 [b]

theorem oneByteFrame_regular (b : UInt8) : Regular (payload (oneByteFrame b)) := by
  have hagree : AgreeTo 28 (payload (oneByteFrame 0)) (payload (oneByteFrame b)) := by
    have hframe : AgreeTo 42 (oneByteFrame 0) (oneByteFrame b) := fun i hi =>
      (Mem.write_apply_of_lt _ _ hi).trans (Mem.write_apply_of_lt _ _ hi).symm
    exact hframe.shift
  have hregular : Regular (payload (oneByteFrame 0)) := ⟨by decide +kernel, by decide +kernel⟩
  refine (hregular.congr (fun i hi => (hagree i (by omega)).symm) fun _ => ?_).1
  have hlen : headerLen (payload (oneByteFrame 0)) = 20 := by decide +kernel
  exact (hagree.load16 (by omega)).symm

/-- Received to its end, it is handled the same whatever follows. So is an answer that nobody has
asked for, of which the last byte was not received. -/
theorem received_length_whole :
    let f : Frame shippedConfig := ⟨oneByteFrame 1, ⟨0, by decide⟩, fun _ => 0⟩
    let answer : Frame shippedConfig := ⟨udpFrame ⟨2, 0, 0, 0, 0, 1⟩ (⟨8, 8, 8, 8⟩, ⟨53⟩)
      (⟨192, 168, 0, 2⟩, ⟨1024⟩), ⟨1, by decide⟩, fun _ => 0⟩
    RegularFrame 43 f.bytes ∧ FrameReceived shippedConfig 43 routerInit f ∧
      Noninterfering shippedConfig 43 routerInit f ∧
      Noninterfering shippedConfig 38 routerInit answer := by
  intro f answer
  have htype : ntohs (ethertype f.bytes) ≠ ethertypeArp := by decide +kernel
  have hregular : RegularFrame 43 f.bytes :=
    ⟨by decide, fun _ => ⟨by decide, oneByteFrame_regular 1⟩, fun harp => absurd harp htype⟩
  have hreceived : FrameReceived shippedConfig 43 routerInit f :=
    ⟨fun _ _ _ _ => by decide +kernel, fun harp => absurd harp htype⟩
  have hunsent : (sentPacket shippedConfig naptInit answer.ipv4).isNone = true := by
    decide +kernel
  have hports : headerLen answer.ipv4.pkt = 20 := by decide +kernel
  have hcovered : FrameCovered shippedConfig 38 routerInit answer := by
    refine ⟨by decide, fun _ => ⟨by decide, fun _ _ => by rw [hports], fun pkt hsent => ?_⟩,
      fun harp => absurd harp (by decide +kernel)⟩
    rw [show sentPacket shippedConfig routerInit.napt answer.ipv4 = none from
      Option.isNone_iff_eq_none.1 hunsent] at hsent
    cases hsent
  obtain ⟨henough, hiff⟩ := received_length shippedConfig
  exact ⟨hregular, hreceived, (hiff (by decide) 43 routerInit f naptInit_ok hregular).2 hreceived,
    henough 38 routerInit answer hcovered⟩

/-- Without its last byte, the datagram leaves with the byte that the buffer has there. -/
theorem received_length_fails :
    ∃ r r', ethernetHandle shippedConfig routerInit
        ⟨oneByteFrame 1, ⟨0, by decide⟩, fun _ => 0⟩ = some r ∧
      ethernetHandle shippedConfig routerInit
        ⟨oneByteFrame 2, ⟨0, by decide⟩, fun _ => 0⟩ = some r' ∧
      AgreeTo 42 (oneByteFrame 1) (oneByteFrame 2) ∧
      (r.log.filterMap Event.queues).map (fun p => p.2.pkt 28) = [1] ∧
      (r'.log.filterMap Event.queues).map (fun p => p.2.pkt 28) = [2] ∧
      ¬ Noninterfering shippedConfig 42 routerInit
        ⟨oneByteFrame 1, ⟨0, by decide⟩, fun _ => 0⟩ := by
  have hagree : AgreeTo 42 (oneByteFrame 1) (oneByteFrame 2) := fun i hi =>
    (Mem.write_apply_of_lt _ _ hi).trans (Mem.write_apply_of_lt _ _ hi).symm
  have hsent (b : UInt8) (hb : b = 1 ∨ b = 2) :
      ((ethernetHandle shippedConfig routerInit ⟨oneByteFrame b, ⟨0, by decide⟩,
        fun _ => 0⟩).map fun r => (r.log.filterMap Event.queues).map fun p => p.2.pkt 28) =
          some [b] := by
    rcases hb with rfl | rfl <;> decide +kernel
  obtain ⟨r, hr, hone⟩ := Option.map_eq_some_iff.1 (hsent 1 (Or.inl rfl))
  obtain ⟨r', hr', htwo⟩ := Option.map_eq_some_iff.1 (hsent 2 (Or.inr rfl))
  refine ⟨r, r', hr, hr', hagree, hone, htwo, fun h => ?_⟩
  have hsame := (hr.symm.trans (h _ hagree)).trans hr'
  rw [Option.some.inj hsame, htwo] at hone
  cases hone

end NaptRouter
