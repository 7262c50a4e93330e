import NaptRouter.Checksums

/-!
# The segment under the checksum

`send_ipv4` takes the length of a TCP segment from the IP header and that of a UDP datagram from
the UDP header. For a segment inside its packet, this module says which bytes the checksums are
written to (`fillChecksums_other`, `fillChecksums_padded`), and that filling them in again changes
nothing (`fillChecksums_idem`).
-/

namespace NaptRouter

open ByteMemory

/-- The segment is inside the packet. -/
structure SegmentInside (pkt : Mem) : Prop where
  wellFormed : WellFormed pkt
  udp : protocol pkt = 0x11 → 8 ≤ (ntohs (udpLength pkt (headerLen pkt))).toNat ∧
    (ntohs (udpLength pkt (headerLen pkt))).toNat ≤ segmentLen pkt

/-- Where the checksum is in the transport header. -/
def transportChecksumOff (pkt : Mem) : Nat :=
  if protocol pkt = 0x11 then udpChecksumOff else tcpChecksumOff

/-- How much of the segment is under its checksum. -/
def coveredLen (pkt : Mem) : Nat :=
  if protocol pkt = 0x11 then (ntohs (udpLength pkt (headerLen pkt))).toNat else segmentLen pkt

/-- The length in the pseudo header. -/
def pseudoLength (pkt : Mem) : UInt16 :=
  if protocol pkt = 0x11 then udpLength pkt (headerLen pkt)
  else ntohs (ntohs (totalLength pkt) - UInt16.ofNat (headerLen pkt))

/-- A UDP checksum is not sent as zero. -/
def storedChecksum (pkt : Mem) (checksum : UInt16) : UInt16 :=
  if protocol pkt = 0x11 ∧ checksum = 0 then 0xffff else checksum

/-- The checksum of the segment, and the packet it leaves. -/
def segmentSum (pkt : Mem) : UInt16 × Mem :=
  transportChecksum (headerChecksum pkt) (headerLen pkt) (transportChecksumOff pkt)
    (coveredLen pkt) (pseudoLength pkt)

variable {pkt : Mem}

theorem SegmentInside.covered (h : SegmentInside pkt) (hsum : Summed pkt) :
    transportChecksumOff pkt + 2 ≤ coveredLen pkt ∧ coveredLen pkt ≤ segmentLen pkt := by
  obtain ⟨h20, htotal⟩ := h.wellFormed
  rw [transportChecksumOff, coveredLen]
  rcases hsum with htcp | ⟨hudp, -⟩
  · have hne : protocol pkt ≠ 0x11 := by
      rw [htcp]
      decide
    rw [transportLen, if_neg hne, if_pos htcp] at htotal
    rw [if_neg hne, if_neg hne, tcpChecksumOff, segmentLen]
    omega
  · rw [if_pos hudp, if_pos hudp, udpChecksumOff]
    exact h.udp hudp

/-- **Both protocols at once.** -/
theorem fillChecksums_summed (h : SegmentInside pkt) (hsum : Summed pkt) :
    fillChecksums pkt = (segmentSum pkt).2.store16 (headerLen pkt + transportChecksumOff pkt)
      (storedChecksum pkt (segmentSum pkt).1) := by
  obtain ⟨h20, htotal⟩ := h.wellFormed
  rw [segmentSum, transportChecksumOff, coveredLen, pseudoLength]
  rcases hsum with htcp | ⟨hudp, hne⟩
  · have hne : protocol pkt ≠ 0x11 := by
      rw [htcp]
      decide
    have hstored (checksum : UInt16) : storedChecksum pkt checksum = checksum :=
      if_neg fun hzero => hne hzero.1
    rw [if_neg hne, if_neg hne, if_neg hne, hstored, fillChecksums_tcp htcp rfl,
      toNat_tcpLen (by omega)]
  · have hstored (checksum : UInt16) :
        storedChecksum pkt checksum = if checksum = 0 then 0xffff else checksum := by
      rw [storedChecksum]
      simp only [hudp, true_and]
    rw [if_pos hudp, if_pos hudp, if_pos hudp, hstored]
    exact fillChecksums_udp h20 hudp hne rfl rfl

/-! ## Packets with the same lengths -/

/-- What tells where the segment of a packet is, and what is under its checksum. -/
structure SameLengths (pkt q : Mem) : Prop where
  header : headerLen q = headerLen pkt
  total : totalLength q = totalLength pkt
  proto : protocol q = protocol pkt
  udp : protocol pkt = 0x11 → udpLength q (headerLen pkt) = udpLength pkt (headerLen pkt)

namespace SameLengths

variable {q : Mem}

theorem segmentLen_eq (h : SameLengths pkt q) : segmentLen q = segmentLen pkt := by
  rw [segmentLen, h.total, h.header, segmentLen]

theorem transportChecksumOff_eq (h : SameLengths pkt q) :
    transportChecksumOff q = transportChecksumOff pkt := by
  rw [transportChecksumOff, h.proto, transportChecksumOff]

theorem coveredLen_eq (h : SameLengths pkt q) : coveredLen q = coveredLen pkt := by
  rw [coveredLen, coveredLen, h.proto, h.header, h.segmentLen_eq]
  split_ifs with hudp
  · rw [h.udp hudp]
  · rfl

theorem pseudoLength_eq (h : SameLengths pkt q) : pseudoLength q = pseudoLength pkt := by
  rw [pseudoLength, pseudoLength, h.proto, h.header, h.total]
  split_ifs with hudp
  · exact h.udp hudp
  · rfl

theorem segmentInside (h : SameLengths pkt q) (hpkt : SegmentInside pkt) : SegmentInside q := by
  constructor
  · rw [WellFormed, transportLen, h.header, h.total, h.proto]
    exact hpkt.wellFormed
  · intro hudp
    rw [h.proto] at hudp
    rw [h.header, h.segmentLen_eq, h.udp hudp]
    exact hpkt.udp hudp

end SameLengths

/-! ## The bytes that are written -/

/-- The byte after an odd run, where `calculate_checksum` writes its padding. -/
def Padded (pkt : Mem) (i : Nat) : Prop :=
  Summed pkt ∧ coveredLen pkt % 2 = 1 ∧ i = headerLen pkt + coveredLen pkt

theorem calculateChecksum_snd (m : Mem) (ptr len : Nat) :
    (calculateChecksum m ptr len).2 = if len % 2 = 1 then m.write (ptr + len) [0] else m := rfl

theorem calculateChecksum_apply_of_ne (m : Mem) {ptr len i : Nat}
    (h : len % 2 = 1 → i ≠ ptr + len) : (calculateChecksum m ptr len).2 i = m i := by
  rw [calculateChecksum_snd]
  split_ifs with hodd
  · have hne := h hodd
    by_cases hlt : i < ptr + len
    · exact m.write_apply_of_lt _ hlt
    · apply m.write_apply_of_ge
      rw [List.length_singleton]
      omega
  · rfl

theorem calculateChecksum_apply_pad (m : Mem) {ptr len : Nat} (hodd : len % 2 = 1) :
    (calculateChecksum m ptr len).2 (ptr + len) = 0 := by
  rw [calculateChecksum_snd, if_pos hodd]
  exact m.write_apply_singleton (ptr + len) 0

theorem calculateChecksum_idem (m : Mem) (ptr len : Nat) :
    calculateChecksum (calculateChecksum m ptr len).2 ptr len = calculateChecksum m ptr len := by
  refine Prod.ext ?_ ?_
  · apply calculateChecksum_congr
    apply Mem.read_congr
    intro i hi
    exact calculateChecksum_apply m (by omega)
  · simp only [calculateChecksum_snd]
    split_ifs
    · exact Mem.write_write m _ rfl
    · rfl

theorem segmentSum_store_apply (v : UInt16) {i : Nat}
    (hi : i < headerLen pkt + transportChecksumOff pkt ∨
      headerLen pkt + transportChecksumOff pkt + 2 ≤ i)
    (hpad : coveredLen pkt % 2 = 1 → i ≠ headerLen pkt + coveredLen pkt) :
    (segmentSum pkt).2.store16 (headerLen pkt + transportChecksumOff pkt) v i =
      headerChecksum pkt i := by
  have hstore (m : Mem) (v : UInt16) :
      m.store16 (headerLen pkt + transportChecksumOff pkt) v i = m i := by
    rcases hi with hlt | hge
    · exact store16_apply_of_lt _ _ hlt
    · exact store16_apply_of_ge _ _ hge
  rw [hstore, segmentSum, transportChecksum, calculateChecksum_apply_of_ne _ hpad, hstore]

/-- **The bytes that are left alone.** -/
theorem fillChecksums_other (h : SegmentInside pkt) {i : Nat} (h10 : i ≠ 10) (h11 : i ≠ 11)
    (hi : i < headerLen pkt + transportChecksumOff pkt ∨
      headerLen pkt + transportChecksumOff pkt + 2 ≤ i)
    (hpad : ¬ Padded pkt i) : fillChecksums pkt i = pkt i := by
  rw [← headerChecksum_apply pkt h10 h11]
  by_cases hsum : Summed pkt
  · rw [fillChecksums_summed h hsum]
    exact segmentSum_store_apply _ hi fun hodd heq => hpad ⟨hsum, hodd, heq⟩
  · rw [fillChecksums_unsummed h.wellFormed.1 hsum]

theorem fillChecksums_padded (h : SegmentInside pkt) {i : Nat} (hi : Padded pkt i) :
    fillChecksums pkt i = 0 := by
  obtain ⟨hsum, hodd, rfl⟩ := hi
  have hcovered := (h.covered hsum).1
  rw [fillChecksums_summed h hsum, store16_apply_of_ge _ _ (by omega), segmentSum,
    transportChecksum]
  exact calculateChecksum_apply_pad _ hodd

/-! ## Filling in the checksums again -/

/-- The checksum of the header. -/
def headerSum (pkt : Mem) : UInt16 :=
  (calculateChecksum (setChecksum pkt 0) 0 (headerLen pkt)).1

theorem headerChecksum_eq (pkt : Mem) : headerChecksum pkt = setChecksum pkt (headerSum pkt) := by
  have hlen : headerLen (setChecksum pkt 0) = headerLen pkt :=
    headerLen_congr (setChecksum_apply _ _ (by decide) (by decide))
  have heven : headerLen pkt % 2 ≠ 1 := by
    rw [headerLen]
    omega
  simp only [headerChecksum, hlen]
  rw [calculateChecksum_snd, if_neg heven]
  exact store16_store16 pkt 10 0 (headerSum pkt)

theorem headerChecksum_fillChecksums (h20 : 20 ≤ headerLen pkt) :
    headerChecksum (fillChecksums pkt) = fillChecksums pkt := by
  have hlen : headerLen (fillChecksums pkt) = headerLen pkt := (fillChecksums_fields h20).1
  have hsum : headerSum (fillChecksums pkt) = headerSum pkt := by
    rw [headerSum, headerSum, hlen]
    apply calculateChecksum_congr
    apply Mem.read_congr
    intro i hi
    rw [Nat.zero_add]
    by_cases hfield : i = 10 ∨ i = 11
    · rcases hfield with rfl | rfl
      · rfl
      · rfl
    · rw [not_or] at hfield
      rw [setChecksum_apply _ _ hfield.1 hfield.2, setChecksum_apply _ _ hfield.1 hfield.2]
      exact fillChecksums_apply hi hfield.1 hfield.2
  rw [headerChecksum_eq, hsum]
  apply store16_load16
  have hheader : (fillChecksums pkt).load16 10 = (headerChecksum pkt).load16 10 :=
    load16_congr (Mem.read_congr fun i hi => fillChecksums_header pkt (by omega))
  rw [hheader, headerChecksum_eq]
  exact load16_store16 pkt 10 _

/-- The sum of a segment that has its checksum is the sum it had. -/
theorem segmentSum_idem (h : SegmentInside pkt) (hsum : Summed pkt) (v : UInt16) :
    transportChecksum
        ((segmentSum pkt).2.store16 (headerLen pkt + transportChecksumOff pkt) v)
        (headerLen pkt) (transportChecksumOff pkt) (coveredLen pkt) (pseudoLength pkt) =
      segmentSum pkt := by
  have hcovered := (h.covered hsum).1
  have h20 := h.wellFormed.1
  have hheader {i : Nat} (hi : i < headerLen pkt) :
      (segmentSum pkt).2.store16 (headerLen pkt + transportChecksumOff pkt) v i =
        headerChecksum pkt i :=
    segmentSum_store_apply v (Or.inl (by omega)) fun _ => by omega
  have hpseudo : pseudoHdr ((segmentSum pkt).2.store16
      (headerLen pkt + transportChecksumOff pkt) v) (pseudoLength pkt) =
        pseudoHdr (headerChecksum pkt) (pseudoLength pkt) := by
    have hsrc := IpAddr.read_congr (Mem.read_congr fun i (hi : i < 4) =>
      hheader (i := 12 + i) (by omega))
    have hdst := IpAddr.read_congr (Mem.read_congr fun i (hi : i < 4) =>
      hheader (i := 16 + i) (by omega))
    have hproto := hheader (i := 9) (by omega)
    rw [pseudoHdr, pseudoHdr, ipSrc, ipDst, protocol, hsrc, hdst, hproto]
    rfl
  -- The field still holds the sum of the pseudo header when the segment is added up.
  have hfield : (segmentSum pkt).2.load16 (headerLen pkt + transportChecksumOff pkt) =
      ~~~(calculateChecksum (pseudoHdr (headerChecksum pkt) (pseudoLength pkt)) 0 12).1 := by
    rw [segmentSum, transportChecksum]
    rw [load16_congr (Mem.read_congr fun i hi => calculateChecksum_apply _ (by omega))]
    exact load16_store16 (headerChecksum pkt) _ _
  rw [transportChecksum]
  simp only [hpseudo, store16_store16]
  rw [store16_load16 _ hfield]
  exact calculateChecksum_idem _ _ _

theorem sameLengths_fillChecksums (h : SegmentInside pkt) :
    SameLengths pkt (fillChecksums pkt) := by
  have h20 := h.wellFormed.1
  obtain ⟨hlen, htotal, hproto, -, -⟩ := fillChecksums_fields h20
  refine ⟨hlen, htotal, hproto, fun hudp => ?_⟩
  have h8 := (h.udp hudp).1
  have hoff : transportChecksumOff pkt = 6 := if_pos hudp
  have hcovered : coveredLen pkt = (ntohs (udpLength pkt (headerLen pkt))).toNat := if_pos hudp
  apply load16_congr
  apply Mem.read_congr
  intro i hi
  refine fillChecksums_other h (by omega) (by omega) (Or.inl (by omega)) fun hpad => ?_
  obtain ⟨-, -, heq⟩ := hpad
  omega

/-- **Filling in the checksums again changes nothing.** -/
theorem fillChecksums_idem (h : SegmentInside pkt) :
    fillChecksums (fillChecksums pkt) = fillChecksums pkt := by
  have h20 := h.wellFormed.1
  have hheader := headerChecksum_fillChecksums h20
  have hsame := sameLengths_fillChecksums h
  by_cases hsum : Summed pkt
  · have hfill := fillChecksums_summed h hsum
    have hsum' : Summed (fillChecksums pkt) := by
      refine hsum.imp hsame.proto.trans fun ⟨hudp, _⟩ => ⟨hsame.proto.trans hudp, ?_⟩
      have hoff : transportChecksumOff pkt = udpChecksumOff := if_pos hudp
      rw [udpChecksum, hsame.header, hfill, hoff, load16_store16, storedChecksum]
      split_ifs with hzero
      · decide
      · exact fun h0 => hzero ⟨hudp, h0⟩
    have hsegment : segmentSum (fillChecksums pkt) = segmentSum pkt := by
      rw [segmentSum, hheader, hsame.header, hsame.transportChecksumOff_eq, hsame.coveredLen_eq,
        hsame.pseudoLength_eq, hfill]
      exact segmentSum_idem h hsum _
    rw [fillChecksums_summed (hsame.segmentInside h) hsum', hsegment, hsame.header,
      hsame.transportChecksumOff_eq, storedChecksum, hsame.proto]
    exact hfill.symm
  · have hsum' : ¬ Summed (fillChecksums pkt) := by
      rwa [fillChecksums_unsummed h20 hsum, Summed, udpChecksum_headerChecksum h20,
        (headerChecksum_fields pkt).2.2.1]
    rw [fillChecksums_unsummed (hsame.header ▸ h20) hsum', hheader]

end NaptRouter
