import NaptRouter.Egress
import NaptRouter.Segments

/-!
# What forwarding does to a packet

A packet that is translated is rewritten in the buffer it was read into, and `send_ipv4` fills in
its checksums there. Of the packet this changes an address, a port and two checksums, and nothing
after its end; except that `calculate_checksum` clears the byte after an odd number of bytes, which
is in the packet if the UDP length is shorter than the packet, and after its end otherwise
(`forwarding_leaves_alone_iff`).
-/

namespace NaptRouter

open ByteMemory

variable {cfg : Config} {pkt : Mem}

/-! ## Translation -/

/-- The packet is translated, its buffer rewritten at the address and the port at these offsets of
the two headers, and sent. -/
inductive Translated (cfg : Config) (r : Router) (pkt : Mem) :
    Nat → Nat → (Mem → Mem) → Router → Prop
  | out {rand : Nat → Nat} {napt : Napt} {newPortSrc : Port} {r' : Router} :
      naptOutTranslate cfg r.napt pkt rand = some (napt, some newPortSrc) →
      naptOutHandle cfg r pkt rand = some r' →
      Translated cfg r pkt 12 0 (fun m => naptOutRewrite cfg m newPortSrc) r'
  | inc {napt : Napt} {lanIp : IpAddr} {lanPort : Port} {r' : Router} :
      naptIncTranslate r.napt pkt = some (napt, some (lanIp, lanPort)) →
      naptIncHandle cfg r pkt = some r' →
      Translated cfg r pkt 16 2 (fun m => naptIncRewrite m lanIp lanPort) r'

/-- A translation writes four bytes of the IP header and two of the ports. -/
structure Rewrites (addrOff portOff : Nat) (rewrite : Mem → Mem) : Prop where
  addr : addrOff = 12 ∨ addrOff = 16
  port : portOff = 0 ∨ portOff = 2
  keeps : ∀ (m : Mem) (i : Nat), (i < addrOff ∨ addrOff + 4 ≤ i) →
    (i < headerLen m + portOff ∨ headerLen m + portOff + 2 ≤ i) → rewrite m i = m i

theorem rewrites_write {addrOff portOff : Nat} (haddr : addrOff = 12 ∨ addrOff = 16)
    (hport : portOff = 0 ∨ portOff = 2) (ip : IpAddr) (v : UInt16) :
    Rewrites addrOff portOff fun m =>
      (m.write addrOff ip.bytes).store16 (headerLen m + portOff) v := by
  refine ⟨haddr, hport, fun m i hi hi' => ?_⟩
  have hwrite : m.write addrOff ip.bytes i = m i := by
    rcases hi with hlt | hge
    · exact m.write_apply_of_lt _ hlt
    · exact m.write_apply_of_ge _ hge
  rw [← hwrite]
  rcases hi' with hlt | hge
  · exact store16_apply_of_lt _ _ hlt
  · exact store16_apply_of_ge _ _ hge

variable {r r' : Router} {addrOff portOff : Nat} {rewrite : Mem → Mem}

theorem Translated.rewrites (h : Translated cfg r pkt addrOff portOff rewrite r') :
    Rewrites addrOff portOff rewrite := by
  cases h with
  | out => exact rewrites_write (Or.inl rfl) (Or.inl rfl) _ _
  | inc => exact rewrites_write (Or.inr rfl) (Or.inr rfl) _ _

theorem Translated.ports (h : Translated cfg r pkt addrOff portOff rewrite r') :
    (transportPorts pkt).isSome = true := by
  cases h with
  | out htr => exact naptOutTranslate_isSome htr
  | inc htr => exact naptIncTranslate_isSome htr

/-- The rewritten packet is sent, with its checksums. -/
theorem Translated.log (h : Translated cfg r pkt addrOff portOff rewrite r') :
    ∃ es, r'.log = r.log ++ es ∧ ∀ e ∈ es, Carries cfg (rewrite pkt) e := by
  cases h with
  | @out _ napt _ _ htr hsend =>
    simp only [naptOutHandle, htr, Option.bind_eq_bind, Option.bind_some,
      Option.some.injEq] at hsend
    rw [← hsend]
    exact sendIpv4_log cfg { r with napt } _
  | @inc napt _ _ _ htr hsend =>
    simp only [naptIncHandle, htr, Option.bind_eq_bind, Option.bind_some,
      Option.some.injEq] at hsend
    rw [← hsend]
    exact sendIpv4_log cfg { r with napt } _

/-! ## The buffer -/

/-- The bytes that are to change: the address, the port and the two checksums. -/
def MayChange (pkt : Mem) (addrOff portOff i : Nat) : Prop :=
  (addrOff ≤ i ∧ i < addrOff + 4) ∨
    (headerLen pkt + portOff ≤ i ∧ i < headerLen pkt + portOff + 2) ∨
    (i = 10 ∨ i = 11) ∨
    (headerLen pkt + transportChecksumOff pkt ≤ i ∧
      i < headerLen pkt + transportChecksumOff pkt + 2)

/-- What is sent is the packet but for these bytes; and whatever a byte after the packet is, it is
still there. -/
structure LeavesAlone (pkt : Mem) (addrOff portOff : Nat) (rewrite : Mem → Mem) : Prop where
  inside : ∀ i < (ntohs (totalLength pkt)).toNat, ¬ MayChange pkt addrOff portOff i →
    fillChecksums (rewrite pkt) i = pkt i
  after : ∀ i ≥ (ntohs (totalLength pkt)).toNat, ∀ b,
    fillChecksums (rewrite (pkt.write i [b])) i = b

/-- The lengths, the protocol and the UDP checksum are elsewhere. -/
theorem sameLengths_of_keeps {q : Mem} (hheader : ∀ i < 12, q i = pkt i)
    (hudp : ∀ i, headerLen pkt + 4 ≤ i → i < headerLen pkt + 8 → q i = pkt i) :
    SameLengths pkt q ∧ (Summed q ↔ Summed pkt) := by
  have hlen : headerLen q = headerLen pkt := headerLen_congr (hheader 0 (by omega))
  have hproto : protocol q = protocol pkt := hheader 9 (by omega)
  refine ⟨⟨hlen, ?_, hproto, fun _ => ?_⟩, ?_⟩
  · exact load16_congr (Mem.read_congr fun i hi => hheader _ (by omega))
  · exact load16_congr (Mem.read_congr fun i hi => hudp _ (by omega) (by omega))
  · have hchecksum : udpChecksum q = udpChecksum pkt := by
      rw [udpChecksum, udpChecksum, hlen, udpChecksumOff]
      exact load16_congr (Mem.read_congr fun i hi => hudp _ (by omega) (by omega))
    rw [Summed, Summed, hproto, hchecksum]

theorem padded_congr {q : Mem} (h : SameLengths pkt q) (hsum : Summed q ↔ Summed pkt) (i : Nat) :
    Padded q i ↔ Padded pkt i := by
  rw [Padded, Padded, hsum, h.coveredLen_eq, h.header]

/-- The ports and the checksum of the segment are before the end of the packet. -/
theorem SegmentInside.fields_le (h : SegmentInside pkt)
    (hports : (transportPorts pkt).isSome = true) :
    headerLen pkt + 8 ≤ (ntohs (totalLength pkt)).toNat ∧
      headerLen pkt + transportChecksumOff pkt + 2 ≤ (ntohs (totalLength pkt)).toNat := by
  have htotal := h.wellFormed.2
  rw [transportLen] at htotal
  rw [transportPorts] at hports
  rw [transportChecksumOff]
  split_ifs at hports with hproto
  · rcases hproto with htcp | hudp
    · have hne : protocol pkt ≠ 0x11 := by
        rw [htcp]
        decide
      rw [if_neg hne, if_pos htcp] at htotal
      rw [if_neg hne, tcpChecksumOff]
      omega
    · rw [if_pos hudp] at htotal
      rw [if_pos hudp, udpChecksumOff]
      omega
  · cases hports

/-- What is written to a rewritten packet besides the bytes that are to change is the padding. The
packet `q` may differ from `pkt` where the two have no header. -/
theorem Rewrites.filled (h : Rewrites addrOff portOff rewrite) (hpkt : SegmentInside pkt) {q : Mem}
    (hheader : ∀ i < 20, q i = pkt i)
    (hports : ∀ i, headerLen pkt ≤ i → i < headerLen pkt + 8 → q i = pkt i) {i : Nat}
    (hi : ¬ MayChange pkt addrOff portOff i) :
    (Padded pkt i → fillChecksums (rewrite q) i = 0) ∧
      (¬ Padded pkt i → fillChecksums (rewrite q) i = q i) := by
  have h20 := hpkt.wellFormed.1
  have haddr := h.addr
  have hport := h.port
  have hlen : headerLen q = headerLen pkt := headerLen_congr (hheader 0 (by omega))
  have hkeeps := h.keeps q
  rw [hlen] at hkeeps
  obtain ⟨hsame, hsum⟩ := sameLengths_of_keeps (q := rewrite q)
    (fun j hj => (hkeeps j (by omega) (by omega)).trans (hheader j (by omega)))
    (fun j hj hj' => (hkeeps j (by omega) (by omega)).trans (hports j (by omega) hj'))
  have hinside := hsame.segmentInside hpkt
  rw [← padded_congr hsame hsum i]
  refine ⟨fillChecksums_padded hinside, fun hpad => ?_⟩
  simp only [MayChange, not_or, not_and_or] at hi
  rw [fillChecksums_other hinside (by omega) (by omega) ?_ hpad]
  · exact hkeeps i (by omega) (by omega)
  · rw [hsame.header, hsame.transportChecksumOff_eq]
    omega

theorem Rewrites.padded (h : Rewrites addrOff portOff rewrite) (hpkt : SegmentInside pkt) {i : Nat}
    (hpad : Padded pkt i) : ¬ MayChange pkt addrOff portOff i := by
  have h20 := hpkt.wellFormed.1
  have haddr := h.addr
  have hport := h.port
  obtain ⟨hsum, -, rfl⟩ := hpad
  have hcovered := (hpkt.covered hsum).1
  have hoff : 6 ≤ transportChecksumOff pkt := by
    rw [transportChecksumOff]
    split_ifs
    · decide
    · decide
  rw [MayChange]
  omega

theorem Translated.segment_end (h : Translated cfg r pkt addrOff portOff rewrite r')
    (hpkt : SegmentInside pkt) :
    headerLen pkt + segmentLen pkt = (ntohs (totalLength pkt)).toNat := by
  obtain ⟨h8, -⟩ := hpkt.fields_le h.ports
  rw [segmentLen]
  omega

/-- A byte after the packet may be any other: it is no byte that is to change. -/
theorem Translated.filled_after (h : Translated cfg r pkt addrOff portOff rewrite r')
    (hpkt : SegmentInside pkt) {i : Nat} (hi : i ≥ (ntohs (totalLength pkt)).toNat) (b : UInt8) :
    (Padded pkt i → fillChecksums (rewrite (pkt.write i [b])) i = 0) ∧
      (¬ Padded pkt i → fillChecksums (rewrite (pkt.write i [b])) i = b) := by
  have h20 := hpkt.wellFormed.1
  have haddr := h.rewrites.addr
  have hport := h.rewrites.port
  obtain ⟨h8, hfield⟩ := hpkt.fields_le h.ports
  have hfilled := h.rewrites.filled hpkt (q := pkt.write i [b])
    (fun j hj => pkt.write_apply_of_lt _ (by omega))
    (fun j hj hj' => pkt.write_apply_of_lt _ (by omega)) (i := i) (by rw [MayChange]; omega)
  rwa [pkt.write_apply_singleton i b] at hfilled

/-- **Forwarding leaves the payload alone** if and only if there is no padding to be written, or it
is written over a zero inside the packet. -/
theorem forwarding_leaves_alone_iff (h : Translated cfg r pkt addrOff portOff rewrite r')
    (hpkt : SegmentInside pkt) :
    (∃ es, r'.log = r.log ++ es ∧ ∀ e ∈ es, Carries cfg (rewrite pkt) e) ∧
      (LeavesAlone pkt addrOff portOff rewrite ↔
        ¬ Summed pkt ∨ coveredLen pkt % 2 = 0 ∨
          coveredLen pkt < segmentLen pkt ∧ pkt (headerLen pkt + coveredLen pkt) = 0) := by
  refine ⟨h.log, ?_⟩
  have hend := h.segment_end hpkt
  have hinside {i : Nat} (hi : ¬ MayChange pkt addrOff portOff i) :=
    h.rewrites.filled hpkt (q := pkt) (fun _ _ => rfl) (fun _ _ _ => rfl) hi
  constructor
  · intro halone
    by_contra hcond
    simp only [not_or, not_and_or, not_not] at hcond
    obtain ⟨hsum, hodd, hbyte⟩ := hcond
    have hpad : Padded pkt (headerLen pkt + coveredLen pkt) := ⟨hsum, by omega, rfl⟩
    have hle := (hpkt.covered hsum).2
    -- The padding byte is inside the segment, or the first byte behind the packet.
    by_cases hlt : coveredLen pkt < segmentLen pkt
    · have hchange := h.rewrites.padded hpkt hpad
      have hzero := halone.inside _ (by omega) hchange
      rw [(hinside hchange).1 hpad] at hzero
      exact hbyte.elim (absurd hlt) fun hne => hne hzero.symm
    · have hge : headerLen pkt + coveredLen pkt ≥ (ntohs (totalLength pkt)).toNat := by omega
      have hone := halone.after _ hge 1
      rw [(h.filled_after hpkt hge 1).1 hpad] at hone
      exact absurd hone (by decide)
  · intro hcond
    refine ⟨fun i hi hchange => ?_, fun i hi b => (h.filled_after hpkt hi b).2 ?_⟩
    · by_cases hpad : Padded pkt i
      · obtain ⟨hsum, hodd, rfl⟩ := id hpad
        rcases hcond with hunsummed | heven | ⟨-, hzero⟩
        · exact absurd hsum hunsummed
        · omega
        · rw [(hinside hchange).1 hpad, hzero]
      · exact (hinside hchange).2 hpad
    · rintro ⟨hsum, hodd, rfl⟩
      rcases hcond with hunsummed | heven | ⟨hlt, -⟩
      · exact hunsummed hsum
      · omega
      · omega

/-- The first packet of a flow goes out from the port that is drawn. -/
theorem exists_translated_out (cfg : Config) (r : Router) (pkt : Mem) (rand : Nat → Nat)
    (newPortSrc : Port)
    (h : (naptOutTranslate cfg r.napt pkt rand).map (·.2) = some (some newPortSrc)) :
    ∃ r', Translated cfg r pkt 12 0 (fun m => naptOutRewrite cfg m newPortSrc) r' := by
  obtain ⟨⟨napt, port⟩, htr, hport⟩ := Option.map_eq_some_iff.1 h
  obtain rfl : port = some newPortSrc := hport
  refine ⟨sendIpv4 cfg { r with napt } (naptOutRewrite cfg pkt newPortSrc), .out htr ?_⟩
  simp only [naptOutHandle, htr, Option.bind_eq_bind, Option.bind_some]

/-- A datagram of even length. -/
theorem forwarding_leaves_alone_even :
    ∃ pkt r', Summed pkt ∧ segmentLen pkt = 10 ∧
      Translated shippedConfig routerInit pkt 12 0
        (fun m => naptOutRewrite shippedConfig m ⟨1024⟩) r' ∧
      LeavesAlone pkt 12 0 fun m => naptOutRewrite shippedConfig m ⟨1024⟩ := by
  let pkt := Mem.zero.write 0 ([0x45, 0, 0, 30, 0, 0, 0, 0, 64, 17, 0, 0, 192, 168, 1, 100,
    8, 8, 8, 8, 0x13, 0x88, 0, 53, 0, 10, 0xAB, 0xCD, 0x7F, 0x80])
  obtain ⟨r', h⟩ := exists_translated_out shippedConfig routerInit pkt (fun _ => 0) ⟨1024⟩
    (by decide +kernel)
  refine ⟨pkt, r', Or.inr (by decide), by decide, h, ?_⟩
  exact (forwarding_leaves_alone_iff h ⟨by decide, by decide⟩).2.2 (Or.inr (Or.inl (by decide)))

/-- Two datagrams with one byte of payload. The first ends after it, and the byte after the packet
is cleared; the second goes on, and `0x80` is sent as zero. -/
theorem forwarding_leaves_alone_fails :
    (∃ pkt r', SegmentInside pkt ∧ (ntohs (totalLength pkt)).toNat = 29 ∧
      Translated shippedConfig routerInit pkt 12 0
        (fun m => naptOutRewrite shippedConfig m ⟨1024⟩) r' ∧ pkt 29 = 0x80 ∧
      fillChecksums (naptOutRewrite shippedConfig pkt ⟨1024⟩) 29 = 0 ∧
      ¬ LeavesAlone pkt 12 0 fun m => naptOutRewrite shippedConfig m ⟨1024⟩) ∧
    ∃ pkt r', SegmentInside pkt ∧ (ntohs (totalLength pkt)).toNat = 30 ∧
      Translated shippedConfig routerInit pkt 12 0
        (fun m => naptOutRewrite shippedConfig m ⟨1024⟩) r' ∧ pkt 29 = 0x80 ∧
      fillChecksums (naptOutRewrite shippedConfig pkt ⟨1024⟩) 29 = 0 ∧
      ¬ LeavesAlone pkt 12 0 fun m => naptOutRewrite shippedConfig m ⟨1024⟩ := by
  let pkt (total : UInt8) := Mem.zero.write 0 ([0x45, 0, 0, total, 0, 0, 0, 0, 64, 17, 0, 0,
    192, 168, 1, 100, 8, 8, 8, 8, 0x13, 0x88, 0, 53, 0, 9, 0xAB, 0xCD, 0x7F, 0x80])
  obtain ⟨r', h⟩ := exists_translated_out shippedConfig routerInit (pkt 29) (fun _ => 0)
    ⟨1024⟩ (by decide +kernel)
  obtain ⟨r'', h'⟩ := exists_translated_out shippedConfig routerInit (pkt 30) (fun _ => 0)
    ⟨1024⟩ (by decide +kernel)
  refine ⟨⟨pkt 29, r', ⟨by decide, by decide⟩, by decide, h, by decide, by decide +kernel, ?_⟩,
    pkt 30, r'', ⟨by decide, by decide⟩, by decide, h', by decide, by decide +kernel, ?_⟩
  · intro halone
    have hone := halone.after 29 (by decide) 1
    revert hone
    decide +kernel
  · intro halone
    have hbyte := halone.inside 29 (by decide) (by rw [MayChange]; decide)
    revert hbyte
    decide +kernel

end NaptRouter
