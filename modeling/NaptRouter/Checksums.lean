import NaptRouter.QueueFlow
import NaptRouter.Lib.OnesComplement

/-!
# The checksums of what is sent

`calculate_checksum` adds words in the byte order of the machine, and `send_ipv4` lets the
pseudo header into the sum through the checksum field of the segment. A receiver adds words in
network order, the pseudo header first. It gets `0xFFFF` for every packet that is well formed
(`checksums_verify`).
-/

namespace NaptRouter

open ByteMemory OnesComplement

/-! ## `calculate_checksum` -/

theorem leWords_cons_cons (m : Mem) (ptr len : Nat) :
    leWords (m.read ptr (len + 2)) = (m.load16 ptr).toNat :: leWords (m.read (ptr + 2) len) := by
  rw [Nat.add_comm, Mem.read_add, toNat_load16]
  rfl

theorem calculateChecksum_shift (m : Mem) (ptr len : Nat) :
    (calculateChecksum m ptr (len + 2)).2 = (calculateChecksum m (ptr + 2) len).2 := by
  simp only [calculateChecksum, Nat.add_mod_right]
  rw [Nat.add_comm len 2, Nat.add_assoc]

/-- The words that the loop adds up are those of the run, with the padding byte. -/
theorem leWords_read (m : Mem) (ptr len : Nat) :
    leWords (m.read ptr len) = (List.range ((len + 1) / 2)).map fun i =>
      ((calculateChecksum m ptr len).2.load16 (ptr + 2 * i)).toNat := by
  induction len using Nat.twoStepInduction generalizing ptr with
  | zero => rfl
  | one =>
    have hword : ((calculateChecksum m ptr 1).2.load16 ptr).toNat = (m ptr).toNat := by
      rw [toNat_load16, calculateChecksum_apply m (Nat.lt_succ_self ptr)]
      simp [calculateChecksum, Mem.write]
    change [(m ptr).toNat] = [_]
    rw [← hword]
    rfl
  | more len ih _ =>
    have hword : (calculateChecksum m ptr (len + 2)).2.load16 ptr = m.load16 ptr :=
      load16_congr (Mem.read_congr fun i hi => calculateChecksum_apply m (by omega))
    have hn : (len + 2 + 1) / 2 = (len + 1) / 2 + 1 := by omega
    rw [leWords_cons_cons, ih, hn, List.range_succ_eq_map, List.map_cons, List.map_map,
      Nat.mul_zero, Nat.add_zero ptr, hword, calculateChecksum_shift]
    refine congrArg _ (List.map_congr_left fun i _ => ?_)
    rw [Function.comp_apply, Nat.mul_succ, Nat.add_comm (2 * i), Nat.add_assoc]

theorem calculateChecksum_congr {m m' : Mem} {ptr len : Nat}
    (h : m.read ptr len = m'.read ptr len) :
    (calculateChecksum m ptr len).1 = (calculateChecksum m' ptr len).1 := by
  have hwords (m : Mem) : (calculateChecksum m ptr len).1 = ~~~(UInt16.ofNat (foldCarry 2
      ((leWords (m.read ptr len)).foldl (fun checksum w => (checksum + w) % 2 ^ 32) 0))) := by
    rw [leWords_read, List.foldl_map]
    rfl
  rw [hwords, hwords, h]

theorem foldl_words (f : Nat → Nat) (n : Nat) :
    (List.range n).foldl (fun checksum i => (checksum + f i) % 2 ^ 32) 0 =
      ((List.range n).map f).sum % 2 ^ 32 := by
  induction n with
  | zero => rfl
  | succ n ih =>
    rw [List.range_succ, List.foldl_append, List.map_append, List.sum_append, ih]
    simp

theorem sum_words_lt (m : Mem) (ptr : Nat) {n : Nat} (hn : n ≤ 0x8000) :
    ((List.range n).map fun i => (m.load16 (ptr + 2 * i)).toNat).sum < 2 ^ 32 := by
  have hsum : ((List.range n).map fun i => (m.load16 (ptr + 2 * i)).toNat).sum ≤ n * 0xFFFF := by
    clear hn
    induction n with
    | zero => simp
    | succ n ih =>
      have hword := (m.load16 (ptr + 2 * n)).toNat_lt
      rw [List.range_succ, List.map_append, List.sum_append, List.map_singleton,
        List.sum_singleton]
      omega
  omega

theorem foldCarry_reduces {fuel checksum : Nat} (h : foldCarry fuel checksum ≤ 0xFFFF) :
    Reduces 0xFFFF checksum (foldCarry fuel checksum) := by
  induction fuel generalizing checksum with
  | zero => exact reduces_of_le h
  | succ fuel ih =>
    rw [foldCarry] at h ⊢
    split_ifs at h ⊢ with hcarry
    · exact (ih h).of_fold
    · exact reduces_of_le h

theorem toNat_not_ofNat {a : Nat} (h : a ≤ 0xFFFF) : (~~~(UInt16.ofNat a)).toNat = 0xFFFF - a := by
  rw [UInt16.toNat_not, UInt16.toNat_ofNat_of_lt' (Nat.lt_succ_of_le h)]
  rfl

/-- The result is the complement of the sum of the run. -/
theorem calculateChecksum_spec (m : Mem) (ptr : Nat) {len : Nat} (hlen : len ≤ 0xFFFF) :
    ∃ a, Reduces 0xFFFF (leWords (m.read ptr len)).sum a ∧
      (calculateChecksum m ptr len).1.toNat = 0xFFFF - a := by
  have hlt := sum_words_lt (calculateChecksum m ptr len).2 ptr (n := (len + 1) / 2) (by omega)
  have hfold := foldCarry_le hlt
  rw [leWords_read]
  refine ⟨_, foldCarry_reduces hfold, ?_⟩
  have hloop := foldl_words
    (fun i => ((calculateChecksum m ptr len).2.load16 (ptr + 2 * i)).toNat) ((len + 1) / 2)
  rw [Nat.mod_eq_of_lt hlt] at hloop
  rw [← hloop] at hfold ⊢
  exact toNat_not_ofNat hfold

/-! ## The checksum field of a run -/

theorem sum_leWords_read (m : Mem) (ptr : Nat) {len k : Nat} (hk : k % 2 = 0)
    (hlen : k + 2 ≤ len) :
    (leWords (m.read ptr len)).sum = (leWords (m.read ptr k)).sum +
      (m.load16 (ptr + k)).toNat + (leWords (m.read (ptr + k + 2) (len - (k + 2)))).sum := by
  obtain ⟨n, rfl⟩ : ∃ n, len = k + (n + 2) := ⟨len - (k + 2), by omega⟩
  rw [Mem.read_add, leWords_append (by simpa using hk), leWords_cons_cons, List.sum_append,
    List.sum_cons, ← Nat.add_assoc]
  congr 5
  omega

theorem sum_store16 (m : Mem) (ptr : Nat) {len k : Nat} (v : UInt16) (hk : k % 2 = 0)
    (hlen : k + 2 ≤ len) :
    (leWords ((m.store16 (ptr + k) v).read ptr len)).sum + (m.load16 (ptr + k)).toNat =
      (leWords (m.read ptr len)).sum + v.toNat := by
  have hbefore : (m.store16 (ptr + k) v).read ptr k = m.read ptr k :=
    Mem.read_write_disjoint _ _ (Or.inl le_rfl)
  have hafter (n : Nat) : (m.store16 (ptr + k) v).read (ptr + k + 2) n =
      m.read (ptr + k + 2) n := Mem.read_write_disjoint _ _ (Or.inr le_rfl)
  rw [sum_leWords_read _ ptr hk hlen, sum_leWords_read m ptr hk hlen, hbefore, hafter,
    load16_store16]
  omega

/-- With its checksum in place, a run adds up to zero but for what its checksum field held. -/
theorem dvd_sum_store (m : Mem) (ptr : Nat) {len k : Nat} {v : UInt16} (hlen : len ≤ 0xFFFF)
    (hk : k % 2 = 0) (hklen : k + 2 ≤ len)
    (hv : v.toNat ≡ (calculateChecksum m ptr len).1.toNat [MOD 0xFFFF]) :
    0xFFFF ∣ (leWords (((calculateChecksum m ptr len).2.store16 (ptr + k) v).read ptr len)).sum +
      (m.load16 (ptr + k)).toNat := by
  obtain ⟨a, ha, hsum⟩ := calculateChecksum_spec m ptr hlen
  have hrun : (calculateChecksum m ptr len).2.read ptr len = m.read ptr len :=
    Mem.read_congr fun i hi => calculateChecksum_apply m (by omega)
  have hfield : (calculateChecksum m ptr len).2.load16 (ptr + k) = m.load16 (ptr + k) :=
    load16_congr (Mem.read_congr fun i hi => calculateChecksum_apply m (by omega))
  have hstore := sum_store16 (calculateChecksum m ptr len).2 ptr v hk hklen
  rw [hfield, hrun] at hstore
  rw [hstore]
  have hcompl := ha.dvd_add_compl
  rw [← hsum] at hcompl
  exact ((hv.add_left _).dvd_iff dvd_rfl).2 hcompl

/-! ## The pseudo header -/

/-- The pseudo header as `send_ipv4` builds it. -/
def pseudoBytes (pkt : Mem) (udpLength : UInt16) : List UInt8 :=
  (ipSrc pkt).bytes ++ (ipDst pkt).bytes ++ [0, protocol pkt] ++ le16 udpLength

/-- A segment verifies whose checksum is computed over the pseudo header as well. -/
theorem transportChecksum_verifies (pkt : Mem) {off checksumOff len : Nat} {udpLength v : UInt16}
    (hlen : len ≤ 0xFFFF) (hk : checksumOff % 2 = 0) (hklen : checksumOff + 2 ≤ len)
    (hproto : protocol pkt ≠ 0)
    (hv : v.toNat ≡ (transportChecksum pkt off checksumOff len udpLength).1.toNat
      [MOD 0xFFFF]) :
    onesSum 0xFFFF (beWords (pseudoBytes pkt udpLength ++
      ((transportChecksum pkt off checksumOff len udpLength).2.store16 (off + checksumOff)
        v).read off len)) = 0xFFFF := by
  refine onesSum_beWords (b := protocol pkt) (by simp [pseudoBytes]) hproto ?_
  rw [leWords_append (by simp [pseudoBytes]), List.sum_append]
  -- The field holds the sum of the pseudo header when the segment is added up.
  obtain ⟨a, ha, hsum⟩ := calculateChecksum_spec (pseudoHdr pkt udpLength) 0
    (by decide : 12 ≤ 0xFFFF)
  have hread : (pseudoHdr pkt udpLength).read 0 12 = pseudoBytes pkt udpLength :=
    Mem.read_write_same _ 0 (pseudoBytes pkt udpLength)
  rw [hread] at ha
  have hdvd := dvd_sum_store _ off hlen hk hklen hv
  have hfield : UInt16.size - 1 - (0xFFFF - a) = a := by
    have hle := ha.le
    change 0xFFFF - (0xFFFF - a) = a
    omega
  rw [load16_store16, UInt16.toNat_not, hsum, hfield, Nat.add_comm] at hdvd
  exact ((ha.modEq.symm.add_right _).dvd_iff dvd_rfl).2 hdvd

/-! ## At the receiver -/

/-- The bytes after the header. -/
def segmentLen (pkt : Mem) : Nat := (ntohs (totalLength pkt)).toNat - headerLen pkt

/-- The pseudo header as a receiver puts it together. -/
def pseudoHeader (pkt : Mem) : List UInt8 :=
  (ipSrc pkt).bytes ++ (ipDst pkt).bytes ++ [0, protocol pkt] ++
    [UInt8.ofNat (segmentLen pkt / 256), UInt8.ofNat (segmentLen pkt % 256)]

/-- The checksums that a receiver looks at are right. A UDP checksum of zero is no checksum. -/
structure Verifies (pkt : Mem) : Prop where
  header : onesSum 0xFFFF (beWords (pkt.read 0 (headerLen pkt))) = 0xFFFF
  segment : protocol pkt = 0x06 ∨ protocol pkt = 0x11 ∧ udpChecksum pkt ≠ 0 →
    onesSum 0xFFFF (beWords (pseudoHeader pkt ++
      pkt.read (headerLen pkt) (segmentLen pkt))) = 0xFFFF

/-! ## `send_ipv4` -/

theorem headerChecksum_verifies {pkt : Mem} (h : 20 ≤ headerLen pkt) :
    onesSum 0xFFFF (beWords ((headerChecksum pkt).read 0 (headerLen pkt))) = 0xFFFF := by
  have hlen : headerLen (setChecksum pkt 0) = headerLen pkt :=
    headerLen_congr (setChecksum_apply _ _ (by decide) (by decide))
  have hle : headerLen pkt ≤ 0xFFFF := by
    have hbyte := (pkt 0 &&& 0x0F).toNat_lt
    rw [headerLen]
    omega
  have hdvd := dvd_sum_store (setChecksum pkt 0) 0 (k := 10) hle (by decide) (by omega) rfl
  have hzero : ((setChecksum pkt 0).load16 (0 + 10)).toNat = 0 :=
    congrArg UInt16.toNat (load16_store16 pkt 10 0)
  rw [hzero, Nat.add_zero] at hdvd
  have hrun : headerChecksum pkt = (calculateChecksum (setChecksum pkt 0) 0
      (headerLen pkt)).2.store16 (0 + 10) (calculateChecksum (setChecksum pkt 0) 0
        (headerLen pkt)).1 := by
    simp only [headerChecksum, hlen]
    rfl
  rw [← hrun] at hdvd
  have hfirst : headerChecksum pkt 0 ≠ 0 := by
    intro h0
    rw [headerChecksum_apply _ (by decide) (by decide)] at h0
    rw [headerLen, h0] at h
    exact absurd h (by decide)
  refine onesSum_beWords (b := headerChecksum pkt 0) ?_ hfirst hdvd
  exact List.mem_map.2 ⟨0, List.mem_range.2 (by omega), rfl⟩

theorem headerChecksum_fields (pkt : Mem) :
    headerLen (headerChecksum pkt) = headerLen pkt ∧
      totalLength (headerChecksum pkt) = totalLength pkt ∧
      protocol (headerChecksum pkt) = protocol pkt ∧ ipSrc (headerChecksum pkt) = ipSrc pkt ∧
      ipDst (headerChecksum pkt) = ipDst pkt :=
  ⟨headerLen_congr (headerChecksum_apply _ (by decide) (by decide)),
    load16_congr (Mem.read_congr fun _ _ => headerChecksum_apply _ (by omega) (by omega)),
    headerChecksum_apply _ (by decide) (by decide),
    IpAddr.read_congr (Mem.read_congr fun _ _ => headerChecksum_apply _ (by omega) (by omega)),
    IpAddr.read_congr (Mem.read_congr fun _ _ => headerChecksum_apply _ (by omega) (by omega))⟩

theorem headerChecksum_load16 (pkt : Mem) {off : Nat} (h : 12 ≤ off) :
    (headerChecksum pkt).load16 off = pkt.load16 off :=
  load16_congr (Mem.read_congr fun _ _ => headerChecksum_apply _ (by omega) (by omega))

/-- A TCP segment has a checksum, and a UDP segment if the field is not zero. -/
def Summed (pkt : Mem) : Prop :=
  protocol pkt = 0x06 ∨ protocol pkt = 0x11 ∧ udpChecksum pkt ≠ 0

theorem udpChecksum_headerChecksum {pkt : Mem} (h20 : 20 ≤ headerLen pkt) :
    udpChecksum (headerChecksum pkt) = udpChecksum pkt := by
  rw [udpChecksum, (headerChecksum_fields pkt).1, headerChecksum_load16 _ (by omega), udpChecksum]

theorem fillChecksums_tcp {pkt : Mem} (h : protocol pkt = 0x06) {tcpLen : UInt16}
    (htcp : tcpLen = ntohs (totalLength pkt) - UInt16.ofNat (headerLen pkt)) :
    fillChecksums pkt = (transportChecksum (headerChecksum pkt) (headerLen pkt) tcpChecksumOff
      tcpLen.toNat (ntohs tcpLen)).2.store16 (headerLen pkt + tcpChecksumOff)
        (transportChecksum (headerChecksum pkt) (headerLen pkt) tcpChecksumOff tcpLen.toNat
          (ntohs tcpLen)).1 := by
  subst htcp
  obtain ⟨hlen, htotal, hproto, -, -⟩ := headerChecksum_fields pkt
  rw [fillChecksums, segmentChecksum, if_neg (by rw [hproto, h]; decide),
    if_pos (hproto.trans h), hlen, htotal]

theorem fillChecksums_udp {pkt : Mem} (h20 : 20 ≤ headerLen pkt) (h : protocol pkt = 0x11)
    (hne : udpChecksum pkt ≠ 0) {len : Nat}
    (hudp : (ntohs (udpLength pkt (headerLen pkt))).toNat = len) {checksum : UInt16}
    (hchecksum : checksum = (transportChecksum (headerChecksum pkt) (headerLen pkt)
      udpChecksumOff len (udpLength pkt (headerLen pkt))).1) :
    fillChecksums pkt = (transportChecksum (headerChecksum pkt) (headerLen pkt) udpChecksumOff
      len (udpLength pkt (headerLen pkt))).2.store16 (headerLen pkt + udpChecksumOff)
        (if checksum = 0 then 0xffff else checksum) := by
  subst hudp hchecksum
  obtain ⟨hlen, -, hproto, -, -⟩ := headerChecksum_fields pkt
  have hudpLength : udpLength (headerChecksum pkt) (headerLen pkt) =
    udpLength pkt (headerLen pkt) := headerChecksum_load16 pkt (by omega)
  rw [fillChecksums, segmentChecksum, if_pos (hproto.trans h), hlen,
    udpChecksum_headerChecksum h20, if_pos hne, hudpLength]

theorem fillChecksums_unsummed {pkt : Mem} (h20 : 20 ≤ headerLen pkt) (h : ¬ Summed pkt) :
    fillChecksums pkt = headerChecksum pkt := by
  obtain ⟨-, -, hproto, -, -⟩ := headerChecksum_fields pkt
  rw [Summed, not_or] at h
  rw [fillChecksums, segmentChecksum, hproto, if_neg h.1, udpChecksum_headerChecksum h20]
  split_ifs with hudp hne
  · exact absurd ⟨hudp, hne⟩ h.2
  · rfl
  · rfl

/-- The two words for zero. -/
theorem ite_zero_modEq (checksum : UInt16) :
    (if checksum = 0 then 0xffff else checksum).toNat ≡ checksum.toNat [MOD 0xFFFF] := by
  split_ifs with h0
  · rw [h0]
    rfl
  · rfl

/-- The checksum field of a segment has been filled in. -/
structure SegmentSummed (pkt : Mem) (checksumOff : Nat) (udpLength v : UInt16) : Prop where
  fills : fillChecksums pkt = (transportChecksum (headerChecksum pkt) (headerLen pkt) checksumOff
    (segmentLen pkt) udpLength).2.store16 (headerLen pkt + checksumOff) v
  length : (ntohs udpLength).toNat = segmentLen pkt
  even : checksumOff % 2 = 0
  inside : checksumOff + 2 ≤ segmentLen pkt
  value : v.toNat ≡ (transportChecksum (headerChecksum pkt) (headerLen pkt) checksumOff
    (segmentLen pkt) udpLength).1.toNat [MOD 0xFFFF]
  udp : protocol pkt = 0x11 → checksumOff = udpChecksumOff ∧ v ≠ 0
  tcp : protocol pkt = 0x06 → checksumOff = tcpChecksumOff

theorem toNat_tcpLen {pkt : Mem} (h : headerLen pkt ≤ (ntohs (totalLength pkt)).toNat) :
    (ntohs (totalLength pkt) - UInt16.ofNat (headerLen pkt)).toNat = segmentLen pkt := by
  have htotal := (ntohs (totalLength pkt)).toNat_lt
  have hoff : (UInt16.ofNat (headerLen pkt)).toNat = headerLen pkt :=
    UInt16.toNat_ofNat_of_lt' (Nat.lt_of_le_of_lt h htotal)
  rw [UInt16.toNat_sub_of_le _ _ (UInt16.le_iff_toNat_le.2 (by omega)), hoff, segmentLen]

theorem exists_segmentSummed {pkt : Mem} (h : WellFormed pkt)
    (hudp : protocol pkt = 0x11 →
      (ntohs (udpLength pkt (headerLen pkt))).toNat = segmentLen pkt)
    (hsum : Summed pkt) : ∃ checksumOff udpLength v, SegmentSummed pkt checksumOff udpLength v := by
  obtain ⟨h20, htotal⟩ := h
  have hsegment : transportLen pkt ≤ segmentLen pkt := by
    rw [segmentLen]
    omega
  rcases hsum with htcp | ⟨hudp', hne⟩
  · have hlen := toNat_tcpLen (Nat.le_of_add_right_le htotal)
    have hfill := fillChecksums_tcp htcp rfl
    rw [hlen] at hfill
    rw [transportLen, htcp] at hsegment
    exact ⟨tcpChecksumOff, _, _, hfill, by rw [ntohs_ntohs, hlen], by decide,
      Nat.le_trans (by decide) hsegment, rfl,
      fun h => absurd (htcp.symm.trans h) (by decide), fun _ => rfl⟩
  · rw [transportLen, hudp'] at hsegment
    refine ⟨udpChecksumOff, _, _, fillChecksums_udp h20 hudp' hne (hudp hudp') rfl, hudp hudp',
      by decide, Nat.le_trans (by decide) hsegment, ite_zero_modEq _, fun _ => ⟨rfl, ?_⟩,
      fun h => absurd (hudp'.symm.trans h) (by decide)⟩
    split_ifs with h0
    · decide
    · exact h0

theorem le16_of_ntohs {v : UInt16} {n : Nat} (h : (ntohs v).toNat = n) :
    le16 v = [UInt8.ofNat (n / 256), UInt8.ofNat (n % 256)] := by
  have hv : v.toNat < 65536 := v.toNat_lt
  rw [toNat_ntohs] at h
  have hhi : n / 256 = v.toNat % 256 := by omega
  have hlo : n % 256 = v.toNat / 256 := by omega
  rw [hhi, hlo, le16]

theorem fillChecksums_fields {pkt : Mem} (h20 : 20 ≤ headerLen pkt) :
    headerLen (fillChecksums pkt) = headerLen pkt ∧
      totalLength (fillChecksums pkt) = totalLength pkt ∧
      protocol (fillChecksums pkt) = protocol pkt ∧ ipSrc (fillChecksums pkt) = ipSrc pkt ∧
      ipDst (fillChecksums pkt) = ipDst pkt := by
  have happly {i : Nat} (hi : i < 20) (h10 : i ≠ 10) (h11 : i ≠ 11) :
      fillChecksums pkt i = pkt i := fillChecksums_apply (by omega) h10 h11
  exact ⟨headerLen_congr (happly (by decide) (by decide) (by decide)),
    load16_congr (Mem.read_congr fun _ _ => happly (by omega) (by omega) (by omega)),
    happly (by decide) (by decide) (by decide),
    IpAddr.read_congr (Mem.read_congr fun _ _ => happly (by omega) (by omega) (by omega)),
    IpAddr.read_congr (Mem.read_congr fun _ _ => happly (by omega) (by omega) (by omega))⟩

theorem udpChecksum_fillChecksums {pkt : Mem} (h : WellFormed pkt)
    (hproto : protocol pkt = 0x11)
    (hudp : (ntohs (udpLength pkt (headerLen pkt))).toNat = segmentLen pkt) :
    udpChecksum (fillChecksums pkt) = 0 ↔ udpChecksum pkt = 0 := by
  by_cases h0 : udpChecksum pkt = 0
  · have hsum : ¬ Summed pkt := by
      rintro (h6 | ⟨-, hne⟩)
      · cases h6.symm.trans hproto
      · exact hne h0
    rw [fillChecksums_unsummed h.1 hsum, udpChecksum_headerChecksum h.1]
  · obtain ⟨checksumOff, ul, v, hsummed⟩ :=
      exists_segmentSummed h (fun _ => hudp) (Or.inr ⟨hproto, h0⟩)
    obtain ⟨rfl, hv⟩ := hsummed.udp hproto
    refine iff_of_false ?_ h0
    rw [udpChecksum, (fillChecksums_fields h.1).1, hsummed.fills, load16_store16]
    exact hv

/-- **Checksums.** A well-formed packet leaves with checksums that verify; a UDP checksum is zero
exactly when it came in as zero; and no sum over at most `0xFFFF` bytes, which is what
`calculate_checksum` is called for, leaves 32 bits. -/
theorem checksums_verify {pkt : Mem} (h : WellFormed pkt)
    (hudp : protocol pkt = 0x11 →
      (ntohs (udpLength pkt (headerLen pkt))).toNat = segmentLen pkt) :
    Verifies (fillChecksums pkt) ∧
      (protocol pkt = 0x11 → (udpChecksum (fillChecksums pkt) = 0 ↔ udpChecksum pkt = 0)) ∧
      ∀ (m : Mem) (ptr len : Nat), len ≤ 0xFFFF → ∀ n ≤ (len + 1) / 2,
        ((List.range n).map fun i => (m.load16 (ptr + 2 * i)).toNat).sum < 2 ^ 32 := by
  obtain ⟨hlen, htotal, hproto, hsrc, hdst⟩ := fillChecksums_fields h.1
  obtain ⟨-, -, hproto', hsrc', hdst'⟩ := headerChecksum_fields pkt
  have hzero (h17 : protocol pkt = 0x11) := udpChecksum_fillChecksums h h17 (hudp h17)
  refine ⟨⟨?_, fun hsum => ?_⟩, hzero, fun m ptr len hle n hn => sum_words_lt m ptr (by omega)⟩
  · have hread : (fillChecksums pkt).read 0 (headerLen pkt) =
        (headerChecksum pkt).read 0 (headerLen pkt) :=
      Mem.read_congr fun i hi => fillChecksums_header pkt (by omega)
    rw [hlen, hread]
    exact headerChecksum_verifies h.1
  · -- A checksum of zero stays zero, so what is summed after was summed before.
    have hsum' : Summed pkt := by
      rw [hproto] at hsum
      exact hsum.imp_right fun hsum => ⟨hsum.1, mt (hzero hsum.1).2 hsum.2⟩
    obtain ⟨checksumOff, ul, v, hsummed⟩ := exists_segmentSummed h hudp hsum'
    have hne : protocol (headerChecksum pkt) ≠ 0 := by
      rw [hproto']
      rcases hsum' with h6 | ⟨h17, -⟩
      · rw [h6]
        decide
      · rw [h17]
        decide
    have hsegment : segmentLen (fillChecksums pkt) = segmentLen pkt := by
      rw [segmentLen, htotal, hlen, segmentLen]
    have hpseudo : pseudoHeader (fillChecksums pkt) = pseudoBytes (headerChecksum pkt) ul := by
      rw [pseudoHeader, pseudoBytes, hsegment, hproto, hsrc, hdst, hproto', hsrc', hdst',
        le16_of_ntohs hsummed.length]
    have hle : segmentLen pkt ≤ 0xFFFF := by
      have htotal := (ntohs (totalLength pkt)).toNat_lt
      rw [segmentLen]
      omega
    rw [hpseudo, hlen, hsegment, hsummed.fills]
    exact transportChecksum_verifies _ hle hsummed.even hsummed.inside hne hsummed.value

/-- A UDP datagram with a checksum and one byte of payload. -/
theorem checksums_verify_odd :
    ∃ pkt, protocol pkt = 0x11 ∧ udpChecksum pkt ≠ 0 ∧ segmentLen pkt = 9 ∧
      Verifies (fillChecksums pkt) := by
  let pkt := Mem.zero.write 0 ([0x45, 0, 0, 29, 0, 0, 0, 0, 64, 17, 0, 0, 192, 168, 1, 100,
    8, 8, 8, 8, 0x13, 0x88, 0, 53, 0, 9, 0xAB, 0xCD, 0x7F])
  exact ⟨pkt, by decide, by decide, by decide, (checksums_verify (by decide) (by decide)).1⟩

end NaptRouter
