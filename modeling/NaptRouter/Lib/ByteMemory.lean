import Mathlib.Data.Nat.Bitwise
import Mathlib.Data.List.Basic

/-!
# Byte memories

A C object is read and written byte by byte, so a block of memory is a function from offsets
to bytes. A pointer into the block is an offset. Reading past the end of an object is reading
whatever byte is stored there; nothing stops it, as nothing stops it in C.

* `read` and `write` copy runs of bytes out of and into a block; `memcpy` is one after the
  other.
* `load16`, `load32` and their stores fix the byte order of a little-endian machine.
* `ntohs` and `ntohl` swap to and from network order.
-/

namespace ByteMemory

/-- A block of memory: the byte at every offset. -/
abbrev Mem := Nat → UInt8

namespace Mem

/-- A freshly zeroed block. -/
def zero : Mem := fun _ => 0

/-- The `n` bytes from offset `off` on. -/
def read (m : Mem) (off n : Nat) : List UInt8 := (List.range n).map fun i => m (off + i)

/-- Overwrite the bytes from offset `off` on by `bs`. -/
def write (m : Mem) (off : Nat) (bs : List UInt8) : Mem := fun i =>
  if off ≤ i ∧ i < off + bs.length then bs.getD (i - off) 0 else m i

/-- The block as seen through a pointer to offset `off`. -/
def shift (m : Mem) (off : Nat) : Mem := fun i => m (off + i)

/-! ## Reads after writes -/

@[simp] theorem zero_apply (i : Nat) : zero i = 0 := rfl

@[simp] theorem length_read (m : Mem) (off n : Nat) : (m.read off n).length = n := by
  simp [read]

theorem getD_read (m : Mem) (off : Nat) {n i : Nat} (hi : i < n) (d : UInt8) :
    (m.read off n).getD i d = m (off + i) := by
  simp [read, List.getD_eq_getElem?_getD, hi]

theorem read_congr {m m' : Mem} {off off' n : Nat}
    (h : ∀ i < n, m (off + i) = m' (off' + i)) : m.read off n = m'.read off' n := by
  simp only [read]
  exact List.map_congr_left fun i hi => h i (List.mem_range.1 hi)

/-- Two reads, one after the other. -/
theorem read_add (m : Mem) (off n k : Nat) :
    m.read off (n + k) = m.read off n ++ m.read (off + n) k := by
  simp [read, List.range_add, Nat.add_assoc]

theorem read_slice (m : Mem) (off : Nat) {n i k : Nat} (h : i + k ≤ n) :
    m.read (off + i) k = ((m.read off n).drop i).take k := by
  refine List.ext_getElem (by simp; omega) fun j _ _ => ?_
  simp [read, Nat.add_assoc]

theorem read_eq_iff {m m' : Mem} {off off' n : Nat} :
    m.read off n = m'.read off' n ↔ ∀ i < n, m (off + i) = m' (off' + i) := by
  refine ⟨fun h i hi => ?_, read_congr⟩
  have hd := congrArg (fun l => l.getD i 0) h
  simpa only [getD_read _ _ hi] using hd

theorem write_apply_of_lt (m : Mem) {off i : Nat} (bs : List UInt8) (h : i < off) :
    m.write off bs i = m i := by
  simp [write, Nat.not_le.2 h]

theorem write_apply_of_ge (m : Mem) {off i : Nat} (bs : List UInt8)
    (h : off + bs.length ≤ i) : m.write off bs i = m i := by
  simp [write, Nat.not_lt.2 h]

theorem write_apply_inside (m : Mem) {off i : Nat} (bs : List UInt8) (h : i < bs.length) :
    m.write off bs (off + i) = bs.getD i 0 := by
  simp [write, h]

theorem write_apply_outside (m : Mem) {off i : Nat} (bs : List UInt8)
    (h : i < off ∨ off + bs.length ≤ i) : m.write off bs i = m i :=
  h.elim (write_apply_of_lt m bs) (write_apply_of_ge m bs)

/-- What a write covers does not matter. -/
theorem write_apply_covered (m m' : Mem) {off i : Nat} (bs : List UInt8)
    (h : ¬ (i < off ∨ off + bs.length ≤ i)) : m.write off bs i = m'.write off bs i := by
  obtain ⟨j, rfl⟩ := Nat.exists_eq_add_of_le (Nat.not_lt.1 fun hi => h (Or.inl hi))
  have hj : j < bs.length := by omega
  rw [write_apply_inside m bs hj, write_apply_inside m' bs hj]

theorem write_apply_singleton (m : Mem) (off : Nat) (b : UInt8) : m.write off [b] off = b := by
  simp [write]

/-- A byte of a block that was written from its start on. -/
theorem write_zero_apply (m : Mem) (bs : List UInt8) (i : Nat) :
    m.write 0 bs i = bs[i]?.getD (m i) := by
  by_cases hi : i < bs.length
  · simp [write, hi]
  · simp [write, hi]

/-- A byte of a copied block. -/
theorem write_read_apply (m m' : Mem) {n i : Nat} (h : i < n) :
    m'.write 0 (m.read 0 n) i = m i := by
  have hin : i < (m.read 0 n).length := by rwa [length_read]
  have hbyte : m'.write 0 (m.read 0 n) (0 + i) = (m.read 0 n).getD i 0 :=
    write_apply_inside m' _ hin
  rw [getD_read m 0 h] at hbyte
  rwa [Nat.zero_add] at hbyte

theorem write_nil (m : Mem) (off : Nat) : m.write off [] = m :=
  funext fun _ => if_neg fun h => absurd h.2 (Nat.not_lt.2 h.1)

theorem read_write_same (m : Mem) (off : Nat) (bs : List UInt8) :
    (m.write off bs).read off bs.length = bs := by
  apply List.ext_getElem (by simp)
  intro i hi hi'
  simp [read, write, hi']

theorem read_write_disjoint (m : Mem) {off off' n : Nat} (bs : List UInt8)
    (h : off' + n ≤ off ∨ off + bs.length ≤ off') :
    (m.write off bs).read off' n = m.read off' n := by
  refine read_congr fun i hi => ?_
  rcases h with h | h
  · exact write_apply_of_lt m bs (by omega)
  · exact write_apply_of_ge m bs (by omega)

/-- A block that is written over. -/
theorem write_write (m : Mem) (off : Nat) {bs bs' : List UInt8} (h : bs.length = bs'.length) :
    (m.write off bs').write off bs = m.write off bs := by
  funext i
  simp only [write, ← h]
  split_ifs
  · rfl
  · rfl

theorem write_read_same (m : Mem) (off n : Nat) : m.write off (m.read off n) = m := by
  funext i
  simp only [write, length_read]
  split_ifs with hi
  · rw [getD_read _ _ (by omega), Nat.add_sub_of_le hi.1]
  · rfl

theorem read_zero (off n : Nat) : zero.read off n = List.replicate n 0 := by
  simp [read, zero, List.map_const']

end Mem

/-! ## Words -/

/-- The two bytes of a 16-bit word, low byte first. -/
def le16 (v : UInt16) : List UInt8 := [UInt8.ofNat (v.toNat % 256), UInt8.ofNat (v.toNat / 256)]

/-- The four bytes of a 32-bit word, low byte first. -/
def le32 (v : UInt32) : List UInt8 :=
  [UInt8.ofNat (v.toNat % 256), UInt8.ofNat (v.toNat / 256 % 256),
    UInt8.ofNat (v.toNat / 65536 % 256), UInt8.ofNat (v.toNat / 16777216)]

@[simp] theorem length_le16 (v : UInt16) : (le16 v).length = 2 := rfl

@[simp] theorem length_le32 (v : UInt32) : (le32 v).length = 4 := rfl

/-- `*(uint16_t*) (m + off)`. -/
def Mem.load16 (m : Mem) (off : Nat) : UInt16 :=
  UInt16.ofNat ((m off).toNat + 256 * (m (off + 1)).toNat)

/-- `*(uint32_t*) (m + off)`. -/
def Mem.load32 (m : Mem) (off : Nat) : UInt32 :=
  UInt32.ofNat ((m off).toNat + 256 * (m (off + 1)).toNat + 65536 * (m (off + 2)).toNat +
    16777216 * (m (off + 3)).toNat)

/-- `*(uint16_t*) (m + off) = v`. -/
def Mem.store16 (m : Mem) (off : Nat) (v : UInt16) : Mem := m.write off (le16 v)

/-- `*(uint32_t*) (m + off) = v`. -/
def Mem.store32 (m : Mem) (off : Nat) (v : UInt32) : Mem := m.write off (le32 v)

/-- Swap the two bytes of a word, between host and network order. -/
def ntohs (v : UInt16) : UInt16 := UInt16.ofNat (v.toNat % 256 * 256 + v.toNat / 256)

/-- Reverse the four bytes of a word, between host and network order. -/
def ntohl (v : UInt32) : UInt32 :=
  UInt32.ofNat (v.toNat % 256 * 16777216 + v.toNat / 256 % 256 * 65536 +
    v.toNat / 65536 % 256 * 256 + v.toNat / 16777216)

theorem toNat_ntohs (v : UInt16) : (ntohs v).toNat = v.toNat % 256 * 256 + v.toNat / 256 := by
  have hv : v.toNat < 65536 := v.toNat_lt
  rw [ntohs, UInt16.toNat_ofNat']
  omega

theorem toNat_ntohl (v : UInt32) :
    (ntohl v).toNat = v.toNat % 256 * 16777216 + v.toNat / 256 % 256 * 65536 +
      v.toNat / 65536 % 256 * 256 + v.toNat / 16777216 := by
  have hv : v.toNat < 4294967296 := v.toNat_lt
  rw [ntohl, UInt32.toNat_ofNat']
  omega

theorem ntohs_ntohs (v : UInt16) : ntohs (ntohs v) = v := by
  apply UInt16.toNat_inj.1
  rw [toNat_ntohs, toNat_ntohs]
  have hv : v.toNat < 65536 := v.toNat_lt
  omega

/-- The four bytes of a number put together from four bytes. -/
private theorem bytes_of_word {a b c d : Nat} (hb : b < 256) (hc : c < 256) (hd : d < 256) :
    (a * 16777216 + b * 65536 + c * 256 + d) % 256 = d ∧
      (a * 16777216 + b * 65536 + c * 256 + d) / 256 % 256 = c ∧
      (a * 16777216 + b * 65536 + c * 256 + d) / 65536 % 256 = b ∧
      (a * 16777216 + b * 65536 + c * 256 + d) / 16777216 = a :=
  ⟨by omega, by omega, by omega, by omega⟩

private theorem word_of_bytes (w : Nat) :
    w / 16777216 * 16777216 + w / 65536 % 256 * 65536 + w / 256 % 256 * 256 + w % 256 = w := by
  omega

theorem ntohl_ntohl (v : UInt32) : ntohl (ntohl v) = v := by
  have hv : v.toNat < 4294967296 := v.toNat_lt
  apply UInt32.toNat_inj.1
  rw [toNat_ntohl, toNat_ntohl]
  obtain ⟨h₁, h₂, h₃, h₄⟩ := bytes_of_word (a := v.toNat % 256) (b := v.toNat / 256 % 256)
    (c := v.toNat / 65536 % 256) (d := v.toNat / 16777216) (by omega) (by omega) (by omega)
  rw [h₁, h₂, h₃, h₄]
  exact word_of_bytes v.toNat

theorem ntohl_injective {v w : UInt32} (h : ntohl v = ntohl w) : v = w := by
  rw [← ntohl_ntohl v, h, ntohl_ntohl]

theorem toNat_load16 (m : Mem) (off : Nat) :
    (m.load16 off).toNat = (m off).toNat + 256 * (m (off + 1)).toNat := by
  have h0 := (m off).toNat_lt
  have h1 := (m (off + 1)).toNat_lt
  rw [Mem.load16, UInt16.toNat_ofNat']
  omega

theorem load16_congr {m m' : Mem} {off off' : Nat} (h : m.read off 2 = m'.read off' 2) :
    m.load16 off = m'.load16 off' := by
  have hb := Mem.read_eq_iff.1 h
  have h0 : m off = m' off' := hb 0 (by decide)
  have h1 : m (off + 1) = m' (off' + 1) := hb 1 (by decide)
  simp only [Mem.load16, h0, h1]

theorem load32_congr {m m' : Mem} {off off' : Nat} (h : m.read off 4 = m'.read off' 4) :
    m.load32 off = m'.load32 off' := by
  have hb := Mem.read_eq_iff.1 h
  have h0 : m off = m' off' := hb 0 (by decide)
  simp only [Mem.load32, h0, hb 1 (by decide), hb 2 (by decide), hb 3 (by decide)]

theorem toNat_load32 (m : Mem) (off : Nat) :
    (m.load32 off).toNat = (m off).toNat + 256 * (m (off + 1)).toNat +
      65536 * (m (off + 2)).toNat + 16777216 * (m (off + 3)).toNat := by
  have h0 := (m off).toNat_lt
  have h1 := (m (off + 1)).toNat_lt
  have h2 := (m (off + 2)).toNat_lt
  have h3 := (m (off + 3)).toNat_lt
  rw [Mem.load32, UInt32.toNat_ofNat']
  omega

theorem load32_inj {m m' : Mem} {off off' : Nat} (h : m.load32 off = m'.load32 off') :
    ∀ i < 4, m (off + i) = m' (off' + i) := by
  have hnat := congrArg UInt32.toNat h
  rw [toNat_load32, toNat_load32] at hnat
  have hlt (b : UInt8) : b.toNat < 256 := b.toNat_lt
  have h0 := hlt (m off)
  have h1 := hlt (m (off + 1))
  have h2 := hlt (m (off + 2))
  have h0' := hlt (m' off')
  have h1' := hlt (m' (off' + 1))
  have h2' := hlt (m' (off' + 2))
  intro i hi
  apply UInt8.toNat_inj.1
  obtain rfl | rfl | rfl | rfl : i = 0 ∨ i = 1 ∨ i = 2 ∨ i = 3 := by omega
  · rw [Nat.add_zero, Nat.add_zero]
    omega
  · omega
  · omega
  · omega

theorem load32_write_read (m m' : Mem) {off n : Nat} (h : off + 4 ≤ n) :
    (m'.write 0 (m.read 0 n)).load32 off = m.load32 off :=
  load32_congr (Mem.read_congr fun _ hi => Mem.write_read_apply m m' (by omega))

theorem load32_write_disjoint (m : Mem) {off off' : Nat} (bs : List UInt8)
    (h : off' + 4 ≤ off ∨ off + bs.length ≤ off') :
    (m.write off bs).load32 off' = m.load32 off' :=
  load32_congr (Mem.read_write_disjoint m bs h)

theorem load16_of_read {m : Mem} {off : Nat} {v : UInt16} (h : m.read off 2 = le16 v) :
    m.load16 off = v := by
  have hv : v.toNat < 65536 := v.toNat_lt
  simp only [Mem.read, le16, List.range_succ, List.range_zero, List.nil_append, List.map_cons,
    List.map_nil, List.cons_append, List.cons.injEq, Nat.add_zero, and_true] at h
  apply UInt16.toNat_inj.1
  simp only [Mem.load16, h.1, h.2, UInt16.toNat_ofNat', UInt8.toNat_ofNat']
  omega

theorem load32_of_read {m : Mem} {off : Nat} {v : UInt32} (h : m.read off 4 = le32 v) :
    m.load32 off = v := by
  have hv : v.toNat < 4294967296 := v.toNat_lt
  simp only [Mem.read, le32, List.range_succ, List.range_zero, List.nil_append, List.map_cons,
    List.map_nil, List.cons_append, List.cons.injEq, Nat.add_zero, and_true] at h
  apply UInt32.toNat_inj.1
  simp only [Mem.load32, h.1, h.2.1, h.2.2.1, h.2.2.2, UInt32.toNat_ofNat', UInt8.toNat_ofNat']
  omega

@[simp] theorem load16_store16 (m : Mem) (off : Nat) (v : UInt16) :
    (m.store16 off v).load16 off = v :=
  load16_of_read (Mem.read_write_same m off (le16 v))

@[simp] theorem load32_store32 (m : Mem) (off : Nat) (v : UInt32) :
    (m.store32 off v).load32 off = v :=
  load32_of_read (Mem.read_write_same m off (le32 v))

theorem store16_store16 (m : Mem) (off : Nat) (v w : UInt16) :
    (m.store16 off v).store16 off w = m.store16 off w :=
  m.write_write off rfl

theorem store16_load16 (m : Mem) {off : Nat} {v : UInt16} (h : m.load16 off = v) :
    m.store16 off v = m := by
  have hbytes : le16 v = m.read off 2 := by
    have hlo : (m off).toNat < 256 := (m off).toNat_lt
    have hhi : (m (off + 1)).toNat < 256 := (m (off + 1)).toNat_lt
    have hmod : v.toNat % 256 = (m off).toNat := by
      rw [← h, toNat_load16]
      omega
    have hdiv : v.toNat / 256 = (m (off + 1)).toNat := by
      rw [← h, toNat_load16]
      omega
    rw [le16, hmod, hdiv, UInt8.ofNat_toNat, UInt8.ofNat_toNat]
    rfl
  rw [Mem.store16, hbytes, Mem.write_read_same]

/-! ## Agreement up to an offset -/

/-- The blocks agree on their first `n` bytes. -/
def AgreeTo (n : Nat) (m m' : Mem) : Prop := ∀ i < n, m i = m' i

namespace AgreeTo

variable {n : Nat} {m m' : Mem}

theorem read (h : AgreeTo n m m') {off k : Nat} (hk : off + k ≤ n) :
    m.read off k = m'.read off k :=
  Mem.read_congr fun i hi => h (off + i) (by omega)

theorem load16 (h : AgreeTo n m m') {off : Nat} (hoff : off + 2 ≤ n) :
    m.load16 off = m'.load16 off :=
  load16_congr (h.read hoff)

theorem write (h : AgreeTo n m m') (off : Nat) (bs : List UInt8) :
    AgreeTo n (m.write off bs) (m'.write off bs) := by
  intro i hi
  simp only [Mem.write]
  split_ifs
  · rfl
  · exact h i hi

theorem store16 (h : AgreeTo n m m') (off : Nat) (v : UInt16) :
    AgreeTo n (m.store16 off v) (m'.store16 off v) :=
  h.write off (le16 v)

theorem shift {off : Nat} (h : AgreeTo (off + n) m m') : AgreeTo n (m.shift off) (m'.shift off) :=
  fun i hi => h (off + i) (by omega)

end AgreeTo

theorem le16_injective {v w : UInt16} (h : le16 v = le16 w) : v = w := by
  have hstore : Mem.zero.store16 0 v = Mem.zero.store16 0 w := by
    rw [Mem.store16, Mem.store16, h]
  simpa using congrArg (Mem.load16 · 0) hstore

theorem store16_apply_of_lt (m : Mem) {off i : Nat} (v : UInt16) (h : i < off) :
    m.store16 off v i = m i :=
  m.write_apply_of_lt _ h

theorem store16_apply_of_ge (m : Mem) {off i : Nat} (v : UInt16) (h : off + 2 ≤ i) :
    m.store16 off v i = m i :=
  m.write_apply_of_ge _ h

end ByteMemory
