import Mathlib.Algebra.BigOperators.Group.List.Basic
import Mathlib.Data.Nat.ModEq
import Mathlib.Tactic.Ring

/-!
# Ones' complement sums

Addition of words of at most `M` with end-around carry, as the Internet checksum adds them with
`M = 0xFFFF`. A sum is the residue of the sum of the words modulo `M`; of the two words that
stand for the residue zero, it is `M` unless all words are zero (`Reduces`).

Adding up the words of a run of bytes in the other byte order multiplies the residue by 256
(`sum_beWords_modEq`), so that a checksum does not depend on the order it is computed in.
-/

namespace OnesComplement

variable {M s s' a w : Nat}

/-- Addition with end-around carry. -/
def onesAdd (M a b : Nat) : Nat := if a + b ≤ M then a + b else a + b - M

def onesSum (M : Nat) (ws : List Nat) : Nat := ws.foldl (onesAdd M) 0

/-- The word `a` is what ones' complement arithmetic makes of the number `s`. -/
structure Reduces (M s a : Nat) : Prop where
  le : a ≤ M
  modEq : a ≡ s [MOD M]
  zero_iff : a = 0 ↔ s = 0

theorem reduces_of_le (h : a ≤ M) : Reduces M a a := ⟨h, rfl, Iff.rfl⟩

theorem Reduces.add (h : Reduces M s a) (hw : w ≤ M) : Reduces M (s + w) (onesAdd M a w) := by
  have hle := h.le
  have hzero := h.zero_iff
  have hsum : a + w ≡ s + w [MOD M] := h.modEq.add_right w
  unfold onesAdd
  split_ifs with hcarry
  · exact ⟨hcarry, hsum, by omega⟩
  · refine ⟨by omega, ?_, by omega⟩
    have hback : a + w - M + M = a + w := Nat.sub_add_cancel (by omega)
    rw [← hback] at hsum
    exact Nat.add_modEq_right.symm.trans hsum

theorem foldl_onesAdd_reduces {ws : List Nat} (hws : ∀ w ∈ ws, w ≤ M) (h : Reduces M s a) :
    Reduces M (s + ws.sum) (ws.foldl (onesAdd M) a) := by
  induction ws generalizing s a with
  | nil => simpa using h
  | cons w ws ih =>
    rw [List.sum_cons, ← Nat.add_assoc]
    exact ih (fun v hv => hws v (List.mem_cons_of_mem _ hv))
      (h.add (hws w List.mem_cons_self))

theorem onesSum_reduces {ws : List Nat} (hws : ∀ w ∈ ws, w ≤ M) :
    Reduces M ws.sum (onesSum M ws) := by
  have hfold := foldl_onesAdd_reduces hws (reduces_of_le (Nat.zero_le M))
  rwa [Nat.zero_add] at hfold

/-- `M` stands for the positive multiples of `M`. -/
theorem Reduces.eq_max_iff (hM : 0 < M) (h : Reduces M s a) : a = M ↔ 0 < s ∧ M ∣ s := by
  have hdvd : M ∣ a ↔ M ∣ s := h.modEq.dvd_iff dvd_rfl
  constructor
  · intro ha
    subst ha
    have hne := h.zero_iff
    exact ⟨by omega, hdvd.1 dvd_rfl⟩
  · intro hs
    obtain ⟨hpos, hs⟩ := hs
    have hne := h.zero_iff
    exact Nat.le_antisymm h.le (Nat.le_of_dvd (by omega) (hdvd.2 hs))

/-- Adding the complement of the sum makes a multiple of `M`. -/
theorem Reduces.dvd_add_compl (h : Reduces M s a) : M ∣ s + (M - a) := by
  refine (Nat.modEq_zero_iff_dvd).1 ((h.modEq.symm.add_right _).trans ?_)
  rw [Nat.add_sub_of_le h.le]
  exact Nat.modEq_zero_iff_dvd.2 dvd_rfl

theorem Reduces.of_fold (h : Reduces M (s % (M + 1) + s / (M + 1)) a) : Reduces M s a := by
  have hs : s % (M + 1) + s / (M + 1) + M * (s / (M + 1)) = s := by
    have hdiv := Nat.mod_add_div s (M + 1)
    rw [Nat.succ_mul] at hdiv
    omega
  have hzero := h.zero_iff
  refine ⟨h.le, h.modEq.trans ?_, ?_⟩
  · conv_rhs => rw [← hs]
    exact (Nat.add_mul_mod_self_left _ _ _).symm
  · rw [hzero]
    constructor
    · intro hsum
      obtain ⟨hmod, hdiv⟩ := Nat.add_eq_zero_iff.1 hsum
      rw [← hs, hmod, hdiv, Nat.mul_zero]
    · intro hs0
      rw [hs0, Nat.zero_mod, Nat.zero_div]

/-! ## Words of bytes -/

/-- The bytes as words, first byte high, as they are read in network order. A last single byte
is padded with zero. -/
def beWords : List UInt8 → List Nat
  | [] => []
  | [b] => [256 * b.toNat]
  | b :: c :: rest => (256 * b.toNat + c.toNat) :: beWords rest

/-- The bytes as words, first byte low. -/
def leWords : List UInt8 → List Nat
  | [] => []
  | [b] => [b.toNat]
  | b :: c :: rest => (b.toNat + 256 * c.toNat) :: leWords rest

theorem le_of_mem_beWords {bs : List UInt8} {w : Nat} (hw : w ∈ beWords bs) : w ≤ 0xFFFF := by
  fun_induction beWords bs with
  | case1 => cases hw
  | case2 b =>
    have hb := b.toNat_lt
    rw [List.mem_singleton.1 hw]
    omega
  | case3 b c rest ih =>
    have hb := b.toNat_lt
    have hc := c.toNat_lt
    rcases List.mem_cons.1 hw with rfl | hw
    · omega
    · exact ih hw

/-- Every word in the other byte order is 256 times the word. -/
theorem sum_beWords_modEq (bs : List UInt8) :
    (beWords bs).sum ≡ 256 * (leWords bs).sum [MOD 0xFFFF] := by
  fun_induction beWords bs with
  | case1 => rfl
  | case2 b => rfl
  | case3 b c rest ih =>
    rw [leWords, List.sum_cons, List.sum_cons, Nat.mul_add]
    refine Nat.ModEq.add ?_ ih
    have hword : 256 * (b.toNat + 256 * c.toNat) = 256 * b.toNat + c.toNat + 0xFFFF * c.toNat := by
      ring
    rw [hword]
    exact (Nat.add_mul_mod_self_left _ _ _).symm

theorem sum_beWords_pos {bs : List UInt8} {b : UInt8} (hb : b ∈ bs) (hne : b ≠ 0) :
    0 < (beWords bs).sum := by
  have hpos : 0 < b.toNat := by
    rw [Nat.pos_iff_ne_zero, ← UInt8.toNat_zero]
    exact fun h => hne (UInt8.toNat_inj.1 h)
  fun_induction beWords bs with
  | case1 => cases hb
  | case2 c =>
    rw [List.mem_singleton.1 hb] at hpos
    simp only [List.sum_singleton]
    omega
  | case3 c d rest ih =>
    rw [List.sum_cons]
    rcases List.mem_cons.1 hb with rfl | hb
    · omega
    · rcases List.mem_cons.1 hb with rfl | hb
      · omega
      · have := ih hb
        omega

/-- Words do not straddle the end of an even run. -/
theorem leWords_append {bs : List UInt8} (h : bs.length % 2 = 0) (cs : List UInt8) :
    leWords (bs ++ cs) = leWords bs ++ leWords cs := by
  fun_induction leWords bs with
  | case1 => rfl
  | case2 b => cases h
  | case3 b c rest ih =>
    rw [List.cons_append, List.cons_append, leWords, List.cons_append, ih (by simp at h; omega)]

/-- **Byte order.** The receiver's sum is `0xFFFF` when the sender's is zero modulo `0xFFFF`,
unless all bytes are zero. -/
theorem onesSum_beWords {bs : List UInt8} {b : UInt8} (hb : b ∈ bs) (hne : b ≠ 0)
    (hdvd : 0xFFFF ∣ (leWords bs).sum) : onesSum 0xFFFF (beWords bs) = 0xFFFF := by
  refine ((onesSum_reduces fun w hw => le_of_mem_beWords hw).eq_max_iff (by decide)).2
    ⟨sum_beWords_pos hb hne, ?_⟩
  exact ((sum_beWords_modEq bs).dvd_iff dvd_rfl).2 (Dvd.dvd.mul_left hdvd 256)

end OnesComplement
