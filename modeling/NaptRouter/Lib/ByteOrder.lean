import NaptRouter.Lib.ByteMemory

/-!
# Two orders of words

Words in network order are compared as numbers either as they are, or after their bytes have been
reversed. The two orders hardly ever agree on what lies between two words: only when these are
equal, or the least and the greatest one (`sameBetween_iff`).
-/

namespace ByteOrder

open ByteMemory

def Between (lo hi x : UInt32) : Prop := lo ≤ x ∧ x ≤ hi

instance (lo hi x : UInt32) : Decidable (Between lo hi x) := inferInstanceAs (Decidable (_ ∧ _))

/-- The same words lie between the two in both orders. -/
def SameBetween (lo hi : UInt32) : Prop :=
  ∀ x, Between lo hi x ↔ Between (ntohl lo) (ntohl hi) (ntohl x)

variable {lo hi : UInt32}

theorem SameBetween.symm (h : SameBetween lo hi) : SameBetween (ntohl lo) (ntohl hi) := by
  intro x
  have hx := h (ntohl x)
  rw [ntohl_ntohl] at hx
  rw [ntohl_ntohl, ntohl_ntohl]
  exact hx.symm

theorem sameBetween_ntohl : SameBetween (ntohl lo) (ntohl hi) ↔ SameBetween lo hi := by
  constructor
  · intro h
    have hback := h.symm
    rwa [ntohl_ntohl, ntohl_ntohl] at hback
  · exact SameBetween.symm

/-- The number of four bytes, the last one the lowest. -/
def word (a b c d : Nat) : Nat := a * 16777216 + b * 65536 + c * 256 + d

theorem exists_bytes {n : Nat} (hn : n < 4294967296) :
    ∃ a < 256, ∃ b < 256, ∃ c < 256, ∃ d < 256, n = word a b c d := by
  refine ⟨n / 16777216, by omega, n / 65536 % 256, by omega, n / 256 % 256, by omega, n % 256,
    by omega, ?_⟩
  rw [word]
  omega

section Bytes

variable {a b c d : Nat} (ha : a < 256) (hb : b < 256) (hc : c < 256) (hd : d < 256)

include hb hc hd in
theorem toNat_ntohl_word {v : UInt32} (hv : v.toNat = word a b c d) :
    (ntohl v).toNat = word d c b a := by
  have h0 : v.toNat % 256 = d := by rw [hv, word]; omega
  have h1 : v.toNat / 256 % 256 = c := by rw [hv, word]; omega
  have h2 : v.toNat / 65536 % 256 = b := by rw [hv, word]; omega
  have h3 : v.toNat / 16777216 = a := by rw [hv, word]; omega
  rw [toNat_ntohl, h0, h1, h2, h3, word]

include ha hb hc hd

theorem SameBetween.bytes (h : SameBetween lo hi) :
    lo.toNat ≤ word a b c d ∧ word a b c d ≤ hi.toNat ↔
      (ntohl lo).toNat ≤ word d c b a ∧ word d c b a ≤ (ntohl hi).toNat := by
  have hlt : word a b c d < 4294967296 := by
    rw [word]
    omega
  have hx := h (UInt32.ofNat (word a b c d))
  have hnat := UInt32.toNat_ofNat_of_lt' hlt
  simp only [Between, UInt32.le_iff_toNat_le] at hx
  rwa [toNat_ntohl_word hb hc hd hnat, hnat] at hx

/-- The lower bound is only its top byte. -/
theorem SameBetween.low (h : SameBetween lo hi) (hgap : lo.toNat + 16777216 ≤ hi.toNat)
    (hlo : lo.toNat = word a b c d) : b = 0 ∧ c = 0 ∧ d = 0 := by
  have hbound : hi.toNat < 4294967296 := hi.toNat_lt
  have hrev := toNat_ntohl_word hb hc hd hlo
  rw [word] at hlo hrev
  have hround := h.bytes (show a + 1 < 256 by omega) (show 0 < 256 by decide)
    (show 0 < 256 by decide) (show 0 < 256 by decide)
  simp only [word] at hround
  omega

/-- All bytes of the upper bound but its top byte are 255. -/
theorem SameBetween.high (h : SameBetween lo hi) (hgap : lo.toNat + 16777216 ≤ hi.toNat)
    (hhi : hi.toNat = word a b c d) : b = 255 ∧ c = 255 ∧ d = 255 := by
  have hrev := toNat_ntohl_word hb hc hd hhi
  rw [word] at hhi hrev
  have hround := h.bytes (show a - 1 < 256 by omega) (show 255 < 256 by decide)
    (show 255 < 256 by decide) (show 255 < 256 by decide)
  simp only [word] at hround
  omega

end Bytes

/-- The successor of the lower bound lies between them: its reversal is further up. -/
theorem SameBetween.step (h : SameBetween lo hi) (hlt : lo.toNat < hi.toNat) :
    (ntohl lo).toNat + 16777216 ≤ (ntohl hi).toNat := by
  have hbound : hi.toNat < 4294967296 := hi.toNat_lt
  obtain ⟨a, ha, b, hb, c, hc, d, hd, hlo⟩ := exists_bytes lo.toNat_lt
  obtain ⟨a', ha', b', hb', c', hc', d', hd', hnext⟩ :=
    exists_bytes (show lo.toNat + 1 < 4294967296 by omega)
  have hrev := (h.bytes ha' hb' hc' hd').1 ⟨by omega, by omega⟩
  rw [toNat_ntohl_word hb hc hd hlo] at hrev ⊢
  rw [hlo] at hnext
  simp only [word] at hrev hnext ⊢
  -- A carry would leave zero as the last byte, and the reversal of that is small.
  have hcarry : d ≠ 255 := by
    rintro rfl
    have hzero : d' = 0 := by omega
    omega
  obtain rfl : d' = d + 1 := by omega
  omega

/-- **The two orders agree on what lies between two words** only if that is one word or every
word. -/
theorem sameBetween_iff (h : lo ≤ hi) :
    SameBetween lo hi ↔ lo = hi ∨ lo = 0 ∧ hi = 4294967295 := by
  constructor
  · intro hsame
    rcases Nat.lt_or_ge lo.toNat hi.toNat with hlt | hge
    · have hgap' := hsame.step hlt
      have hgap := hsame.symm.step (by omega)
      rw [ntohl_ntohl, ntohl_ntohl] at hgap
      obtain ⟨a, ha, b, hb, c, hc, d, hd, hlo⟩ := exists_bytes lo.toNat_lt
      obtain ⟨a', ha', b', hb', c', hc', d', hd', hhi⟩ := exists_bytes hi.toNat_lt
      obtain ⟨rfl, rfl, rfl⟩ := hsame.low ha hb hc hd hgap hlo
      obtain ⟨-, -, rfl⟩ :=
        hsame.symm.low hd hc hb ha hgap' (toNat_ntohl_word hb hc hd hlo)
      obtain ⟨rfl, rfl, rfl⟩ := hsame.high ha' hb' hc' hd' hgap hhi
      obtain ⟨-, -, rfl⟩ :=
        hsame.symm.high hd' hc' hb' ha' hgap' (toNat_ntohl_word hb' hc' hd' hhi)
      exact Or.inr ⟨UInt32.toNat_inj.1 hlo, UInt32.toNat_inj.1 hhi⟩
    · exact Or.inl (UInt32.toNat_inj.1 (Nat.le_antisymm (UInt32.le_iff_toNat_le.1 h) hge))
  · intro hcase x
    rcases hcase with rfl | ⟨rfl, rfl⟩
    · have hself (y z : UInt32) : Between y y z ↔ z = y := by
        constructor
        · intro hz
          exact UInt32.le_antisymm hz.2 hz.1
        · rintro rfl
          exact ⟨UInt32.le_refl z, UInt32.le_refl z⟩
      rw [hself, hself]
      exact ⟨fun hx => hx ▸ rfl, ntohl_injective⟩
    · have hall (y : UInt32) : Between 0 4294967295 y :=
        ⟨UInt32.le_iff_toNat_le.2 (Nat.zero_le _),
          UInt32.le_iff_toNat_le.2 (Nat.le_of_lt_succ y.toNat_lt)⟩
      exact iff_of_true (hall x) (hall (ntohl x))

end ByteOrder
