import Mathlib.Data.List.FinRange
import Mathlib.Data.List.Induction
import Mathlib.Tactic.Common

/-!
# The first of the longest matches

Rows have a length each, and some of them match. The best match is the longest one, the first
among equals. It is what a scan with a running maximum finds (`scan_best`), and it is the best
match for another notion of matching as well exactly when every row that the two notions judge
differently is outranked (`Best.iff_of_outranked`).
-/

namespace BestMatch

variable {n : ℕ} {len : Fin n → ℕ}

/-- Row `i` is longer than row `j`, or as long and earlier. -/
def Outranks (len : Fin n → ℕ) (i j : Fin n) : Prop := len j < len i ∨ len j = len i ∧ i < j

theorem Outranks.irrefl {i : Fin n} : ¬ Outranks len i i := by
  simp [Outranks]

theorem Outranks.trans {i j k : Fin n} (hij : Outranks len i j) (hjk : Outranks len j k) :
    Outranks len i k := by
  rcases hij with hlt | ⟨heq, hlt⟩ <;> rcases hjk with hlt' | ⟨heq', hlt'⟩
  · exact Or.inl (hlt'.trans hlt)
  · exact Or.inl (heq' ▸ hlt)
  · exact Or.inl (heq ▸ hlt')
  · exact Or.inr ⟨heq'.trans heq, hlt.trans hlt'⟩

/-- Row `i` matches and outranks all other rows that match. -/
structure Best (len : Fin n → ℕ) (P : Fin n → Prop) (i : Fin n) : Prop where
  holds : P i
  best : ∀ j, P j → j ≠ i → Outranks len i j

/-! ## The scan -/

/-- One round: a row that is not longer than the best one so far is not looked at. -/
def step (len : Fin n → ℕ) (p : Fin n → Bool) (best : Fin n × ℤ) (i : Fin n) : Fin n × ℤ :=
  if (len i : ℤ) ≤ best.2 then best else if p i then (i, len i) else best

/-- What the scan knows after the rows in `l`. -/
def Scanned (len : Fin n → ℕ) (p : Fin n → Bool) (l : List (Fin n)) (best : Fin n × ℤ) : Prop :=
  (best.2 = -1 ∧ ∀ j ∈ l, p j = false) ∨
    (best.1 ∈ l ∧ p best.1 = true ∧ best.2 = len best.1 ∧
      ∀ j ∈ l, p j = true → j ≠ best.1 → Outranks len best.1 j)

theorem scanned_step {p : Fin n → Bool} {l : List (Fin n)} {best : Fin n × ℤ} {i : Fin n}
    (h : Scanned len p l best) (hl : ∀ j ∈ l, j < i) :
    Scanned len p (l ++ [i]) (step len p best i) := by
  simp only [Scanned, List.forall_mem_append, List.forall_mem_singleton, step]
  split_ifs with hle hp
  · -- Only after a match can a row be too short.
    rcases h with ⟨hnone, -⟩ | ⟨hmem, hpb, hlen, hbest⟩
    · omega
    · refine Or.inr ⟨List.mem_append_left _ hmem, hpb, hlen, hbest, fun _ _ => ?_⟩
      rw [hlen] at hle
      rcases Nat.lt_or_eq_of_le (by exact_mod_cast hle) with hlt | heq
      · exact Or.inl hlt
      · exact Or.inr ⟨heq, hl _ hmem⟩
  · refine Or.inr ⟨by simp, hp, rfl, fun j hj hpj _ => ?_, fun _ hne => absurd rfl hne⟩
    rcases h with ⟨-, hno⟩ | ⟨-, -, hlen, hbest⟩
    · rw [hno j hj] at hpj
      exact absurd hpj (by simp)
    · have hlt : len best.1 < len i := by omega
      by_cases hjb : j = best.1
      · exact Or.inl (hjb ▸ hlt)
      · exact Outranks.trans (Or.inl hlt) (hbest j hj hpj hjb)
  · rcases h with ⟨hnone, hno⟩ | ⟨hmem, hpb, hlen, hbest⟩
    · exact Or.inl ⟨hnone, hno, by simpa using hp⟩
    · exact Or.inr ⟨List.mem_append_left _ hmem, hpb, hlen, hbest, fun hpi => absurd hpi hp⟩

theorem scanned_foldl {p : Fin n → Bool} {u : Fin n} {l : List (Fin n)}
    (hl : l.Pairwise (· < ·)) : Scanned len p l (l.foldl (step len p) (u, -1)) := by
  induction l using List.reverseRecOn with
  | nil => exact Or.inl ⟨rfl, by simp⟩
  | append_singleton l i ih =>
    obtain ⟨hsorted, -, hlast⟩ := List.pairwise_append.1 hl
    rw [List.foldl_append, List.foldl_cons, List.foldl_nil]
    exact scanned_step (ih hsorted) fun j hj => hlast j hj i (by simp)

/-- **The scan finds the best match**, if there is a match. -/
theorem scan_best {p : Fin n → Bool} (hp : ∃ i, p i = true) (u : Fin n) :
    Best len (fun i => p i = true) ((List.finRange n).foldl (step len p) (u, -1)).1 := by
  have hscanned : Scanned len p (List.finRange n)
      ((List.finRange n).foldl (step len p) (u, -1)) :=
    scanned_foldl (List.pairwise_lt_finRange n)
  rcases hscanned with ⟨-, hno⟩ | ⟨-, hpb, -, hbest⟩
  · obtain ⟨i, hi⟩ := hp
    rw [hno i (List.mem_finRange i)] at hi
    exact absurd hi (by simp)
  · exact ⟨hpb, fun j hj hne => hbest j (List.mem_finRange j) hj hne⟩

/-! ## Two notions of matching -/

theorem exists_best {P : Fin n → Prop} (h : ∃ i, P i) : ∃ i, Best len P i := by
  classical
  obtain ⟨i, hi⟩ := h
  have hscan : Best len (fun i => decide (P i) = true) _ :=
    scan_best ⟨i, decide_eq_true hi⟩ i
  simp only [decide_eq_true_eq] at hscan
  exact ⟨_, hscan⟩

/-- The best match for `C` is the best match for `P` exactly when some match for `P` outranks
every row on which the two differ. -/
theorem Best.iff_of_outranked {C P : Fin n → Prop} {c : Fin n} (hc : Best len C c)
    (hP : ∃ i, P i) :
    Best len P c ↔ ∀ i, ¬ (P i ↔ C i) → ∃ t, P t ∧ Outranks len t i := by
  constructor
  · intro hbest i hdiff
    refine ⟨c, hbest.holds, ?_⟩
    have hne : i ≠ c := by
      rintro rfl
      exact hdiff ⟨fun _ => hc.holds, fun _ => hbest.holds⟩
    by_cases hi : P i
    · exact hbest.best i hi hne
    · exact hc.best i (by_contra fun hCi => hdiff ⟨fun h => absurd h hi, fun h => absurd h hCi⟩) hne
  · intro hout
    obtain ⟨t, ht⟩ : ∃ t, Best len P t := exists_best hP
    have htop (s : Fin n) (hs : P s) : ¬ Outranks len s t := by
      intro hst
      by_cases hne : s = t
      · exact Outranks.irrefl (hne ▸ hst)
      · exact Outranks.irrefl (hst.trans (ht.best s hs hne))
    -- Neither of the two best rows is judged differently, so each is a match for both.
    have hCt : C t := by
      by_contra hno
      obtain ⟨s, hs, hst⟩ := hout t fun hiff => hno (hiff.1 ht.holds)
      exact htop s hs hst
    have hct : c = t := by
      by_contra hne
      have hct := hc.best t hCt (Ne.symm hne)
      by_cases hPc : P c
      · exact htop c hPc hct
      · obtain ⟨s, hs, hsc⟩ := hout c fun hiff => hPc (hiff.2 hc.holds)
        exact htop s hs (hsc.trans hct)
    exact hct ▸ ht

end BestMatch
