import Mathlib.Algebra.BigOperators.Group.List.Basic
import Mathlib.Algebra.GroupWithZero.Nat
import Mathlib.Data.List.Basic
import Mathlib.Order.Basic

/-!
# Runs, histories and bounded loops

A system is a partial step function: from a state and an input to the next state, or to
nothing when the step does not return. A run keeps its whole history, one record a step, so
that a property can relate what happens now to what happened earlier.

* `Run.invariant` and `Run.history` are the two induction rules: the first for a property of
  states, the second for a property that ties the state to the history.
* `Run.charge` is the rule for amounts that steps may raise.
* `Since p q` says that `p` happened and `q` has not happened after it. `since_snoc` is how one
  more step changes it.
* `foldlM_range` is the loop rule: an invariant indexed by the loop counter.
-/

namespace Runs

variable {σ ι : Type*}

/-! ## Runs -/

/-- One step of a run: the state before, the input, the state after. -/
structure Step (σ ι : Type*) where
  pre : σ
  input : ι
  post : σ

/-- The runs from `init`, each with its history and the state it ends in. -/
inductive Run (step : σ → ι → Option σ) (init : σ) : List (Step σ ι) → σ → Prop
  | nil : Run step init [] init
  | snoc {tr : List (Step σ ι)} {s s' : σ} {i : ι} :
      Run step init tr s → step s i = some s' → Run step init (tr ++ [⟨s, i, s'⟩]) s'

variable {step : σ → ι → Option σ} {init : σ}

/-- What holds initially and is kept by every step holds after every run. -/
theorem Run.invariant {I : σ → Prop} (h0 : I init)
    (hstep : ∀ s i s', I s → step s i = some s' → I s') {tr : List (Step σ ι)} {s : σ}
    (h : Run step init tr s) : I s := by
  induction h with
  | nil => exact h0
  | snoc _ hs ih => exact hstep _ _ _ ih hs

/-- The same rule for a property of the history and the state together. -/
theorem Run.history {I : List (Step σ ι) → σ → Prop} (h0 : I [] init)
    (hstep : ∀ tr s i s', Run step init tr s → I tr s → step s i = some s' →
      I (tr ++ [⟨s, i, s'⟩]) s') {tr : List (Step σ ι)} {s : σ}
    (h : Run step init tr s) : I tr s := by
  induction h with
  | nil => exact h0
  | snoc hr hs ih => exact hstep _ _ _ _ hr ih hs

/-- An amount that no step raises by more than its allowance is bounded by the allowances. -/
theorem Run.charge {account : σ → Nat} {allowance : Step σ ι → Nat}
    (hstep : ∀ s i s', step s i = some s' → account s' ≤ account s + allowance ⟨s, i, s'⟩)
    {tr : List (Step σ ι)} {s : σ} (h : Run step init tr s) :
    account s ≤ account init + (tr.map allowance).sum := by
  induction h with
  | nil => exact Nat.le_add_right _ _
  | snoc _ hs ih =>
    rw [List.map_append, List.sum_append, List.map_singleton, List.sum_singleton, ← Nat.add_assoc]
    exact Nat.le_trans (hstep _ _ _ hs) (Nat.add_le_add_right ih _)

/-- Where each step of a run is a step of another machine through `abs`, the run is a run of that
machine. -/
theorem Run.refines {α κ : Type*} {absStep : α → κ → Option α} (abs : σ → α) (label : σ → ι → κ)
    (hstep : ∀ tr s i s', Run step init tr s → step s i = some s' →
      absStep (abs s) (label s i) = some (abs s')) {tr : List (Step σ ι)} {s : σ}
    (h : Run step init tr s) :
    Run absStep (abs init)
      (tr.map fun t => ⟨abs t.pre, label t.pre t.input, abs t.post⟩) (abs s) := by
  induction h with
  | nil => exact .nil
  | snoc hr hs ih =>
    rw [List.map_append, List.map_singleton]
    exact ih.snoc (hstep _ _ _ _ hr hs)

/-- The states of a run, the first one included. -/
def visited (init : σ) (tr : List (Step σ ι)) : List σ := init :: tr.map (·.post)

theorem forall_visited {init : σ} {tr : List (Step σ ι)} {P : σ → Prop} :
    (∀ s ∈ visited init tr, P s) ↔ P init ∧ ∀ t ∈ tr, P t.post := by
  simp [visited]

theorem Run.append {tr tr' : List (Step σ ι)} {s s' : σ} (h : Run step init tr s)
    (h' : Run step s tr' s') : Run step init (tr ++ tr') s' := by
  induction h' with
  | nil => simpa using h
  | snoc _ hs ih => rw [← List.append_assoc]; exact ih.snoc hs

/-- An element of a list that ends in `u` is `u` itself or stands before it. -/
theorem cons_append_eq_snoc {α : Type*} {before after l : List α} {t u : α}
    (h : before ++ t :: after = l ++ [u]) :
    (before = l ∧ t = u ∧ after = []) ∨
      ∃ after', after = after' ++ [u] ∧ l = before ++ t :: after' := by
  rcases List.eq_nil_or_concat after with rfl | ⟨after', w, rfl⟩
  · obtain ⟨hl, hlast⟩ := List.append_inj' h rfl
    exact Or.inl ⟨hl, by simpa using hlast, rfl⟩
  · rw [List.concat_eq_append] at h ⊢
    rw [← List.cons_append, ← List.append_assoc] at h
    obtain ⟨hl, hlast⟩ := List.append_inj' h rfl
    obtain rfl : w = u := by simpa using hlast
    exact Or.inr ⟨after', rfl, hl.symm⟩

theorem Run.cut {before after : List (Step σ ι)} {t : Step σ ι} {s : σ}
    (h : Run step init (before ++ t :: after) s) :
    Run step init before t.pre ∧ step t.pre t.input = some t.post ∧ Run step t.post after s := by
  generalize htr : before ++ t :: after = tr at h
  induction h generalizing after with
  | nil => simp at htr
  | snoc hr hs ih =>
    rcases cons_append_eq_snoc htr with ⟨rfl, rfl, rfl⟩ | ⟨after', rfl, htr'⟩
    · exact ⟨hr, hs, .nil⟩
    · obtain ⟨h₁, h₂, h₃⟩ := ih htr'.symm
      exact ⟨h₁, h₂, h₃.snoc hs⟩

theorem Run.upto {before after : List (Step σ ι)} {t : Step σ ι} {s : σ}
    (h : Run step init (before ++ t :: after) s) : Run step init (before ++ [t]) t.post :=
  h.cut.1.snoc h.cut.2.1

/-- A property of the history and the state that a step keeps unless it is `bad`, and that a bad
step breaks, holds throughout a run exactly when no step of the run is bad. -/
theorem Run.forall_upto_iff {P : List (Step σ ι) → σ → Prop} {bad : σ → ι → Prop} (h0 : P [] init)
    (hstep : ∀ tr s i s', Run step init tr s → P tr s → step s i = some s' →
      (P (tr ++ [⟨s, i, s'⟩]) s' ↔ ¬ bad s i))
    {tr : List (Step σ ι)} {s : σ} (h : Run step init tr s) :
    (∀ before t after, tr = before ++ t :: after → P (before ++ [t]) t.post) ↔
      ∀ t ∈ tr, ¬ bad t.pre t.input := by
  have hboth : ((∀ before t after, tr = before ++ t :: after → P (before ++ [t]) t.post) ↔
      ∀ t ∈ tr, ¬ bad t.pre t.input) ∧ ((∀ t ∈ tr, ¬ bad t.pre t.input) → P tr s) := by
    induction h with
    | nil => exact ⟨by simp, fun _ => h0⟩
    | @snoc tr s s' i hr hs ih =>
      obtain ⟨hiff, hpre⟩ := ih
      simp only [List.forall_mem_append, List.forall_mem_singleton]
      refine ⟨⟨fun hall => ?_, fun hall before t after heq => ?_⟩, fun hall => ?_⟩
      · have hbefore := hiff.1 fun before t after heq =>
          hall before t (after ++ [⟨s, i, s'⟩]) (by rw [heq, List.append_assoc, List.cons_append])
        exact ⟨hbefore, (hstep _ _ _ _ hr (hpre hbefore) hs).1 (hall tr _ [] rfl)⟩
      · rcases cons_append_eq_snoc heq.symm with ⟨rfl, rfl, -⟩ | ⟨after', -, htr⟩
        · exact (hstep _ _ _ _ hr (hpre hall.1) hs).2 hall.2
        · exact hiff.2 hall.1 before t after' htr
      · exact (hstep _ _ _ _ hr (hpre hall.1) hs).2 hall.2
  exact hboth.1

theorem Run.forall_post_iff {P : σ → Prop} {bad : σ → ι → Prop} (h0 : P init)
    (hstep : ∀ tr s i s', Run step init tr s → P s → step s i = some s' → (P s' ↔ ¬ bad s i))
    {tr : List (Step σ ι)} {s : σ} (h : Run step init tr s) :
    (∀ t ∈ tr, P t.post) ↔ ∀ t ∈ tr, ¬ bad t.pre t.input := by
  rw [← h.forall_upto_iff (P := fun _ s => P s) h0 hstep]
  constructor
  · rintro hall before t after rfl
    exact hall t (by simp)
  · intro hall t ht
    obtain ⟨before, after, heq⟩ := List.append_of_mem ht
    exact hall before t after heq

/-! ## Executing a list of inputs -/

/-- The run over a list of inputs, if every step of it is defined. -/
def runAll (step : σ → ι → Option σ) : σ → List ι → Option (List (Step σ ι) × σ)
  | s, [] => some ([], s)
  | s, i :: rest => (step s i).bind fun s' =>
      (runAll step s' rest).map fun (tr, s'') => (⟨s, i, s'⟩ :: tr, s'')

theorem run_of_runAll {inputs : List ι} {s s' : σ} {tr : List (Step σ ι)}
    (h : runAll step s inputs = some (tr, s')) :
    Run step s tr s' ∧ tr.map (·.input) = inputs := by
  induction inputs generalizing s tr with
  | nil =>
    obtain ⟨rfl, rfl⟩ : [] = tr ∧ s = s' := by simpa [runAll] using h
    exact ⟨.nil, rfl⟩
  | cons i rest ih =>
    obtain ⟨s₁, hs₁, hmap⟩ := Option.bind_eq_some_iff.1 h
    obtain ⟨⟨tr', s₂⟩, hrest, heq⟩ := Option.map_eq_some_iff.1 hmap
    obtain ⟨rfl, rfl⟩ : (⟨s, i, s₁⟩ : Step σ ι) :: tr' = tr ∧ s₂ = s' := by simpa using heq
    obtain ⟨hrun, hinputs⟩ := ih hrest
    exact ⟨(Run.nil.snoc hs₁ : Run step s [⟨s, i, s₁⟩] s₁).append hrun, by simp [hinputs]⟩

/-- A test that the last step of an execution passes holds of a run over the same inputs. -/
theorem exists_run_snoc (step : σ → ι → Option σ) (s : σ) (inputs : List ι) (i : ι)
    (p : List (Step σ ι) → Step σ ι → Bool)
    (h : (runAll step s inputs).any (fun x => (step x.2 i).any fun s' => p x.1 ⟨x.2, i, s'⟩)) :
    ∃ tr t, Run step s (tr ++ [t]) t.post ∧ (tr ++ [t]).map (·.input) = inputs ++ [i] ∧
      p tr t = true := by
  obtain ⟨⟨tr, s₁⟩, hx, hlast⟩ := (Option.any_eq_true _ _).1 h
  obtain ⟨hrun, hinputs⟩ := run_of_runAll hx
  obtain ⟨s', hs', hp⟩ := (Option.any_eq_true _ _).1 hlast
  exact ⟨tr, ⟨s₁, i, s'⟩, hrun.snoc hs', by simp [hinputs], hp⟩

theorem exists_run_cons_snoc (step : σ → ι → Option σ) (s : σ) (i : ι) (inputs : List ι) (j : ι)
    (p : Step σ ι → List (Step σ ι) → Step σ ι → Bool)
    (h : (runAll step s (i :: inputs)).any (fun x => (step x.2 j).any fun s' =>
      x.1.head?.any fun t => p t x.1.tail ⟨x.2, j, s'⟩)) :
    ∃ t tr u, Run step s (t :: tr ++ [u]) u.post ∧
      (t :: tr ++ [u]).map (·.input) = i :: inputs ++ [j] ∧ p t tr u = true := by
  obtain ⟨tr, u, hrun, hinputs, hlast⟩ := exists_run_snoc step s (i :: inputs) j
    (fun tr u => tr.head?.any fun t => p t tr.tail u) h
  obtain ⟨t, ht, hp⟩ := (Option.any_eq_true _ _).1 hlast
  obtain ⟨tr', rfl⟩ := List.head?_eq_some_iff.1 ht
  exact ⟨t, tr', u, hrun, hinputs, hp⟩

/-! ## Since -/

/-- `p` happened, and `q` has not happened after it. -/
def Since {α : Type*} (p q : α → Prop) (tr : List α) : Prop :=
  ∃ before t after, tr = before ++ t :: after ∧ p t ∧ ∀ u ∈ after, ¬ q u

variable {α : Type*} {p q : α → Prop}

theorem not_since_nil : ¬ Since p q [] := by
  intro hex
  obtain ⟨before, t, after, h, -⟩ := hex
  simp at h

/-- One more step: `p` happens now, or it held before and `q` does not happen now. -/
theorem since_snoc {tr : List α} {t : α} :
    Since p q (tr ++ [t]) ↔ p t ∨ (¬ q t ∧ Since p q tr) := by
  constructor
  · intro hex
    obtain ⟨before, u, after, h, hp, hq⟩ := hex
    rcases cons_append_eq_snoc h.symm with ⟨-, rfl, -⟩ | ⟨after', rfl, htr⟩
    · exact Or.inl hp
    · exact Or.inr ⟨hq t (by simp), before, u, after', htr, hp, fun x hx => hq x (by simp [hx])⟩
  · intro hcase
    rcases hcase with hp | ⟨hq, before, u, after, rfl, hp, hafter⟩
    · exact ⟨tr, t, [], rfl, hp, by simp⟩
    · refine ⟨before, u, after ++ [t], by simp, hp, fun x hx => ?_⟩
      rcases List.mem_append.1 hx with hx | hx
      · exact hafter x hx
      · rw [List.mem_singleton.1 hx]
        exact hq

theorem Since.append {tr tr' : List α} (h : Since p q tr) (hq : ∀ u ∈ tr', ¬ q u) :
    Since p q (tr ++ tr') := by
  obtain ⟨before, t, after, rfl, hp, hafter⟩ := h
  refine ⟨before, t, after ++ tr', by simp, hp, fun u hu => ?_⟩
  rcases List.mem_append.1 hu with hu | hu
  · exact hafter u hu
  · exact hq u hu

theorem Since.exists_mem {tr : List α} (h : Since p q tr) : ∃ t ∈ tr, p t := by
  obtain ⟨before, t, after, rfl, hp, -⟩ := h
  exact ⟨t, by simp, hp⟩

/-! ## Stores that record a history

A store in which an entry is only written under a free key, and all entries can be lost at
once, holds exactly what was written since the last loss. -/

section Records

variable {κ μ β : Type*}

/-- On the keys in `keys`, the store `L` holds what was written since the last loss. -/
def Records (keys : κ → Prop) (key : μ → κ) (val : μ → β) (writes : α → μ → Prop)
    (loses : α → Prop) (L : κ → Option β) (tr : List α) : Prop :=
  ∀ k, keys k → ∀ v, L k = some v ↔
    ∃ m, key m = k ∧ val m = v ∧ Since (writes · m) loses tr

variable {keys : κ → Prop} {key : μ → κ} {val : μ → β} {writes : α → μ → Prop}
  {loses : α → Prop} {L L' : κ → Option β} {tr : List α} {t : α}

theorem records_nil (hL : ∀ k, L k = none) : Records keys key val writes loses L [] := by
  refine fun k _ v => ⟨fun h => ?_, ?_⟩
  · rw [hL k] at h
    cases h
  · intro hex
    obtain ⟨m, -, -, hsince⟩ := hex
    exact absurd hsince not_since_nil

theorem Records.idle (h : Records keys key val writes loses L tr) (hL : ∀ k, L' k = L k)
    (hwrites : ∀ m, ¬ writes t m) (hloses : ¬ loses t) :
    Records keys key val writes loses L' (tr ++ [t]) := by
  intro k hk v
  rw [hL, h k hk v]
  simp only [since_snoc, hwrites, hloses, false_or, not_false_eq_true, true_and]

/-- A step that writes one entry under a free key, possibly after losing all others. -/
theorem Records.write (h : Records keys key val writes loses L tr) {m : μ} (hm : keys (key m))
    (hfree : L (key m) = none) (hwrites : ∀ m', writes t m' ↔ m' = m)
    (hself : L' (key m) = some (val m)) (hlost : loses t → ∀ k, keys k → k ≠ key m → L' k = none)
    (hkept : ¬ loses t → ∀ k, keys k → k ≠ key m → L' k = L k) :
    Records keys key val writes loses L' (tr ++ [t]) := by
  intro k hk v
  simp only [since_snoc, hwrites]
  by_cases hkm : k = key m
  · subst hkm
    rw [hself]
    refine ⟨fun hv => ⟨m, rfl, Option.some.inj hv, Or.inl rfl⟩, ?_⟩
    intro hcase
    rcases hcase with ⟨m', hkey, rfl, rfl | ⟨-, hsince⟩⟩
    · rfl
    · have hm' := (h (key m) hm (val m')).2 ⟨m', hkey, rfl, hsince⟩
      rw [hfree] at hm'
      cases hm'
  · by_cases hl : loses t
    · rw [hlost hl k hk hkm]
      refine ⟨fun hv => absurd hv (by simp), ?_⟩
      intro hcase
      rcases hcase with ⟨m', rfl, -, rfl | ⟨hnl, -⟩⟩
      · exact absurd rfl hkm
      · exact absurd hl hnl
    · rw [hkept hl k hk hkm, h k hk v]
      constructor
      · intro hex
        obtain ⟨m', hkey, hval, hsince⟩ := hex
        exact ⟨m', hkey, hval, Or.inr ⟨hl, hsince⟩⟩
      · intro hcase
        rcases hcase with ⟨m', rfl, hval, rfl | ⟨-, hsince⟩⟩
        · exact absurd rfl hkm
        · exact ⟨m', rfl, hval, hsince⟩

end Records

/-! ## Loops -/

/-- A loop over `0, …, n - 1` that keeps an invariant runs to its end. -/
theorem foldlM_range {f : σ → ℕ → Option σ} {I : ℕ → σ → Prop} {n : ℕ} {s : σ} (h0 : I 0 s)
    (hstep : ∀ i s, i < n → I i s → ∃ s', f s i = some s' ∧ I (i + 1) s') :
    ∃ s', (List.range n).foldlM f s = some s' ∧ I n s' := by
  induction n with
  | zero => exact ⟨s, rfl, h0⟩
  | succ n ih =>
    obtain ⟨s', hs', hI⟩ := ih fun i s hi => hstep i s (by omega)
    obtain ⟨s'', hs'', hI'⟩ := hstep n s' (by omega) hI
    exact ⟨s'', by simp [List.range_succ, List.foldlM_append, hs', hs''], hI'⟩

/-- Two loop bodies that agree on the states the first one can reach make the same loop. -/
theorem foldlM_range_congr {f g : σ → ℕ → Option σ} {I : ℕ → σ → Prop} {n : ℕ} {s : σ}
    (h0 : I 0 s)
    (hstep : ∀ i s, i < n → I i s → f s i = g s i ∧ ∀ s', f s i = some s' → I (i + 1) s') :
    (List.range n).foldlM f s = (List.range n).foldlM g s ∧
      ∀ s', (List.range n).foldlM f s = some s' → I n s' := by
  induction n with
  | zero =>
    refine ⟨rfl, fun s' hs' => ?_⟩
    obtain rfl : s = s' := by simpa using hs'
    exact h0
  | succ n ih =>
    obtain ⟨heq, hI⟩ := ih fun i s hi => hstep i s (by omega)
    simp only [List.range_succ, List.foldlM_append, List.foldlM_cons, List.foldlM_nil]
    rw [← heq]
    cases hr : (List.range n).foldlM f s with
    | none => simp
    | some s' =>
      obtain ⟨h₁, h₂⟩ := hstep n s' (by omega) (hI s' hr)
      exact ⟨by simp [h₁], fun s'' hs'' => h₂ s'' (by simpa using hs'')⟩

end Runs
