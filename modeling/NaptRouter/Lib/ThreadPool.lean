import Mathlib.Algebra.BigOperators.Group.Finset.Basic
import Mathlib.Algebra.GroupWithZero.Nat
import Mathlib.Data.Fintype.Basic
import NaptRouter.Lib.Runs

/-!
# Threads that share a state

Each thread has a list of operations still to do. A thread that has none takes up a call; one that
has some does the first of them, which changes the shared state and may put other operations in
its place. An operation that is not defined on the shared state blocks. A run is any interleaving
of what the threads do.

* `pending` is the induction rule for what operations may assume: an assertion about an operation
  holds when it is put down, and no operation of another thread destroys it.
* `account` is the rule for resources that the shared state and the operations have in hand.
* `Finishes` is a thread that nothing interrupts. A serial schedule of it is a run
  (`exists_serial_run`), so a program of atomic calls is one of the interleavings.
-/

namespace ThreadPool

open Runs

variable {τ σ ω γ : Type*}

/-- The shared state, and what each thread has still to do. -/
structure Pool (τ σ ω : Type*) where
  shared : σ
  threads : τ → List ω

inductive Move (τ γ : Type*)
  /-- A thread that has nothing to do takes up a call. -/
  | call (t : τ) (c : γ)
  /-- A thread does its next operation. -/
  | turn (t : τ)
deriving DecidableEq

/-- No thread has anything to do. -/
def idle (s : σ) : Pool τ σ ω := ⟨s, fun _ => []⟩

abbrev PoolStep (τ σ ω γ : Type*) := Step (Pool τ σ ω) (Move τ γ)

/-- The operation that a step does, if it is not a call. -/
def PoolStep.op (u : PoolStep τ σ ω γ) : Option ω :=
  match u.input with
  | .call _ _ => none
  | .turn t => (u.pre.threads t).head?

/-- The operations that have been done, in order. -/
def executed (tr : List (PoolStep τ σ ω γ)) : List ω := tr.filterMap PoolStep.op

theorem executed_call (tr : List (PoolStep τ σ ω γ)) (s s' : Pool τ σ ω) (t : τ) (c : γ) :
    executed (tr ++ [⟨s, .call t c, s'⟩]) = executed tr := by
  simp [executed, PoolStep.op]

theorem executed_turn (tr : List (PoolStep τ σ ω γ)) {s : Pool τ σ ω} (s' : Pool τ σ ω) {t : τ}
    {op : ω} {rest : List ω} (h : s.threads t = op :: rest) :
    executed (tr ++ [(⟨s, .turn t, s'⟩ : PoolStep τ σ ω γ)]) = executed tr ++ [op] := by
  simp [executed, PoolStep.op, h]

variable [DecidableEq τ]

/-- `exec` gives the shared state after an operation, and the operations that replace it. `start`
gives the operations of a call. -/
def poolStep (exec : σ → ω → Option (σ × List ω)) (start : γ → List ω) (s : Pool τ σ ω) :
    Move τ γ → Option (Pool τ σ ω)
  | .call t c =>
      match s.threads t with
      | [] => some { s with threads := Function.update s.threads t (start c) }
      | _ :: _ => none
  | .turn t =>
      match s.threads t with
      | [] => none
      | op :: rest => (exec s.shared op).map fun p =>
          ⟨p.1, Function.update s.threads t (p.2 ++ rest)⟩

variable {exec : σ → ω → Option (σ × List ω)} {start : γ → List ω} {init : σ}
  {s s' : Pool τ σ ω} {t : τ}

theorem poolStep_call {c : γ} : poolStep exec start s (.call t c) = some s' ↔
    s.threads t = [] ∧ s' = { s with threads := Function.update s.threads t (start c) } := by
  cases hops : s.threads t with
  | nil => simp [poolStep, hops, eq_comm]
  | cons op rest => simp [poolStep, hops]

theorem poolStep_turn : poolStep exec start s (.turn t) = some s' ↔
    ∃ op rest shared more, s.threads t = op :: rest ∧ exec s.shared op = some (shared, more) ∧
      s' = ⟨shared, Function.update s.threads t (more ++ rest)⟩ := by
  cases hops : s.threads t with
  | nil => simp [poolStep, hops]
  | cons op rest =>
    simp only [poolStep, hops, Option.map_eq_some_iff, Prod.exists, List.cons.injEq]
    constructor
    · intro h
      obtain ⟨shared, more, hexec, rfl⟩ := h
      exact ⟨op, rest, shared, more, ⟨rfl, rfl⟩, hexec, rfl⟩
    · intro h
      obtain ⟨_, _, shared, more, ⟨rfl, rfl⟩, hexec, rfl⟩ := h
      exact ⟨shared, more, hexec, rfl⟩

/-! ## What operations may assume -/

/-- `I` is about what has been done and the shared state, `J` about an operation still to do. -/
theorem pending {I : List ω → σ → Prop} {J : List ω → σ → ω → Prop} (h0 : I [] init)
    (hcall : ∀ ops s c, I ops s → ∀ op ∈ start c, J ops s op)
    (hexec : ∀ ops s op s' more, I ops s → J ops s op → exec s op = some (s', more) →
      I (ops ++ [op]) s' ∧ ∀ op' ∈ more, J (ops ++ [op]) s' op')
    (hkeep : ∀ ops s op s' more, I ops s → J ops s op → exec s op = some (s', more) →
      ∀ op', J ops s op' → J (ops ++ [op]) s' op')
    {tr : List (PoolStep τ σ ω γ)} (h : Run (poolStep exec start) (idle init) tr s) :
    I (executed tr) s.shared ∧ ∀ t, ∀ op ∈ s.threads t, J (executed tr) s.shared op := by
  refine h.history (I := fun tr s => I (executed tr) s.shared ∧
    ∀ t, ∀ op ∈ s.threads t, J (executed tr) s.shared op) ?_ ?_
  · refine ⟨h0, fun t op hop => ?_⟩
    cases hop
  intro tr s i s' _ ih hstep
  obtain ⟨hI, hJ⟩ := ih
  cases i with
  | call t c =>
    obtain ⟨-, rfl⟩ := poolStep_call.1 hstep
    rw [executed_call]
    refine ⟨hI, fun u op hop => ?_⟩
    simp only [Function.update_apply] at hop
    split_ifs at hop with hu
    · exact hcall _ _ c hI op hop
    · exact hJ u op hop
  | turn t =>
    obtain ⟨op, rest, shared, more, hops, hop, rfl⟩ := poolStep_turn.1 hstep
    have hmem : op ∈ s.threads t := by
      rw [hops]
      exact List.mem_cons_self
    obtain ⟨hI', hmore⟩ := hexec _ _ _ _ _ hI (hJ t op hmem) hop
    -- What a thread still has to do stays justified while another one takes its turn.
    have hkept : ∀ u, ∀ op' ∈ s.threads u, J (executed tr ++ [op]) shared op' :=
      fun u op' hop' => hkeep _ _ _ _ _ hI (hJ t op hmem) hop op' (hJ u op' hop')
    rw [executed_turn tr _ hops]
    refine ⟨hI', fun u op' hop' => ?_⟩
    simp only [Function.update_apply] at hop'
    split_ifs at hop' with hu
    · rcases List.mem_append.1 hop' with hnew | hrest
      · exact hmore op' hnew
      · apply hkept t
        rw [hops]
        exact List.mem_cons_of_mem op hrest
    · exact hkept u op' hop'

/-! ## Accounts -/

section Account

variable [Fintype τ]

/-- How much of a resource the threads have in hand. -/
def inHand (held : ω → ℕ) (s : Pool τ σ ω) : ℕ := ∑ t, ((s.threads t).map held).sum

omit [DecidableEq τ] in
theorem inHand_idle (held : ω → ℕ) (s : σ) : inHand held (idle s : Pool τ σ ω) = 0 := by
  simp [inHand, idle]

theorem inHand_update (held : ω → ℕ) (s : Pool τ σ ω) (shared : σ) (t : τ) (ops : List ω) :
    inHand held ⟨shared, Function.update s.threads t ops⟩ + ((s.threads t).map held).sum =
      inHand held s + (ops.map held).sum := by
  have hrest : ∀ u ∈ Finset.univ.erase t,
      ((Function.update s.threads t ops u).map held).sum = ((s.threads u).map held).sum := by
    intro u hu
    rw [Function.update_of_ne (Finset.ne_of_mem_erase hu)]
  rw [inHand, inHand, ← Finset.add_sum_erase _ _ (Finset.mem_univ t),
    ← Finset.add_sum_erase _ (fun u => ((s.threads u).map held).sum) (Finset.mem_univ t),
    Finset.sum_congr rfl hrest]
  simp only [Function.update_self]
  omega

/-- **What no operation makes or destroys**, no interleaving does: calls start with nothing in
hand, and an operation passes on what it has. -/
theorem account {held : ω → ℕ} {kept : σ → ℕ} (hstart : ∀ c, ((start c).map held).sum = 0)
    (hexec : ∀ s op s' more, exec s op = some (s', more) →
      kept s' + (more.map held).sum = kept s + held op)
    {tr : List (PoolStep τ σ ω γ)} (h : Run (poolStep exec start) (idle init) tr s) :
    kept s.shared + inHand held s = kept init := by
  refine h.invariant (I := fun s => kept s.shared + inHand held s = kept init) ?_ ?_
  · rw [inHand_idle]
    rfl
  · intro s i s' ih hstep
    cases i with
    | call t c =>
      obtain ⟨hops, rfl⟩ := poolStep_call.1 hstep
      have hupdate := inHand_update held s s.shared t (start c)
      rw [hops, hstart c] at hupdate
      rw [← ih]
      exact congrArg (kept s.shared + ·) hupdate
    | turn t =>
      obtain ⟨op, rest, shared, more, hops, hop, rfl⟩ := poolStep_turn.1 hstep
      have hupdate := inHand_update held s shared t (more ++ rest)
      have hkept := hexec _ _ _ _ hop
      rw [hops, List.map_append, List.sum_append, List.map_cons, List.sum_cons] at hupdate
      show kept shared + _ = _
      omega

end Account

/-! ## A thread alone -/

/-- A thread that nothing interrupts does all its operations, and leads from one shared state to
another. -/
inductive Finishes (exec : σ → ω → Option (σ × List ω)) : σ → List ω → σ → Prop
  | nil (s : σ) : Finishes exec s [] s
  | cons {s s' s'' : σ} {op : ω} {more rest : List ω} :
      exec s op = some (s', more) → Finishes exec s' (more ++ rest) s'' →
      Finishes exec s (op :: rest) s''

theorem Finishes.single {s s' : σ} {op : ω} (h : exec s op = some (s', [])) :
    Finishes exec s [op] s' :=
  .cons h (.nil s')

theorem Finishes.append {s s' s'' : σ} {ops ops' : List ω} (h : Finishes exec s ops s')
    (h' : Finishes exec s' ops' s'') : Finishes exec s (ops ++ ops') s'' := by
  induction h with
  | nil => exact h'
  | cons hop _ ih =>
    refine .cons hop ?_
    have hrest := ih h'
    rwa [List.append_assoc] at hrest

/-- While the other threads wait, it does so in a run. -/
theorem Finishes.turns {s s' : σ} {ops : List ω} (h : Finishes exec s ops s')
    (start : γ → List ω) (threads : τ → List ω) (t : τ) (rest : List ω) :
    ∃ tr, Run (poolStep exec start) ⟨s, Function.update threads t (ops ++ rest)⟩ tr
        ⟨s', Function.update threads t rest⟩ ∧
      ∀ u ∈ tr, u.input = .turn t := by
  induction h with
  | nil s => exact ⟨[], .nil, fun u hu => by cases hu⟩
  | @cons s s₁ s₂ op more rest' hop _ ih =>
    obtain ⟨tr, hrun, hturns⟩ := ih
    have hturn : poolStep exec start ⟨s, Function.update threads t (op :: rest' ++ rest)⟩
        (.turn t) = some ⟨s₁, Function.update threads t (more ++ rest' ++ rest)⟩ := by
      refine poolStep_turn.2 ⟨op, rest' ++ rest, s₁, more, Function.update_self .., hop, ?_⟩
      rw [Function.update_idem, List.append_assoc]
    refine ⟨_, (Run.nil.snoc hturn).append hrun, fun u hu => ?_⟩
    rcases List.mem_append.1 hu with hfirst | hlater
    · rw [List.mem_singleton.1 hfirst]
    · exact hturns u hlater

theorem Finishes.call {s s' : σ} {c : γ} (h : Finishes exec s (start c) s') (t : τ) :
    ∃ tr, Run (poolStep exec start) (idle s : Pool τ σ ω) tr (idle s') := by
  obtain ⟨tr, hrun, -⟩ := h.turns start (fun _ : τ => []) t []
  rw [List.append_nil, Function.update_eq_self (f := fun _ => ([] : List ω))] at hrun
  have hstep : poolStep exec start (idle s : Pool τ σ ω) (.call t c) =
      some ⟨s, Function.update (fun _ => []) t (start c)⟩ := poolStep_call.2 ⟨rfl, rfl⟩
  exact ⟨_, (Run.nil.snoc hstep).append hrun⟩

/-- **Calls one after the other** are a run of the pool, if each has the effect `call` when nothing
interrupts it. -/
theorem exists_serial_run {call : σ → γ → σ}
    (hcall : ∀ s c, Finishes exec s (start c) (call s c)) (s : σ) (calls : List (τ × γ)) :
    ∃ tr, Run (poolStep exec start) (idle s : Pool τ σ ω) tr
      (idle (calls.foldl (fun s p => call s p.2) s)) := by
  induction calls generalizing s with
  | nil => exact ⟨[], .nil⟩
  | cons p rest ih =>
    obtain ⟨t, c⟩ := p
    obtain ⟨tr, hrun⟩ := (hcall s c).call t
    obtain ⟨tr', hrun'⟩ := ih (call s c)
    exact ⟨_, hrun.append hrun'⟩

end ThreadPool
