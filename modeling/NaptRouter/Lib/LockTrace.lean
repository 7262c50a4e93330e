import Mathlib.Logic.Function.Basic
import Mathlib.Control.Basic

/-!
# Programs that use mutexes

A program that logs what it does to a set of mutexes `μ`, and to the data behind them, and a
calculus of weakest preconditions for the rules that such a log has to keep.

* A mutex is locked when it is free, and unlocked when it is held.
* The data of a mutex is used while it is held.

`wp` looks at one run of a program, so its rules are equivalences: a program can be shown to
keep the rules, or to break them, by rewriting with them.
-/

namespace LockTrace

/-- One operation of the log. A run of accesses with no operation of the mutex in between is
logged once. -/
inductive LockOp (μ : Type)
  | lock (m : μ)
  | unlock (m : μ)
  | access (m : μ)
deriving DecidableEq, Repr

/-- Which mutexes are held. -/
abbrev Held (μ : Type) := μ → Bool

variable {μ α β : Type}

/-- The same operation, of a program that uses other mutexes as well. -/
def LockOp.map {ν : Type} (f : μ → ν) : LockOp μ → LockOp ν
  | .lock m => .lock (f m)
  | .unlock m => .unlock (f m)
  | .access m => .access (f m)

def Held.free : Held μ := fun _ => false

section Check

variable [DecidableEq μ]

/-- The mutexes after an operation, unless it is against the rules. -/
def LockOp.step (held : Held μ) : LockOp μ → Option (Held μ)
  | .lock m => if held m then none else some (Function.update held m true)
  | .unlock m => if held m then some (Function.update held m false) else none
  | .access m => if held m then some held else none

/-- The mutexes after a log, unless an operation of it is against the rules. -/
def check (held : Held μ) (ops : List (LockOp μ)) : Option (Held μ) := ops.foldlM LockOp.step held

theorem check_append (held : Held μ) (ops ops' : List (LockOp μ)) :
    check held (ops ++ ops') = (check held ops).bind (check · ops') :=
  List.foldlM_append ..

theorem check_singleton (held : Held μ) (op : LockOp μ) : check held [op] = op.step held := by
  cases h : op.step held <;> simp [check, h]

end Check

/-! ## Programs -/

/-- A program with its log. `none` is a program that does not return. -/
def Traced (μ α : Type) := Option (List (LockOp μ) × α)

namespace Traced

instance : Monad (Traced μ) where
  pure a := some ([], a)
  bind x f := Option.bind x fun p => (f p.2).map fun q => (p.1 ++ q.1, q.2)

/-- Log one operation. -/
def emit (op : LockOp μ) : Traced μ Unit := some ([op], ())

/-- Run a program that does not use mutexes. -/
def lift (x : Option α) : Traced μ α := x.map fun a => ([], a)

/-- Forget the log. -/
def erase (x : Traced μ α) : Option α := Option.map Prod.snd x

/-- The log, if the program returns. -/
def ops (x : Traced μ α) : Option (List (LockOp μ)) := Option.map Prod.fst x

@[simp] theorem erase_pure (a : α) : (pure a : Traced μ α).erase = some a := rfl

@[simp] theorem erase_emit (op : LockOp μ) : (emit op).erase = some () := rfl

@[simp] theorem erase_lift (x : Option α) : (lift x : Traced μ α).erase = x := by
  cases x <;> rfl

@[simp] theorem erase_bind (x : Traced μ α) (f : α → Traced μ β) :
    (x >>= f).erase = x.erase.bind fun a => (f a).erase := by
  change Option.map Prod.snd (Option.bind x _) = (Option.map Prod.snd x).bind _
  cases x with
  | none => rfl
  | some p => exact Option.map_map Prod.snd _ (f p.2)

/-! ## Logs -/

section Logs

variable {ops : List (LockOp μ)} {a a' : α} {b : β}

theorem pure_eq_some : (pure a : Traced μ α) = some (ops, a') ↔ ops = [] ∧ a' = a := by
  constructor
  · intro h
    obtain ⟨rfl, rfl⟩ := Prod.mk.inj (Option.some.inj h)
    exact ⟨rfl, rfl⟩
  · intro h
    obtain ⟨rfl, rfl⟩ := h
    rfl

theorem emit_eq_some {op : LockOp μ} {u : Unit} : emit op = some (ops, u) ↔ ops = [op] := by
  constructor
  · exact fun h => (Prod.mk.inj (Option.some.inj h)).1.symm
  · rintro rfl
    rfl

theorem lift_eq_some {x : Option α} : lift x = some (ops, a) ↔ ops = [] ∧ x = some a := by
  cases x with
  | none =>
    constructor
    · intro h
      cases h
    · intro h
      cases h.2
  | some b =>
    refine pure_eq_some.trans (and_congr_right fun _ => ?_)
    rw [Option.some.injEq, eq_comm]

theorem bind_eq_some {x : Traced μ α} {f : α → Traced μ β} :
    (x >>= f) = some (ops, b) ↔ ∃ ops₁ a ops₂, x = some (ops₁, a) ∧ f a = some (ops₂, b) ∧
      ops = ops₁ ++ ops₂ := by
  constructor
  · intro h
    obtain ⟨⟨ops₁, a⟩, hx, hrest⟩ := Option.bind_eq_some_iff.1 h
    obtain ⟨⟨ops₂, b'⟩, hf, hops⟩ := Option.map_eq_some_iff.1 hrest
    obtain ⟨rfl, rfl⟩ := Prod.mk.inj hops
    exact ⟨ops₁, a, ops₂, hx, hf, rfl⟩
  · intro h
    obtain ⟨ops₁, a, ops₂, rfl, hf, rfl⟩ := h
    show Option.map _ (f a) = _
    rw [hf]
    rfl

end Logs

/-! ## Weakest preconditions -/

variable [DecidableEq μ]

/-- From `held` on, the program returns, keeps the rules, and ends in `Q`. -/
def wp (x : Traced μ α) (Q : α → Held μ → Prop) (held : Held μ) : Prop :=
  ∃ ops a held', x = some (ops, a) ∧ check held ops = some held' ∧ Q a held'

variable {Q : α → Held μ → Prop} {held : Held μ}

@[simp] theorem wp_pure {a : α} : wp (pure a) Q held ↔ Q a held := by
  constructor
  · intro h
    obtain ⟨ops, a', held', heq, hcheck, hQ⟩ := h
    obtain ⟨rfl, rfl⟩ := Prod.mk.inj (Option.some.inj heq)
    rwa [Option.some.inj hcheck]
  · exact fun hQ => ⟨[], a, held, rfl, rfl, hQ⟩

@[simp] theorem wp_bind {x : Traced μ β} {f : β → Traced μ α} :
    wp (x >>= f) Q held ↔ wp x (fun b => wp (f b) Q) held := by
  constructor
  · intro h
    obtain ⟨ops, a, held', heq, hcheck, hQ⟩ := h
    obtain ⟨⟨ops₁, b⟩, hx, hrest⟩ := Option.bind_eq_some_iff.1 heq
    obtain ⟨⟨ops₂, a'⟩, hf, hops⟩ := Option.map_eq_some_iff.1 hrest
    obtain ⟨rfl, rfl⟩ := Prod.mk.inj hops
    rw [check_append] at hcheck
    obtain ⟨held₁, hcheck₁, hcheck₂⟩ := Option.bind_eq_some_iff.1 hcheck
    exact ⟨ops₁, b, held₁, hx, hcheck₁, ops₂, a', held', hf, hcheck₂, hQ⟩
  · intro h
    obtain ⟨ops₁, b, held₁, rfl, hcheck₁, ops₂, a, held', hf, hcheck₂, hQ⟩ := h
    refine ⟨ops₁ ++ ops₂, a, held', ?_, ?_, hQ⟩
    · change Option.map _ (f b) = _
      rw [hf]
      rfl
    · rw [check_append, hcheck₁]
      exact hcheck₂

@[simp] theorem wp_lift {x : Option α} : wp (lift x) Q held ↔ ∃ a, x = some a ∧ Q a held := by
  cases x with
  | none => simp [wp, lift]
  | some a =>
    refine (wp_pure (a := a)).trans ?_
    simp

theorem wp_emit {op : LockOp μ} {Q : Unit → Held μ → Prop} :
    wp (emit op) Q held ↔ ∃ held', op.step held = some held' ∧ Q () held' := by
  constructor
  · intro h
    obtain ⟨ops, u, held', heq, hcheck, hQ⟩ := h
    obtain ⟨rfl, -⟩ := Prod.mk.inj (Option.some.inj heq)
    exact ⟨held', by rw [← check_singleton, hcheck], hQ⟩
  · intro h
    obtain ⟨held', hstep, hQ⟩ := h
    exact ⟨[op], (), held', rfl, by rw [check_singleton, hstep], hQ⟩

@[simp] theorem wp_lock {m : μ} {Q : Unit → Held μ → Prop} :
    wp (emit (.lock m)) Q held ↔ held m = false ∧ Q () (Function.update held m true) := by
  rw [wp_emit, LockOp.step]
  cases held m <;> simp

@[simp] theorem wp_unlock {m : μ} {Q : Unit → Held μ → Prop} :
    wp (emit (.unlock m)) Q held ↔ held m = true ∧ Q () (Function.update held m false) := by
  rw [wp_emit, LockOp.step]
  cases held m <;> simp

@[simp] theorem wp_access {m : μ} {Q : Unit → Held μ → Prop} :
    wp (emit (.access m)) Q held ↔ held m = true ∧ Q () held := by
  rw [wp_emit, LockOp.step]
  cases held m <;> simp

/-- The program returns, keeps the rules, and leaves all mutexes free as it found them. -/
def Disciplined (x : Traced μ α) : Prop :=
  ∃ ops, x.ops = some ops ∧ check Held.free ops = some Held.free

theorem disciplined_iff {x : Traced μ α} :
    x.Disciplined ↔ wp x (fun _ held => held = Held.free) Held.free := by
  constructor
  · intro h
    obtain ⟨ops', hops, hcheck⟩ := h
    obtain ⟨⟨ops, a⟩, hx, rfl⟩ := Option.map_eq_some_iff.1 hops
    exact ⟨ops, a, Held.free, hx, hcheck, rfl⟩
  · intro h
    obtain ⟨ops, a, held, rfl, hcheck, rfl⟩ := h
    exact ⟨ops, rfl, hcheck⟩

/-- What a program does after its last operation does not matter. -/
theorem disciplined_bind_pure {x : Traced μ β} {f : β → Traced μ α}
    (hf : ∀ b, ∃ a, f b = pure a) : (x >>= f).Disciplined ↔ x.Disciplined := by
  have hpure (b : β) : wp (f b) (fun _ held => held = Held.free) =
      fun held => held = Held.free := by
    obtain ⟨a, ha⟩ := hf b
    funext held
    rw [ha, wp_pure]
  simp only [disciplined_iff, wp_bind, hpure]

end Traced

end LockTrace
