import Mathlib.Data.List.Basic

/-!
# Lifecycles

Objects are opened and closed under keys, and every event is about the object of one key. A partial
function `next` says in which state of its object an event may happen, and what the state is then.
The events of a system are sound when, for each key, its own events lead the object from its state
before to its state after (`Lives`).
-/

namespace Lifecycle

variable {α κ σ : Type*} [DecidableEq κ] {key : α → κ} {next : σ → α → Option σ}
  {es es' : List α} {f g h : κ → σ}

/-- The events of each key happen in an order that `next` allows, and lead from `f` to `g`. -/
def Lives (key : α → κ) (next : σ → α → Option σ) (es : List α) (f g : κ → σ) : Prop :=
  ∀ k, (es.filter (key · = k)).foldlM next (f k) = some (g k)

theorem Lives.idle (hsame : ∀ k, g k = f k) : Lives key next [] f g := by
  intro k
  rw [hsame k]
  rfl

theorem Lives.trans (hes : Lives key next es f g) (hes' : Lives key next es' g h) :
    Lives key next (es ++ es') f h := by
  intro k
  rw [List.filter_append, List.foldlM_append, hes k]
  exact hes' k

/-- One event, on one object. -/
theorem Lives.event {e : α} (hself : next (f (key e)) e = some (g (key e)))
    (hother : ∀ k, k ≠ key e → g k = f k) : Lives key next [e] f g := by
  intro k
  by_cases hk : key e = k
  · subst hk
    rw [List.filter_cons_of_pos (by simp), List.filter_nil, List.foldlM_cons, hself]
    rfl
  · rw [List.filter_cons_of_neg (by simpa using hk), hother k (Ne.symm hk)]
    rfl

end Lifecycle
