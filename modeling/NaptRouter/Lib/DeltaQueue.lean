import Mathlib.Data.List.Basic

/-!
# Delta queues

A delta queue keeps, for each entry, how long after the entry before it the entry is due. The time
of the first entry is kept by a timer: `due t q` is when the entries are due, if the timer has `t`
left.

* Removing an entry gives its delta to the next one, and no other entry is due at another time
  (`dueFrom_remove`, `due_remove_tail`, `due_remove_head`).
* A new entry with the delta `w - total q` is due `w` from now only if the first delta is what the
  timer has left (`due_push`).
-/

namespace DeltaQueue

variable {κ : Type*} {k : κ} {d t w : Nat} {q : List (κ × Nat)}

/-! ## Due times -/

/-- When the entries are due, if the first delta begins to run at `t`. -/
def dueFrom (t : Nat) : List (κ × Nat) → List (κ × Nat)
  | [] => []
  | (k, d) :: q => (k, t + d) :: dueFrom (t + d) q

/-- When the entries are due, if the timer has `t` left. -/
def due (t : Nat) : List (κ × Nat) → List (κ × Nat)
  | [] => []
  | (k, _) :: q => (k, t) :: dueFrom t q

def total : List (κ × Nat) → Nat
  | [] => 0
  | (_, d) :: q => d + total q

@[simp] theorem total_cons (e : κ × Nat) (q : List (κ × Nat)) : total (e :: q) = e.2 + total q :=
  rfl

theorem keys_dueFrom (t : Nat) (q : List (κ × Nat)) :
    (dueFrom t q).map (·.1) = q.map (·.1) := by
  induction q generalizing t with
  | nil => rfl
  | cons e q ih =>
    rw [dueFrom, List.map_cons, List.map_cons, ih]

theorem dueFrom_append (t : Nat) (q q' : List (κ × Nat)) :
    dueFrom t (q ++ q') = dueFrom t q ++ dueFrom (t + total q) q' := by
  induction q generalizing t with
  | nil => rfl
  | cons e q ih =>
    rw [List.cons_append, dueFrom, ih, dueFrom, List.cons_append, total_cons, Nat.add_assoc]

/-! ## New entries -/

/-- What the timer has run off the first delta is missing. -/
theorem due_push {e : κ × Nat} (k : κ) (h : total (e :: q) ≤ w) :
    due t (e :: q ++ [(k, w - total (e :: q))]) = due t (e :: q) ++ [(k, t + (w - e.2))] := by
  rw [total_cons] at h
  rw [List.cons_append, due, due, dueFrom_append, dueFrom, dueFrom, total_cons, List.cons_append]
  congr 4
  omega

/-! ## Removal -/

def addFirst (d : Nat) : List (κ × Nat) → List (κ × Nat)
  | [] => []
  | (k, d') :: q => (k, d' + d) :: q

theorem dueFrom_addFirst (t d : Nat) (q : List (κ × Nat)) :
    dueFrom t (addFirst d q) = dueFrom (t + d) q := by
  cases q with
  | nil => rfl
  | cons e q => rw [addFirst, dueFrom, dueFrom, Nat.add_comm e.2 d, ← Nat.add_assoc]

/-- The next entry takes over the delta. -/
def remove [DecidableEq κ] (k : κ) : List (κ × Nat) → List (κ × Nat)
  | [] => []
  | (k', d) :: q => if k' = k then addFirst d q else (k', d) :: remove k q

section Remove

variable [DecidableEq κ]

theorem filter_dueFrom (h : k ∉ q.map (·.1)) (t : Nat) :
    (dueFrom t q).filter (·.1 ≠ k) = dueFrom t q := by
  rw [List.filter_eq_self]
  intro e he
  rw [decide_eq_true_eq]
  rintro rfl
  rw [← keys_dueFrom t] at h
  exact h (List.mem_map_of_mem he)

theorem filter_due (h : k ∉ q.map (·.1)) (t : Nat) : (due t q).filter (·.1 ≠ k) = due t q := by
  cases q with
  | nil => rfl
  | cons e q =>
    obtain ⟨hne, hmem⟩ := not_or.1 (mt List.mem_cons.2 h)
    rw [due, List.filter_cons_of_pos (by simpa using Ne.symm hne), filter_dueFrom hmem]

/-- **Removal moves no other entry.** -/
theorem dueFrom_remove (h : (q.map (·.1)).Nodup) (t : Nat) :
    dueFrom t (remove k q) = (dueFrom t q).filter (·.1 ≠ k) := by
  induction q generalizing t with
  | nil => rfl
  | cons e q ih =>
    obtain ⟨k', d⟩ := e
    obtain ⟨hmem, hnd⟩ := List.nodup_cons.1 h
    by_cases hk : k' = k
    · subst hk
      rw [remove, if_pos rfl, dueFrom_addFirst, dueFrom, List.filter_cons_of_neg (by simp),
        filter_dueFrom hmem]
    · rw [remove, if_neg hk, dueFrom, dueFrom, List.filter_cons_of_pos (by simpa using hk), ih hnd]

theorem due_remove_tail {e : κ × Nat} (hk : e.1 ≠ k) (h : (q.map (·.1)).Nodup) (t : Nat) :
    due t (e :: remove k q) = (due t (e :: q)).filter (·.1 ≠ k) := by
  rw [due, due, dueFrom_remove h, List.filter_cons_of_pos (by simpa using hk)]

/-- The first entry is removed, and the timer set to what it has left and the next delta. -/
theorem due_remove_head {e : κ × Nat} (d' : Nat) (hk : k ∉ (e :: q).map (·.1)) (t : Nat) :
    due (t + e.2) ((e.1, d') :: q) = (due t ((k, w) :: e :: q)).filter (·.1 ≠ k) := by
  rw [due, due, List.filter_cons_of_neg (by simp), filter_dueFrom hk, dueFrom]

end Remove

end DeltaQueue
