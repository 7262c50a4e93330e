import Mathlib.Data.List.Basic
import Mathlib.Logic.Function.Basic

/-!
# Arrays that grow

A C array on the heap is a block of cells with room for some of them, of which the first ones are
in use. `resize` is `realloc`: the cells are kept as far as both sizes go, and behind them there
may be anything. The array is a list (`contents`) as long as no more cells are used than there is
room for: a larger block has the same contents (`contents_resize`), and a cell behind the last one
used is one more element (`contents_push`).

An array of entries that are overwritten or appended by their keys is a map in which the last
writer wins: `lookup_foldl_isSome` and `lookup_foldl_last` say so for any `look` and `upd`.
-/

structure GrowArray (α : Type*) where
  cells : Nat → α
  room : Nat
  used : Nat

namespace GrowArray

variable {α : Type*}

/-- No block, and nothing in it. -/
def empty (cells : Nat → α) : GrowArray α := ⟨cells, 0, 0⟩

/-- The cells in use. -/
def contents (a : GrowArray α) : List α := (List.range a.used).map a.cells

/-- Another block with the old cells in it; `fresh` is what else it holds. -/
def resize (a : GrowArray α) (fresh : Nat → α) (room : Nat) : GrowArray α where
  cells := fun i => if i < min a.room room then a.cells i else fresh i
  room := room
  used := a.used

/-- Overwrite a cell. -/
def set (a : GrowArray α) (i : Nat) (x : α) : GrowArray α :=
  { a with cells := Function.update a.cells i x }

/-- Use one more cell. -/
def push (a : GrowArray α) (x : α) : GrowArray α :=
  { a with cells := Function.update a.cells a.used x, used := a.used + 1 }

section Fields

variable (a : GrowArray α) (fresh : Nat → α) (room i : Nat) (x : α)

@[simp] theorem resize_room : (a.resize fresh room).room = room := rfl

@[simp] theorem resize_used : (a.resize fresh room).used = a.used := rfl

@[simp] theorem set_room : (a.set i x).room = a.room := rfl

@[simp] theorem set_used : (a.set i x).used = a.used := rfl

@[simp] theorem push_room : (a.push x).room = a.room := rfl

@[simp] theorem push_used : (a.push x).used = a.used + 1 := rfl

@[simp] theorem contents_empty (cells : Nat → α) : (empty cells).contents = [] := rfl

@[simp] theorem length_contents : a.contents.length = a.used := by
  rw [contents, List.length_map, List.length_range]

end Fields

variable {a : GrowArray α} {i : Nat}

theorem getElem?_contents (hi : i < a.used) : a.contents[i]? = some (a.cells i) := by
  simp [contents, hi]

theorem resize_cells {fresh : Nat → α} {room : Nat} (h : i < a.room) (h' : i < room) :
    (a.resize fresh room).cells i = a.cells i :=
  if_pos (Nat.lt_min.2 ⟨h, h'⟩)

/-- Growing loses nothing. -/
theorem contents_resize {fresh : Nat → α} {room : Nat} (h : a.used ≤ a.room) (h' : a.used ≤ room) :
    (a.resize fresh room).contents = a.contents := by
  apply List.map_congr_left
  intro i hi
  have hlt : i < a.used := List.mem_range.1 hi
  exact resize_cells (Nat.lt_of_lt_of_le hlt h) (Nat.lt_of_lt_of_le hlt h')

theorem contents_push (a : GrowArray α) (x : α) : (a.push x).contents = a.contents ++ [x] := by
  have hkept : ∀ i ∈ List.range a.used, Function.update a.cells a.used x i = a.cells i :=
    fun i hi => Function.update_of_ne (Nat.ne_of_lt (List.mem_range.1 hi)) x a.cells
  rw [contents, contents, push_used, List.range_succ, List.map_append]
  simp only [push, List.map_congr_left hkept, List.map_cons, List.map_nil, Function.update_self]

theorem contents_set (a : GrowArray α) (i : Nat) (x : α) :
    (a.set i x).contents = a.contents.set i x := by
  apply List.ext_getElem?
  intro j
  rw [List.getElem?_set]
  rcases Nat.lt_or_ge j a.used with hj | hj
  · rw [getElem?_contents (a := a.set i x) hj, getElem?_contents hj, length_contents]
    by_cases hij : i = j
    · subst hij
      simp [set, hj]
    · simp [set, hij, Function.update_of_ne (Ne.symm hij)]
  · have hnone : a.contents[j]? = none := by simpa using hj
    have hnone' : (a.set i x).contents[j]? = none := by simpa using hj
    rw [hnone, hnone', length_contents]
    split_ifs with hij hi
    · omega
    · rfl
    · rfl

/-! ## The last writer wins -/

section LastWriter

variable {σ κ β : Type*} [DecidableEq κ] {look : σ → κ → Option β} {upd : σ → α → σ}
  {key : α → κ} {val : α → β} {k : κ}
  (h : ∀ m a k, look (upd m a) k = if k = key a then some (val a) else look m k)

include h

theorem lookup_foldl_of_ne {l : List α} (m : σ) (hl : ∀ a ∈ l, key a ≠ k) :
    look (l.foldl upd m) k = look m k := by
  induction l generalizing m with
  | nil => rfl
  | cons a l ih =>
    obtain ⟨ha, hl⟩ := List.forall_mem_cons.1 hl
    rw [List.foldl_cons, ih (upd m a) hl, h, if_neg (Ne.symm ha)]

/-- The last write under a key is what is found. -/
theorem lookup_foldl_last (before : List α) {after : List α} {a : α} (m : σ)
    (hafter : ∀ b ∈ after, key b ≠ key a) :
    look ((before ++ a :: after).foldl upd m) (key a) = some (val a) := by
  rw [List.foldl_append, List.foldl_cons, lookup_foldl_of_ne h _ hafter, h, if_pos rfl]

/-- Something is found under the keys that were there or have been written. -/
theorem lookup_foldl_isSome (l : List α) (m : σ) :
    (look (l.foldl upd m) k).isSome ↔ (look m k).isSome ∨ ∃ a ∈ l, key a = k := by
  induction l generalizing m with
  | nil => simp
  | cons a l ih =>
    rw [List.foldl_cons, ih, h, List.exists_mem_cons_iff, ← or_assoc]
    apply or_congr_left
    split_ifs with hk
    · exact iff_of_true rfl (Or.inr hk.symm)
    · exact (or_iff_left (Ne.symm hk)).symm

end LastWriter

end GrowArray
