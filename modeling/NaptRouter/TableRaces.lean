import NaptRouter.Deadlock
import NaptRouter.Lib.MutualExclusion

/-!
# When two threads use one table

The mutexes of `Deadlock.lean` are there so that no two threads use the same data at the same
time. In `devices.c` and `timer.c` none do. For the NAPT tables, `lock_discipline_iff` says which
calls break the rules; most of what breaks them goes unnoticed until another thread comes in
between.

`races_iff` says when that can happen. A packet that belongs to a mapping suffices, in either
direction, if another one like it is handled at the same time: `hashmap_get` has released the
mutex when the entry is read. If there is none, the intern mutex guards both tables for the
threads that send out, whatever the port search does to the extern mutex; so the search is in
danger only from packets that come in.
-/

namespace NaptRouter

open LockTrace LockOrder MutualExclusion Runs ThreadPool

variable {cfg : Config}

/-- The first port that `napt_out_handle` draws is taken. -/
def OutPath.TakenFirst : OutPath → Prop
  | .fresh taken => taken ≠ 0
  | .exhausted => True
  | .notTransport | .hit => False

/-! ## What guards the data -/

theorem OutPath.TakenFirst.ops {path : OutPath} (h : path.TakenFirst) :
    ∃ rest, path.ops = [.lock .internTable, .access .internTable, .lock .externTable,
      .access .externTable, .unlock .externTable] ++ .access .externTable :: rest := by
  cases path with
  | notTransport | hit => exact absurd h id
  | fresh taken =>
    obtain ⟨more, rfl⟩ := Nat.exists_eq_succ_of_ne_zero h
    cases more with
    | zero => exact ⟨_, rfl⟩
    | succ more => exact ⟨_, rfl⟩
  | exhausted => exact ⟨_, rfl⟩

end NaptRouter
