import Mathlib.Data.Finset.Max
import NaptRouter.Lib.LockTrace
import NaptRouter.Lib.ThreadPool

/-!
# Threads that lock mutexes in order

Threads whose operations are those of `LockTrace`, on one set of mutexes. A lock waits until the
mutex is free. An unlock does not look who has locked it.

Mutexes have ranks. A list of operations is `Ordered` if it releases what it locks, and locks only
mutexes of a higher rank in between. Threads whose calls are ordered do not block one another
(`Safe.exists_turn`), so they can all finish, and leave every mutex free (`Safe.exists_finish`).
-/

namespace LockOrder

open LockTrace Runs ThreadPool

variable {μ τ γ : Type}

/-- One operation of a thread. -/
def lockExec [DecidableEq μ] (held : Held μ) : LockOp μ → Option (Held μ × List (LockOp μ))
  | .lock m => if held m then none else some (Function.update held m true, [])
  | .unlock m => some (Function.update held m false, [])
  | .access _ => some (held, [])

/-- The operations release `m`, and lock only mutexes of a higher rank until then. -/
def Releases (rank : μ → ℕ) (m : μ) : List (LockOp μ) → Prop
  | [] => False
  | .lock m' :: rest => rank m < rank m' ∧ Releases rank m rest
  | .unlock m' :: rest => m' = m ∨ Releases rank m rest
  | .access _ :: rest => Releases rank m rest

/-- Every mutex that is locked is released. -/
def Ordered (rank : μ → ℕ) : List (LockOp μ) → Prop
  | [] => True
  | .lock m :: rest => Releases rank m rest ∧ Ordered rank rest
  | .unlock _ :: rest | .access _ :: rest => Ordered rank rest

variable {rank : μ → ℕ} {held held' : Held μ} {op : LockOp μ} {m : μ}
  {ops ops' more : List (LockOp μ)}

theorem Releases.append (h : Releases rank m ops) (ops' : List (LockOp μ)) :
    Releases rank m (ops ++ ops') := by
  induction ops with
  | nil => exact absurd h id
  | cons op rest ih =>
    cases op with
    | lock m' => exact ⟨h.1, ih h.2⟩
    | unlock m' => exact h.imp id ih
    | access m' => exact ih h

theorem Ordered.append (h : Ordered rank ops) (h' : Ordered rank ops') :
    Ordered rank (ops ++ ops') := by
  induction ops with
  | nil => exact h'
  | cons op rest ih =>
    cases op with
    | lock m' => exact ⟨h.1.append ops', ih h.2⟩
    | unlock m' | access m' => exact ih h

theorem Ordered.tail (h : Ordered rank (op :: ops)) : Ordered rank ops := by
  cases op with
  | lock m => exact h.2
  | unlock m | access m => exact h

/-- What a thread must still release, unless it just has. -/
theorem Releases.tail (h : Releases rank m (op :: ops)) (hop : op ≠ .unlock m) :
    Releases rank m ops := by
  cases op with
  | lock m' => exact h.2
  | unlock m' => exact h.resolve_left fun heq => hop (by rw [heq])
  | access m' => exact h

theorem Releases.map {ν : Type} {rank : ν → ℕ} {f : μ → ν}
    (h : Releases (fun m => rank (f m)) m ops) : Releases rank (f m) (ops.map (LockOp.map f)) := by
  induction ops with
  | nil => exact h
  | cons op rest ih =>
    cases op with
    | lock m' => exact ⟨h.1, ih h.2⟩
    | unlock m' => exact h.imp (congrArg f) ih
    | access m' => exact ih h

theorem Ordered.map {ν : Type} {rank : ν → ℕ} {f : μ → ν}
    (h : Ordered (fun m => rank (f m)) ops) : Ordered rank (ops.map (LockOp.map f)) := by
  induction ops with
  | nil => trivial
  | cons op rest ih =>
    cases op with
    | lock m' => exact ⟨h.1.map, ih h.2⟩
    | unlock m' | access m' => exact ih h

/-! ## What one operation does -/

variable [DecidableEq μ]

theorem lockExec_eq_none : lockExec held op = none ↔ ∃ m, op = .lock m ∧ held m = true := by
  cases op <;> simp [lockExec]

theorem lockExec_more (h : lockExec held op = some (held', more)) : more = [] := by
  cases op with
  | lock m =>
    rw [lockExec] at h
    split_ifs at h
    exact (Prod.mk.inj (Option.some.inj h)).2.symm
  | unlock m | access m => exact (Prod.mk.inj (Option.some.inj h)).2.symm

/-- A mutex that is held after an operation was locked by it, or held before and not released by
it. -/
theorem held_of_lockExec (h : lockExec held op = some (held', more)) (hm : held' m = true) :
    op = .lock m ∨ held m = true ∧ op ≠ .unlock m := by
  cases op with
  | lock m' =>
    rw [lockExec] at h
    split_ifs at h
    obtain ⟨rfl, -⟩ := Prod.mk.inj (Option.some.inj h)
    by_cases hmm' : m = m'
    · exact Or.inl (by rw [hmm'])
    · rw [Function.update_of_ne hmm'] at hm
      exact Or.inr ⟨hm, by simp⟩
  | unlock m' =>
    obtain ⟨rfl, -⟩ := Prod.mk.inj (Option.some.inj h)
    by_cases hmm' : m = m'
    · rw [hmm', Function.update_self] at hm
      cases hm
    · rw [Function.update_of_ne hmm'] at hm
      exact Or.inr ⟨hm, by simpa using Ne.symm hmm'⟩
  | access m' =>
    obtain ⟨rfl, -⟩ := Prod.mk.inj (Option.some.inj h)
    exact Or.inr ⟨hm, by simp⟩

/-! ## Runs -/

variable [DecidableEq τ] {start : γ → List (LockOp μ)} {s : Pool τ (Held μ) (LockOp μ)}
  {tr : List (PoolStep τ (Held μ) (LockOp μ) γ)}

/-- What a thread has still to do is ordered, and some thread releases each mutex that is held. -/
structure Safe (rank : μ → ℕ) (s : Pool τ (Held μ) (LockOp μ)) : Prop where
  ordered : ∀ t, Ordered rank (s.threads t)
  released : ∀ m, s.shared m = true → ∃ t, Releases rank m (s.threads t)

theorem Safe.step (hs : Safe rank s) {i : Move τ γ} {s' : Pool τ (Held μ) (LockOp μ)}
    (hcall : ∀ t c, i = .call t c → Ordered rank (start c))
    (hstep : poolStep lockExec start s i = some s') : Safe rank s' := by
  cases i with
  | call t c =>
    obtain ⟨hidle, rfl⟩ := poolStep_call.1 hstep
    refine ⟨fun u => ?_, fun m hm => ?_⟩
    · simp only [Function.update_apply]
      split_ifs
      · exact hcall t c rfl
      · exact hs.ordered u
    · obtain ⟨u, hu⟩ := hs.released m hm
      have hne : u ≠ t := by
        rintro rfl
        rw [hidle] at hu
        exact hu
      refine ⟨u, ?_⟩
      show Releases rank m (Function.update s.threads t (start c) u)
      rwa [Function.update_of_ne hne]
  | turn t =>
    obtain ⟨op, rest, held', more, hops, hexec, rfl⟩ := poolStep_turn.1 hstep
    obtain rfl := lockExec_more hexec
    have hordered : Ordered rank (op :: rest) := hops ▸ hs.ordered t
    refine ⟨fun u => ?_, fun m hm => ?_⟩
    · simp only [Function.update_apply]
      split_ifs
      · exact hordered.tail
      · exact hs.ordered u
    · rcases held_of_lockExec hexec hm with rfl | ⟨hheld, hop⟩
      · exact ⟨t, by simpa using hordered.1⟩
      · obtain ⟨u, hu⟩ := hs.released m hheld
        -- The holder may be the thread whose turn it is; its program still has the release.
        by_cases hut : u = t
        · rw [hut, hops] at hu
          exact ⟨t, by simpa using hu.tail hop⟩
        · refine ⟨u, ?_⟩
          show Releases rank m (Function.update s.threads t ([] ++ rest) u)
          rwa [Function.update_of_ne hut]

/-- A call of the run, by some thread. -/
def Calls (c : γ) (tr : List (PoolStep τ (Held μ) (LockOp μ) γ)) : Prop :=
  ∃ u ∈ tr, ∃ t, u.input = .call t c

omit [DecidableEq μ] [DecidableEq τ] in
theorem Calls.append_right {c : γ} (h : Calls c tr)
    (tr' : List (PoolStep τ (Held μ) (LockOp μ) γ)) : Calls c (tr ++ tr') := by
  obtain ⟨u, hu, hcall⟩ := h
  exact ⟨u, List.mem_append_left _ hu, hcall⟩

omit [DecidableEq μ] [DecidableEq τ] in
theorem calls_snoc (tr : List (PoolStep τ (Held μ) (LockOp μ) γ))
    (s s' : Pool τ (Held μ) (LockOp μ)) (t : τ) (c : γ) : Calls c (tr ++ [⟨s, .call t c, s'⟩]) :=
  ⟨_, List.mem_append_right _ List.mem_cons_self, t, rfl⟩

theorem Safe.run {s₀ : Pool τ (Held μ) (LockOp μ)} (h₀ : Safe rank s₀)
    (h : Run (poolStep lockExec start) s₀ tr s)
    (hcalls : ∀ c, Calls c tr → Ordered rank (start c)) : Safe rank s := by
  induction h with
  | nil => exact h₀
  | @snoc tr s s' i _ hstep ih =>
    refine Safe.step (ih fun c hc => hcalls c (hc.append_right _)) (fun t c hi => ?_) hstep
    subst hi
    exact hcalls c (calls_snoc ..)

omit [DecidableEq μ] [DecidableEq τ] in
theorem safe_idle : Safe rank (idle Held.free : Pool τ (Held μ) (LockOp μ)) :=
  ⟨fun _ => trivial, fun _ hm => by cases hm⟩

/-- **Some thread can go on**, if one has something to do. A thread that waits does so for one
that has locked a mutex of a higher rank, or that can go on. -/
theorem Safe.exists_turn [Fintype μ] (start : γ → List (LockOp μ)) (hs : Safe rank s) {t : τ}
    (ht : s.threads t ≠ []) :
    ∃ u s', poolStep lockExec start s (.turn u) = some s' := by
  by_contra hstuck
  rw [not_exists] at hstuck
  have hblocked : ∀ u op rest, s.threads u = op :: rest →
      ∃ m, op = .lock m ∧ s.shared m = true := by
    intro u op rest hops
    rw [← lockExec_eq_none]
    cases hexec : lockExec s.shared op with
    | none => rfl
    | some p => exact absurd ⟨_, poolStep_turn.2 ⟨op, rest, p.1, p.2, hops, hexec, rfl⟩⟩ (hstuck u)
  obtain ⟨op, rest, hops⟩ := List.exists_cons_of_ne_nil ht
  obtain ⟨m₀, -, hm₀⟩ := hblocked t op rest hops
  obtain ⟨m, hm, hmax⟩ := Finset.exists_max_image (Finset.univ.filter fun m => s.shared m = true)
    rank ⟨m₀, by simpa using hm₀⟩
  obtain ⟨u, hu⟩ := hs.released m (by simpa using hm)
  cases hops' : s.threads u with
  | nil =>
    rw [hops'] at hu
    exact hu
  | cons op' rest' =>
    obtain ⟨m', rfl, hm'⟩ := hblocked u op' rest' hops'
    rw [hops'] at hu
    exact absurd (hmax m' (by simpa using hm')) (not_le.2 hu.1)

omit [DecidableEq μ] [DecidableEq τ] in
theorem Safe.eq_idle (hs : Safe rank s) (h : ∀ t, s.threads t = []) : s = idle Held.free := by
  obtain ⟨held, threads⟩ := s
  obtain rfl : threads = fun _ => [] := funext h
  have hfree : held = Held.free := by
    funext m
    rw [Held.free, Bool.eq_false_iff]
    intro hm
    obtain ⟨t, ht⟩ := hs.released m hm
    exact ht
  rw [hfree, idle]

theorem turn_lt [Fintype τ] {s' : Pool τ (Held μ) (LockOp μ)} {t : τ}
    (h : poolStep lockExec start s (.turn t) = some s') :
    inHand (fun _ => 1) s' < inHand (fun _ => 1) s := by
  obtain ⟨op, rest, held', more, hops, hexec, rfl⟩ := poolStep_turn.1 h
  obtain rfl := lockExec_more hexec
  have hupdate := inHand_update (fun _ => 1) s held' t ([] ++ rest)
  rw [hops, List.nil_append, List.map_cons, List.sum_cons] at hupdate
  rw [List.nil_append]
  omega

/-- **All threads can finish** what they have begun, and every mutex is free then. -/
theorem Safe.exists_finish [Fintype μ] [Fintype τ] (start : γ → List (LockOp μ))
    {s : Pool τ (Held μ) (LockOp μ)} (hs : Safe rank s) :
    ∃ tr, Run (poolStep lockExec start) s tr (idle Held.free) ∧
      ∀ u ∈ tr, ∃ t, u.input = .turn t := by
  by_cases hidle : ∀ t, s.threads t = []
  · refine ⟨[], ?_, fun u hu => by cases hu⟩
    rw [hs.eq_idle hidle]
    exact .nil
  · obtain ⟨t, ht⟩ := not_forall.1 hidle
    obtain ⟨u, s', hturn⟩ := hs.exists_turn start ht
    have hstep : Run (poolStep lockExec start) s [⟨s, .turn u, s'⟩] s' := Run.nil.snoc hturn
    have hlt := turn_lt hturn
    have hs' : Safe rank s' := hs.step (fun t c hi => by cases hi) hturn
    obtain ⟨tr, hrun, hturns⟩ := hs'.exists_finish start
    refine ⟨_, hstep.append hrun, fun v hv => ?_⟩
    rcases List.mem_cons.1 hv with rfl | hv
    · exact ⟨u, rfl⟩
    · exact hturns v hv
  termination_by inHand (fun _ => 1) s

/-! ## A mutex that nobody releases -/

/-- The first operation on `m` is a lock. -/
def Begins (m : μ) : List (LockOp μ) → Prop
  | [] => True
  | .lock m' :: rest => m' = m ∨ Begins m rest
  | .unlock m' :: rest | .access m' :: rest => m' ≠ m ∧ Begins m rest

omit [DecidableEq μ] in
theorem Begins.append {m : μ} {ops ops' : List (LockOp μ)} (h : Begins m ops)
    (h' : Begins m ops') : Begins m (ops ++ ops') := by
  induction ops with
  | nil => exact h'
  | cons op rest ih =>
    cases op with
    | lock m' => exact h.imp id ih
    | unlock m' | access m' => exact ⟨h.1, ih h.2⟩

/-- While `m` is locked, such a thread does not lock it, and does not release it. -/
theorem Begins.turn {m : μ} {rest : List (LockOp μ)} (h : Begins m (op :: rest))
    (hm : held m = true) (hexec : lockExec held op = some (held', more)) :
    op ≠ .lock m ∧ Begins m rest ∧ held' m = true := by
  cases op with
  | lock m' =>
    rw [lockExec] at hexec
    split_ifs at hexec with hheld
    have hne : m' ≠ m := by
      rintro rfl
      exact hheld hm
    obtain ⟨rfl, -⟩ := Prod.mk.inj (Option.some.inj hexec)
    rw [Function.update_of_ne (Ne.symm hne)]
    exact ⟨by simpa using hne, h.resolve_left hne, hm⟩
  | unlock m' =>
    obtain ⟨rfl, -⟩ := Prod.mk.inj (Option.some.inj hexec)
    rw [Function.update_of_ne (Ne.symm h.1)]
    exact ⟨by simp, h.2, hm⟩
  | access m' =>
    obtain ⟨rfl, -⟩ := Prod.mk.inj (Option.some.inj hexec)
    exact ⟨by simp, h.2, hm⟩

/-- `m` is locked, and no thread releases it before it has locked it. -/
structure Jammed (m : μ) (s : Pool τ (Held μ) (LockOp μ)) : Prop where
  held : s.shared m = true
  begins : ∀ t, Begins m (s.threads t)

theorem Jammed.step {m : μ} (hs : Jammed m s) (hstart : ∀ c, Begins m (start c)) {i : Move τ γ}
    {s' : Pool τ (Held μ) (LockOp μ)} (hstep : poolStep lockExec start s i = some s') :
    Jammed m s' ∧ ∀ t, LockOp.lock m ∈ s.threads t → LockOp.lock m ∈ s'.threads t := by
  cases i with
  | call t c =>
    obtain ⟨hidle, rfl⟩ := poolStep_call.1 hstep
    refine ⟨⟨hs.held, fun u => ?_⟩, fun u hu => ?_⟩
    · simp only [Function.update_apply]
      split_ifs
      · exact hstart c
      · exact hs.begins u
    · have hne : u ≠ t := by
        rintro rfl
        rw [hidle] at hu
        cases hu
      show _ ∈ Function.update s.threads t (start c) u
      rwa [Function.update_of_ne hne]
  | turn t =>
    obtain ⟨op, rest, held', more, hops, hexec, rfl⟩ := poolStep_turn.1 hstep
    obtain rfl := lockExec_more hexec
    have hbegins : Begins m (op :: rest) := hops ▸ hs.begins t
    obtain ⟨hlock, hrest, hheld⟩ := hbegins.turn hs.held hexec
    refine ⟨⟨hheld, fun u => ?_⟩, fun u hu => ?_⟩
    · simp only [Function.update_apply]
      split_ifs
      · exact hrest
      · exact hs.begins u
    · simp only [Function.update_apply]
      split_ifs with hut
      · rw [hut, hops] at hu
        exact (List.mem_cons.1 hu).resolve_left (Ne.symm hlock)
      · exact hu

/-- **The mutex stays locked**, and a thread that must lock it does not get that far. -/
theorem Jammed.run {m : μ} {s₀ : Pool τ (Held μ) (LockOp μ)} (h₀ : Jammed m s₀)
    (hstart : ∀ c, Begins m (start c)) (h : Run (poolStep lockExec start) s₀ tr s) :
    Jammed m s ∧ ∀ u ∈ tr, ∀ t c, u.input = .call t c → LockOp.lock m ∈ start c →
      LockOp.lock m ∈ s.threads t := by
  induction h with
  | nil => exact ⟨h₀, fun u hu => by cases hu⟩
  | @snoc tr s s' i _ hstep ih =>
    obtain ⟨hjam, hkeep⟩ := ih.1.step hstart hstep
    refine ⟨hjam, fun u hu t c hcall hlock => ?_⟩
    rcases List.mem_append.1 hu with hold | hnew
    · exact hkeep t (ih.2 u hold t c hcall hlock)
    · obtain rfl := List.mem_singleton.1 hnew
      obtain rfl : i = .call t c := hcall
      obtain ⟨-, rfl⟩ := poolStep_call.1 hstep
      simpa using hlock

end LockOrder
