import Mathlib.Data.List.Nodup

/-!
# Queues by key, and the log of what moved

A family of queues, one for each key, is changed by the events of a log: an event may put a
value at the back of one queue or take the value at the front of one. `Flow` is what the log
says about the queues before and after; it composes along the log, so a system is verified one
operation at a time.

From empty queues, what has been taken from a queue is a beginning of what has been put there
(`Flow.takes_isPrefix`), and with distinct names every value put is taken or still there, once
(`Flow.once`).
-/

namespace KeyedFifo

variable {κ α ε : Type*} [DecidableEq κ]

/-- The values that the events of a log move at the key `k`, in order. -/
def entries (f : ε → Option (κ × α)) (k : κ) (log : List ε) : List α :=
  ((log.filterMap f).filter (·.1 = k)).map (·.2)

/-- The events of `log` lead from the queues `q` to the queues `q'`: `put` and `take` give the
queue and the value of an event. -/
def Flow (put take : ε → Option (κ × α)) (log : List ε) (q q' : κ → List α) : Prop :=
  ∀ k, q k ++ entries put k log = entries take k log ++ q' k

variable {f put take : ε → Option (κ × α)} {log es : List ε} {q q' q'' : κ → List α}
  {k : κ} {a : α}

theorem mem_entries : a ∈ entries f k log ↔ (k, a) ∈ log.filterMap f := by
  simp only [entries, List.mem_map, List.mem_filter, decide_eq_true_eq]
  constructor
  · intro ⟨p, ⟨hp, hk⟩, ha⟩
    rwa [← hk, ← ha]
  · intro h
    exact ⟨(k, a), ⟨h, rfl⟩, rfl⟩

theorem entries_append (f : ε → Option (κ × α)) (k : κ) (log es : List ε) :
    entries f k (log ++ es) = entries f k log ++ entries f k es := by
  simp [entries]

theorem entries_of_none (h : ∀ e ∈ log, f e = none) : entries f k log = [] := by
  have hnil : log.filterMap f = [] := List.filterMap_eq_nil_iff.2 h
  rw [entries, hnil, List.filter_nil, List.map_nil]

/-- All values move at one key. -/
theorem entries_of_one_key {vs : List α} (h : log.filterMap f = vs.map fun a => (k, a)) (k' : κ) :
    entries f k' log = if k' = k then vs else [] := by
  rw [entries, h, List.filter_map, List.map_map]
  by_cases hk : k' = k
  · simp [hk, Function.comp_def]
  · simp [hk, Ne.symm hk, Function.comp_def]

theorem entries_sublist {g : ε → Option (κ × α)} (h : ∀ e p, f e = some p → g e = some p) (k : κ)
    (log : List ε) : (entries f k log).Sublist (entries g k log) := by
  have hsub : (log.filterMap f).Sublist (log.filterMap g) := by
    induction log with
    | nil => exact List.Sublist.refl []
    | cons e rest ih =>
      cases hf : f e with
      | none =>
        rw [List.filterMap_cons_none hf]
        exact ih.trans ((List.sublist_cons_self e rest).filterMap g)
      | some p =>
        rw [List.filterMap_cons_some hf, List.filterMap_cons_some (h e p hf)]
        exact ih.cons_cons p
  exact (hsub.filter _).map _

/-! ## Composition -/

theorem Flow.trans (h : Flow put take log q q') (h' : Flow put take es q' q'') :
    Flow put take (log ++ es) q q'' := by
  intro k
  rw [entries_append, entries_append, ← List.append_assoc, h k, List.append_assoc, h' k,
    List.append_assoc]

theorem Flow.idle (hput : ∀ e ∈ log, put e = none) (htake : ∀ e ∈ log, take e = none)
    (hq : ∀ k, q' k = q k) : Flow put take log q q' := by
  intro k
  rw [entries_of_none hput, entries_of_none htake, hq, List.append_nil, List.nil_append]

theorem Flow.enter {vs : List α} (hput : log.filterMap put = vs.map fun a => (k, a))
    (htake : ∀ e ∈ log, take e = none) (hself : q' k = q k ++ vs)
    (hother : ∀ k', k' ≠ k → q' k' = q k') : Flow put take log q q' := by
  intro k'
  rw [entries_of_none htake, List.nil_append, entries_of_one_key hput]
  by_cases hk : k' = k
  · rw [if_pos hk, hk, hself]
  · rw [if_neg hk, List.append_nil, hother k' hk]

theorem Flow.leave {vs : List α} (hput : ∀ e ∈ log, put e = none)
    (htake : log.filterMap take = vs.map fun a => (k, a)) (hself : q k = vs ++ q' k)
    (hother : ∀ k', k' ≠ k → q' k' = q k') : Flow put take log q q' := by
  intro k'
  rw [entries_of_none hput, List.append_nil, entries_of_one_key htake]
  by_cases hk : k' = k
  · rw [if_pos hk, hk, hself]
  · rw [if_neg hk, List.nil_append, hother k' hk]

/-! ## Where a value is -/

theorem Flow.mem_after (h : Flow put take log q q') (ha : a ∈ q' k) :
    a ∈ q k ∨ (k, a) ∈ log.filterMap put := by
  have hmem : a ∈ q k ++ entries put k log := h k ▸ List.mem_append_right _ ha
  rcases List.mem_append.1 hmem with hq | hput
  · exact Or.inl hq
  · exact Or.inr (mem_entries.1 hput)

/-- What is taken was there before or has been put there. -/
theorem Flow.mem_taken (h : Flow put take log q q') (ha : (k, a) ∈ log.filterMap take) :
    a ∈ q k ∨ (k, a) ∈ log.filterMap put := by
  have hmem : a ∈ q k ++ entries put k log := h k ▸ List.mem_append_left _ (mem_entries.2 ha)
  rcases List.mem_append.1 hmem with hq | hput
  · exact Or.inl hq
  · exact Or.inr (mem_entries.1 hput)

/-- **First in, first out**: what has been taken is a beginning of what has been put. -/
theorem Flow.takes_isPrefix (h : Flow put take log (fun _ => []) q') (k : κ) :
    entries take k log <+: entries put k log :=
  ⟨q' k, (h k).symm⟩

/-! ## Every value once -/

section Names

variable {ι : Type*} {name : α → ι}

/-- A name that is put is put at one key only, so it is found nowhere else. -/
theorem Flow.key_unique (name : α → ι) (h : Flow put take log (fun _ => []) q')
    (hnd : ((log.filterMap put).map (name ·.2)).Nodup) (ha : (k, a) ∈ log.filterMap put)
    {k' : κ} {b : α} (hb : (k', b) ∈ log.filterMap take ∨ b ∈ q' k') (hname : name b = name a) :
    k' = k ∧ b = a := by
  have hput : (k', b) ∈ log.filterMap put := by
    rw [← mem_entries]
    have hmem : b ∈ entries take k' log ++ q' k' :=
      List.mem_append.2 (hb.imp mem_entries.2 id)
    rwa [← h k', List.nil_append] at hmem
  have heq : (k', b) = (k, a) := List.inj_on_of_nodup_map hnd hput ha hname
  exact ⟨congrArg Prod.fst heq, congrArg Prod.snd heq⟩

variable [DecidableEq ι]

/-- All values of a name are counted at its key. -/
theorem countP_entries {i : ι} (h : ∀ p ∈ log.filterMap f, name p.2 = i → p.1 = k) :
    (entries f k log).countP (name · = i) = (log.filterMap f).countP (name ·.2 = i) := by
  rw [entries, List.countP_map, List.countP_filter]
  apply List.countP_congr
  intro p hp
  simp only [Function.comp_apply, Bool.and_eq_true, decide_eq_true_eq]
  exact ⟨And.left, fun hname => ⟨hname, h p hp hname⟩⟩

/-- **Conservation**: with distinct names, every value put has been taken or is still in its
queue, and this once. -/
theorem Flow.once (name : α → ι) (h : Flow put take log (fun _ => []) q')
    (hnd : ((log.filterMap put).map (name ·.2)).Nodup) (ha : (k, a) ∈ log.filterMap put) :
    (log.filterMap take).countP (name ·.2 = name a) + (q' k).countP (name · = name a) = 1 := by
  have hputs : (entries put k log).countP (name · = name a) = 1 := by
    rw [countP_entries fun p hp hname =>
      congrArg Prod.fst (List.inj_on_of_nodup_map hnd hp ha hname)]
    have hone := List.count_eq_one_of_mem hnd (List.mem_map_of_mem ha)
    rwa [List.count, List.countP_map] at hone
  have htakes : (entries take k log).countP (name · = name a) =
      (log.filterMap take).countP (name ·.2 = name a) :=
    countP_entries fun p hp hname => (h.key_unique name hnd ha (Or.inl hp) hname).1
  have hflow : entries put k log = entries take k log ++ q' k := h k
  rw [← htakes, ← List.countP_append, ← hflow, hputs]

end Names

end KeyedFifo
