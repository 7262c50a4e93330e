import NaptRouter.TableRemoval

/-!
# Insertions and removals without end

A run is a sequence of insertions of absent keys and of removals. Growth counts taken slots only,
so tombstones can use up the empty slots at which searches stop.

* `tableOk_reached` — what holds in every state whatever `hashmap_remove` buries: sizes, tags and
  the count of taken slots, but not that keys can be found.
* `searches_return_iff` — all searches return in all states of a run exactly when no insertion
  takes the last empty slot and no removal sweeps past slot 0.
-/

namespace NaptRouter

open ByteMemory LinearProbing Hashmap Runs

/-! ## Runs -/

/-- One call. -/
inductive TableOp
  | insert (key value : List UInt8)
  | remove (key : List UInt8)

/-- An insertion is of a key for which `hashmap_get` returns `NULL`. `none`: not such a call, or
it does not return. -/
def tableStep (h : Hashmap) : TableOp → Option Hashmap
  | .insert key value =>
      if key.length = h.sizeKey ∧ value.length = h.sizeValue ∧
          (hashmapGet h key).map Prod.fst = some none then
        hashmapInsert h key value
      else none
  | .remove key =>
      if key.length = h.sizeKey then (hashmapRemove h key).map Prod.fst else none

/-- The call puts its entry into the only empty slot: the table does not grow, and all slots
from the key's home to that slot are taken. -/
def TakesLastEmpty (h : Hashmap) : TableOp → Prop
  | .insert key _ =>
      ¬ h.Full ∧ ∃ j < h.sizeAllocated,
        tagGet h.data ((h.hashFunc key % h.sizeAllocated + j) % h.sizeAllocated) = tagEmpty ∧
        (∀ j' < j,
          tagGet h.data ((h.hashFunc key % h.sizeAllocated + j') % h.sizeAllocated) = tagTaken) ∧
        ∀ i < h.sizeAllocated, tagGet h.data i = tagEmpty →
          i = (h.hashFunc key % h.sizeAllocated + j) % h.sizeAllocated
  | .remove _ => False

/-- The removal of `k` would sweep past slot 0. -/
def Hashmap.RunsOff (h : Hashmap) (k : List UInt8) : Prop :=
  ∃ s, h.RemoveHits k s ∧ h.SweepsOut s

/-- There is an empty slot, and every search returns. -/
structure SearchesReturn (h : Hashmap) : Prop where
  empty : h.HasEmpty
  get : ∀ k, k.length = h.sizeKey → ∃ out, hashmapGet h k = some out
  contains : ∀ k, k.length = h.sizeKey → ∃ out, hashmapContains h k = some out
  remove : ∀ k, k.length = h.sizeKey → ∃ out, hashmapRemove h k = some out

/-! ## What every call keeps -/

/-- What holds of a table however its keys are buried. -/
structure TableOk (h : Hashmap) : Prop where
  pos : 0 < h.sizeAllocated
  tags : h.TagsOk
  size_eq : h.size = h.table.count
  shape : h.sizeAllocated % 4 = 3
  load : h.size ≤ h.sizeAllocated / 2

theorem TableOk.count_lt {h : Hashmap} (hok : TableOk h) : h.table.count < h.sizeAllocated := by
  have := hok.shape
  have := hok.load
  rw [← hok.size_eq]
  omega

theorem Hashmap.Sound.tableOk {h : Hashmap} (hS : h.Sound) : TableOk h :=
  ⟨hS.pos, hS.tags, hS.size_eq, hS.shape, hS.load⟩

theorem Hashmap.Sound.hasEmpty {h : Hashmap} (hS : h.Sound) : h.HasEmpty := by
  obtain ⟨q, hq, hslot⟩ := hS.exists_empty
  exact ⟨q, hq, (slot_empty_iff hq).1 hslot⟩

/-- A lookup that returns `NULL` has met an empty slot. -/
theorem hasEmpty_of_misses {h : Hashmap} (hn : 0 < h.sizeAllocated) {k : List UInt8}
    (hk : k.length = h.sizeKey) (hmiss : h.Misses k) : h.HasEmpty := by
  obtain ⟨h', hget⟩ := hmiss
  rw [hashmapGet_eq hn hk] at hget
  obtain ⟨r, hr, heq⟩ := Option.map_eq_some_iff.1 hget
  split_ifs at heq with htag
  · exact ⟨r, (Table.find_spec (T := h.table) hn hr).1, htag⟩
  · cases heq

theorem hashmapInsert_full {h : Hashmap} (hok : TableOk h) (hfull : h.Full) {k v : List UInt8}
    (hk : k.length = h.sizeKey) (hv : v.length = h.sizeValue) :
    ∃ h', hashmapInsert h k v = some h' ∧ h'.Sound ∧ h'.sizeKey = h.sizeKey ∧
      h'.sizeValue = h.sizeValue := by
  obtain ⟨h₁, hgrow, hR⟩ := hashmapGrow_regrown h 0
  have hshape := hok.shape
  have hn := hR.sizeAllocated
  have hsize := hR.size_le
  obtain ⟨p, -, hloop, hS, -⟩ := insertLoop_sound (k := k) (v := v) hR.wf hR.noGrave (by omega)
    (by omega) (hk.trans hR.sizeKey.symm) (hv.trans hR.sizeValue.symm)
  refine ⟨_, ?_, hS, hR.sizeKey, hR.sizeValue⟩
  rw [hashmapInsert, hashmapInsertDepth_of_full hfull hgrow, Src.read_ext h.data hk, ← hloop,
    hR.hashFunc]

theorem hashmapInsert_fills {h : Hashmap} (hok : TableOk h) (hfull : ¬ h.Full)
    {k v : List UInt8} (hk : k.length = h.sizeKey) (hv : v.length = h.sizeValue) :
    ∃ p, h.table.insertAt k = some p ∧
      hashmapInsert h k v = some (fillSlot h (.ext k) (.ext v) p) ∧
      TableOk (fillSlot h (.ext k) (.ext v) p) := by
  obtain ⟨p, hp, hloop⟩ := insertLoop_spec (.ext k) (.ext v) hok.pos hok.tags hok.count_lt
  have hkb : Src.keyBytes (.ext k) h = k := Src.read_ext _ hk
  have hvb : Src.valueBytes (.ext k) (.ext v) h p = v := Src.read_ext _ hv
  rw [hkb] at hp
  obtain ⟨hpn, hfree, -⟩ := Table.insertAt_spec (T := h.table) hok.pos hp
  have hroom : h.size < h.sizeAllocated / 2 := Nat.not_le.1 hfull
  refine ⟨p, hp, ?_, hok.pos, fun i hi => ?_, ?_, hok.shape, hroom⟩
  · rw [hashmapInsert, hashmapInsertDepth_of_not_full hfull, hloop]
  · rw [tagGet_fillSlot (h := h) hi]
    split_ifs
    · exact Or.inr (Or.inl rfl)
    · exact hok.tags i hi
  · rw [table_fillSlot hpn (by rw [hkb, hk]) (by rw [hvb, hv]), Table.count_put hpn hfree,
      ← hok.size_eq]
    rfl

theorem GivenUp.tableOk {h h' : Hashmap} {s : Nat} (hG : GivenUp h s h') (hok : TableOk h) :
    TableOk h' := by
  have hsize := hG.size
  have hn := hG.sizeAllocated
  have hcount := hG.count
  have heq := hok.size_eq
  have hload := hok.load
  refine ⟨hn ▸ hok.pos, hG.tags hok.tags, by omega, hn ▸ hok.shape, ?_⟩
  rw [hn]
  omega

/-- Where a removal returns, it has buried at most one entry. -/
theorem hashmapRemove_cases {h : Hashmap} (hn : 0 < h.sizeAllocated) {k : List UInt8}
    (hk : k.length = h.sizeKey) {h' : Hashmap} {touched : List Nat}
    (hrem : hashmapRemove h k = some (h', touched)) : h' = h ∨ ∃ s, GivenUp h s h' := by
  by_cases hhits : ∃ s, h.RemoveHits k s
  · obtain ⟨s, hhit⟩ := hhits
    exact Or.inr ⟨s, (hashmapRemove_hit hn hk hhit hrem).1⟩
  · rw [not_exists] at hhits
    have hstart : h.hashFunc k % h.sizeAllocated < h.sizeAllocated := Nat.mod_lt _ hn
    have htake : k.take h.sizeKey = k := by rw [← hk, List.take_length]
    obtain ⟨probed, -, heq⟩ := removeLoop_eq hk h.sizeAllocated hstart
    cases hscan : scan h.sizeAllocated (h.removeStops k) h.sizeAllocated
        (h.hashFunc k % h.sizeAllocated) with
    | none =>
      rw [hscan, Option.map_none] at heq
      simp [hashmapRemove, htake, heq] at hrem
    | some r =>
      -- The loop has stopped, and not at a slot that looks like the key.
      obtain ⟨j, hj, rfl, hstop, hbefore⟩ := (scan_eq_some_iff hstart).1 hscan
      have hempty := (of_decide_eq_true hstop).resolve_right fun hlooks =>
        hhits _ ⟨j, hj, rfl, hlooks, fun j' hj' => not_or.1 (of_decide_eq_false (hbefore j' hj'))⟩
      obtain ⟨touched', hrem', -⟩ :=
        hashmapRemove_no_hit hn hk ⟨_, Nat.mod_lt _ hn, hempty⟩ hhits
      rw [hrem', Option.some.injEq, Prod.mk.injEq] at hrem
      exact Or.inl hrem.1.symm

theorem tableStep_cases {h h' : Hashmap} (hok : TableOk h) {op : TableOp}
    (hstep : tableStep h op = some h') :
    (∃ k v, op = .insert k v ∧ h.HasEmpty ∧ h.Full ∧ h'.Sound) ∨
    (∃ k v p, op = .insert k v ∧ h.HasEmpty ∧ ¬ h.Full ∧ h.table.insertAt k = some p ∧
      h' = fillSlot h (.ext k) (.ext v) p ∧ TableOk h') ∨
    ∃ k, op = .remove k ∧ (h' = h ∨ ∃ s, GivenUp h s h') := by
  cases op with
  | insert k v =>
    rw [tableStep] at hstep
    split_ifs at hstep with hcall
    obtain ⟨hk, hv, hnull⟩ := hcall
    obtain ⟨⟨ptr, h₁⟩, hget, rfl⟩ := Option.map_eq_some_iff.1 hnull
    have he := hasEmpty_of_misses hok.pos hk ⟨h₁, hget⟩
    by_cases hfull : h.Full
    · obtain ⟨h₂, hins, hS, -⟩ := hashmapInsert_full hok hfull hk hv
      obtain rfl := Option.some.inj (hins.symm.trans hstep)
      exact Or.inl ⟨k, v, rfl, he, hfull, hS⟩
    · obtain ⟨p, hp, hins, hok'⟩ := hashmapInsert_fills hok hfull hk hv
      obtain rfl := Option.some.inj (hins.symm.trans hstep)
      exact Or.inr (Or.inl ⟨k, v, p, rfl, he, hfull, hp, rfl, hok'⟩)
  | remove k =>
    rw [tableStep] at hstep
    split_ifs at hstep with hk
    obtain ⟨⟨h₁, touched⟩, hrem, rfl⟩ := Option.map_eq_some_iff.1 hstep
    exact Or.inr (Or.inr ⟨k, rfl, hashmapRemove_cases hok.pos hk hrem⟩)

theorem tableOk_step {h h' : Hashmap} {op : TableOp} (hok : TableOk h)
    (hstep : tableStep h op = some h') : TableOk h' := by
  obtain ⟨-, -, -, -, -, hS⟩ | ⟨-, -, -, -, -, -, -, -, hok'⟩ | ⟨-, -, rfl | ⟨s, hG⟩⟩ :=
    tableStep_cases hok hstep
  · exact hS.tableOk
  · exact hok'
  · exact hok
  · exact hG.tableOk hok

/-- **The invariant of all runs.** -/
theorem tableOk_reached {hashFunc : List UInt8 → Nat} {sizeKey sizeValue : Nat}
    {tr : List (Step Hashmap TableOp)} {h : Hashmap}
    (hrun : Run tableStep (hashmapInit hashFunc sizeKey sizeValue) tr h) :
    ∀ s ∈ visited (hashmapInit hashFunc sizeKey sizeValue) tr, TableOk s := by
  have h₀ := (hashmapInit_sound hashFunc sizeKey sizeValue).1.tableOk
  refine forall_visited.2 ⟨h₀, fun t ht => ?_⟩
  obtain ⟨before, after, rfl⟩ := List.append_of_mem ht
  exact hrun.upto.invariant h₀ fun _ _ _ hok => tableOk_step hok

/-! ## When there stays an empty slot -/

/-- Filling a slot leaves an empty one unless it was the last. -/
theorem hasEmpty_fillSlot {h : Hashmap} (hok : TableOk h) (he : h.HasEmpty) {k v : List UInt8}
    {p : Nat} (hp : h.table.insertAt k = some p) (hfull : ¬ h.Full) :
    (fillSlot h (.ext k) (.ext v) p).HasEmpty ↔ ¬ TakesLastEmpty h (.insert k v) := by
  obtain ⟨hpn, hfree, j, hj, hjp, hbefore⟩ := Table.insertAt_spec (T := h.table) hok.pos hp
  rw [table_n, table_start] at hjp
  have htaken (j' : Nat) (hj' : j' < j) :
      tagGet h.data ((h.hashFunc k % h.sizeAllocated + j') % h.sizeAllocated) = tagTaken := by
    have hlt : (h.hashFunc k % h.sizeAllocated + j') % h.sizeAllocated < h.sizeAllocated :=
      Nat.mod_lt _ hok.pos
    have hnot := (free_iff_tag hok.tags hlt).not.1 (Bool.eq_false_iff.1 (hbefore j' hj'))
    have htags := hok.tags _ hlt
    tauto
  constructor
  · intro hleft hlast
    obtain ⟨q, hq, htag⟩ := hleft
    rw [tagGet_fillSlot (h := h) hq] at htag
    split_ifs at htag with hqp
    · exact absurd htag (by decide)
    · obtain ⟨-, i, hi, hempty, hpath, honly⟩ := hlast
      -- The only empty slot is the first free one, so it is the one that was filled.
      have hij : i = j := by
        rcases Nat.lt_trichotomy i j with hlt | heq | hgt
        · rw [htaken i hlt] at hempty
          exact absurd hempty (by decide)
        · exact heq
        · have := (free_iff_tag hok.tags hpn).1 hfree
          rw [← hjp, hpath j hgt] at this
          exact absurd this (by decide)
      subst hij
      exact hqp ((honly q hq htag).trans hjp)
  · intro hnot
    by_contra hnone
    have honly (i : Nat) (hi : i < h.sizeAllocated) (htag : tagGet h.data i = tagEmpty) :
        i = p := by
      by_contra hip
      refine hnone ⟨i, hi, ?_⟩
      rw [tagGet_fillSlot (h := h) hi, if_neg hip, htag]
    obtain ⟨q, hq, htag⟩ := he
    refine hnot ⟨hfull, j, hj, ?_, htaken, ?_⟩
    · rw [hjp, ← honly q hq htag, htag]
    · rw [hjp]
      exact honly

/-- **One call** keeps an empty slot unless it takes the last one. -/
theorem hasEmpty_step {h h' : Hashmap} {op : TableOp} (hok : TableOk h) (he : h.HasEmpty)
    (hstep : tableStep h op = some h') : h'.HasEmpty ↔ ¬ TakesLastEmpty h op := by
  obtain ⟨k, v, rfl, -, hfull, hS⟩ | ⟨k, v, p, rfl, -, hfull, hp, rfl, -⟩ | ⟨k, rfl, hrem⟩ :=
    tableStep_cases hok hstep
  · exact ⟨fun _ hlast => hlast.1 hfull, fun _ => hS.hasEmpty⟩
  · exact hasEmpty_fillSlot hok he hp hfull
  · refine ⟨fun _ hlast => hlast, fun _ => ?_⟩
    obtain rfl | ⟨s, hG⟩ := hrem
    · exact he
    · obtain ⟨q, hq, htag⟩ := he
      exact ⟨q, hG.sizeAllocated ▸ hq, hG.empty q hq htag⟩

/-- With an empty slot, the only search that does not return is a removal that sweeps past
slot 0. -/
theorem searchesReturn_iff {h : Hashmap} (hn : 0 < h.sizeAllocated) :
    SearchesReturn h ↔ h.HasEmpty ∧ ∀ k, k.length = h.sizeKey → ¬ h.RunsOff k := by
  constructor
  · intro hS
    refine ⟨hS.empty, fun k hk hruns => ?_⟩
    obtain ⟨s, hhit, hout⟩ := hruns
    obtain ⟨out, hrem⟩ := hS.remove k hk
    rw [(hashmapRemove_eq_none_iff hn hk hhit).2 hout] at hrem
    cases hrem
  · intro hboth
    obtain ⟨he, hruns⟩ := hboth
    obtain ⟨q, hq, hslot⟩ := he.slot
    have hget (k : List UInt8) (hk : k.length = h.sizeKey) : ∃ out, hashmapGet h k = some out := by
      obtain ⟨r, hr⟩ := Table.exists_find (T := h.table) hq hslot k
      rw [hashmapGet_eq hn hk, hr, Option.map_some]
      exact ⟨_, rfl⟩
    refine ⟨he, hget, fun k hk => ?_, fun k hk => ?_⟩
    · obtain ⟨⟨ptr, h'⟩, hout⟩ := hget k hk
      exact ⟨(ptr.isSome, h'), by rw [hashmapContains, hout]; rfl⟩
    · by_cases hhits : ∃ s, h.RemoveHits k s
      · obtain ⟨s, hhit⟩ := hhits
        cases hrem : hashmapRemove h k with
        | some out => exact ⟨out, rfl⟩
        | none => exact absurd ⟨s, hhit, (hashmapRemove_eq_none_iff hn hk hhit).1 hrem⟩ (hruns k hk)
      · obtain ⟨touched, hrem, -⟩ := hashmapRemove_no_hit hn hk he (not_exists.1 hhits)
        exact ⟨_, hrem⟩

/-- **When all searches return, in every state of a run**: exactly when no insertion puts its
entry into the last empty slot, and no state has a key whose removal sweeps past slot 0. -/
theorem searches_return_iff {hashFunc : List UInt8 → Nat} {sizeKey sizeValue : Nat}
    {tr : List (Step Hashmap TableOp)} {h : Hashmap}
    (hrun : Run tableStep (hashmapInit hashFunc sizeKey sizeValue) tr h) :
    (∀ s ∈ visited (hashmapInit hashFunc sizeKey sizeValue) tr, SearchesReturn s) ↔
      (∀ t ∈ tr, ¬ TakesLastEmpty t.pre t.input) ∧
        ∀ s ∈ visited (hashmapInit hashFunc sizeKey sizeValue) tr,
          ∀ k, k.length = s.sizeKey → ¬ s.RunsOff k := by
  have hok := tableOk_reached hrun
  have hinit := hashmapInit_hasEmpty hashFunc sizeKey sizeValue
  have hkeeps : (∀ t ∈ tr, t.post.HasEmpty) ↔ ∀ t ∈ tr, ¬ TakesLastEmpty t.pre t.input :=
    hrun.forall_post_iff hinit fun _ _ _ _ hr he hstep =>
      hasEmpty_step (hr.invariant (hok _ (by simp [visited])) fun _ _ _ hok => tableOk_step hok)
        he hstep
  have hvisited : (∀ s ∈ visited (hashmapInit hashFunc sizeKey sizeValue) tr, s.HasEmpty) ↔
      ∀ t ∈ tr, ¬ TakesLastEmpty t.pre t.input := by
    rw [forall_visited, and_iff_right hinit, hkeeps]
  rw [← hvisited, ← forall₂_and]
  exact forall₂_congr fun s hs => searchesReturn_iff (hok s hs).pos

theorem not_runsOff_of_empty {h : Hashmap} (hn : 0 < h.sizeAllocated)
    (hzero : tagGet h.data 0 = tagEmpty) (k : List UInt8) : ¬ h.RunsOff k := by
  rintro ⟨s, hhit, -, hbelow⟩
  cases s with
  | zero =>
    obtain ⟨hs, hslot⟩ := hhit.taken hn
    rw [((slot_taken_iff hs).1 hslot).1] at hzero
    exact absurd hzero (by decide)
  | succ s =>
    rw [hbelow 0 (Nat.succ_pos s)] at hzero
    exact absurd hzero (by decide)

theorem not_takesLastEmpty_of_two {h : Hashmap} {p q : Nat} (hpq : p ≠ q)
    (hp : p < h.sizeAllocated ∧ tagGet h.data p = tagEmpty)
    (hq : q < h.sizeAllocated ∧ tagGet h.data q = tagEmpty) (op : TableOp) :
    ¬ TakesLastEmpty h op := by
  cases op with
  | insert k v =>
    rintro ⟨-, j, -, -, -, honly⟩
    exact hpq ((honly p hp.1 hp.2).trans (honly q hq.1 hq.2).symm)
  | remove k => exact id

/-- An entry that comes and goes, away from slot 0: `hashmap_remove` finds its key in the value of
another one. -/
theorem searches_return_once :
    ∃ tr t, Run tableStep (hashmapInit (fun key => (key.headD 0).toNat) 1 1) (tr ++ [t]) t.post ∧
      (tr ++ [t]).map (·.input) = [.insert [2] [6], .insert [6] [7], .remove [6]] ∧
      t.pre.size = 2 ∧ t.post.size = 1 ∧
      ∀ s ∈ visited (hashmapInit (fun key => (key.headD 0).toNat) 1 1) (tr ++ [t]),
        SearchesReturn s := by
  have htest := exists_run_snoc tableStep (hashmapInit (fun key => (key.headD 0).toNat) 1 1)
    [.insert [2] [6], .insert [6] [7]] (.remove [6]) (fun tr t => decide
      ((t.pre.size = 2 ∧ t.post.size = 1) ∧ ∀ u ∈ tr ++ [t],
        ((8 < u.pre.sizeAllocated ∧ tagGet u.pre.data 8 = tagEmpty) ∧
          (9 < u.pre.sizeAllocated ∧ tagGet u.pre.data 9 = tagEmpty)) ∧
        0 < u.post.sizeAllocated ∧ tagGet u.post.data 0 = tagEmpty)) (by decide +kernel)
  obtain ⟨tr, t, hrun, hinputs, hlast⟩ := htest
  obtain ⟨⟨hbefore, hafter⟩, hslots⟩ := of_decide_eq_true hlast
  refine ⟨tr, t, hrun, hinputs, hbefore, hafter,
    (searches_return_iff hrun).2
      ⟨fun u hu => ?_, forall_visited.2 ⟨fun k _ => ?_, fun u hu k _ => ?_⟩⟩⟩
  · obtain ⟨⟨h8, h9⟩, -⟩ := hslots u hu
    exact not_takesLastEmpty_of_two (by decide) h8 h9 u.input
  · exact not_runsOff_of_empty (Nat.succ_pos _) (by decide +kernel) k
  · obtain ⟨-, hpos, hzero⟩ := hslots u hu
    exact not_runsOff_of_empty hpos hzero k

/-- Sixteen calls that leave four taken slots, six tombstones and one empty slot: key and value
bytes in slots 0 and 1 are where `hashmap_remove` expects the keys 4 to 9. -/
def graveyard : List TableOp :=
  [.insert [0] [0, 0, 0, 0, 0, 0, 0, 0, 1, 2], .insert [1] [4, 5, 6, 7, 8, 9, 10, 0, 0, 0],
    .insert [3] (List.replicate 10 0), .insert [10] (List.replicate 10 0)] ++
  [9, 8, 7, 6, 5, 4].flatMap fun k => [.insert [k] (List.replicate 10 0), .remove [k]]

/-- One more insertion takes the last empty slot, and no search for an absent key returns. -/
theorem searches_return_fails :
    ∃ tr t, Run tableStep (hashmapInit (fun key => (key.headD 0).toNat) 1 10) (tr ++ [t]) t.post ∧
      (tr ++ [t]).map (·.input) = graveyard ++ [.insert [2] (List.replicate 10 0)] ∧
      ¬ t.post.HasEmpty ∧ hashmapGet t.post [11] = none ∧ hashmapContains t.post [11] = none ∧
      hashmapRemove t.post [11] = none := by
  have htest := exists_run_snoc tableStep (hashmapInit (fun key => (key.headD 0).toNat) 1 10)
    graveyard (.insert [2] (List.replicate 10 0))
    (fun _ t => decide ((∀ q < t.post.sizeAllocated, tagGet t.post.data q ≠ tagEmpty) ∧
      (hashmapGet t.post [11]).isNone ∧ (hashmapContains t.post [11]).isNone ∧
      (hashmapRemove t.post [11]).isNone)) (by decide +kernel)
  obtain ⟨tr, t, hrun, hinputs, hlast⟩ := htest
  obtain ⟨hfull, hget, hcontains, hrem⟩ := of_decide_eq_true hlast
  refine ⟨tr, t, hrun, hinputs, ?_, Option.isNone_iff_eq_none.1 hget,
    Option.isNone_iff_eq_none.1 hcontains, Option.isNone_iff_eq_none.1 hrem⟩
  rintro ⟨q, hq, htag⟩
  exact hfull q hq htag

end NaptRouter
