import Mathlib.Data.Finset.Card
import Mathlib.Data.Finset.Range
import Mathlib.Data.Nat.ModEq
import Mathlib.Logic.Function.Basic

/-!
# Linear probing

A table of `n` slots, each empty, taken by a key and its value, or holding a tombstone. A key
is searched from its home slot on, one slot after the other and around the end, until it is
found or an empty slot stops the search.

Nothing is assumed about where a key's home is. What makes searches right is `Reach`: no empty
slot lies between a key's home and the slot that holds the key.

* `scan` is the loop itself, with a step budget; `scan_eq_some_iff` says what it returns.
* `lookup_eq_none_iff` turns a failed search into absence from the whole table.
* `lookup_put_self`, `lookup_put_of_ne` and `reach_put` are the insertion theorems.
* With distinct keys the search is membership (`lookup_iff_slot`); `reach_set_grave` and
  `reach_set_empty` say when a slot may be given up.
-/

namespace LinearProbing

/-! ## Cyclic scans -/

/-- Try the indices `i`, `i + 1`, … modulo `n` until one satisfies `p`, `fuel` of them at
most. -/
def scan (n : ℕ) (p : ℕ → Bool) : ℕ → ℕ → Option ℕ
  | 0, _ => none
  | fuel + 1, i => if p i then some i else scan n p fuel ((i + 1) % n)

/-- The index after `i`, `j` steps further on. -/
private theorem succ_add_mod (n i j : ℕ) : ((i + 1) % n + j) % n = (i + (j + 1)) % n := by
  rw [Nat.mod_add_mod]
  congr 1
  omega

theorem scan_eq_some_iff {n : ℕ} {p : ℕ → Bool} {fuel i r : ℕ} (hi : i < n) :
    scan n p fuel i = some r ↔
      ∃ j < fuel, (i + j) % n = r ∧ p r = true ∧ ∀ j' < j, p ((i + j') % n) = false := by
  induction fuel generalizing i with
  | zero => simp [scan]
  | succ fuel ih =>
    have h0 : (i + 0) % n = i := by rw [Nat.add_zero, Nat.mod_eq_of_lt hi]
    by_cases hp : p i
    · simp only [scan, hp, if_true, Option.some.injEq]
      constructor
      · rintro rfl
        exact ⟨0, by omega, h0, hp, by simp⟩
      · intro hex
        obtain ⟨j, -, rfl, -, hbefore⟩ := hex
        cases j with
        | zero => exact h0.symm
        | succ j =>
          -- Slot `i` itself stops the scan.
          have hi0 := hbefore 0 (by omega)
          rw [h0, hp] at hi0
          exact absurd hi0 (by simp)
    · have hpf : p i = false := by simpa using hp
      simp only [scan, hpf, Bool.false_eq_true, if_false]
      rw [ih (Nat.mod_lt _ (by omega))]
      constructor
      · intro hex
        obtain ⟨j, hj, hr, hpr, hbefore⟩ := hex
        refine ⟨j + 1, by omega, by rw [← succ_add_mod, hr], hpr, fun j' hj' => ?_⟩
        cases j' with
        | zero => rw [h0]; exact hpf
        | succ j' => rw [← succ_add_mod]; exact hbefore j' (by omega)
      · intro hex
        obtain ⟨j, hj, hr, hpr, hbefore⟩ := hex
        cases j with
        | zero =>
          rw [h0] at hr
          rw [hr] at hpf
          simp [hpf] at hpr
        | succ j =>
          refine ⟨j, by omega, by rw [succ_add_mod, hr], hpr, fun j' hj' => ?_⟩
          rw [succ_add_mod]
          exact hbefore (j' + 1) (by omega)

theorem scan_eq_none_iff {n : ℕ} {p : ℕ → Bool} {fuel i : ℕ} (hi : i < n) :
    scan n p fuel i = none ↔ ∀ j < fuel, p ((i + j) % n) = false := by
  induction fuel generalizing i with
  | zero => simp [scan]
  | succ fuel ih =>
    have h0 : (i + 0) % n = i := by rw [Nat.add_zero, Nat.mod_eq_of_lt hi]
    by_cases hp : p i
    · simp only [scan, hp, if_true, reduceCtorEq, false_iff, not_forall]
      exact ⟨0, by omega, by rw [h0, hp]; simp⟩
    · have hpf : p i = false := by simpa using hp
      simp only [scan, hpf, Bool.false_eq_true, if_false]
      rw [ih (Nat.mod_lt _ (by omega))]
      constructor
      · intro h j hj
        cases j with
        | zero => rw [h0]; exact hpf
        | succ j => rw [← succ_add_mod]; exact h j (by omega)
      · intro h j hj
        rw [succ_add_mod]
        exact h (j + 1) (by omega)

/-- Every index is met on the way around. -/
theorem exists_offset {n i q : ℕ} (hi : i < n) (hq : q < n) : ∃ j < n, (i + j) % n = q := by
  refine ⟨(q + (n - i)) % n, Nat.mod_lt _ (by omega), ?_⟩
  rw [Nat.add_mod_mod, show i + (q + (n - i)) = q + n by omega, Nat.add_mod_right,
    Nat.mod_eq_of_lt hq]

theorem exists_scan {n : ℕ} {p : ℕ → Bool} {i q : ℕ} (hi : i < n) (hq : q < n)
    (hp : p q = true) : ∃ r, scan n p n i = some r := by
  cases h : scan n p n i with
  | some r => exact ⟨r, rfl⟩
  | none =>
    obtain ⟨j, hj, rfl⟩ := exists_offset hi hq
    rw [(scan_eq_none_iff hi).1 h j hj] at hp
    exact absurd hp (by simp)

/-! ## Tables -/

/-- What a slot holds. -/
inductive Slot (K V : Type*)
  | empty
  | taken (key : K) (value : V)
  | grave

/-- The value a slot holds, if it is taken. -/
def Slot.value? {K V : Type*} : Slot K V → Option V
  | .taken _ v => some v
  | _ => none

/-- Is the slot taken? -/
def Slot.isTaken {K V : Type*} : Slot K V → Bool
  | .taken _ _ => true
  | _ => false

/-- A table of `n` slots. -/
structure Table (K V : Type*) where
  n : ℕ
  /-- The hash of a key; its home slot is the hash modulo `n`. -/
  hash : K → ℕ
  slot : ℕ → Slot K V

namespace Table

variable {K V : Type*} [DecidableEq K]

/-- The slot a key's search starts from. -/
def start (T : Table K V) (k : K) : ℕ := T.hash k % T.n

/-- Slot `i` ends the search for `k`: it is empty or it holds `k`. -/
def stops (T : Table K V) (k : K) (i : ℕ) : Bool :=
  match T.slot i with
  | .empty => true
  | .taken k' _ => decide (k' = k)
  | .grave => false

omit [DecidableEq K] in
/-- Slot `i` can take a new key. -/
def free (T : Table K V) (i : ℕ) : Bool := !(T.slot i).isTaken

/-- The slot at which the search for `k` ends. -/
def find (T : Table K V) (k : K) : Option ℕ := scan T.n (T.stops k) T.n (T.start k)

/-- The value found for `k`. -/
def lookup (T : Table K V) (k : K) : Option V := (T.find k).bind fun i => (T.slot i).value?

/-- The slot a new key `k` goes to. -/
def insertAt (T : Table K V) (k : K) : Option ℕ := scan T.n T.free T.n (T.start k)

/-- Put `k` with value `v` into slot `p`. -/
def put (T : Table K V) (p : ℕ) (k : K) (v : V) : Table K V :=
  { T with slot := Function.update T.slot p (.taken k v) }

/-- **The representation invariant.** Between a key's home and the slot that holds it no slot
is empty. -/
def Reach (T : Table K V) : Prop :=
  ∀ i < T.n, ∀ k v, T.slot i = .taken k v →
    ∃ j < T.n, (T.start k + j) % T.n = i ∧ ∀ j' < j, T.slot ((T.start k + j') % T.n) ≠ .empty

/-- The number of taken slots. -/
def count (T : Table K V) : ℕ := ((Finset.range T.n).filter fun i => (T.slot i).isTaken).card

omit [DecidableEq K]

@[simp] theorem put_n (T : Table K V) (p : ℕ) (k : K) (v : V) : (T.put p k v).n = T.n := rfl

@[simp] theorem put_start (T : Table K V) (p : ℕ) (k : K) (v : V) (k' : K) :
    (T.put p k v).start k' = T.start k' := rfl

@[simp] theorem put_slot_self (T : Table K V) (p : ℕ) (k : K) (v : V) :
    (T.put p k v).slot p = .taken k v := by
  simp [put]

theorem put_slot_of_ne (T : Table K V) {p i : ℕ} (k : K) (v : V) (h : i ≠ p) :
    (T.put p k v).slot i = T.slot i := by
  simp [put, h]

theorem start_lt {T : Table K V} (hn : 0 < T.n) (k : K) : T.start k < T.n := Nat.mod_lt _ hn

theorem free_iff {T : Table K V} {i : ℕ} : T.free i = true ↔ ∀ k v, T.slot i ≠ .taken k v := by
  cases h : T.slot i <;> simp [free, h, Slot.isTaken]

/-! ## Searching -/

variable [DecidableEq K]

theorem stops_iff {T : Table K V} {k : K} {i : ℕ} :
    T.stops k i = true ↔ T.slot i = .empty ∨ ∃ v, T.slot i = .taken k v := by
  cases h : T.slot i <;> simp [stops, h]

theorem stops_eq_false_iff {T : Table K V} {k : K} {i : ℕ} :
    T.stops k i = false ↔ T.slot i ≠ .empty ∧ ∀ v, T.slot i ≠ .taken k v := by
  rw [Bool.eq_false_iff, Ne, stops_iff]
  simp only [not_or, not_exists, ne_eq]

theorem lookup_eq_some_iff {T : Table K V} (hn : 0 < T.n) {k : K} {v : V} :
    T.lookup k = some v ↔
      ∃ j < T.n, T.slot ((T.start k + j) % T.n) = .taken k v ∧
        ∀ j' < j, T.stops k ((T.start k + j') % T.n) = false := by
  have hstart := start_lt hn k
  constructor
  · intro h
    obtain ⟨i, hi, hv⟩ := Option.bind_eq_some_iff.1 h
    obtain ⟨j, hj, rfl, hstop, hbefore⟩ := (scan_eq_some_iff hstart).1 hi
    refine ⟨j, hj, ?_, hbefore⟩
    rcases stops_iff.1 hstop with he | ⟨w, hw⟩
    · simp [he, Slot.value?] at hv
    · rw [hw, Slot.value?, Option.some.injEq] at hv
      rw [hw, hv]
  · intro hex
    obtain ⟨j, hj, hslot, hbefore⟩ := hex
    have hfind : T.find k = some ((T.start k + j) % T.n) :=
      (scan_eq_some_iff hstart).2 ⟨j, hj, rfl, stops_iff.2 (Or.inr ⟨v, hslot⟩), hbefore⟩
    simp [lookup, hfind, hslot, Slot.value?]

/-- A search that ends finds the key or ends at an empty slot. -/
theorem find_spec {T : Table K V} (hn : 0 < T.n) {k : K} {i : ℕ} (h : T.find k = some i) :
    i < T.n ∧ ((T.slot i = .empty ∧ T.lookup k = none) ∨
      ∃ v, T.slot i = .taken k v ∧ T.lookup k = some v) := by
  obtain ⟨j, -, hr, hstop, -⟩ := (scan_eq_some_iff (start_lt hn k)).1 h
  refine ⟨by rw [← hr]; exact Nat.mod_lt _ hn, ?_⟩
  rcases stops_iff.1 hstop with he | ⟨v, hv⟩
  · exact Or.inl ⟨he, by simp [lookup, h, he, Slot.value?]⟩
  · exact Or.inr ⟨v, hv, by simp [lookup, h, hv, Slot.value?]⟩

/-- With an empty slot in the table every search ends. -/
theorem exists_find {T : Table K V} {q : ℕ} (hq : q < T.n) (he : T.slot q = .empty) (k : K) :
    ∃ i, T.find k = some i :=
  exists_scan (start_lt (by omega) k) hq (stops_iff.2 (Or.inl he))

/-- **A failed search means the key is nowhere in the table.** -/
theorem lookup_eq_none_iff {T : Table K V} (hn : 0 < T.n) (hR : T.Reach) {k : K} :
    T.lookup k = none ↔ ∀ i < T.n, ∀ v, T.slot i ≠ .taken k v := by
  constructor
  · intro h i hi v hslot
    obtain ⟨j, hj, hji, hbefore⟩ := hR i hi k v hslot
    have hstop : T.stops k i = true := stops_iff.2 (Or.inr ⟨v, hslot⟩)
    obtain ⟨r, hr⟩ := exists_scan (start_lt hn k) hi hstop
    -- The scan stops at distance `j₀ ≤ j`, where the slot is not empty.
    obtain ⟨j₀, hj₀, hr₀, hstop₀, hbefore₀⟩ := (scan_eq_some_iff (start_lt hn k)).1 hr
    have hle : j₀ ≤ j := by
      by_contra hlt
      have := hbefore₀ j (by omega)
      rw [hji, hstop] at this
      exact absurd this (by simp)
    rcases find_spec hn hr with ⟨-, ⟨he, -⟩ | ⟨w, -, hw⟩⟩
    · rcases Nat.lt_or_eq_of_le hle with hlt | rfl
      · exact hbefore j₀ hlt (by rw [hr₀, he])
      · rw [← hr₀, hji, hslot] at he
        exact absurd he (by simp)
    · rw [hw] at h
      exact absurd h (by simp)
  · intro h
    cases hl : T.lookup k with
    | none => rfl
    | some v =>
      obtain ⟨j, hj, hslot, -⟩ := (lookup_eq_some_iff hn).1 hl
      exact absurd hslot (h _ (Nat.mod_lt _ hn) v)

/-! ## Inserting -/

omit [DecidableEq K] in
/-- Where a new key goes: past taken slots only. -/
theorem insertAt_spec {T : Table K V} (hn : 0 < T.n) {k : K} {p : ℕ}
    (h : T.insertAt k = some p) :
    p < T.n ∧ T.free p = true ∧
      ∃ j < T.n, (T.start k + j) % T.n = p ∧
        ∀ j' < j, T.free ((T.start k + j') % T.n) = false := by
  obtain ⟨j, hj, hr, hfree, hbefore⟩ := (scan_eq_some_iff (start_lt hn k)).1 h
  exact ⟨by rw [← hr]; exact Nat.mod_lt _ hn, hfree, j, hj, hr, hbefore⟩

omit [DecidableEq K] in
private theorem not_free_ne_empty {T : Table K V} {i : ℕ} (h : T.free i = false) :
    T.slot i ≠ .empty := by
  intro he
  simp [free, he, Slot.isTaken] at h

omit [DecidableEq K] in
private theorem put_slot_ne_empty {T : Table K V} {p i : ℕ} (k : K) (v : V)
    (h : T.slot i ≠ .empty) : (T.put p k v).slot i ≠ .empty := by
  by_cases hi : i = p
  · subst hi
    simp
  · rw [put_slot_of_ne T k v hi]
    exact h

omit [DecidableEq K] in
/-- **Insertion keeps the invariant.** -/
theorem reach_put {T : Table K V} (hn : 0 < T.n) (hR : T.Reach) {k : K} {p : ℕ}
    (h : T.insertAt k = some p) (v : V) : (T.put p k v).Reach := by
  obtain ⟨hp, hfree, j, hj, hjp, hbefore⟩ := insertAt_spec hn h
  intro i hi k' v' hslot
  by_cases hip : i = p
  · subst hip
    rw [put_slot_self] at hslot
    injection hslot with hk hv
    subst hk
    exact ⟨j, hj, hjp, fun j' hj' =>
      put_slot_ne_empty k v (not_free_ne_empty (hbefore j' hj'))⟩
  · rw [put_slot_of_ne T k v hip] at hslot
    obtain ⟨j₁, hj₁, hji, hb⟩ := hR i hi k' v' hslot
    exact ⟨j₁, hj₁, hji, fun j' hj' => put_slot_ne_empty k v (hb j' hj')⟩

/-- **An inserted key is found.** -/
theorem lookup_put_self {T : Table K V} (hn : 0 < T.n) (hR : T.Reach) {k : K} {p : ℕ}
    (h : T.insertAt k = some p) (habs : T.lookup k = none) (v : V) :
    (T.put p k v).lookup k = some v := by
  obtain ⟨hp, hfree, j, hj, hjp, hbefore⟩ := insertAt_spec hn h
  refine (lookup_eq_some_iff (T := T.put p k v) hn).2 ⟨j, hj, ?_, fun j' hj' => ?_⟩
  · simp only [put_n, put_start, hjp, put_slot_self]
  · have hb := hbefore j' hj'
    have hne : (T.start k + j') % T.n ≠ p := by
      intro heq
      rw [heq, hfree] at hb
      exact absurd hb (by simp)
    rw [stops_eq_false_iff, put_n, put_start, put_slot_of_ne T k v hne]
    exact ⟨not_free_ne_empty hb,
      fun w => (lookup_eq_none_iff hn hR).1 habs _ (Nat.mod_lt _ hn) w⟩

/-- **Insertion leaves every other key alone.** -/
theorem lookup_put_of_ne {T : Table K V} (hn : 0 < T.n) (hR : T.Reach) {k k' : K} {p : ℕ}
    (h : T.insertAt k = some p) (hne : k' ≠ k) (v : V) :
    (T.put p k v).lookup k' = T.lookup k' := by
  obtain ⟨hp, hfree, -⟩ := insertAt_spec hn h
  cases hl : T.lookup k' with
  | none =>
    refine (lookup_eq_none_iff (T := T.put p k v) hn (reach_put hn hR h v)).2
      fun i hi w hslot => ?_
    by_cases hip : i = p
    · subst hip
      rw [put_slot_self] at hslot
      injection hslot with hk
      exact hne hk.symm
    · rw [put_slot_of_ne T k v hip] at hslot
      exact (lookup_eq_none_iff hn hR).1 hl i hi w hslot
  | some w =>
    obtain ⟨j, hj, hslot, hbefore⟩ := (lookup_eq_some_iff hn).1 hl
    -- Neither the slot that holds `k'` nor the slots before it start to stop the search.
    refine (lookup_eq_some_iff (T := T.put p k v) hn).2 ⟨j, hj, ?_, fun j' hj' => ?_⟩
    · have hip : (T.start k' + j) % T.n ≠ p := by
        intro heq
        exact free_iff.1 hfree k' w (heq ▸ hslot)
      simp only [put_n, put_start]
      rw [put_slot_of_ne T k v hip, hslot]
    · simp only [put_n, put_start]
      have hb := stops_eq_false_iff.1 (hbefore j' hj')
      rw [stops_eq_false_iff]
      refine ⟨put_slot_ne_empty k v hb.1, fun w' => ?_⟩
      by_cases hip : (T.start k' + j') % T.n = p
      · rw [hip, put_slot_self]
        intro heq
        injection heq with hk
        exact hne hk.symm
      · rw [put_slot_of_ne T k v hip]
        exact hb.2 w'

/-! ## Counting -/

omit [DecidableEq K]

theorem count_put {T : Table K V} {p : ℕ} (hp : p < T.n) (hfree : T.free p = true) (k : K)
    (v : V) : (T.put p k v).count = T.count + 1 := by
  have hnot : p ∉ (Finset.range T.n).filter fun i => (T.slot i).isTaken := by
    simpa [free] using fun _ => hfree
  have hins : ((Finset.range T.n).filter fun i => ((T.put p k v).slot i).isTaken) =
      insert p ((Finset.range T.n).filter fun i => (T.slot i).isTaken) := by
    ext i
    simp only [Finset.mem_filter, Finset.mem_insert, Finset.mem_range]
    by_cases hip : i = p
    · subst hip
      rw [put_slot_self]
      exact ⟨fun _ => Or.inl rfl, fun _ => ⟨hp, rfl⟩⟩
    · simp [put_slot_of_ne T k v hip, hip]
  rw [count, put_n, hins, Finset.card_insert_of_notMem hnot]
  rfl

theorem exists_free {T : Table K V} (h : T.count < T.n) : ∃ i < T.n, T.free i = true := by
  by_contra hno
  push Not at hno
  have hall : (Finset.range T.n).filter (fun i => (T.slot i).isTaken) = Finset.range T.n := by
    refine Finset.filter_true_of_mem fun i hi => ?_
    have := hno i (Finset.mem_range.1 hi)
    simpa [free] using this
  rw [count, hall, Finset.card_range] at h
  exact absurd h (lt_irrefl _)

theorem exists_insertAt {T : Table K V} (h : T.count < T.n) (k : K) :
    ∃ p, T.insertAt k = some p := by
  obtain ⟨i, hi, hfree⟩ := exists_free h
  exact exists_scan (start_lt (by omega) k) hi hfree

theorem exists_empty {T : Table K V} (h : T.count < T.n)
    (hg : ∀ i < T.n, T.slot i ≠ .grave) : ∃ i < T.n, T.slot i = .empty := by
  obtain ⟨i, hi, hfree⟩ := exists_free h
  refine ⟨i, hi, ?_⟩
  cases hs : T.slot i with
  | empty => rfl
  | taken k v => exact absurd hs (free_iff.1 hfree k v)
  | grave => exact absurd hs (hg i hi)

theorem reach_of_empty {T : Table K V} (h : ∀ i < T.n, T.slot i = .empty) : T.Reach := by
  intro i hi k v hslot
  rw [h i hi] at hslot
  exact absurd hslot (by simp)

theorem count_of_empty {T : Table K V} (h : ∀ i < T.n, T.slot i = .empty) : T.count = 0 := by
  rw [count, Finset.card_eq_zero, Finset.filter_eq_empty_iff]
  intro i hi
  simp [h i (Finset.mem_range.1 hi), Slot.isTaken]

end Table

/-! ## Distinct keys -/

namespace Table

variable {K V : Type*}

/-- No key is in two slots. -/
def Distinct (T : Table K V) : Prop :=
  ∀ i < T.n, ∀ j < T.n, ∀ k v w, T.slot i = .taken k v → T.slot j = .taken k w → i = j

/-- One turn around the table meets every slot once. -/
theorem offset_inj {n a j j' : ℕ} (hj : j < n) (hj' : j' < n)
    (h : (a + j) % n = (a + j') % n) : j = j' :=
  Nat.ModEq.eq_of_lt_of_lt (Nat.ModEq.add_left_cancel' a h) hj hj'

theorem distinct_put {T : Table K V} (hD : T.Distinct) {k : K}
    (habs : ∀ i < T.n, ∀ v, T.slot i ≠ .taken k v) (p : ℕ) (v : V) :
    (T.put p k v).Distinct := by
  have hother {i k' w} (hi : i < T.n) (hip : i ≠ p) (h : (T.put p k v).slot i = .taken k' w) :
      T.slot i = .taken k' w ∧ k' ≠ k := by
    rw [put_slot_of_ne T k v hip] at h
    refine ⟨h, ?_⟩
    rintro rfl
    exact habs i hi w h
  have hself {k' w} (h : (T.put p k v).slot p = .taken k' w) : k' = k := by
    rw [put_slot_self, Slot.taken.injEq] at h
    exact h.1.symm
  intro i hi j hj k' w w' hslot hslot'
  by_cases hip : i = p
  · by_cases hjp : j = p
    · rw [hip, hjp]
    · subst hip
      exact absurd (hself hslot) (hother hj hjp hslot').2
  · by_cases hjp : j = p
    · subst hjp
      exact absurd (hself hslot') (hother hi hip hslot).2
    · exact hD i hi j hj k' w w' (hother hi hip hslot).1 (hother hj hjp hslot').1

theorem find_of_slot [DecidableEq K] {T : Table K V} (hn : 0 < T.n) (hR : T.Reach)
    (hD : T.Distinct) {i : ℕ} (hi : i < T.n) {k : K} {v : V} (hslot : T.slot i = .taken k v) :
    T.find k = some i := by
  obtain ⟨j, hj, hji, hbefore⟩ := hR i hi k v hslot
  refine (scan_eq_some_iff (start_lt hn k)).2
    ⟨j, hj, hji, stops_iff.2 (Or.inr ⟨v, hslot⟩), fun j' hj' => ?_⟩
  rw [stops_eq_false_iff]
  refine ⟨hbefore j' hj', fun w hw => ?_⟩
  have hsame := hD _ (Nat.mod_lt _ hn) i hi k w v hw hslot
  have := offset_inj (by omega) hj (hsame.trans hji.symm)
  omega

/-- **With distinct keys a search is membership.** -/
theorem lookup_iff_slot [DecidableEq K] {T : Table K V} (hn : 0 < T.n) (hR : T.Reach)
    (hD : T.Distinct) {k : K} {v : V} :
    T.lookup k = some v ↔ ∃ i < T.n, T.slot i = .taken k v := by
  constructor
  · intro h
    obtain ⟨j, -, hslot, -⟩ := (lookup_eq_some_iff hn).1 h
    exact ⟨_, Nat.mod_lt _ hn, hslot⟩
  · intro hex
    obtain ⟨i, hi, hslot⟩ := hex
    rw [lookup, find_of_slot hn hR hD hi hslot, Option.bind_some, hslot, Slot.value?]

/-! ## Giving up slots -/

/-- Slot `p` now holds `s`. -/
def set (T : Table K V) (p : ℕ) (s : Slot K V) : Table K V :=
  { T with slot := Function.update T.slot p s }

@[simp] theorem set_n (T : Table K V) (p : ℕ) (s : Slot K V) : (T.set p s).n = T.n := rfl

@[simp] theorem set_start (T : Table K V) (p : ℕ) (s : Slot K V) (k : K) :
    (T.set p s).start k = T.start k := rfl

@[simp] theorem set_slot_self (T : Table K V) (p : ℕ) (s : Slot K V) :
    (T.set p s).slot p = s := by
  simp [set]

theorem set_slot_of_ne (T : Table K V) {p i : ℕ} (s : Slot K V) (h : i ≠ p) :
    (T.set p s).slot i = T.slot i := by
  simp [set, h]

theorem set_slot_taken {T : Table K V} {p i : ℕ} {s : Slot K V} (hs : s.isTaken = false)
    {k : K} {v : V} : (T.set p s).slot i = .taken k v ↔ i ≠ p ∧ T.slot i = .taken k v := by
  by_cases hip : i = p
  · subst hip
    rw [set_slot_self]
    refine ⟨?_, fun h => absurd rfl h.1⟩
    rintro rfl
    simp [Slot.isTaken] at hs
  · rw [set_slot_of_ne T s hip]
    exact ⟨fun h => ⟨hip, h⟩, fun h => h.2⟩

/-- **A tombstone interrupts no search.** -/
theorem reach_set_grave {T : Table K V} (hR : T.Reach) (p : ℕ) : (T.set p .grave).Reach := by
  intro i hi k v hslot
  obtain ⟨j, hj, hji, hbefore⟩ := hR i hi k v ((set_slot_taken rfl).1 hslot).2
  refine ⟨j, hj, hji, fun j' hj' => ?_⟩
  by_cases hip : (T.start k + j') % T.n = p
  · rw [set_n, set_start, hip, set_slot_self]
    simp
  · rw [set_n, set_start, set_slot_of_ne T _ hip]
    exact hbefore j' hj'

/-- **A tombstone before an empty slot can go**: no search gets further than that slot. -/
theorem reach_set_empty {T : Table K V} (hR : T.Reach) {p : ℕ}
    (hnext : T.slot ((p + 1) % T.n) = .empty) : (T.set p .empty).Reach := by
  intro i hi k v hslot
  replace hslot := ((set_slot_taken rfl).1 hslot).2
  obtain ⟨j, hj, hji, hbefore⟩ := hR i hi k v hslot
  refine ⟨j, hj, hji, fun j' hj' => ?_⟩
  have hne : (T.start k + j') % T.n ≠ p := by
    rintro rfl
    rw [Nat.mod_add_mod, Nat.add_assoc] at hnext
    rcases Nat.lt_or_eq_of_le (Nat.succ_le_of_lt hj') with hlt | rfl
    · exact hbefore (j' + 1) hlt hnext
    · cases hslot.symm.trans (hji ▸ hnext)
  rw [set_n, set_start, set_slot_of_ne T _ hne]
  exact hbefore j' hj'

theorem count_set_of_taken {T : Table K V} {p : ℕ} (hp : p < T.n) {k : K} {v : V}
    (hslot : T.slot p = .taken k v) {s : Slot K V} (hs : s.isTaken = false) :
    (T.set p s).count + 1 = T.count := by
  have hback : (T.set p s).put p k v = T := by
    rw [put, set, Function.update_idem, ← hslot, Function.update_eq_self]
  have hfree : (T.set p s).free p = true := by simp [free, hs]
  rw [← count_put (T := T.set p s) hp hfree k v, hback]

theorem count_set_of_free {T : Table K V} {p : ℕ} (hfree : T.free p = true) {s : Slot K V}
    (hs : s.isTaken = false) : (T.set p s).count = T.count := by
  refine congrArg Finset.card (Finset.filter_congr fun i _ => ?_)
  by_cases hip : i = p
  · subst hip
    have hno : (T.slot i).isTaken = false := by simpa [free] using hfree
    rw [set_slot_self, hs, hno]
  · rw [set_slot_of_ne T s hip]

end Table

end LinearProbing
