import NaptRouter.TableGrowth

/-!
# Insertion into a table with tombstones

Below the growth threshold `hashmap_insert` is map insertion (`hashmapInsert_refines`), for
every table with distinct keys, whatever tombstones it has: a key put over a tombstone lies on
the way to other keys, but nobody stops there.
-/

namespace NaptRouter

open ByteMemory LinearProbing Hashmap

/-- A search has a slot to stop at. -/
def Hashmap.HasEmpty (h : Hashmap) : Prop :=
  ∃ q < h.sizeAllocated, tagGet h.data q = tagEmpty

/-! ## Searches with distinct keys -/

theorem Hashmap.HasEmpty.slot {h : Hashmap} (he : h.HasEmpty) :
    ∃ q < h.sizeAllocated, h.slot q = .empty := by
  obtain ⟨q, hq, htag⟩ := he
  exact ⟨q, hq, (slot_empty_iff hq).2 htag⟩

section Distinct

variable {h : Hashmap} (hrep : h.RepInv) {k : List UInt8} (hk : k.length = h.sizeKey)

include hrep

theorem lookup_iff {v : List UInt8} :
    h.lookup k = some v ↔ ∃ i < h.sizeAllocated, h.slot i = .taken k v :=
  Table.lookup_iff_slot (T := h.table) hrep.pos hrep.reach hrep.distinct

include hk

theorem finds_iff_slot {v : List UInt8} :
    h.Finds k v ↔ ∃ i < h.sizeAllocated, h.slot i = .taken k v :=
  (finds_iff hrep.pos hk).trans (lookup_iff hrep)

theorem misses_iff_slot (he : h.HasEmpty) :
    h.Misses k ↔ ∀ i < h.sizeAllocated, ∀ v, h.slot i ≠ .taken k v := by
  have hnone : h.lookup k = none ↔ ∀ i < h.sizeAllocated, ∀ v, h.slot i ≠ .taken k v :=
    Table.lookup_eq_none_iff (T := h.table) hrep.pos hrep.reach
  rw [← hnone]
  refine ⟨lookup_of_misses hrep.pos hk, fun hl => ?_⟩
  obtain ⟨q, hq, hslot⟩ := he.slot
  exact ⟨h, hashmapGet_miss hrep.pos hk hq hslot hl⟩

theorem hashmapGet_of_slot {i : Nat} (hi : i < h.sizeAllocated) {v : List UInt8}
    (hslot : h.slot i = .taken k v) :
    hashmapGet h k = some (some (h.valuePtr i), h.setLock false) := by
  have hfind : h.table.find k = some i :=
    Table.find_of_slot (T := h.table) hrep.pos hrep.reach hrep.distinct hi hslot
  rw [hashmapGet_eq hrep.pos hk, hfind, Option.map_some, ((slot_taken_iff hi).1 hslot).1]
  rfl

end Distinct

/-! ## `hashmap_insert` below the threshold -/

/-- `h'` is `h` with the absent key `k` mapped to `v`. -/
structure InsertRefines (h : Hashmap) (k v : List UInt8) (h' : Hashmap) : Prop where
  repInv : h'.RepInv
  size : h'.size = h.size + 1
  capacity : h'.sizeAllocated = h.sizeAllocated
  found : h'.Finds k v
  others : ∀ k', k'.length = h.sizeKey → k' ≠ k → ∀ w, h'.Finds k' w ↔ h.Finds k' w
  /-- `hashmap_get` returns what it returned, `NULL` or the same pointer. -/
  same : h'.HasEmpty → ∀ k', k'.length = h.sizeKey → k' ≠ k →
    (hashmapGet h' k').map Prod.fst = (hashmapGet h k').map Prod.fst

theorem put_slot_taken {T : Table (List UInt8) (List UInt8)} {p : Nat} (hfree : T.free p = true)
    {k v k' w : List UInt8} (hne : k' ≠ k) (i : Nat) :
    (T.put p k v).slot i = .taken k' w ↔ T.slot i = .taken k' w := by
  by_cases hip : i = p
  · subst hip
    rw [Table.put_slot_self, Slot.taken.injEq]
    exact ⟨fun h => absurd h.1.symm hne, fun h => absurd h (Table.free_iff.1 hfree k' w)⟩
  · rw [Table.put_slot_of_ne T k v hip]

/-- Below the threshold the entry goes to the slot that the search ends at. -/
theorem hashmapInsert_put {h : Hashmap} (hrep : h.RepInv) (he : h.HasEmpty)
    (hroom : h.size < h.sizeAllocated / 2) {k v : List UInt8} (hk : k.length = h.sizeKey)
    (hv : v.length = h.sizeValue) (habs : h.Misses k) :
    ∃ p, h.table.insertAt k = some p ∧
      hashmapInsert h k v = some (fillSlot h (.ext k) (.ext v) p) ∧
      (fillSlot h (.ext k) (.ext v) p).RepInv ∧
      (fillSlot h (.ext k) (.ext v) p).table = h.table.put p k v := by
  have hcount : h.table.count < h.sizeAllocated := by rw [← hrep.size_eq]; omega
  have hnot : ¬ h.Full := Nat.not_le.2 hroom
  obtain ⟨p, hp, hloop, hwf, htable⟩ := insertLoop_put hrep.toWF hcount hk hv
  refine ⟨p, hp, ?_, ⟨hwf, ?_⟩, htable⟩
  · rw [hashmapInsert, hashmapInsertDepth_of_not_full hnot, Src.read_ext h.data hk, hloop]
  · have hdist := Table.distinct_put (T := h.table) hrep.distinct
      ((misses_iff_slot hrep hk he).1 habs) p v
    rw [← htable] at hdist
    exact hdist

/-- **Insertion without growth is map insertion**, for every hash function and all sizes:
tombstones may be on the way, and the key may go over one. -/
theorem hashmapInsert_refines {h : Hashmap} (hrep : h.RepInv) (he : h.HasEmpty)
    (hroom : h.size < h.sizeAllocated / 2) {k v : List UInt8} (hk : k.length = h.sizeKey)
    (hv : v.length = h.sizeValue) (habs : h.Misses k) :
    ∃ h', hashmapInsert h k v = some h' ∧ InsertRefines h k v h' := by
  obtain ⟨p, hp, hins, hrep', htable⟩ := hashmapInsert_put hrep he hroom hk hv habs
  obtain ⟨hpn, hfree, -⟩ := Table.insertAt_spec (T := h.table) hrep.pos hp
  have hentry {k' w : List UInt8} (hne : k' ≠ k) (i : Nat) :
      (fillSlot h (.ext k) (.ext v) p).slot i = .taken k' w ↔ h.slot i = .taken k' w := by
    have hput := put_slot_taken (T := h.table) (v := v) (w := w) hfree hne i
    rw [← htable] at hput
    exact hput
  have hlook (k' : List UInt8) (hne : k' ≠ k) :
      (fillSlot h (.ext k) (.ext v) p).lookup k' = h.lookup k' := by
    refine Option.ext fun w => ?_
    rw [lookup_iff hrep, lookup_iff hrep']
    exact exists_congr fun i => and_congr_right fun _ => hentry hne i
  refine ⟨_, hins, hrep', rfl, rfl, ?_, ?_, ?_⟩
  · refine (finds_iff_slot hrep' hk).2 ⟨p, hpn, ?_⟩
    have hself := Table.put_slot_self h.table p k v
    rw [← htable] at hself
    exact hself
  · intro k' hk' hne w
    rw [finds_iff hrep.pos hk', finds_iff hrep'.pos hk', hlook k' hne]
  · intro he' k' hk' hne
    cases hl : h.lookup k' with
    | some w =>
      obtain ⟨i, hi, hslot⟩ := (lookup_iff hrep).1 hl
      rw [hashmapGet_of_slot hrep hk' hi hslot,
        hashmapGet_of_slot hrep' hk' hi ((hentry hne i).2 hslot)]
      rfl
    | none =>
      obtain ⟨q, hq, hslot⟩ := he.slot
      obtain ⟨q', hq', hslot'⟩ := he'.slot
      rw [hashmapGet_miss hrep.pos hk' hq hslot hl,
        hashmapGet_miss hrep'.pos hk' hq' hslot' ((hlook k' hne).trans hl)]
      rfl

/-- A table without keys, whatever tombstones it has. -/
theorem repInv_of_no_taken {h : Hashmap} (hn : 0 < h.sizeAllocated) (ht : h.TagsOk)
    (hno : ∀ i < h.sizeAllocated, tagGet h.data i ≠ tagTaken) (hsize : h.size = 0) :
    h.RepInv := by
  have hslot (i : Nat) (hi : i < h.sizeAllocated) (k v : List UInt8) : h.slot i ≠ .taken k v :=
    fun hs => hno i hi ((slot_taken_iff hi).1 hs).1
  refine ⟨⟨hn, ht, fun i hi k v hs => absurd hs (hslot i hi k v), ?_⟩,
    fun i hi j _ k v w hs _ => absurd hs (hslot i hi k v)⟩
  have hzero : ¬ 0 < h.takenBefore h.sizeAllocated := by
    rw [takenBefore_pos]
    rintro ⟨i, hi, htag⟩
    exact hno i hi htag
  rw [hsize, count_eq_takenBefore]
  omega

theorem hashmapInit_repInv (hashFunc : List UInt8 → Nat) (sizeKey sizeValue : Nat) :
    (hashmapInit hashFunc sizeKey sizeValue).RepInv := by
  have hS := (hashmapInit_sound hashFunc sizeKey sizeValue).1
  refine repInv_of_no_taken hS.pos hS.tags (fun i _ => ?_) rfl
  show tagGet Mem.zero i ≠ tagTaken
  simp [tagGet, tagTaken]

theorem hashmapInit_hasEmpty (hashFunc : List UInt8 → Nat) (sizeKey sizeValue : Nat) :
    (hashmapInit hashFunc sizeKey sizeValue).HasEmpty :=
  ⟨0, Nat.succ_pos _, show tagGet Mem.zero 0 = tagEmpty by simp [tagGet, tagEmpty]⟩

theorem hashmapInit_misses (hashFunc : List UInt8 → Nat) {sizeKey : Nat} (sizeValue : Nat)
    {k : List UInt8} (hk : k.length = sizeKey) :
    (hashmapInit hashFunc sizeKey sizeValue).Misses k := by
  have hrep := hashmapInit_repInv hashFunc sizeKey sizeValue
  obtain ⟨q, hq, hslot⟩ := (hashmapInit_hasEmpty hashFunc sizeKey sizeValue).slot
  exact ⟨_, hashmapGet_miss hrep.pos hk hq hslot ((hashmapInit_sound ..).2 k)⟩

/-- Key 14 goes over the tombstone in slot 3, its home. -/
theorem hashmapInsert_refines_grave :
    ∃ h', hashmapInsert ((hashmapInit (fun key => (key.headD 0).toNat) 1 1).setTag 3 tagGrave)
        [14] [7] = some h' ∧
      InsertRefines ((hashmapInit (fun key => (key.headD 0).toNat) 1 1).setTag 3 tagGrave)
        [14] [7] h' := by
  have hrep : ((hashmapInit (fun key => (key.headD 0).toNat) 1 1).setTag 3 tagGrave).RepInv := by
    refine repInv_of_no_taken ?_ ?_ ?_ rfl
    · decide
    · unfold Hashmap.TagsOk
      decide +kernel
    · decide +kernel
  have he : ((hashmapInit (fun key => (key.headD 0).toNat) 1 1).setTag 3 tagGrave).HasEmpty :=
    ⟨4, by decide, by decide +kernel⟩
  refine hashmapInsert_refines hrep he (by decide) rfl rfl ?_
  refine (misses_iff_slot hrep rfl he).2 fun i hi v hslot => ?_
  have hno : ∀ i < 11, tagGet ((hashmapInit (fun key => (key.headD 0).toNat) 1 1).setTag 3
      tagGrave).data i ≠ tagTaken := by decide +kernel
  exact hno i hi ((slot_taken_iff hi).1 hslot).1

end NaptRouter
