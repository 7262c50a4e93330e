import NaptRouter.TableInsertion

/-!
# Removal

`hashmap_remove` compares the key with bytes at another address than the one the key was stored
at, reads the tag after the last slot, and sweeps tombstones past slot 0.

* `hashmapRemove_hit` — whatever slot it takes for the key's, that entry is gone and no other.
* `hashmapRemove_refines_iff` — it is map deletion exactly when it takes the right slot for the
  key's, that slot is not the last one, and the sweep stops at a slot.
-/

namespace NaptRouter

open ByteMemory LinearProbing Hashmap

/-! ## What the loops look at -/

namespace Hashmap

/-- To `hashmap_remove`, slot `i` has the key `k`. -/
def LooksLike (h : Hashmap) (k : List UInt8) (i : Nat) : Prop :=
  tagGet h.data i = tagTaken ∧ h.data.read (h.removeKeyPtr i) h.sizeKey = k

instance (h : Hashmap) (k : List UInt8) (i : Nat) : Decidable (h.LooksLike k i) :=
  inferInstanceAs (Decidable (_ ∧ _))

/-- From the home of `k` on, and before any empty slot, `i` is the first slot that looks like
`k`. -/
def RemoveHits (h : Hashmap) (k : List UInt8) (i : Nat) : Prop :=
  ∃ j < h.sizeAllocated, (h.hashFunc k % h.sizeAllocated + j) % h.sizeAllocated = i ∧
    h.LooksLike k i ∧
    ∀ j' < j, tagGet h.data ((h.hashFunc k % h.sizeAllocated + j') % h.sizeAllocated) ≠ tagEmpty ∧
      ¬ h.LooksLike k ((h.hashFunc k % h.sizeAllocated + j') % h.sizeAllocated)

/-- The slot after `i` is empty and below `i` there are tombstones only: a sweep from `i` leaves
the table. -/
def SweepsOut (h : Hashmap) (i : Nat) : Prop :=
  tagGet h.data (i + 1) = tagEmpty ∧ ∀ j < i, tagGet h.data j = tagGrave

/-- Slot `i` ends the first loop of `hashmap_remove`. -/
def removeStops (h : Hashmap) (k : List UInt8) (i : Nat) : Bool :=
  decide (tagGet h.data i = tagEmpty ∨ h.LooksLike k i)

end Hashmap

section RemoveLoop

variable {h : Hashmap} {k : List UInt8} (hk : k.length = h.sizeKey)

include hk

theorem removeLoop_eq (fuel : Nat) {i : Nat} (hi : i < h.sizeAllocated) :
    ∃ touched : List Nat, (∀ q ∈ touched, q < h.sizeAllocated) ∧
      removeLoop h k fuel i = (scan h.sizeAllocated (h.removeStops k) fuel i).map fun r =>
        (if tagGet h.data r = tagEmpty then none else some r, touched) := by
  have htake : k.take h.sizeKey = k := by rw [← hk, List.take_length]
  induction fuel generalizing i with
  | zero => exact ⟨[], by simp, rfl⟩
  | succ fuel ih =>
    simp only [removeLoop, scan, htake]
    by_cases hempty : tagGet h.data i = tagEmpty
    · have hstop : h.removeStops k i = true := decide_eq_true (Or.inl hempty)
      rw [if_pos hempty, if_pos hstop]
      exact ⟨[i], by simpa using hi, by simp [hempty]⟩
    · rw [if_neg hempty]
      by_cases hhit : tagGet h.data i = tagTaken ∧
          h.data.read (h.removeKeyPtr i) h.sizeKey = k
      · have hstop : h.removeStops k i = true := decide_eq_true (Or.inr hhit)
        rw [if_pos hhit, if_pos hstop]
        exact ⟨[i], by simpa using hi, by simp [hempty]⟩
      · have hgo : ¬ h.removeStops k i = true := fun hstop =>
          (of_decide_eq_true hstop).elim hempty hhit
        obtain ⟨touched, hlt, heq⟩ := ih (Nat.mod_lt (i + 1) (by omega))
        rw [if_neg hhit, if_neg hgo, heq]
        refine ⟨i :: touched, List.forall_mem_cons.2 ⟨hi, hlt⟩, ?_⟩
        rw [Option.map_map]
        rfl

variable (hn : 0 < h.sizeAllocated)

include hn

theorem removeLoop_hit {i : Nat} (hhit : h.RemoveHits k i) :
    ∃ touched : List Nat, (∀ q ∈ touched, q < h.sizeAllocated) ∧
      removeLoop h k h.sizeAllocated (h.hashFunc k % h.sizeAllocated) =
        some (some i, touched) := by
  obtain ⟨j, hj, hji, hlooks, hbefore⟩ := hhit
  have hstart : h.hashFunc k % h.sizeAllocated < h.sizeAllocated := Nat.mod_lt _ hn
  have hscan : scan h.sizeAllocated (h.removeStops k) h.sizeAllocated
      (h.hashFunc k % h.sizeAllocated) = some i := by
    refine (scan_eq_some_iff hstart).2 ⟨j, hj, hji, ?_, fun j' hj' => ?_⟩
    · exact decide_eq_true (Or.inr hlooks)
    · exact decide_eq_false (not_or.2 (hbefore j' hj'))
  obtain ⟨touched, hlt, heq⟩ := removeLoop_eq hk h.sizeAllocated hstart
  refine ⟨touched, hlt, ?_⟩
  rw [heq, hscan, Option.map_some, if_neg]
  rw [hlooks.1]
  decide

theorem removeLoop_no_hit (he : h.HasEmpty) (hno : ∀ i, ¬ h.RemoveHits k i) :
    ∃ touched : List Nat, (∀ q ∈ touched, q < h.sizeAllocated) ∧
      removeLoop h k h.sizeAllocated (h.hashFunc k % h.sizeAllocated) = some (none, touched) := by
  have hstart : h.hashFunc k % h.sizeAllocated < h.sizeAllocated := Nat.mod_lt _ hn
  obtain ⟨q, hq, htag⟩ := he
  obtain ⟨r, hr⟩ := exists_scan (p := h.removeStops k) hstart hq (decide_eq_true (Or.inl htag))
  obtain ⟨j, hj, hjr, hstop, hbefore⟩ := (scan_eq_some_iff hstart).1 hr
  have hempty : tagGet h.data r = tagEmpty := by
    refine (of_decide_eq_true hstop).resolve_right fun hlooks => hno r ?_
    exact ⟨j, hj, hjr, hlooks, fun j' hj' => not_or.1 (of_decide_eq_false (hbefore j' hj'))⟩
  obtain ⟨touched, hlt, heq⟩ := removeLoop_eq hk h.sizeAllocated hstart
  exact ⟨touched, hlt, by rw [heq, hr, Option.map_some, if_pos hempty]⟩

end RemoveLoop

/-! ## Giving up slots -/

@[simp] theorem setTag_data (h : Hashmap) (i : Nat) (tag : UInt8) :
    (h.setTag i tag).data = tagSet h.data i tag := rfl

@[simp] theorem bury_data (h : Hashmap) (i : Nat) :
    (h.bury i).data = tagSet h.data i tagGrave := rfl

@[simp] theorem setTag_sizeAllocated (h : Hashmap) (i : Nat) (tag : UInt8) :
    (h.setTag i tag).sizeAllocated = h.sizeAllocated := rfl

/-- What a slot with this tag holds, when it is not taken. -/
def slotOfTag (tag : UInt8) : Slot (List UInt8) (List UInt8) :=
  if tag = tagEmpty then .empty else .grave

/-- Setting the tag of one slot to empty or to a tombstone gives up that slot and leaves all
entries where they are. -/
theorem table_setTag {h : Hashmap} {p : Nat} (hp : p < h.sizeAllocated) {tag : UInt8}
    (htag : tag = tagEmpty ∨ tag = tagGrave) :
    (h.setTag p tag).table = h.table.set p (slotOfTag tag) := by
  have hlt : tag.toNat < 4 := by rcases htag with rfl | rfl <;> decide
  have hslot : (h.setTag p tag).slot = Function.update h.slot p (slotOfTag tag) := by
    funext i
    have hread {off n : Nat} (hoff : h.entriesOff ≤ off) :
        (tagSet h.data p tag).read off n = h.data.read off n := by
      have hbyte := h.tag_byte_lt hp
      exact Mem.read_congr fun a _ => tagSet_apply_of_ne _ _ (by omega)
    have hkeyAt : (h.setTag p tag).keyAt i = h.keyAt i := hread (h.entriesOff_le_keyPtr i)
    have hvalueAt : (h.setTag p tag).valueAt i = h.valueAt i :=
      hread ((h.entriesOff_le_keyPtr i).trans (Nat.le_add_right _ _))
    by_cases hip : i = p
    · subst hip
      rw [Function.update_self, slot, setTag_sizeAllocated, if_pos hp, setTag_data,
        tagGet_tagSet_self _ _ hlt, slotOfTag]
      rcases htag with rfl | rfl <;> simp [tagEmpty, tagTaken, tagGrave]
    · rw [Function.update_of_ne hip, slot, slot, setTag_sizeAllocated, setTag_data,
        tagGet_tagSet_of_ne _ (Ne.symm hip) hlt, hkeyAt, hvalueAt]
  show (⟨h.sizeAllocated, h.hashFunc, (h.setTag p tag).slot⟩ : Table _ _) = _
  rw [hslot]
  rfl

/-- `h'` is `h` without the entry of slot `s`, and perhaps with fewer tombstones up to there. -/
structure GivenUp (h : Hashmap) (s : Nat) (h' : Hashmap) : Prop where
  hashFunc : h'.hashFunc = h.hashFunc
  sizeAllocated : h'.sizeAllocated = h.sizeAllocated
  sizeKey : h'.sizeKey = h.sizeKey
  sizeValue : h'.sizeValue = h.sizeValue
  size : h'.size = h.size - 1
  count : h'.table.count + 1 = h.table.count
  tags : h.TagsOk → h'.TagsOk
  empty : ∀ i < h.sizeAllocated, tagGet h.data i = tagEmpty → tagGet h'.data i = tagEmpty
  slots : ∀ i k v, h'.slot i = .taken k v ↔ i ≠ s ∧ h.slot i = .taken k v
  /-- After the last slot the sweep reads the tag of a slot that does not exist. -/
  reach : h.table.Reach → s + 1 < h.sizeAllocated → h'.table.Reach

theorem tagsOk_setTag {h : Hashmap} (ht : h.TagsOk) (p : Nat) {tag : UInt8}
    (htag : tag = tagEmpty ∨ tag = tagGrave) : (h.setTag p tag).TagsOk := by
  have hlt : tag.toNat < 4 := by rcases htag with rfl | rfl <;> decide
  intro i hi
  rw [setTag_data]
  by_cases hip : i = p
  · subst hip
    rw [tagGet_tagSet_self _ _ hlt]
    exact htag.imp_right Or.inr
  · rw [tagGet_tagSet_of_ne _ (Ne.symm hip) hlt]
    exact ht i hi

theorem givenUp_bury {h : Hashmap} {s : Nat} (hs : s < h.sizeAllocated)
    (htag : tagGet h.data s = tagTaken) :
    GivenUp h s (h.bury s) := by
  have htable : (h.setTag s tagGrave).table = h.table.set s .grave := table_setTag hs (Or.inr rfl)
  have hslot : h.table.slot s = .taken (h.keyAt s) (h.valueAt s) :=
    (slot_taken_iff hs).2 ⟨htag, rfl, rfl⟩
  refine ⟨rfl, rfl, rfl, rfl, rfl, ?_, fun ht => ?_, fun i hi he => ?_, fun i k v => ?_,
    fun hR _ => ?_⟩
  · show (h.setTag s tagGrave).table.count + 1 = _
    rw [htable]
    exact Table.count_set_of_taken hs hslot rfl
  · exact tagsOk_setTag ht s (Or.inr rfl)
  · have hne : s ≠ i := by
      rintro rfl
      rw [htag] at he
      exact absurd he (by decide)
    show tagGet (tagSet h.data s tagGrave) i = _
    rw [tagGet_tagSet_of_ne _ hne (by decide), he]
  · show (h.setTag s tagGrave).table.slot i = _ ↔ _
    rw [htable]
    exact Table.set_slot_taken rfl
  · show (h.setTag s tagGrave).table.Reach
    rw [htable]
    exact Table.reach_set_grave hR s

theorem GivenUp.clear {h h' : Hashmap} {s p : Nat} (hG : GivenUp h s h') (hs : s < h.sizeAllocated)
    (hp : p ≤ s) (hgrave : tagGet h'.data p = tagGrave)
    (hnext : tagGet h'.data (p + 1) = tagEmpty) : GivenUp h s (h'.setTag p tagEmpty) := by
  have hpn : p < h'.sizeAllocated := by rw [hG.sizeAllocated]; omega
  have htable : (h'.setTag p tagEmpty).table = h'.table.set p .empty :=
    table_setTag hpn (Or.inl rfl)
  have hnot (k v : List UInt8) : h'.slot p ≠ .taken k v := by
    intro hslot
    rw [((slot_taken_iff hpn).1 hslot).1] at hgrave
    exact absurd hgrave (by decide)
  refine ⟨hG.hashFunc, hG.sizeAllocated, hG.sizeKey, hG.sizeValue, hG.size, ?_, fun ht => ?_,
    fun i hi he => ?_, fun i k v => ?_, fun hR hlast => ?_⟩
  · rw [htable, Table.count_set_of_free (Table.free_iff.2 hnot) rfl]
    exact hG.count
  · exact tagsOk_setTag (hG.tags ht) p (Or.inl rfl)
  · rw [setTag_data]
    by_cases hip : p = i
    · subst hip
      exact tagGet_tagSet_self _ _ (by decide)
    · rw [tagGet_tagSet_of_ne _ hip (by decide)]
      exact hG.empty i hi he
  · rw [← hG.slots i k v]
    show (h'.setTag p tagEmpty).table.slot i = _ ↔ _
    rw [htable, Table.set_slot_taken rfl]
    refine ⟨fun hc => hc.2, fun hslot => ⟨?_, hslot⟩⟩
    rintro rfl
    exact hnot k v hslot
  · have hn := hG.sizeAllocated
    rw [htable]
    refine Table.reach_set_empty (hG.reach hR hlast) ?_
    have hmod : (p + 1) % h'.sizeAllocated = p + 1 := Nat.mod_eq_of_lt (by omega)
    rw [table_n, hmod]
    exact (slot_empty_iff (by omega)).2 hnext

/-! ## The sweep -/

/-- The sweep goes on downwards as long as it finds tombstones, and gives up nothing else. -/
theorem sweepLoop_givenUp {h : Hashmap} {s : Nat} (hs : s < h.sizeAllocated) {i : Nat}
    (hi : i ≤ s) {h₁ : Hashmap} (hG : GivenUp h s h₁)
    (hnext : tagGet h₁.data (i + 1) = tagEmpty) {h' : Hashmap} {touched : List Nat}
    (hsweep : sweepLoop h₁ i = some (h', touched)) :
    GivenUp h s h' ∧ ∀ q ∈ touched, q ≤ i := by
  induction i generalizing h₁ h' touched with
  | zero =>
    rw [sweepLoop] at hsweep
    split_ifs at hsweep
    obtain ⟨rfl, rfl⟩ := Prod.mk.inj (Option.some.inj hsweep)
    exact ⟨hG, by simp⟩
  | succ i ih =>
    rw [sweepLoop] at hsweep
    split_ifs at hsweep with hgrave
    · obtain ⟨⟨h₂, swept⟩, hrest, heq⟩ := Option.map_eq_some_iff.1 hsweep
      obtain ⟨rfl, rfl⟩ := Prod.mk.inj heq
      obtain ⟨hG', hle⟩ := ih (by omega) (hG.clear hs hi hgrave hnext)
        (tagGet_tagSet_self _ _ (by decide)) hrest
      exact ⟨hG', List.forall_mem_cons.2 ⟨le_rfl, fun q hq => (hle q hq).trans (Nat.le_succ i)⟩⟩
    · obtain ⟨rfl, rfl⟩ := Prod.mk.inj (Option.some.inj hsweep)
      exact ⟨hG, by simp⟩

/-- It stays in the table if it finds something else than tombstones. -/
theorem sweepLoop_eq_none_iff {h : Hashmap} {i : Nat} :
    sweepLoop h i = none ↔ ∀ j ≤ i, tagGet h.data j = tagGrave := by
  induction i generalizing h with
  | zero =>
    rw [sweepLoop]
    simp
  | succ i ih =>
    have hbelow {j : Nat} (hj : j ≤ i) :
        tagGet (h.setTag (i + 1) tagEmpty).data j = tagGet h.data j :=
      tagGet_tagSet_of_ne _ (by omega) (by decide)
    rw [sweepLoop]
    split_ifs with hgrave
    · rw [Option.map_eq_none_iff, ih]
      refine ⟨fun hall j hj => ?_, fun hall j hj => (hbelow hj).trans (hall j (by omega))⟩
      rcases Nat.lt_or_eq_of_le hj with hlt | rfl
      · exact (hbelow (Nat.le_of_lt_succ hlt)).symm.trans (hall j (Nat.le_of_lt_succ hlt))
      · exact hgrave
    · refine ⟨fun hc => absurd hc (by simp), fun hall => absurd (hall (i + 1) le_rfl) hgrave⟩

/-! ## `hashmap_remove` -/

section Remove

variable {h : Hashmap} (hn : 0 < h.sizeAllocated) {k : List UInt8} (hk : k.length = h.sizeKey)

include hn hk

theorem hashmapRemove_no_hit (he : h.HasEmpty) (hno : ∀ i, ¬ h.RemoveHits k i) :
    ∃ touched : List Nat, hashmapRemove h k = some (h, touched) ∧
      ∀ q ∈ touched, q < h.sizeAllocated := by
  have htake : k.take h.sizeKey = k := by rw [← hk, List.take_length]
  obtain ⟨touched, hlt, heq⟩ := removeLoop_no_hit hk hn he hno
  refine ⟨touched, ?_, hlt⟩
  simp only [hashmapRemove, htake, heq, bind, Option.bind_some]

theorem hashmapRemove_eq_of_hit {s : Nat} (hhit : h.RemoveHits k s) :
    ∃ touched : List Nat, (∀ q ∈ touched, q < h.sizeAllocated) ∧
      hashmapRemove h k =
        if tagGet h.data (s + 1) = tagEmpty then
          (sweepLoop (h.bury s) s).map
            (Prod.map id (touched ++ [s, s + 1] ++ ·))
        else some (h.bury s, touched ++ [s, s + 1]) := by
  have htake : k.take h.sizeKey = k := by rw [← hk, List.take_length]
  obtain ⟨touched, hlt, heq⟩ := removeLoop_hit hk hn hhit
  refine ⟨touched, hlt, ?_⟩
  have hafter : tagGet (tagSet h.data s tagGrave) (s + 1) = tagGet h.data (s + 1) :=
    tagGet_tagSet_of_ne _ (by omega) (by decide)
  simp only [hashmapRemove, htake, heq, bind, Option.bind_some, bury_data, hafter]
  split_ifs
  · rw [Option.map_eq_bind]
    rfl
  · rfl

/-- The call leaves the block if the sweep goes past slot 0. -/
theorem hashmapRemove_eq_none_iff {s : Nat} (hhit : h.RemoveHits k s) :
    hashmapRemove h k = none ↔ h.SweepsOut s := by
  obtain ⟨touched, -, heq⟩ := hashmapRemove_eq_of_hit hn hk hhit
  have hbelow (j : Nat) (hj : j < s) :
      tagGet (tagSet h.data s tagGrave) j = tagGet h.data j :=
    tagGet_tagSet_of_ne _ (by omega) (by decide)
  rw [heq, SweepsOut]
  split_ifs with hnext
  · rw [Option.map_eq_none_iff, sweepLoop_eq_none_iff]
    refine ⟨fun hall => ⟨hnext, fun j hj => ?_⟩, fun hout j hj => ?_⟩
    · exact (hbelow j hj).symm.trans (hall j hj.le)
    · rcases Nat.lt_or_eq_of_le hj with hlt | rfl
      · exact (hbelow j hlt).trans (hout.2 j hlt)
      · exact tagGet_tagSet_self _ _ (by decide)
  · exact ⟨fun hc => absurd hc (by simp), fun hout => absurd hout.1 hnext⟩

/-- **Whatever slot looks like the key, its entry goes and no other**; the tag after that slot is
read too. -/
theorem hashmapRemove_hit {s : Nat} (hhit : h.RemoveHits k s) {h' : Hashmap}
    {touched : List Nat} (hrem : hashmapRemove h k = some (h', touched)) :
    GivenUp h s h' ∧ s + 1 ∈ touched ∧ ∀ q ∈ touched, q < h.sizeAllocated ∨ q = s + 1 := by
  have hs : s < h.sizeAllocated := by
    obtain ⟨j, -, rfl, -⟩ := hhit
    exact Nat.mod_lt _ hn
  have htaken : tagGet h.data s = tagTaken := by
    obtain ⟨j, -, -, hlooks, -⟩ := hhit
    exact hlooks.1
  have hbury := givenUp_bury hs htaken
  obtain ⟨probed, hlt, heq⟩ := hashmapRemove_eq_of_hit hn hk hhit
  rw [heq] at hrem
  split_ifs at hrem with hnext
  · obtain ⟨⟨h₂, swept⟩, hsweep, heq₂⟩ := Option.map_eq_some_iff.1 hrem
    obtain ⟨rfl, rfl⟩ := Prod.mk.inj heq₂
    obtain ⟨hG, hle⟩ := sweepLoop_givenUp hs le_rfl hbury
      ((tagGet_tagSet_of_ne _ (by omega) (by decide)).trans hnext) hsweep
    refine ⟨hG, by simp, fun q hq => ?_⟩
    simp only [List.append_assoc, List.mem_append, List.mem_cons, List.not_mem_nil,
      or_false] at hq
    rcases hq with hq | (rfl | rfl) | hq
    · exact Or.inl (hlt q hq)
    · exact Or.inl hs
    · exact Or.inr rfl
    · exact Or.inl ((hle q hq).trans_lt hs)
  · obtain ⟨rfl, rfl⟩ := Prod.mk.inj (Option.some.inj hrem)
    refine ⟨hbury, by simp, fun q hq => ?_⟩
    simp only [List.mem_append, List.mem_cons, List.not_mem_nil, or_false] at hq
    rcases hq with hq | rfl | rfl
    · exact Or.inl (hlt q hq)
    · exact Or.inl hs
    · exact Or.inr rfl

end Remove

/-! ## When removal is deletion -/

/-- `h'` is `h` without the key `k`, and the call has touched tags of slots only. -/
structure RemoveRefines (h : Hashmap) (k : List UInt8) (h' : Hashmap) (touched : List Nat) :
    Prop where
  touched : ∀ q ∈ touched, q < h.sizeAllocated
  gone : h'.Misses k
  others : ∀ k', k'.length = h.sizeKey → k' ≠ k → ∀ w, h'.Finds k' w ↔ h.Finds k' w
  size : h'.size + 1 = h.size ↔ ∃ v, h.Finds k v
  repInv : h'.RepInv

/-- The slot that looks like `k` is the one that holds it, it is not the last one, and a sweep
from it stops at a slot. -/
def RemoveSafe (h : Hashmap) (k : List UInt8) : Prop :=
  (∀ i < h.sizeAllocated, h.RemoveHits k i ↔ ∃ v, h.slot i = .taken k v) ∧
    ∀ i < h.sizeAllocated, h.RemoveHits k i → i + 1 < h.sizeAllocated ∧ ¬ h.SweepsOut i

section Refines

variable {h : Hashmap} (hrep : h.RepInv) (he : h.HasEmpty) {k : List UInt8}
  (hk : k.length = h.sizeKey)

theorem Hashmap.RemoveHits.taken {s : Nat} (hn : 0 < h.sizeAllocated) (hhit : h.RemoveHits k s) :
    s < h.sizeAllocated ∧ h.slot s = .taken (h.keyAt s) (h.valueAt s) := by
  obtain ⟨j, -, rfl, hlooks, -⟩ := hhit
  have hs := Nat.mod_lt (h.hashFunc k % h.sizeAllocated + j) hn
  exact ⟨hs, (slot_taken_iff hs).2 ⟨hlooks.1, rfl, rfl⟩⟩

include hrep

theorem GivenUp.repInv {s : Nat} {h' : Hashmap} (hG : GivenUp h s h')
    (hlast : s + 1 < h.sizeAllocated) : h'.RepInv := by
  have hsize := hrep.size_eq
  have hcount := hG.count
  refine ⟨⟨hG.sizeAllocated ▸ hrep.pos, hG.tags hrep.tags, hG.reach hrep.reach hlast, ?_⟩, ?_⟩
  · rw [hG.size]
    omega
  · intro i hi j hj k v w hslot hslot'
    rw [hG.sizeAllocated] at hi hj
    exact hrep.distinct i hi j hj k v w ((hG.slots i k v).1 hslot).2 ((hG.slots j k w).1 hslot').2

theorem RemoveRefines.slot {s : Nat} {h' : Hashmap} {touched : List Nat} (hG : GivenUp h s h')
    (hR : RemoveRefines h k h' touched) (hs : s < h.sizeAllocated)
    (hslot : h.slot s = .taken (h.keyAt s) (h.valueAt s)) : h.keyAt s = k := by
  by_contra hne
  have hlen : (h.keyAt s).length = h.sizeKey := by simp [keyAt]
  have hfound := (hR.others _ hlen hne (h.valueAt s)).2
    ((finds_iff_slot hrep hlen).2 ⟨s, hs, hslot⟩)
  obtain ⟨i, hi, hslot'⟩ := (finds_iff_slot hR.repInv (hlen.trans hG.sizeKey.symm)).1 hfound
  obtain ⟨his, hold⟩ := (hG.slots i _ _).1 hslot'
  exact his (hrep.distinct i (hG.sizeAllocated ▸ hi) s hs _ _ _ hold hslot)

include he hk

theorem GivenUp.refines {s : Nat} {h' : Hashmap} (hG : GivenUp h s h') {v : List UInt8}
    (hs : s < h.sizeAllocated) (hslot : h.slot s = .taken k v)
    (hlast : s + 1 < h.sizeAllocated) {touched : List Nat}
    (htouched : ∀ q ∈ touched, q < h.sizeAllocated) : RemoveRefines h k h' touched := by
  have hrep' := hG.repInv hrep hlast
  have he' : h'.HasEmpty := by
    obtain ⟨q, hq, htag⟩ := he
    exact ⟨q, hG.sizeAllocated ▸ hq, hG.empty q hq htag⟩
  refine ⟨htouched, ?_, fun k' hk' hne w => ?_, ?_, hrep'⟩
  · refine (misses_iff_slot hrep' (hk.trans hG.sizeKey.symm) he').2 fun i hi w hslot' => ?_
    obtain ⟨his, hold⟩ := (hG.slots i k w).1 hslot'
    exact his (hrep.distinct i (hG.sizeAllocated ▸ hi) s hs k w v hold hslot)
  · rw [finds_iff_slot hrep' (hk'.trans hG.sizeKey.symm), finds_iff_slot hrep hk',
      hG.sizeAllocated]
    refine exists_congr fun i => and_congr_right fun _ => ?_
    rw [hG.slots i k' w]
    refine ⟨fun hc => hc.2, fun hold => ⟨?_, hold⟩⟩
    rintro rfl
    rw [hslot, Slot.taken.injEq] at hold
    exact hne hold.1.symm
  · have hsize := hrep.size_eq
    have hcount := hG.count
    refine ⟨fun _ => ⟨v, (finds_iff_slot hrep hk).2 ⟨s, hs, hslot⟩⟩, fun _ => ?_⟩
    rw [hG.size]
    omega

theorem refines_iff_of_hit {s : Nat} (hhit : h.RemoveHits k s) :
    (∃ h' touched, hashmapRemove h k = some (h', touched) ∧ RemoveRefines h k h' touched) ↔
      RemoveSafe h k := by
  have hn := hrep.pos
  obtain ⟨hs, hslot⟩ := hhit.taken hn
  constructor
  · intro hrefines
    obtain ⟨h', touched, hrem, hR⟩ := hrefines
    obtain ⟨hG, hafter, -⟩ := hashmapRemove_hit hn hk hhit hrem
    have hkey := hR.slot hrep hG hs hslot
    rw [hkey] at hslot
    -- The search is a function of the table, so it stops at one slot only.
    have hone {i : Nat} (hhit' : h.RemoveHits k i) : i = s := by
      obtain ⟨t, -, heq⟩ := removeLoop_hit hk hn hhit
      obtain ⟨t', -, heq'⟩ := removeLoop_hit hk hn hhit'
      rw [heq] at heq'
      exact (Option.some.inj (Prod.mk.inj (Option.some.inj heq')).1).symm
    refine ⟨fun i hi => ⟨fun hhit' => ?_, fun hex => ?_⟩, fun i _ hhit' => ?_⟩
    · rw [hone hhit']
      exact ⟨_, hslot⟩
    · obtain ⟨w, hslot'⟩ := hex
      rw [hrep.distinct i hi s hs k w _ hslot' hslot]
      exact hhit
    · rw [hone hhit']
      refine ⟨hR.touched _ hafter, fun hout => ?_⟩
      rw [(hashmapRemove_eq_none_iff hn hk hhit).2 hout] at hrem
      cases hrem
  · intro hsafe
    obtain ⟨v, hkv⟩ := (hsafe.1 s hs).1 hhit
    obtain ⟨hlast, hstays⟩ := hsafe.2 s hs hhit
    cases hrem : hashmapRemove h k with
    | none => exact absurd ((hashmapRemove_eq_none_iff hn hk hhit).1 hrem) hstays
    | some out =>
      obtain ⟨h', touched⟩ := out
      obtain ⟨hG, -, htouched⟩ := hashmapRemove_hit hn hk hhit hrem
      refine ⟨h', touched, rfl, hG.refines hrep he hk hs hkv hlast fun q hq => ?_⟩
      rcases htouched q hq with hlt | rfl
      · exact hlt
      · exact hlast

theorem refines_iff_of_no_hit (hhits : ∀ i, ¬ h.RemoveHits k i) :
    (∃ h' touched, hashmapRemove h k = some (h', touched) ∧ RemoveRefines h k h' touched) ↔
      RemoveSafe h k := by
  have hn := hrep.pos
  obtain ⟨touched, hrem, htouched⟩ := hashmapRemove_no_hit hn hk he hhits
  constructor
  · intro hrefines
    obtain ⟨h', touched', hrem', hR⟩ := hrefines
    rw [hrem, Option.some.injEq, Prod.mk.injEq] at hrem'
    obtain ⟨rfl, rfl⟩ := hrem'
    have habs := (misses_iff_slot hrep hk he).1 hR.gone
    refine ⟨fun i hi => ⟨fun hhit => absurd hhit (hhits i), fun hex => ?_⟩,
      fun i _ hhit => absurd hhit (hhits i)⟩
    obtain ⟨v, hslot⟩ := hex
    exact absurd hslot (habs i hi v)
  · intro hsafe
    have habs (i : Nat) (hi : i < h.sizeAllocated) (v : List UInt8) :
        h.slot i ≠ .taken k v := fun hslot => hhits i ((hsafe.1 i hi).2 ⟨v, hslot⟩)
    refine ⟨h, touched, hrem, htouched, (misses_iff_slot hrep hk he).2 habs,
      fun _ _ _ _ => Iff.rfl, ⟨fun hc => absurd hc (by omega), fun hfound => ?_⟩, hrep⟩
    obtain ⟨v, hfinds⟩ := hfound
    obtain ⟨i, hi, hslot⟩ := (finds_iff_slot hrep hk).1 hfinds
    exact absurd hslot (habs i hi v)

/-- **When `hashmap_remove` is map deletion**: exactly when it takes the right slot for the
key's, that slot is not the last one, and the sweep stops at a slot. -/
theorem hashmapRemove_refines_iff :
    (∃ h' touched, hashmapRemove h k = some (h', touched) ∧ RemoveRefines h k h' touched) ↔
      RemoveSafe h k := by
  by_cases hhits : ∃ s, h.RemoveHits k s
  · obtain ⟨s, hhit⟩ := hhits
    exact refines_iff_of_hit hrep he hk hhit
  · exact refines_iff_of_no_hit hrep he hk (not_exists.1 hhits)

end Refines

/-- The value in slot 0 is where `hashmap_remove` expects the key of slot 2. -/
theorem hashmapRemove_refines_lucky :
    ∃ h₁ h₂, hashmapInsert (hashmapInit (fun key => (key.headD 0).toNat) 1 1) [0] [2] = some h₁ ∧
      hashmapInsert h₁ [2] [9] = some h₂ ∧
      ∃ h' touched, hashmapRemove h₂ [2] = some (h', touched) ∧
        RemoveRefines h₂ [2] h' touched := by
  obtain ⟨p, -, hins, hrep, -⟩ := hashmapInsert_put (hashmapInit_repInv _ 1 1)
    (hashmapInit_hasEmpty (fun key => (key.headD 0).toNat) 1 1) (by decide) (k := [0]) (v := [2])
    rfl rfl (hashmapInit_misses _ 1 rfl)
  have htest : ((hashmapInsert (hashmapInit (fun key => (key.headD 0).toNat) 1 1) [0] [2]).any
      fun h => decide ((1 < h.sizeAllocated ∧ tagGet h.data 1 = tagEmpty) ∧
        h.size < h.sizeAllocated / 2 ∧
        ∀ i < h.sizeAllocated, tagGet h.data i = tagTaken → h.keyAt i ≠ [2])) = true := by
    decide +kernel
  rw [hins, Option.any_some] at htest
  obtain ⟨he, hroom, habs⟩ := of_decide_eq_true htest
  -- No slot holds the key 2, so the second insertion puts it into a free one.
  obtain ⟨p', -, hins', hrep', -⟩ := hashmapInsert_put hrep ⟨1, he⟩ hroom (k := [2]) (v := [9])
    rfl rfl ((misses_iff_slot hrep rfl ⟨1, he⟩).2 fun i hi v hslot =>
      habs i hi ((slot_taken_iff hi).1 hslot).1 ((slot_taken_iff hi).1 hslot).2.1)
  have htest' : (((hashmapInsert (hashmapInit (fun key => (key.headD 0).toNat) 1 1) [0] [2]).bind
      fun h => hashmapInsert h [2] [9]).any fun h => decide
        ((1 < h.sizeAllocated ∧ tagGet h.data 1 = tagEmpty) ∧
        (2 + 1 < h.sizeAllocated ∧ tagGet h.data 0 ≠ tagGrave ∧
          (h.hashFunc [2] % h.sizeAllocated + 0) % h.sizeAllocated = 2) ∧
        (h.LooksLike [2] 2 ∧ ∀ i < h.sizeAllocated, h.LooksLike [2] i → i = 2) ∧
        (tagGet h.data 2 = tagTaken ∧ h.keyAt 2 = [2]) ∧
        ∀ i < h.sizeAllocated, tagGet h.data i = tagTaken → h.keyAt i = [2] → i = 2)) = true := by
    decide +kernel
  rw [hins, Option.bind_some, hins', Option.any_some] at htest'
  obtain ⟨he', ⟨hlast, hzero, hhome⟩, ⟨hlooks, honly⟩, htwo, hone⟩ := of_decide_eq_true htest'
  refine ⟨_, _, hins, hins', (hashmapRemove_refines_iff hrep' ⟨1, he'⟩ rfl).2 ⟨fun i hi => ?_, ?_⟩⟩
  · constructor
    · intro hhit
      obtain ⟨j, -, rfl, hl, -⟩ := hhit
      rw [honly _ hi hl]
      exact ⟨_, (slot_taken_iff (by omega)).2 ⟨htwo.1, htwo.2, rfl⟩⟩
    · intro hex
      obtain ⟨v, hslot⟩ := hex
      obtain ⟨htag, hkey, -⟩ := (slot_taken_iff hi).1 hslot
      rw [hone i hi htag hkey]
      exact ⟨0, hrep'.pos, hhome, hlooks, fun j' hj' => absurd hj' (by omega)⟩
  · intro i hi hhit
    obtain ⟨j, -, rfl, hl, -⟩ := hhit
    rw [honly _ hi hl]
    exact ⟨hlast, fun hout => hzero (hout.2 0 (by decide))⟩

/-- One entry, found by `hashmap_get` but not by `hashmap_remove`: it compares the key with the
byte at address 7, which is in slot 2. -/
theorem hashmapRemove_refines_fails :
    ∃ h touched, hashmapInsert (hashmapInit (fun key => (key.headD 0).toNat) 1 1) [5] [7] = some h ∧
      h.RepInv ∧ h.HasEmpty ∧ hashmapRemove h [5] = some (h, touched) ∧ h.Finds [5] [7] ∧
      ¬ ∃ h' touched, hashmapRemove h [5] = some (h', touched) ∧
        RemoveRefines h [5] h' touched := by
  obtain ⟨p, -, hins, hrep, -⟩ := hashmapInsert_put (hashmapInit_repInv _ 1 1)
    (hashmapInit_hasEmpty (fun key => (key.headD 0).toNat) 1 1) (by decide) (k := [5]) (v := [7])
    rfl rfl (hashmapInit_misses _ 1 rfl)
  have htest : ((hashmapInsert (hashmapInit (fun key => (key.headD 0).toNat) 1 1) [5] [7]).any
      fun h => decide (h.sizeAllocated = 11 ∧ tagGet h.data 0 = tagEmpty ∧
        (∀ i < h.sizeAllocated, ¬ h.LooksLike [5] i) ∧ tagGet h.data 5 = tagTaken ∧
        h.keyAt 5 = [5] ∧ h.valueAt 5 = [7])) = true := by decide +kernel
  rw [hins, Option.any_some] at htest
  obtain ⟨hn, hempty, hlooks, hslot⟩ := of_decide_eq_true htest
  have he : (fillSlot (hashmapInit (fun key => (key.headD 0).toNat) 1 1) (.ext [5]) (.ext [7])
      p).HasEmpty := ⟨0, hrep.pos, hempty⟩
  have hfinds := (finds_iff_slot hrep (k := [5]) (v := [7]) rfl).2
    ⟨5, hn ▸ (by decide : 5 < 11), (slot_taken_iff (hn ▸ (by decide : 5 < 11))).2 hslot⟩
  obtain ⟨touched, hrem, -⟩ := hashmapRemove_no_hit hrep.pos (k := [5]) rfl he fun i hhit => by
    obtain ⟨j, -, rfl, hl, -⟩ := hhit
    exact hlooks _ (Nat.mod_lt _ hrep.pos) hl
  refine ⟨_, touched, hins, hrep, he, hrem, hfinds, ?_⟩
  rintro ⟨h', touched', hrem', hR⟩
  rw [hrem, Option.some.injEq, Prod.mk.injEq] at hrem'
  obtain ⟨rfl, rfl⟩ := hrem'
  obtain ⟨ptr, h₁, hget, -⟩ := hfinds
  obtain ⟨h₂, hnull⟩ := hR.gone
  rw [hget] at hnull
  cases hnull

end NaptRouter
