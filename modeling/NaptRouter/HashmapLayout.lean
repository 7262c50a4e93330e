import NaptRouter.Hashmap

/-!
# The hash map's memory as a table of slots

The block of `hashmap.c` read as a linear-probing table: slot `i` is the two-bit tag `i` and
the entry at `key_ptr`. Writing one slot's tag or entry leaves every other slot as it was
(`table_fillSlot`), so the insertion and lookup loops are the scans of `LinearProbing`.
-/

namespace NaptRouter

open ByteMemory LinearProbing

/-! ## Tags -/

/-- The mask that clears field `a` keeps field `b`. -/
private theorem mask_other : ∀ a < 4, ∀ b < 4, a ≠ b →
    (~~~((0x03 : UInt8) <<< UInt8.ofNat (a * 2)) >>> UInt8.ofNat (b * 2)) &&& 0x03 = 0x03 := by
  decide

/-- A tag shifted to field `a` has nothing in field `b`. -/
private theorem shift_other : ∀ a < 4, ∀ b < 4, a ≠ b → ∀ t < 4,
    ((UInt8.ofNat t <<< UInt8.ofNat (a * 2)) >>> UInt8.ofNat (b * 2)) &&& 0x03 = 0 := by
  decide

private theorem mask_self : ∀ a < 4,
    (~~~((0x03 : UInt8) <<< UInt8.ofNat (a * 2)) >>> UInt8.ofNat (a * 2)) &&& 0x03 = 0 := by
  decide

private theorem shift_self : ∀ a < 4, ∀ t < 4,
    ((UInt8.ofNat t <<< UInt8.ofNat (a * 2)) >>> UInt8.ofNat (a * 2)) &&& 0x03 =
      UInt8.ofNat t := by
  decide

private theorem field_of_masked (d n s b : UInt8) :
    (((d &&& n) ||| s) >>> b) &&& 0x03 =
      ((d >>> b) &&& ((n >>> b) &&& 0x03)) ||| ((s >>> b) &&& 0x03) := by
  rw [UInt8.shiftRight_or, UInt8.shiftRight_and]
  apply UInt8.toBitVec_inj.1
  simp only [UInt8.toBitVec_and, UInt8.toBitVec_or, BitVec.and_or_distrib_right, BitVec.and_assoc]

private theorem ofNat_toNat_tag {tag : UInt8} (ht : tag.toNat < 4) :
    ∃ t < 4, tag = UInt8.ofNat t :=
  ⟨tag.toNat, ht, by simp⟩

theorem tagGet_tagSet_self (data : Mem) (i : Nat) {tag : UInt8} (ht : tag.toNat < 4) :
    tagGet (tagSet data i tag) i = tag := by
  obtain ⟨t, hlt, rfl⟩ := ofNat_toNat_tag ht
  have ha : i % 4 < 4 := Nat.mod_lt _ (by decide)
  rw [tagGet, tagSet, Function.update_self, field_of_masked, mask_self _ ha, shift_self _ ha t hlt]
  simp

theorem tagGet_tagSet_of_ne (data : Mem) {i j : Nat} (hij : i ≠ j) {tag : UInt8}
    (ht : tag.toNat < 4) : tagGet (tagSet data i tag) j = tagGet data j := by
  obtain ⟨t, hlt, rfl⟩ := ofNat_toNat_tag ht
  by_cases hbyte : j / 4 = i / 4
  · -- The same byte, another field of it.
    have ha : i % 4 < 4 := Nat.mod_lt _ (by decide)
    have hb : j % 4 < 4 := Nat.mod_lt _ (by decide)
    have hne : i % 4 ≠ j % 4 := by omega
    rw [tagGet, tagGet, tagSet, hbyte, Function.update_self, field_of_masked,
      mask_other _ ha _ hb hne, shift_other _ ha _ hb hne t hlt]
    simp
  · rw [tagGet, tagGet, tagSet, Function.update_of_ne hbyte]

theorem tagSet_apply_of_ne (data : Mem) {i a : Nat} (tag : UInt8) (h : a ≠ i / 4) :
    tagSet data i tag a = data a :=
  Function.update_of_ne h _ _

theorem tagGet_congr {data data' : Mem} {i : Nat} (h : data (i / 4) = data' (i / 4)) :
    tagGet data i = tagGet data' i := by
  rw [tagGet, tagGet, h]

/-! ## Entries -/

namespace Hashmap

/-- The key bytes of slot `i`. -/
def keyAt (h : Hashmap) (i : Nat) : List UInt8 := h.data.read (h.keyPtr i) h.sizeKey

/-- The value bytes of slot `i`. -/
def valueAt (h : Hashmap) (i : Nat) : List UInt8 := h.data.read (h.valuePtr i) h.sizeValue

/-- Slot `i` of the table; there is nothing beyond the last one. -/
def slot (h : Hashmap) (i : Nat) : Slot (List UInt8) (List UInt8) :=
  if i < h.sizeAllocated then
    if tagGet h.data i = tagEmpty then .empty
    else if tagGet h.data i = tagTaken then .taken (h.keyAt i) (h.valueAt i)
    else .grave
  else .empty

/-- The table that the memory represents. -/
def table (h : Hashmap) : Table (List UInt8) (List UInt8) where
  n := h.sizeAllocated
  hash := h.hashFunc
  slot := h.slot

/-- The value stored for a key. -/
def lookup (h : Hashmap) (key : List UInt8) : Option (List UInt8) := h.table.lookup key

@[simp] theorem table_n (h : Hashmap) : h.table.n = h.sizeAllocated := rfl

@[simp] theorem table_start (h : Hashmap) (k : List UInt8) :
    h.table.start k = h.hashFunc k % h.sizeAllocated := rfl

theorem tag_byte_lt (h : Hashmap) {i : Nat} (hi : i < h.sizeAllocated) :
    i / 4 < h.entriesOff := by
  simp only [entriesOff]
  omega

theorem entriesOff_le_keyPtr (h : Hashmap) (i : Nat) : h.entriesOff ≤ h.keyPtr i :=
  Nat.le_add_right _ _

theorem keyPtr_disjoint (h : Hashmap) {i j : Nat} (hij : i ≠ j) :
    h.keyPtr i + (h.sizeValue + h.sizeKey) ≤ h.keyPtr j ∨
      h.keyPtr j + (h.sizeValue + h.sizeKey) ≤ h.keyPtr i := by
  have hmul (a b : Nat) (hab : a < b) :
      (h.sizeValue + h.sizeKey) * a + (h.sizeValue + h.sizeKey) ≤
        (h.sizeValue + h.sizeKey) * b := by
    rw [← Nat.mul_succ]
    exact Nat.mul_le_mul_left _ hab
  simp only [keyPtr]
  rcases Nat.lt_or_gt_of_ne hij with hlt | hlt
  · left
    have := hmul i j hlt
    omega
  · right
    have := hmul j i hlt
    omega

end Hashmap

open Hashmap

theorem slot_empty_iff {h : Hashmap} {i : Nat} (hi : i < h.sizeAllocated) :
    h.slot i = .empty ↔ tagGet h.data i = tagEmpty := by
  rw [slot, if_pos hi]
  split_ifs <;> simp_all

theorem slot_taken_iff {h : Hashmap} {i : Nat} (hi : i < h.sizeAllocated)
    {k v : List UInt8} :
    h.slot i = .taken k v ↔ tagGet h.data i = tagTaken ∧ h.keyAt i = k ∧ h.valueAt i = v := by
  rw [slot, if_pos hi]
  split_ifs with h₀ h₁
  · simp [h₀, tagEmpty, tagTaken]
  · simp [h₁]
  · simp [h₁]

/-! ## Filling a slot -/

/-- The bytes `fillSlot` stores as the key. -/
def Src.keyBytes (key : Src) (h : Hashmap) : List UInt8 := key.read h.data h.sizeKey

/-- The bytes `fillSlot` stores as the value: read once the key has been written. -/
def Src.valueBytes (key value : Src) (h : Hashmap) (p : Nat) : List UInt8 :=
  value.read (h.data.write (h.keyPtr p) (key.keyBytes h)) h.sizeValue

@[simp] theorem fillSlot_entriesOff (h : Hashmap) (key value : Src) (p : Nat) :
    (fillSlot h key value p).entriesOff = h.entriesOff := rfl

theorem fillSlot_data (h : Hashmap) (key value : Src) (p : Nat) :
    (fillSlot h key value p).data =
      tagSet ((h.data.write (h.keyPtr p) (key.keyBytes h)).write (h.valuePtr p)
        (key.valueBytes value h p)) p tagTaken := rfl

section FillSlot

variable {h : Hashmap} {key value : Src} {p : Nat}

/-- `fillSlot` changes one tag and no other. -/
theorem tagGet_fillSlot {i : Nat} (hi : i < h.sizeAllocated) :
    tagGet (fillSlot h key value p).data i = if i = p then tagTaken else tagGet h.data i := by
  rw [fillSlot_data]
  split_ifs with hip
  · subst hip
    exact tagGet_tagSet_self _ _ (by decide)
  · rw [tagGet_tagSet_of_ne _ (Ne.symm hip) (by decide)]
    have hbyte := h.tag_byte_lt hi
    have hoff := h.entriesOff_le_keyPtr p
    have hval : h.keyPtr p ≤ h.valuePtr p := Nat.le_add_right _ _
    refine tagGet_congr ?_
    rw [Mem.write_apply_of_lt _ _ (by omega), Mem.write_apply_of_lt _ _ (by omega)]

variable (hp : p < h.sizeAllocated) (hkey : (key.keyBytes h).length = h.sizeKey)
  (hvalue : (key.valueBytes value h p).length = h.sizeValue)

include hp

/-- What `fillSlot` leaves of a run of bytes among the entries. -/
theorem read_fillSlot {off n : Nat} (hoff : h.entriesOff ≤ off) :
    (fillSlot h key value p).data.read off n =
      ((h.data.write (h.keyPtr p) (key.keyBytes h)).write (h.valuePtr p)
        (key.valueBytes value h p)).read off n := by
  rw [fillSlot_data]
  have hbyte := h.tag_byte_lt hp
  exact Mem.read_congr fun i _ => tagSet_apply_of_ne _ _ (by omega)

include hkey in
theorem keyAt_fillSlot_self : (fillSlot h key value p).keyAt p = key.keyBytes h := by
  show (fillSlot h key value p).data.read (h.keyPtr p) h.sizeKey = _
  rw [read_fillSlot hp (h.entriesOff_le_keyPtr p),
    Mem.read_write_disjoint _ _ (Or.inl (by simp [valuePtr]))]
  have := Mem.read_write_same h.data (h.keyPtr p) (key.keyBytes h)
  rwa [hkey] at this

include hvalue in
theorem valueAt_fillSlot_self :
    (fillSlot h key value p).valueAt p = key.valueBytes value h p := by
  show (fillSlot h key value p).data.read (h.valuePtr p) h.sizeValue = _
  have hoff : h.entriesOff ≤ h.valuePtr p :=
    (h.entriesOff_le_keyPtr p).trans (Nat.le_add_right _ _)
  rw [read_fillSlot hp hoff]
  have := Mem.read_write_same (h.data.write (h.keyPtr p) (key.keyBytes h)) (h.valuePtr p)
    (key.valueBytes value h p)
  rwa [hvalue] at this

include hkey hvalue

theorem read_fillSlot_of_ne {i off n : Nat} (hip : i ≠ p) (hlo : h.keyPtr i ≤ off)
    (hhi : off + n ≤ h.keyPtr i + (h.sizeValue + h.sizeKey)) :
    (fillSlot h key value p).data.read off n = h.data.read off n := by
  have hdis := h.keyPtr_disjoint hip
  have hval : h.valuePtr p = h.keyPtr p + h.sizeKey := rfl
  rw [read_fillSlot hp ((h.entriesOff_le_keyPtr i).trans hlo),
    Mem.read_write_disjoint _ _ (by omega), Mem.read_write_disjoint _ _ (by omega)]

/-- **Filling a slot is putting the key and the value into it**, and nothing else. -/
theorem table_fillSlot : (fillSlot h key value p).table =
    h.table.put p (key.keyBytes h) (key.valueBytes value h p) := by
  have hslot : (fillSlot h key value p).slot =
      Function.update h.slot p (.taken (key.keyBytes h) (key.valueBytes value h p)) := by
    funext i
    by_cases hip : i = p
    · subst hip
      rw [Function.update_self, slot_taken_iff (h := fillSlot h key value i) hp]
      exact ⟨by rw [tagGet_fillSlot hp, if_pos rfl], keyAt_fillSlot_self hp hkey,
        valueAt_fillSlot_self hp hvalue⟩
    · rw [Function.update_of_ne hip]
      by_cases hi : i < h.sizeAllocated
      · have hkeyAt : (fillSlot h key value p).keyAt i = h.keyAt i :=
          read_fillSlot_of_ne hp hkey hvalue hip le_rfl
            (show h.keyPtr i + h.sizeKey ≤ _ by omega)
        have hvalueAt : (fillSlot h key value p).valueAt i = h.valueAt i :=
          read_fillSlot_of_ne hp hkey hvalue hip (Nat.le_add_right _ _)
            (show h.keyPtr i + h.sizeKey + h.sizeValue ≤ _ by omega)
        have hn : i < (fillSlot h key value p).sizeAllocated := hi
        rw [slot, slot, if_pos hi, if_pos hn, tagGet_fillSlot hi, if_neg hip, hkeyAt, hvalueAt]
      · have hn : ¬ i < (fillSlot h key value p).sizeAllocated := hi
        rw [slot, slot, if_neg hi, if_neg hn]
  show (⟨h.sizeAllocated, h.hashFunc, (fillSlot h key value p).slot⟩ : Table _ _) = _
  rw [hslot]
  rfl

end FillSlot

/-! ## The loops are scans -/

/-- Every tag is one of the three that `hashmap.h` names. -/
def Hashmap.TagsOk (h : Hashmap) : Prop :=
  ∀ i < h.sizeAllocated,
    tagGet h.data i = tagEmpty ∨ tagGet h.data i = tagTaken ∨ tagGet h.data i = tagGrave

theorem free_iff_tag {h : Hashmap} (ht : h.TagsOk) {i : Nat} (hi : i < h.sizeAllocated) :
    h.table.free i = true ↔ tagGet h.data i = tagEmpty ∨ tagGet h.data i = tagGrave := by
  have hslot : h.table.slot i = h.slot i := rfl
  simp only [Table.free, hslot, slot, if_pos hi]
  rcases ht i hi with h₀ | h₀ | h₀ <;>
    simp [h₀, Slot.isTaken, tagEmpty, tagTaken, tagGrave]

/-- The insertion loop fills the first slot that is not taken. -/
theorem insertLoop_eq {h : Hashmap} (ht : h.TagsOk) (key value : Src) {fuel i : Nat}
    (hi : i < h.sizeAllocated) :
    insertLoop h key value fuel i =
      (scan h.sizeAllocated h.table.free fuel i).map (fillSlot h key value) := by
  induction fuel generalizing i with
  | zero => rfl
  | succ fuel ih =>
    have hnext : (i + 1) % h.sizeAllocated < h.sizeAllocated := Nat.mod_lt _ (by omega)
    simp only [insertLoop, scan]
    by_cases hfree : h.table.free i = true
    · rw [if_pos ((free_iff_tag ht hi).1 hfree), if_pos hfree]
      rfl
    · rw [if_neg fun hc => hfree ((free_iff_tag ht hi).2 hc), if_neg hfree]
      exact ih hnext

/-- The lookup loop ends where the search for the key does: with `NULL` at an empty slot, with
the value's address where the key is. -/
theorem getLoop_eq {h : Hashmap} {key : List UInt8} (hkey : key.length = h.sizeKey)
    {fuel i : Nat} (hi : i < h.sizeAllocated) :
    getLoop h key fuel i =
      (scan h.sizeAllocated (h.table.stops key) fuel i).map fun r =>
        if tagGet h.data r = tagEmpty then none else some (h.valuePtr r) := by
  have htake : key.take h.sizeKey = key := by rw [← hkey, List.take_length]
  have hstops {i : Nat} (hi : i < h.sizeAllocated) : h.table.stops key i = true ↔
      tagGet h.data i = tagEmpty ∨ (tagGet h.data i = tagTaken ∧ h.keyAt i = key) := by
    have hslot : h.table.slot i = h.slot i := rfl
    rw [Table.stops_iff, hslot, slot_empty_iff hi]
    simp only [slot_taken_iff hi]
    exact or_congr_right ⟨fun ⟨v, h₁, h₂, _⟩ => ⟨h₁, h₂⟩, fun ⟨h₁, h₂⟩ => ⟨_, h₁, h₂, rfl⟩⟩
  induction fuel generalizing i with
  | zero => rfl
  | succ fuel ih =>
    have hnext : (i + 1) % h.sizeAllocated < h.sizeAllocated := Nat.mod_lt _ (by omega)
    have hat : h.data.read (h.keyPtr i) h.sizeKey = h.keyAt i := rfl
    simp only [getLoop, scan, htake, hat]
    by_cases hempty : tagGet h.data i = tagEmpty
    · rw [if_pos hempty, if_pos ((hstops hi).2 (Or.inl hempty))]
      simp [hempty]
    · rw [if_neg hempty]
      by_cases hhit : tagGet h.data i = tagTaken ∧ h.keyAt i = key
      · rw [if_pos hhit, if_pos ((hstops hi).2 (Or.inr hhit))]
        simp [hempty]
      · have hno : ¬ h.table.stops key i = true := fun hc =>
          ((hstops hi).1 hc).elim hempty hhit
        rw [if_neg hhit, if_neg hno]
        exact ih hnext

/-! ## Lookup -/

section Get

variable {h : Hashmap} (hn : 0 < h.sizeAllocated) {key : List UInt8}
  (hkey : key.length = h.sizeKey)

include hn hkey

theorem hashmapGet_eq :
    hashmapGet h key = (h.table.find key).map fun r =>
      if tagGet h.data r = tagEmpty then (none, h)
      else (some (h.valuePtr r), h.setLock false) := by
  have htake : key.take h.sizeKey = key := by rw [← hkey, List.take_length]
  have hstart : h.hashFunc key % h.sizeAllocated < h.sizeAllocated := Nat.mod_lt _ hn
  rw [hashmapGet, htake, getLoop_eq hkey hstart, Table.find]
  cases hscan : scan h.table.n (h.table.stops key) h.table.n (h.table.start key) with
  | none =>
    simp only [table_n, table_start] at hscan
    simp [hscan]
  | some r =>
    simp only [table_n, table_start] at hscan
    by_cases he : tagGet h.data r = tagEmpty <;> simp [hscan, he]

/-- A key that is in the table is found, with its value, and the mutex is released. -/
theorem hashmapGet_hit {v : List UInt8} (hl : h.lookup key = some v) :
    ∃ ptr, hashmapGet h key = some (some ptr, h.setLock false) ∧
      h.data.read ptr h.sizeValue = v := by
  obtain ⟨r, hr, -⟩ := Option.bind_eq_some_iff.1 hl
  obtain ⟨hrn, ⟨-, hnone⟩ | ⟨w, hslot, hw⟩⟩ := Table.find_spec hn hr
  · exact absurd (hl.symm.trans hnone) (by simp)
  · obtain rfl : v = w := Option.some.inj (hl.symm.trans hw)
    obtain ⟨htag, -, hval⟩ := (slot_taken_iff hrn).1 hslot
    refine ⟨h.valuePtr r, ?_, hval⟩
    rw [hashmapGet_eq hn hkey, hr, Option.map_some, htag]
    rfl

/-- A key that is not in the table is not found, given an empty slot to stop at. -/
theorem hashmapGet_miss {q : Nat} (hq : q < h.sizeAllocated) (he : h.table.slot q = .empty)
    (hl : h.lookup key = none) : hashmapGet h key = some (none, h) := by
  obtain ⟨r, hr⟩ := Table.exists_find (T := h.table) hq he key
  obtain ⟨hrn, ⟨hslot, -⟩ | ⟨w, -, hw⟩⟩ := Table.find_spec hn hr
  · rw [hashmapGet_eq hn hkey, hr, Option.map_some, (slot_empty_iff hrn).1 hslot]
    rfl
  · exact absurd (hl.symm.trans hw) (by simp)

end Get

end NaptRouter
