import NaptRouter.HashmapProof

/-!
# The block of the hash map

`hashmap_init` and `hashmap_grow` ask for one block for the tags and the entries, and round the
tags up by one formula; `hashmap_insert` and `hashmap_get` find the entries behind the tags by
another one. The two agree, so that in the block every slot has its own two bits and its own
bytes, and what is written to one slot is seen in no other one (`table_layout`).
-/

namespace NaptRouter

open ByteMemory

/-! ## Sizes -/

/-- `size_tag_map`. -/
def sizeTagMap (sizeAllocated : Nat) : Nat := (sizeAllocated * 2 + 7) / 8

/-- What `hashmap_init` asks for. -/
def hashmapInitBytes (sizeKey sizeValue : Nat) : Nat :=
  let sizeTagMap := (hashmapSizeInit * 2 + 7) / 8
  let sizeDataMap := (sizeValue + sizeKey) * hashmapSizeInit
  sizeTagMap + sizeDataMap

/-- What `hashmap_grow` asks for. -/
def hashmapGrowBytes (h : Hashmap) : Nat :=
  let sizeTagMap := ((h.sizeAllocated * 2 + 1) * 2 + 7) / 8
  let sizeDataMap := (h.sizeValue + h.sizeKey) * (h.sizeAllocated * 2 + 1)
  sizeTagMap + sizeDataMap

namespace Hashmap

/-- The size of the block of a table. -/
def blockBytes (h : Hashmap) : Nat :=
  sizeTagMap h.sizeAllocated + (h.sizeValue + h.sizeKey) * h.sizeAllocated

/-- The first `memcpy` of `hashmap_insert`. -/
def writeKey (h : Hashmap) (index : Nat) (key : List UInt8) : Hashmap :=
  { h with data := h.data.write (h.keyPtr index) key }

/-- The second one. -/
def writeValue (h : Hashmap) (index : Nat) (value : List UInt8) : Hashmap :=
  { h with data := h.data.write (h.valuePtr index) value }

/-- Slot `j` has the same tag, key and value. -/
def Keeps (h h' : Hashmap) (j : Nat) : Prop :=
  tagGet h'.data j = tagGet h.data j ∧ h'.keyAt j = h.keyAt j ∧ h'.valueAt j = h.valueAt j

end Hashmap

/-- Slots share neither bits nor bytes, and lie in the block. -/
structure TableLayout (h : Hashmap) : Prop where
  tagArea : sizeTagMap h.sizeAllocated = h.entriesOff
  tagSelf : ∀ i < h.sizeAllocated, ∀ tag : UInt8, tag.toNat < 4 →
    tagGet (tagSet h.data i tag) i = tag
  tagOther : ∀ i < h.sizeAllocated, ∀ j < h.sizeAllocated, i ≠ j → ∀ tag : UInt8, tag.toNat < 4 →
    tagGet (tagSet h.data i tag) j = tagGet h.data j
  tagOnly : ∀ i < h.sizeAllocated, ∀ tag a, sizeTagMap h.sizeAllocated ≤ a →
    tagSet h.data i tag a = h.data a
  inside : ∀ i < h.sizeAllocated, sizeTagMap h.sizeAllocated ≤ h.keyPtr i ∧
    h.keyPtr i + h.sizeKey = h.valuePtr i ∧ h.valuePtr i + h.sizeValue ≤ h.blockBytes
  apart : ∀ i < h.sizeAllocated, ∀ j < h.sizeAllocated, i ≠ j →
    h.valuePtr i + h.sizeValue ≤ h.keyPtr j ∨ h.valuePtr j + h.sizeValue ≤ h.keyPtr i
  writesKey : ∀ i < h.sizeAllocated, ∀ j < h.sizeAllocated, i ≠ j → ∀ key,
    key.length = h.sizeKey → h.Keeps (h.writeKey i key) j
  writesValue : ∀ i < h.sizeAllocated, ∀ j < h.sizeAllocated, i ≠ j → ∀ value,
    value.length = h.sizeValue → h.Keeps (h.writeValue i value) j
  writesTag : ∀ i < h.sizeAllocated, ∀ j < h.sizeAllocated, i ≠ j → ∀ tag : UInt8,
    tag.toNat < 4 → h.Keeps (h.setTag i tag) j
  inserts : ∀ i < h.sizeAllocated, ∀ j < h.sizeAllocated, i ≠ j → ∀ key value,
    (key.keyBytes h).length = h.sizeKey → (key.valueBytes value h i).length = h.sizeValue →
      h.Keeps (fillSlot h key value i) j

namespace Hashmap

variable {h h' : Hashmap} {i j : Nat}

/-- The two ways to round up agree. -/
theorem sizeTagMap_eq (h : Hashmap) : sizeTagMap h.sizeAllocated = h.entriesOff := by
  rw [sizeTagMap, entriesOff]
  omega

theorem blockBytes_hashmapInit (hashFunc : List UInt8 → Nat) (sizeKey sizeValue : Nat) :
    (hashmapInit hashFunc sizeKey sizeValue).blockBytes = hashmapInitBytes sizeKey sizeValue := rfl

theorem blockBytes_hashmapGrow (hgrow : hashmapGrow h = some h') :
    h'.blockBytes = hashmapGrowBytes h := by
  obtain ⟨h₁, heq, hR⟩ := hashmapGrow_regrown h 0
  obtain rfl : h₁ = h' := Option.some.inj (heq.symm.trans hgrow)
  rw [blockBytes, hR.sizeAllocated, hR.sizeKey, hR.sizeValue]
  rfl

/-- The entry of the last slot ends where the block does. -/
theorem entry_inside (hi : i < h.sizeAllocated) : h.valuePtr i + h.sizeValue ≤ h.blockBytes := by
  have hmul : (h.sizeValue + h.sizeKey) * i + (h.sizeValue + h.sizeKey) ≤
      (h.sizeValue + h.sizeKey) * h.sizeAllocated := by
    rw [← Nat.mul_succ]
    exact Nat.mul_le_mul_left _ hi
  rw [blockBytes, sizeTagMap_eq, valuePtr, keyPtr]
  omega

/-- What is outside the tag and the entry of a slot does not matter to it. -/
theorem keeps_of_eq {data : Mem} (htag : tagGet data j = tagGet h.data j)
    (hentry : data.read (h.keyPtr j) (h.sizeKey + h.sizeValue) =
      h.data.read (h.keyPtr j) (h.sizeKey + h.sizeValue)) : h.Keeps { h with data } j := by
  rw [Mem.read_add, Mem.read_add] at hentry
  obtain ⟨hkey, hvalue⟩ := List.append_inj hentry (by rw [Mem.length_read, Mem.length_read])
  exact ⟨htag, hkey, hvalue⟩

theorem keeps_write (hj : j < h.sizeAllocated) (hij : i ≠ j) {off : Nat} {bytes : List UInt8}
    (hlo : h.keyPtr i ≤ off) (hhi : off + bytes.length ≤ h.valuePtr i + h.sizeValue) :
    h.Keeps { h with data := h.data.write off bytes } j := by
  have hapart := h.keyPtr_disjoint hij
  have hvalue : h.valuePtr i = h.keyPtr i + h.sizeKey := rfl
  have hbyte := h.tag_byte_lt hj
  have hbehind := h.entriesOff_le_keyPtr i
  apply keeps_of_eq
  · exact tagGet_congr (Mem.write_apply_of_lt _ _ (by omega))
  · exact Mem.read_write_disjoint _ _ (by omega)

theorem keeps_writeKey (hj : j < h.sizeAllocated) (hij : i ≠ j) {key : List UInt8}
    (hkey : key.length = h.sizeKey) : h.Keeps (h.writeKey i key) j :=
  keeps_write hj hij le_rfl (by rw [hkey]; exact Nat.le_add_right _ _)

theorem keeps_writeValue (hj : j < h.sizeAllocated) (hij : i ≠ j) {value : List UInt8}
    (hvalue : value.length = h.sizeValue) : h.Keeps (h.writeValue i value) j :=
  keeps_write hj hij (Nat.le_add_right _ _) (by rw [hvalue])

theorem keeps_setTag (hi : i < h.sizeAllocated) (hij : i ≠ j) {tag : UInt8}
    (htag : tag.toNat < 4) : h.Keeps (h.setTag i tag) j := by
  have hbyte := h.tag_byte_lt hi
  have hentry := h.entriesOff_le_keyPtr j
  apply keeps_of_eq
  · exact tagGet_tagSet_of_ne h.data hij htag
  · exact Mem.read_congr fun a _ => tagSet_apply_of_ne h.data tag (by omega)

theorem Keeps.trans {h'' : Hashmap} (hh' : h.Keeps h' j) (hh'' : h'.Keeps h'' j) :
    h.Keeps h'' j :=
  ⟨hh''.1.trans hh'.1, hh''.2.1.trans hh'.2.1, hh''.2.2.trans hh'.2.2⟩

theorem keeps_fillSlot (hi : i < h.sizeAllocated) (hj : j < h.sizeAllocated) (hij : i ≠ j)
    {key value : Src} (hkey : (key.keyBytes h).length = h.sizeKey)
    (hvalue : (key.valueBytes value h i).length = h.sizeValue) :
    h.Keeps (fillSlot h key value i) j := by
  have hwritten := (keeps_writeKey hj hij hkey).trans
    (keeps_writeValue (h := h.writeKey i (key.keyBytes h)) hj hij hvalue)
  have htagged : Keeps _ (setTag _ i tagTaken) j :=
    keeps_setTag (h := (h.writeKey i (key.keyBytes h)).writeValue i (key.valueBytes value h i))
      hi hij (by decide)
  exact hwritten.trans htagged

end Hashmap

open Hashmap

/-- **The memory layout of the hash map**: the blocks have room for what is put in them, and the
slots do not touch each other. -/
theorem table_layout :
    (∀ hashFunc sizeKey sizeValue,
      (hashmapInit hashFunc sizeKey sizeValue).blockBytes = hashmapInitBytes sizeKey sizeValue) ∧
    (∀ h h', hashmapGrow h = some h' → h'.blockBytes = hashmapGrowBytes h) ∧
    ∀ h, TableLayout h := by
  refine ⟨blockBytes_hashmapInit, fun h h' => blockBytes_hashmapGrow, fun h => ?_⟩
  exact {
    tagArea := h.sizeTagMap_eq
    tagSelf := fun i _ tag htag => tagGet_tagSet_self h.data i htag
    tagOther := fun i _ j _ hij tag htag => tagGet_tagSet_of_ne h.data hij htag
    tagOnly := fun i hi tag a ha => by
      have hbyte := h.tag_byte_lt hi
      rw [h.sizeTagMap_eq] at ha
      exact tagSet_apply_of_ne h.data tag (by omega)
    inside := fun i hi => ⟨h.sizeTagMap_eq ▸ h.entriesOff_le_keyPtr i, rfl, entry_inside hi⟩
    apart := fun i _ j _ hij => by
      have hapart := h.keyPtr_disjoint hij
      simp only [valuePtr]
      omega
    writesKey := fun i _ j hj hij key hkey => keeps_writeKey hj hij hkey
    writesValue := fun i _ j hj hij value hvalue => keeps_writeValue hj hij hvalue
    writesTag := fun i hi j _ hij tag htag => keeps_setTag hi hij htag
    inserts := fun i hi j hj hij key value hkey hvalue => keeps_fillSlot hi hj hij hkey hvalue }

end NaptRouter
