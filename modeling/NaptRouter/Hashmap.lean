import NaptRouter.Lib.ByteMemory
import NaptRouter.Lib.LinearProbing

/-!
# `hashmap.c`

One block of memory holds the tags of all slots, two bits each, and after them the entries,
key bytes then value bytes. Nothing here mentions slots as objects: as in the C, an entry is an
address computed from the slot's index, and `hashmap_grow` computes its addresses differently
from `hashmap_insert` and `hashmap_get`.

* A `do … while(1)` loop gets `size_allocated` rounds: it changes nothing between two rounds
  but the index, so if it has not stopped once around it never stops. `none` is a call that
  does not return.
* `lock_` is the mutex: held or free. `hashmap_get` releases it on a hit.
* `calloc` is assumed to succeed.
-/

namespace NaptRouter

open ByteMemory

/-- `hashmap_t`. -/
structure Hashmap where
  /-- `hash_func`, on the `size_key` bytes its argument points to. -/
  hashFunc : List UInt8 → Nat
  size : Nat
  sizeAllocated : Nat
  sizeValue : Nat
  sizeKey : Nat
  data : Mem
  lock : Bool

def hashmapSizeInit : Nat := 11

def tagEmpty : UInt8 := 0

def tagTaken : UInt8 := 1

def tagGrave : UInt8 := 2

def hashmapInit (hashFunc : List UInt8 → Nat) (sizeKey sizeValue : Nat) : Hashmap where
  hashFunc := hashFunc
  size := 0
  sizeAllocated := hashmapSizeInit
  sizeValue := sizeValue
  sizeKey := sizeKey
  data := Mem.zero
  lock := false

/-- `(size_t) (pow(2, 31) - 1)`. -/
def ringSize : Nat := 2147483647

def hashmapCyclicHash (bytes : List UInt8) : Nat :=
  bytes.foldl (fun hash val => ((hash * 47) ^^^ val.toNat) % ringSize) 0

/-! ## Tags -/

def tagGet (data : Mem) (index : Nat) : UInt8 :=
  (data (index / 4) >>> UInt8.ofNat (index % 4 * 2)) &&& 0x03

def tagSet (data : Mem) (index : Nat) (tag : UInt8) : Mem :=
  Function.update data (index / 4)
    ((data (index / 4) &&& ~~~(0x03 <<< UInt8.ofNat (index % 4 * 2))) |||
      (tag <<< UInt8.ofNat (index % 4 * 2)))

namespace Hashmap

/-- `(hashmap->size_allocated + 3) / 4`: where the entries start. -/
def entriesOff (h : Hashmap) : Nat := (h.sizeAllocated + 3) / 4

/-- `key_ptr` of slot `index`, as `hashmap_insert` and `hashmap_get` compute it. -/
def keyPtr (h : Hashmap) (index : Nat) : Nat :=
  h.entriesOff + (h.sizeValue + h.sizeKey) * index

/-- `value_ptr` of slot `index`. -/
def valuePtr (h : Hashmap) (index : Nat) : Nat := h.keyPtr index + h.sizeKey

end Hashmap

/-! ## Insertion and growth -/

/-- What a `void*` argument points to: memory of the caller, or an offset in `hashmap->data`
itself (`hashmap_grow` passes such pointers). -/
inductive Src
  | ext (bytes : List UInt8)
  | self (off : Nat)

/-- The `n` bytes behind a pointer. -/
def Src.read (src : Src) (data : Mem) (n : Nat) : List UInt8 :=
  match src with
  | .ext bytes => bytes.take n
  | .self off => data.read off n

/-- The body of the insertion loop: fill slot `index` and mark it taken. The value is read
after the key has been copied. -/
def fillSlot (h : Hashmap) (key value : Src) (index : Nat) : Hashmap :=
  let data := h.data.write (h.keyPtr index) (key.read h.data h.sizeKey)
  let data := data.write (h.valuePtr index) (value.read data h.sizeValue)
  { h with data := tagSet data index tagTaken, size := h.size + 1 }

def insertLoop (h : Hashmap) (key value : Src) : Nat → Nat → Option Hashmap
  | 0, _ => none
  | fuel + 1, index =>
      let tag := tagGet h.data index
      if tag = tagEmpty ∨ tag = tagGrave then some (fillSlot h key value index)
      else insertLoop h key value fuel ((index + 1) % h.sizeAllocated)

/-- `hashmap_grow`, over the function it calls to re-insert. `key_ptr` points into the new
block, at a distance that is not a multiple of the entry size. -/
def hashmapGrowWith (insert : Hashmap → Src → Src → Option Hashmap) (h : Hashmap) :
    Option Hashmap :=
  let oldSizeAllocated := h.sizeAllocated
  let oldTags := h.data
  let sizeTagMap := ((h.sizeAllocated * 2 + 1) * 2 + 7) / 8
  let new := { h with sizeAllocated := h.sizeAllocated * 2 + 1, data := Mem.zero, size := 0 }
  (List.range (oldSizeAllocated / 4)).foldlM (fun hashmap i =>
    (List.range 4).foldlM (fun hashmap j =>
      let tag := (oldTags i >>> UInt8.ofNat (j * 2)) &&& 0x03
      if tag = tagTaken then
        let keyPtr := sizeTagMap + ((hashmap.sizeValue + hashmap.sizeKey) + i * 4 + j)
        let valuePtr := keyPtr + hashmap.sizeKey
        insert hashmap (.self keyPtr) (.self valuePtr)
      else some hashmap) hashmap) new

/-- `hashmap_insert`, with a bound on how deep it and `hashmap_grow` call each other. -/
def hashmapInsertDepth : Nat → Hashmap → Src → Src → Option Hashmap
  | 0, _, _, _ => none
  | depth + 1, h, key, value => do
      let hash := h.hashFunc (key.read h.data h.sizeKey)
      let h ← if h.size ≥ h.sizeAllocated / 2 then
          hashmapGrowWith (hashmapInsertDepth depth) h
        else some h
      insertLoop h key value h.sizeAllocated (hash % h.sizeAllocated)

/-- `hashmap_insert`. Two levels are enough: an insertion made by `hashmap_grow` never grows
the table again (`hashmapInsertDepth_succ`). -/
def hashmapInsert (h : Hashmap) (key value : List UInt8) : Option Hashmap :=
  hashmapInsertDepth 2 h (.ext key) (.ext value)

def hashmapGrow (h : Hashmap) : Option Hashmap := hashmapGrowWith (hashmapInsertDepth 1) h

/-! ## The mutex -/

def Hashmap.setLock (h : Hashmap) (lock : Bool) : Hashmap := { h with lock }

/-- `none` is a caller that blocks for ever: packets are handled one at a time, so nobody is
left to release the mutex. -/
def hashmapLock (h : Hashmap) : Option Hashmap :=
  if h.lock then none else some (h.setLock true)

def hashmapUnlock (h : Hashmap) : Hashmap := h.setLock false

/-! ## Lookup -/

/-- `none` never stops, `some none` is `NULL`, `some (some p)` a pointer to the value. -/
def getLoop (h : Hashmap) (key : List UInt8) : Nat → Nat → Option (Option Nat)
  | 0, _ => none
  | fuel + 1, index =>
      let tag := tagGet h.data index
      if tag = tagEmpty then some none
      else if tag = tagTaken ∧ h.data.read (h.keyPtr index) h.sizeKey = key.take h.sizeKey then
        some (some (h.valuePtr index))
      else getLoop h key fuel ((index + 1) % h.sizeAllocated)

/-- `hashmap_get`: on a hit the mutex is released. -/
def hashmapGet (h : Hashmap) (key : List UInt8) : Option (Option Nat × Hashmap) := do
  let hash := h.hashFunc (key.take h.sizeKey)
  match ← getLoop h key h.sizeAllocated (hash % h.sizeAllocated) with
  | none => some (none, h)
  | some valuePtr => some (some valuePtr, h.setLock false)

def hashmapContains (h : Hashmap) (key : List UInt8) : Option (Bool × Hashmap) := do
  let (ptr, h) ← hashmapGet h key
  some (ptr.isSome, h)

/-! ## Removal -/

/-- `key_ptr` of slot `index`, as `hashmap_remove` computes it: neither past the tags nor in
steps of the entry size. -/
def Hashmap.removeKeyPtr (h : Hashmap) (index : Nat) : Nat := (h.sizeValue + h.sizeKey) + index

/-- `tag_set` on the table. -/
def Hashmap.setTag (h : Hashmap) (index : Nat) (tag : UInt8) : Hashmap :=
  { h with data := tagSet h.data index tag }

/-- The first loop of `hashmap_remove`: the slot to bury, `none` at an empty one, and the slots
whose tags it has read. -/
def removeLoop (h : Hashmap) (key : List UInt8) : Nat → Nat → Option (Option Nat × List Nat)
  | 0, _ => none
  | fuel + 1, index =>
      let tag := tagGet h.data index
      if tag = tagEmpty then some (none, [index])
      else if tag = tagTaken ∧
          h.data.read (h.removeKeyPtr index) h.sizeKey = key.take h.sizeKey then
        some (some index, [index])
      else
        (removeLoop h key fuel ((index + 1) % h.sizeAllocated)).map (Prod.map id (index :: ·))

/-- The second loop: tombstones become empty slots again, downwards from `index`, with the slots
whose tags it touches. Below slot 0 the index wraps around to `SIZE_MAX`, which is no slot and
no address in the block: `none`. -/
def sweepLoop (h : Hashmap) : Nat → Option (Hashmap × List Nat)
  | 0 => if tagGet h.data 0 = tagGrave then none else some (h, [0])
  | index + 1 =>
      if tagGet h.data (index + 1) = tagGrave then
        (sweepLoop (h.setTag (index + 1) tagEmpty) index).map (Prod.map id ((index + 1) :: ·))
      else some (h, [index + 1])

/-- The slot becomes a tombstone. Only taken slots are buried, and those are counted in `size`. -/
def Hashmap.bury (h : Hashmap) (index : Nat) : Hashmap :=
  { h.setTag index tagGrave with size := h.size - 1 }

/-- `hashmap_remove`, with the slots whose tags it touches. -/
def hashmapRemove (h : Hashmap) (key : List UInt8) : Option (Hashmap × List Nat) := do
  let hash := h.hashFunc (key.take h.sizeKey)
  let (found, touched) ← removeLoop h key h.sizeAllocated (hash % h.sizeAllocated)
  match found with
  | none => some (h, touched)
  | some index =>
      let h := h.bury index
      let touched := touched ++ [index, index + 1]
      if tagGet h.data (index + 1) = tagEmpty then
        let (h, swept) ← sweepLoop h index
        some (h, touched ++ swept)
      else some (h, touched)

end NaptRouter
