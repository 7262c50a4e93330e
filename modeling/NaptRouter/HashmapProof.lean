import NaptRouter.HashmapLayout
import NaptRouter.Lib.Runs

/-!
# What `hashmap_insert` and `hashmap_grow` do

* `insertLoop_spec` — insertion into a table that is not full puts the key into its slot.
* `hashmapGrow_regrown` — growth keeps **no entry**: it re-inserts key and value bytes that it
  reads from the freshly zeroed block, so every slot it takes holds the all-zero key.
* `hashmapInsert_spec` — insertion of an absent key into a table that has only ever seen such
  insertions. If the table was at its growth threshold, every other key is lost.
* `hashmapInsertDepth_succ` — growth never triggers another growth.
-/

namespace NaptRouter

open ByteMemory LinearProbing Runs

/-! ## Well-formed tables -/

/-- The representation invariant of `hashmap.c`. -/
structure Hashmap.WF (h : Hashmap) : Prop where
  pos : 0 < h.sizeAllocated
  tags : h.TagsOk
  reach : h.table.Reach
  size_eq : h.size = h.table.count

/-- No slot holds a tombstone. -/
def Hashmap.NoGrave (h : Hashmap) : Prop :=
  ∀ i < h.sizeAllocated, tagGet h.data i ≠ tagGrave

/-- The tables that insertions of absent keys lead to. -/
structure Hashmap.Sound (h : Hashmap) : Prop extends h.WF where
  noGrave : h.NoGrave
  shape : h.sizeAllocated % 4 = 3
  load : h.size ≤ h.sizeAllocated / 2

/-- `hashmap->size >= hashmap->size_allocated / 2`: the next insertion grows the table. -/
def Hashmap.Full (h : Hashmap) : Prop := h.size ≥ h.sizeAllocated / 2

instance (h : Hashmap) : Decidable h.Full := by unfold Hashmap.Full; infer_instance

/-- The key that growth puts into every slot it takes. -/
def Hashmap.zeroKey (h : Hashmap) : List UInt8 := List.replicate h.sizeKey 0

namespace Hashmap

theorem slot_ne_grave {h : Hashmap} (ht : h.TagsOk) (hg : h.NoGrave) {i : Nat}
    (hi : i < h.sizeAllocated) : h.table.slot i ≠ .grave := by
  show h.slot i ≠ .grave
  rw [slot, if_pos hi]
  rcases ht i hi with h₀ | h₀ | h₀
  · simp [h₀]
  · simp [h₀, tagTaken, tagEmpty]
  · exact absurd h₀ (hg i hi)

/-- A table without tombstones that is not full of keys has an empty slot. -/
theorem exists_empty {h : Hashmap} (ht : h.TagsOk) (hg : h.NoGrave)
    (hc : h.table.count < h.sizeAllocated) :
    ∃ q < h.sizeAllocated, h.table.slot q = .empty :=
  Table.exists_empty (T := h.table) hc fun _ hi => slot_ne_grave ht hg hi

theorem Sound.count_lt {h : Hashmap} (hS : h.Sound) : h.table.count < h.sizeAllocated := by
  have := hS.load
  have := hS.shape
  rw [← hS.size_eq]
  omega

theorem Sound.exists_empty {h : Hashmap} (hS : h.Sound) :
    ∃ q < h.sizeAllocated, h.table.slot q = .empty :=
  Hashmap.exists_empty hS.tags hS.noGrave hS.count_lt

end Hashmap

open Hashmap

theorem hashmapGet_total {h : Hashmap} (hS : h.Sound) {key : List UInt8}
    (hkey : key.length = h.sizeKey) :
    (h.lookup key = none ∧ hashmapGet h key = some (none, h)) ∨
      ∃ v ptr, h.lookup key = some v ∧ h.data.read ptr h.sizeValue = v ∧
        hashmapGet h key = some (some ptr, h.setLock false) := by
  cases hl : h.lookup key with
  | none =>
    obtain ⟨q, hq, he⟩ := hS.exists_empty
    exact Or.inl ⟨rfl, hashmapGet_miss hS.pos hkey hq he hl⟩
  | some v =>
    obtain ⟨ptr, hget, hread⟩ := hashmapGet_hit hS.pos hkey hl
    exact Or.inr ⟨v, ptr, rfl, hread, hget⟩

/-! ## The mutex is no part of the table -/

@[simp] theorem setLock_lock (h : Hashmap) (b : Bool) : (h.setLock b).lock = b := rfl

@[simp] theorem setLock_sizeKey (h : Hashmap) (b : Bool) : (h.setLock b).sizeKey = h.sizeKey := rfl

@[simp] theorem setLock_sizeValue (h : Hashmap) (b : Bool) :
    (h.setLock b).sizeValue = h.sizeValue := rfl

@[simp] theorem setLock_data (h : Hashmap) (b : Bool) : (h.setLock b).data = h.data := rfl

@[simp] theorem setLock_lookup (h : Hashmap) (b : Bool) (k : List UInt8) :
    (h.setLock b).lookup k = h.lookup k := rfl

@[simp] theorem setLock_setLock (h : Hashmap) (b b' : Bool) :
    (h.setLock b).setLock b' = h.setLock b' := rfl

theorem setLock_self {h : Hashmap} {b : Bool} (hb : h.lock = b) : h.setLock b = h := by
  rw [← hb]
  rfl

theorem Hashmap.Sound.setLock {h : Hashmap} (hS : h.Sound) (b : Bool) : (h.setLock b).Sound :=
  ⟨⟨hS.pos, hS.tags, hS.reach, hS.size_eq⟩, hS.noGrave, hS.shape, hS.load⟩

/-! ## One insertion -/

theorem Src.read_ext {bytes : List UInt8} {n : Nat} (data : Mem) (h : bytes.length = n) :
    Src.read (.ext bytes) data n = bytes := by
  rw [Src.read, ← h, List.take_length]

/-- The pointer has enough bytes behind it. -/
def Src.Fits (src : Src) (n : Nat) : Prop :=
  match src with
  | .ext bytes => n ≤ bytes.length
  | .self _ => True

theorem Src.Fits.length_read {src : Src} {n : Nat} (h : src.Fits n) (data : Mem) :
    (src.read data n).length = n := by
  cases src with
  | ext bytes => simpa [Src.read, Fits] using h
  | self off => simp [Src.read]

section Insert

variable {h : Hashmap} (key value : Src) (hW : h.WF) (hkey : key.Fits h.sizeKey)
  (hvalue : value.Fits h.sizeValue)

include hW hkey hvalue

theorem fillSlot_wf {p : Nat} (hp : h.table.insertAt (key.keyBytes h) = some p) :
    (fillSlot h key value p).WF := by
  obtain ⟨hpn, hfree, -⟩ := Table.insertAt_spec (T := h.table) hW.pos hp
  have htable := table_fillSlot hpn (hkey.length_read h.data)
    (hvalue.length_read (h.data.write (h.keyPtr p) (key.keyBytes h)))
  refine ⟨hW.pos, fun i hi => ?_, ?_, ?_⟩
  · rw [tagGet_fillSlot (h := h) hi]
    split_ifs
    · exact Or.inr (Or.inl rfl)
    · exact hW.tags i hi
  · rw [htable]
    exact Table.reach_put hW.pos hW.reach hp _
  · rw [htable, Table.count_put hpn hfree, ← hW.size_eq]
    rfl

end Insert

/-- Insertion ends in the key's slot if some slot is not taken. -/
theorem insertLoop_spec {h : Hashmap} (key value : Src) (hn : 0 < h.sizeAllocated)
    (ht : h.TagsOk) (hroom : h.table.count < h.sizeAllocated) :
    ∃ p, h.table.insertAt (key.keyBytes h) = some p ∧
      insertLoop h key value h.sizeAllocated
        (h.hashFunc (key.read h.data h.sizeKey) % h.sizeAllocated) =
          some (fillSlot h key value p) := by
  obtain ⟨p, hp⟩ := Table.exists_insertAt (T := h.table) hroom (key.keyBytes h)
  refine ⟨p, hp, ?_⟩
  rw [insertLoop_eq ht key value (Nat.mod_lt _ hn)]
  have hscan : scan h.sizeAllocated h.table.free h.sizeAllocated
      (h.hashFunc (key.read h.data h.sizeKey) % h.sizeAllocated) = some p := hp
  rw [hscan, Option.map_some]

/-- Insertion of bytes of the caller: the entry is in the slot that the search ends at. -/
theorem insertLoop_put {h : Hashmap} (hW : h.WF) (hcount : h.table.count < h.sizeAllocated)
    {k v : List UInt8} (hk : k.length = h.sizeKey) (hv : v.length = h.sizeValue) :
    ∃ p, h.table.insertAt k = some p ∧
      insertLoop h (.ext k) (.ext v) h.sizeAllocated (h.hashFunc k % h.sizeAllocated) =
        some (fillSlot h (.ext k) (.ext v) p) ∧
      (fillSlot h (.ext k) (.ext v) p).WF ∧
      (fillSlot h (.ext k) (.ext v) p).table = h.table.put p k v := by
  obtain ⟨p, hp, hloop⟩ := insertLoop_spec (.ext k) (.ext v) hW.pos hW.tags hcount
  have hpn : p < h.sizeAllocated := (Table.insertAt_spec (T := h.table) hW.pos hp).1
  have hkb : Src.keyBytes (.ext k) h = k := Src.read_ext _ hk
  have hvb : Src.valueBytes (.ext k) (.ext v) h p = v := Src.read_ext _ hv
  have htable : (fillSlot h (.ext k) (.ext v) p).table = h.table.put p k v := by
    rw [table_fillSlot hpn (by rw [hkb, hk]) (by rw [hvb, hv]), hkb, hvb]
  have hwf := fillSlot_wf (.ext k) (.ext v) hW (by simp [Src.Fits, hk])
    (by simp [Src.Fits, hv]) hp
  have hread : Src.read (.ext k) h.data h.sizeKey = k := hkb
  rw [hread] at hloop
  rw [hkb] at hp
  exact ⟨p, hp, hloop, hwf, htable⟩

theorem insertLoop_eq_fillSlot {h h' : Hashmap} {key value : Src} {fuel i : Nat}
    (hloop : insertLoop h key value fuel i = some h') : ∃ p, h' = fillSlot h key value p := by
  induction fuel generalizing i with
  | zero => simp [insertLoop] at hloop
  | succ fuel ih =>
    rw [insertLoop] at hloop
    split_ifs at hloop
    · exact ⟨i, (Option.some.inj hloop).symm⟩
    · exact ih hloop

theorem fillSlot_noGrave {h : Hashmap} (hg : h.NoGrave) (key value : Src) (p : Nat) :
    (fillSlot h key value p).NoGrave := by
  intro i hi
  rw [tagGet_fillSlot (h := h) hi]
  split_ifs
  · decide
  · exact hg i hi

theorem hashmapInsertDepth_of_not_full {h : Hashmap} (hfull : ¬ h.Full) (depth : Nat)
    (key value : Src) :
    hashmapInsertDepth (depth + 1) h key value =
      insertLoop h key value h.sizeAllocated
        (h.hashFunc (key.read h.data h.sizeKey) % h.sizeAllocated) := by
  have hlt : ¬ h.size ≥ h.sizeAllocated / 2 := hfull
  rw [hashmapInsertDepth, if_neg hlt]
  rfl

theorem hashmapInsertDepth_of_full {h hg : Hashmap} (hfull : h.Full) {depth : Nat}
    (hgrow : hashmapGrowWith (hashmapInsertDepth depth) h = some hg) (key value : Src) :
    hashmapInsertDepth (depth + 1) h key value =
      insertLoop hg key value hg.sizeAllocated
        (h.hashFunc (key.read h.data h.sizeKey) % hg.sizeAllocated) := by
  have hge : h.size ≥ h.sizeAllocated / 2 := hfull
  rw [hashmapInsertDepth, if_pos hge, hgrow]
  rfl

/-! ## Growth -/

/-- What `hashmap_grow` has built after at most `m` re-insertions. -/
structure Regrown (old : Hashmap) (m : Nat) (h : Hashmap) : Prop where
  wf : h.WF
  noGrave : h.NoGrave
  hashFunc : h.hashFunc = old.hashFunc
  sizeKey : h.sizeKey = old.sizeKey
  sizeValue : h.sizeValue = old.sizeValue
  lock : h.lock = old.lock
  sizeAllocated : h.sizeAllocated = old.sizeAllocated * 2 + 1
  size_le : h.size ≤ m
  zeroed : ∀ a, h.entriesOff ≤ a → h.data a = 0

theorem regrown_new (old : Hashmap) :
    Regrown old 0
      { old with sizeAllocated := old.sizeAllocated * 2 + 1, data := Mem.zero, size := 0 } := by
  have htag (i : Nat) : tagGet Mem.zero i = tagEmpty := by
    simp [tagGet, tagEmpty]
  have hempty : ∀ i < old.sizeAllocated * 2 + 1, Hashmap.slot
      { old with sizeAllocated := old.sizeAllocated * 2 + 1, data := Mem.zero, size := 0 } i =
        .empty := fun i hi => (slot_empty_iff hi).2 (htag i)
  refine ⟨⟨Nat.succ_pos _, fun i _ => Or.inl (htag i), Table.reach_of_empty hempty,
    (Table.count_of_empty hempty).symm⟩, fun i _ => ?_, rfl, rfl, rfl, rfl, rfl, le_rfl,
    fun _ _ => rfl⟩
  rw [htag]
  decide

theorem write_zeros {data : Mem} {lo off n : Nat} (hz : ∀ a, lo ≤ a → data a = 0) :
    ∀ a, lo ≤ a → data.write off (List.replicate n 0) a = 0 := by
  intro a ha
  unfold Mem.write
  split_ifs
  · simp [List.getD_eq_getElem?_getD, List.getElem?_replicate]
    split_ifs <;> rfl
  · exact hz a ha

theorem read_zeros {data : Mem} {lo off : Nat} (hz : ∀ a, lo ≤ a → data a = 0)
    (hoff : lo ≤ off) (n : Nat) : data.read off n = List.replicate n 0 := by
  rw [← Mem.read_zero off n]
  exact Mem.read_congr fun i _ => hz _ (by omega)

theorem Regrown.insert {old h : Hashmap} {m : Nat} (hR : Regrown old m h)
    (hm : m < old.sizeAllocated) (kp vp : Nat) (hkp : h.entriesOff ≤ kp)
    (hvp : h.entriesOff ≤ vp) (depth : Nat) :
    ∃ h', hashmapInsertDepth (depth + 1) h (.self kp) (.self vp) = some h' ∧
      Regrown old (m + 1) h' ∧ h'.size = h.size + 1 := by
  have hsize := hR.size_le
  have hn := hR.sizeAllocated
  have hnotFull : ¬ h.Full := by rw [Full]; omega
  have hroom : h.table.count < h.sizeAllocated := by rw [← hR.wf.size_eq]; omega
  obtain ⟨p, hp, hloop⟩ :=
    insertLoop_spec (.self kp) (.self vp) hR.wf.pos hR.wf.tags hroom
  have hpn : p < h.sizeAllocated := (Table.insertAt_spec (T := h.table) hR.wf.pos hp).1
  refine ⟨fillSlot h (.self kp) (.self vp) p, ?_, ?_, rfl⟩
  · rw [hashmapInsertDepth_of_not_full hnotFull, hloop]
  · have hk : Src.keyBytes (.self kp) h = List.replicate h.sizeKey 0 :=
      read_zeros hR.zeroed hkp _
    have hv : Src.valueBytes (.self kp) (.self vp) h p = List.replicate h.sizeValue 0 := by
      rw [Src.valueBytes, hk]
      exact read_zeros (write_zeros hR.zeroed) hvp _
    refine ⟨fillSlot_wf (.self kp) (.self vp) hR.wf trivial trivial hp,
      fillSlot_noGrave hR.noGrave _ _ p, hR.hashFunc, hR.sizeKey, hR.sizeValue, hR.lock,
      hR.sizeAllocated, Nat.succ_le_succ hsize, ?_⟩
    intro a ha
    have hbyte := h.tag_byte_lt hpn
    rw [fillSlot_entriesOff] at ha
    rw [fillSlot_data, hk, hv, tagSet_apply_of_ne _ _ (by omega)]
    exact write_zeros (write_zeros hR.zeroed) a ha

/-- How many of the first `m` slots are taken. -/
def Hashmap.takenBefore (h : Hashmap) (m : Nat) : Nat :=
  ((Finset.range m).filter fun i => tagGet h.data i = tagTaken).card

theorem takenBefore_succ (h : Hashmap) (m : Nat) :
    h.takenBefore (m + 1) = h.takenBefore m + if tagGet h.data m = tagTaken then 1 else 0 := by
  rw [takenBefore, takenBefore, Finset.range_add_one, Finset.filter_insert]
  split_ifs
  · exact Finset.card_insert_of_notMem (by simp)
  · rfl

/-- The loops of `hashmap_grow` read the tags of the slots in order. -/
theorem tagGet_four_mul (data : Mem) (i : Nat) {j : Nat} (hj : j < 4) :
    tagGet data (i * 4 + j) = (data i >>> UInt8.ofNat (j * 2)) &&& 0x03 := by
  have hbyte : (i * 4 + j) / 4 = i := by omega
  have hfield : (i * 4 + j) % 4 = j := by omega
  rw [tagGet, hbyte, hfield]

/-- **Growth forgets every entry**: whatever the old table held, the new one holds zeroes, one
entry for each taken slot but for the last `size_allocated % 4`, which the loops leave out. -/
theorem hashmapGrow_spec (h : Hashmap) (depth : Nat) :
    ∃ h', hashmapGrowWith (hashmapInsertDepth (depth + 1)) h = some h' ∧
      Regrown h (h.sizeAllocated / 4 * 4) h' ∧
      h'.size = h.takenBefore (h.sizeAllocated / 4 * 4) := by
  refine foldlM_range (I := fun i h' => Regrown h (i * 4) h' ∧ h'.size = h.takenBefore (i * 4))
    ⟨by simpa using regrown_new h, rfl⟩ fun i hi hlt hRi => ?_
  -- The four tags of one byte.
  have hinner := foldlM_range
    (I := fun j h' => Regrown h (i * 4 + j) h' ∧ h'.size = h.takenBefore (i * 4 + j)) (n := 4) hRi
    (f := fun hashmap j =>
      if (h.data i >>> UInt8.ofNat (j * 2)) &&& 0x03 = tagTaken then
        hashmapInsertDepth (depth + 1) hashmap
          (.self (((h.sizeAllocated * 2 + 1) * 2 + 7) / 8 +
            ((hashmap.sizeValue + hashmap.sizeKey) + i * 4 + j)))
          (.self (((h.sizeAllocated * 2 + 1) * 2 + 7) / 8 +
            ((hashmap.sizeValue + hashmap.sizeKey) + i * 4 + j) + hashmap.sizeKey))
      else some hashmap)
    fun j hj hjlt hRj => ?_
  · obtain ⟨h', heq, hR'⟩ := hinner
    exact ⟨h', heq, by rwa [Nat.succ_mul]⟩
  · obtain ⟨hRj, hsize⟩ := hRj
    simp only [← add_assoc, takenBefore_succ, tagGet_four_mul h.data i hjlt, ← hsize]
    split_ifs with htag
    · have hoff : hj.entriesOff ≤ ((h.sizeAllocated * 2 + 1) * 2 + 7) / 8 := by
        rw [entriesOff, hRj.sizeAllocated]
        omega
      obtain ⟨h', heq, hR', hsize'⟩ := hRj.insert (m := i * 4 + j) (by omega)
        (((h.sizeAllocated * 2 + 1) * 2 + 7) / 8 +
          ((hj.sizeValue + hj.sizeKey) + i * 4 + j))
        (((h.sizeAllocated * 2 + 1) * 2 + 7) / 8 +
          ((hj.sizeValue + hj.sizeKey) + i * 4 + j) + hj.sizeKey) (by omega) (by omega) depth
      exact ⟨h', by simpa only [add_assoc] using heq, hR', hsize'⟩
    · exact ⟨hj, rfl, ⟨hRj.wf, hRj.noGrave, hRj.hashFunc, hRj.sizeKey, hRj.sizeValue, hRj.lock,
        hRj.sizeAllocated, hRj.size_le.trans (by omega), hRj.zeroed⟩, rfl⟩

theorem hashmapGrow_regrown (h : Hashmap) (depth : Nat) :
    ∃ h', hashmapGrowWith (hashmapInsertDepth (depth + 1)) h = some h' ∧
      Regrown h (h.sizeAllocated / 4 * 4) h' := by
  obtain ⟨h', heq, hR, -⟩ := hashmapGrow_spec h depth
  exact ⟨h', heq, hR⟩

/-- After growth only the zero key can be found. -/
theorem Regrown.lookup {old h : Hashmap} {m : Nat} (hR : Regrown old m h) {k : List UInt8}
    (hk : k ≠ h.zeroKey) : h.lookup k = none := by
  refine (Table.lookup_eq_none_iff hR.wf.pos hR.wf.reach).2 fun i hi v hslot => ?_
  obtain ⟨-, hkey, -⟩ := (slot_taken_iff hi).1 hslot
  exact hk (hkey.symm.trans (read_zeros hR.zeroed (h.entriesOff_le_keyPtr i) _))

/-- An insertion that must not grow the table. -/
def insertNoGrow (h : Hashmap) (key value : Src) : Option Hashmap :=
  if h.Full then none
  else insertLoop h key value h.sizeAllocated
    (h.hashFunc (key.read h.data h.sizeKey) % h.sizeAllocated)

theorem hashmapGrowWith_noGrow (h : Hashmap) (depth : Nat) :
    hashmapGrowWith (hashmapInsertDepth (depth + 1)) h = hashmapGrowWith insertNoGrow h := by
  -- After `m` rounds at most `m` keys are back, and the threshold is the old capacity.
  have hround (m : Nat) (hm : m < h.sizeAllocated) (h₁ : Hashmap) (key value : Src)
      (hI : h₁.size ≤ m ∧ h₁.sizeAllocated = h.sizeAllocated * 2 + 1) :
      hashmapInsertDepth (depth + 1) h₁ key value = insertNoGrow h₁ key value ∧
        ∀ h₂, hashmapInsertDepth (depth + 1) h₁ key value = some h₂ →
          h₂.size ≤ m + 1 ∧ h₂.sizeAllocated = h.sizeAllocated * 2 + 1 := by
    have hnot : ¬ h₁.Full := by rw [Full]; omega
    rw [hashmapInsertDepth_of_not_full hnot, insertNoGrow, if_neg hnot]
    refine ⟨rfl, fun h₂ hloop => ?_⟩
    obtain ⟨p, rfl⟩ := insertLoop_eq_fillSlot hloop
    exact ⟨Nat.succ_le_succ hI.1, hI.2⟩
  refine (foldlM_range_congr
    (I := fun i h₁ => h₁.size ≤ i * 4 ∧ h₁.sizeAllocated = h.sizeAllocated * 2 + 1)
    ⟨le_rfl, rfl⟩ fun i h₁ hi hI => ?_).1
  refine foldlM_range_congr (n := 4)
    (I := fun j h₁ => h₁.size ≤ i * 4 + j ∧ h₁.sizeAllocated = h.sizeAllocated * 2 + 1)
    hI (fun j h₂ hj hJ => ?_) |>.imp_right fun hpost h₂ hh₂ => ?_
  · dsimp only
    split_ifs
    · exact hround (i * 4 + j) (by omega) h₂ _ _ hJ
    · refine ⟨rfl, fun h₃ hh₃ => ?_⟩
      obtain rfl : h₂ = h₃ := by simpa using hh₃
      exact ⟨hJ.1.trans (by omega), hJ.2⟩
  · obtain ⟨hsize, hn⟩ := hpost h₂ hh₂
    exact ⟨hsize.trans (by omega), hn⟩

/-- Insertions call each other two deep at most. -/
theorem hashmapInsertDepth_succ (h : Hashmap) (key value : Src) (depth : Nat) :
    hashmapInsertDepth (depth + 2) h key value = hashmapInsertDepth 2 h key value := by
  rw [hashmapInsertDepth, hashmapInsertDepth, hashmapGrowWith_noGrow, hashmapGrowWith_noGrow h 0]

/-! ## `hashmap_insert` -/

/-- `h'` is `h` after an insertion of the absent key `k` with value `v`. -/
structure Inserted (h : Hashmap) (k v : List UInt8) (h' : Hashmap) : Prop where
  sound : h'.Sound
  hashFunc : h'.hashFunc = h.hashFunc
  sizeKey : h'.sizeKey = h.sizeKey
  sizeValue : h'.sizeValue = h.sizeValue
  lock : h'.lock = h.lock
  /-- The key is found, and every other key as before, unless the table grew. -/
  lookup : ∀ k', k' ≠ h.zeroKey →
    h'.lookup k' = if k' = k then some v else if h.Full then none else h.lookup k'

/-- The last part of an insertion, once there is room. -/
theorem insertLoop_sound {h : Hashmap} (hW : h.WF) (hg : h.NoGrave)
    (hshape : h.sizeAllocated % 4 = 3) (hroom : h.size < h.sizeAllocated / 2)
    {k v : List UInt8} (hk : k.length = h.sizeKey) (hv : v.length = h.sizeValue) :
    ∃ p, h.table.insertAt k = some p ∧
      insertLoop h (.ext k) (.ext v) h.sizeAllocated (h.hashFunc k % h.sizeAllocated) =
        some (fillSlot h (.ext k) (.ext v) p) ∧
      (fillSlot h (.ext k) (.ext v) p).Sound ∧
      (fillSlot h (.ext k) (.ext v) p).table = h.table.put p k v := by
  have hcount : h.table.count < h.sizeAllocated := by rw [← hW.size_eq]; omega
  obtain ⟨p, hp, hloop, hwf, htable⟩ := insertLoop_put hW hcount hk hv
  exact ⟨p, hp, hloop, ⟨hwf, fillSlot_noGrave hg _ _ p, hshape, hroom⟩, htable⟩

/-- An absent key is found afterwards, and the others as before. -/
theorem insertLoop_inserted {h : Hashmap} (hW : h.WF) (hg : h.NoGrave)
    (hshape : h.sizeAllocated % 4 = 3) (hroom : h.size < h.sizeAllocated / 2)
    {k v : List UInt8} (hk : k.length = h.sizeKey) (hv : v.length = h.sizeValue)
    (habs : h.lookup k = none) :
    ∃ h', insertLoop h (.ext k) (.ext v) h.sizeAllocated (h.hashFunc k % h.sizeAllocated) =
        some h' ∧ h'.Sound ∧ h'.hashFunc = h.hashFunc ∧ h'.sizeKey = h.sizeKey ∧
      h'.sizeValue = h.sizeValue ∧ h'.lock = h.lock ∧
      ∀ k', h'.lookup k' = if k' = k then some v else h.lookup k' := by
  obtain ⟨p, hp, hloop, hS, htable⟩ := insertLoop_sound hW hg hshape hroom hk hv
  refine ⟨_, hloop, hS, rfl, rfl, rfl, rfl, fun k' => ?_⟩
  rw [lookup, htable]
  split_ifs with hk'
  · subst hk'
    exact Table.lookup_put_self hW.pos hW.reach hp habs v
  · exact Table.lookup_put_of_ne hW.pos hW.reach hp hk' v

/-- The table into which `hashmap_insert` puts the entry: the old one, or what growth made. -/
theorem hashmapInsert_room {h : Hashmap} (hS : h.Sound) {k : List UInt8}
    (hk : k.length = h.sizeKey) (v : List UInt8) :
    ∃ h₁, hashmapInsert h k v =
        insertLoop h₁ (.ext k) (.ext v) h₁.sizeAllocated (h₁.hashFunc k % h₁.sizeAllocated) ∧
      h₁.WF ∧ h₁.NoGrave ∧ h₁.sizeAllocated % 4 = 3 ∧ h₁.size < h₁.sizeAllocated / 2 ∧
      if h.Full then Regrown h (h.sizeAllocated / 4 * 4) h₁ else h₁ = h := by
  have hread := Src.read_ext h.data hk
  by_cases hfull : h.Full
  · obtain ⟨h₁, hgrow, hR⟩ := hashmapGrow_regrown h 0
    have hshape := hS.shape
    have hn := hR.sizeAllocated
    have hsize := hR.size_le
    refine ⟨h₁, ?_, hR.wf, hR.noGrave, by omega, by omega, by rwa [if_pos hfull]⟩
    rw [hashmapInsert, hashmapInsertDepth_of_full hfull hgrow, hread, hR.hashFunc]
  · have hroom : h.size < h.sizeAllocated / 2 := by simpa [Full] using hfull
    refine ⟨h, ?_, hS.toWF, hS.noGrave, hS.shape, hroom, by rw [if_neg hfull]⟩
    rw [hashmapInsert, hashmapInsertDepth_of_not_full hfull, hread]

/-- **Insertion of an absent key.** It returns, the key is found afterwards, and the table
keeps its invariant. Other keys are found as before, except that a table at its growth
threshold loses them all. -/
theorem hashmapInsert_spec {h : Hashmap} (hS : h.Sound) {k v : List UInt8}
    (hk : k.length = h.sizeKey) (hv : v.length = h.sizeValue) (hk0 : k ≠ h.zeroKey)
    (habs : h.lookup k = none) : ∃ h', hashmapInsert h k v = some h' ∧ Inserted h k v h' := by
  obtain ⟨h₁, heq, hW, hg, hshape, hroom, hgrown⟩ := hashmapInsert_room hS hk v
  rw [heq]
  by_cases hfull : h.Full
  · rw [if_pos hfull] at hgrown
    obtain ⟨h', hloop, hS', hf, hsk, hsv, hl, hlook⟩ := insertLoop_inserted (k := k) (v := v)
      hW hg hshape hroom (by rw [hgrown.sizeKey, hk]) (by rw [hgrown.sizeValue, hv])
      (hgrown.lookup (by rwa [zeroKey, hgrown.sizeKey]))
    refine ⟨h', hloop, hS', hf.trans hgrown.hashFunc, hsk.trans hgrown.sizeKey,
      hsv.trans hgrown.sizeValue, hl.trans hgrown.lock, fun k' hk' => ?_⟩
    rw [hlook, if_pos hfull, hgrown.lookup (by rwa [zeroKey, hgrown.sizeKey])]
  · rw [if_neg hfull] at hgrown
    subst hgrown
    obtain ⟨h', hloop, hS', hf, hsk, hsv, hl, hlook⟩ :=
      insertLoop_inserted hW hg hshape hroom hk hv habs
    refine ⟨h', hloop, hS', hf, hsk, hsv, hl, fun k' _ => ?_⟩
    rw [hlook, if_neg hfull]

/-- Insertion of any key returns, and the table stays sound. -/
theorem hashmapInsert_sound {h : Hashmap} (hS : h.Sound) {k v : List UInt8}
    (hk : k.length = h.sizeKey) (hv : v.length = h.sizeValue) :
    ∃ h', hashmapInsert h k v = some h' ∧ h'.Sound ∧ h'.sizeKey = h.sizeKey ∧
      h'.sizeValue = h.sizeValue := by
  obtain ⟨h₁, heq, hW, hg, hshape, hroom, hgrown⟩ := hashmapInsert_room hS hk v
  have hsizes : h₁.sizeKey = h.sizeKey ∧ h₁.sizeValue = h.sizeValue := by
    split_ifs at hgrown
    · exact ⟨hgrown.sizeKey, hgrown.sizeValue⟩
    · rw [hgrown]
      exact ⟨rfl, rfl⟩
  obtain ⟨p, -, hloop, hS', -⟩ := insertLoop_sound (k := k) (v := v) hW hg hshape hroom
    (hk.trans hsizes.1.symm) (hv.trans hsizes.2.symm)
  exact ⟨_, heq.trans hloop, hS', hsizes⟩

theorem hashmapInit_sound (hashFunc : List UInt8 → Nat) (sizeKey sizeValue : Nat) :
    (hashmapInit hashFunc sizeKey sizeValue).Sound ∧
      ∀ k, (hashmapInit hashFunc sizeKey sizeValue).lookup k = none := by
  have htag (i : Nat) : tagGet Mem.zero i = tagEmpty := by
    simp [tagGet, tagEmpty]
  have hempty : ∀ i < hashmapSizeInit,
      (hashmapInit hashFunc sizeKey sizeValue).slot i = .empty :=
    fun i hi => (slot_empty_iff (h := hashmapInit hashFunc sizeKey sizeValue) hi).2 (htag i)
  have hW : (hashmapInit hashFunc sizeKey sizeValue).WF :=
    ⟨Nat.succ_pos _, fun i _ => Or.inl (htag i), Table.reach_of_empty hempty,
      (Table.count_of_empty hempty).symm⟩
  refine ⟨⟨hW, fun i _ => ?_, (by decide : hashmapSizeInit % 4 = 3), Nat.zero_le _⟩,
    fun k => ?_⟩
  · show tagGet Mem.zero i ≠ tagGrave
    rw [htag]
    decide
  · refine (Table.lookup_eq_none_iff hW.pos hW.reach).2 fun i hi v hslot => ?_
    exact absurd (hslot.symm.trans (hempty i hi)) (by simp)

end NaptRouter
