import NaptRouter.HashmapProof

/-!
# What growth keeps

`hashmap_grow` keeps the contents of a table exactly when there is nothing to lose: the table is
empty, or its one entry is the zero key with a zero value in a slot that the loops visit
(`hashmapGrow_keeps_iff`).
-/

namespace NaptRouter

open ByteMemory LinearProbing Hashmap

/-! ## Lookups -/

namespace Hashmap

/-- `hashmap_get` finds the key, with these value bytes. -/
def Finds (h : Hashmap) (k v : List UInt8) : Prop :=
  ∃ ptr h', hashmapGet h k = some (some ptr, h') ∧ h.data.read ptr h.sizeValue = v

/-- `hashmap_get` returns `NULL`. -/
def Misses (h : Hashmap) (k : List UInt8) : Prop := ∃ h', hashmapGet h k = some (none, h')

end Hashmap

section Lookups

variable {h : Hashmap} (hn : 0 < h.sizeAllocated) {k : List UInt8} (hk : k.length = h.sizeKey)

include hn hk

theorem finds_iff {v : List UInt8} : h.Finds k v ↔ h.lookup k = some v := by
  constructor
  · intro hfinds
    obtain ⟨ptr, h', hget, hread⟩ := hfinds
    cases hl : h.lookup k with
    | some w =>
      obtain ⟨ptr', hget', hread'⟩ := hashmapGet_hit hn hk hl
      rw [hget, Option.some.injEq, Prod.mk.injEq, Option.some.injEq] at hget'
      rw [← hread', ← hget'.1, hread]
    | none =>
      rw [hashmapGet_eq hn hk] at hget
      obtain ⟨r, hr, heq⟩ := Option.map_eq_some_iff.1 hget
      obtain ⟨hrn, ⟨hslot, -⟩ | ⟨w, -, hw⟩⟩ := Table.find_spec hn hr
      · rw [if_pos ((slot_empty_iff hrn).1 hslot)] at heq
        cases heq
      · cases hl.symm.trans hw
  · intro hl
    obtain ⟨ptr, hget, hread⟩ := hashmapGet_hit hn hk hl
    exact ⟨ptr, _, hget, hread⟩

theorem lookup_of_misses (hmiss : h.Misses k) : h.lookup k = none := by
  obtain ⟨h', hget⟩ := hmiss
  cases hl : h.lookup k with
  | none => rfl
  | some v =>
    obtain ⟨ptr, hget', -⟩ := hashmapGet_hit hn hk hl
    rw [hget] at hget'
    cases hget'

end Lookups

/-! ## Counting slots -/

theorem isTaken_slot_iff {h : Hashmap} {i : Nat} (hi : i < h.sizeAllocated) :
    (h.slot i).isTaken = true ↔ tagGet h.data i = tagTaken := by
  rw [slot, if_pos hi]
  split_ifs with h₀ h₁
  · simp [h₀, Slot.isTaken, tagEmpty, tagTaken]
  · simp [h₁, Slot.isTaken]
  · simp [h₁, Slot.isTaken]

/-- `size` of a well-formed table is the number of its taken tags. -/
theorem count_eq_takenBefore (h : Hashmap) : h.table.count = h.takenBefore h.sizeAllocated :=
  congrArg Finset.card (Finset.filter_congr fun _ hi => isTaken_slot_iff (Finset.mem_range.1 hi))

theorem Hashmap.WF.size_eq_takenBefore {h : Hashmap} (hW : h.WF) :
    h.size = h.takenBefore h.sizeAllocated := hW.size_eq.trans (count_eq_takenBefore h)

theorem takenBefore_mono (h : Hashmap) {m m' : Nat} (hm : m ≤ m') :
    h.takenBefore m ≤ h.takenBefore m' :=
  Finset.card_le_card (Finset.filter_subset_filter _ (Finset.range_mono hm))

theorem takenBefore_pos {h : Hashmap} {m : Nat} :
    0 < h.takenBefore m ↔ ∃ i < m, tagGet h.data i = tagTaken := by
  simp [takenBefore, Finset.card_pos, Finset.Nonempty]

theorem slot_unique {h : Hashmap} (hone : h.takenBefore h.sizeAllocated ≤ 1) {i j : Nat}
    (hi : i < h.sizeAllocated) (hj : j < h.sizeAllocated) {k v k' v' : List UInt8}
    (hslot : h.slot i = .taken k v) (hslot' : h.slot j = .taken k' v') : i = j := by
  refine Finset.card_le_one.1 hone i ?_ j ?_
  · exact Finset.mem_filter.2 ⟨Finset.mem_range.2 hi, ((slot_taken_iff hi).1 hslot).1⟩
  · exact Finset.mem_filter.2 ⟨Finset.mem_range.2 hj, ((slot_taken_iff hj).1 hslot').1⟩

theorem lookup_of_slot {h : Hashmap} (hW : h.WF)
    (hone : h.takenBefore h.sizeAllocated ≤ 1) {i : Nat} (hi : i < h.sizeAllocated)
    {k v : List UInt8} (hslot : h.slot i = .taken k v) : h.lookup k = some v := by
  cases hl : h.lookup k with
  | none => exact absurd hslot ((Table.lookup_eq_none_iff hW.pos hW.reach).1 hl i hi v)
  | some w =>
    obtain ⟨j, -, hslot', -⟩ := (Table.lookup_eq_some_iff (T := h.table) hW.pos).1 hl
    have hj : (h.table.start k + j) % h.table.n < h.sizeAllocated := Nat.mod_lt _ hW.pos
    obtain rfl := slot_unique hone hj hi hslot' hslot
    have hsame := hslot'.symm.trans hslot
    rw [Slot.taken.injEq] at hsame
    rw [hsame.2]

theorem slot_of_lookup {h : Hashmap} (hW : h.WF) {k v : List UInt8} (hl : h.lookup k = some v) :
    ∃ i < h.sizeAllocated, h.slot i = .taken k v := by
  obtain ⟨j, -, hslot, -⟩ := (Table.lookup_eq_some_iff (T := h.table) hW.pos).1 hl
  exact ⟨_, Nat.mod_lt _ hW.pos, hslot⟩

/-! ## The grown table -/

/-- The representation invariant with pairwise distinct keys. -/
structure Hashmap.RepInv (h : Hashmap) : Prop extends h.WF where
  distinct : ∀ i < h.sizeAllocated, ∀ j < h.sizeAllocated, ∀ k v w,
    h.slot i = .taken k v → h.slot j = .taken k w → i = j

/-- The value that growth puts into every slot it takes. -/
def Hashmap.zeroValue (h : Hashmap) : List UInt8 := List.replicate h.sizeValue 0

theorem Regrown.slot {old h : Hashmap} {m : Nat} (hR : Regrown old m h) {i : Nat}
    (hi : i < h.sizeAllocated) {k v : List UInt8} (hslot : h.slot i = .taken k v) :
    k = old.zeroKey ∧ v = old.zeroValue := by
  obtain ⟨-, hkey, hvalue⟩ := (slot_taken_iff hi).1 hslot
  have hoff := h.entriesOff_le_keyPtr i
  rw [zeroKey, zeroValue, ← hR.sizeKey, ← hR.sizeValue, ← hkey, ← hvalue]
  exact ⟨read_zeros hR.zeroed hoff _, read_zeros hR.zeroed (hoff.trans (Nat.le_add_right _ _)) _⟩

theorem Regrown.misses {old h : Hashmap} {m : Nat} (hR : Regrown old m h)
    (hm : m ≤ old.sizeAllocated) {k : List UInt8} (hk : k.length = h.sizeKey)
    (hl : h.lookup k = none) : h.Misses k := by
  have hsize := hR.size_le
  have hn := hR.sizeAllocated
  obtain ⟨q, hq, he⟩ := exists_empty hR.wf.tags hR.noGrave
    (by rw [← hR.wf.size_eq]; omega)
  exact ⟨h, hashmapGet_miss hR.wf.pos hk hq he hl⟩

/-- The grown table has distinct keys only if it has no two. -/
theorem Regrown.distinct_iff {old h : Hashmap} {m : Nat} (hR : Regrown old m h) :
    h.RepInv ↔ h.size ≤ 1 := by
  rw [hR.wf.size_eq_takenBefore]
  constructor
  · intro hrep
    refine Finset.card_le_one.2 fun i hi j hj => ?_
    obtain ⟨hin, hitag⟩ := Finset.mem_filter.1 hi
    obtain ⟨hjn, hjtag⟩ := Finset.mem_filter.1 hj
    rw [Finset.mem_range] at hin hjn
    have hislot := (slot_taken_iff hin).2 ⟨hitag, rfl, rfl⟩
    have hjslot := (slot_taken_iff hjn).2 ⟨hjtag, rfl, rfl⟩
    have hsame := (hR.slot hin hislot).1.trans (hR.slot hjn hjslot).1.symm
    exact hrep.distinct i hin j hjn _ _ _ hislot (hsame ▸ hjslot)
  · intro hone
    exact ⟨hR.wf, fun i hi j hj k v w hslot hslot' => slot_unique hone hi hj hslot hslot'⟩

/-! ## When growth keeps the contents -/

/-- `h'` has the contents of `h`, in twice the room and one slot more. -/
structure GrowKeeps (h h' : Hashmap) : Prop where
  capacity : h'.sizeAllocated = 2 * h.sizeAllocated + 1
  found : ∀ k v, k.length = h.sizeKey → h.Finds k v → h'.Finds k v
  absent : ∀ k, k.length = h.sizeKey → h.Misses k → h'.Misses k
  size : h'.size = h.size
  repInv : h'.RepInv

/-- The table is empty, or its one entry is zero and in a slot that `hashmap_grow` visits. -/
def GrowSafe (h : Hashmap) : Prop :=
  h.size = 0 ∨ h.size = 1 ∧
    ∃ i < h.sizeAllocated / 4 * 4, h.slot i = .taken h.zeroKey h.zeroValue

theorem growKeeps_of_safe {h h' : Hashmap} (hW : h.WF)
    (hR : Regrown h (h.sizeAllocated / 4 * 4) h')
    (hsize : h'.size = h.takenBefore (h.sizeAllocated / 4 * 4)) (hsafe : GrowSafe h) :
    GrowKeeps h h' := by
  have hm : h.sizeAllocated / 4 * 4 ≤ h.sizeAllocated := Nat.div_mul_le_self _ _
  have hall := hW.size_eq_takenBefore
  have hle := takenBefore_mono h hm
  -- At most one entry, and growth loses none.
  have hone : h.size ≤ 1 := by
    rcases hsafe with hzero | ⟨hone, -⟩ <;> omega
  have hsame : h'.size = h.size := by
    rcases hsafe with hzero | ⟨hone, i, hi, hslot⟩
    · omega
    · have hpos := takenBefore_pos.2 ⟨i, hi, ((slot_taken_iff (by omega)).1 hslot).1⟩
      omega
  refine ⟨by rw [hR.sizeAllocated]; omega, fun k v hk hfinds => ?_, fun k hk hmiss => ?_, hsame,
    hR.distinct_iff.2 (hsame ▸ hone)⟩
  · -- What was found is the one entry, which growth makes up again.
    obtain ⟨i, hi, hslot⟩ := slot_of_lookup hW ((finds_iff hW.pos hk).1 hfinds)
    have hpos := takenBefore_pos.2 ⟨i, hi, ((slot_taken_iff hi).1 hslot).1⟩
    rcases hsafe with hzero | ⟨-, j, hj, hslot'⟩
    · omega
    · obtain rfl := slot_unique (by omega) hi (by omega) hslot hslot'
      have hentry := hslot.symm.trans hslot'
      rw [Slot.taken.injEq] at hentry
      obtain ⟨rfl, rfl⟩ := hentry
      rw [hR.wf.size_eq_takenBefore] at hsame
      obtain ⟨p, hpn, hptag⟩ := takenBefore_pos.1
        (show 0 < h'.takenBefore h'.sizeAllocated by omega)
      have hpslot := (slot_taken_iff hpn).2 ⟨hptag, rfl, rfl⟩
      obtain ⟨hkey, hvalue⟩ := hR.slot hpn hpslot
      rw [hkey, hvalue] at hpslot
      exact (finds_iff hR.wf.pos (hk.trans hR.sizeKey.symm)).2
        (lookup_of_slot hR.wf (by omega) hpn hpslot)
  · have hl := lookup_of_misses hW.pos hk hmiss
    refine hR.misses hm (hk.trans hR.sizeKey.symm) ?_
    by_cases hzero : k = h.zeroKey
    · -- The zero key was absent, so the table was empty and is empty again.
      rcases hsafe with hempty | ⟨-, i, hi, hslot⟩
      · cases hl' : h'.lookup k with
        | none => rfl
        | some v =>
          obtain ⟨i, hi, hslot⟩ := slot_of_lookup hR.wf hl'
          have hpos := takenBefore_pos.2 ⟨i, hi, ((slot_taken_iff hi).1 hslot).1⟩
          rw [← hR.wf.size_eq_takenBefore] at hpos
          omega
      · rw [hzero, lookup_of_slot hW (by omega) (by omega) hslot] at hl
        cases hl
    · exact hR.lookup (by rwa [zeroKey, hR.sizeKey])

theorem safe_of_growKeeps {h h' : Hashmap} (hW : h.WF)
    (hR : Regrown h (h.sizeAllocated / 4 * 4) h')
    (hsize : h'.size = h.takenBefore (h.sizeAllocated / 4 * 4)) (hkeeps : GrowKeeps h h') :
    GrowSafe h := by
  have hone : h.size ≤ 1 := hkeeps.size ▸ hR.distinct_iff.1 hkeeps.repInv
  rcases Nat.eq_zero_or_pos h.size with hzero | hpos
  · exact Or.inl hzero
  · have hall := hW.size_eq_takenBefore
    have hcount := hkeeps.size
    obtain ⟨i, him, htag⟩ := takenBefore_pos.1
      (show 0 < h.takenBefore (h.sizeAllocated / 4 * 4) by omega)
    have hin : i < h.sizeAllocated := lt_of_lt_of_le him (Nat.div_mul_le_self _ _)
    have hslot := (slot_taken_iff hin).2 ⟨htag, rfl, rfl⟩
    have hk : (h.keyAt i).length = h.sizeKey := by simp [keyAt]
    -- The one entry is found in the new table, where everything is zero.
    have hfinds := hkeeps.found _ _ hk
      ((finds_iff hW.pos hk).2 (lookup_of_slot hW (by omega) hin hslot))
    obtain ⟨j, hj, hslot'⟩ := slot_of_lookup hR.wf
      ((finds_iff hR.wf.pos (hk.trans hR.sizeKey.symm)).1 hfinds)
    obtain ⟨hkey, hvalue⟩ := hR.slot hj hslot'
    exact Or.inr ⟨by omega, i, him, by rw [hslot, hkey, hvalue]⟩

/-- **Growth.** It returns, for every hash function, every key and value size and every
well-formed table; it keeps the contents if and only if `GrowSafe` holds. -/
theorem hashmapGrow_keeps_iff {h : Hashmap} (hW : h.WF) :
    ∃ h', hashmapGrow h = some h' ∧ (GrowKeeps h h' ↔ GrowSafe h) := by
  obtain ⟨h', heq, hR, hsize⟩ := hashmapGrow_spec h 0
  exact ⟨h', heq, safe_of_growKeeps hW hR hsize, growKeeps_of_safe hW hR hsize⟩

/-! ## Tables that insertions build -/

/-- The tables that `hashmap_init` and insertions of absent keys lead to. -/
inductive Built (hashFunc : List UInt8 → Nat) (sizeKey sizeValue : Nat) : Hashmap → Prop
  | init : Built hashFunc sizeKey sizeValue (hashmapInit hashFunc sizeKey sizeValue)
  | insert {h h' : Hashmap} {k v : List UInt8} : Built hashFunc sizeKey sizeValue h →
      k.length = sizeKey → v.length = sizeValue → h.Misses k → hashmapInsert h k v = some h' →
      Built hashFunc sizeKey sizeValue h'

theorem Built.sound {hashFunc : List UInt8 → Nat} {sizeKey sizeValue : Nat} {h : Hashmap}
    (hB : Built hashFunc sizeKey sizeValue h) :
    h.Sound ∧ h.sizeKey = sizeKey ∧ h.sizeValue = sizeValue := by
  induction hB with
  | init => exact ⟨(hashmapInit_sound ..).1, rfl, rfl⟩
  | insert _ hk hv _ hins ih =>
    obtain ⟨hS, hsk, hsv⟩ := ih
    obtain ⟨h₁, heq, hS₁, hsk₁, hsv₁⟩ := hashmapInsert_sound hS (hk.trans hsk.symm)
      (hv.trans hsv.symm)
    obtain rfl := Option.some.inj (hins.symm.trans heq)
    exact ⟨hS₁, hsk₁.trans hsk, hsv₁.trans hsv⟩

theorem built_one (hashFunc : List UInt8 → Nat) {k v : List UInt8} (hk : k.length = 1)
    (hv : v.length = 1) :
    ∃ h, hashmapInsert (hashmapInit hashFunc 1 1) k v = some h ∧ Built hashFunc 1 1 h := by
  have hempty := hashmapInit_sound hashFunc 1 1
  obtain ⟨h, heq, -⟩ := hashmapInsert_sound hempty.1 (k := k) (v := v) hk hv
  obtain ⟨q, hq, he⟩ := hempty.1.exists_empty
  exact ⟨h, heq, .insert .init hk hv
    ⟨_, hashmapGet_miss hempty.1.pos hk hq he (hempty.2 k)⟩ heq⟩

/-- An entry whose key and value are zero is all that growth can keep. -/
theorem hashmapGrow_keeps_zero :
    ∃ h h', Built (fun key => (key.headD 0).toNat) 1 1 h ∧ h.size = 1 ∧
      hashmapGrow h = some h' ∧ GrowKeeps h h' := by
  obtain ⟨h, heq, hB⟩ := built_one (fun key => (key.headD 0).toNat) (k := [0]) (v := [0]) rfl rfl
  have htest : ((hashmapInsert (hashmapInit (fun key => (key.headD 0).toNat) 1 1) [0] [0]).any
      fun h => decide (h.size = 1 ∧ h.sizeAllocated = 11 ∧ tagGet h.data 0 = tagTaken ∧
        h.keyAt 0 = h.zeroKey ∧ h.valueAt 0 = h.zeroValue)) = true := by decide +kernel
  rw [heq, Option.any_some] at htest
  obtain ⟨hsize, hn, hslot⟩ := of_decide_eq_true htest
  obtain ⟨h', hgrow, hkeeps⟩ := hashmapGrow_keeps_iff hB.sound.1.toWF
  refine ⟨h, h', hB, hsize, hgrow, hkeeps.2 (Or.inr ⟨hsize, 0, ?_, ?_⟩)⟩
  · rw [hn]
    decide
  · exact (slot_taken_iff hB.sound.1.pos).2 hslot

/-- Any other entry is lost. -/
theorem hashmapGrow_keeps_fails :
    ∃ h h', hashmapInsert (hashmapInit (fun key => (key.headD 0).toNat) 1 1) [5] [7] = some h ∧
      Built (fun key => (key.headD 0).toNat) 1 1 h ∧ h.RepInv ∧ hashmapGrow h = some h' ∧
      h.Finds [5] [7] ∧ h'.Misses [5] ∧ ¬ GrowKeeps h h' := by
  obtain ⟨h, heq, hB⟩ := built_one (fun key => (key.headD 0).toNat) (k := [5]) (v := [7]) rfl rfl
  have htest : ((hashmapInsert (hashmapInit (fun key => (key.headD 0).toNat) 1 1) [5] [7]).any
      fun h => decide (h.size = 1 ∧ h.sizeAllocated = 11 ∧ tagGet h.data 5 = tagTaken ∧
        h.keyAt 5 = [5] ∧ h.valueAt 5 = [7] ∧ h.sizeKey = 1)) = true := by decide +kernel
  rw [heq, Option.any_some] at htest
  obtain ⟨hsize, hn, htag, hkey, hvalue, hsk⟩ := of_decide_eq_true htest
  have hW := hB.sound.1.toWF
  have hone : h.takenBefore h.sizeAllocated ≤ 1 := by
    rw [← hW.size_eq_takenBefore, hsize]
  have h5 : 5 < h.sizeAllocated := by rw [hn]; decide
  have hlen : ([5] : List UInt8).length = h.sizeKey := hsk.symm
  have hfinds : h.Finds [5] [7] := (finds_iff hW.pos hlen).2
    (lookup_of_slot hW hone h5 ((slot_taken_iff h5).2 ⟨htag, hkey, hvalue⟩))
  obtain ⟨h', hgrow, hR⟩ := hashmapGrow_regrown h 0
  have hne : ([5] : List UInt8) ≠ h'.zeroKey := by
    rw [zeroKey, hR.sizeKey, hsk]
    decide
  have hsk' : ([5] : List UInt8).length = h'.sizeKey := hlen.trans hR.sizeKey.symm
  have hmiss : h'.Misses [5] :=
    hR.misses (Nat.div_mul_le_self _ _) hsk' (hR.lookup hne)
  refine ⟨h, h', heq, hB, ⟨hW, fun i hi j hj k v w hs hs' => slot_unique hone hi hj hs hs'⟩,
    hgrow, hfinds, hmiss, fun hkeeps => ?_⟩
  have hfound := (finds_iff hR.wf.pos hsk').1 (hkeeps.found _ _ hlen hfinds)
  rw [lookup_of_misses hR.wf.pos hsk' hmiss] at hfound
  cases hfound

end NaptRouter
