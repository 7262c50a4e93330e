import NaptRouter.Learning
import NaptRouter.Lib.GrowArray

/-!
# The IP-to-MAC table in memory

`devices.c` keeps its pairs in an array that grows by `realloc`. Here the array is a block of
cells, as it is in memory: an update overwrites the cell with its address, or uses one more cell.
That refines the list of `Devices.lean` as long as no more cells are used than there is room for
(`toMap_updateIpMacPair`), which is so in every table that updates have made. So such a table is a
map in which the last writer wins (`mac_table_history`).
-/

namespace NaptRouter

open GrowArray

/-- `ip_mac_map_arr`, with `ip_mac_map_alloc_amt` and `ip_mac_map_amt`. -/
abbrev IpMacArray := GrowArray IpMacPair

namespace IpMacArray

/-- The loop over the array that all three functions begin with. -/
def findIp (m : IpMacArray) (ip : IpAddr) : Option Nat :=
  (List.range m.used).find? fun i => ipAddrEquals ip (m.cells i).ipAddr

/-- `update_ip_mac_pair`. Where the array is full, `fresh` is what `realloc` leaves behind the
old cells. -/
def updateIpMacPair (m : IpMacArray) (fresh : Nat → IpMacPair) (pair : IpMacPair) : IpMacArray :=
  match findIp m pair.ipAddr with
  | some i => m.set i { m.cells i with macAddr := pair.macAddr }
  | none =>
      let m :=
        if m.used ≥ m.room then
          let allocAmt := if m.room = 0 then 5 else m.room
          m.resize fresh (allocAmt * 2)
        else m
      m.push pair

def hasMacForIp (m : IpMacArray) (ip : IpAddr) : Bool := (findIp m ip).isSome

def getMacFromIp (m : IpMacArray) (ip : IpAddr) : MacAddr :=
  match findIp m ip with
  | some i => (m.cells i).macAddr
  | none => ⟨0, 0, 0, 0, 0, 0⟩

end IpMacArray

/-! ## The array as a list -/

/-- What the array is about. -/
def toMap (m : IpMacArray) : IpMacMap := ⟨m.contents, m.room⟩

section Refinement

variable {m : IpMacArray} {ip : IpAddr}

theorem find_contents (m : IpMacArray) (ip : IpAddr) :
    (m.contents.find? fun p => ipAddrEquals ip p.ipAddr) =
      (IpMacArray.findIp m ip).map m.cells := by
  rw [contents, List.find?_map, IpMacArray.findIp]
  rfl

theorem hasMacForIp_toMap (m : IpMacArray) (ip : IpAddr) :
    hasMacForIp (toMap m) ip = IpMacArray.hasMacForIp m ip := by
  have hfind := find_contents m ip
  have hany : hasMacForIp (toMap m) ip =
      (m.contents.find? fun p => ipAddrEquals ip p.ipAddr).isSome := by
    rw [hasMacForIp, List.isSome_find?]
    rfl
  rw [hany, hfind, Option.isSome_map, IpMacArray.hasMacForIp]

theorem getMacFromIp_toMap (m : IpMacArray) (ip : IpAddr) :
    getMacFromIp (toMap m) ip = IpMacArray.getMacFromIp m ip := by
  have hfind : ((toMap m).arr.find? fun p => ipAddrEquals ip p.ipAddr) =
      (IpMacArray.findIp m ip).map m.cells := find_contents m ip
  rw [getMacFromIp, hfind, IpMacArray.getMacFromIp]
  cases IpMacArray.findIp m ip with
  | none => rfl
  | some i => rfl

theorem findIp_eq_some {i : Nat} : IpMacArray.findIp m ip = some i ↔
    (m.cells i).ipAddr = ip ∧ i < m.used ∧ ∀ j < i, (m.cells j).ipAddr ≠ ip := by
  rw [IpMacArray.findIp, List.find?_range_eq_some, ipAddrEquals_iff, List.mem_range]
  refine and_congr eq_comm (and_congr_right fun _ => forall₂_congr fun j _ => ?_)
  rw [Bool.not_eq_true', Bool.eq_false_iff, Ne, ipAddrEquals_iff, eq_comm]

theorem updateExisting_set {pair p : IpMacPair} {arr : List IpMacPair} {i : Nat}
    (hp : arr[i]? = some p) (hip : p.ipAddr = pair.ipAddr)
    (hbefore : ∀ j < i, ∀ q, arr[j]? = some q → q.ipAddr ≠ pair.ipAddr) :
    updateExisting pair arr = some (arr.set i { p with macAddr := pair.macAddr }) := by
  induction arr generalizing i with
  | nil => cases hp
  | cons q rest ih =>
    rw [updateExisting]
    cases i with
    | zero =>
      obtain rfl : q = p := Option.some.inj hp
      rw [if_pos (ipAddrEquals_iff.2 hip.symm)]
      rfl
    | succ i =>
      have hq : q.ipAddr ≠ pair.ipAddr := hbefore 0 (Nat.succ_pos i) q rfl
      have hrest := ih hp fun j hj => hbefore (j + 1) (Nat.succ_lt_succ hj)
      rw [if_neg (mt ipAddrEquals_iff.1 (Ne.symm hq)), hrest]
      rfl

theorem updateExisting_eq_none {pair : IpMacPair} {arr : List IpMacPair}
    (h : pair.ipAddr ∉ arr.map (·.ipAddr)) : updateExisting pair arr = none := by
  have hspec := updateExisting_spec pair arr
  cases hupd : updateExisting pair arr with
  | none => rfl
  | some arr' =>
    rw [hupd] at hspec
    exact absurd hspec.1 h

/-- **An update of the array is an update of the list.** -/
theorem toMap_updateIpMacPair (hroom : m.used ≤ m.room) (fresh : Nat → IpMacPair)
    (pair : IpMacPair) :
    toMap (IpMacArray.updateIpMacPair m fresh pair) = updateIpMacPair (toMap m) pair := by
  rw [IpMacArray.updateIpMacPair, updateIpMacPair]
  cases hfind : IpMacArray.findIp m pair.ipAddr with
  | some i =>
    obtain ⟨hip, hi, hbefore⟩ := findIp_eq_some.1 hfind
    have hset : updateExisting pair (toMap m).arr =
        some (m.contents.set i { m.cells i with macAddr := pair.macAddr }) := by
      apply updateExisting_set (getElem?_contents hi) hip
      intro j hj q hq
      have hcell : m.contents[j]? = some (m.cells j) := getElem?_contents (hj.trans hi)
      obtain rfl : m.cells j = q := Option.some.inj (hcell.symm.trans hq)
      exact hbefore j hj
    rw [hset, toMap, contents_set]
    rfl
  | none =>
    have hnone : updateExisting pair (toMap m).arr = none := by
      apply updateExisting_eq_none
      intro hmem
      have hhas := hasMacForIp_iff.2 hmem
      rw [hasMacForIp_toMap, IpMacArray.hasMacForIp, hfind] at hhas
      cases hhas
    have hlen : (toMap m).arr.length = m.used := length_contents m
    have hrest : (toMap m).allocAmt = m.room := rfl
    simp only [hnone, hlen, hrest]
    split_ifs with hfull hempty
    · rw [toMap, contents_push, contents_resize hroom (by omega)]
      rfl
    · rw [toMap, contents_push, contents_resize hroom (by omega)]
      rfl
    · rw [toMap, contents_push]
      rfl

end Refinement

/-! ## What updates keep -/

/-- No address is there twice, and there is room for the pairs. -/
structure IpMacMap.WellFormed (m : IpMacMap) : Prop where
  distinct : (m.arr.map (·.ipAddr)).Nodup
  fits : m.arr.length ≤ m.allocAmt

theorem IpMacMap.WellFormed.update {m : IpMacMap} (h : m.WellFormed) (pair : IpMacPair) :
    (NaptRouter.updateIpMacPair m pair).WellFormed := by
  have hspec := updateExisting_spec pair m.arr
  rw [updateIpMacPair]
  cases hupd : updateExisting pair m.arr with
  | some arr' =>
    rw [hupd] at hspec
    obtain ⟨-, hsame⟩ := hspec
    have hlen := congrArg List.length hsame
    rw [List.length_map, List.length_map] at hlen
    exact ⟨hsame ▸ h.distinct, hlen.trans_le h.fits⟩
  | none =>
    rw [hupd] at hspec
    constructor
    · rw [List.map_append]
      exact h.distinct.append (List.nodup_singleton _) (by simpa using hspec)
    · have hfits := h.fits
      simp only [List.length_append, List.length_singleton]
      split_ifs
      · omega
      · omega
      · omega

/-! ## Sequences of updates -/

/-- A call of `update_ip_mac_pair`, and what `realloc` leaves behind the old cells if it is
called. -/
structure UpdateCall where
  pair : IpMacPair
  fresh : Nat → IpMacPair

def updateCall (m : IpMacArray) (c : UpdateCall) : IpMacArray :=
  IpMacArray.updateIpMacPair m c.fresh c.pair

/-- The table after the calls. At first there is no block, whatever `cells` says. -/
def updates (cells : Nat → IpMacPair) (calls : List UpdateCall) : IpMacArray :=
  calls.foldl updateCall (empty cells)

/-- The table holds what the calls have written. -/
structure WrittenBy (calls : List UpdateCall) (m : IpMacArray) : Prop where
  known : ∀ ip, IpMacArray.hasMacForIp m ip = true ↔ ∃ c ∈ calls, c.pair.ipAddr = ip
  last : ∀ before c after, calls = before ++ c :: after →
    (∀ d ∈ after, d.pair.ipAddr ≠ c.pair.ipAddr) →
      IpMacArray.getMacFromIp m c.pair.ipAddr = c.pair.macAddr
  distinct : ∀ i < m.used, ∀ j < m.used, (m.cells i).ipAddr = (m.cells j).ipAddr → i = j
  fits : m.used ≤ m.room
  /-- When the next call makes the array grow, every entry stays where it is. -/
  grows : ∀ c, (updateCall m c).room ≠ m.room → m.room < (updateCall m c).room ∧
    (updateCall m c).used = m.used + 1 ∧ ∀ i < m.used, (updateCall m c).cells i = m.cells i

section Updates

variable {m : IpMacArray}

theorem toMap_foldl (calls : List UpdateCall) (h : (toMap m).WellFormed) :
    toMap (calls.foldl updateCall m) =
        calls.foldl (fun m c => NaptRouter.updateIpMacPair m c.pair) (toMap m) ∧
      (toMap (calls.foldl updateCall m)).WellFormed := by
  induction calls generalizing m with
  | nil => exact ⟨rfl, h⟩
  | cons c calls ih =>
    have hroom : m.used ≤ m.room := by
      have hfits := h.fits
      rwa [show (toMap m).arr.length = m.used from length_contents m] at hfits
    have hone : toMap (updateCall m c) = updateIpMacPair (toMap m) c.pair :=
      toMap_updateIpMacPair hroom c.fresh c.pair
    have hrest := ih (m := updateCall m c) (hone ▸ h.update c.pair)
    rw [hone] at hrest
    exact hrest

/-- Only an address that is new makes the array grow. -/
theorem updateCall_grows (hroom : m.used ≤ m.room) (c : UpdateCall)
    (hgrow : (updateCall m c).room ≠ m.room) : m.room < (updateCall m c).room ∧
      (updateCall m c).used = m.used + 1 ∧ ∀ i < m.used, (updateCall m c).cells i = m.cells i := by
  cases hfind : IpMacArray.findIp m c.pair.ipAddr with
  | some i =>
    simp only [updateCall, IpMacArray.updateIpMacPair, hfind] at hgrow
    exact absurd rfl hgrow
  | none =>
    simp only [updateCall, IpMacArray.updateIpMacPair, hfind] at hgrow ⊢
    by_cases hfull : m.used ≥ m.room
    · let allocAmt := if m.room = 0 then 5 else m.room
      have halloc : m.room < allocAmt * 2 := by
        show m.room < (if m.room = 0 then 5 else m.room) * 2
        split_ifs
        · omega
        · omega
      rw [if_pos hfull]
      refine ⟨halloc, rfl, fun i hi => ?_⟩
      have hpush : ((m.resize c.fresh (allocAmt * 2)).push c.pair).cells i =
          (m.resize c.fresh (allocAmt * 2)).cells i :=
        Function.update_of_ne (Nat.ne_of_lt hi) _ _
      exact hpush.trans (resize_cells (by omega) (by omega))
    · rw [if_neg hfull] at hgrow
      exact absurd rfl hgrow

end Updates

/-- **The table is a map in which the last writer wins**, whatever the sequence of updates is. -/
theorem mac_table_history (cells : Nat → IpMacPair) (calls : List UpdateCall) :
    WrittenBy calls (updates cells calls) := by
  have hempty : (toMap (empty cells)).WellFormed := ⟨List.nodup_nil, le_rfl⟩
  obtain ⟨hmap, hwf⟩ := toMap_foldl calls hempty
  have hfits : (updates cells calls).used ≤ (updates cells calls).room := by
    have hlen := hwf.fits
    rwa [show (toMap (calls.foldl updateCall (empty cells))).arr.length =
      (updates cells calls).used from length_contents _] at hlen
  have hlook (m : IpMacMap) (c : UpdateCall) (ip : IpAddr) :
      macOf (updateIpMacPair m c.pair) ip =
        if ip = c.pair.ipAddr then some c.pair.macAddr else macOf m ip := macOf_update m c.pair ip
  -- From here on the array is the map that the calls update.
  have hhas (ip : IpAddr) : IpMacArray.hasMacForIp (updates cells calls) ip =
      (macOf (calls.foldl (fun m c => updateIpMacPair m c.pair) (toMap (empty cells)))
        ip).isSome := by
    rw [← hmap, macOf, hasMacForIp_toMap]
    split_ifs with h
    · exact h
    · exact Bool.eq_false_iff.2 h
  constructor
  · intro ip
    rw [hhas, lookup_foldl_isSome hlook]
    exact or_iff_right Bool.false_ne_true
  · intro before c after hcalls hafter
    have hlast := lookup_foldl_last hlook before (toMap (empty cells)) hafter
    rw [← hcalls, ← hmap, macOf, hasMacForIp_toMap, getMacFromIp_toMap] at hlast
    split_ifs at hlast with h
    exact Option.some.inj hlast
  · intro i hi j hj hij
    have hnd := hwf.distinct
    rw [show (toMap (calls.foldl updateCall (empty cells))).arr = (updates cells calls).contents
      from rfl, contents, List.map_map] at hnd
    exact List.inj_on_of_nodup_map hnd (List.mem_range.2 hi) (List.mem_range.2 hj) hij
  · exact hfits
  · exact updateCall_grows hfits

end NaptRouter
