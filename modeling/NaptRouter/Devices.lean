import NaptRouter.Interfaces

/-!
# `devices.c`

The IP-to-MAC map: an array searched from the front, with the number of pairs it has room for.
-/

namespace NaptRouter

/-- `ip_mac_pair_t`. -/
structure IpMacPair where
  ipAddr : IpAddr
  macAddr : MacAddr
deriving DecidableEq, Repr

/-- `ip_mac_map_arr` and `ip_mac_map_alloc_amt`; `ip_mac_map_amt` is the length of the list. -/
structure IpMacMap where
  arr : List IpMacPair
  allocAmt : Nat
deriving DecidableEq, Repr

def IpMacMap.init : IpMacMap := ⟨[], 0⟩

/-- The first loop of `update_ip_mac_pair`: overwrite the pair's address if it is there. -/
def updateExisting (pair : IpMacPair) : List IpMacPair → Option (List IpMacPair)
  | [] => none
  | p :: rest =>
      if ipAddrEquals pair.ipAddr p.ipAddr then some ({ p with macAddr := pair.macAddr } :: rest)
      else (updateExisting pair rest).map (p :: ·)

def updateIpMacPair (m : IpMacMap) (pair : IpMacPair) : IpMacMap :=
  match updateExisting pair m.arr with
  | some arr => { m with arr }
  | none =>
      let allocAmt :=
        if m.arr.length ≥ m.allocAmt then (if m.allocAmt = 0 then 5 else m.allocAmt) * 2
        else m.allocAmt
      { arr := m.arr ++ [pair], allocAmt }

def hasMacForIp (m : IpMacMap) (ip : IpAddr) : Bool :=
  m.arr.any fun p => ipAddrEquals ip p.ipAddr

def getMacFromIp (m : IpMacMap) (ip : IpAddr) : MacAddr :=
  match m.arr.find? fun p => ipAddrEquals ip p.ipAddr with
  | some p => p.macAddr
  | none => ⟨0, 0, 0, 0, 0, 0⟩

/-- Overwriting leaves the addresses as they are; it fails when the address is not there. -/
theorem updateExisting_spec (pair : IpMacPair) (arr : List IpMacPair) :
    match updateExisting pair arr with
    | some arr' => pair.ipAddr ∈ arr.map (·.ipAddr) ∧ arr'.map (·.ipAddr) = arr.map (·.ipAddr)
    | none => pair.ipAddr ∉ arr.map (·.ipAddr) := by
  induction arr with
  | nil => simp [updateExisting]
  | cons p rest ih =>
    by_cases hp : pair.ipAddr = p.ipAddr
    · simp [updateExisting, hp]
    · have hne : ipAddrEquals pair.ipAddr p.ipAddr = false := by
        rw [Bool.eq_false_iff, Ne, ipAddrEquals_iff]
        exact hp
      simp only [updateExisting, hne, Bool.false_eq_true, if_false]
      cases hrest : updateExisting pair rest with
      | none =>
        rw [hrest] at ih
        simpa [hp] using ih
      | some arr' =>
        rw [hrest] at ih
        simp only [Option.map_some, List.map_cons, List.mem_cons]
        exact ⟨Or.inr ih.1, by rw [ih.2]⟩

theorem hasMacForIp_iff {m : IpMacMap} {ip : IpAddr} :
    hasMacForIp m ip = true ↔ ip ∈ m.arr.map (·.ipAddr) := by
  simp only [hasMacForIp, List.any_eq_true, ipAddrEquals_iff, List.mem_map]
  constructor
  · intro h
    obtain ⟨p, hp, hip⟩ := h
    exact ⟨p, hp, hip.symm⟩
  · intro h
    obtain ⟨p, hp, hip⟩ := h
    exact ⟨p, hp, hip.symm⟩

/-- An update adds its own address to the known ones, and no other. -/
theorem hasMacForIp_update (m : IpMacMap) (pair : IpMacPair) (ip : IpAddr) :
    hasMacForIp (updateIpMacPair m pair) ip = true ↔
      ip = pair.ipAddr ∨ hasMacForIp m ip = true := by
  have hspec := updateExisting_spec pair m.arr
  simp only [hasMacForIp_iff, updateIpMacPair]
  cases h : updateExisting pair m.arr with
  | some arr' =>
    rw [h] at hspec
    rw [hspec.2]
    refine ⟨Or.inr, ?_⟩
    intro hcase
    rcases hcase with rfl | hip
    · exact hspec.1
    · exact hip
  | none =>
    simp only [List.map_append, List.mem_append, List.map_cons, List.map_nil, List.mem_singleton]
    exact or_comm

end NaptRouter
