import NaptRouter.NaptHistory
import NaptRouter.TableGrowth

/-!
# The probing loops of the NAPT tables stop

`napt_probing` — in every state of every run both tables are at most half full and have no
tombstone, so the loops of `hashmap_get` and `hashmap_insert` stop within one round of the table,
and `hashmap_grow` inserts without growing again.
-/

namespace NaptRouter

open ByteMemory LinearProbing Hashmap Runs

variable {cfg : Config}

/-- What the loops of `hashmap.c` need to stop. -/
structure Hashmap.Probes (h : Hashmap) : Prop where
  size_eq : h.size = h.takenBefore h.sizeAllocated
  load : h.size ≤ h.sizeAllocated / 2
  noGrave : ∀ i < h.sizeAllocated, tagGet h.data i ≠ tagGrave
  shape : h.sizeAllocated % 4 = 3

/-- The loops stop within `size_allocated` rounds for every key, and the insertions of
`hashmap_grow` never grow the table. -/
structure Hashmap.Stops (h : Hashmap) : Prop where
  get : ∀ key, key.length = h.sizeKey →
    ∃ found, getLoop h key h.sizeAllocated (h.hashFunc key % h.sizeAllocated) = some found
  insert : ∀ key value, key.length = h.sizeKey → value.length = h.sizeValue →
    ∃ h', hashmapInsert h key value = some h'
  grow : ∃ h', hashmapGrow h = some h' ∧ hashmapGrowWith insertNoGrow h = some h'

theorem Hashmap.Sound.probes {h : Hashmap} (hS : h.Sound) : h.Probes :=
  ⟨hS.size_eq_takenBefore, hS.load, hS.noGrave, hS.shape⟩

theorem Hashmap.Sound.stops {h : Hashmap} (hS : h.Sound) : h.Stops := by
  refine ⟨fun key hkey => ?_, fun key value hkey hvalue => ?_, ?_⟩
  · obtain ⟨q, hq, he⟩ := hS.exists_empty
    obtain ⟨r, hr⟩ := Table.exists_find (T := h.table) hq he key
    have hscan : scan h.sizeAllocated (h.table.stops key) h.sizeAllocated
        (h.hashFunc key % h.sizeAllocated) = some r := hr
    exact ⟨_, by rw [getLoop_eq hkey (Nat.mod_lt _ hS.pos), hscan, Option.map_some]⟩
  · obtain ⟨h', heq, -⟩ := hashmapInsert_sound hS hkey hvalue
    exact ⟨h', heq⟩
  · obtain ⟨h', heq, -⟩ := hashmapGrow_regrown h 0
    exact ⟨h', heq, by rw [← hashmapGrowWith_noGrow h 0, heq]⟩

/-- A packet that is not handled to the end waits for the mutex of the intern table. -/
theorem ipv4Handle_blocked {r : Router} (hok : r.napt.Ok) {i : Ipv4Input cfg}
    (h : ipv4Handle cfg r i = none) : r.napt.internHashmap.lock = true := by
  rw [ipv4Handle] at h
  cases hpath : ipv4Path cfg i.pkt i.intId with
  | ignored => simp [hpath] at h
  | bridged => simp [hpath] at h
  | inc =>
    rw [hpath] at h
    obtain ⟨lan, htr⟩ := exists_naptIncTranslate hok i.pkt
    cases lan <;> simp [naptIncHandle, htr] at h
  | out =>
    rw [hpath] at h
    cases hports : transportPorts i.pkt with
    | none => simp [naptOutHandle, naptOutTranslate, hports] at h
    | some ports =>
      have hspec := naptOutTranslate_spec cfg hok i.rand hports
      split_ifs at hspec with hlock
      · exact hlock
      · obtain ⟨napt', port, htr, -⟩ := hspec
        cases port <;> simp [naptOutHandle, htr] at h

/-- **Probing terminates.** In every state of every run from `napt_init`, with any packets and
any random numbers, both tables satisfy the load invariant and all their loops stop; a packet
can only be held up by the mutex of the intern table. -/
theorem napt_probing {r s : Router} {tr : List (Ipv4Step cfg)} (h : Ipv4Run cfg r tr s) :
    (s.napt.externHashmap.Probes ∧ s.napt.internHashmap.Probes) ∧
      (s.napt.externHashmap.Stops ∧ s.napt.internHashmap.Stops) ∧
      ∀ i, ipv4Handle cfg s i = none → s.napt.internHashmap.lock = true := by
  have hok := (napt_history h).1
  exact ⟨⟨hok.externTable.probes, hok.internTable.probes⟩,
    ⟨hok.externTable.stops, hok.internTable.stops⟩, fun _ => ipv4Handle_blocked hok⟩

/-- Six flows make both tables grow. -/
theorem napt_probing_six :
    ∃ tr s, Ipv4Run shippedConfig routerInit tr s ∧ s.napt.externHashmap.sizeAllocated = 23 ∧
      s.napt.internHashmap.sizeAllocated = 23 ∧ s.napt.externHashmap.Probes ∧
      s.napt.internHashmap.Stops := by
  let flow (n : Nat) : Ipv4Input shippedConfig :=
    ⟨udpDatagram (⟨192, 168, 1, 100⟩, ⟨UInt16.ofNat (5000 + n)⟩) (⟨8, 8, 8, 8⟩, ⟨53⟩),
      ⟨0, by decide⟩, fun k => n + k⟩
  obtain ⟨tr, t, hrun, -, hlast⟩ := exists_run_snoc (ipv4Handle shippedConfig) routerInit
    [flow 0, flow 1, flow 2, flow 3, flow 4] (flow 5)
    (fun _ t => decide (t.post.napt.externHashmap.sizeAllocated = 23 ∧
      t.post.napt.internHashmap.sizeAllocated = 23)) (by decide +kernel)
  obtain ⟨hsize, hsize'⟩ := of_decide_eq_true hlast
  obtain ⟨hprobes, hstops, -⟩ := napt_probing (r := routerInit) hrun
  exact ⟨tr ++ [t], t.post, hrun, hsize, hsize', hprobes.1, hstops.2⟩

end NaptRouter
