import NaptRouter.Firewall
import NaptRouter.TableGrowth

/-!
# The two NAPT tables side by side

`napt_out_handle` enters every mapping in both tables, and no link between the two copies is
kept. Each table loses what it holds when it grows. The tables start with the same size, but
growth puts as many made-up keys into a table as it has taken slots among those its loops visit,
and that depends on the hashes. `tables_agree_iff` — the tables agree throughout a run if and only
if they never grow one without the other.
-/

namespace NaptRouter

open ByteMemory Hashmap Runs

variable {cfg : Config} {napt napt' : Napt}

/-- TCP or UDP. -/
def Transport (protocol : UInt8) : Prop := protocol = 6 ∨ protocol = 17

theorem Transport.ne_zero {protocol : UInt8} (h : Transport protocol) : protocol ≠ 0 := by
  rcases h with rfl | rfl <;> decide

/-- What `hashmap_get` finds in one table it finds in the other, under the key that the entry
has there. -/
structure TablesAgree (napt : Napt) : Prop where
  internTable : ∀ k : NaptInternKey, Transport k.protocol → ∀ v,
    napt.internHashmap.Finds k.bytes v →
    ∃ m : Mapping, m.internKey = k ∧ m.bytes = v ∧ napt.externHashmap.Finds m.externKey.bytes v
  externTable : ∀ k : NaptExternKey, Transport k.protocol → ∀ v,
    napt.externHashmap.Finds k.bytes v →
    ∃ m : Mapping, m.protocol = k.protocol ∧ m.bytes = v ∧
      napt.internHashmap.Finds m.internKey.bytes v

/-- The packet makes a mapping while one of the tables is at its growth threshold and the other
is not. -/
def GrowsAlone (s : Router) (i : Ipv4Input cfg) : Prop :=
  MakesMapping cfg s i ∧ ¬ (s.napt.externHashmap.Full ↔ s.napt.internHashmap.Full)

instance (s : Router) (i : Ipv4Input cfg) : Decidable (GrowsAlone s i) :=
  inferInstanceAs (Decidable (_ ∧ ¬ (_ ↔ _)))

/-! ## Lookups in the two tables -/

theorem Napt.Ok.finds_externTable (hok : napt.Ok) {k : NaptExternKey} {v : List UInt8} :
    napt.externHashmap.Finds k.bytes v ↔ napt.externHashmap.lookup k.bytes = some v :=
  finds_iff hok.externTable.pos (by rw [k.length_bytes, hok.externKey])

theorem Napt.Ok.finds_internTable (hok : napt.Ok) {k : NaptInternKey} {v : List UInt8} :
    napt.internHashmap.Finds k.bytes v ↔ napt.internHashmap.lookup k.bytes = some v :=
  finds_iff hok.internTable.pos (by rw [k.length_bytes, hok.internKey])

/-- The mapping is in both tables. -/
def Both (napt : Napt) (m : Mapping) : Prop :=
  napt.externHashmap.lookup m.externKey.bytes = some m.bytes ∧
    napt.internHashmap.lookup m.internKey.bytes = some m.bytes

theorem mapping_ext {m m' : Mapping} (hbytes : m.bytes = m'.bytes)
    (hproto : m.protocol = m'.protocol) : m = m' := by
  obtain ⟨e, p⟩ := m
  obtain ⟨e', p'⟩ := m'
  obtain rfl : e = e' := NaptEntry.bytes_injective hbytes
  obtain rfl : p = p' := hproto
  rfl

theorem Opened.lookup_externTable {m : Mapping} (h : Opened napt m napt') {k : NaptExternKey}
    (hk : Transport k.protocol) :
    napt'.externHashmap.lookup k.bytes =
      if k = m.externKey then some m.bytes
      else if napt.externHashmap.Full then none else napt.externHashmap.lookup k.bytes := by
  rw [h.externTable.lookup _ (externKey_nonzero hk.ne_zero).ne_zeroKey]
  by_cases heq : k = m.externKey
  · rw [if_pos heq, if_pos (congrArg _ heq)]
  · rw [if_neg heq, if_neg (mt NaptExternKey.bytes_injective heq)]

theorem Opened.lookup_internTable {m : Mapping} (h : Opened napt m napt') {k : NaptInternKey}
    (hk : Transport k.protocol) :
    napt'.internHashmap.lookup k.bytes =
      if k = m.internKey then some m.bytes
      else if napt.internHashmap.Full then none else napt.internHashmap.lookup k.bytes := by
  rw [h.internTable.lookup _ (internKey_nonzero hk.ne_zero).ne_zeroKey]
  by_cases heq : k = m.internKey
  · rw [if_pos heq, if_pos (congrArg _ heq)]
  · rw [if_neg heq, if_neg (mt NaptInternKey.bytes_injective heq)]

/-! ## One mapping more -/

/-- A mapping that was in both tables has keys of its own. -/
theorem Opened.keys_ne {m m' : Mapping} (h : Opened napt m napt')
    (hmiss : napt.internHashmap.lookup m.internKey.bytes = none) (hboth : Both napt m') :
    m'.externKey ≠ m.externKey ∧ m'.internKey ≠ m.internKey := by
  constructor
  · intro heq
    have hfound := hboth.1
    rw [heq, h.absent] at hfound
    cases hfound
  · intro heq
    have hfound := hboth.2
    rw [heq, hmiss] at hfound
    cases hfound

section Step

variable {m : Mapping} (hok : napt.Ok) (h : Opened napt m napt') (hm : Transport m.protocol)
  (hmiss : napt.internHashmap.lookup m.internKey.bytes = none)

include hok h hm hmiss

/-- When both tables grow, or neither, agreement is kept. -/
theorem TablesAgree.opened (hagree : TablesAgree napt)
    (hfull : napt.externHashmap.Full ↔ napt.internHashmap.Full) : TablesAgree napt' := by
  have hok' := h.ok hok
  refine ⟨fun k hk v hv => ?_, fun k hk v hv => ?_⟩
  · rw [hok'.finds_internTable, h.lookup_internTable hk] at hv
    split_ifs at hv with heq hgrown
    · refine ⟨m, heq.symm, Option.some.inj hv, ?_⟩
      rw [hok'.finds_externTable, h.lookup_externTable hm, if_pos rfl, hv]
    · obtain ⟨m', rfl, rfl, hfinds⟩ := hagree.internTable k hk v (hok.finds_internTable.2 hv)
      rw [hok.finds_externTable] at hfinds
      have hne := (h.keys_ne hmiss ⟨hfinds, hv⟩).1
      refine ⟨m', rfl, rfl, ?_⟩
      rw [hok'.finds_externTable, h.lookup_externTable (k := m'.externKey) hk, if_neg hne,
        if_neg (mt hfull.1 hgrown), hfinds]
  · rw [hok'.finds_externTable, h.lookup_externTable hk] at hv
    split_ifs at hv with heq hgrown
    · refine ⟨m, by rw [heq]; rfl, Option.some.inj hv, ?_⟩
      rw [hok'.finds_internTable, h.lookup_internTable hm, if_pos rfl, hv]
    · obtain ⟨m', hproto, rfl, hfinds⟩ := hagree.externTable k hk v (hok.finds_externTable.2 hv)
      rw [hok.finds_internTable] at hfinds
      have hne : m'.internKey ≠ m.internKey := by
        intro heq'
        rw [heq', hmiss] at hfinds
        cases hfinds
      have hk' : Transport m'.protocol := hproto ▸ hk
      refine ⟨m', hproto, rfl, ?_⟩
      rw [hok'.finds_internTable, h.lookup_internTable (k := m'.internKey) hk', if_neg hne,
        if_neg (mt hfull.2 hgrown), hfinds]

omit hm in
/-- When one table grows alone, a mapping that both had is left in the other one only. -/
theorem not_agree_of_grows_alone {m' : Mapping} (hm' : Transport m'.protocol)
    (hboth : Both napt m') (hfull : ¬ (napt.externHashmap.Full ↔ napt.internHashmap.Full)) :
    ¬ TablesAgree napt' := by
  intro hagree
  have hok' := h.ok hok
  obtain ⟨hne, hne'⟩ := h.keys_ne hmiss hboth
  have hextern := h.lookup_externTable (k := m'.externKey) hm'
  have hintern := h.lookup_internTable (k := m'.internKey) hm'
  rw [if_neg hne, hboth.1] at hextern
  rw [if_neg hne', hboth.2] at hintern
  by_cases hgrown : napt.externHashmap.Full
  · have hkept : ¬ napt.internHashmap.Full := fun hi => hfull (iff_of_true hgrown hi)
    rw [if_pos hgrown] at hextern
    rw [if_neg hkept] at hintern
    obtain ⟨m₂, hkey, hbytes, hfinds⟩ :=
      hagree.internTable _ hm' _ (hok'.finds_internTable.2 hintern)
    obtain rfl : m₂ = m' := mapping_ext hbytes (congrArg NaptInternKey.protocol hkey)
    rw [hok'.finds_externTable, hextern] at hfinds
    cases hfinds
  · have hgrown' : napt.internHashmap.Full := by
      by_contra hi
      exact hfull (iff_of_false hgrown hi)
    rw [if_neg hgrown] at hextern
    rw [if_pos hgrown'] at hintern
    obtain ⟨m₂, hproto, hbytes, hfinds⟩ :=
      hagree.externTable _ hm' _ (hok'.finds_externTable.2 hextern)
    obtain rfl : m₂ = m' := mapping_ext hbytes hproto
    rw [hok'.finds_internTable, hintern] at hfinds
    cases hfinds

end Step

/-! ## Runs -/

theorem Opens.transport {t : Ipv4Step cfg} {m : Mapping} (h : Opens t m) :
    Transport m.protocol := by
  obtain ⟨hf, -, hm⟩ := h
  obtain ⟨ports, hports⟩ := hf.exists_ports
  rw [hm]
  unfold transportPorts at hports
  split_ifs at hports with hproto
  exact hproto

/-- Nothing has been inserted yet, or the last mapping is in both tables. -/
def LastInBoth (napt : Napt) : Prop :=
  (napt.externHashmap.size = 0 ∧ napt.internHashmap.size = 0) ∨
    ∃ m, Transport m.protocol ∧ Both napt m

theorem Opened.lastInBoth {m : Mapping} (h : Opened napt m napt') (hm : Transport m.protocol) :
    LastInBoth napt' := by
  refine Or.inr ⟨m, hm, ?_, ?_⟩
  · rw [h.lookup_externTable hm, if_pos rfl]
  · rw [h.lookup_internTable hm, if_pos rfl]

theorem lastInBoth_of_run {r s : Router} {tr : List (Ipv4Step cfg)} (h : Ipv4Run cfg r tr s) :
    s.napt.Ok ∧ LastInBoth s.napt := by
  refine h.invariant (I := fun s => s.napt.Ok ∧ LastInBoth s.napt)
    ⟨naptInit_ok, Or.inl ⟨rfl, rfl⟩⟩ fun s i s' hI hstep => ?_
  obtain ⟨hok, hlast⟩ := hI
  obtain ⟨hok', ⟨m, hopens, hm⟩ | ⟨-, b, hpost⟩⟩ :=
    napt_step_cases (t := (⟨s, i, s'⟩ : Ipv4Step cfg)) hok hstep
  · exact ⟨hok', hm.lastInBoth ((hopens m).2 rfl).transport⟩
  · refine ⟨hok', ?_⟩
    change s'.napt = _ at hpost
    rw [hpost]
    exact hlast

theorem Hashmap.Sound.size_ne_zero {h : Hashmap} (hS : h.Sound) (hfull : h.Full) :
    h.size ≠ 0 := by
  have hshape := hS.shape
  rw [Full] at hfull
  omega

/-- **One packet** keeps the agreement unless one table grows alone, and then it breaks it. -/
theorem tablesAgree_step {r s s' : Router} {tr : List (Ipv4Step cfg)} {i : Ipv4Input cfg}
    (h : Ipv4Run cfg r tr s) (hagree : TablesAgree s.napt)
    (hstep : ipv4Handle cfg s i = some s') : TablesAgree s'.napt ↔ ¬ GrowsAlone s i := by
  obtain ⟨hok, hlast⟩ := lastInBoth_of_run h
  let t : Ipv4Step cfg := ⟨s, i, s'⟩
  have hmakes := opens_iff_makesMapping (t := t) hok hstep
  obtain ⟨-, ⟨m, hopens, hm⟩ | ⟨hopens, b, hpost⟩⟩ := napt_step_cases (t := t) hok hstep
  · have hopen := (hopens m).2 rfl
    have hmiss : s.napt.internHashmap.lookup m.internKey.bytes = none := by
      rw [hopen.2.2]
      exact hopen.2.1
    constructor
    · intro hagree' hbad
      -- A table that is at its threshold holds the last mapping, and so does the other one.
      rcases hlast with ⟨hsize, hsize'⟩ | ⟨m', hm', hboth⟩
      · refine hbad.2 (iff_of_false ?_ ?_)
        · exact fun hfull => hok.externTable.size_ne_zero hfull hsize
        · exact fun hfull => hok.internTable.size_ne_zero hfull hsize'
      · exact not_agree_of_grows_alone hok hm hmiss hm' hboth hbad.2 hagree'
    · intro hgood
      refine hagree.opened hok hm hopen.transport hmiss ?_
      by_contra hfull
      exact hgood ⟨hmakes.1 ⟨m, hopen⟩, hfull⟩
  · refine iff_of_true ?_ fun hbad => (hmakes.2 hbad.1).elim hopens
    change s'.napt = _ at hpost
    rw [hpost]
    have hsame : TablesAgree { s.napt with
        internHashmap := s.napt.internHashmap.setLock b } := by
      refine ⟨fun k hk v hv => ?_, fun k hk v hv => ?_⟩
      · rw [(hok.setInternLock b).finds_internTable] at hv
        exact hagree.internTable k hk v (hok.finds_internTable.2 hv)
      · obtain ⟨m, hproto, hbytes, hfinds⟩ := hagree.externTable k hk v hv
        refine ⟨m, hproto, hbytes, ?_⟩
        rw [(hok.setInternLock b).finds_internTable]
        exact hok.finds_internTable.1 hfinds
    exact hsame

/-- Fresh tables agree: they are empty. -/
theorem tablesAgree_init : TablesAgree naptInit := by
  refine ⟨fun k _ v hv => ?_, fun k _ v hv => ?_⟩
  · rw [naptInit_ok.finds_internTable] at hv
    cases ((hashmapInit_sound ..).2 k.bytes).symm.trans hv
  · rw [naptInit_ok.finds_externTable] at hv
    cases ((hashmapInit_sound ..).2 k.bytes).symm.trans hv

/-- **Agreement.** The tables agree in all states of a run if and only if no packet of it makes
one of them grow alone. -/
theorem tables_agree_iff {r s : Router} {tr : List (Ipv4Step cfg)} (h : Ipv4Run cfg r tr s) :
    (∀ t ∈ tr, TablesAgree t.post.napt) ↔ ∀ t ∈ tr, ¬ GrowsAlone t.pre t.input :=
  h.forall_post_iff (P := fun s => TablesAgree s.napt) tablesAgree_init
    fun _ _ _ _ hr hs hstep => tablesAgree_step hr hs hstep

/-- The `n`th of a series of flows from one host to one server. -/
def nthFlow (n : Nat) : Ipv4Input shippedConfig :=
  fromLan (⟨192, 168, 1, 100⟩, ⟨UInt16.ofNat (5000 + n)⟩) (⟨8, 8, 8, 8⟩, ⟨53⟩) (5 * n)

/-- Through the sixth flow, at which both tables grow, they agree. -/
theorem tables_agree_six :
    ∃ tr s, Ipv4Run shippedConfig routerInit tr s ∧ s.napt.externHashmap.sizeAllocated = 23 ∧
      ∀ t ∈ tr, TablesAgree t.post.napt := by
  obtain ⟨tr, t, hrun, -, hlast⟩ := exists_run_snoc (ipv4Handle shippedConfig) routerInit
    ((List.range 5).map nthFlow) (nthFlow 5)
    (fun tr t => decide (t.post.napt.externHashmap.sizeAllocated = 23 ∧
      ∀ u ∈ tr ++ [t], u.pre.napt.externHashmap.Full ↔ u.pre.napt.internHashmap.Full))
    (by decide +kernel)
  obtain ⟨hn, hfull⟩ := of_decide_eq_true hlast
  exact ⟨tr ++ [t], t.post, hrun, hn,
    (tables_agree_iff (r := routerInit) hrun).2 fun u hu hbad => hbad.2 (hfull u hu)⟩

/-- At the twelfth flow the extern table grows and the intern table does not: the eleventh flow
is found in the intern table only. -/
theorem tables_agree_fails :
    let m : Mapping :=
      { lanIp := ⟨192, 168, 1, 100⟩, lanPort := ⟨5010⟩, publicIp := ⟨192, 168, 0, 2⟩,
        publicPort := ⟨1074⟩, dstIp := ⟨8, 8, 8, 8⟩, dstPort := ⟨53⟩, timestamp := 0,
        protocol := 17 }
    ∃ tr t, Ipv4Run shippedConfig routerInit (tr ++ [t]) t.post ∧
      (tr ++ [t]).map (·.input) = (List.range 11).map nthFlow ++ [nthFlow 11] ∧
      t.post.napt.internHashmap.Finds m.internKey.bytes m.bytes ∧
      (∀ v, ¬ t.post.napt.externHashmap.Finds m.externKey.bytes v) ∧
      ¬ TablesAgree t.post.napt := by
  intro m
  obtain ⟨tr, t, hrun, hinputs, hlast⟩ := exists_run_snoc (ipv4Handle shippedConfig) routerInit
    ((List.range 11).map nthFlow) (nthFlow 11)
    (fun _ t => decide (t.post.napt.internHashmap.lookup m.internKey.bytes = some m.bytes ∧
      t.post.napt.externHashmap.lookup m.externKey.bytes = none)) (by decide +kernel)
  obtain ⟨hintern, hextern⟩ := of_decide_eq_true hlast
  have hok := (napt_history (r := routerInit) hrun).1
  have hfinds := hok.finds_internTable.2 hintern
  have hmisses (v : List UInt8) : ¬ t.post.napt.externHashmap.Finds m.externKey.bytes v := by
    rw [hok.finds_externTable, hextern]
    simp
  refine ⟨tr, t, hrun, hinputs, hfinds, hmisses, fun hagree => ?_⟩
  obtain ⟨m', hkey, hbytes, hfound⟩ := hagree.internTable _ (Or.inr rfl) _ hfinds
  obtain rfl : m' = m := mapping_ext hbytes (congrArg NaptInternKey.protocol hkey)
  exact hmisses _ hfound

end NaptRouter
