import NaptRouter.Lib.Runs
import NaptRouter.NaptTables

/-!
# The NAPT tables and the history of a run

A run is a sequence of packets handled by `ipv4_handle`. `napt_history` says what the two
tables hold after any run from `napt_init`: exactly the mappings that were opened since the
table last grew. (Growth loses what was there, see `hashmapInsert_spec`.)
-/

namespace NaptRouter

open ByteMemory Runs

/-- Source address and port of a packet. -/
def srcEndpoint (pkt : Mem) : IpAddr × Port := (ipSrc pkt, portSrc pkt (headerLen pkt))

/-- Destination address and port of a packet. -/
def dstEndpoint (pkt : Mem) : IpAddr × Port := (ipDst pkt, portDst pkt (headerLen pkt))

abbrev Ipv4Step (cfg : Config) := Step Router (Ipv4Input cfg)

/-- Runs of `ipv4_handle` from a router whose tables are those of `napt_init`. -/
abbrev Ipv4Run (cfg : Config) (r : Router) :=
  Run (ipv4Handle cfg) { r with napt := naptInit }

section Events

variable {cfg : Config}

/-- `napt_out_handle` forwards the packet of the step with source port `P`. -/
def Forwards (t : Ipv4Step cfg) (P : Port) : Prop :=
  ipv4Path cfg t.input.pkt t.input.intId = .out ∧
    (naptOutTranslate cfg t.pre.napt t.input.pkt t.input.rand).map (·.2) = some (some P)

instance (t : Ipv4Step cfg) (P : Port) : Decidable (Forwards t P) :=
  inferInstanceAs (Decidable (_ ∧ _))

/-- The intern table has no mapping for the LAN endpoint of the packet. -/
def InternMiss (t : Ipv4Step cfg) : Prop :=
  t.pre.napt.internHashmap.lookup (outInternKey t.input.pkt).bytes = none

instance (t : Ipv4Step cfg) : Decidable (InternMiss t) :=
  inferInstanceAs (Decidable (_ = none))

/-- The packet is forwarded through a mapping made for it. -/
def Opens (t : Ipv4Step cfg) (m : Mapping) : Prop :=
  Forwards t m.publicPort ∧ InternMiss t ∧ m = outMapping cfg t.input.pkt m.publicPort

/-- The step inserts into a table that is at its growth threshold. -/
def GrowsExtern (t : Ipv4Step cfg) : Prop :=
  (∃ m, Opens t m) ∧ t.pre.napt.externHashmap.Full

def GrowsIntern (t : Ipv4Step cfg) : Prop :=
  (∃ m, Opens t m) ∧ t.pre.napt.internHashmap.Full

end Events

variable {cfg : Config}

theorem Forwards.exists_translate {t : Ipv4Step cfg} {P : Port} (h : Forwards t P) :
    ∃ napt', naptOutTranslate cfg t.pre.napt t.input.pkt t.input.rand = some (napt', some P) := by
  obtain ⟨⟨napt', port⟩, htr, rfl⟩ := Option.map_eq_some_iff.1 h.2
  exact ⟨napt', htr⟩

theorem Forwards.exists_ports {t : Ipv4Step cfg} {P : Port} (h : Forwards t P) :
    ∃ ports, transportPorts t.input.pkt = some ports := by
  obtain ⟨napt', htr⟩ := h.exists_translate
  exact Option.isSome_iff_exists.1 (naptOutTranslate_isSome htr)

theorem Forwards.result {t : Ipv4Step cfg} {P : Port} (hok : t.pre.napt.Ok)
    (h : Forwards t P) (hstep : ipv4Handle cfg t.pre t.input = some t.post) :
    OutResult cfg t.pre.napt t.input.pkt t.post.napt (some P) := by
  obtain ⟨napt', htr⟩ := h.exists_translate
  obtain ⟨⟨src, dst⟩, hports⟩ := h.exists_ports
  have hspec := naptOutTranslate_spec cfg hok t.input.rand hports
  split_ifs at hspec with hlock
  · rw [hspec] at htr
    cases htr
  · obtain ⟨napt'', port, heq, hres⟩ := hspec
    obtain ⟨rfl, rfl⟩ : napt' = napt'' ∧ some P = port := by
      simpa using htr.symm.trans heq
    rw [ipv4Handle, h.1] at hstep
    simp only [naptOutHandle, htr, Option.bind_eq_bind, Option.bind_some,
      Option.some.injEq] at hstep
    rwa [← hstep, sendIpv4_napt]

theorem Forwards.port_unique {t : Ipv4Step cfg} {P P' : Port} (h : Forwards t P)
    (h' : Forwards t P') : P = P' := by
  simpa using h.2.symm.trans h'.2

theorem naptIncHandle_napt {r r' : Router} (hok : r.napt.Ok) {pkt : Mem}
    (h : naptIncHandle cfg r pkt = some r') : r'.napt = r.napt := by
  obtain ⟨lan, htr⟩ := exists_naptIncTranslate hok pkt
  simp only [naptIncHandle, htr, Option.bind_eq_bind, Option.bind_some] at h
  cases lan with
  | none => rw [← Option.some.inj h]
  | some lan => rw [← Option.some.inj h, sendIpv4_napt]

/-- An outbound packet that is dropped can only have locked the intern table. -/
theorem naptOutHandle_napt {r r' : Router} (hok : r.napt.Ok) {pkt : Mem} {rand : Nat → Nat}
    (h : naptOutHandle cfg r pkt rand = some r')
    (hdrop : ∀ P, (naptOutTranslate cfg r.napt pkt rand).map (·.2) ≠ some (some P)) :
    ∃ b, r'.napt = { r.napt with internHashmap := r.napt.internHashmap.setLock b } := by
  have htr := naptOutTranslate_of_drop hok hdrop
  rw [naptOutHandle] at h
  split_ifs at htr
  · simp [htr] at h
  · simp only [htr, Option.bind_eq_bind, Option.bind_some, Option.some.injEq] at h
    exact ⟨true, by rw [← h]⟩
  · simp only [htr, Option.bind_eq_bind, Option.bind_some, Option.some.injEq] at h
    exact ⟨r.napt.internHashmap.lock, by rw [← h, setLock_self rfl]⟩

/-- A packet that is not forwarded to the WAN leaves the tables as they are, but for the mutex
of the intern table. -/
theorem napt_of_not_forwards {t : Ipv4Step cfg} (hok : t.pre.napt.Ok)
    (hstep : ipv4Handle cfg t.pre t.input = some t.post) (h : ∀ P, ¬ Forwards t P) :
    ∃ b, t.post.napt =
      { t.pre.napt with internHashmap := t.pre.napt.internHashmap.setLock b } := by
  rw [ipv4Handle] at hstep
  have hsame : t.post.napt = t.pre.napt → ∃ b, t.post.napt =
      { t.pre.napt with internHashmap := t.pre.napt.internHashmap.setLock b } := by
    intro heq
    exact ⟨t.pre.napt.internHashmap.lock, by rw [heq, setLock_self rfl]⟩
  cases hpath : ipv4Path cfg t.input.pkt t.input.intId with
  | ignored =>
    rw [hpath] at hstep
    exact hsame (by rw [← Option.some.inj hstep])
  | bridged =>
    rw [hpath] at hstep
    exact hsame (by rw [← Option.some.inj hstep, sendIpv4_napt])
  | inc =>
    rw [hpath] at hstep
    exact hsame (naptIncHandle_napt hok hstep)
  | out =>
    rw [hpath] at hstep
    exact naptOutHandle_napt hok hstep fun P hP => h P ⟨hpath, hP⟩

/-- **One packet.** It opens exactly one mapping, or it opens none and leaves the tables alone,
but for the mutex of the intern table. -/
theorem napt_step_cases {t : Ipv4Step cfg} (hok : t.pre.napt.Ok)
    (hstep : ipv4Handle cfg t.pre t.input = some t.post) :
    t.post.napt.Ok ∧
      ((∃ m, (∀ m', Opens t m' ↔ m' = m) ∧ Opened t.pre.napt m t.post.napt) ∨
        ((∀ m, ¬ Opens t m) ∧ ∃ b, t.post.napt =
          { t.pre.napt with internHashmap := t.pre.napt.internHashmap.setLock b })) := by
  by_cases hf : ∃ P, Forwards t P
  · obtain ⟨P, hP⟩ := hf
    have hres := hP.result hok hstep
    refine ⟨hres.ok hok, ?_⟩
    generalize hnapt : t.post.napt = napt' at hres
    cases hres with
    | reused hit =>
      refine Or.inr ⟨fun m hm => ?_, t.pre.napt.internHashmap.lock, by rw [setLock_self rfl]⟩
      have hmiss := hit.symm.trans hm.2.1
      cases hmiss
    | opened miss opened =>
      refine Or.inl ⟨_, fun m' => ⟨fun hm' => ?_, ?_⟩, opened⟩
      · rw [hm'.2.2, hm'.1.port_unique hP]
      · rintro rfl
        exact ⟨hP, miss, rfl⟩
  · obtain ⟨b, hpost⟩ := napt_of_not_forwards hok hstep fun P hP => hf ⟨P, hP⟩
    refine ⟨?_, Or.inr ⟨fun m hm => hf ⟨_, hm.1⟩, b, hpost⟩⟩
    rw [hpost]
    exact hok.setInternLock b

/-- A packet that opens no mapping leaves both tables with what they held. -/
theorem napt_step {t : Ipv4Step cfg} (hok : t.pre.napt.Ok)
    (hstep : ipv4Handle cfg t.pre t.input = some t.post) :
    t.post.napt.Ok ∧
      ((∃ m, (∀ m', Opens t m' ↔ m' = m) ∧ Opened t.pre.napt m t.post.napt) ∨
        ((∀ m, ¬ Opens t m) ∧
          (∀ k, t.post.napt.externHashmap.lookup k = t.pre.napt.externHashmap.lookup k) ∧
          ∀ k, t.post.napt.internHashmap.lookup k = t.pre.napt.internHashmap.lookup k)) := by
  obtain ⟨hok', hopened | ⟨hopens, b, hpost⟩⟩ := napt_step_cases hok hstep
  · exact ⟨hok', Or.inl hopened⟩
  · refine ⟨hok', Or.inr ⟨hopens, ?_⟩⟩
    rw [hpost]
    exact ⟨fun _ => rfl, fun _ => rfl⟩

/-- The packet of the step makes a mapping: it goes from the LAN to the WAN, it is TCP or UDP,
its LAN endpoint has no mapping, and one of the ten ports that are drawn is free. -/
def MakesMapping (cfg : Config) (r : Router) (i : Ipv4Input cfg) : Prop :=
  ipv4Path cfg i.pkt i.intId = .out ∧ (transportPorts i.pkt).isSome = true ∧
    r.napt.internHashmap.lookup (outInternKey i.pkt).bytes = none ∧
    ∃ n < 10, PortFree cfg r.napt i.pkt (i.rand n)

instance (cfg : Config) (r : Router) (i : Ipv4Input cfg) : Decidable (MakesMapping cfg r i) :=
  inferInstanceAs (Decidable (_ ∧ _ ∧ _ ∧ _))

theorem opens_iff_makesMapping {t : Ipv4Step cfg} (hok : t.pre.napt.Ok)
    (hstep : ipv4Handle cfg t.pre t.input = some t.post) :
    (∃ m, Opens t m) ↔ MakesMapping cfg t.pre t.input := by
  have hfree {P : Port} (hf : Forwards t P) (hmiss : InternMiss t) :
      ∃ n < 10, PortFree cfg t.pre.napt t.input.pkt (t.input.rand n) := by
    obtain ⟨napt', htr⟩ := hf.exists_translate
    obtain ⟨⟨src, dst⟩, hports⟩ := hf.exists_ports
    cases hlock : t.pre.napt.internHashmap.lock with
    | true =>
      have hspec := naptOutTranslate_spec cfg hok t.input.rand hports
      rw [if_pos hlock, htr] at hspec
      cases hspec
    | false =>
      obtain ⟨napt'', port, htr', -, hnone⟩ :=
        naptOutTranslate_miss cfg hok t.input.rand hports hlock hmiss
      obtain ⟨-, rfl⟩ := Prod.mk.inj (Option.some.inj (htr.symm.trans htr'))
      by_contra hall
      -- Ten taken ports would leave none to forward with.
      push Not at hall
      cases hnone.2 hall
  constructor
  · intro hex
    obtain ⟨m, hf, hmiss, -⟩ := hex
    obtain ⟨ports, hports⟩ := hf.exists_ports
    exact ⟨hf.1, by rw [hports, Option.isSome_some], hmiss, hfree hf hmiss⟩
  · intro hmakes
    obtain ⟨hpath, hsome, hmiss, n, hn, hfreePort⟩ := hmakes
    obtain ⟨⟨src, dst⟩, hports⟩ := Option.isSome_iff_exists.1 hsome
    cases hlock : t.pre.napt.internHashmap.lock with
    | true =>
      have hspec := naptOutTranslate_spec cfg hok t.input.rand hports
      rw [if_pos hlock] at hspec
      rw [ipv4Handle, hpath] at hstep
      simp [naptOutHandle, hspec] at hstep
    | false =>
      obtain ⟨napt', port, htr, -, hnone⟩ :=
        naptOutTranslate_miss cfg hok t.input.rand hports hlock hmiss
      cases port with
      | none => exact absurd hfreePort (hnone.1 rfl n hn)
      | some P =>
        have hf : Forwards t P := ⟨hpath, by rw [htr, Option.map_some]⟩
        exact ⟨outMapping cfg t.input.pkt P, hf, hmiss, rfl⟩

/-! ## Histories -/

/-- The extern table holds what was opened since it last grew. -/
abbrev RecordsExtern (napt : Napt) (tr : List (Ipv4Step cfg)) : Prop :=
  Records Nonzero (fun m : Mapping => m.externKey.bytes) (·.bytes) Opens GrowsExtern
    napt.externHashmap.lookup tr

/-- The intern table holds what was opened since it last grew. -/
abbrev RecordsIntern (napt : Napt) (tr : List (Ipv4Step cfg)) : Prop :=
  Records Nonzero (fun m : Mapping => m.internKey.bytes) (·.bytes) Opens GrowsIntern
    napt.internHashmap.lookup tr

theorem Forwards.protocol_ne_zero {t : Ipv4Step cfg} {P : Port} (h : Forwards t P) :
    protocol t.input.pkt ≠ 0 := by
  obtain ⟨⟨src, dst⟩, hports⟩ := h.exists_ports
  exact (transportPorts_eq_some hports).1

theorem Opens.protocol_ne_zero {t : Ipv4Step cfg} {m : Mapping} (h : Opens t m) :
    m.protocol ≠ 0 := by
  rw [h.2.2]
  exact h.1.protocol_ne_zero

/-- **The tables record the run.** -/
theorem napt_history {r s : Router} {tr : List (Ipv4Step cfg)} (h : Ipv4Run cfg r tr s) :
    s.napt.Ok ∧ RecordsExtern s.napt tr ∧ RecordsIntern s.napt tr := by
  have hinit : naptInit.Ok ∧ RecordsExtern naptInit ([] : List (Ipv4Step cfg)) ∧
      RecordsIntern naptInit ([] : List (Ipv4Step cfg)) :=
    ⟨naptInit_ok, records_nil (hashmapInit_sound ..).2, records_nil (hashmapInit_sound ..).2⟩
  refine h.history (I := fun tr s => s.napt.Ok ∧ RecordsExtern s.napt tr ∧
    RecordsIntern s.napt tr) hinit ?_
  -- A step opens one mapping in both tables, or leaves both as they are.
  rintro tr s i s' - ⟨hok, hextern, hintern⟩ hstep
  let t : Ipv4Step cfg := ⟨s, i, s'⟩
  obtain ⟨hok', ⟨m, hopens, hm⟩ | ⟨hopens, hextern', hintern'⟩⟩ := napt_step (t := t) hok hstep
  · have hproto : m.protocol ≠ 0 := ((hopens m).2 rfl).protocol_ne_zero
    have habs : s.napt.internHashmap.lookup m.internKey.bytes = none := by
      obtain ⟨-, hmiss, hm'⟩ := (hopens m).2 rfl
      rw [hm']
      exact hmiss
    refine ⟨hok', hextern.write (externKey_nonzero hproto) hm.absent hopens ?_ ?_ ?_,
      hintern.write (internKey_nonzero hproto) habs hopens ?_ ?_ ?_⟩
    · rw [hm.externTable.lookup _ (externKey_nonzero hproto).ne_zeroKey, if_pos rfl]
    · intro hgrows k hk hne
      rw [hm.externTable.lookup _ hk.ne_zeroKey, if_neg hne, if_pos hgrows.2]
    · intro hgrows k hk hne
      rw [hm.externTable.lookup _ hk.ne_zeroKey, if_neg hne,
        if_neg fun hfull => hgrows ⟨⟨m, (hopens m).2 rfl⟩, hfull⟩]
    · rw [hm.internTable.lookup _ (internKey_nonzero hproto).ne_zeroKey, if_pos rfl]
    · intro hgrows k hk hne
      rw [hm.internTable.lookup _ hk.ne_zeroKey, if_neg hne, if_pos hgrows.2]
    · intro hgrows k hk hne
      rw [hm.internTable.lookup _ hk.ne_zeroKey, if_neg hne,
        if_neg fun hfull => hgrows ⟨⟨m, (hopens m).2 rfl⟩, hfull⟩]
  · exact ⟨hok', hextern.idle hextern' hopens fun hg => hg.1.elim hopens,
      hintern.idle hintern' hopens fun hg => hg.1.elim hopens⟩

/-! ## Reading the history off the tables -/

/-- The LAN endpoint of a mapping. -/
def Mapping.lan (m : Mapping) : IpAddr × Port := (m.lanIp, m.lanPort)

/-- The remote endpoint of a mapping. -/
def Mapping.remote (m : Mapping) : IpAddr × Port := (m.dstIp, m.dstPort)

theorem externKey_eq_iff {m m' : Mapping} : m.externKey = m'.externKey ↔
    m.remote = m'.remote ∧ m.publicPort = m'.publicPort ∧ m.protocol = m'.protocol := by
  simp only [Mapping.externKey, Mapping.remote, NaptExternKey.mk.injEq, Prod.mk.injEq]
  tauto

/-- An entry in the extern table was opened, and the table has not grown since. -/
theorem exists_opened_of_extern {r s : Router} {tr : List (Ipv4Step cfg)}
    (h : Ipv4Run cfg r tr s) {k : NaptExternKey} (hk : k.protocol ≠ 0) {v : List UInt8}
    (hv : s.napt.externHashmap.lookup k.bytes = some v) :
    ∃ m : Mapping, m.externKey = k ∧ m.bytes = v ∧ Since (Opens · m) GrowsExtern tr := by
  obtain ⟨m, hkey, hval, hsince⟩ := ((napt_history h).2.1 _ (externKey_nonzero hk) v).1 hv
  exact ⟨m, NaptExternKey.bytes_injective hkey, hval, hsince⟩

theorem exists_opened_of_intern {r s : Router} {tr : List (Ipv4Step cfg)}
    (h : Ipv4Run cfg r tr s) {k : NaptInternKey} (hk : k.protocol ≠ 0) {v : List UInt8}
    (hv : s.napt.internHashmap.lookup k.bytes = some v) :
    ∃ m : Mapping, m.internKey = k ∧ m.bytes = v ∧ Since (Opens · m) GrowsIntern tr := by
  obtain ⟨m, hkey, hval, hsince⟩ := ((napt_history h).2.2 _ (internKey_nonzero hk) v).1 hv
  exact ⟨m, NaptInternKey.bytes_injective hkey, hval, hsince⟩

theorem protocol_ne_zero_of_since {q : Ipv4Step cfg → Prop} {m : Mapping}
    {tr : List (Ipv4Step cfg)} (h : Since (Opens · m) q tr) : m.protocol ≠ 0 := by
  obtain ⟨t, -, ht⟩ := h.exists_mem
  exact ht.protocol_ne_zero

theorem extern_of_since {r s : Router} {tr : List (Ipv4Step cfg)} (h : Ipv4Run cfg r tr s)
    {m : Mapping} (hsince : Since (Opens · m) GrowsExtern tr) :
    s.napt.externHashmap.lookup m.externKey.bytes = some m.bytes :=
  ((napt_history h).2.1 _ (externKey_nonzero (protocol_ne_zero_of_since hsince)) _).2
    ⟨m, rfl, rfl, hsince⟩

theorem intern_of_since {r s : Router} {tr : List (Ipv4Step cfg)} (h : Ipv4Run cfg r tr s)
    {m : Mapping} (hsince : Since (Opens · m) GrowsIntern tr) :
    s.napt.internHashmap.lookup m.internKey.bytes = some m.bytes :=
  ((napt_history h).2.2 _ (internKey_nonzero (protocol_ne_zero_of_since hsince)) _).2
    ⟨m, rfl, rfl, hsince⟩

theorem Opens.absent {t : Ipv4Step cfg} {m : Mapping} (h : Opens t m) (hok : t.pre.napt.Ok)
    (hstep : ipv4Handle cfg t.pre t.input = some t.post) :
    t.pre.napt.externHashmap.lookup m.externKey.bytes = none := by
  rcases (napt_step hok hstep).2 with ⟨m', hopens, hm'⟩ | ⟨hopens, -⟩
  · rw [(hopens m).1 h]
    exact hm'.absent
  · exact absurd h (hopens m)

end NaptRouter
