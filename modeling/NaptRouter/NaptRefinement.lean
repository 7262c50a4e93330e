import NaptRouter.NaptAgreement

/-!
# The NAPT as a translator

A translator knows which LAN endpoint may be reached from a remote endpoint through a public port,
and which public port a LAN endpoint has: two partial functions, and whether there are ports left.
`napt_refines` — `ipv4.c` is that translator, packet for packet. Of its two hash tables nothing
remains but this: a table that grows forgets, and which table grows when depends on the hashes.
-/

namespace NaptRouter

open ByteMemory Hashmap Runs

variable {cfg : Config} {napt napt' : Napt} {pkt : Mem}

/-! ## The translator -/

/-- What a translator knows. -/
@[ext] structure Translations where
  inbound : NaptExternKey → Option (IpAddr × Port)
  outbound : NaptInternKey → Option Port
  /-- A packet found no port. From now on TCP and UDP packets to the WAN wait. -/
  closed : Bool

/-- Which function forgets what it holds when a mapping is entered. -/
structure Losses where
  inbound : Bool
  outbound : Bool

namespace Translations

def empty : Translations where
  inbound := fun _ => none
  outbound := fun _ => none
  closed := false

def enter (T : Translations) (losses : Losses) (m : Mapping) : Translations where
  inbound := Function.update (if losses.inbound then fun _ => none else T.inbound) m.externKey
    (some m.lan)
  outbound := Function.update (if losses.outbound then fun _ => none else T.outbound) m.internKey
    (some m.publicPort)
  closed := T.closed

/-- The first of ten drawn ports through which the destination reaches nobody. -/
def freePort (cfg : Config) (T : Translations) (pkt : Mem) (rand : Nat → Nat) : Option Port :=
  ((List.range 10).map fun n => naptRandPort (rand n)).find? fun P =>
    (T.inbound (outMapping cfg pkt P).externKey).isNone

/-- The public port of an outbound packet, and what is known afterwards. -/
def translateOut (cfg : Config) (T : Translations) (losses : Losses) (pkt : Mem)
    (rand : Nat → Nat) : Option (Translations × Option Port) :=
  if (transportPorts pkt).isNone then some (T, none)
  else if T.closed then none
  else
    match T.outbound (outInternKey pkt) with
    | some P => some (T, some P)
    | none =>
        match T.freePort cfg pkt rand with
        | some P => some (T.enter losses (outMapping cfg pkt P), some P)
        | none => some ({ T with closed := true }, none)

/-- The LAN endpoint of an inbound packet. -/
def translateInc (T : Translations) (pkt : Mem) : Option (IpAddr × Port) :=
  if (transportPorts pkt).isNone then none else T.inbound (incExternKey pkt)

/-- What is known after a packet, and the packet that is sent on. `none` waits for ever. -/
def handle (cfg : Config) (T : Translations) (losses : Losses) (i : Ipv4Input cfg) :
    Option (Translations × Option Mem) :=
  match ipv4Path cfg i.pkt i.intId with
  | .ignored => some (T, none)
  | .inc => some (T, (T.translateInc i.pkt).map fun lan => naptIncRewrite i.pkt lan.1 lan.2)
  | .bridged => some (T, some i.pkt)
  | .out => (T.translateOut cfg losses i.pkt i.rand).map
      (Prod.map id (Option.map (naptOutRewrite cfg i.pkt)))

end Translations

/-- The translator as a machine. Its input says what is forgotten if the packet is the first of
its endpoint. -/
def translatorStep (cfg : Config) (T : Translations) (i : Ipv4Input cfg × Losses) :
    Option Translations :=
  (T.handle cfg i.2 i.1).map Prod.fst

/-! ## What the tables know -/

/-- The entry with the given bytes. -/
def NaptEntry.ofBytes (v : List UInt8) : NaptEntry := .read (Mem.zero.write 0 v) 0

@[simp] theorem NaptEntry.ofBytes_bytes (e : NaptEntry) : ofBytes e.bytes = e :=
  read_of_bytes (Mem.read_write_same _ 0 e.bytes)

/-- What a table says of a key, without the bytes. No packet asks for protocol 0, whose keys
growth makes up. -/
def known {κ α : Type} (h : Hashmap) (bytes : κ → List UInt8) (protocol : κ → UInt8)
    (read : NaptEntry → α) (k : κ) : Option α :=
  if protocol k = 0 then none
  else (h.lookup (bytes k)).map fun v => read (NaptEntry.ofBytes v)

namespace Napt

def inbound (napt : Napt) : NaptExternKey → Option (IpAddr × Port) :=
  known napt.externHashmap NaptExternKey.bytes NaptExternKey.protocol fun e => (e.lanIp, e.lanPort)

def outbound (napt : Napt) : NaptInternKey → Option Port :=
  known napt.internHashmap NaptInternKey.bytes NaptInternKey.protocol (·.publicPort)

def translations (napt : Napt) : Translations where
  inbound := napt.inbound
  outbound := napt.outbound
  closed := napt.internHashmap.lock

/-- A table at its threshold grows at the next insertion. -/
def losses (napt : Napt) : Losses where
  inbound := decide napt.externHashmap.Full
  outbound := decide napt.internHashmap.Full

/-- The tables hold the bytes of entries. -/
structure HoldsEntries (napt : Napt) : Prop where
  externTable : ∀ k : NaptExternKey, k.protocol ≠ 0 → ∀ v,
    napt.externHashmap.lookup k.bytes = some v → ∃ e : NaptEntry, e.bytes = v
  internTable : ∀ k : NaptInternKey, k.protocol ≠ 0 → ∀ v,
    napt.internHashmap.lookup k.bytes = some v → ∃ e : NaptEntry, e.bytes = v

end Napt

section Known

variable {κ α : Type} {h h' : Hashmap} {bytes : κ → List UInt8} {protocol : κ → UInt8}
  {read : NaptEntry → α} {k : κ}

theorem known_init {hashFunc : List UInt8 → Nat} {sizeKey sizeValue : Nat} :
    known (hashmapInit hashFunc sizeKey sizeValue) bytes protocol read = fun _ => none := by
  funext k
  rw [known, (hashmapInit_sound ..).2, Option.map_none, ite_self]

theorem known_eq_none (hk : protocol k ≠ 0) :
    known h bytes protocol read k = none ↔ h.lookup (bytes k) = none := by
  rw [known, if_neg hk, Option.map_eq_none_iff]

theorem known_eq_some (hk : protocol k ≠ 0) {e : NaptEntry} (he : h.lookup (bytes k) = e.bytes) :
    known h bytes protocol read k = some (read e) := by
  rw [known, if_neg hk, he, Option.map_some, NaptEntry.ofBytes_bytes]

theorem known_inserted [DecidableEq κ] {e : NaptEntry} (hI : Inserted h (bytes k) e.bytes h')
    (hk : protocol k ≠ 0) (hinj : Function.Injective bytes)
    (hzero : ∀ k, protocol k ≠ 0 → bytes k ≠ h.zeroKey) :
    known h' bytes protocol read = Function.update
      (if decide h.Full = true then fun _ => none else known h bytes protocol read) k
      (some (read e)) := by
  funext k'
  by_cases heq : k' = k
  · have hself := hI.lookup (bytes k) (hzero k hk)
    rw [if_pos rfl] at hself
    rw [heq, Function.update_self, known_eq_some hk hself]
  · rw [Function.update_of_ne heq, known]
    by_cases hk' : protocol k' = 0
    · by_cases hfull : h.Full
      · simp [hfull, hk']
      · simp [hfull, hk', known]
    · rw [if_neg hk', hI.lookup _ (hzero k' hk'), if_neg (hinj.ne heq)]
      by_cases hfull : h.Full
      · simp [hfull]
      · simp [hfull, known, hk']

end Known

theorem translations_init : naptInit.translations = Translations.empty := by
  rw [Napt.translations, Napt.inbound, Napt.outbound, naptInit, known_init, known_init]
  rfl

theorem Opened.inbound {m : Mapping} (h : Opened napt m napt') (hm : m.protocol ≠ 0) :
    napt'.inbound =
      Function.update (if napt.losses.inbound then fun _ => none else napt.inbound) m.externKey
        (some m.lan) :=
  known_inserted h.externTable hm (fun _ _ => NaptExternKey.bytes_injective) fun _ hk =>
    (externKey_nonzero hk).ne_zeroKey

theorem Opened.outbound {m : Mapping} (h : Opened napt m napt') (hm : m.protocol ≠ 0) :
    napt'.outbound =
      Function.update (if napt.losses.outbound then fun _ => none else napt.outbound) m.internKey
        (some m.publicPort) :=
  known_inserted h.internTable hm (fun _ _ => NaptInternKey.bytes_injective) fun _ hk =>
    (internKey_nonzero hk).ne_zeroKey

theorem Opened.translations {m : Mapping} (h : Opened napt m napt') (hm : m.protocol ≠ 0) :
    napt'.translations = napt.translations.enter napt.losses m := by
  ext1
  · exact h.inbound hm
  · exact h.outbound hm
  · exact h.internTable.lock

theorem holdsEntries_of_run {r s : Router} {tr : List (Ipv4Step cfg)} (h : Ipv4Run cfg r tr s) :
    s.napt.HoldsEntries where
  externTable k hk v hv := by
    obtain ⟨m, -, hval, -⟩ := exists_opened_of_extern h hk hv
    exact ⟨m.toNaptEntry, hval⟩
  internTable k hk v hv := by
    obtain ⟨m, -, hval, -⟩ := exists_opened_of_intern h hk hv
    exact ⟨m.toNaptEntry, hval⟩

/-! ## Inbound -/

theorem naptIncTranslate_eq (hok : napt.Ok) (hentries : napt.HoldsEntries) (pkt : Mem) :
    naptIncTranslate napt pkt = some (napt, napt.translations.translateInc pkt) := by
  rw [Translations.translateInc]
  cases hports : transportPorts pkt with
  | none =>
    rw [naptIncTranslate, hports]
    rfl
  | some ports =>
    have hproto : (incExternKey pkt).protocol ≠ 0 := (transportPorts_eq_some hports).1
    have hread : napt.translations.inbound (incExternKey pkt) = known napt.externHashmap
      NaptExternKey.bytes NaptExternKey.protocol (fun e => (e.lanIp, e.lanPort)) _ := rfl
    rcases naptIncTranslate_spec hok hports with
      ⟨hnone, htr⟩ | ⟨v, lanIp, lanPort, hv, htr, hentry⟩
    · rw [htr, hread, (known_eq_none hproto).2 hnone]
      rfl
    · obtain ⟨e, rfl⟩ := hentries.externTable _ hproto v hv
      obtain ⟨rfl, rfl⟩ := hentry e rfl
      rw [htr, hread, known_eq_some hproto hv]
      rfl

/-! ## Outbound -/

/-- The first port that is free for a packet. -/
def firstFree (cfg : Config) (napt : Napt) (pkt : Mem) (ports : List Port) : Option Port :=
  ports.find? fun P => (napt.externHashmap.lookup (outMapping cfg pkt P).externKey.bytes).isNone

/-- The last part of the loop, with a free port. -/
def openPort (cfg : Config) (napt : Napt) (pkt : Mem) (P : Port) :
    Option (Napt × Option Port) := do
  let m := outMapping cfg pkt P
  let externHashmap ← hashmapInsert napt.externHashmap m.externKey.bytes m.bytes
  let internHashmap ← hashmapInsert napt.internHashmap m.internKey.bytes m.bytes
  some ({ externHashmap, internHashmap }, some P)

/-- The loop enters a mapping for the first port that is free. -/
theorem naptTryPorts_eq (cfg : Config) (pkt : Mem) (rand : Nat → Nat) {left : Nat}
    (hleft : left ≤ 10) (b : Bool) (hok : napt.Ok) :
    ∃ b', naptTryPorts (ipSrc pkt) (ipDst pkt) (cfg.interfaceGetIp cfg.interfaceGetWanId)
        (portSrc pkt (headerLen pkt)) (portDst pkt (headerLen pkt)) (protocol pkt) rand left
        { napt with externHashmap := napt.externHashmap.setLock b } =
      match firstFree cfg napt pkt
        ((List.range' (10 - left) left).map fun n => naptRandPort (rand n)) with
      | none => some ({ napt with externHashmap := napt.externHashmap.setLock b' }, none)
      | some P =>
          openPort cfg { napt with externHashmap := napt.externHashmap.setLock b' } pkt P := by
  induction left generalizing b with
  | zero => exact ⟨b, rfl⟩
  | succ left ih =>
    have hnext : 10 - (left + 1) + 1 = 10 - left := by omega
    rw [List.range'_succ, List.map_cons, hnext, naptTryPorts, firstFree]
    generalize naptRandPort (rand (10 - (left + 1))) = P
    have hkey : (outMapping cfg pkt P).externKey.bytes.length =
        (napt.externHashmap.setLock b).sizeKey := by
      simpa using hok.externKey.symm
    rcases hashmapGet_total (hok.externTable.setLock b) hkey with
      ⟨hnone, hget⟩ | ⟨v, ptr, hv, -, hget⟩
    · have hfree : napt.externHashmap.lookup (outMapping cfg pkt P).externKey.bytes = none := hnone
      have hcontains : hashmapContains _ _ = some (false, _) := bind_of_eq_some hget
      rw [List.find?_cons_of_pos (by rw [hfree, Option.isNone_none])]
      exact ⟨b, bind_of_eq_some hcontains⟩
    · have htaken : napt.externHashmap.lookup (outMapping cfg pkt P).externKey.bytes = some v := hv
      have hcontains : hashmapContains _ _ = some (true, _) := bind_of_eq_some hget
      rw [List.find?_cons_of_neg (by simp [htaken])]
      obtain ⟨b', hloop⟩ := ih (by omega) false
      exact ⟨b', (bind_of_eq_some hcontains).trans hloop⟩

theorem freePort_eq {rand : Nat → Nat} (hproto : protocol pkt ≠ 0) :
    napt.translations.freePort cfg pkt rand =
      firstFree cfg napt pkt ((List.range 10).map fun n => naptRandPort (rand n)) := by
  refine congrArg (List.find? · _) (funext fun P => ?_)
  show (if protocol pkt = 0 then none else Option.map _ _).isNone = _
  rw [if_neg hproto, Option.isNone_map]

/-- A packet without a mapping gets the first port that is free, and the mapping is inserted in
both tables. -/
theorem naptOutTranslate_search {rand : Nat → Nat} {src dst : Port} {port : Option Port}
    (hok : napt.Ok) (hports : transportPorts pkt = some (src, dst))
    (hlock : napt.internHashmap.lock = false)
    (hmiss : napt.internHashmap.lookup (outInternKey pkt).bytes = none)
    (h : naptOutTranslate cfg napt pkt rand = some (napt', port)) :
    port = napt.translations.freePort cfg pkt rand ∧ ∀ P, port = some P →
      ∃ b externHashmap internHashmap,
        hashmapInsert (napt.externHashmap.setLock b) (outMapping cfg pkt P).externKey.bytes
          (outMapping cfg pkt P).bytes = some externHashmap ∧
        hashmapInsert (napt.internHashmap.setLock true) (outMapping cfg pkt P).internKey.bytes
          (outMapping cfg pkt P).bytes = some internHashmap ∧
        napt' = ⟨hashmapUnlock externHashmap, hashmapUnlock internHashmap⟩ := by
  obtain ⟨hproto, rfl, rfl⟩ := transportPorts_eq_some hports
  have hkey : (outInternKey pkt).bytes.length = (napt.internHashmap.setLock true).sizeKey := by
    simpa using hok.internKey.symm
  rcases hashmapGet_total (hok.internTable.setLock true) hkey with
    ⟨hnone, hget⟩ | ⟨v, ptr, hv, -, -⟩
  · simp only [naptOutTranslate, hports, hashmapLock, hlock, hok.unlocked, Bool.false_eq_true,
      if_false, Option.bind_eq_bind, Option.bind_some] at h
    replace h := (bind_of_eq_some hget).symm.trans h
    obtain ⟨b, hloop⟩ := naptTryPorts_eq cfg pkt rand le_rfl true (hok.setInternLock true)
    obtain ⟨⟨napt'', port'⟩, hsearch, h⟩ := Option.bind_eq_some_iff.1 h
    replace hloop := hloop.symm.trans hsearch
    -- The loop tries the ports in the order in which the specification lists them.
    have hsame : firstFree cfg { napt with internHashmap := napt.internHashmap.setLock true } pkt
        ((List.range' (10 - 10) 10).map fun n => naptRandPort (rand n)) =
          napt.translations.freePort cfg pkt rand := by
      rw [freePort_eq hproto, List.range_eq_range']
      rfl
    rw [hsame] at hloop
    cases hfree : napt.translations.freePort cfg pkt rand with
    | none =>
      rw [hfree] at hloop
      obtain ⟨rfl, rfl⟩ := Prod.mk.inj (Option.some.inj hloop)
      obtain rfl : none = port := (Prod.mk.inj (Option.some.inj h)).2
      refine ⟨rfl, fun P hP => ?_⟩
      cases hP
    | some P =>
      rw [hfree] at hloop
      obtain ⟨externHashmap, hinbound, hloop⟩ := Option.bind_eq_some_iff.1 hloop
      obtain ⟨internHashmap, houtbound, hloop⟩ := Option.bind_eq_some_iff.1 hloop
      obtain ⟨rfl, rfl⟩ := Prod.mk.inj (Option.some.inj hloop)
      obtain ⟨rfl, rfl⟩ := Prod.mk.inj (Option.some.inj h)
      refine ⟨rfl, fun P' hP' => ?_⟩
      obtain rfl := Option.some.inj hP'
      exact ⟨b, externHashmap, internHashmap, hinbound, houtbound, rfl⟩
  · cases hmiss.symm.trans hv

theorem naptOutTranslate_eq (cfg : Config) (hok : napt.Ok) (hentries : napt.HoldsEntries)
    (pkt : Mem) (rand : Nat → Nat) :
    (naptOutTranslate cfg napt pkt rand).map (Prod.map Napt.translations id) =
      napt.translations.translateOut cfg napt.losses pkt rand := by
  rw [Translations.translateOut]
  cases hports : transportPorts pkt with
  | none =>
    rw [naptOutTranslate, hports]
    rfl
  | some ports =>
    have hproto : (outInternKey pkt).protocol ≠ 0 := (transportPorts_eq_some hports).1
    have hread : napt.translations.outbound (outInternKey pkt) = known napt.internHashmap
      NaptInternKey.bytes NaptInternKey.protocol (·.publicPort) _ := rfl
    have hspec := naptOutTranslate_spec cfg hok rand hports
    have hclosed : napt.translations.closed = napt.internHashmap.lock := rfl
    rw [Option.isNone_some, if_neg Bool.false_ne_true, hclosed]
    cases hlock : napt.internHashmap.lock with
    | true =>
      rw [if_pos hlock] at hspec
      rw [hspec, if_pos rfl, Option.map_none]
    | false =>
      rw [hlock, if_neg Bool.false_ne_true] at hspec
      obtain ⟨napt', port, htr, hres⟩ := hspec
      rw [htr, if_neg Bool.false_ne_true, hread, Option.map_some]
      cases hres with
      | reused hit hport =>
        obtain ⟨e, rfl⟩ := hentries.internTable _ hproto _ hit
        rw [known_eq_some hproto hit, hport e rfl]
        rfl
      | opened miss opened =>
        rw [(known_eq_none hproto).2 miss, ← (naptOutTranslate_search hok hports hlock miss htr).1]
        simp [opened.translations hproto]
      | dropped miss =>
        rw [(known_eq_none hproto).2 miss, ← (naptOutTranslate_search hok hports hlock miss htr).1]
        rfl

/-! ## Runs -/

/-- The router does with a packet what the translator does: it waits for ever if that does, and
else it sends the same packet, with tables that know the same afterwards. -/
def Follows (cfg : Config) (s : Router) (i : Ipv4Input cfg) : Prop :=
  match s.napt.translations.handle cfg s.napt.losses i with
  | none => ipv4Handle cfg s i = none
  | some (T, sent) => ∃ napt, napt.translations = T ∧
      ipv4Handle cfg s i = some (sent.elim { s with napt } (sendIpv4 cfg { s with napt }))

/-- **One packet.** -/
theorem follows {s : Router} (hok : s.napt.Ok) (hentries : s.napt.HoldsEntries)
    (i : Ipv4Input cfg) : Follows cfg s i := by
  rw [Follows, Translations.handle, ipv4Handle]
  cases ipv4Path cfg i.pkt i.intId with
  | ignored => exact ⟨s.napt, rfl, rfl⟩
  | bridged => exact ⟨s.napt, rfl, rfl⟩
  | inc =>
    refine ⟨s.napt, rfl, ?_⟩
    rw [naptIncHandle, naptIncTranslate_eq hok hentries]
    cases s.napt.translations.translateInc i.pkt with
    | none => rfl
    | some lan => rfl
  | out =>
    simp only [naptOutHandle, ← naptOutTranslate_eq cfg hok hentries]
    cases naptOutTranslate cfg s.napt i.pkt i.rand with
    | none => rfl
    | some result =>
      obtain ⟨napt', port⟩ := result
      cases port with
      | none => exact ⟨napt', rfl, rfl⟩
      | some P => exact ⟨napt', rfl, rfl⟩

/-- A step of the router is a step of the translator. -/
theorem Follows.translatorStep {s s' : Router} {i : Ipv4Input cfg} (h : Follows cfg s i)
    (hstep : ipv4Handle cfg s i = some s') :
    translatorStep cfg s.napt.translations (i, s.napt.losses) = some s'.napt.translations := by
  rw [Follows] at h
  rw [NaptRouter.translatorStep]
  cases hhandle : s.napt.translations.handle cfg s.napt.losses i with
  | none =>
    rw [hhandle] at h
    cases h.symm.trans hstep
  | some result =>
    obtain ⟨T, sent⟩ := result
    rw [hhandle] at h
    obtain ⟨napt, rfl, hsent⟩ := h
    rw [← Option.some.inj (hsent.symm.trans hstep)]
    cases sent with
    | none => rfl
    | some pkt => simp

/-- The step of the translator that a step of the router is. -/
def translatorEntry (t : Ipv4Step cfg) : Step Translations (Ipv4Input cfg × Losses) where
  pre := t.pre.napt.translations
  input := (t.input, t.pre.napt.losses)
  post := t.post.napt.translations

/-- **The router is a translator.** Every run of `ipv4_handle` is a run of the translator that
starts knowing nothing, and forgets when a table grows. In each state that is reached, and for
every packet, the two agree: on whether the packet is handled, on the packet that is sent on, with
its addresses and ports, and on what is known afterwards. -/
theorem napt_refines {r s : Router} {tr : List (Ipv4Step cfg)} (h : Ipv4Run cfg r tr s) :
    Run (translatorStep cfg) Translations.empty (tr.map translatorEntry) s.napt.translations ∧
      ∀ i, Follows cfg s i := by
  have hfollows {tr : List (Ipv4Step cfg)} {s : Router} (h : Ipv4Run cfg r tr s)
      (i : Ipv4Input cfg) : Follows cfg s i :=
    follows (napt_history h).1 (holdsEntries_of_run h) i
  refine ⟨?_, hfollows h⟩
  rw [← translations_init]
  exact Run.refines (fun s => s.napt.translations) (fun s i => (i, s.napt.losses))
    (fun tr s i s' hrun hstep => (hfollows hrun i).translatorStep hstep) h

/-- Six flows. At the sixth both tables grow, and the first is forgotten. -/
theorem napt_refines_six :
    ∃ tr s, Ipv4Run shippedConfig routerInit tr s ∧
      tr.map (·.input) = (List.range 6).map nthFlow ∧
      s.napt.translations.outbound (outInternKey (nthFlow 0).pkt) = none ∧
      s.napt.translations.outbound (outInternKey (nthFlow 5).pkt) = some ⟨1049⟩ ∧
      Run (translatorStep shippedConfig) Translations.empty (tr.map translatorEntry)
        s.napt.translations ∧ Follows shippedConfig s (nthFlow 0) := by
  obtain ⟨tr, t, hrun, hinputs, hlast⟩ := exists_run_snoc (ipv4Handle shippedConfig) routerInit
    ((List.range 5).map nthFlow) (nthFlow 5)
    (fun _ t => decide (
      t.post.napt.translations.outbound (outInternKey (nthFlow 0).pkt) = none ∧
      t.post.napt.translations.outbound (outInternKey (nthFlow 5).pkt) = some ⟨1049⟩))
    (by decide +kernel)
  obtain ⟨hfirst, hsixth⟩ := of_decide_eq_true hlast
  obtain ⟨htranslator, hfollows⟩ := napt_refines (r := routerInit) hrun
  exact ⟨tr ++ [t], t.post, hrun, hinputs, hfirst, hsixth, htranslator, hfollows _⟩

end NaptRouter
