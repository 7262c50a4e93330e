import NaptRouter.Firewall
import NaptRouter.TableGrowth
import NaptRouter.Lib.LockTrace

/-!
# The mutexes of the NAPT tables

`napt_out_handle` and `napt_inc_handle` once more, with a log of what they do to the mutexes of
the two tables and to the tables themselves. Without the log they are the functions of
`Ipv4.lean` (`erase_naptOutHandleT`, `erase_naptIncHandleT`).

`hashmap_get` releases on a hit a mutex that its callers release again, and that they rely on
until then. So the rules are kept exactly on the paths without a hit (`lock_discipline_iff`).
-/

namespace NaptRouter

open ByteMemory LockTrace LockTrace.Traced Hashmap

/-- The two tables, each with its `lock_`. -/
inductive NaptTable
  | externTable
  | internTable
deriving DecidableEq, Repr

/-! ## `hashmap.c` -/

def hashmapLockT (t : NaptTable) (h : Hashmap) : Traced NaptTable Hashmap := do
  let h ← lift (hashmapLock h)
  emit (.lock t)
  pure h

def hashmapUnlockT (t : NaptTable) (h : Hashmap) : Traced NaptTable Hashmap := do
  emit (.unlock t)
  pure (hashmapUnlock h)

def hashmapGetT (t : NaptTable) (h : Hashmap) (key : List UInt8) :
    Traced NaptTable (Option Nat × Hashmap) := do
  let hash := h.hashFunc (key.take h.sizeKey)
  emit (.access t)
  match ← lift (getLoop h key h.sizeAllocated (hash % h.sizeAllocated)) with
  | none => pure (none, h)
  | some valuePtr =>
      emit (.unlock t)
      pure (some valuePtr, h.setLock false)

def hashmapContainsT (t : NaptTable) (h : Hashmap) (key : List UInt8) :
    Traced NaptTable (Bool × Hashmap) := do
  let (ptr, h) ← hashmapGetT t h key
  pure (ptr.isSome, h)

def hashmapInsertT (t : NaptTable) (h : Hashmap) (key value : List UInt8) :
    Traced NaptTable Hashmap := do
  emit (.access t)
  lift (hashmapInsert h key value)

/-! ## `ipv4.c` -/

def naptTryPortsT (ipSrc ipDst publicIp : IpAddr) (portSrc portDst : Port) (protocol : UInt8)
    (rand : Nat → Nat) : Nat → Napt → Traced NaptTable (Napt × Option Port)
  | 0, napt => pure (napt, none)
  | left + 1, napt => do
      let newPortSrc := naptRandPort (rand (10 - (left + 1)))
      let externKey : NaptExternKey := { ipDst, portSrc := newPortSrc, portDst, protocol }
      let (found, externHashmap) ← hashmapContainsT .externTable napt.externHashmap externKey.bytes
      let napt := { napt with externHashmap }
      if found then naptTryPortsT ipSrc ipDst publicIp portSrc portDst protocol rand left napt
      else
        let value : NaptEntry :=
          { lanIp := ipSrc, lanPort := portSrc, publicIp, publicPort := newPortSrc,
            dstIp := ipDst, dstPort := portDst, timestamp := 0 }
        let externHashmap ←
          hashmapInsertT .externTable napt.externHashmap externKey.bytes value.bytes
        let internKey : NaptInternKey := { ipSrc, portSrc, protocol }
        let internHashmap ←
          hashmapInsertT .internTable napt.internHashmap internKey.bytes value.bytes
        pure ({ externHashmap, internHashmap }, some newPortSrc)

/-- `existing_res` is read when `hashmap_get` has already released the mutex. -/
def naptOutTranslateT (cfg : Config) (napt : Napt) (pkt : Mem) (rand : Nat → Nat) :
    Traced NaptTable (Napt × Option Port) :=
  match transportPorts pkt with
  | none => pure (napt, none)
  | some (portSrc, portDst) => do
      let publicIp := cfg.interfaceGetIp cfg.interfaceGetWanId
      let internKey : NaptInternKey := { ipSrc := ipSrc pkt, portSrc, protocol := protocol pkt }
      let internHashmap ← hashmapLockT .internTable napt.internHashmap
      let (existingRes, internHashmap) ← hashmapGetT .internTable internHashmap internKey.bytes
      let napt := { napt with internHashmap }
      match existingRes with
      | some ptr =>
          emit (.access .internTable)
          let newPortSrc := (NaptEntry.read internHashmap.data ptr).publicPort
          let internHashmap ← hashmapUnlockT .internTable internHashmap
          pure ({ napt with internHashmap }, some newPortSrc)
      | none =>
          let externHashmap ← hashmapLockT .externTable napt.externHashmap
          let (napt, port) ← naptTryPortsT (ipSrc pkt) (ipDst pkt) publicIp portSrc portDst
            (protocol pkt) rand 10 { napt with externHashmap }
          let externHashmap ← hashmapUnlockT .externTable napt.externHashmap
          let napt := { napt with externHashmap }
          match port with
          | none => pure (napt, none)
          | some newPortSrc =>
              let internHashmap ← hashmapUnlockT .internTable napt.internHashmap
              pure ({ napt with internHashmap }, some newPortSrc)

def naptOutHandleT (cfg : Config) (r : Router) (pkt : Mem) (rand : Nat → Nat) :
    Traced NaptTable Router := do
  let (napt, port) ← naptOutTranslateT cfg r.napt pkt rand
  match port with
  | none => pure { r with napt }
  | some newPortSrc => pure (sendIpv4 cfg { r with napt } (naptOutRewrite cfg pkt newPortSrc))

/-- `entry` is read when `hashmap_get` has already released the mutex. -/
def naptIncTranslateT (napt : Napt) (pkt : Mem) :
    Traced NaptTable (Napt × Option (IpAddr × Port)) :=
  match transportPorts pkt with
  | none => pure (napt, none)
  | some (portSrc, portDst) => do
      let externKey : NaptExternKey :=
        { ipDst := ipSrc pkt, portSrc := portDst, portDst := portSrc, protocol := protocol pkt }
      let externHashmap ← hashmapLockT .externTable napt.externHashmap
      let (entry, externHashmap) ← hashmapGetT .externTable externHashmap externKey.bytes
      match entry with
      | none =>
          let externHashmap ← hashmapUnlockT .externTable externHashmap
          pure ({ napt with externHashmap }, none)
      | some ptr =>
          emit (.access .externTable)
          let entry := NaptEntry.read externHashmap.data ptr
          let externHashmap ← hashmapUnlockT .externTable externHashmap
          pure ({ napt with externHashmap }, some (entry.lanIp, entry.lanPort))

def naptIncHandleT (cfg : Config) (r : Router) (pkt : Mem) : Traced NaptTable Router := do
  let (napt, endpoint) ← naptIncTranslateT r.napt pkt
  match endpoint with
  | none => pure { r with napt }
  | some (lanIp, lanPort) =>
      pure (sendIpv4 cfg { r with napt } (naptIncRewrite pkt lanIp lanPort))

/-! ## Without the log -/

@[simp] theorem erase_hashmapLockT (t : NaptTable) (h : Hashmap) :
    (hashmapLockT t h).erase = hashmapLock h := by
  simp [hashmapLockT]

@[simp] theorem erase_hashmapUnlockT (t : NaptTable) (h : Hashmap) :
    (hashmapUnlockT t h).erase = some (hashmapUnlock h) := by
  simp [hashmapUnlockT]

@[simp] theorem erase_hashmapGetT (t : NaptTable) (h : Hashmap) (key : List UInt8) :
    (hashmapGetT t h key).erase = hashmapGet h key := by
  simp only [hashmapGetT, hashmapGet, erase_bind, erase_emit, erase_lift, Option.bind_some,
    Option.bind_eq_bind]
  refine Option.bind_congr fun p _ => ?_
  cases p <;> simp

@[simp] theorem erase_hashmapContainsT (t : NaptTable) (h : Hashmap) (key : List UInt8) :
    (hashmapContainsT t h key).erase = hashmapContains h key := by
  simp [hashmapContainsT, hashmapContains]

@[simp] theorem erase_hashmapInsertT (t : NaptTable) (h : Hashmap) (key value : List UInt8) :
    (hashmapInsertT t h key value).erase = hashmapInsert h key value := by
  simp [hashmapInsertT]

@[simp] theorem erase_naptTryPortsT (ipSrc ipDst publicIp : IpAddr) (portSrc portDst : Port)
    (protocol : UInt8) (rand : Nat → Nat) (left : Nat) (napt : Napt) :
    (naptTryPortsT ipSrc ipDst publicIp portSrc portDst protocol rand left napt).erase =
      naptTryPorts ipSrc ipDst publicIp portSrc portDst protocol rand left napt := by
  induction left generalizing napt with
  | zero => rfl
  | succ left ih =>
    simp only [naptTryPortsT, naptTryPorts, erase_bind, erase_hashmapContainsT,
      Option.bind_eq_bind]
    refine Option.bind_congr fun p _ => ?_
    split
    · exact ih _
    · simp

theorem erase_naptOutHandleT (cfg : Config) (r : Router) (pkt : Mem) (rand : Nat → Nat) :
    (naptOutHandleT cfg r pkt rand).erase = naptOutHandle cfg r pkt rand := by
  have htr : (naptOutTranslateT cfg r.napt pkt rand).erase =
      naptOutTranslate cfg r.napt pkt rand := by
    rw [naptOutTranslateT, naptOutTranslate]
    cases transportPorts pkt with
    | none => rfl
    | some ports =>
      simp only [erase_bind, erase_hashmapLockT, erase_hashmapGetT, Option.bind_eq_bind]
      refine Option.bind_congr fun internHashmap _ => Option.bind_congr fun p _ => ?_
      cases p.1 with
      | some ptr => simp
      | none =>
        simp only [erase_bind, erase_hashmapLockT, erase_naptTryPortsT, erase_hashmapUnlockT,
          Option.bind_some]
        refine Option.bind_congr fun externHashmap _ => Option.bind_congr fun q _ => ?_
        cases q.2 <;> simp
  simp only [naptOutHandleT, naptOutHandle, erase_bind, htr, Option.bind_eq_bind]
  refine Option.bind_congr fun p _ => ?_
  cases p.2 <;> rfl

theorem erase_naptIncHandleT (cfg : Config) (r : Router) (pkt : Mem) :
    (naptIncHandleT cfg r pkt).erase = naptIncHandle cfg r pkt := by
  have htr : (naptIncTranslateT r.napt pkt).erase = naptIncTranslate r.napt pkt := by
    rw [naptIncTranslateT, naptIncTranslate]
    cases transportPorts pkt with
    | none => rfl
    | some ports =>
      simp only [erase_bind, erase_hashmapLockT, erase_hashmapGetT, Option.bind_eq_bind]
      refine Option.bind_congr fun externHashmap _ => Option.bind_congr fun p _ => ?_
      cases p.1 <;> simp
  simp only [naptIncHandleT, naptIncHandle, erase_bind, htr, Option.bind_eq_bind]
  refine Option.bind_congr fun p _ => ?_
  cases p.2 <;> rfl

/-! ## What the calls need and leave -/

section Rules

variable {t : NaptTable} {h : Hashmap} {held : Held NaptTable}

@[simp] theorem wp_hashmapLockT {Q : Hashmap → Held NaptTable → Prop} :
    wp (hashmapLockT t h) Q held ↔
      h.lock = false ∧ held t = false ∧ Q (h.setLock true) (Function.update held t true) := by
  cases hlock : h.lock <;> simp [hashmapLockT, hashmapLock, hlock]

@[simp] theorem wp_hashmapUnlockT {Q : Hashmap → Held NaptTable → Prop} :
    wp (hashmapUnlockT t h) Q held ↔
      held t = true ∧ Q (h.setLock false) (Function.update held t false) := by
  simp [hashmapUnlockT, hashmapUnlock]

theorem wp_hashmapGetT {key : List UInt8} {Q : Option Nat × Hashmap → Held NaptTable → Prop} :
    wp (hashmapGetT t h key) Q held ↔ held t = true ∧ ∃ ptr h', hashmapGet h key = some (ptr, h') ∧
      Q (ptr, h') (if ptr.isSome then Function.update held t false else held) := by
  simp only [hashmapGetT, wp_bind, wp_access, wp_lift, hashmapGet, Option.bind_eq_bind]
  refine and_congr_right fun hheld => ?_
  cases getLoop h key h.sizeAllocated (h.hashFunc (key.take h.sizeKey) % h.sizeAllocated) with
  | none => simp
  | some ptr => cases ptr <;> simp [hheld]

theorem wp_hashmapContainsT {key : List UInt8} {Q : Bool × Hashmap → Held NaptTable → Prop} :
    wp (hashmapContainsT t h key) Q held ↔
      held t = true ∧ ∃ ptr h', hashmapGet h key = some (ptr, h') ∧
        Q (ptr.isSome, h') (if ptr.isSome then Function.update held t false else held) := by
  simp only [hashmapContainsT, wp_bind, wp_hashmapGetT, wp_pure]

@[simp] theorem wp_hashmapInsertT {key value : List UInt8}
    {Q : Hashmap → Held NaptTable → Prop} :
    wp (hashmapInsertT t h key value) Q held ↔
      held t = true ∧ ∃ h', hashmapInsert h key value = some h' ∧ Q h' held := by
  simp [hashmapInsertT]

end Rules

/-! ## Insertion after a miss -/

theorem getLoop_setLock (h : Hashmap) (b : Bool) (key : List UInt8) (fuel i : Nat) :
    getLoop (h.setLock b) key fuel i = getLoop h key fuel i := by
  induction fuel generalizing i with
  | zero => rfl
  | succ fuel ih =>
    rw [getLoop, getLoop, ih]
    rfl

theorem misses_iff {h : Hashmap} {key : List UInt8} :
    h.Misses key ↔ getLoop h key h.sizeAllocated
      (h.hashFunc (key.take h.sizeKey) % h.sizeAllocated) = some none := by
  constructor
  · intro hmiss
    obtain ⟨h', hget⟩ := hmiss
    obtain ⟨ptr, hloop, hptr⟩ := Option.bind_eq_some_iff.1 hget
    cases ptr with
    | none => exact hloop
    | some ptr => cases hptr
  · exact fun hloop => ⟨h, Option.bind_eq_some_iff.2 ⟨none, hloop, rfl⟩⟩

theorem hashmapGet_of_misses {h : Hashmap} {key : List UInt8} (hmiss : h.Misses key) :
    hashmapGet h key = some (none, h) :=
  Option.bind_eq_some_iff.2 ⟨none, misses_iff.1 hmiss, rfl⟩

theorem misses_setLock {h : Hashmap} {key : List UInt8} (b : Bool) :
    (h.setLock b).Misses key ↔ h.Misses key := by
  rw [misses_iff, misses_iff, getLoop_setLock]
  rfl

/-- Where the lookup of a key ends at an empty slot, its insertion ends too. -/
theorem insertLoop_of_getLoop {h : Hashmap} {key : List UInt8} (k v : Src) {fuel i : Nat}
    (hget : getLoop h key fuel i = some none) : ∃ h', insertLoop h k v fuel i = some h' := by
  induction fuel generalizing i with
  | zero => simp [getLoop] at hget
  | succ fuel ih =>
    rw [insertLoop]
    by_cases hfree : tagGet h.data i = tagEmpty ∨ tagGet h.data i = tagGrave
    · exact ⟨_, if_pos hfree⟩
    · rw [not_or] at hfree
      rw [getLoop, if_neg hfree.1] at hget
      split_ifs at hget with htaken
      · cases hget
      · rw [if_neg (not_or.2 hfree)]
        exact ih hget

/-- So `hashmap_insert` returns for a key that `hashmap_get` does not find, in every table. -/
theorem hashmapInsert_of_misses {h : Hashmap} {k : List UInt8} (hmiss : h.Misses k)
    (v : List UInt8) : ∃ h', hashmapInsert h k v = some h' := by
  by_cases hfull : h.Full
  · obtain ⟨hg, hgrow, hR⟩ := hashmapGrow_regrown h 0
    have hroom : hg.table.count < hg.sizeAllocated := by
      have hn := hR.sizeAllocated
      have hsize := hR.size_le
      rw [← hR.wf.size_eq]
      omega
    obtain ⟨p, -, hloop⟩ := insertLoop_spec (.ext k) (.ext v) hR.wf.pos hR.wf.tags hroom
    refine ⟨fillSlot hg (.ext k) (.ext v) p, ?_⟩
    rw [hashmapInsert, hashmapInsertDepth_of_full hfull hgrow, ← hloop, hR.hashFunc, Src.read,
      Src.read, hR.sizeKey]
  · rw [hashmapInsert, hashmapInsertDepth_of_not_full hfull]
    exact insertLoop_of_getLoop _ _ (misses_iff.1 hmiss)

/-! ## The calls of `ipv4.c` -/

/-- An attempt looks into the extern table. -/
theorem held_of_wp_naptTryPortsT {ipSrc ipDst publicIp : IpAddr} {portSrc portDst : Port}
    {protocol : UInt8} {rand : Nat → Nat} {left : Nat} {napt : Napt} {held : Held NaptTable}
    {Q : Napt × Option Port → Held NaptTable → Prop}
    (h : wp (naptTryPortsT ipSrc ipDst publicIp portSrc portDst protocol rand (left + 1) napt)
      Q held) : held .externTable = true := by
  rw [naptTryPortsT, wp_bind, wp_hashmapContainsT] at h
  exact h.1

/-- No lookup of `napt_out_handle` hits: the LAN endpoint has no mapping, and the first port that
is drawn is free. -/
def MissesOut (cfg : Config) (napt : Napt) (pkt : Mem) (rand : Nat → Nat) : Prop :=
  napt.internHashmap.Misses (outInternKey pkt).bytes ∧
    napt.externHashmap.Misses (outMapping cfg pkt (naptRandPort (rand 0))).externKey.bytes

theorem disciplined_naptOutTranslateT (cfg : Config) {napt : Napt}
    (hexternFree : napt.externHashmap.lock = false) (hinternFree : napt.internHashmap.lock = false)
    (pkt : Mem) (rand : Nat → Nat) :
    (naptOutTranslateT cfg napt pkt rand).Disciplined ↔
      transportPorts pkt = none ∨ MissesOut cfg napt pkt rand := by
  rw [disciplined_iff, naptOutTranslateT]
  cases hports : transportPorts pkt with
  | none => simp
  | some ports =>
    obtain ⟨src, dst⟩ := ports
    obtain ⟨-, rfl, rfl⟩ := transportPorts_eq_some hports
    simp only [wp_bind, wp_hashmapLockT, wp_hashmapGetT, hinternFree, Held.free, true_and,
      Function.update_self, reduceCtorEq, false_or]
    constructor
    · intro h
      obtain ⟨ptr, internHashmap, hget, h⟩ := h
      cases ptr with
      | some ptr =>
        -- `existing_res->public_port`, without the mutex.
        rw [wp_bind, wp_access] at h
        cases h.1
      | none =>
        refine ⟨(misses_setLock true).1 ⟨_, hget⟩, ?_⟩
        simp only [wp_bind, wp_hashmapLockT] at h
        obtain ⟨-, -, h⟩ := h
        rw [naptTryPortsT, wp_bind, wp_hashmapContainsT] at h
        obtain ⟨-, ptr, externHashmap, hget', h⟩ := h
        cases ptr with
        | some ptr =>
          -- The second attempt looks into the extern table without the mutex.
          cases held_of_wp_naptTryPortsT h
        | none => exact (misses_setLock true).1 ⟨_, hget'⟩
    · intro h
      obtain ⟨hmiss, hfree⟩ := h
      -- The first port is free, so there is no second attempt.
      have hmiss' := (misses_setLock true).2 hmiss
      have hfree' := (misses_setLock true).2 hfree
      refine ⟨none, _, hashmapGet_of_misses hmiss', ?_⟩
      simp only [wp_bind, wp_hashmapLockT]
      refine ⟨hexternFree, rfl, ?_⟩
      rw [naptTryPortsT, wp_bind, wp_hashmapContainsT]
      refine ⟨rfl, none, _, hashmapGet_of_misses hfree', ?_⟩
      obtain ⟨externHashmap, hins⟩ := hashmapInsert_of_misses hfree'
        (outMapping cfg pkt (naptRandPort (rand 0))).bytes
      obtain ⟨internHashmap, hins'⟩ := hashmapInsert_of_misses hmiss'
        (outMapping cfg pkt (naptRandPort (rand 0))).bytes
      simp only [wp_bind, wp_hashmapInsertT, wp_hashmapUnlockT, wp_pure, Option.isSome_none,
        Bool.false_eq_true, if_false]
      refine ⟨rfl, externHashmap, hins, rfl, internHashmap, hins', rfl, rfl, ?_⟩
      funext t
      cases t <;> rfl

theorem disciplined_naptIncTranslateT {napt : Napt} (hexternFree : napt.externHashmap.lock = false)
    (pkt : Mem) : (naptIncTranslateT napt pkt).Disciplined ↔
      transportPorts pkt = none ∨ napt.externHashmap.Misses (incExternKey pkt).bytes := by
  rw [disciplined_iff, naptIncTranslateT]
  cases hports : transportPorts pkt with
  | none => simp
  | some ports =>
    obtain ⟨src, dst⟩ := ports
    obtain ⟨-, rfl, rfl⟩ := transportPorts_eq_some hports
    simp only [wp_bind, wp_hashmapLockT, wp_hashmapGetT, hexternFree, Held.free, true_and,
      Function.update_self, reduceCtorEq, false_or]
    constructor
    · intro h
      obtain ⟨ptr, externHashmap, hget, h⟩ := h
      cases ptr with
      | some ptr =>
        -- `entry->lan_ip`, without the mutex.
        rw [wp_bind, wp_access] at h
        cases h.1
      | none => exact (misses_setLock true).1 ⟨_, hget⟩
    · intro hmiss
      refine ⟨none, _, hashmapGet_of_misses ((misses_setLock true).2 hmiss), ?_⟩
      simp only [wp_bind, wp_hashmapUnlockT, wp_pure, Option.isSome_none, Bool.false_eq_true,
        if_false]
      refine ⟨rfl, ?_⟩
      funext t
      cases t <;> rfl

/-- **Lock discipline**, for all tables whose mutexes are free. The calls return, keep the rules
and leave both mutexes free if and only if they drop the packet for its protocol or no lookup
hits. -/
theorem lock_discipline_iff (cfg : Config) {r : Router}
    (hexternFree : r.napt.externHashmap.lock = false)
    (hinternFree : r.napt.internHashmap.lock = false)
    (pkt : Mem) :
    (∀ rand, (naptOutHandleT cfg r pkt rand).Disciplined ↔
      transportPorts pkt = none ∨ MissesOut cfg r.napt pkt rand) ∧
    ((naptIncHandleT cfg r pkt).Disciplined ↔
      transportPorts pkt = none ∨ r.napt.externHashmap.Misses (incExternKey pkt).bytes) := by
  refine ⟨fun rand => ?_, ?_⟩
  · rw [← disciplined_naptOutTranslateT cfg hexternFree hinternFree]
    refine disciplined_bind_pure fun p => ?_
    obtain ⟨napt, port⟩ := p
    cases port with
    | none => exact ⟨_, rfl⟩
    | some newPortSrc => exact ⟨_, rfl⟩
  · rw [← disciplined_naptIncTranslateT hexternFree]
    refine disciplined_bind_pure fun p => ?_
    obtain ⟨napt, endpoint⟩ := p
    cases endpoint with
    | none => exact ⟨_, rfl⟩
    | some lan => exact ⟨_, rfl⟩

/-- The first packet of a host keeps the rules. -/
theorem lock_discipline_first :
    (naptOutHandleT shippedConfig routerInit
      (udpDatagram (⟨192, 168, 1, 100⟩, ⟨5000⟩) (⟨8, 8, 8, 8⟩, ⟨53⟩))
      (fun _ => 0)).Disciplined := by
  refine ((lock_discipline_iff shippedConfig (r := routerInit) rfl rfl _).1 _).2 (Or.inr ?_)
  exact ⟨misses_iff.2 (by decide +kernel), misses_iff.2 (by decide +kernel)⟩

/-- The second packet of a host does not, and neither does the answer to the first: both times
the mutex is released by `hashmap_get`, the entry is read, and the mutex is released again. -/
theorem lock_discipline_fails :
    let host : IpAddr × Port := (⟨192, 168, 1, 100⟩, ⟨5000⟩)
    let server : IpAddr × Port := (⟨8, 8, 8, 8⟩, ⟨53⟩)
    ∃ r, ipv4Handle shippedConfig routerInit (fromLan host server 0) = some r ∧
      r.napt.externHashmap.lock = false ∧ r.napt.internHashmap.lock = false ∧
      (naptOutHandleT shippedConfig r (udpDatagram host server) (fun _ => 0)).ops =
        some [.lock .internTable, .access .internTable, .unlock .internTable, .access .internTable,
          .unlock .internTable] ∧
      ¬ (naptOutHandleT shippedConfig r (udpDatagram host server) (fun _ => 0)).Disciplined ∧
      (naptIncHandleT shippedConfig r (udpDatagram server (⟨192, 168, 0, 2⟩, ⟨1024⟩))).ops =
        some [.lock .externTable, .access .externTable, .unlock .externTable, .access .externTable,
          .unlock .externTable] ∧
      ¬ (naptIncHandleT shippedConfig r
        (udpDatagram server (⟨192, 168, 0, 2⟩, ⟨1024⟩))).Disciplined := by
  intro host server
  have htest : ((ipv4Handle shippedConfig routerInit (fromLan host server 0)).any fun r => decide
      (r.napt.externHashmap.lock = false ∧ r.napt.internHashmap.lock = false ∧
        (naptOutHandleT shippedConfig r (udpDatagram host server) (fun _ => 0)).ops =
          some [.lock .internTable, .access .internTable, .unlock .internTable,
            .access .internTable, .unlock .internTable] ∧
        (naptIncHandleT shippedConfig r (udpDatagram server (⟨192, 168, 0, 2⟩, ⟨1024⟩))).ops =
          some [.lock .externTable, .access .externTable, .unlock .externTable,
            .access .externTable, .unlock .externTable])) = true := by
    decide +kernel
  obtain ⟨r, hr, hdecide⟩ := (Option.any_eq_true ..).1 htest
  obtain ⟨hexternFree, hinternFree, hout, hinc⟩ := of_decide_eq_true hdecide
  refine ⟨r, hr, hexternFree, hinternFree, hout, fun hbad => ?_, hinc, fun hbad => ?_⟩
  · obtain ⟨ops, hops, hcheck⟩ := hbad
    obtain rfl := Option.some.inj (hout.symm.trans hops)
    cases hcheck
  · obtain ⟨ops, hops, hcheck⟩ := hbad
    obtain rfl := Option.some.inj (hinc.symm.trans hops)
    cases hcheck

end NaptRouter
