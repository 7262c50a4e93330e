import NaptRouter.LockDiscipline
import NaptRouter.Threads
import NaptRouter.Lib.LockOrder

/-!
# No thread waits for ever for another

The threads of the router lock four mutexes: those of the two NAPT tables, `ip_mac_map_mutex` and
`timer_mutex`. `napt_out_handle` is the only function that locks one while it holds another.

What a call does to the mutexes depends on the tables, and those may change between any two
operations of other threads, all the more since `hashmap_get` gives up the mutex on a hit. So a
call is any of the paths through its function (`OutPath`, `IncPath`), and what is shown here holds
whatever path each call takes: as long as no call runs out of ports, the threads cannot block one
another (`threads_progress`); the first call that does leaves a mutex locked, and then no call from
the LAN to the WAN gets anywhere (`exhausted_blocks`).
-/

namespace NaptRouter

open ByteMemory LockTrace LockTrace.Traced LockOrder Runs ThreadPool Hashmap

/-- The mutexes that threads share. -/
inductive RouterMutex
  /-- `lock_` of a NAPT table. -/
  | table (t : NaptTable)
  | ipMacMap
  | timer
deriving DecidableEq

abbrev MutexOp := LockOp RouterMutex

instance : Fintype RouterMutex where
  elems := {.table .externTable, .table .internTable, .ipMacMap, .timer}
  complete m := by
    cases m with
    | table t => cases t <;> decide
    | ipMacMap | timer => decide

/-- The intern table is locked first. -/
def mutexRank : RouterMutex → ℕ
  | .table .internTable => 0
  | .table .externTable | .ipMacMap | .timer => 1

/-! ## Paths through the functions -/

/-- The ways through `napt_out_handle`. -/
inductive OutPath
  /-- Neither TCP nor UDP. -/
  | notTransport
  /-- There is a mapping. -/
  | hit
  /-- So many ports are taken, and the next one is free. -/
  | fresh (taken : Nat)
  /-- Ten ports are taken. -/
  | exhausted
deriving DecidableEq

/-- The ways through `napt_inc_handle`. -/
inductive IncPath
  | notTransport
  | hit
  | miss
deriving DecidableEq

/-- `hashmap_contains` finds a port taken, so many times. -/
def takenOps : Nat → List (LockOp NaptTable)
  | 0 => []
  | taken + 1 => .access .externTable :: .unlock .externTable :: takenOps taken

def OutPath.ops : OutPath → List (LockOp NaptTable)
  | .notTransport => []
  | .hit => [.lock .internTable, .access .internTable, .unlock .internTable,
      .access .internTable, .unlock .internTable]
  | .fresh taken => [.lock .internTable, .access .internTable, .lock .externTable] ++
      takenOps taken ++ [.access .externTable, .access .externTable, .access .internTable,
        .unlock .externTable, .unlock .internTable]
  | .exhausted => [.lock .internTable, .access .internTable, .lock .externTable] ++ takenOps 10 ++
      [.unlock .externTable]

def IncPath.ops : IncPath → List (LockOp NaptTable)
  | .notTransport => []
  | .hit => [.lock .externTable, .access .externTable, .unlock .externTable,
      .access .externTable, .unlock .externTable]
  | .miss => [.lock .externTable, .access .externTable, .unlock .externTable]

/-! ## The functions take these paths -/

section Logs

variable {t : NaptTable} {h h' : Hashmap} {key value : List UInt8} {ops : List (LockOp NaptTable)}

theorem log_hashmapLockT (hx : hashmapLockT t h = some (ops, h')) : ops = [.lock t] := by
  obtain ⟨ops₁, h₁, ops₂, hlift, hrest₁, rfl⟩ := bind_eq_some.1 hx
  obtain ⟨rfl, -⟩ := lift_eq_some.1 hlift
  obtain ⟨ops₃, u, ops₄, hemit, hpure, rfl⟩ := bind_eq_some.1 hrest₁
  rw [emit_eq_some.1 hemit, (pure_eq_some.1 hpure).1]
  rfl

theorem log_hashmapUnlockT (hx : hashmapUnlockT t h = some (ops, h')) : ops = [.unlock t] := by
  obtain ⟨ops₁, u, ops₂, hemit, hpure, rfl⟩ := bind_eq_some.1 hx
  rw [emit_eq_some.1 hemit, (pure_eq_some.1 hpure).1]
  rfl

theorem log_hashmapGetT {ptr : Option Nat} (hx : hashmapGetT t h key = some (ops, (ptr, h'))) :
    ops = if ptr.isSome then [.access t, .unlock t] else [.access t] := by
  obtain ⟨ops₁, u, ops₂, hemit, hrest₁, rfl⟩ := bind_eq_some.1 hx
  obtain ⟨ops₃, found, ops₄, hlift, hrest₂, rfl⟩ := bind_eq_some.1 hrest₁
  rw [emit_eq_some.1 hemit, (lift_eq_some.1 hlift).1]
  cases found with
  | none =>
    obtain ⟨rfl, hptr⟩ := pure_eq_some.1 hrest₂
    obtain ⟨rfl, -⟩ := Prod.mk.inj hptr
    rfl
  | some found =>
    obtain ⟨ops₅, u, ops₆, hemit', hpure, rfl⟩ := bind_eq_some.1 hrest₂
    obtain ⟨rfl, hptr⟩ := pure_eq_some.1 hpure
    obtain ⟨rfl, -⟩ := Prod.mk.inj hptr
    rw [emit_eq_some.1 hemit']
    rfl

theorem log_hashmapContainsT {found : Bool}
    (hx : hashmapContainsT t h key = some (ops, (found, h'))) :
    ops = if found then [.access t, .unlock t] else [.access t] := by
  obtain ⟨ops₁, ⟨ptr, h₁⟩, ops₂, hget, hpure, rfl⟩ := bind_eq_some.1 hx
  obtain ⟨rfl, hfound⟩ := pure_eq_some.1 hpure
  obtain ⟨rfl, -⟩ := Prod.mk.inj hfound
  rw [log_hashmapGetT hget, List.append_nil]

theorem log_hashmapInsertT (hx : hashmapInsertT t h key value = some (ops, h')) :
    ops = [.access t] := by
  obtain ⟨ops₁, u, ops₂, hemit, hlift, rfl⟩ := bind_eq_some.1 hx
  rw [emit_eq_some.1 hemit, (lift_eq_some.1 hlift).1]
  rfl

end Logs

section Paths

variable {cfg : Config} {ops : List (LockOp NaptTable)}

theorem log_naptTryPortsT {ipSrc ipDst publicIp : IpAddr} {portSrc portDst : Port}
    {protocol : UInt8} {rand : Nat → Nat} {left : Nat} {napt napt' : Napt} {port : Option Port}
    (hx : naptTryPortsT ipSrc ipDst publicIp portSrc portDst protocol rand left napt =
      some (ops, (napt', port))) :
    port = none ∧ ops = takenOps left ∨
      ∃ taken < left, port.isSome ∧ ops = takenOps taken ++
        [.access .externTable, .access .externTable, .access .internTable] := by
  induction left generalizing napt ops with
  | zero =>
    obtain ⟨rfl, hport⟩ := pure_eq_some.1 hx
    exact Or.inl ⟨(Prod.mk.inj hport).2, rfl⟩
  | succ left ih =>
    obtain ⟨ops₁, ⟨found, externHashmap⟩, ops₂, hcontains, hrest₁, rfl⟩ := bind_eq_some.1 hx
    rw [log_hashmapContainsT hcontains]
    cases found with
    | true =>
      rcases ih hrest₁ with ⟨hport, rfl⟩ | ⟨taken, hlt, hport, rfl⟩
      · exact Or.inl ⟨hport, rfl⟩
      · exact Or.inr ⟨taken + 1, by omega, hport, rfl⟩
    | false =>
      obtain ⟨ops₃, extern', ops₄, hextern, hrest₂, rfl⟩ := bind_eq_some.1 hrest₁
      obtain ⟨ops₅, intern', ops₆, hintern, hpure, rfl⟩ := bind_eq_some.1 hrest₂
      obtain ⟨rfl, hport⟩ := pure_eq_some.1 hpure
      rw [log_hashmapInsertT hextern, log_hashmapInsertT hintern, (Prod.mk.inj hport).2]
      exact Or.inr ⟨0, by omega, rfl, rfl⟩

/-- **`napt_out_handle` takes one of its paths**, the last one if it finds no port. -/
theorem log_naptOutTranslateT {napt napt' : Napt} {pkt : Mem} {rand : Nat → Nat}
    {port : Option Port}
    (hx : naptOutTranslateT cfg napt pkt rand = some (ops, (napt', port))) :
    ∃ path : OutPath, ops = path.ops ∧
      (path = .exhausted ↔ port = none ∧ transportPorts pkt ≠ none) := by
  rw [naptOutTranslateT] at hx
  cases hports : transportPorts pkt with
  | none =>
    simp only [hports] at hx
    obtain ⟨rfl, -⟩ := pure_eq_some.1 hx
    exact ⟨.notTransport, rfl, by simp⟩
  | some ports =>
    obtain ⟨portSrc, portDst⟩ := ports
    simp only [hports] at hx
    obtain ⟨ops₁, internHashmap, ops₂, hlock, hrest₁, rfl⟩ := bind_eq_some.1 hx
    obtain ⟨ops₃, ⟨existing, internHashmap'⟩, ops₄, hget, hrest₂, rfl⟩ := bind_eq_some.1 hrest₁
    rw [log_hashmapLockT hlock, log_hashmapGetT hget]
    cases existing with
    | some ptr =>
      obtain ⟨ops₅, u, ops₆, hemit, hrest₃, rfl⟩ := bind_eq_some.1 hrest₂
      obtain ⟨ops₇, h₁, ops₈, hunlock, hpure, rfl⟩ := bind_eq_some.1 hrest₃
      obtain ⟨rfl, hport⟩ := pure_eq_some.1 hpure
      rw [emit_eq_some.1 hemit, log_hashmapUnlockT hunlock, (Prod.mk.inj hport).2]
      exact ⟨.hit, rfl, by simp⟩
    | none =>
      obtain ⟨ops₅, externHashmap, ops₆, hlock', hrest₃, rfl⟩ := bind_eq_some.1 hrest₂
      obtain ⟨ops₇, ⟨napt₁, port'⟩, ops₈, htry, hrest₄, rfl⟩ := bind_eq_some.1 hrest₃
      obtain ⟨ops₉, extern', ops₁₀, hunlock, hrest₅, rfl⟩ := bind_eq_some.1 hrest₄
      rw [log_hashmapLockT hlock', log_hashmapUnlockT hunlock]
      rcases log_naptTryPortsT htry with ⟨rfl, rfl⟩ | ⟨taken, -, hport, rfl⟩
      · obtain ⟨rfl, hport⟩ := pure_eq_some.1 hrest₅
        rw [(Prod.mk.inj hport).2]
        exact ⟨.exhausted, rfl, by simp⟩
      · obtain ⟨newPortSrc, rfl⟩ := Option.isSome_iff_exists.1 hport
        obtain ⟨ops₁₁, intern', ops₁₂, hunlock', hpure, rfl⟩ := bind_eq_some.1 hrest₅
        obtain ⟨rfl, hport'⟩ := pure_eq_some.1 hpure
        rw [log_hashmapUnlockT hunlock', (Prod.mk.inj hport').2]
        refine ⟨.fresh taken, ?_, by simp⟩
        simp [OutPath.ops]

theorem log_naptIncTranslateT {napt napt' : Napt} {pkt : Mem} {endpoint : Option (IpAddr × Port)}
    (hx : naptIncTranslateT napt pkt = some (ops, (napt', endpoint))) :
    ∃ path : IncPath, ops = path.ops := by
  rw [naptIncTranslateT] at hx
  cases hports : transportPorts pkt with
  | none =>
    simp only [hports] at hx
    obtain ⟨rfl, -⟩ := pure_eq_some.1 hx
    exact ⟨.notTransport, rfl⟩
  | some ports =>
    obtain ⟨portSrc, portDst⟩ := ports
    simp only [hports] at hx
    obtain ⟨ops₁, externHashmap, ops₂, hlock, hrest₁, rfl⟩ := bind_eq_some.1 hx
    obtain ⟨ops₃, ⟨entry, externHashmap'⟩, ops₄, hget, hrest₂, rfl⟩ := bind_eq_some.1 hrest₁
    rw [log_hashmapLockT hlock, log_hashmapGetT hget]
    cases entry with
    | none =>
      obtain ⟨ops₅, h₁, ops₆, hunlock, hpure, rfl⟩ := bind_eq_some.1 hrest₂
      rw [log_hashmapUnlockT hunlock, (pure_eq_some.1 hpure).1]
      exact ⟨.miss, rfl⟩
    | some ptr =>
      obtain ⟨ops₅, u, ops₆, hemit, hrest₃, rfl⟩ := bind_eq_some.1 hrest₂
      obtain ⟨ops₇, h₁, ops₈, hunlock, hpure, rfl⟩ := bind_eq_some.1 hrest₃
      rw [emit_eq_some.1 hemit, log_hashmapUnlockT hunlock, (pure_eq_some.1 hpure).1]
      exact ⟨.hit, rfl⟩

end Paths

/-! ## Calls -/

/-- What a critical section of `devices.c` or `timer.c` does to the mutexes. -/
def ThreadOp.locks {cfg : Config} : ThreadOp cfg → List MutexOp
  | .hasMac _ | .getMac _ | .updatePair _ => [.lock .ipMacMap, .access .ipMacMap, .unlock .ipMacMap]
  | .addPacket _ _ _ | .unlink _ | .timerHandler => [.lock .timer, .access .timer, .unlock .timer]
  | .copy _ | .write _ _ | .free _ _ => []

/-- What a thread does, one after the other. -/
inductive LockCall (cfg : Config)
  | outbound (path : OutPath)
  | inbound (path : IncPath)
  | sections (ops : List (ThreadOp cfg))

def lockStart (cfg : Config) : LockCall cfg → List MutexOp
  | .outbound path => path.ops.map (LockOp.map .table)
  | .inbound path => path.ops.map (LockOp.map .table)
  | .sections ops => ops.flatMap ThreadOp.locks

abbrev LockRun (cfg : Config) (τ : Type) [DecidableEq τ] (s : Pool τ (Held RouterMutex) MutexOp) :=
  Run (poolStep lockExec (lockStart cfg)) s

/-! ## Calls that keep the order -/

theorem ordered_takenOps (rank : NaptTable → ℕ) (taken : Nat) : Ordered rank (takenOps taken) := by
  induction taken with
  | zero => trivial
  | succ taken ih => exact ih

theorem releases_takenOps {rank : NaptTable → ℕ} {m : NaptTable} {ops : List (LockOp NaptTable)}
    (h : Releases rank m ops) (taken : Nat) : Releases rank m (takenOps taken ++ ops) := by
  induction taken with
  | zero => exact h
  | succ taken ih => exact Or.inr ih

/-- What is not ordered stays so, whatever is released first. -/
theorem not_releases_takenOps {rank : NaptTable → ℕ} {ops : List (LockOp NaptTable)}
    (h : ¬ Releases rank .internTable ops) (taken : Nat) :
    ¬ Releases rank .internTable (takenOps taken ++ ops) := by
  induction taken with
  | zero => exact h
  | succ taken ih =>
    intro hrel
    rcases hrel with heq | hrel
    · cases heq
    · exact ih hrel

/-- **The calls that do not run out of ports** release what they lock. -/
theorem ordered_outPath {path : OutPath} :
    Ordered (fun t => mutexRank (.table t)) path.ops ↔ path ≠ .exhausted := by
  cases path with
  | notTransport => simp [OutPath.ops, Ordered]
  | hit => simp [OutPath.ops, Ordered, Releases]
  | fresh taken =>
    refine iff_of_true ?_ (by simp)
    refine ⟨⟨by decide, releases_takenOps ?_ taken⟩, releases_takenOps ?_ taken,
      (ordered_takenOps _ taken).append ?_⟩
    · simp [Releases]
    · simp [Releases]
    · simp [Ordered]
  | exhausted =>
    refine iff_of_false (fun h => ?_) (by simp)
    have hrel : Releases (fun t => mutexRank (.table t)) .internTable
        (takenOps 10 ++ [.unlock .externTable]) := h.1.2
    refine not_releases_takenOps ?_ 10 hrel
    simp [Releases]

theorem ordered_incPath (path : IncPath) :
    Ordered (fun t => mutexRank (.table t)) path.ops := by
  cases path <;> simp [IncPath.ops, Ordered, Releases]

theorem ordered_locks {cfg : Config} (op : ThreadOp cfg) : Ordered mutexRank op.locks := by
  cases op <;> simp [ThreadOp.locks, Ordered, Releases]

theorem ordered_sections {cfg : Config} (ops : List (ThreadOp cfg)) :
    Ordered mutexRank (ops.flatMap ThreadOp.locks) := by
  induction ops with
  | nil => trivial
  | cons op rest ih =>
    rw [List.flatMap_cons]
    exact (ordered_locks op).append ih

theorem ordered_lockStart {cfg : Config} {c : LockCall cfg} (h : c ≠ .outbound .exhausted) :
    Ordered mutexRank (lockStart cfg c) := by
  cases c with
  | outbound path =>
    apply Ordered.map
    apply ordered_outPath.2
    rintro rfl
    exact h rfl
  | inbound path => exact (ordered_incPath path).map
  | sections ops => exact ordered_sections ops

/-- **No deadlock.** In every interleaving of calls none of which runs out of ports, some thread
can go on whenever one has something to do; and from every state all can finish what they have
begun, with every mutex free. -/
theorem threads_progress (cfg : Config) {τ : Type} [DecidableEq τ] [Fintype τ]
    {tr : List (PoolStep τ (Held RouterMutex) MutexOp (LockCall cfg))}
    {s : Pool τ (Held RouterMutex) MutexOp} (h : LockRun cfg τ (idle Held.free) tr s)
    (hports : ¬ Calls (.outbound .exhausted) tr) :
    (∀ t, s.threads t ≠ [] →
      ∃ u s', poolStep lockExec (lockStart cfg) s (.turn u) = some s') ∧
    ∃ tr', LockRun cfg τ s tr' (idle Held.free) ∧ ∀ u ∈ tr', ∃ t, u.input = .turn t := by
  have hsafe : Safe mutexRank s := by
    refine safe_idle.run h fun c hc => ordered_lockStart ?_
    rintro rfl
    exact hports hc
  exact ⟨fun _ ht => hsafe.exists_turn _ ht, hsafe.exists_finish _⟩

/-- A host with a mapping and one without send at the same time: the second waits for the
first. -/
theorem threads_progress_wait :
    ∃ tr t, LockRun shippedConfig Bool (idle Held.free) (tr ++ [t]) t.post ∧
      t.post.threads true ≠ [] ∧
      (poolStep lockExec (lockStart shippedConfig) t.post (.turn true)).isNone ∧
      ∃ u s', poolStep lockExec (lockStart shippedConfig) t.post (.turn u) = some s' := by
  obtain ⟨tr, t, hrun, hinputs, hlast⟩ := exists_run_snoc
    (poolStep lockExec (lockStart shippedConfig)) (idle Held.free : Pool Bool _ _)
    [.call false (.outbound .hit), .turn false] (.call true (.outbound (.fresh 1)))
    (fun _ t => decide (t.post.threads true ≠ [] ∧
      (poolStep lockExec (lockStart shippedConfig) t.post (.turn true)).isNone)) (by decide +kernel)
  obtain ⟨hbusy, hwait⟩ := of_decide_eq_true hlast
  refine ⟨tr, t, hrun, hbusy, hwait, (threads_progress shippedConfig hrun ?_).1 true hbusy⟩
  intro hcalls
  obtain ⟨u, hu, v, hcall⟩ := hcalls
  have hmem : u.input ∈ (tr ++ [t]).map (·.input) := List.mem_map_of_mem hu
  rw [hinputs, hcall] at hmem
  simp at hmem

/-! ## Out of ports -/

theorem begins_lockStart {cfg : Config} (c : LockCall cfg) :
    Begins (.table .internTable) (lockStart cfg c) := by
  cases c with
  | outbound path => cases path <;> simp [lockStart, OutPath.ops, LockOp.map, Begins]
  | inbound path => cases path <;> simp [lockStart, IncPath.ops, LockOp.map, Begins]
  | sections ops =>
    rw [lockStart]
    induction ops with
    | nil => trivial
    | cons op rest ih =>
      rw [List.flatMap_cons]
      apply Begins.append ?_ ih
      cases op <;> simp [ThreadOp.locks, Begins]

theorem lock_mem_outPath {path : OutPath} (h : path ≠ .notTransport) :
    LockOp.lock (RouterMutex.table .internTable) ∈ path.ops.map (LockOp.map .table) := by
  cases path with
  | notTransport => exact absurd rfl h
  | hit | fresh taken | exhausted => simp [OutPath.ops, LockOp.map]

theorem finishes_takenOps (held : Held RouterMutex) (taken : Nat) :
    Finishes lockExec held ((takenOps (taken + 1)).map (LockOp.map .table))
      (Function.update held (.table .externTable) false) := by
  induction taken generalizing held with
  | zero => exact .cons rfl (.single rfl)
  | succ taken ih =>
    have hrest := ih (Function.update held (.table .externTable) false)
    rw [Function.update_idem] at hrest
    exact .cons rfl (.cons rfl hrest)

/-- A call that runs out of ports, with nothing else going on, leaves the mutex of the intern
table locked. -/
theorem finishes_exhausted (cfg : Config) :
    Finishes lockExec Held.free (lockStart cfg (.outbound .exhausted))
      (Function.update Held.free (.table .internTable) true) := by
  let jammed : Held RouterMutex := Function.update Held.free (.table .internTable) true
  have hfirst : Finishes lockExec Held.free
      ([.lock (.table .internTable), .access (.table .internTable), .lock (.table .externTable)] :
        List MutexOp) (Function.update jammed (.table .externTable) true) :=
    .cons rfl (.cons rfl (.single rfl))
  have hlast : Finishes lockExec (Function.update jammed (.table .externTable) false)
      ([.unlock (.table .externTable)] : List MutexOp) jammed := by
    have hfree : Function.update (Function.update jammed (.table .externTable) false)
        (.table .externTable) false = jammed := by
      funext m
      cases m with
      | table t => cases t <;> rfl
      | ipMacMap | timer => rfl
    exact .single (by rw [lockExec, hfree])
  have htaken := finishes_takenOps (Function.update jammed (.table .externTable) true) 9
  rw [Function.update_idem] at htaken
  have hall := (hfirst.append htaken).append hlast
  simpa [lockStart, OutPath.ops, LockOp.map] using hall

/-- **That blocks for ever** every call from the LAN to the WAN, whatever the threads do. -/
theorem exhausted_blocks (cfg : Config) {τ : Type} [DecidableEq τ] {held : Held RouterMutex}
    (hheld : held (.table .internTable) = true)
    {tr : List (PoolStep τ (Held RouterMutex) MutexOp (LockCall cfg))}
    {s : Pool τ (Held RouterMutex) MutexOp} (h : LockRun cfg τ (idle held) tr s) :
    s.shared (.table .internTable) = true ∧
      ∀ u ∈ tr, ∀ t path, u.input = .call t (.outbound path) → path ≠ .notTransport →
        s.threads t ≠ [] := by
  have hjam : Jammed (.table .internTable) (idle held : Pool τ (Held RouterMutex) MutexOp) :=
    ⟨hheld, fun _ => trivial⟩
  obtain ⟨hjam', hkeep⟩ := hjam.run begins_lockStart h
  refine ⟨hjam'.held, fun u hu t path hcall hpath hnil => ?_⟩
  have hmem := hkeep u hu t _ hcall (lock_mem_outPath hpath)
  rw [hnil] at hmem
  cases hmem

/-- The second call is one that has a mapping. -/
theorem exhausted_blocks_hit :
    ∃ tr tr' t, LockRun shippedConfig Bool (idle Held.free) tr
        (idle (Function.update Held.free (.table .internTable) true)) ∧
      LockRun shippedConfig Bool (idle (Function.update Held.free (.table .internTable) true))
        (tr' ++ [t]) t.post ∧
      (tr' ++ [t]).map (·.input) = [.call true (.outbound .hit)] ∧
      t.post.shared (.table .internTable) = true ∧ t.post.threads true ≠ [] := by
  obtain ⟨tr, hrun⟩ := (finishes_exhausted shippedConfig).call false
  obtain ⟨tr', t, hrun', hinputs, -⟩ := exists_run_snoc
    (poolStep lockExec (lockStart shippedConfig))
    (idle (Function.update Held.free (.table .internTable) true) : Pool Bool _ _)
    [] (.call true (.outbound .hit)) (fun _ _ => true) (by decide +kernel)
  obtain ⟨hheld, hblocked⟩ := exhausted_blocks shippedConfig (Function.update_self ..) hrun'
  have hmem : .call true (.outbound .hit) ∈ (tr' ++ [t]).map (·.input) := by
    rw [hinputs]
    exact List.mem_cons_self
  obtain ⟨u, hu, hcall⟩ := List.mem_map.1 hmem
  exact ⟨tr, tr', t, hrun, hrun', hinputs, hheld, hblocked u hu true .hit hcall (by simp)⟩

end NaptRouter
