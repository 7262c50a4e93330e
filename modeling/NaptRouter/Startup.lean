import NaptRouter.Retries
import NaptRouter.Lib.ThreadPool

/-!
# `main.c`: from start to the first frame

`main` walks over the addresses of the system and fills in the interface table. `startup_eq` says
what the table is afterwards, for every list of addresses: each row has the MAC address of the last
device with its name, and the WAN settings are those of the last IPv4 address of a device whose
name begins with the name of the WAN interface. So the configurations that the other modules start
from are the ones that `main` makes (`startup_mainConfig`).

Then a thread for each row opens a socket, stores it in a bit field of five bits, and waits until
every row has one. No frame is read before all have, and if all get one, all threads come to read
(`boot_barrier`).
-/

namespace NaptRouter

open Runs ThreadPool

/-! ## The addresses of the system -/

/-- `ifa_addr`, as far as `main` looks at it. -/
inductive SockAddr
  /-- `AF_INET`, with `ifa_netmask`, and what `main` finds if `prefix_len_get` returns nothing. -/
  | inet (ip mask : IpAddr) (stale : Nat)
  /-- `AF_PACKET`. -/
  | packet (mac : MacAddr)
  /-- Another family, or no address. -/
  | other
deriving DecidableEq

/-- `struct ifaddrs`. -/
structure IfAddr where
  ifaName : List UInt8
  ifaAddr : SockAddr
deriving DecidableEq

/-- `config->device_mac_addr = mac`. -/
def Config.setMac (cfg : Config) (i : cfg.IntId) (mac : MacAddr) : Config :=
  { cfg with
    interfaceArr := Function.update cfg.interfaceArr i
      { cfg.interfaceArr i with deviceMacAddr := mac } }

/-- The first row with this name. -/
def firstRow (names : Nat → List UInt8) (amt : Nat) (ifaName : List UInt8) : Option (Fin amt) :=
  (List.finRange amt).find? fun i => ifaName == names i

/-- One round of the loop in `main`. `names` are the names in the interface table. `strncmp` with
the length of the name of the WAN interface looks for a name that begins with it. -/
def readAddr (names : Nat → List UInt8) (cfg : Config) (tmp : IfAddr) : Config :=
  match tmp.ifaAddr with
  | .inet ip mask stale =>
      if (names cfg.interfaceGetWanId).isPrefixOf tmp.ifaName then cfg.setWan ip mask stale else cfg
  | .packet mac =>
      match firstRow names cfg.amt tmp.ifaName with
      | some i => cfg.setMac i mac
      | none => cfg
  | .other => cfg

def startup (names : Nat → List UInt8) (cfg : Config) (addrs : List IfAddr) : Config :=
  addrs.foldl (readAddr names) cfg

/-! ## What is left of them -/

section Startup

variable (names : Nat → List UInt8) (cfg : Config)

/-- The WAN settings of an address. The WAN interface is row 1. -/
def IfAddr.wan (tmp : IfAddr) : Option (IpAddr × IpAddr × Nat) :=
  match tmp.ifaAddr with
  | .inet ip mask stale =>
      if (names 1).isPrefixOf tmp.ifaName then some (ip, mask, stale) else none
  | .packet _ | .other => none

/-- The MAC address that it has for a row. -/
def IfAddr.mac {amt : Nat} (i : Fin amt) (tmp : IfAddr) : Option MacAddr :=
  match tmp.ifaAddr with
  | .packet mac => if firstRow names amt tmp.ifaName = some i then some mac else none
  | .inet _ _ _ | .other => none

/-- The MAC addresses of the rows after these addresses. -/
def lastMacs (addrs : List IfAddr) (i : cfg.IntId) : MacAddr :=
  (addrs.filterMap (IfAddr.mac names i)).getLast?.getD (cfg.interfaceArr i).deviceMacAddr

/-- The table with the WAN settings, if there are any. -/
def Config.withWan (cfg : Config) : Option (IpAddr × IpAddr × Nat) → Config
  | none => cfg
  | some (ip, mask, stale) => cfg.setWan ip mask stale

variable {names cfg}

section Rows

variable {amt : Nat} (rows : Fin amt → InterfaceConfig)

theorem interfaceIp_twice (w : Fin amt) (ip ip' : IpAddr) :
    let once := Function.update rows w { rows w with interfaceIp := ip }
    Function.update once w { once w with interfaceIp := ip' } =
      Function.update rows w { rows w with interfaceIp := ip' } := by
  intro once
  simp only [once, Function.update_self, Function.update_idem]

theorem deviceMacAddr_row (macs : Fin amt → MacAddr) (i : Fin amt) (mac : MacAddr) :
    let all : Fin amt → InterfaceConfig := fun k => { rows k with deviceMacAddr := macs k }
    Function.update all i { all i with deviceMacAddr := mac } =
      fun k => { rows k with deviceMacAddr := Function.update macs i mac k } := by
  intro all
  funext k
  by_cases hk : k = i
  · rw [hk, Function.update_self, Function.update_self]
  · rw [Function.update_of_ne hk, Function.update_of_ne hk]

theorem deviceMacAddr_interfaceIp (i w : Fin amt) (mac : MacAddr) (ip : IpAddr) :
    let addressed := Function.update rows w { rows w with interfaceIp := ip }
    let named := Function.update rows i { rows i with deviceMacAddr := mac }
    Function.update addressed i { addressed i with deviceMacAddr := mac } =
      Function.update named w { named w with interfaceIp := ip } := by
  intro addressed named
  by_cases hiw : i = w
  · subst hiw
    simp only [addressed, named, Function.update_self, Function.update_idem]
  · simp only [addressed, named, Function.update_of_ne hiw, Function.update_of_ne (Ne.symm hiw)]
    exact Function.update_comm (Ne.symm hiw) ..

end Rows

theorem setWan_withWan (w : Option (IpAddr × IpAddr × Nat)) (ip mask : IpAddr) (stale : Nat) :
    (cfg.withWan w).setWan ip mask stale = cfg.setWan ip mask stale := by
  cases w with
  | none => rfl
  | some w =>
    exact congrArg (fun interfaceArr => { cfg.setWan ip mask stale with interfaceArr })
      (interfaceIp_twice cfg.interfaceArr cfg.interfaceGetWanId w.1 ip)

theorem setMac_setMacs (macs : cfg.IntId → MacAddr) (i : cfg.IntId) (mac : MacAddr) :
    (cfg.setMacs macs).setMac i mac = cfg.setMacs (Function.update macs i mac) :=
  congrArg (fun interfaceArr => { cfg with interfaceArr })
    (deviceMacAddr_row cfg.interfaceArr macs i mac)

theorem setMac_setWan (cfg : Config) (i : cfg.IntId) (mac : MacAddr) (ip mask : IpAddr)
    (stale : Nat) :
    (cfg.setWan ip mask stale).setMac i mac = (cfg.setMac i mac).setWan ip mask stale :=
  congrArg (fun interfaceArr => { cfg.setWan ip mask stale with interfaceArr })
    (deviceMacAddr_interfaceIp cfg.interfaceArr i cfg.interfaceGetWanId mac ip)

theorem readAddr_packet (cfg : Config) {ifaName : List UInt8} (mac : MacAddr) {k : cfg.IntId}
    (h : firstRow names cfg.amt ifaName = some k) :
    readAddr names cfg ⟨ifaName, .packet mac⟩ = cfg.setMac k mac := by
  simp only [readAddr, h]

theorem readAddr_packet_none {cfg : Config} {ifaName : List UInt8} {mac : MacAddr}
    (h : firstRow names cfg.amt ifaName = none) :
    readAddr names cfg ⟨ifaName, .packet mac⟩ = cfg := by
  simp only [readAddr, h]

/-- **One address** sets the MAC address of its row, or the WAN settings, or nothing. -/
theorem readAddr_eq (macs : cfg.IntId → MacAddr) (w : Option (IpAddr × IpAddr × Nat))
    (tmp : IfAddr) :
    readAddr names ((cfg.setMacs macs).withWan w) tmp =
      (cfg.setMacs fun i => (tmp.mac names i).getD (macs i)).withWan ((tmp.wan names).or w) := by
  obtain ⟨ifaName, ifaAddr⟩ := tmp
  cases ifaAddr with
  | inet ip mask stale =>
    have hrow : names ((cfg.setMacs macs).withWan w).interfaceGetWanId = names 1 := by
      cases w <;> rfl
    simp only [readAddr, hrow, IfAddr.mac, IfAddr.wan, Option.getD_none]
    split_ifs
    · rw [setWan_withWan]
      rfl
    · rfl
  | packet mac =>
    cases hrow : firstRow names cfg.amt ifaName with
    | none =>
      have hmacs : (fun i => (IfAddr.mac names i ⟨ifaName, .packet mac⟩).getD (macs i)) = macs := by
        funext i
        simp [IfAddr.mac, hrow]
      rw [hmacs]
      cases w <;> exact readAddr_packet_none hrow
    | some k =>
      have hmacs : (fun i => (IfAddr.mac names i ⟨ifaName, .packet mac⟩).getD (macs i)) =
          Function.update macs k mac := by
        funext i
        by_cases hi : i = k
        · simp [IfAddr.mac, hrow, hi]
        · simp [IfAddr.mac, hrow, hi, Ne.symm hi]
      rw [hmacs]
      -- An earlier entry may have set the addresses of the WAN.
      cases w with
      | none =>
        exact (readAddr_packet (cfg.setMacs macs) mac hrow).trans (setMac_setMacs macs k mac)
      | some w =>
        have hread := readAddr_packet ((cfg.setMacs macs).setWan w.1 w.2.1 w.2.2) mac hrow
        have hwan : ((cfg.setMacs macs).setWan w.1 w.2.1 w.2.2).setMac k mac =
            ((cfg.setMacs macs).setMac k mac).setWan w.1 w.2.1 w.2.2 :=
          setMac_setWan (cfg.setMacs macs) k mac w.1 w.2.1 w.2.2
        rw [setMac_setMacs] at hwan
        exact hread.trans hwan
  | other => rfl

/-- **What `main` makes of the addresses of the system.** -/
theorem startup_eq (addrs : List IfAddr) :
    startup names cfg addrs = (cfg.setMacs (lastMacs names cfg addrs)).withWan
      (addrs.filterMap (IfAddr.wan names)).getLast? := by
  induction addrs using List.reverseRecOn with
  | nil => rfl
  | append_singleton addrs tmp ih =>
    have hmacs : lastMacs names cfg (addrs ++ [tmp]) =
        fun i => (tmp.mac names i).getD (lastMacs names cfg addrs i) := by
      funext i
      rw [lastMacs, lastMacs, List.filterMap_append]
      cases h : tmp.mac names i <;> simp [h]
    have hwan : ((addrs ++ [tmp]).filterMap (IfAddr.wan names)).getLast? =
        (tmp.wan names).or (addrs.filterMap (IfAddr.wan names)).getLast? := by
      rw [List.filterMap_append]
      cases h : tmp.wan names <;> simp [h]
    rw [startup, List.foldl_append, List.foldl_cons, List.foldl_nil, hmacs, hwan, ← readAddr_eq,
      ← ih, startup]

/-- With the shipped table, `main` makes a configuration of `Retries.lean`, if the WAN interface
has an address. -/
theorem startup_mainConfig {addrs : List IfAddr} {ip mask : IpAddr} {stale : Nat}
    (h : (addrs.filterMap (IfAddr.wan names)).getLast? = some (ip, mask, stale)) :
    startup names shippedConfig addrs =
      mainConfig (lastMacs names shippedConfig addrs) ip mask stale := by
  rw [startup_eq, h]
  rfl

/-- A device whose name only begins with the name of the WAN interface sets the WAN, too. -/
example : (startup (fun row => [UInt8.ofNat (97 + row)]) shippedConfig
    [⟨[98], .inet ⟨10, 0, 0, 2⟩ ⟨255, 0, 0, 0⟩ 0⟩,
      ⟨[98, 99], .inet ⟨172, 16, 0, 2⟩ ⟨255, 255, 0, 0⟩ 0⟩]).wanNetworkIp = ⟨172, 16, 0, 0⟩ := by
  decide

end Startup

/-! ## The threads -/

section Barrier

variable {amt : Nat}

/-- What a thread of `thread_start` does. -/
inductive BootOp (amt : Nat)
  /-- `socket` and `bind`, with the descriptor, or none if one of them fails. -/
  | setup (i : Fin amt) (sockfd : Option Nat)
  /-- The loop around `sched_yield`. -/
  | awaitFd (k : Fin amt)
  /-- One round of the loop that reads frames. -/
  | serve
deriving DecidableEq

/-- `fds` are the bit fields, which keep a descriptor modulo 32. A thread without a socket
returns. -/
def bootExec (fds : Fin amt → Nat) : BootOp amt → Option ((Fin amt → Nat) × List (BootOp amt))
  | .setup _ none => some (fds, [])
  | .setup i (some sockfd) =>
      some (Function.update fds i (sockfd % 32), (List.finRange amt).map .awaitFd ++ [.serve])
  | .awaitFd k => if fds k = 0 then none else some (fds, [])
  | .serve => some (fds, [.serve])

/-- Each row has its thread, and none of them has begun. -/
def boot (sockets : Fin amt → Option Nat) : Pool (Fin amt) (Fin amt → Nat) (BootOp amt) :=
  ⟨fun _ => 0, fun i => [.setup i (sockets i)]⟩

/-- Nobody calls `thread_start` again. -/
abbrev BootRun (sockets : Fin amt → Option Nat) :=
  Run (poolStep bootExec fun c : Empty => c.elim) (boot sockets)

/-- The row has a socket, and its bit field shows it. -/
def HasSocket (sockets : Fin amt → Option Nat) (k : Fin amt) : Prop :=
  ∃ sockfd, sockets k = some sockfd ∧ sockfd % 32 ≠ 0

/-- How far a thread is. -/
inductive BootPhase (sockets : Fin amt → Option Nat) (fds : Fin amt → Nat) (i : Fin amt) :
    List (BootOp amt) → Prop
  | begins (hfd : fds i = 0) : BootPhase sockets fds i [.setup i (sockets i)]
  | returned (hfd : fds i = 0) (hsocket : sockets i = none) : BootPhase sockets fds i []
  | waits {sockfd : Nat} {todo : List (Fin amt)} (hsocket : sockets i = some sockfd)
      (hfd : fds i = sockfd % 32) (hdone : ∀ k ∉ todo, fds k ≠ 0) :
      BootPhase sockets fds i (todo.map .awaitFd ++ [.serve])

variable {sockets : Fin amt → Option Nat} {fds : Fin amt → Nat}

theorem BootPhase.update {i j : Fin amt} {ops : List (BootOp amt)}
    (h : BootPhase sockets fds j ops) (hij : j ≠ i) (hi : fds i = 0) (fd : Nat) :
    BootPhase sockets (Function.update fds i fd) j ops := by
  cases h with
  | begins hfd => exact .begins (by rwa [Function.update_of_ne hij])
  | returned hfd hsocket => exact .returned (by rwa [Function.update_of_ne hij]) hsocket
  | waits hsocket hfd hdone =>
    refine .waits hsocket (by rwa [Function.update_of_ne hij]) fun k hk => ?_
    have hki : k ≠ i := by
      rintro rfl
      exact hdone k hk hi
    rw [Function.update_of_ne hki]
    exact hdone k hk

/-- What a thread does with the descriptors, and how far it is then. -/
theorem BootPhase.turn {i : Fin amt} {op : BootOp amt} {rest more : List (BootOp amt)}
    {fds' : Fin amt → Nat} (h : BootPhase sockets fds i (op :: rest))
    (hexec : bootExec fds op = some (fds', more)) :
    (fds' = fds ∨ fds i = 0 ∧ ∃ fd, fds' = Function.update fds i fd) ∧
      BootPhase sockets fds' i (more ++ rest) := by
  generalize hops : op :: rest = ops at h
  cases h with
  | begins hfd =>
    obtain ⟨rfl, rfl⟩ := List.cons.inj hops
    cases hsocket : sockets i with
    | none =>
      rw [hsocket] at hexec
      obtain ⟨rfl, rfl⟩ := Prod.mk.inj (Option.some.inj hexec)
      exact ⟨Or.inl rfl, .returned hfd hsocket⟩
    | some sockfd =>
      rw [hsocket] at hexec
      obtain ⟨rfl, rfl⟩ := Prod.mk.inj (Option.some.inj hexec)
      rw [List.append_nil]
      exact ⟨Or.inr ⟨hfd, _, rfl⟩, .waits hsocket (Function.update_self ..)
        fun k hk => absurd (List.mem_finRange k) hk⟩
  | returned hfd hsocket => cases hops
  | @waits sockfd todo hsocket hfd hdone =>
    cases todo with
    | nil =>
      obtain ⟨rfl, rfl⟩ := List.cons.inj hops
      obtain ⟨rfl, rfl⟩ := Prod.mk.inj (Option.some.inj hexec)
      exact ⟨Or.inl rfl, .waits hsocket hfd hdone⟩
    | cons k todo =>
      obtain ⟨rfl, rfl⟩ := List.cons.inj hops
      rw [bootExec] at hexec
      split_ifs at hexec with hk
      obtain ⟨rfl, rfl⟩ := Prod.mk.inj (Option.some.inj hexec)
      refine ⟨Or.inl rfl, .waits hsocket hfd fun k' hk' => ?_⟩
      by_cases hkk : k' = k
      · rwa [hkk]
      · exact hdone k' (List.not_mem_cons_of_ne_of_not_mem hkk hk')

theorem bootPhase_run {tr : List (PoolStep (Fin amt) (Fin amt → Nat) (BootOp amt) Empty)}
    {s : Pool (Fin amt) (Fin amt → Nat) (BootOp amt)} (h : BootRun sockets tr s) (i : Fin amt) :
    BootPhase sockets s.shared i (s.threads i) := by
  refine h.invariant (I := fun s => ∀ i, BootPhase sockets s.shared i (s.threads i))
    (fun i => .begins rfl) ?_ i
  intro s inp s' hs hstep j
  cases inp with
  | call t c => exact c.elim
  | turn i =>
    obtain ⟨op, rest, fds, more, hops, hexec, rfl⟩ := poolStep_turn.1 hstep
    obtain ⟨hfds, hphase⟩ := (hops ▸ hs i : BootPhase sockets s.shared i (op :: rest)).turn hexec
    show BootPhase sockets fds j (Function.update s.threads i (more ++ rest) j)
    by_cases hj : j = i
    · rwa [hj, Function.update_self]
    · rw [Function.update_of_ne hj]
      obtain rfl | ⟨hfd, fd, rfl⟩ := hfds
      · exact hs j
      · exact (hs j).update hj hfd fd

theorem BootPhase.shown {i : Fin amt} {ops : List (BootOp amt)} (h : BootPhase sockets fds i ops)
    (hsocket : HasSocket sockets i) :
    ops = [.setup i (sockets i)] ∨ fds i ≠ 0 ∧
      ∃ todo : List (Fin amt), ops = todo.map .awaitFd ++ [.serve] := by
  obtain ⟨sockfd, hsome, hne⟩ := hsocket
  cases h with
  | begins => exact Or.inl rfl
  | returned _ hnone => cases hsome.symm.trans hnone
  | waits hsome' hfd =>
    obtain rfl := Option.some.inj (hsome.symm.trans hsome')
    exact Or.inr ⟨by rwa [hfd], _, rfl⟩

/-- How much a thread has still to do before it reads. -/
def BootOp.weight : BootOp amt → Nat
  | .setup _ _ => amt + 1
  | .awaitFd _ => 1
  | .serve => 0

theorem inHand_turn {s : Pool (Fin amt) (Fin amt → Nat) (BootOp amt)} {i : Fin amt}
    {op : BootOp amt} {rest more : List (BootOp amt)} (hops : s.threads i = op :: rest)
    (hlt : (more.map BootOp.weight).sum < op.weight) (fds : Fin amt → Nat) :
    inHand BootOp.weight ⟨fds, Function.update s.threads i (more ++ rest)⟩ <
      inHand BootOp.weight s := by
  have hupdate := inHand_update BootOp.weight s fds i (more ++ rest)
  rw [hops, List.map_cons, List.sum_cons, List.map_append, List.sum_append] at hupdate
  omega

/-- As long as a thread does not read, some thread comes closer to it. -/
theorem exists_boot_turn {s : Pool (Fin amt) (Fin amt → Nat) (BootOp amt)}
    (hs : ∀ i, BootPhase sockets s.shared i (s.threads i)) (hsockets : ∀ k, HasSocket sockets k)
    {i : Fin amt} (hi : s.threads i ≠ [.serve]) :
    ∃ t s', poolStep bootExec (fun c : Empty => c.elim) s (.turn t) = some s' ∧
      inHand BootOp.weight s' < inHand BootOp.weight s := by
  by_cases hbegins : ∃ j, s.threads j = [.setup j (sockets j)]
  · obtain ⟨j, hj⟩ := hbegins
    obtain ⟨sockfd, hsocket, -⟩ := hsockets j
    rw [hsocket] at hj
    refine ⟨j, _, poolStep_turn.2 ⟨_, _, _, _, hj, rfl, rfl⟩, inHand_turn hj ?_ _⟩
    rw [List.map_append, List.map_map, List.sum_append]
    simp [Function.comp_def, BootOp.weight]
  · have hshown : ∀ k, s.shared k ≠ 0 ∧
        ∃ todo : List (Fin amt), s.threads k = todo.map .awaitFd ++ [.serve] := fun k =>
      ((hs k).shown (hsockets k)).resolve_left fun hk => hbegins ⟨k, hk⟩
    obtain ⟨todo, htodo⟩ := (hshown i).2
    cases todo with
    | nil => exact absurd htodo hi
    | cons k todo =>
      have hexec : bootExec s.shared (.awaitFd k) = some (s.shared, []) := if_neg (hshown k).1
      exact ⟨i, _, poolStep_turn.2 ⟨_, _, _, _, htodo, hexec, rfl⟩,
        inHand_turn htodo (by simp [BootOp.weight]) _⟩

theorem exists_all_serve (hsockets : ∀ k, HasSocket sockets k)
    {tr : List (PoolStep (Fin amt) (Fin amt → Nat) (BootOp amt) Empty)}
    {s : Pool (Fin amt) (Fin amt → Nat) (BootOp amt)} (h : BootRun sockets tr s) :
    ∃ tr' s', Run (poolStep bootExec fun c : Empty => c.elim) s tr' s' ∧
      ∀ i, s'.threads i = [.serve] := by
  by_cases hall : ∀ i, s.threads i = [.serve]
  · exact ⟨[], s, .nil, hall⟩
  · obtain ⟨i, hi⟩ := not_forall.1 hall
    obtain ⟨t, s₁, hstep, hlt⟩ := exists_boot_turn (bootPhase_run h) hsockets hi
    obtain ⟨tr', s', hrun, hserve⟩ := exists_all_serve hsockets (h.snoc hstep)
    exact ⟨_, s', (Run.nil.snoc hstep).append hrun, hserve⟩
  termination_by inHand BootOp.weight s

/-- **The barrier**, whatever the threads do first. When one reads frames, every row has a socket,
and the bit fields hold the descriptors modulo 32; and if every row gets a descriptor that is not a
multiple of 32, all threads come to read. -/
theorem boot_barrier (sockets : Fin amt → Option Nat)
    {tr : List (PoolStep (Fin amt) (Fin amt → Nat) (BootOp amt) Empty)}
    {s : Pool (Fin amt) (Fin amt → Nat) (BootOp amt)} (h : BootRun sockets tr s) :
    ((∃ i, s.threads i = [.serve]) → ∀ k, HasSocket sockets k ∧
      s.shared k = ((sockets k).getD 0) % 32) ∧
    ((∀ k, HasSocket sockets k) →
      ∃ tr' s', Run (poolStep bootExec fun c : Empty => c.elim) s tr' s' ∧
        ∀ i, s'.threads i = [.serve]) := by
  refine ⟨fun hserve k => ?_, fun hsockets => exists_all_serve hsockets h⟩
  obtain ⟨i, hi⟩ := hserve
  have hphase := bootPhase_run h
  have hshown : s.shared k ≠ 0 := by
    have hiphase := hphase i
    generalize hl : s.threads i = l at hiphase
    rw [hl] at hi
    cases hiphase with
    | begins hfd => cases hi
    | returned hfd hsocket => cases hi
    | @waits sockfd todo hsocket hfd hdone =>
      cases todo with
      | nil => exact hdone k List.not_mem_nil
      | cons k' todo => cases hi
  have hkphase := hphase k
  generalize s.threads k = l at hkphase
  cases hkphase with
  | begins hfd => exact absurd hfd hshown
  | returned hfd hsocket => exact absurd hfd hshown
  | waits hsocket hfd hdone =>
    rw [hsocket]
    exact ⟨⟨_, hsocket, by rwa [← hfd]⟩, hfd⟩

/-- The second thread gets descriptor 36. The first one begins to read, and will send to descriptor
4 what is for the second interface. -/
theorem boot_barrier_two :
    ∃ tr t, BootRun ![some 3, some 36] (tr ++ [t]) t.post ∧ t.post.threads 0 = [.serve] ∧
      t.post.threads 1 ≠ [.serve] ∧ HasSocket ![some 3, some 36] 1 ∧ t.post.shared 1 = 4 := by
  obtain ⟨tr, t, hrun, -, hlast⟩ := exists_run_snoc
    (poolStep bootExec fun c : Empty => c.elim) (boot ![some 3, some 36])
    [.turn 0, .turn 1, .turn 0] (.turn 0)
    (fun _ t => decide (t.post.threads 0 = [.serve] ∧ t.post.threads 1 ≠ [.serve]))
    (by decide +kernel)
  obtain ⟨hserve, hnot⟩ := of_decide_eq_true hlast
  obtain ⟨hsocket, hfd⟩ := (boot_barrier ![some 3, some 36] hrun).1 ⟨0, hserve⟩ 1
  exact ⟨tr, t, hrun, hserve, hnot, hsocket, hfd⟩

end Barrier

end NaptRouter
