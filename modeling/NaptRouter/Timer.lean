import NaptRouter.Router

/-!
# `timer.c`: queueing and expiry

Packets whose next hop has no MAC address yet wait in the delta list, one node a next hop.
`timer_add_packet` appends to the node or opens one; `timer_handler` pops the nodes whose time
has come, asks again for the first time and gives up the second. `timer_update_packets` needs
`send_ipv4` and is in `Outgoing`.

Counters are natural numbers: the deltas of a reachable list sum to at most 1000.
-/

namespace NaptRouter

open ByteMemory

/-- The sum of the deltas, as the loops over the list compute it. -/
def totalTime (nodes : List DeltaNode) : Nat := (nodes.map (·.msec)).sum

/-- `1000 - total_time`, with `total_time` cut at 1000. -/
def nextDelta (nodes : List DeltaNode) : Nat :=
  1000 - if totalTime nodes > 1000 then 1000 else totalTime nodes

/-- The first loop of `timer_add_packet`: append to the node of `dst` if there is one. -/
def appendToNode (q : QueuedPkt) (dst : IpAddr) : List DeltaNode → Option (List DeltaNode)
  | [] => none
  | node :: rest =>
      if ipAddrEquals node.ipAddr dst then
        some ({ node with pktList := node.pktList ++ [q] } :: rest)
      else (appendToNode q dst rest).map (node :: ·)

def timerAddPacket (cfg : Config) (r : Router) (q : QueuedPkt) (intId : cfg.IntId)
    (dst : IpAddr) : Router :=
  match appendToNode q dst r.deltaList with
  | some deltaList => { r with deltaList }.emit (.queued q dst)
  | none =>
      let r := sendArp cfg r (arpRequest cfg intId dst) intId
      let newNode : DeltaNode :=
        { msec := nextDelta r.deltaList, ipAddr := dst, pktList := [q], retryAmt := 0 }
      -- One second on the timer if the list was empty; otherwise it is running already.
      let r := match r.deltaList with
        | [] => { r with deltaList := [newNode] }.timerSettime 1 0
        | deltaList => { r with deltaList := deltaList ++ [newNode] }
      r.emit (.queued q dst)

/-- The loop that frees the packets of a node that gets no answer. -/
def discardPkts (nextHop : IpAddr) : List QueuedPkt → Router → Router
  | [], r => r
  | q :: rest, r => discardPkts nextHop rest (r.emit (.discarded q nextHop))

/-- One round of the loop of `timer_handler`, on a node just popped. -/
def expireNode (cfg : Config) (r : Router) (node : DeltaNode) : Router :=
  if node.retryAmt ≥ 1 then discardPkts node.ipAddr node.pktList r
  else
    let intId := cfg.getInterfaceForIp node.ipAddr
    let r := sendArp cfg r (arpRequest cfg intId node.ipAddr) intId
    { r with deltaList := r.deltaList ++
      [{ node with retryAmt := node.retryAmt + 1, msec := nextDelta r.deltaList }] }

/-- The `while` loop of `timer_handler`, with a bound on its rounds. -/
def expireLoop (cfg : Config) : Nat → Router → Router
  | 0, r => r
  | fuel + 1, r =>
      match r.deltaList with
      | [] => r
      | node :: rest =>
          if node.msec = 0 then
            expireLoop cfg fuel (expireNode cfg { r with deltaList := rest } node)
          else r

/-- `timer_handler`. As many rounds as there are nodes are enough (`expireLoop_stops`). -/
def timerHandler (cfg : Config) (r : Router) : Router :=
  match r.deltaList with
  | [] => r
  | node :: rest =>
      let r := { r with deltaList := { node with msec := 0 } :: rest }
      let r := expireLoop cfg r.deltaList.length r
      match r.deltaList with
      | [] => r.timerSettime 0 0
      | node :: _ =>
          let total := node.msec * 1000000
          r.timerSettime (total / 1000000000) (total % 1000000000)

/-! ## The list -/

@[simp] theorem sendArp_deltaList (cfg : Config) (r : Router) (pkt : ArpHdr)
    (intId : cfg.IntId) : (sendArp cfg r pkt intId).deltaList = r.deltaList := by
  unfold sendArp
  split <;> rfl

@[simp] theorem discardPkts_deltaList (nextHop : IpAddr) (pkts : List QueuedPkt) (r : Router) :
    (discardPkts nextHop pkts r).deltaList = r.deltaList := by
  induction pkts generalizing r with
  | nil => rfl
  | cons q rest ih => rw [discardPkts, ih, Router.emit_deltaList]

theorem expireNode_deltaList (cfg : Config) (r : Router) (node : DeltaNode) :
    (expireNode cfg r node).deltaList =
      if node.retryAmt ≥ 1 then r.deltaList
      else r.deltaList ++
        [{ node with retryAmt := node.retryAmt + 1, msec := nextDelta r.deltaList }] := by
  unfold expireNode
  split_ifs
  · exact discardPkts_deltaList _ _ _
  · simp

/-! ## What expiry leaves alone -/

theorem sendArp_frame (cfg : Config) (r : Router) (pkt : ArpHdr) (intId : cfg.IntId) :
    ∃ log, sendArp cfg r pkt intId = { r with log } := by
  unfold sendArp
  cases cfg.interfaceGetType intId with
  | ether => exact ⟨_, rfl⟩
  | wifi | unknown => exact ⟨r.log, rfl⟩

theorem discardPkts_frame (nextHop : IpAddr) (pkts : List QueuedPkt) (r : Router) :
    ∃ log, discardPkts nextHop pkts r = { r with log } := by
  induction pkts generalizing r with
  | nil => exact ⟨r.log, rfl⟩
  | cons q rest ih =>
    obtain ⟨log, hrest⟩ := ih (r.emit (.discarded q nextHop))
    exact ⟨log, hrest⟩

/-- Expiry works on the list and the log. -/
theorem expireNode_frame (cfg : Config) (r : Router) (node : DeltaNode) :
    ∃ deltaList log, expireNode cfg r node = { r with deltaList, log } := by
  unfold expireNode
  split_ifs
  · obtain ⟨log, hlog⟩ := discardPkts_frame node.ipAddr node.pktList r
    exact ⟨r.deltaList, log, hlog⟩
  · obtain ⟨log, hlog⟩ := sendArp_frame cfg r
      (arpRequest cfg (cfg.getInterfaceForIp node.ipAddr) node.ipAddr)
      (cfg.getInterfaceForIp node.ipAddr)
    simp only [hlog]
    exact ⟨_, log, rfl⟩

/-- What expiry of the head keeps, the loop keeps. -/
theorem expireLoop_keeps {cfg : Config} {P : Router → Prop}
    (hnode : ∀ r node rest, r.deltaList = node :: rest → P r →
      P (expireNode cfg { r with deltaList := rest } node)) (fuel : Nat) {r : Router} (h : P r) :
    P (expireLoop cfg fuel r) := by
  induction fuel generalizing r with
  | zero => exact h
  | succ fuel ih =>
    rw [expireLoop]
    split
    · exact h
    · rename_i node rest hlist
      split_ifs
      · exact ih (hnode r node rest hlist h)
      · exact h

theorem expireLoop_frame (cfg : Config) (fuel : Nat) (r : Router) :
    ∃ deltaList log, expireLoop cfg fuel r = { r with deltaList, log } := by
  refine expireLoop_keeps (P := fun s => ∃ deltaList log, s = { r with deltaList, log })
    (fun s node rest _ hs => ?_) fuel ⟨r.deltaList, r.log, rfl⟩
  obtain ⟨-, -, rfl⟩ := hs
  obtain ⟨deltaList, log, hnode⟩ := expireNode_frame cfg { r with deltaList := rest, log := _ } node
  exact ⟨deltaList, log, hnode⟩

/-! ## The loop stops -/

/-- The loop of `timer_handler` has nothing left to do. -/
def Idle (nodes : List DeltaNode) : Prop := ∀ node ∈ nodes.head?, node.msec ≠ 0

theorem totalTime_eq_zero {nodes : List DeltaNode} (h : ∀ node ∈ nodes, node.msec = 0) :
    totalTime nodes = 0 := by
  induction nodes with
  | nil => rfl
  | cons node rest ih =>
    have hrest := ih fun n hn => h n (List.mem_cons_of_mem _ hn)
    rw [totalTime] at hrest ⊢
    rw [List.map_cons, List.sum_cons, hrest, h node List.mem_cons_self]

/-- A node goes to the back with a positive delta once the nodes that were there are gone. -/
theorem expireNode_again (cfg : Config) (r : Router) {node : DeltaNode}
    {old again : List DeltaNode} (hz : node.msec = 0)
    (hidle : (∀ n ∈ node :: old, n.msec = 0) → Idle again) :
    ∃ again', (expireNode cfg { r with deltaList := old ++ again } node).deltaList =
        old ++ again' ∧ ((∀ n ∈ old, n.msec = 0) → Idle again') := by
  have hall (h : ∀ n ∈ old, n.msec = 0) : Idle again := hidle (by simpa [hz] using h)
  rw [expireNode_deltaList]
  split_ifs
  · exact ⟨again, rfl, hall⟩
  · refine ⟨_, List.append_assoc .., fun h => ?_⟩
    cases again with
    | cons first rest => simpa [Idle] using hall h
    | nil => simp [Idle, nextDelta, totalTime_eq_zero h]

private theorem expireLoop_idle (cfg : Config) (old again : List DeltaNode) (r : Router)
    (hr : r.deltaList = old ++ again)
    (hidle : (∀ node ∈ old, node.msec = 0) → Idle again) :
    Idle (expireLoop cfg old.length r).deltaList := by
  induction old generalizing again r with
  | nil =>
    rw [List.length_nil, expireLoop, hr]
    exact hidle (by simp)
  | cons node old ih =>
    rw [List.length_cons, expireLoop, hr]
    simp only [List.cons_append]
    by_cases hz : node.msec = 0
    · rw [if_pos hz]
      obtain ⟨again', hlist, hidle'⟩ := expireNode_again cfg r hz hidle
      exact ih again' _ hlist hidle'
    · rw [if_neg hz]
      simpa [Idle, hr] using hz

/-- **The expiry loop stops by itself**: after one round a node, the list is empty or its head
has time left. -/
theorem expireLoop_stops (cfg : Config) (r : Router) :
    Idle (expireLoop cfg r.deltaList.length r).deltaList :=
  expireLoop_idle cfg r.deltaList [] r (by simp) (by simp [Idle])

theorem expireLoop_of_idle (cfg : Config) {r : Router} (h : Idle r.deltaList) (fuel : Nat) :
    expireLoop cfg fuel r = r := by
  cases fuel with
  | zero => rfl
  | succ fuel =>
    rw [expireLoop]
    split
    · rfl
    · rename_i node rest hlist
      rw [if_neg (h node (by rw [hlist]; rfl))]

theorem expireLoop_add (cfg : Config) (fuel fuel' : Nat) (r : Router) :
    expireLoop cfg (fuel + fuel') r = expireLoop cfg fuel' (expireLoop cfg fuel r) := by
  induction fuel generalizing r with
  | zero => rw [Nat.zero_add, expireLoop]
  | succ fuel ih =>
    rw [Nat.succ_add, expireLoop, expireLoop]
    cases hlist : r.deltaList with
    | nil => exact (expireLoop_of_idle cfg (by simp [Idle, hlist]) fuel').symm
    | cons node rest =>
      by_cases hz : node.msec = 0
      · simp only [if_pos hz]
        exact ih _
      · simp only [if_neg hz]
        exact (expireLoop_of_idle cfg (by simpa [Idle, hlist] using hz) fuel').symm

theorem expireLoop_enough (cfg : Config) (r : Router) {fuel : Nat}
    (h : r.deltaList.length ≤ fuel) :
    expireLoop cfg fuel r = expireLoop cfg r.deltaList.length r := by
  obtain ⟨more, rfl⟩ := Nat.exists_eq_add_of_le h
  rw [expireLoop_add, expireLoop_of_idle cfg (expireLoop_stops cfg r)]

end NaptRouter
