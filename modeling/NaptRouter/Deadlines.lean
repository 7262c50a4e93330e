import Mathlib.Algebra.Order.BigOperators.Group.List
import Mathlib.Algebra.Order.Group.Nat
import NaptRouter.TimerRuns
import NaptRouter.Lib.DeltaQueue

/-!
# Deadlines

The delta list is a delta queue whose first delta is stale: the timer knows how much of it is left.
A node expires when the timer has run out, and after it the deltas up to its own. Resolving an
address leaves the deadlines of the other nodes where they are (`update_keeps_deadlines`), because
the next node takes over the delta, or the timer does.
-/

namespace NaptRouter

open ByteMemory Runs DeltaQueue

variable {cfg : Config} {r r' : Router} {dst : IpAddr} {nodes nodes' : List DeltaNode}

/-! ## The delta list as a delta queue -/

/-- The deltas, in nanoseconds. -/
def entries (nodes : List DeltaNode) : List (IpAddr × Nat) :=
  nodes.map fun node => (node.ipAddr, node.msec * 1000000)

/-- When the nodes expire, in nanoseconds from now. -/
def deadlines (r : Router) : List (IpAddr × Nat) := due r.timer (entries r.deltaList)

@[simp] theorem entries_nil : entries [] = [] := rfl

@[simp] theorem entries_cons (node : DeltaNode) (rest : List DeltaNode) :
    entries (node :: rest) = (node.ipAddr, node.msec * 1000000) :: entries rest := rfl

theorem entries_append (nodes nodes' : List DeltaNode) :
    entries (nodes ++ nodes') = entries nodes ++ entries nodes' :=
  List.map_append

theorem keys_entries (nodes : List DeltaNode) : (entries nodes).map (·.1) = addrs nodes := by
  rw [entries, List.map_map]
  rfl

theorem total_entries (nodes : List DeltaNode) :
    total (entries nodes) = totalTime nodes * 1000000 := by
  induction nodes with
  | nil => rfl
  | cons node rest ih => rw [entries_cons, total_cons, ih, totalTime_cons, Nat.add_mul]

theorem msec_le_totalTime {node : DeltaNode} (h : node ∈ nodes) : node.msec ≤ totalTime nodes :=
  List.le_sum_of_mem (List.mem_map_of_mem h)

theorem appendToNode_entries {q : QueuedPkt} (h : appendToNode q dst nodes = some nodes') :
    entries nodes' = entries nodes := by
  induction nodes generalizing nodes' with
  | nil => cases h
  | cons node rest ih =>
    rw [appendToNode] at h
    split_ifs at h
    · rw [← Option.some.inj h]
      rfl
    · obtain ⟨rest', hrest, rfl⟩ := Option.map_eq_some_iff.1 h
      rw [entries_cons, ih hrest, entries_cons]

theorem entries_passDelta (msec : Nat) (nodes : List DeltaNode) :
    entries (passDelta msec nodes) = addFirst (msec * 1000000) (entries nodes) := by
  cases nodes with
  | nil => rfl
  | cons next rest => rw [passDelta, entries_cons, entries_cons, addFirst, Nat.add_mul]

theorem unlinkNode_entries {node : DeltaNode} (h : unlinkNode dst nodes = some (node, nodes')) :
    entries nodes' = remove dst (entries nodes) := by
  induction nodes generalizing nodes' with
  | nil => cases h
  | cons head rest ih =>
    rw [entries_cons, remove]
    rcases unlinkNode_cases h with ⟨hhead, -, rfl⟩ | ⟨hhead, rest', hrest, rfl⟩
    · rw [if_pos hhead, entries_passDelta]
    · rw [if_neg hhead, entries_cons, ih hrest]

/-! ## Queueing -/

/-- The deadline of a node that is opened. -/
def openDeadline (r : Router) : Nat :=
  match r.deltaList with
  | [] => 1000000000
  | head :: _ => r.timer + (1000 - head.msec) * 1000000

theorem openDeadline_cons {head : DeltaNode} {rest : List DeltaNode}
    (h : r.deltaList = head :: rest) :
    openDeadline r = r.timer + (1000 - head.msec) * 1000000 := by
  rw [openDeadline, h]

theorem timerAddPacket_deadlines (cfg : Config) (h : totalTime r.deltaList ≤ 1000) (q : QueuedPkt)
    (intId : cfg.IntId) (dst : IpAddr) :
    deadlines (timerAddPacket cfg r q intId dst) =
      deadlines r ++ if dst ∈ addrs r.deltaList then [] else [(dst, openDeadline r)] := by
  have hspec := appendToNode_spec q dst r.deltaList
  rw [deadlines, timerAddPacket_deltaList, (timerAddPacket_timer cfg r q intId dst).2]
  cases happend : appendToNode q dst r.deltaList with
  | some nodes =>
    rw [happend] at hspec
    have hne : r.deltaList ≠ [] := by
      intro hnil
      rw [hnil] at hspec
      cases hspec.1
    rw [if_neg hne, if_pos hspec.1, Option.getD_some, appendToNode_entries happend,
      List.append_nil, deadlines]
  | none =>
    rw [happend] at hspec
    rw [if_neg hspec, Option.getD_none, entries_append, nextDelta_of_le h, deadlines]
    cases hlist : r.deltaList with
    | nil =>
      rw [openDeadline, hlist]
      rfl
    | cons head rest =>
      rw [hlist] at h
      have hnew (new : DeltaNode) (hip : new.ipAddr = dst)
          (hmsec : new.msec = 1000 - totalTime (head :: rest)) :
          entries [new] = [(dst, 1000000000 - total (entries (head :: rest)))] := by
        rw [entries_cons, entries_nil, hip, hmsec, total_entries, Nat.sub_mul]
      have htotal : total (entries (head :: rest)) ≤ 1000000000 := by
        rw [total_entries]
        omega
      rw [if_neg (List.cons_ne_nil head rest), hnew _ rfl rfl, openDeadline_cons hlist,
        Nat.sub_mul]
      exact due_push dst htotal

theorem sendIpv4_deadlines (cfg : Config) (h : totalTime r.deltaList ≤ 1000) (pkt : Mem) :
    deadlines r <+: deadlines (sendIpv4 cfg r pkt) := by
  cases hres : hasMacForIp r.ipMacMap (nextHop cfg pkt) with
  | true =>
    obtain ⟨hlist, htimer⟩ := sendIpv4_resolved_list hres
    rw [deadlines, deadlines, hlist, htimer]
  | false =>
    rw [sendIpv4_unresolved hres,
      timerAddPacket_deadlines cfg (r := { r with copies := r.copies + 1 }) h]
    exact List.prefix_append ..

/-- What a flush queues comes after the nodes that are there. -/
theorem flushPkts_deadlines (cfg : Config) (h : DeltaOk r.deltaList) (nh : IpAddr)
    (pkts : List QueuedPkt) : deadlines r <+: deadlines (flushPkts cfg nh pkts r) := by
  have hboth : DeltaOk (flushPkts cfg nh pkts r).deltaList ∧
      deadlines r <+: deadlines (flushPkts cfg nh pkts r) := by
    refine flushPkts_keeps (P := fun s => DeltaOk s.deltaList ∧ deadlines r <+: deadlines s)
      (fun s q hs => ?_) pkts ⟨h, List.prefix_rfl⟩
    exact ⟨deltaOk_sendIpv4 cfg hs.1 q.pkt,
      hs.2.trans (sendIpv4_deadlines cfg hs.1.total q.pkt)⟩
  exact hboth.2

/-! ## Resolving an address -/

theorem timerUpdatePackets_deadlines (cfg : Config) (h : DeltaOk r.deltaList)
    (hlt : r.timer < 1000000000) (dst : IpAddr) :
    (deadlines r).filter (·.1 ≠ dst) <+: deadlines (timerUpdatePackets cfg r dst) := by
  cases hlist : r.deltaList with
  | nil =>
    rw [deadlines, hlist]
    exact List.nil_prefix
  | cons head rest =>
    rw [hlist] at h
    have hnd : ((entries (head :: rest)).map (·.1)).Nodup := by
      rw [keys_entries]
      exact h.nodup
    by_cases hhead : head.ipAddr = dst
    · -- The timer takes over the next delta.
      subst hhead
      cases rest with
      | nil =>
        rw [deadlines, hlist]
        simp [due, dueFrom]
      | cons next rest =>
        have hsec : r.timerTvNsec = r.timer := Nat.mod_eq_of_lt hlt
        have hrest := h.unlink (unlinkNode_self head (next :: rest))
        have heq : (deadlines r).filter (·.1 ≠ head.ipAddr) = deadlines { r with
            timer := r.timer + next.msec * 1000000
            deltaList := { next with msec := next.msec + head.msec } :: rest } := by
          rw [deadlines, hlist]
          exact (due_remove_head _ (List.nodup_cons.1 hnd).1 r.timer).symm
        rw [timerUpdatePackets_head hlist, hsec, heq]
        exact flushPkts_deadlines cfg (r := { r with timer := _, deltaList := _ }) hrest _ _
    · rw [timerUpdatePackets_of_ne cfg hlist hhead]
      have hunlink := unlinkNode_ne hhead rest
      cases hrest : unlinkNode dst rest with
      | none =>
        have hspec := unlinkNode_spec dst rest
        rw [hrest] at hspec
        rw [deadlines, hlist, filter_due]
        rw [keys_entries, addrs_cons, List.mem_cons, not_or]
        exact ⟨Ne.symm hhead, hspec⟩
      | some found =>
        obtain ⟨node, rest'⟩ := found
        rw [hrest] at hunlink
        have heq : (deadlines r).filter (·.1 ≠ dst) =
            deadlines { r with deltaList := head :: rest' } := by
          rw [deadlines, hlist, deadlines, entries_cons, entries_cons, unlinkNode_entries hrest]
          exact (due_remove_tail hhead (List.nodup_cons.1 hnd).2 r.timer).symm
        rw [heq]
        exact flushPkts_deadlines cfg (r := { r with deltaList := _ }) (h.unlink hunlink) _ _

/-- **Resolving an address leaves the other deadlines alone**, whatever the timer has left, if it is
less than a second: the other nodes keep their order, and none of them expires earlier or later.
The time left and a delta in nanoseconds fit in an `int`. -/
theorem update_keeps_deadlines {s : TimerState} {tr : List (Step TimerState (TimerInput cfg))}
    (h : TimerRun cfg r tr s) (dst : IpAddr) {left : Nat} (hlt : left < 1000000000) :
    (deadlines { s.router with timer := left }).filter (·.1 ≠ dst) <+:
        deadlines (timerUpdatePackets cfg { s.router with timer := left } dst) ∧
      (addrs (timerUpdatePackets cfg { s.router with timer := left } dst).deltaList).Nodup ∧
      ∀ node ∈ s.router.deltaList, left + node.msec * 1000000 < 2 ^ 31 := by
  have hok : DeltaOk s.router.deltaList := (delta_list_ok h).1
  refine ⟨timerUpdatePackets_deadlines cfg (r := { s.router with timer := left }) hok hlt dst,
    (deltaOk_timerUpdatePackets (r := { s.router with timer := left }) hok dst).nodup, ?_⟩
  intro node hnode
  have hmsec := msec_le_totalTime hnode
  have htotal := hok.total
  omega

/-- Three hosts are asked for, and the second one answers. -/
theorem update_keeps_deadlines_middle :
    ∃ tr s, TimerRun shippedConfig routerInit tr s ∧
      addrs s.router.deltaList = [⟨192, 168, 1, 100⟩, ⟨192, 168, 1, 101⟩, ⟨192, 168, 1, 102⟩] ∧
      (deadlines { s.router with timer := 400000000 }).filter (·.1 ≠ ⟨192, 168, 1, 101⟩) <+:
        deadlines (timerUpdatePackets shippedConfig { s.router with timer := 400000000 }
          ⟨192, 168, 1, 101⟩) := by
  obtain ⟨tr, t, hrun, -, hlast⟩ := exists_run_snoc (timerStep shippedConfig)
    (timerIdle routerInit)
    [.addPacket ⟨0, Mem.zero⟩ ⟨0, by decide⟩ ⟨192, 168, 1, 100⟩,
      .addPacket ⟨1, Mem.zero⟩ ⟨0, by decide⟩ ⟨192, 168, 1, 101⟩]
    (.addPacket ⟨2, Mem.zero⟩ ⟨0, by decide⟩ ⟨192, 168, 1, 102⟩)
    (fun _ t => decide (addrs t.post.router.deltaList =
      [⟨192, 168, 1, 100⟩, ⟨192, 168, 1, 101⟩, ⟨192, 168, 1, 102⟩])) (by decide +kernel)
  exact ⟨tr ++ [t], t.post, hrun, of_decide_eq_true hlast,
    (update_keeps_deadlines hrun ⟨192, 168, 1, 101⟩ (by decide)).1⟩

end NaptRouter
