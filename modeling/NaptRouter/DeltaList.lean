import NaptRouter.Ethernet

/-!
# The delta list as queues

What the loops of `timer.c` do to the list, apart from the deltas: which addresses have a node
(`addrs`), and which packets wait for an address (`waiting`). As long as no address has two
nodes, appending to a node, unlinking one and moving one to the end are operations on the
queues.
-/

namespace NaptRouter

open ByteMemory

/-- The addresses that have a node. -/
def addrs (nodes : List DeltaNode) : List IpAddr := nodes.map (·.ipAddr)

/-- The packets that wait for a next hop, in order. -/
def waiting (nodes : List DeltaNode) (nextHop : IpAddr) : List QueuedPkt :=
  (nodes.filter (·.ipAddr = nextHop)).flatMap (·.pktList)

@[simp] theorem addrs_nil : addrs [] = [] := rfl

@[simp] theorem addrs_cons (node : DeltaNode) (rest : List DeltaNode) :
    addrs (node :: rest) = node.ipAddr :: addrs rest := rfl

@[simp] theorem addrs_append (nodes nodes' : List DeltaNode) :
    addrs (nodes ++ nodes') = addrs nodes ++ addrs nodes' := List.map_append

theorem mem_addrs {nodes : List DeltaNode} {node : DeltaNode} (h : node ∈ nodes) :
    node.ipAddr ∈ addrs nodes := List.mem_map_of_mem h

@[simp] theorem waiting_nil (nh : IpAddr) : waiting [] nh = [] := rfl

theorem waiting_cons (node : DeltaNode) (rest : List DeltaNode) (nh : IpAddr) :
    waiting (node :: rest) nh =
      (if node.ipAddr = nh then node.pktList else []) ++ waiting rest nh := by
  by_cases h : node.ipAddr = nh <;> simp [waiting, h]

/-- Neither the deltas nor the retry counts matter to the queues. -/
theorem waiting_congr_head {node node' : DeltaNode} (rest : List DeltaNode)
    (hip : node'.ipAddr = node.ipAddr) (hpkts : node'.pktList = node.pktList) (nh : IpAddr) :
    waiting (node' :: rest) nh = waiting (node :: rest) nh := by
  rw [waiting_cons, waiting_cons, hip, hpkts]

theorem waiting_append (nodes nodes' : List DeltaNode) (nh : IpAddr) :
    waiting (nodes ++ nodes') nh = waiting nodes nh ++ waiting nodes' nh := by
  simp [waiting]

theorem mem_waiting {nodes : List DeltaNode} {nh : IpAddr} {q : QueuedPkt} :
    q ∈ waiting nodes nh ↔ ∃ node ∈ nodes, node.ipAddr = nh ∧ q ∈ node.pktList := by
  simp [waiting, and_assoc]

theorem waiting_eq_nil {nodes : List DeltaNode} {nh : IpAddr} (h : nh ∉ addrs nodes) :
    waiting nodes nh = [] := by
  apply List.eq_nil_iff_forall_not_mem.2
  intro q hq
  obtain ⟨node, hnode, hip, -⟩ := mem_waiting.1 hq
  exact h (hip ▸ mem_addrs hnode)

/-- A node's address is the queue its packets are in. -/
theorem waiting_of_mem {nodes : List DeltaNode} (hnd : (addrs nodes).Nodup) {node : DeltaNode}
    (h : node ∈ nodes) : waiting nodes node.ipAddr = node.pktList := by
  induction nodes with
  | nil => cases h
  | cons first rest ih =>
    rw [addrs_cons, List.nodup_cons] at hnd
    obtain ⟨hfirst, hrest⟩ := hnd
    rw [waiting_cons]
    rcases List.mem_cons.1 h with rfl | h
    · rw [if_pos rfl, waiting_eq_nil hfirst, List.append_nil]
    · have hne : first.ipAddr ≠ node.ipAddr := by
        intro heq
        exact hfirst (heq ▸ mem_addrs h)
      rw [if_neg hne, List.nil_append, ih hrest h]

/-- Packets that can only be in one queue are all counted there. -/
theorem countP_waiting {nodes : List DeltaNode} {nh : IpAddr} {p : QueuedPkt → Bool}
    (h : ∀ node ∈ nodes, ∀ q ∈ node.pktList, p q = true → node.ipAddr = nh) :
    (nodes.flatMap (·.pktList)).countP p = (waiting nodes nh).countP p := by
  induction nodes with
  | nil => rfl
  | cons node rest ih =>
    have hrest := ih fun node' hnode' => h node' (List.mem_cons_of_mem _ hnode')
    rw [List.flatMap_cons, waiting_cons, List.countP_append, List.countP_append, hrest]
    by_cases hip : node.ipAddr = nh
    · rw [if_pos hip]
    · have hnone : node.pktList.countP p = 0 := by
        rw [List.countP_eq_zero]
        intro q hq hp
        exact hip (h node List.mem_cons_self q hq hp)
      rw [if_neg hip, hnone, List.countP_nil]

/-! ## Appending -/

/-- The first loop of `timer_add_packet` finds the node of `dst` if there is one, and appends
to its packets. -/
theorem appendToNode_spec (q : QueuedPkt) (dst : IpAddr) (nodes : List DeltaNode) :
    match appendToNode q dst nodes with
    | none => dst ∉ addrs nodes
    | some nodes' =>
        dst ∈ addrs nodes ∧ addrs nodes' = addrs nodes ∧
          ((addrs nodes).Nodup → waiting nodes' dst = waiting nodes dst ++ [q]) ∧
          ∀ nh, nh ≠ dst → waiting nodes' nh = waiting nodes nh := by
  induction nodes with
  | nil => simp [appendToNode]
  | cons node rest ih =>
    by_cases hip : node.ipAddr = dst
    · subst hip
      rw [appendToNode, if_pos (ipAddrEquals_iff.2 rfl)]
      refine ⟨List.mem_cons_self, rfl, fun hnd => ?_, fun nh hne => ?_⟩
      · have hrest : waiting rest node.ipAddr = [] := waiting_eq_nil (List.nodup_cons.1 hnd).1
        simp [waiting_cons, hrest]
      · simp [waiting_cons, hne.symm]
    · rw [appendToNode, if_neg (mt ipAddrEquals_iff.1 hip)]
      cases hrest : appendToNode q dst rest with
      | none =>
        rw [hrest] at ih
        simpa [Ne.symm hip] using ih
      | some nodes' =>
        rw [hrest] at ih
        obtain ⟨hmem, haddrs, hself, hother⟩ := ih
        refine ⟨List.mem_cons_of_mem _ hmem, by simp [haddrs], fun hnd => ?_, fun nh hne => ?_⟩
        · simp [waiting_cons, hip, hself (List.nodup_cons.1 hnd).2]
        · simp [waiting_cons, hother nh hne]

/-! ## Unlinking -/

/-- The next node takes over the delta of a node that goes. -/
def passDelta (msec : Nat) : List DeltaNode → List DeltaNode
  | [] => []
  | next :: rest => { next with msec := next.msec + msec } :: rest

@[simp] theorem addrs_passDelta (msec : Nat) (nodes : List DeltaNode) :
    addrs (passDelta msec nodes) = addrs nodes := by
  cases nodes with
  | nil => rfl
  | cons next rest => rfl

@[simp] theorem waiting_passDelta (msec : Nat) (nodes : List DeltaNode) (nh : IpAddr) :
    waiting (passDelta msec nodes) nh = waiting nodes nh := by
  cases nodes with
  | nil => rfl
  | cons next rest => rw [passDelta, waiting_cons, waiting_cons]

theorem unlinkNode_self (node : DeltaNode) (rest : List DeltaNode) :
    unlinkNode node.ipAddr (node :: rest) = some (node, passDelta node.msec rest) := by
  cases rest with
  | nil => exact if_pos (ipAddrEquals_iff.2 rfl)
  | cons next rest => exact if_pos (ipAddrEquals_iff.2 rfl)

theorem unlinkNode_ne {dst : IpAddr} {node : DeltaNode} (h : node.ipAddr ≠ dst)
    (rest : List DeltaNode) :
    unlinkNode dst (node :: rest) =
      (unlinkNode dst rest).map fun (found, rest) => (found, node :: rest) :=
  if_neg (mt ipAddrEquals_iff.1 h)

theorem unlinkNode_cases {dst : IpAddr} {head node : DeltaNode} {rest nodes : List DeltaNode}
    (h : unlinkNode dst (head :: rest) = some (node, nodes)) :
    head.ipAddr = dst ∧ node = head ∧ nodes = passDelta head.msec rest ∨
      head.ipAddr ≠ dst ∧
        ∃ rest', unlinkNode dst rest = some (node, rest') ∧ nodes = head :: rest' := by
  by_cases hhead : head.ipAddr = dst
  · left
    rw [← hhead, unlinkNode_self, Option.some.injEq, Prod.mk.injEq] at h
    exact ⟨hhead, h.1.symm, h.2.symm⟩
  · right
    rw [unlinkNode_ne hhead] at h
    obtain ⟨⟨found, rest'⟩, hrest, heq⟩ := Option.map_eq_some_iff.1 h
    rw [Prod.mk.injEq] at heq
    obtain ⟨rfl, rfl⟩ := heq
    exact ⟨hhead, rest', hrest, rfl⟩

/-- The loop of `timer_update_packets` takes out the node of `dst` if there is one. -/
theorem unlinkNode_spec (dst : IpAddr) (nodes : List DeltaNode) :
    match unlinkNode dst nodes with
    | none => dst ∉ addrs nodes
    | some (node, rest) =>
        node ∈ nodes ∧ node.ipAddr = dst ∧ addrs rest = (addrs nodes).erase dst ∧
          ∀ nh, nh ≠ dst → waiting rest nh = waiting nodes nh := by
  induction nodes with
  | nil => simp [unlinkNode]
  | cons node rest ih =>
    by_cases hip : node.ipAddr = dst
    · subst hip
      rw [unlinkNode_self]
      refine ⟨List.mem_cons_self, rfl, by simp, fun nh hne => ?_⟩
      simp [waiting_cons, hne.symm]
    · rw [unlinkNode_ne hip]
      cases hrest : unlinkNode dst rest with
      | none =>
        rw [hrest] at ih
        simpa [Ne.symm hip] using ih
      | some found =>
        rw [hrest] at ih
        obtain ⟨hmem, hdst, haddrs, hother⟩ := ih
        refine ⟨List.mem_cons_of_mem _ hmem, hdst, ?_, fun nh hne => ?_⟩
        · simp [haddrs, List.erase_cons_tail, hip]
        · simp [waiting_cons, hother nh hne]

/-! ## Moving to the end -/

/-- A popped node that is put at the end keeps its packets. -/
theorem waiting_rotate {node node' : DeltaNode} {rest : List DeltaNode}
    (hnd : (addrs (node :: rest)).Nodup) (hip : node'.ipAddr = node.ipAddr)
    (hpkts : node'.pktList = node.pktList) (nh : IpAddr) :
    waiting (rest ++ [node']) nh = waiting (node :: rest) nh := by
  rw [waiting_append, ← waiting_congr_head rest hip hpkts, waiting_cons, waiting_cons]
  by_cases h : node'.ipAddr = nh
  · have hrest : waiting rest nh = [] :=
      waiting_eq_nil (h ▸ hip ▸ (List.nodup_cons.1 hnd).1)
    simp [hrest]
  · simp [h]

theorem addrs_rotate_nodup {node node' : DeltaNode} {rest : List DeltaNode}
    (hnd : (addrs (node :: rest)).Nodup) (hip : node'.ipAddr = node.ipAddr) :
    (addrs (rest ++ [node'])).Nodup := by
  rw [addrs_cons, List.nodup_cons] at hnd
  rw [addrs_append, addrs_cons, addrs_nil, hip, List.nodup_append]
  refine ⟨hnd.2, List.nodup_singleton _, fun ip hmem last hlast heq => ?_⟩
  rw [heq, List.mem_singleton.1 hlast] at hmem
  exact hnd.1 hmem

/-! ## `timer_add_packet` and `send_ipv4` -/

theorem timerAddPacket_deltaList (cfg : Config) (r : Router) (q : QueuedPkt)
    (intId : cfg.IntId) (dst : IpAddr) :
    (timerAddPacket cfg r q intId dst).deltaList =
      (appendToNode q dst r.deltaList).getD (r.deltaList ++
        [{ msec := nextDelta r.deltaList, ipAddr := dst, pktList := [q], retryAmt := 0 }]) := by
  unfold timerAddPacket
  cases appendToNode q dst r.deltaList with
  | some nodes => rfl
  | none =>
    simp only [sendArp_deltaList, Option.getD_none]
    cases h : r.deltaList <;> simp [Router.timerSettime]

theorem timerAddPacket_addrs (cfg : Config) (r : Router) (q : QueuedPkt) (intId : cfg.IntId)
    (dst : IpAddr) :
    addrs (timerAddPacket cfg r q intId dst).deltaList =
      if dst ∈ addrs r.deltaList then addrs r.deltaList else addrs r.deltaList ++ [dst] := by
  have hspec := appendToNode_spec q dst r.deltaList
  rw [timerAddPacket_deltaList]
  cases h : appendToNode q dst r.deltaList with
  | none =>
    rw [h] at hspec
    simp [if_neg hspec]
  | some nodes =>
    rw [h] at hspec
    rw [if_pos hspec.1, Option.getD_some, hspec.2.1]

theorem timerAddPacket_nodup (cfg : Config) {r : Router} (hnd : (addrs r.deltaList).Nodup)
    (q : QueuedPkt) (intId : cfg.IntId) (dst : IpAddr) :
    (addrs (timerAddPacket cfg r q intId dst).deltaList).Nodup := by
  rw [timerAddPacket_addrs]
  by_cases hmem : dst ∈ addrs r.deltaList
  · rwa [if_pos hmem]
  · rw [if_neg hmem, ← List.concat_eq_append]
    exact hnd.concat hmem

/-- **Queueing appends**: the packet is the last of its queue, and no other queue changes. -/
theorem timerAddPacket_waiting (cfg : Config) {r : Router} (hnd : (addrs r.deltaList).Nodup)
    (q : QueuedPkt) (intId : cfg.IntId) (dst : IpAddr) :
    waiting (timerAddPacket cfg r q intId dst).deltaList dst = waiting r.deltaList dst ++ [q] ∧
      ∀ nh, nh ≠ dst →
        waiting (timerAddPacket cfg r q intId dst).deltaList nh = waiting r.deltaList nh := by
  have hspec := appendToNode_spec q dst r.deltaList
  rw [timerAddPacket_deltaList]
  cases h : appendToNode q dst r.deltaList with
  | none =>
    rw [Option.getD_none]
    refine ⟨by simp [waiting_append, waiting_cons], fun nh hne => ?_⟩
    simp [waiting_append, waiting_cons, hne.symm]
  | some nodes =>
    rw [h] at hspec
    exact ⟨hspec.2.2.1 hnd, hspec.2.2.2⟩

/-- The address that `send_ipv4` resolves. -/
def nextHop (cfg : Config) (pkt : Mem) : IpAddr :=
  cfg.localDstIp (cfg.getInterfaceForIp (ipDst pkt)) (ipDst pkt)

/-- The copy that `send_ipv4` queues. -/
def queuedCopy (r : Router) (pkt : Mem) : QueuedPkt where
  ptr := r.copies
  pkt := Mem.zero.write 0
    ((fillChecksums pkt).read 0 (ntohs (totalLength (fillChecksums pkt))).toNat)

theorem sendIpv4_unresolved {cfg : Config} {r : Router} {pkt : Mem}
    (h : hasMacForIp r.ipMacMap (nextHop cfg pkt) = false) :
    sendIpv4 cfg r pkt = timerAddPacket cfg { r with copies := r.copies + 1 } (queuedCopy r pkt)
      (cfg.getInterfaceForIp (ipDst pkt)) (nextHop cfg pkt) := by
  rw [nextHop] at h
  simp only [sendIpv4, h, Bool.not_false, if_true]
  rfl

/-- A packet whose next hop is resolved is written or dropped, by the type of its interface. -/
theorem sendIpv4_resolved {cfg : Config} {r : Router} {pkt : Mem}
    (h : hasMacForIp r.ipMacMap (nextHop cfg pkt) = true) :
    sendIpv4 cfg r pkt =
      if cfg.interfaceGetType (cfg.getInterfaceForIp (ipDst pkt)) = .ether then
        r.emit (.write (cfg.getInterfaceForIp (ipDst pkt))
          (ipv4Frame (getMacFromIp r.ipMacMap (nextHop cfg pkt))
            (cfg.interfaceGetMacAddr (cfg.getInterfaceForIp (ipDst pkt))) (fillChecksums pkt)
            (ntohs (totalLength (fillChecksums pkt))).toNat))
      else r := by
  rw [nextHop] at h
  simp only [sendIpv4, h, Bool.not_true, Bool.false_eq_true, if_false]
  cases cfg.interfaceGetType (cfg.getInterfaceForIp (ipDst pkt)) <;> rfl

theorem sendIpv4_resolved_list {cfg : Config} {r : Router} {pkt : Mem}
    (h : hasMacForIp r.ipMacMap (nextHop cfg pkt) = true) :
    (sendIpv4 cfg r pkt).deltaList = r.deltaList ∧ (sendIpv4 cfg r pkt).timer = r.timer := by
  rw [sendIpv4_resolved h]
  split_ifs
  · exact ⟨rfl, rfl⟩
  · exact ⟨rfl, rfl⟩

/-- What `timer_add_packet` keeps of the list, `send_ipv4` keeps. -/
theorem sendIpv4_keeps {cfg : Config} {r : Router} {P : List DeltaNode → Prop}
    (hadd : ∀ r q intId dst, P r.deltaList → P (timerAddPacket cfg r q intId dst).deltaList)
    (h : P r.deltaList) (pkt : Mem) : P (sendIpv4 cfg r pkt).deltaList := by
  cases hres : hasMacForIp r.ipMacMap (nextHop cfg pkt) with
  | true => rwa [(sendIpv4_resolved_list hres).1]
  | false =>
    rw [sendIpv4_unresolved hres]
    exact hadd { r with copies := r.copies + 1 } _ _ _ h

/-! ## `timer_update_packets` and `timer_handler` -/

theorem rearmAfterHead_eq (r : Router) (rest : List DeltaNode) :
    ∃ timer, rearmAfterHead r rest = { r with timer } := by
  cases rest with
  | nil => exact ⟨_, rfl⟩
  | cons next rest => exact ⟨_, rfl⟩

theorem timerUpdatePackets_cases (cfg : Config) (r : Router) (dst : IpAddr) :
    (unlinkNode dst r.deltaList = none ∧ timerUpdatePackets cfg r dst = r) ∨
      ∃ node rest timer, unlinkNode dst r.deltaList = some (node, rest) ∧
        timerUpdatePackets cfg r dst =
          flushPkts cfg dst node.pktList { r with timer, deltaList := rest } := by
  unfold timerUpdatePackets
  cases hunlink : unlinkNode dst r.deltaList with
  | none =>
    refine Or.inl ⟨rfl, ?_⟩
    cases r.deltaList <;> rfl
  | some found =>
    obtain ⟨node, rest⟩ := found
    cases hlist : r.deltaList with
    | nil =>
      rw [hlist] at hunlink
      cases hunlink
    | cons head tail =>
      right
      by_cases hhead : ipAddrEquals head.ipAddr dst = true
      · obtain ⟨timer, htimer⟩ := rearmAfterHead_eq r tail
        exact ⟨node, rest, timer, rfl, by simp [hhead, htimer]⟩
      · exact ⟨node, rest, r.timer, rfl, by simp [hhead]⟩

theorem timerUpdatePackets_of_not_mem {cfg : Config} {r : Router} {ip : IpAddr}
    (h : ip ∉ addrs r.deltaList) : timerUpdatePackets cfg r ip = r := by
  have hspec := unlinkNode_spec ip r.deltaList
  rcases timerUpdatePackets_cases cfg r ip with ⟨-, heq⟩ | ⟨node, rest, timer, hsome, -⟩
  · exact heq
  · rw [hsome] at hspec
    obtain ⟨hmem, rfl, -⟩ := hspec
    exact absurd (List.mem_map_of_mem hmem) h

/-- What `timer_handler` leaves on the timer. -/
def headTimer : List DeltaNode → Nat
  | [] => 0
  | node :: _ => node.msec * 1000000

theorem timerHandler_nil (cfg : Config) {r : Router} (h : r.deltaList = []) :
    timerHandler cfg r = r := by
  rw [timerHandler, h]

theorem timerHandler_eq (cfg : Config) {r : Router} {node : DeltaNode} {rest : List DeltaNode}
    (h : r.deltaList = node :: rest) :
    timerHandler cfg r =
      { expireLoop cfg (rest.length + 1)
          { r with deltaList := { node with msec := 0 } :: rest } with
        timer := headTimer (expireLoop cfg (rest.length + 1)
          { r with deltaList := { node with msec := 0 } :: rest }).deltaList } := by
  simp only [timerHandler, h, List.length_cons]
  generalize expireLoop cfg _ _ = s
  obtain ⟨napt, ipMacMap, deltaList, timer, copies, log⟩ := s
  cases deltaList with
  | nil => rfl
  | cons next left => simp only [Router.timerSettime, Nat.div_add_mod', headTimer]

/-- Either the list is empty, or its head is due and the loop runs. -/
theorem timerHandler_cases (cfg : Config) (r : Router) :
    timerHandler cfg r = r ∨
      ∃ node rest fuel timer, r.deltaList = node :: rest ∧
        timerHandler cfg r =
          { expireLoop cfg fuel { r with deltaList := { node with msec := 0 } :: rest } with
            timer } := by
  cases hlist : r.deltaList with
  | nil => exact Or.inl (timerHandler_nil cfg hlist)
  | cons node rest => exact Or.inr ⟨node, rest, _, _, rfl, timerHandler_eq cfg hlist⟩

/-- `timer_handler` works on the list, the timer and the log. -/
theorem timerHandler_frame (cfg : Config) (r : Router) :
    ∃ deltaList timer log, timerHandler cfg r = { r with deltaList, timer, log } := by
  rcases timerHandler_cases cfg r with heq | ⟨node, rest, fuel, timer, -, heq⟩
  · exact ⟨r.deltaList, r.timer, r.log, heq⟩
  · obtain ⟨deltaList, log, hloop⟩ :=
      expireLoop_frame cfg fuel { r with deltaList := { node with msec := 0 } :: rest }
    rw [hloop] at heq
    exact ⟨deltaList, timer, log, heq⟩

theorem timerHandler_ipMacMap (cfg : Config) (r : Router) :
    (timerHandler cfg r).ipMacMap = r.ipMacMap := by
  obtain ⟨deltaList, timer, log, heq⟩ := timerHandler_frame cfg r
  rw [heq]

theorem mem_addrs_of_timerHandler {cfg : Config} {r : Router} {ip : IpAddr}
    (h : ip ∈ addrs (timerHandler cfg r).deltaList) : ip ∈ addrs r.deltaList := by
  rcases timerHandler_cases cfg r with heq | ⟨node, rest, fuel, timer, hlist, heq⟩
  · rwa [heq] at h
  · rw [heq] at h
    revert h
    refine expireLoop_keeps (P := fun s => ip ∈ addrs s.deltaList → ip ∈ addrs r.deltaList)
      (fun s node rest hs ih hip => ih ?_) fuel (by simp [hlist])
    rw [expireNode_deltaList] at hip
    rw [hs, addrs_cons, List.mem_cons]
    split_ifs at hip
    · exact Or.inr hip
    · rw [addrs_append, List.mem_append] at hip
      exact hip.symm.imp_left List.mem_singleton.1

end NaptRouter
