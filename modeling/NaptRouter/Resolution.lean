import NaptRouter.DeltaList
import NaptRouter.Lib.Runs

/-!
# Waiting for an address that is known

Nodes are opened for addresses that are not in the IP-to-MAC map, and `arp_handle` takes the
node of an address out when it enters the address. `ethernet_handle` enters the sender of every
IPv4 frame and leaves its node alone. So packets wait for a resolved address exactly when such a
frame comes from an address with a node (`no_wait_iff`).
-/

namespace NaptRouter

open ByteMemory Runs

variable {cfg : Config} {r s s' : Router}

/-- No packet waits for an address that is in the map. -/
def NoWait (s : Router) : Prop := ∀ ip ∈ addrs s.deltaList, hasMacForIp s.ipMacMap ip = false

instance (s : Router) : Decidable (NoWait s) := inferInstanceAs (Decidable (∀ ip ∈ _, _))

/-- One node an address, and none of a resolved address. -/
structure Unresolved (s : Router) : Prop where
  nodup : (addrs s.deltaList).Nodup
  noWait : NoWait s

/-! ## Sending -/

/-- Sending opens at most one node, for a next hop that has none and is not resolved. -/
theorem sendIpv4_addrs (cfg : Config) (r : Router) (pkt : Mem) :
    addrs (sendIpv4 cfg r pkt).deltaList = addrs r.deltaList ∨
      nextHop cfg pkt ∉ addrs r.deltaList ∧
        hasMacForIp r.ipMacMap (nextHop cfg pkt) = false ∧
        addrs (sendIpv4 cfg r pkt).deltaList = addrs r.deltaList ++ [nextHop cfg pkt] := by
  cases hres : hasMacForIp r.ipMacMap (nextHop cfg pkt) with
  | true =>
    left
    rw [(sendIpv4_resolved_list hres).1]
  | false =>
    rw [sendIpv4_unresolved hres, timerAddPacket_addrs]
    by_cases hmem : nextHop cfg pkt ∈ addrs r.deltaList
    · exact Or.inl (if_pos hmem)
    · exact Or.inr ⟨hmem, rfl, if_neg hmem⟩

theorem unresolved_sendIpv4 (cfg : Config) (h : Unresolved r) (pkt : Mem) :
    Unresolved (sendIpv4 cfg r pkt) := by
  obtain ⟨hnd, hno⟩ := h
  rcases sendIpv4_addrs cfg r pkt with haddrs | ⟨hnew, hres, haddrs⟩
  · refine ⟨by rwa [haddrs], fun ip hip => ?_⟩
    rw [sendIpv4_ipMacMap]
    exact hno ip (haddrs ▸ hip)
  · refine ⟨?_, fun ip hip => ?_⟩
    · rw [haddrs, ← List.concat_eq_append]
      exact hnd.concat hnew
    · rw [haddrs, List.mem_append, List.mem_singleton] at hip
      rw [sendIpv4_ipMacMap]
      rcases hip with hip | rfl
      · exact hno ip hip
      · exact hres

theorem mem_sendIpv4_addrs {ip : IpAddr} (h : ip ∈ addrs r.deltaList) (pkt : Mem) :
    ip ∈ addrs (sendIpv4 cfg r pkt).deltaList := by
  rcases sendIpv4_addrs cfg r pkt with haddrs | ⟨-, -, haddrs⟩
  · rwa [haddrs]
  · rw [haddrs]
    exact List.mem_append_left _ h

theorem unresolved_flushPkts (nh : IpAddr) (pkts : List QueuedPkt) (h : Unresolved r) :
    Unresolved (flushPkts cfg nh pkts r) := by
  refine flushPkts_keeps (fun s q hs => ?_) pkts h
  have hsend := unresolved_sendIpv4 cfg hs q.pkt
  exact ⟨hsend.nodup, hsend.noWait⟩

/-- `timer_update_packets` repairs the one address that may have been resolved. -/
theorem unresolved_timerUpdatePackets (hnd : (addrs r.deltaList).Nodup) {dst : IpAddr}
    (h : ∀ ip ∈ addrs r.deltaList, ip ≠ dst → hasMacForIp r.ipMacMap ip = false) :
    Unresolved (timerUpdatePackets cfg r dst) := by
  have hspec := unlinkNode_spec dst r.deltaList
  rcases timerUpdatePackets_cases cfg r dst with ⟨hnone, heq⟩ | ⟨node, rest, timer, hsome, heq⟩
  · rw [hnone] at hspec
    rw [heq]
    refine ⟨hnd, fun ip hip => h ip hip ?_⟩
    intro hdst
    exact hspec (hdst ▸ hip)
  · rw [hsome] at hspec
    rw [heq]
    apply unresolved_flushPkts
    refine ⟨?_, fun ip hip => ?_⟩
    · rw [hspec.2.2.1]
      exact hnd.erase dst
    · rw [hspec.2.2.1, hnd.mem_erase_iff] at hip
      exact h ip hip.2 hip.1

/-! ## Expiry -/

theorem unresolved_expireNode {node : DeltaNode} {rest : List DeltaNode}
    (hlist : r.deltaList = node :: rest) (h : Unresolved r) :
    Unresolved (expireNode cfg { r with deltaList := rest } node) := by
  obtain ⟨hnd, hno⟩ := h
  rw [hlist] at hnd
  have hlist' := expireNode_deltaList cfg { r with deltaList := rest } node
  have hknown : ∀ ip ∈ addrs (node :: rest), hasMacForIp
      (expireNode cfg { r with deltaList := rest } node).ipMacMap ip = false := by
    intro ip hip
    obtain ⟨deltaList, log, hframe⟩ := expireNode_frame cfg { r with deltaList := rest } node
    rw [hframe]
    exact hno ip (hlist ▸ hip)
  by_cases hretry : node.retryAmt ≥ 1
  · rw [if_pos hretry] at hlist'
    refine ⟨?_, fun ip hip => hknown ip ?_⟩
    · rw [hlist']
      exact (List.nodup_cons.1 hnd).2
    · rw [hlist'] at hip
      exact List.mem_cons_of_mem _ hip
  · rw [if_neg hretry] at hlist'
    refine ⟨?_, fun ip hip => hknown ip ?_⟩
    · rw [hlist']
      exact addrs_rotate_nodup hnd rfl
    · rw [hlist', addrs_append, List.mem_append] at hip
      rcases hip with hip | hip
      · exact List.mem_cons_of_mem _ hip
      · exact (List.mem_singleton.1 hip) ▸ List.mem_cons_self

theorem unresolved_timerHandler (h : Unresolved r) : Unresolved (timerHandler cfg r) := by
  rcases timerHandler_cases cfg r with heq | ⟨node, rest, fuel, timer, hlist, heq⟩
  · rwa [heq]
  · have hhead : Unresolved { r with deltaList := { node with msec := 0 } :: rest } := by
      obtain ⟨hnd, hno⟩ := h
      rw [NoWait, hlist] at hno
      rw [hlist] at hnd
      exact ⟨hnd, hno⟩
    have hloop : Unresolved (expireLoop cfg fuel
        { r with deltaList := { node with msec := 0 } :: rest }) :=
      expireLoop_keeps (fun _ _ _ => unresolved_expireNode) fuel hhead
    rw [heq]
    exact ⟨hloop.nodup, hloop.noWait⟩

/-! ## Frames -/

inductive WireInput (cfg : Config)
  /-- A frame is received. -/
  | frame (f : Frame cfg)
  /-- `timer_handler`. -/
  | timer
  /-- Time passes for the one-shot timer. -/
  | elapse (nsec : Nat)

def wireStep (cfg : Config) (r : Router) : WireInput cfg → Option Router
  | .frame f => ethernetHandle cfg r f
  | .timer => some (timerHandler cfg r)
  | .elapse nsec => some { r with timer := r.timer - nsec }

/-- An IPv4 frame comes from an address that packets wait for. -/
def LearnsWaiting (s : Router) : WireInput cfg → Prop
  | .frame f => ntohs (ethertype f.bytes) = ethertypeIpv4 ∧
      ipSrc (payload f.bytes) ∈ addrs s.deltaList
  | .timer | .elapse _ => False

instance (s : Router) (i : WireInput cfg) : Decidable (LearnsWaiting s i) :=
  match i with
  | .frame _ => inferInstanceAs (Decidable (_ ∧ _))
  | .timer => isFalse id
  | .elapse _ => isFalse id

theorem unresolved_arpHandle (h : Unresolved r) (pkt : ArpHdr) (intId : cfg.IntId)
    (src : MacAddr) : Unresolved (arpHandle cfg r pkt intId src) := by
  rw [arpHandle]
  cases arpValid pkt with
  | false => exact h
  | true =>
    apply unresolved_timerUpdatePackets (r := learn r ⟨pkt.senderIp, pkt.senderMac⟩) h.nodup
    intro ip hip hne
    exact hasMacForIp_learn_ne hne (h.noWait ip hip)

theorem unresolved_ipv4Handle {i : Ipv4Input cfg} (hr' : ipv4Handle cfg r i = some s')
    (h : Unresolved r) : Unresolved s' := by
  obtain ⟨napt, rfl | ⟨pkt, rfl⟩⟩ := ipv4Handle_cases hr'
  · exact ⟨h.nodup, h.noWait⟩
  · exact unresolved_sendIpv4 cfg (r := { r with napt }) ⟨h.nodup, h.noWait⟩ pkt

/-- `ipv4_handle` closes no node and forgets no address. -/
theorem ipv4Handle_keeps {i : Ipv4Input cfg} (hr' : ipv4Handle cfg r i = some s') {ip : IpAddr}
    (hip : ip ∈ addrs r.deltaList) :
    ip ∈ addrs s'.deltaList ∧ s'.ipMacMap = r.ipMacMap := by
  obtain ⟨napt, rfl | ⟨pkt, rfl⟩⟩ := ipv4Handle_cases hr'
  · exact ⟨hip, rfl⟩
  · exact ⟨mem_sendIpv4_addrs (r := { r with napt }) hip pkt, by rw [sendIpv4_ipMacMap]⟩

/-- **One step**: only an IPv4 frame from an address with a node leaves packets waiting for a
resolved address. -/
theorem unresolved_wireStep {i : WireInput cfg} (hstep : wireStep cfg s i = some s')
    (h : Unresolved s) (hlearn : ¬ LearnsWaiting s i) : Unresolved s' := by
  cases i with
  | frame f =>
    rw [wireStep, ethernetHandle] at hstep
    by_cases hipv4 : ntohs (ethertype f.bytes) = ethertypeIpv4
    · rw [if_pos hipv4] at hstep
      have hsrc : ipSrc (payload f.bytes) ∉ addrs s.deltaList := by
        intro hmem
        exact hlearn ⟨hipv4, hmem⟩
      apply unresolved_ipv4Handle (r := learn s ⟨ipSrc (payload f.bytes), macSrc f.bytes⟩) hstep
      refine ⟨h.nodup, fun ip hip => hasMacForIp_learn_ne ?_ (h.noWait ip hip)⟩
      intro (heq : ip = ipSrc (payload f.bytes))
      exact hsrc (heq ▸ hip)
    · rw [if_neg hipv4] at hstep
      split_ifs at hstep
      · exact Option.some.inj hstep ▸ unresolved_arpHandle h _ _ _
      · exact Option.some.inj hstep ▸ h
  | timer => exact Option.some.inj hstep ▸ unresolved_timerHandler h
  | elapse nsec => exact Option.some.inj hstep ▸ ⟨h.nodup, h.noWait⟩

/-- Such a frame always does. -/
theorem wireStep_waits {i : WireInput cfg} (hstep : wireStep cfg s i = some s')
    (hlearn : LearnsWaiting s i) : ¬ NoWait s' := by
  cases i with
  | frame f =>
    obtain ⟨hipv4, hmem⟩ := hlearn
    rw [wireStep, ethernetHandle, if_pos hipv4] at hstep
    obtain ⟨hmem', hmap⟩ := ipv4Handle_keeps
      (r := learn s ⟨ipSrc (payload f.bytes), macSrc f.bytes⟩) hstep hmem
    intro hno
    have hres := hno _ hmem'
    rw [hmap, hasMacForIp_learn_self s ⟨ipSrc (payload f.bytes), macSrc f.bytes⟩] at hres
    cases hres
  | timer => exact hlearn.elim
  | elapse nsec => exact hlearn.elim

/-! ## Runs -/

/-- The router before any packet is queued. -/
def noNodes (r : Router) : Router := { r with deltaList := [] }

/-- **Packets wait only for unresolved addresses** in every state of a run, if and only if no
frame of it is an IPv4 frame from an address that packets wait for at that moment. -/
theorem no_wait_iff (cfg : Config) (r : Router) {tr : List (Step Router (WireInput cfg))}
    {s : Router} (h : Run (wireStep cfg) (noNodes r) tr s) :
    (∀ t ∈ tr, NoWait t.post) ↔ ∀ t ∈ tr, ¬ LearnsWaiting t.pre t.input := by
  have hrun : ((∀ t ∈ tr, NoWait t.post) ↔ ∀ t ∈ tr, ¬ LearnsWaiting t.pre t.input) ∧
      ((∀ t ∈ tr, NoWait t.post) → Unresolved s) := by
    induction h with
    | nil => exact ⟨by simp, fun _ => ⟨List.nodup_nil, by simp [NoWait, noNodes]⟩⟩
    | @snoc tr s s' i hr hstep ih =>
      obtain ⟨hiff, hun⟩ := ih
      have hlast : Unresolved s → (NoWait s' ↔ ¬ LearnsWaiting s i) := fun hs =>
        ⟨fun hno hlearn => wireStep_waits hstep hlearn hno,
          fun hlearn => (unresolved_wireStep hstep hs hlearn).noWait⟩
      simp only [List.forall_mem_append, List.forall_mem_singleton]
      refine ⟨?_, fun ⟨htr, hno⟩ => ?_⟩
      · rw [← hiff]
        exact and_congr_right fun htr => hlast (hun htr)
      · have hs := hun htr
        exact unresolved_wireStep hstep hs ((hlast hs).1 hno)
  exact hrun.1

/-- A UDP datagram in an Ethernet frame. -/
def udpFrame (mac : MacAddr) (src dst : IpAddr × Port) : Mem :=
  Mem.zero.write 0 (ipv4Frame MacAddr.broadcast mac (udpDatagram src dst) 28)

/-- A LAN packet waits for the gateway, and the gateway sends an IPv4 packet to the router. -/
theorem no_wait_fails :
    ∃ tr t, Run (wireStep shippedConfig) (noNodes routerInit) (tr ++ [t]) t.post ∧
      (tr ++ [t]).map (·.input) =
        [.frame ⟨udpFrame ⟨2, 0, 0, 0, 0, 1⟩ (⟨192, 168, 1, 100⟩, ⟨5000⟩) (⟨8, 8, 8, 8⟩, ⟨53⟩),
          ⟨0, by decide⟩, fun _ => 0⟩,
        .frame ⟨udpFrame ⟨2, 0, 0, 0, 0, 2⟩ (⟨192, 168, 0, 1⟩, ⟨53⟩) (⟨192, 168, 0, 2⟩, ⟨53⟩),
          ⟨1, by decide⟩, fun _ => 0⟩] ∧
      ⟨192, 168, 0, 1⟩ ∈ addrs t.post.deltaList ∧
      hasMacForIp t.post.ipMacMap ⟨192, 168, 0, 1⟩ = true ∧ ¬ NoWait t.post := by
  obtain ⟨tr, t, hrun, hinputs, hlast⟩ := exists_run_snoc (wireStep shippedConfig)
    (noNodes routerInit)
    [.frame ⟨udpFrame ⟨2, 0, 0, 0, 0, 1⟩ (⟨192, 168, 1, 100⟩, ⟨5000⟩) (⟨8, 8, 8, 8⟩, ⟨53⟩),
      ⟨0, by decide⟩, fun _ => 0⟩]
    (.frame ⟨udpFrame ⟨2, 0, 0, 0, 0, 2⟩ (⟨192, 168, 0, 1⟩, ⟨53⟩) (⟨192, 168, 0, 2⟩, ⟨53⟩),
      ⟨1, by decide⟩, fun _ => 0⟩)
    (fun _ t => decide (⟨192, 168, 0, 1⟩ ∈ addrs t.post.deltaList ∧
      hasMacForIp t.post.ipMacMap ⟨192, 168, 0, 1⟩ = true)) (by decide +kernel)
  obtain ⟨hmem, hres⟩ := of_decide_eq_true hlast
  refine ⟨tr, t, hrun, hinputs, hmem, hres, fun hno => ?_⟩
  rw [hno _ hmem] at hres
  cases hres

/-- The gateway answers the ARP request instead. -/
theorem no_wait_answered :
    ∃ tr t, Run (wireStep shippedConfig) (noNodes routerInit) (tr ++ [t]) t.post ∧
      addrs t.pre.deltaList = [⟨192, 168, 0, 1⟩] ∧
      hasMacForIp t.post.ipMacMap ⟨192, 168, 0, 1⟩ = true ∧ ∀ u ∈ tr ++ [t], NoWait u.post := by
  let answer : ArpHdr :=
    { hardwareType := ntohs 1, protocolType := ntohs 0x0800, hardwareLength := 6,
      protocolLength := 4, operation := ntohs 2, senderMac := ⟨2, 0, 0, 0, 0, 2⟩,
      senderIp := ⟨192, 168, 0, 1⟩, targetMac := ⟨0, 0, 0, 0, 0, 0⟩,
      targetIp := ⟨192, 168, 0, 2⟩ }
  let arpFrame : Mem := Mem.zero.write 0
    (MacAddr.broadcast.bytes ++ answer.senderMac.bytes ++ le16 (ntohs ethertypeArp) ++
      answer.bytes)
  obtain ⟨tr, t, hrun, -, hlast⟩ := exists_run_snoc (wireStep shippedConfig)
    (noNodes routerInit)
    [.frame ⟨udpFrame ⟨2, 0, 0, 0, 0, 1⟩ (⟨192, 168, 1, 100⟩, ⟨5000⟩) (⟨8, 8, 8, 8⟩, ⟨53⟩),
      ⟨0, by decide⟩, fun _ => 0⟩]
    (.frame ⟨arpFrame, ⟨1, by decide⟩, fun _ => 0⟩)
    (fun tr t => decide (addrs t.pre.deltaList = [⟨192, 168, 0, 1⟩] ∧
      hasMacForIp t.post.ipMacMap ⟨192, 168, 0, 1⟩ = true ∧
      ∀ u ∈ tr ++ [t], ¬ LearnsWaiting u.pre u.input)) (by decide +kernel)
  obtain ⟨hnode, hres, hlearn⟩ := of_decide_eq_true hlast
  exact ⟨tr, t, hrun, hnode, hres, (no_wait_iff shippedConfig routerInit hrun).2 hlearn⟩

end NaptRouter
