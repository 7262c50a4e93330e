import NaptRouter.Resolution

/-!
# Where the MAC addresses come from

`ethernet_handle` enters the sender of every IPv4 frame and of every valid ARP packet in the
IP-to-MAC map, whatever interface the frame came in on, before any filter looks at it. So the
map holds, for each address, what the last frame said that carried it as its sender
(`learned_from_last`). A MAC address for the LAN can be trusted to come from the LAN exactly when
no frame carries an address of another interface's network as its sender
(`learning_respects_iff`).
-/

namespace NaptRouter

open ByteMemory Runs

variable {cfg : Config} {r r' : Router}

/-! ## The map as a function -/

/-- The MAC address that `send_ipv4` finds for a next hop. -/
def macOf (m : IpMacMap) (ip : IpAddr) : Option MacAddr :=
  if hasMacForIp m ip then some (getMacFromIp m ip) else none

/-- The search of `get_mac_from_ip`. -/
def macIn (arr : List IpMacPair) (ip : IpAddr) : Option MacAddr :=
  (arr.find? fun p => ipAddrEquals ip p.ipAddr).map (·.macAddr)

theorem macOf_eq (m : IpMacMap) (ip : IpAddr) : macOf m ip = macIn m.arr ip := by
  rw [macOf, macIn, hasMacForIp, getMacFromIp]
  cases hfind : m.arr.find? fun p => ipAddrEquals ip p.ipAddr with
  | none =>
    have hany : m.arr.any (fun p => ipAddrEquals ip p.ipAddr) = false := by
      simpa using List.find?_eq_none.1 hfind
    simp [hany]
  | some p =>
    have hp : ipAddrEquals ip p.ipAddr = true := by simpa using List.find?_some hfind
    have hany : m.arr.any (fun p => ipAddrEquals ip p.ipAddr) = true :=
      List.any_eq_true.2 ⟨p, List.mem_of_find?_eq_some hfind, hp⟩
    simp [hany]

theorem macIn_cons (p : IpMacPair) (rest : List IpMacPair) (ip : IpAddr) :
    macIn (p :: rest) ip = if ip = p.ipAddr then some p.macAddr else macIn rest ip := by
  by_cases hip : ip = p.ipAddr
  · simp [macIn, hip]
  · have hne : ipAddrEquals ip p.ipAddr = false := Bool.eq_false_iff.2 (mt ipAddrEquals_iff.1 hip)
    simp [macIn, hip, hne]

theorem macIn_updateExisting (pair : IpMacPair) (arr : List IpMacPair) :
    match updateExisting pair arr with
    | some arr' =>
        ∀ ip, macIn arr' ip = if ip = pair.ipAddr then some pair.macAddr else macIn arr ip
    | none => macIn arr pair.ipAddr = none := by
  induction arr with
  | nil => rfl
  | cons p rest ih =>
    rw [updateExisting]
    by_cases hp : pair.ipAddr = p.ipAddr
    · rw [if_pos (ipAddrEquals_iff.2 hp)]
      intro ip
      rw [macIn_cons, macIn_cons, hp]
      split_ifs <;> rfl
    · rw [if_neg (mt ipAddrEquals_iff.1 hp)]
      cases hrest : updateExisting pair rest with
      | none =>
        rw [hrest] at ih
        rw [Option.map_none, macIn_cons, if_neg hp]
        exact ih
      | some arr' =>
        rw [hrest] at ih
        intro ip
        rw [macIn_cons, macIn_cons, ih ip]
        by_cases hip : ip = p.ipAddr
        · rw [if_pos hip, if_pos hip, if_neg (fun heq => hp (heq.symm.trans hip))]
        · rw [if_neg hip, if_neg hip]

/-- An update overwrites one address and leaves the others. -/
theorem macOf_update (m : IpMacMap) (pair : IpMacPair) (ip : IpAddr) :
    macOf (updateIpMacPair m pair) ip =
      if ip = pair.ipAddr then some pair.macAddr else macOf m ip := by
  have hspec := macIn_updateExisting pair m.arr
  rw [macOf_eq, macOf_eq, updateIpMacPair]
  cases hupd : updateExisting pair m.arr with
  | some arr' =>
    rw [hupd] at hspec
    exact hspec ip
  | none =>
    rw [hupd] at hspec
    have happend : macIn (m.arr ++ [pair]) ip = (macIn m.arr ip).or (macIn [pair] ip) := by
      simp only [macIn, List.find?_append]
      cases m.arr.find? fun p => ipAddrEquals ip p.ipAddr <;> rfl
    rw [happend, macIn_cons]
    by_cases hip : ip = pair.ipAddr
    · rw [if_pos hip, if_pos hip, hip, hspec, Option.none_or]
    · rw [if_neg hip, if_neg hip]
      exact Option.or_none

theorem updateExisting_of_known {pair : IpMacPair} {arr : List IpMacPair}
    (h : macIn arr pair.ipAddr = some pair.macAddr) : updateExisting pair arr = some arr := by
  induction arr with
  | nil => cases h
  | cons p rest ih =>
    rw [macIn_cons] at h
    rw [updateExisting]
    by_cases hp : pair.ipAddr = p.ipAddr
    · rw [if_pos hp] at h
      rw [if_pos (ipAddrEquals_iff.2 hp), ← Option.some.inj h]
    · rw [if_neg hp] at h
      rw [if_neg (mt ipAddrEquals_iff.1 hp), ih h, Option.map_some]

theorem updateIpMacPair_of_known {m : IpMacMap} {pair : IpMacPair}
    (h : macOf m pair.ipAddr = some pair.macAddr) : updateIpMacPair m pair = m := by
  rw [macOf_eq] at h
  rw [updateIpMacPair, updateExisting_of_known h]

/-! ## What a frame enters -/

/-- The pair that `ethernet_handle` enters in the map: the source of an IPv4 frame, or the sender
of an ARP packet that passes the tests of `arp_handle`. -/
def learned (frame : Mem) : Option IpMacPair :=
  if ntohs (ethertype frame) = ethertypeIpv4 then
    some { ipAddr := ipSrc (payload frame), macAddr := macSrc frame }
  else if ntohs (ethertype frame) = ethertypeArp then
    let pkt := ArpHdr.read (payload frame) 0
    if arpValid pkt then some { ipAddr := pkt.senderIp, macAddr := pkt.senderMac } else none
  else none

theorem learned_arp {frame : Mem} (htype : ntohs (ethertype frame) = ethertypeArp)
    (hvalid : arpValid (.read (payload frame) 0) = true) :
    learned frame = some
      { ipAddr := (ArpHdr.read (payload frame) 0).senderIp,
        macAddr := (ArpHdr.read (payload frame) 0).senderMac } := by
  rw [learned, if_neg (by rw [htype]; decide), if_pos htype]
  exact if_pos hvalid

theorem flushPkts_ipMacMap (nh : IpAddr) (pkts : List QueuedPkt) (r : Router) :
    (flushPkts cfg nh pkts r).ipMacMap = r.ipMacMap := by
  refine flushPkts_keeps (P := fun s => s.ipMacMap = r.ipMacMap) (fun s q hs => ?_) pkts rfl
  rw [Router.emit_ipMacMap, sendIpv4_ipMacMap, hs]

theorem timerUpdatePackets_ipMacMap (r : Router) (dst : IpAddr) :
    (timerUpdatePackets cfg r dst).ipMacMap = r.ipMacMap := by
  rcases timerUpdatePackets_cases cfg r dst with ⟨-, heq⟩ | ⟨node, rest, timer, -, heq⟩
  · rw [heq]
  · rw [heq, flushPkts_ipMacMap]

/-- **One frame** enters its sender, and nothing else. -/
theorem ethernetHandle_ipMacMap {f : Frame cfg} (h : ethernetHandle cfg r f = some r') :
    r'.ipMacMap = (learned f.bytes).elim r.ipMacMap (updateIpMacPair r.ipMacMap) := by
  rw [ethernetHandle] at h
  rw [learned]
  by_cases hipv4 : ntohs (ethertype f.bytes) = ethertypeIpv4
  · rw [if_pos hipv4] at h ⊢
    obtain ⟨napt, rfl | ⟨pkt, rfl⟩⟩ := ipv4Handle_cases h
    · rfl
    · rw [sendIpv4_ipMacMap]
      rfl
  · rw [if_neg hipv4] at h ⊢
    by_cases harp : ntohs (ethertype f.bytes) = ethertypeArp
    · rw [if_pos harp] at h ⊢
      rw [← Option.some.inj h, arpHandle]
      cases hvalid : arpValid (ArpHdr.read (payload f.bytes) 0) with
      | false => simp [hvalid]
      | true => simp [hvalid, timerUpdatePackets_ipMacMap]
    · rw [if_neg harp] at h ⊢
      rw [← Option.some.inj h]
      rfl

theorem macOf_ethernetHandle {f : Frame cfg} (h : ethernetHandle cfg r f = some r')
    (ip : IpAddr) :
    macOf r'.ipMacMap ip =
      if (learned f.bytes).map (·.ipAddr) = some ip then (learned f.bytes).map (·.macAddr)
      else macOf r.ipMacMap ip := by
  rw [ethernetHandle_ipMacMap h]
  cases learned f.bytes with
  | none => simp
  | some pair =>
    simp only [Option.elim_some, macOf_update, Option.map_some, Option.some.injEq]
    by_cases hip : ip = pair.ipAddr
    · rw [if_pos hip, if_pos hip.symm]
    · rw [if_neg hip, if_neg (Ne.symm hip)]

/-! ## Runs -/

abbrev FrameStep (cfg : Config) := Step Router (Frame cfg)

/-- Runs of `ethernet_handle` from an empty map. -/
abbrev FrameRun (cfg : Config) (r : Router) :=
  Run (ethernetHandle cfg) { r with ipMacMap := IpMacMap.init }

/-- The last frame that carried `ip` as its sender came in on the interface, with this MAC
address. -/
def LastFrom (tr : List (FrameStep cfg)) (ip : IpAddr) (mac : MacAddr) (intId : cfg.IntId) :
    Prop :=
  Since (fun t : FrameStep cfg =>
      learned t.input.bytes = some ⟨ip, mac⟩ ∧ t.input.intId = intId)
    (fun t => (learned t.input.bytes).map (·.ipAddr) = some ip) tr

/-- **The map records the last senders.** -/
theorem learned_from_last {s : Router} {tr : List (FrameStep cfg)} (h : FrameRun cfg r tr s)
    (ip : IpAddr) (mac : MacAddr) :
    macOf s.ipMacMap ip = some mac ↔ ∃ intId, LastFrom tr ip mac intId := by
  refine h.history (I := fun tr s => macOf s.ipMacMap ip = some mac ↔
    ∃ intId, LastFrom tr ip mac intId) ?_ fun tr s i s' _ ih hstep => ?_
  · refine iff_of_false (by simp [macOf, hasMacForIp, IpMacMap.init]) ?_
    intro hex
    obtain ⟨intId, hlast⟩ := hex
    exact not_since_nil hlast
  · rw [macOf_ethernetHandle hstep]
    simp only [LastFrom, since_snoc]
    by_cases hip : (learned i.bytes).map (·.ipAddr) = some ip
    · obtain ⟨pair, hpair, rfl⟩ := Option.map_eq_some_iff.1 hip
      simp only [hpair, Option.map_some, if_true, Option.some.injEq]
      constructor
      · intro hmac
        exact ⟨i.intId, Or.inl ⟨by rw [← hmac], rfl⟩⟩
      · intro hex
        obtain ⟨intId, ⟨hsame, -⟩ | ⟨hno, -⟩⟩ := hex
        · rw [hsame]
        · exact absurd trivial hno
    · have hnot (m : MacAddr) : learned i.bytes ≠ some ⟨ip, m⟩ := by
        intro hl
        exact hip (by rw [hl, Option.map_some])
      rw [if_neg hip, ih]
      simp only [hnot, hip, false_and, false_or, not_false_eq_true, true_and, LastFrom]

/-! ## Interfaces -/

/-- The MAC addresses of the LAN come from the interfaces that the addresses are routed to. -/
def RespectsLan (tr : List (FrameStep cfg)) (s : Router) : Prop :=
  ∀ ip mac, cfg.interfaceGetSide (cfg.getInterfaceForIp ip) = .lan →
    macOf s.ipMacMap ip = some mac → LastFrom tr ip mac (cfg.getInterfaceForIp ip)

/-- A frame from the WAN does not change the MAC address that `send_ipv4` uses for a packet to
the LAN. -/
def WanQuiet (t : FrameStep cfg) : Prop :=
  cfg.interfaceGetSide t.input.intId = .wan → ∀ pkt,
    cfg.interfaceGetSide (cfg.getInterfaceForIp (ipDst pkt)) = .lan →
      macOf t.post.ipMacMap (nextHop cfg pkt) = macOf t.pre.ipMacMap (nextHop cfg pkt)

/-- The frame carries as its sender an address of the LAN that is routed to another interface
than the one it came in on. -/
def CarriesForeign (f : Frame cfg) : Prop :=
  ∃ pair ∈ learned f.bytes,
    cfg.interfaceGetSide (cfg.getInterfaceForIp pair.ipAddr) = .lan ∧
      f.intId ≠ cfg.getInterfaceForIp pair.ipAddr

instance (f : Frame cfg) : Decidable (CarriesForeign f) :=
  inferInstanceAs (Decidable (∃ pair ∈ learned f.bytes, _ ∧ _))

theorem nextHop_lan {pkt : Mem}
    (h : cfg.interfaceGetSide (cfg.getInterfaceForIp (ipDst pkt)) = .lan) :
    nextHop cfg pkt = ipDst pkt := by
  rw [nextHop, Config.localDstIp, h]

theorem respectsLan_of_run {s : Router} {tr : List (FrameStep cfg)} (h : FrameRun cfg r tr s)
    (hgood : ∀ t ∈ tr, ¬ CarriesForeign t.input) : RespectsLan tr s := by
  intro ip mac hlan hmac
  obtain ⟨intId, before, t, after, htr, ⟨hlearn, -⟩, hafter⟩ :=
    (learned_from_last h ip mac).1 hmac
  refine ⟨before, t, after, htr, ⟨hlearn, ?_⟩, hafter⟩
  by_contra hne
  exact hgood t (by simp [htr]) ⟨_, hlearn, hlan, hne⟩

theorem wanQuiet_of_not_carriesForeign {t : FrameStep cfg}
    (hstep : ethernetHandle cfg t.pre t.input = some t.post) (hgood : ¬ CarriesForeign t.input) :
    WanQuiet t := by
  intro hwan pkt hlan
  rw [nextHop_lan hlan, macOf_ethernetHandle hstep]
  refine if_neg fun hcarries => ?_
  obtain ⟨pair, hpair, hip⟩ := Option.map_eq_some_iff.1 hcarries
  refine hgood ⟨pair, hpair, hip ▸ hlan, fun hsame => ?_⟩
  -- The interface would be on both sides.
  rw [hsame, hip, hlan] at hwan
  cases hwan

/-- **Learning and interfaces.** After any run of `ethernet_handle` the map holds, for each
address, the MAC address of the last frame that carried it as its sender, and a frame changes
that of its sender only. The addresses of the LAN are learned from their own interfaces, and
never changed from the WAN, if and only if no frame of the run carries one of them as its sender
on another interface. -/
theorem learning_respects_iff {s : Router} {tr : List (FrameStep cfg)}
    (h : FrameRun cfg r tr s) :
    (∀ ip mac, macOf s.ipMacMap ip = some mac ↔ ∃ intId, LastFrom tr ip mac intId) ∧
      (∀ t ∈ tr, ∀ pkt, macOf t.post.ipMacMap (nextHop cfg pkt) ≠
          macOf t.pre.ipMacMap (nextHop cfg pkt) →
        (learned t.input.bytes).map (·.ipAddr) = some (nextHop cfg pkt)) ∧
      ((∀ before t after, tr = before ++ t :: after →
          RespectsLan (before ++ [t]) t.post ∧ WanQuiet t) ↔
        ∀ t ∈ tr, ¬ CarriesForeign t.input) := by
  refine ⟨learned_from_last h, fun t ht pkt hne => ?_, fun hall t ht => ?_, fun hgood => ?_⟩
  · obtain ⟨before, after, rfl⟩ := List.append_of_mem ht
    obtain ⟨-, hstep, -⟩ := h.cut
    rw [macOf_ethernetHandle hstep] at hne
    by_contra hip
    exact hne (if_neg hip)
  · obtain ⟨before, after, rfl⟩ := List.append_of_mem ht
    intro hbad
    obtain ⟨pair, hpair, hlan, hne⟩ := hbad
    obtain ⟨-, hstep, -⟩ := h.cut
    have hsender : (learned t.input.bytes).map (·.ipAddr) = some pair.ipAddr := by
      rw [Option.mem_def.1 hpair, Option.map_some]
    have hmac : macOf t.post.ipMacMap pair.ipAddr = some pair.macAddr := by
      rw [macOf_ethernetHandle hstep, if_pos hsender, Option.mem_def.1 hpair, Option.map_some]
    have hlast := (hall before t after rfl).1 _ _ hlan hmac
    rcases since_snoc.1 hlast with ⟨-, hsame⟩ | ⟨hno, -⟩
    · exact hne hsame
    · exact hno hsender
  · intro before t after htr
    subst htr
    obtain ⟨-, hstep, -⟩ := h.cut
    refine ⟨respectsLan_of_run h.upto fun u hu => hgood u ?_,
      wanQuiet_of_not_carriesForeign hstep (hgood t (by simp))⟩
    rcases List.mem_append.1 hu with hu | hu
    · exact List.mem_append_left _ hu
    · rw [List.mem_singleton.1 hu]
      simp

/-- A host of the LAN and the gateway of the WAN, each on its own side. -/
theorem learning_respects_own :
    ∃ tr s, FrameRun shippedConfig routerInit tr s ∧
      macOf s.ipMacMap ⟨192, 168, 1, 100⟩ = some ⟨2, 0, 0, 0, 0, 1⟩ ∧ RespectsLan tr s := by
  obtain ⟨tr, t, hrun, -, hlast⟩ := exists_run_snoc (ethernetHandle shippedConfig) routerInit
    [⟨udpFrame ⟨2, 0, 0, 0, 0, 1⟩ (⟨192, 168, 1, 100⟩, ⟨5000⟩) (⟨8, 8, 8, 8⟩, ⟨53⟩),
      ⟨0, by decide⟩, fun _ => 0⟩]
    ⟨udpFrame ⟨2, 0, 0, 0, 0, 2⟩ (⟨192, 168, 0, 1⟩, ⟨53⟩) (⟨192, 168, 0, 2⟩, ⟨53⟩),
      ⟨1, by decide⟩, fun _ => 0⟩
    (fun tr t => decide (macOf t.post.ipMacMap ⟨192, 168, 1, 100⟩ = some ⟨2, 0, 0, 0, 0, 1⟩ ∧
      ∀ u ∈ tr ++ [t], ¬ CarriesForeign u.input)) (by decide +kernel)
  obtain ⟨hmac, hgood⟩ := of_decide_eq_true hlast
  have hrespects := ((learning_respects_iff (r := routerInit) hrun).2.2.2 hgood tr t [] rfl).1
  exact ⟨tr ++ [t], t.post, hrun, hmac, hrespects⟩

/-- A frame from the WAN that the firewall ignores takes over the address of a LAN host. -/
theorem learning_respects_fails :
    ∃ tr t, FrameRun shippedConfig routerInit (tr ++ [t]) t.post ∧
      (tr ++ [t]).map (·.input) =
        [⟨udpFrame ⟨2, 0, 0, 0, 0, 1⟩ (⟨192, 168, 1, 100⟩, ⟨5000⟩) (⟨8, 8, 8, 8⟩, ⟨53⟩),
          ⟨0, by decide⟩, fun _ => 0⟩,
        ⟨udpFrame ⟨2, 0, 0, 0, 0, 0x66⟩ (⟨192, 168, 1, 100⟩, ⟨53⟩) (⟨192, 168, 1, 7⟩, ⟨53⟩),
          ⟨1, by decide⟩, fun _ => 0⟩] ∧
      ipv4Path shippedConfig (payload t.input.bytes) t.input.intId = .ignored ∧
      macOf t.pre.ipMacMap ⟨192, 168, 1, 100⟩ = some ⟨2, 0, 0, 0, 0, 1⟩ ∧
      macOf t.post.ipMacMap ⟨192, 168, 1, 100⟩ = some ⟨2, 0, 0, 0, 0, 0x66⟩ ∧
      ¬ RespectsLan (tr ++ [t]) t.post ∧ ¬ WanQuiet t := by
  obtain ⟨tr, t, hrun, hinputs, hlast⟩ := exists_run_snoc (ethernetHandle shippedConfig) routerInit
    [⟨udpFrame ⟨2, 0, 0, 0, 0, 1⟩ (⟨192, 168, 1, 100⟩, ⟨5000⟩) (⟨8, 8, 8, 8⟩, ⟨53⟩),
      ⟨0, by decide⟩, fun _ => 0⟩]
    ⟨udpFrame ⟨2, 0, 0, 0, 0, 0x66⟩ (⟨192, 168, 1, 100⟩, ⟨53⟩) (⟨192, 168, 1, 7⟩, ⟨53⟩),
      ⟨1, by decide⟩, fun _ => 0⟩
    (fun _ t => decide (ipv4Path shippedConfig (payload t.input.bytes) t.input.intId = .ignored ∧
      macOf t.pre.ipMacMap ⟨192, 168, 1, 100⟩ = some ⟨2, 0, 0, 0, 0, 1⟩ ∧
      macOf t.post.ipMacMap ⟨192, 168, 1, 100⟩ = some ⟨2, 0, 0, 0, 0, 0x66⟩ ∧
      (learned t.input.bytes).map (·.ipAddr) = some ⟨192, 168, 1, 100⟩ ∧
      t.input.intId = shippedConfig.interfaceGetWanId)) (by decide +kernel)
  obtain ⟨hpath, hpre, hpost, hsender, hwan⟩ := of_decide_eq_true hlast
  refine ⟨tr, t, hrun, hinputs, hpath, hpre, hpost, fun hrespects => ?_, fun hquiet => ?_⟩
  · rcases since_snoc.1 (hrespects _ _ (by decide) hpost) with ⟨-, hsame⟩ | ⟨hno, -⟩
    · rw [hwan] at hsame
      exact absurd hsame (by decide)
    · exact hno hsender
  · have hsame := hquiet (by rw [hwan]; rfl)
      (udpDatagram (⟨8, 8, 8, 8⟩, ⟨53⟩) (⟨192, 168, 1, 100⟩, ⟨5000⟩)) (by decide +kernel)
    have hnext : nextHop shippedConfig
        (udpDatagram (⟨8, 8, 8, 8⟩, ⟨53⟩) (⟨192, 168, 1, 100⟩, ⟨5000⟩)) = ⟨192, 168, 1, 100⟩ := by
      decide +kernel
    rw [hnext, hpre, hpost] at hsame
    exact absurd hsame (by decide)

end NaptRouter
