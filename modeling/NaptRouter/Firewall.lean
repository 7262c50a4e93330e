import NaptRouter.NaptHistory

/-!
# What comes back in

Two properties of `napt_inc_handle` over whole runs. Nothing gets in that was not asked for, but
a port that lies on top of the address takes it to another host (`inbound_solicited_iff`). What
was asked for gets in exactly when the extern table has an entry for it (`return_path_iff`): a
packet that reuses the mapping of its LAN endpoint opens nothing for a new remote endpoint, and
growth of the extern table closes what was open.
-/

namespace NaptRouter

open ByteMemory Runs

variable {cfg : Config}

/-! ## Inbound lookups -/

/-- `napt_inc_handle` forwards the packet to a LAN endpoint. -/
def Delivers (cfg : Config) (r : Router) (q : Mem) (lan : IpAddr × Port) : Prop :=
  naptIncTranslate r.napt q = some (r.napt, some lan) ∧
    naptIncHandle cfg r q = some (sendIpv4 cfg r (naptIncRewrite q lan.1 lan.2))

/-- `napt_inc_handle` drops the packet and changes nothing. -/
def Drops (cfg : Config) (r : Router) (q : Mem) : Prop :=
  (naptIncTranslate r.napt q).map (·.2) = some none ∧ naptIncHandle cfg r q = some r

theorem Delivers.lan_unique {r : Router} {q : Mem} {lan lan' : IpAddr × Port}
    (h : Delivers cfg r q lan) (h' : Delivers cfg r q lan') : lan = lan' := by
  simpa using h.1.symm.trans h'.1

theorem Delivers.not_drops {r : Router} {q : Mem} {lan : IpAddr × Port}
    (h : Delivers cfg r q lan) : ¬ Drops cfg r q := by
  intro hd
  have := hd.1
  rw [h.1] at this
  cases this

/-- A TCP or UDP packet is delivered if its key is in the extern table, and dropped if not. -/
theorem inbound_cases (cfg : Config) {r : Router} (hok : r.napt.Ok) {q : Mem} {src dst : Port}
    (hports : transportPorts q = some (src, dst)) :
    (r.napt.externHashmap.lookup (incExternKey q).bytes = none ∧ Drops cfg r q) ∨
      ∃ v lan, r.napt.externHashmap.lookup (incExternKey q).bytes = some v ∧
        Delivers cfg r q lan ∧ ∀ m : Mapping, v = m.bytes → lan = m.lan := by
  rcases naptIncTranslate_spec hok hports with ⟨hnone, htr⟩ | ⟨v, lanIp, lanPort, hv, htr, hread⟩
  · exact Or.inl ⟨hnone, by rw [htr, Option.map_some],
      by simp only [naptIncHandle, htr, Option.bind_eq_bind, Option.bind_some]⟩
  · refine Or.inr ⟨v, (lanIp, lanPort), hv, ⟨htr, ?_⟩, fun m hm => ?_⟩
    · simp only [naptIncHandle, htr, Option.bind_eq_bind, Option.bind_some]
    · obtain ⟨hip, hport⟩ := hread m.toNaptEntry hm
      rw [Mapping.lan, hip, hport]

theorem headerLen_naptIncRewrite (q : Mem) (lan : IpAddr × Port) :
    headerLen (naptIncRewrite q lan.1 lan.2) = headerLen q := by
  simp only [headerLen, naptIncRewrite, setPortDst, setIpDst]
  rw [store16_apply_of_lt _ _ (by omega), Mem.write_apply_of_lt _ _ (by omega)]

/-- `napt_inc_handle` stores the port after the address, and leaves the address as it is: the
port does not lie on its last two bytes, or has the same two bytes. -/
def KeepsIpDst (q : Mem) (lan : IpAddr × Port) : Prop :=
  headerLen q = 16 → le16 (ntohs lan.2.value) = [lan.1.b2, lan.1.b3]

instance (q : Mem) (lan : IpAddr × Port) : Decidable (KeepsIpDst q lan) :=
  inferInstanceAs (Decidable (_ → _))

theorem ipDst_naptIncRewrite_iff (q : Mem) (lan : IpAddr × Port) :
    ipDst (naptIncRewrite q lan.1 lan.2) = lan.1 ↔ KeepsIpDst q lan := by
  have hlen : headerLen q % 4 = 0 := Nat.mul_mod_left ..
  rw [ipDst, IpAddr.read_eq_iff, KeepsIpDst]
  simp only [naptIncRewrite, setPortDst, setIpDst, Mem.store16]
  by_cases h16 : headerLen q = 16
  · -- The port lies on the last two bytes of the address.
    have haddr : (q.write 16 lan.1.bytes).read 16 4 = lan.1.bytes := Mem.read_write_same ..
    have hfirst : ((q.write 16 lan.1.bytes).write 18 (le16 (ntohs lan.2.value))).read 16 2 =
        [lan.1.b0, lan.1.b1] := by
      rw [Mem.read_write_disjoint _ _ (Or.inl (by omega)),
        Mem.read_slice _ 16 (n := 4) (i := 0) (by omega), haddr]
      rfl
    have hlast : ((q.write 16 lan.1.bytes).write 18 (le16 (ntohs lan.2.value))).read 18 2 =
        le16 (ntohs lan.2.value) := Mem.read_write_same ..
    rw [h16, Mem.read_add _ 16 2 2, hfirst, hlast]
    simp [IpAddr.bytes]
  · rw [Mem.read_write_disjoint _ _ (by rw [length_le16]; omega)]
    exact iff_of_true (Mem.read_write_same ..) fun h => absurd h h16

/-- The rewritten packet is addressed to the LAN endpoint. -/
theorem dstEndpoint_naptIncRewrite_iff (q : Mem) (lan : IpAddr × Port) :
    dstEndpoint (naptIncRewrite q lan.1 lan.2) = lan ↔ KeepsIpDst q lan := by
  have hport : portDst (naptIncRewrite q lan.1 lan.2) (headerLen q) = lan.2 :=
    portDst_setPortDst ..
  rw [← ipDst_naptIncRewrite_iff, Prod.ext_iff, dstEndpoint, headerLen_naptIncRewrite, hport]
  exact and_iff_left rfl

/-- **Delivery in terms of the history**: the mapping of the packet's key was opened for the
LAN endpoint, and the extern table has not grown since. -/
theorem delivers_iff {r s : Router} {tr : List (Ipv4Step cfg)} (h : Ipv4Run cfg r tr s) {q : Mem}
    {src dst : Port} (hports : transportPorts q = some (src, dst)) {lan : IpAddr × Port} :
    Delivers cfg s q lan ↔
      ∃ m, Since (Opens · m) GrowsExtern tr ∧ m.externKey = incExternKey q ∧ m.lan = lan := by
  have hcases := inbound_cases cfg (napt_history h).1 hports
  constructor
  · intro hdel
    rcases hcases with ⟨-, hdrop⟩ | ⟨v, lan', hv, hdel', hlan⟩
    · exact absurd hdrop hdel.not_drops
    · obtain ⟨m, hkey, rfl, hsince⟩ := exists_opened_of_extern h
        (k := incExternKey q) (transportPorts_eq_some hports).1 hv
      exact ⟨m, hsince, hkey, (hlan m rfl).symm.trans (hdel'.lan_unique hdel)⟩
  · intro hex
    obtain ⟨m, hsince, hkey, rfl⟩ := hex
    have hv := extern_of_since h hsince
    rw [hkey] at hv
    rcases hcases with ⟨hnone, -⟩ | ⟨v, lan', hv', hdel, hlan⟩
    · rw [hnone] at hv
      cases hv
    · rwa [hlan m (Option.some.inj (hv'.symm.trans hv))] at hdel

/-! ## Nothing unsolicited -/

/-- A packet of `before` was translated from the LAN endpoint to the remote endpoint that `t`
comes from, with the same protocol, and left from the port that `t` comes back to. -/
def AskedFor (before : List (Ipv4Step cfg)) (t : Ipv4Step cfg) (lan : IpAddr × Port) : Prop :=
  ∃ u ∈ before, Forwards u (portDst t.input.pkt (headerLen t.input.pkt)) ∧
    srcEndpoint u.input.pkt = lan ∧ dstEndpoint u.input.pkt = srcEndpoint t.input.pkt ∧
    protocol u.input.pkt = protocol t.input.pkt

/-- The packet is dropped, or it was asked for by a LAN endpoint and what `napt_inc_handle` sends
is addressed to this endpoint. -/
def Solicited (before : List (Ipv4Step cfg)) (t : Ipv4Step cfg) : Prop :=
  (Drops cfg t.pre t.input.pkt ∧ t.post = t.pre) ∨
    ∃ lan, AskedFor before t lan ∧ Delivers cfg t.pre t.input.pkt lan ∧
      t.post = sendIpv4 cfg t.pre (naptIncRewrite t.input.pkt lan.1 lan.2) ∧
      dstEndpoint (naptIncRewrite t.input.pkt lan.1 lan.2) = lan

/-- If the packet is TCP or UDP and the extern table has an entry for it, storing the port of the
entry leaves its address. -/
def EntryKeepsIpDst (napt : Napt) (q : Mem) : Prop :=
  (transportPorts q).isSome = true → ∀ m : Mapping,
    napt.externHashmap.lookup (incExternKey q).bytes = some m.bytes → KeepsIpDst q m.lan

/-- What is let in was asked for by the LAN endpoint of its entry. -/
theorem inbound_askedFor {r s : Router} {before after : List (Ipv4Step cfg)} {t : Ipv4Step cfg}
    (h : Ipv4Run cfg r (before ++ t :: after) s)
    (hinc : ipv4Path cfg t.input.pkt t.input.intId = .inc) :
    (Drops cfg t.pre t.input.pkt ∧ t.post = t.pre) ∨
      ∃ m : Mapping, (transportPorts t.input.pkt).isSome = true ∧
        t.pre.napt.externHashmap.lookup (incExternKey t.input.pkt).bytes = some m.bytes ∧
        AskedFor before t m.lan ∧ Delivers cfg t.pre t.input.pkt m.lan ∧
        t.post = sendIpv4 cfg t.pre (naptIncRewrite t.input.pkt m.lan.1 m.lan.2) := by
  obtain ⟨hbefore, hstep, -⟩ := h.cut
  have hok := (napt_history hbefore).1
  simp only [ipv4Handle, hinc] at hstep
  cases hports : transportPorts t.input.pkt with
  | none =>
    have hdrop : Drops cfg t.pre t.input.pkt := by
      simp [Drops, naptIncHandle, naptIncTranslate, hports]
    exact Or.inl ⟨hdrop, Option.some.inj (hstep.symm.trans hdrop.2)⟩
  | some ports =>
    obtain ⟨src, dst⟩ := ports
    rcases inbound_cases cfg hok hports with ⟨-, hdrop⟩ | ⟨v, lan, hv, hdel, hlan⟩
    · exact Or.inl ⟨hdrop, Option.some.inj (hstep.symm.trans hdrop.2)⟩
    · obtain ⟨m, hkey, rfl, hsince⟩ := exists_opened_of_extern hbefore
        (k := incExternKey t.input.pkt) (transportPorts_eq_some hports).1 hv
      obtain rfl := hlan m rfl
      -- The entry tells which earlier packet opened it.
      obtain ⟨u, hu, hfwd, -, hm⟩ := hsince.exists_mem
      have hfields : m.dstIp = ipSrc t.input.pkt ∧
          m.publicPort = portDst t.input.pkt (headerLen t.input.pkt) ∧
          m.dstPort = portSrc t.input.pkt (headerLen t.input.pkt) ∧
          m.protocol = protocol t.input.pkt := by
        simpa [Mapping.externKey, incExternKey] using hkey
      obtain ⟨hip, hpublic, hport, hproto⟩ := hfields
      refine Or.inr ⟨m, rfl, hv, ⟨u, hu, by rwa [← hpublic], ?_, ?_, ?_⟩, hdel,
        Option.some.inj (hstep.symm.trans hdel.2)⟩
      · rw [hm]
        rfl
      · rw [srcEndpoint, ← hip, ← hport, hm]
        rfl
      · rw [← hproto, hm]
        rfl

/-- **Firewall soundness.** In every run, a packet handled by `napt_inc_handle` is dropped, or
goes to a LAN endpoint that has asked for it, if and only if the port that is stored leaves the
address that was stored before it. -/
theorem inbound_solicited_iff {r s : Router} {before after : List (Ipv4Step cfg)}
    {t : Ipv4Step cfg} (h : Ipv4Run cfg r (before ++ t :: after) s)
    (hinc : ipv4Path cfg t.input.pkt t.input.intId = .inc) :
    Solicited before t ↔ EntryKeepsIpDst t.pre.napt t.input.pkt := by
  have hok := (napt_history h.cut.1).1
  constructor
  · intro hsol hsome m hm
    obtain ⟨⟨src, dst⟩, hports⟩ := Option.isSome_iff_exists.1 hsome
    rcases inbound_cases cfg hok hports with ⟨hnone, -⟩ | ⟨v, lan, hv, hdel, hlan⟩
    · cases hnone.symm.trans hm
    · obtain rfl := hlan m (Option.some.inj (hv.symm.trans hm))
      rcases hsol with ⟨hdrop, -⟩ | ⟨lan', -, hdel', -, haddr⟩
      · exact absurd hdrop hdel.not_drops
      · rw [hdel.lan_unique hdel']
        exact (dstEndpoint_naptIncRewrite_iff ..).1 haddr
  · intro hkeeps
    rcases inbound_askedFor h hinc with hdrop | ⟨m, hsome, hv, hasked, hdel, hpost⟩
    · exact Or.inl hdrop
    · exact Or.inr ⟨m.lan, hasked, hdel, hpost,
        (dstEndpoint_naptIncRewrite_iff ..).2 (hkeeps hsome m hv)⟩

/-- A datagram that a LAN host sends through the shipped router, while `rand()` returns `rand`,
`rand + 1` and so on. -/
def fromLan (src dst : IpAddr × Port) (rand : Nat) : Ipv4Input shippedConfig :=
  ⟨udpDatagram src dst, ⟨0, by decide⟩, fun n => rand + n⟩

/-- The answer of a server that a host has talked to is delivered to it. -/
theorem inbound_solicited_answer :
    let host : IpAddr × Port := (⟨192, 168, 1, 100⟩, ⟨5000⟩)
    let server : IpAddr × Port := (⟨8, 8, 8, 8⟩, ⟨53⟩)
    ∃ tr t, Ipv4Run shippedConfig routerInit (tr ++ [t]) t.post ∧
      srcEndpoint t.input.pkt = server ∧ AskedFor tr t host ∧
      t.post = sendIpv4 shippedConfig t.pre (naptIncRewrite t.input.pkt host.1 host.2) ∧
      dstEndpoint (naptIncRewrite t.input.pkt host.1 host.2) = host := by
  intro host server
  obtain ⟨tr, t, hrun, -, hlast⟩ := exists_run_snoc (ipv4Handle shippedConfig)
    routerInit [fromLan host server 0]
    ⟨udpDatagram server (⟨192, 168, 0, 2⟩, ⟨1024⟩), ⟨1, by decide⟩, fun _ => 0⟩
    (fun _ t => decide (ipv4Path shippedConfig t.input.pkt t.input.intId = .inc ∧
      srcEndpoint t.input.pkt = server ∧ headerLen t.input.pkt = 20 ∧
      (naptIncTranslate t.pre.napt t.input.pkt).map (·.2) = some (some host)))
    (by decide +kernel)
  obtain ⟨hinc, hserver, hlen, hdel⟩ := of_decide_eq_true hlast
  rcases (inbound_solicited_iff (r := routerInit) hrun hinc).2 fun _ _ _ h16 => by omega with
    ⟨hdrop, -⟩ | ⟨lan, hasked, hdel', hpost, haddr⟩
  · cases hdel.symm.trans hdrop.1
  · rw [hdel'.1] at hdel
    obtain rfl : lan = host := by simpa using hdel
    exact ⟨tr, t, hrun, hserver, hasked, hpost, haddr⟩

/-- A WAN packet with a header of 16 bytes that answers 192.168.1.100 goes to 192.168.1.50, which
has not sent anything: 1 and 50 are the bytes of the LAN port. -/
theorem inbound_solicited_fails :
    let cfg := shippedConfig.setWan ⟨192, 168, 4, 1⟩ ⟨255, 255, 255, 0⟩ 0
    let host : IpAddr × Port := (⟨192, 168, 1, 100⟩, ⟨306⟩)
    let other : IpAddr × Port := (⟨192, 168, 1, 50⟩, ⟨306⟩)
    let server : IpAddr × Port := (⟨8, 8, 8, 8⟩, ⟨49320⟩)
    let answer := (udpDatagram server (⟨192, 168, 4, 1⟩, ⟨0⟩)).write 0 [0x44]
    ∃ tr t, Ipv4Run cfg routerInit (tr ++ [t]) t.post ∧
      (tr ++ [t]).map (·.input) =
        [⟨udpDatagram host server, ⟨0, by decide⟩, fun _ => 1⟩,
          ⟨answer, ⟨1, by decide⟩, fun _ => 0⟩] ∧
      ipv4Path cfg t.input.pkt t.input.intId = .inc ∧
      t.post = sendIpv4 cfg t.pre (naptIncRewrite answer host.1 host.2) ∧
      dstEndpoint (naptIncRewrite answer host.1 host.2) = other ∧ ¬ AskedFor tr t other ∧
      ¬ Solicited tr t := by
  intro cfg host other server answer
  obtain ⟨tr, t, hrun, hinputs, hlast⟩ := exists_run_snoc (ipv4Handle cfg) routerInit
    [⟨udpDatagram host server, ⟨0, by decide⟩, fun _ => 1⟩]
    ⟨answer, ⟨1, by decide⟩, fun _ => 0⟩
    (fun tr t => decide (ipv4Path cfg t.input.pkt t.input.intId = .inc ∧
      (∀ u ∈ tr, srcEndpoint u.input.pkt ≠ other) ∧
      (naptIncTranslate t.pre.napt t.input.pkt).map (·.2) = some (some host)))
    (by decide +kernel)
  obtain ⟨hinc, hother, hdel⟩ := of_decide_eq_true hlast
  have hpkt : t.input.pkt = answer := by
    rw [List.map_append] at hinputs
    exact congrArg Ipv4Input.pkt (List.append_singleton_inj.1 hinputs).2
  have haddr : dstEndpoint (naptIncRewrite answer host.1 host.2) = other := by decide +kernel
  have hpost : t.post = sendIpv4 cfg t.pre (naptIncRewrite answer host.1 host.2) := by
    rcases inbound_askedFor (r := routerInit) hrun hinc with
      ⟨hdrop, -⟩ | ⟨m, -, -, -, hdel', hpost⟩
    · cases hdel.symm.trans hdrop.1
    · rw [hdel'.1] at hdel
      have hlan : m.lan = host := by simpa using hdel
      rwa [hpkt, hlan] at hpost
  refine ⟨tr, t, hrun, hinputs, hinc, hpost, haddr, fun hasked => ?_, fun hsol => ?_⟩
  · obtain ⟨u, hu, -, hsrc, -⟩ := hasked
    exact hother u hu hsrc
  · rcases hsol with ⟨hdrop, -⟩ | ⟨lan, -, hdel', -, hlan⟩
    · cases hdel.symm.trans hdrop.1
    · rw [hdel'.1] at hdel
      obtain rfl : lan = host := by simpa using hdel
      rw [hpkt, haddr] at hlan
      exact absurd hlan (by decide)

/-! ## What was asked for -/

/-- The way back to the LAN endpoint of the packet is open for the remote endpoint it goes to:
the packet makes its own mapping, or the intern table sends it from a port from which a mapping
to this very remote endpoint was opened, and the extern table has not grown since. -/
def ReturnOpen (tr : List (Ipv4Step cfg)) (t : Ipv4Step cfg) : Prop :=
  InternMiss t ∨ ∃ m e, Since (Opens · m) GrowsExtern tr ∧
    t.pre.napt.internHashmap.lookup (outInternKey t.input.pkt).bytes = some (NaptEntry.bytes e) ∧
    m.publicPort = e.publicPort ∧ m.lan = srcEndpoint t.input.pkt ∧
    m.remote = dstEndpoint t.input.pkt ∧ m.protocol = protocol t.input.pkt

/-- `ReturnOpen` says that after the packet a mapping for exactly its two endpoints is open under
the port it leaves from. -/
theorem returnOpen_iff {r s : Router} {tr : List (Ipv4Step cfg)} {t : Ipv4Step cfg} {P : Port}
    (h : Ipv4Run cfg r (tr ++ [t]) s) (hfwd : Forwards t P) :
    ReturnOpen tr t ↔ ∃ m, Since (Opens · m) GrowsExtern (tr ++ [t]) ∧ m.publicPort = P ∧
      m.lan = srcEndpoint t.input.pkt ∧ m.remote = dstEndpoint t.input.pkt ∧
      m.protocol = protocol t.input.pkt := by
  obtain ⟨htr, hstep, -⟩ := h.cut
  have hres := hfwd.result (napt_history htr).1 hstep
  generalize t.post.napt = napt' at hres
  cases hres with
  | opened hmiss hopen =>
    have hopens : Opens t (outMapping cfg t.input.pkt P) := ⟨hfwd, hmiss, rfl⟩
    exact ⟨fun _ => ⟨_, since_snoc.2 (Or.inl hopens), rfl, rfl, rfl, rfl⟩, fun _ => Or.inl hmiss⟩
  | reused hit hport =>
    -- The step opens nothing, so what is open after it was open before.
    have hopens (m : Mapping) : ¬ Opens t m := fun hm => by cases hit.symm.trans hm.2.1
    have hgrows : ¬ GrowsExtern t := fun hg => hg.1.elim hopens
    obtain ⟨m₀, -, rfl, -⟩ := exists_opened_of_intern htr (k := outInternKey t.input.pkt)
      hfwd.protocol_ne_zero hit
    obtain rfl := hport _ rfl
    simp only [since_snoc, hopens, hgrows, false_or, not_false_eq_true, true_and]
    constructor
    · intro hcase
      rcases hcase with hmiss | ⟨m, e, hsince, he, hpublic, hm⟩
      · cases hit.symm.trans hmiss
      · have hsame : m₀.publicPort = e.publicPort := hport e (Option.some.inj (hit.symm.trans he))
        exact ⟨m, hsince, hpublic.trans hsame.symm, hm⟩
    · intro hex
      obtain ⟨m, hsince, hpublic, hm⟩ := hex
      exact Or.inr ⟨m, m₀.toNaptEntry, hsince, hit, hpublic, hm⟩

/-- The packet is not dropped and is rewritten to exactly this LAN endpoint. -/
def Returns (cfg : Config) (r : Router) (q : Mem) (lan : IpAddr × Port) : Prop :=
  Delivers cfg r q lan ∧ ¬ Drops cfg r q ∧ dstEndpoint (naptIncRewrite q lan.1 lan.2) = lan

theorem returns_iff {r : Router} {q : Mem} {lan : IpAddr × Port} :
    Returns cfg r q lan ↔ Delivers cfg r q lan ∧ KeepsIpDst q lan := by
  rw [Returns, dstEndpoint_naptIncRewrite_iff]
  exact ⟨fun h => ⟨h.1, h.2.2⟩, fun h => ⟨h.1, h.1.not_drops, h.2⟩⟩

/-- **Return path.** After any run, and a packet that `napt_out_handle` forwards with source
port `P`, a packet that answers it is rewritten to the LAN endpoint it came from if and only if
`ReturnOpen` holds and the port that is stored leaves the address. -/
theorem return_path_iff {r s : Router} {tr : List (Ipv4Step cfg)} {t : Ipv4Step cfg} {P : Port}
    (h : Ipv4Run cfg r (tr ++ [t]) s) (hfwd : Forwards t P) {q : Mem}
    (hproto : protocol q = protocol t.input.pkt) (hsrc : srcEndpoint q = dstEndpoint t.input.pkt)
    (hdst : dstEndpoint q = (cfg.interfaceGetIp cfg.interfaceGetWanId, P)) :
    Returns cfg s q (srcEndpoint t.input.pkt) ↔
      ReturnOpen tr t ∧ KeepsIpDst q (srcEndpoint t.input.pkt) := by
  obtain ⟨⟨src, dst⟩, hports⟩ := hfwd.exists_ports
  have hkey : incExternKey q = (outMapping cfg t.input.pkt P).externKey := by
    obtain ⟨hip, hport⟩ := Prod.ext_iff.1 hsrc
    obtain ⟨-, hpublic⟩ := Prod.ext_iff.1 hdst
    simp only [srcEndpoint, dstEndpoint] at hip hport hpublic
    simp [incExternKey, Mapping.externKey, outMapping, hip, hport, hpublic, hproto]
  rw [returns_iff]
  refine and_congr_left' ?_
  rw [delivers_iff h (transportPorts_of_protocol hports hproto), hkey, returnOpen_iff h hfwd]
  refine exists_congr fun m => ?_
  rw [externKey_eq_iff]
  constructor
  · intro hex
    obtain ⟨hsince, ⟨hremote, hpublic, hmproto⟩, hlan⟩ := hex
    exact ⟨hsince, hpublic, hlan, hremote, hmproto⟩
  · intro hex
    obtain ⟨hsince, hpublic, hlan, hremote, hmproto⟩ := hex
    exact ⟨hsince, ⟨hremote, hpublic, hmproto⟩, hlan⟩

/-- A host that talks to one server and then to a second one gets no answer from the second:
its packet leaves through the first mapping, and nothing is opened for the second server. -/
theorem return_path_fails :
    let host : IpAddr × Port := (⟨192, 168, 1, 100⟩, ⟨5000⟩)
    let first : IpAddr × Port := (⟨8, 8, 8, 8⟩, ⟨53⟩)
    let second : IpAddr × Port := (⟨1, 1, 1, 1⟩, ⟨53⟩)
    let reply := udpDatagram second (⟨192, 168, 0, 2⟩, ⟨1024⟩)
    ∃ tr t, Ipv4Run shippedConfig routerInit (tr ++ [t]) t.post ∧
      (tr ++ [t]).map (·.input) = [fromLan host first 0, fromLan host second 0] ∧
      Forwards t ⟨1024⟩ ∧ protocol reply = protocol t.input.pkt ∧
      srcEndpoint reply = dstEndpoint t.input.pkt ∧
      dstEndpoint reply = (shippedConfig.interfaceGetIp shippedConfig.interfaceGetWanId, ⟨1024⟩) ∧
      ¬ Returns shippedConfig t.post reply (srcEndpoint t.input.pkt) := by
  intro host first second reply
  obtain ⟨tr, t, hrun, hinputs, hlast⟩ := exists_run_snoc (ipv4Handle shippedConfig)
    routerInit [fromLan host first 0] (fromLan host second 0)
    (fun _ t => decide (Forwards t ⟨1024⟩ ∧ protocol reply = protocol t.input.pkt ∧
      srcEndpoint reply = dstEndpoint t.input.pkt ∧
      (naptIncTranslate t.post.napt reply).map (·.2) = some none)) (by decide +kernel)
  obtain ⟨hfwd, hproto, hsrc, hdrop⟩ := of_decide_eq_true hlast
  refine ⟨tr, t, hrun, hinputs, hfwd, hproto, hsrc, by decide +kernel, fun hret => ?_⟩
  rw [hret.1.1] at hdrop
  cases hdrop

/-- The first packet of a host opens its way back. -/
theorem return_path_first :
    ∃ tr t q, Ipv4Run shippedConfig routerInit (tr ++ [t]) t.post ∧ Forwards t ⟨1024⟩ ∧
      Returns shippedConfig t.post q (srcEndpoint t.input.pkt) := by
  let host : IpAddr × Port := (⟨192, 168, 1, 100⟩, ⟨5000⟩)
  let server : IpAddr × Port := (⟨8, 8, 8, 8⟩, ⟨53⟩)
  let reply := udpDatagram server (⟨192, 168, 0, 2⟩, ⟨1024⟩)
  obtain ⟨tr, t, hrun, -, hlast⟩ := exists_run_snoc (ipv4Handle shippedConfig)
    routerInit [] (fromLan host server 0)
    (fun _ t => decide (Forwards t ⟨1024⟩ ∧ protocol reply = protocol t.input.pkt ∧
      srcEndpoint reply = dstEndpoint t.input.pkt ∧
      KeepsIpDst reply (srcEndpoint t.input.pkt) ∧
      t.pre.napt.internHashmap.lookup (outInternKey t.input.pkt).bytes = none))
    (by decide +kernel)
  obtain ⟨hfwd, hproto, hsrc, hkeeps, hmiss⟩ := of_decide_eq_true hlast
  exact ⟨tr, t, reply, hrun, hfwd,
    (return_path_iff (r := routerInit) hrun hfwd hproto hsrc (by decide +kernel)).2
      ⟨Or.inl hmiss, hkeeps⟩⟩

end NaptRouter
