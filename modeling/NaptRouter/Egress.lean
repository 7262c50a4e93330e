import NaptRouter.Firewall
import NaptRouter.QueueFlow

/-!
# What leaves on the WAN side

A packet that `napt_out_handle` has translated carries the address of the WAN interface, unless
its header is so short that the port is written over it. What `napt_inc_handle` has translated
back goes wherever `get_interface_for_ip` routes the `lan_ip` of the entry, and that is the source
address of an earlier packet from the LAN, unchecked. So nothing untranslated leaves on the WAN
side exactly as long as no packet comes in for an entry with such an address (`wan_clean_iff`).
-/

namespace NaptRouter

open ByteMemory Runs

variable {cfg : Config}

/-! ## The packet that is sent -/

/-- The packet that `ipv4_handle` hands to `send_ipv4`. -/
def sentPacket (cfg : Config) (napt : Napt) (i : Ipv4Input cfg) : Option Mem :=
  match ipv4Path cfg i.pkt i.intId with
  | .ignored => none
  | .inc => do
      let (_, endpoint) ← naptIncTranslate napt i.pkt
      let (lanIp, lanPort) ← endpoint
      some (naptIncRewrite i.pkt lanIp lanPort)
  | .bridged => some i.pkt
  | .out => do
      let (_, port) ← naptOutTranslate cfg napt i.pkt i.rand
      let newPortSrc ← port
      some (naptOutRewrite cfg i.pkt newPortSrc)

/-- The tables after `ipv4_handle`, if it returns. -/
def handledNapt (cfg : Config) (napt : Napt) (i : Ipv4Input cfg) : Option Napt :=
  match ipv4Path cfg i.pkt i.intId with
  | .ignored | .bridged => some napt
  | .inc => (naptIncTranslate napt i.pkt).map (·.1)
  | .out => (naptOutTranslate cfg napt i.pkt i.rand).map (·.1)

/-- `ipv4_handle` changes the tables, and sends that packet if there is one. -/
theorem ipv4Handle_eq (cfg : Config) (r : Router) (i : Ipv4Input cfg) :
    ipv4Handle cfg r i = (handledNapt cfg r.napt i).map fun napt =>
      (sentPacket cfg r.napt i).elim { r with napt } (sendIpv4 cfg { r with napt }) := by
  rw [ipv4Handle, handledNapt, sentPacket]
  cases ipv4Path cfg i.pkt i.intId with
  | ignored => rfl
  | bridged => rfl
  | inc =>
    simp only [naptIncHandle]
    cases naptIncTranslate r.napt i.pkt with
    | none => rfl
    | some result =>
      obtain ⟨napt, endpoint⟩ := result
      cases endpoint with
      | none => rfl
      | some lan => rfl
  | out =>
    simp only [naptOutHandle]
    cases naptOutTranslate cfg r.napt i.pkt i.rand with
    | none => rfl
    | some result =>
      obtain ⟨napt, port⟩ := result
      cases port with
      | none => rfl
      | some newPortSrc => rfl

theorem ipv4Handle_sent {r r' : Router} {i : Ipv4Input cfg} (h : ipv4Handle cfg r i = some r') :
    ∃ napt, r' = (sentPacket cfg r.napt i).elim { r with napt }
      (sendIpv4 cfg { r with napt }) := by
  rw [ipv4Handle_eq] at h
  obtain ⟨napt, -, hr'⟩ := Option.map_eq_some_iff.1 h
  exact ⟨napt, hr'.symm⟩

/-- `send_ipv4` passes the packet on, with its checksums filled in: it is written to the
interface of its destination, or a copy is queued. All other frames are ARP requests. -/
inductive Carries (cfg : Config) (pkt : Mem) : Event → Prop
  | write (dstMac srcMac : MacAddr) : Carries cfg pkt
      (.write (cfg.getInterfaceForIp (ipDst pkt)) (ipv4Frame dstMac srcMac (fillChecksums pkt)
        (ntohs (totalLength (fillChecksums pkt))).toNat))
  | queued (ptr : Nat) : Carries cfg pkt
      (.queued ⟨ptr, Mem.zero.write 0 ((fillChecksums pkt).read 0
        (ntohs (totalLength (fillChecksums pkt))).toNat)⟩ (nextHop cfg pkt))
  | arp (intId : cfg.IntId) (targetIp : IpAddr) : Carries cfg pkt
      (.write intId (MacAddr.broadcast.bytes ++ (cfg.interfaceGetMacAddr intId).bytes ++
        le16 (ntohs ethertypeArp) ++ (arpRequest cfg intId targetIp).bytes))

theorem sendArp_log (cfg : Config) (r : Router) (pkt : Mem) (intId : cfg.IntId)
    (targetIp : IpAddr) :
    ∃ es, (sendArp cfg r (arpRequest cfg intId targetIp) intId).log = r.log ++ es ∧
      ∀ e ∈ es, Carries cfg pkt e := by
  unfold sendArp
  cases cfg.interfaceGetType intId with
  | ether => exact ⟨[_], rfl, fun e he => List.mem_singleton.1 he ▸ .arp intId targetIp⟩
  | wifi => exact ⟨[], by simp, by simp⟩
  | unknown => exact ⟨[], by simp, by simp⟩

theorem sendIpv4_log (cfg : Config) (r : Router) (pkt : Mem) :
    ∃ es, (sendIpv4 cfg r pkt).log = r.log ++ es ∧ ∀ e ∈ es, Carries cfg pkt e := by
  cases hres : hasMacForIp r.ipMacMap (nextHop cfg pkt) with
  | true =>
    rw [sendIpv4_resolved hres]
    split_ifs
    · exact ⟨[_], rfl, fun e he => List.mem_singleton.1 he ▸ .write _ _⟩
    · exact ⟨[], by simp, by simp⟩
  | false =>
    have hqueued : Carries cfg pkt (.queued (queuedCopy r pkt) (nextHop cfg pkt)) :=
      .queued r.copies
    rw [sendIpv4_unresolved hres, timerAddPacket]
    cases appendToNode (queuedCopy r pkt) (nextHop cfg pkt) r.deltaList with
    | some nodes => exact ⟨[_], rfl, fun e he => List.mem_singleton.1 he ▸ hqueued⟩
    | none =>
      obtain ⟨es, hlog, hes⟩ := sendArp_log cfg { r with copies := r.copies + 1 } pkt
        (cfg.getInterfaceForIp (ipDst pkt)) (nextHop cfg pkt)
      refine ⟨es ++ [.queued (queuedCopy r pkt) (nextHop cfg pkt)], ?_, fun e he => ?_⟩
      · rw [← List.append_assoc, ← hlog, Router.emit_log]
        split <;> rfl
      · rcases List.mem_append.1 he with he | he
        · exact hes e he
        · exact List.mem_singleton.1 he ▸ hqueued

/-! ## Rewritten packets -/

theorem headerLen_naptOutRewrite {pkt : Mem} (P : Port) (h : 16 ≤ headerLen pkt) :
    headerLen (naptOutRewrite cfg pkt P) = headerLen pkt := by
  refine headerLen_congr ?_
  rw [naptOutRewrite, setPortSrc, store16_apply_of_lt _ _ (by omega), setIpSrc,
    Mem.write_apply_of_lt _ _ (by decide)]

theorem ipSrc_naptOutRewrite {pkt : Mem} (P : Port) (h : 16 ≤ headerLen pkt) :
    ipSrc (fillChecksums (naptOutRewrite cfg pkt P)) =
      cfg.interfaceGetIp cfg.interfaceGetWanId := by
  have hlen : headerLen (naptOutRewrite cfg pkt P) = headerLen pkt :=
    headerLen_naptOutRewrite P h
  have hsums : (fillChecksums (naptOutRewrite cfg pkt P)).read 12 4 =
      (naptOutRewrite cfg pkt P).read 12 4 :=
    Mem.read_congr fun i hi => fillChecksums_apply (by omega) (by omega) (by omega)
  rw [ipSrc, IpAddr.read_eq_iff, hsums, naptOutRewrite, setPortSrc, Mem.store16,
    Mem.read_write_disjoint _ _ (Or.inl (by omega))]
  exact Mem.read_write_same ..

/-- Where `napt_inc_handle` sends a packet. With a header of 16 bytes, the port is written over
the last two bytes of the address. -/
def incTarget (pkt : Mem) (lan : IpAddr × Port) : IpAddr :=
  if headerLen pkt = 16 then
    .read ((Mem.zero.write 0 lan.1.bytes).store16 2 (ntohs lan.2.value)) 0
  else lan.1

theorem ipDst_naptIncRewrite (pkt : Mem) (lanIp : IpAddr) (lanPort : Port) :
    ipDst (naptIncRewrite pkt lanIp lanPort) = incTarget pkt (lanIp, lanPort) := by
  rw [incTarget]
  split_ifs with h16
  · apply IpAddr.read_congr
    apply Mem.read_congr
    intro i hi
    rw [naptIncRewrite, setPortDst, h16]
    obtain rfl | rfl | rfl | rfl : i = 0 ∨ i = 1 ∨ i = 2 ∨ i = 3 := by omega
    all_goals rfl
  · -- The other lengths are below 16 or above it by a whole word.
    have hfour : headerLen pkt % 4 = 0 := Nat.mul_mod_left _ _
    rw [ipDst, IpAddr.read_eq_iff, naptIncRewrite, setPortDst, Mem.store16,
      Mem.read_write_disjoint _ _ (by rw [length_le16]; omega)]
    exact Mem.read_write_same ..

/-! ## The property and its condition -/

/-- What the step sends to the WAN side has the address of the WAN interface as its source, and
what it has translated back goes to the LAN side. -/
structure WanClean (t : Ipv4Step cfg) : Prop where
  translated : ∀ pkt ∈ sentPacket cfg t.pre.napt t.input,
    cfg.interfaceGetSide (cfg.getInterfaceForIp (ipDst pkt)) = .wan →
      ipSrc (fillChecksums pkt) = cfg.interfaceGetIp cfg.interfaceGetWanId
  inbound : ∀ pkt ∈ sentPacket cfg t.pre.napt t.input,
    ipv4Path cfg t.input.pkt t.input.intId = .inc →
      cfg.interfaceGetSide (cfg.getInterfaceForIp (ipDst pkt)) = .lan

/-- A packet to be translated on its way out has a header of less than 16 bytes: the source port
is written into the header, from byte 12 on over the new source address. -/
def ShortHeader (i : Ipv4Input cfg) : Prop :=
  ipv4Path cfg i.pkt i.intId = .out ∧ (transportPorts i.pkt).isSome = true ∧ headerLen i.pkt < 16

instance (i : Ipv4Input cfg) : Decidable (ShortHeader i) :=
  inferInstanceAs (Decidable (_ ∧ _ ∧ _))

/-- An inbound packet has an entry that sends it to the WAN side. -/
def Hairpins (s : Router) (i : Ipv4Input cfg) : Prop :=
  ipv4Path cfg i.pkt i.intId = .inc ∧ (transportPorts i.pkt).isSome = true ∧
    ∃ e : NaptEntry, s.napt.externHashmap.lookup (incExternKey i.pkt).bytes = some e.bytes ∧
      cfg.interfaceGetSide (cfg.getInterfaceForIp (incTarget i.pkt (e.lanIp, e.lanPort))) = .wan

theorem ipv4Path_bridged {pkt : Mem} {intId : cfg.IntId} (h : ipv4Path cfg pkt intId = .bridged) :
    cfg.interfaceGetSide (cfg.getInterfaceForIp (ipDst pkt)) = .lan := by
  simp only [ipv4Path] at h
  split_ifs at h
  assumption

theorem side_ne_lan {side : Side} : side ≠ .lan ↔ side = .wan := by
  cases side <;> decide

theorem wanClean_of_ne_inc {t : Ipv4Step cfg}
    (hinc : ipv4Path cfg t.input.pkt t.input.intId ≠ .inc) (hshort : ¬ ShortHeader t.input) :
    WanClean t := by
  refine ⟨fun pkt hpkt hwan => ?_, fun _ _ hpath => absurd hpath hinc⟩
  cases hpath : ipv4Path cfg t.input.pkt t.input.intId with
  | ignored => simp [sentPacket, hpath] at hpkt
  | inc => exact absurd hpath hinc
  | bridged =>
    obtain rfl : t.input.pkt = pkt := by simpa [sentPacket, hpath] using hpkt
    rw [ipv4Path_bridged hpath] at hwan
    cases hwan
  | out =>
    rw [sentPacket, hpath] at hpkt
    obtain ⟨⟨napt, port⟩, htr, hpkt⟩ := Option.bind_eq_some_iff.1 hpkt
    obtain ⟨P, rfl, hpkt⟩ := Option.bind_eq_some_iff.1 hpkt
    have hlen : 16 ≤ headerLen t.input.pkt := by
      by_contra hlt
      exact hshort ⟨hpath, naptOutTranslate_isSome htr, Nat.lt_of_not_le hlt⟩
    rw [← Option.some.inj hpkt]
    exact ipSrc_naptOutRewrite P hlen

/-- A packet that does is clean unless its entry sends it back. -/
theorem wanClean_inc_iff {r : Router} {tr : List (Ipv4Step cfg)} {t : Ipv4Step cfg}
    (h : Ipv4Run cfg r tr t.pre) (hpath : ipv4Path cfg t.input.pkt t.input.intId = .inc) :
    WanClean t ↔ ¬ Hairpins t.pre t.input := by
  have hok := (napt_history h).1
  cases hports : transportPorts t.input.pkt with
  | none =>
    have hnone : sentPacket cfg t.pre.napt t.input = none := by
      simp [sentPacket, hpath, naptIncTranslate, hports]
    refine iff_of_true ⟨by simp [hnone], by simp [hnone]⟩ fun hbad => ?_
    simpa [hports] using hbad.2.1
  | some ports =>
    obtain ⟨src, dst⟩ := ports
    rcases naptIncTranslate_spec hok hports with
      ⟨hmiss, htr⟩ | ⟨v, lanIp, lanPort, hv, htr, hread⟩
    · have hnone : sentPacket cfg t.pre.napt t.input = none := by
        simp [sentPacket, hpath, htr]
      refine iff_of_true ⟨by simp [hnone], by simp [hnone]⟩ fun hbad => ?_
      obtain ⟨-, -, e, he, -⟩ := hbad
      cases hmiss.symm.trans he
    · -- What the table holds was opened by an earlier packet.
      obtain ⟨m, -, rfl, -⟩ := exists_opened_of_extern h (k := incExternKey t.input.pkt)
        (transportPorts_eq_some hports).1 hv
      obtain ⟨rfl, rfl⟩ := hread m.toNaptEntry rfl
      have hsent : sentPacket cfg t.pre.napt t.input =
          some (naptIncRewrite t.input.pkt m.lanIp m.lanPort) := by
        simp [sentPacket, hpath, htr]
      have hdst := ipDst_naptIncRewrite t.input.pkt m.lanIp m.lanPort
      constructor
      · intro hclean hbad
        obtain ⟨-, -, e, he, hwan⟩ := hbad
        obtain rfl := NaptEntry.bytes_injective (Option.some.inj (hv.symm.trans he))
        have hlan := hclean.inbound _ hsent hpath
        rw [hdst, hwan] at hlan
        cases hlan
      · intro hgood
        have hlan : cfg.interfaceGetSide (cfg.getInterfaceForIp
            (ipDst (naptIncRewrite t.input.pkt m.lanIp m.lanPort))) = .lan := by
          by_contra hne
          rw [hdst] at hne
          exact hgood ⟨hpath, by rw [hports, Option.isSome_some], m.toNaptEntry, hv,
            side_ne_lan.1 hne⟩
        refine ⟨fun pkt hpkt hwan => ?_, fun pkt hpkt _ => ?_⟩
        · obtain rfl := Option.some.inj (hsent.symm.trans hpkt)
          rw [hlan] at hwan
          cases hwan
        · obtain rfl := Option.some.inj (hsent.symm.trans hpkt)
          exact hlan

/-- **One packet**, other than an outbound one with a short header. -/
theorem wanClean_iff {r : Router} {tr : List (Ipv4Step cfg)} {t : Ipv4Step cfg}
    (h : Ipv4Run cfg r tr t.pre) (hshort : ¬ ShortHeader t.input) :
    WanClean t ↔ ¬ Hairpins t.pre t.input := by
  by_cases hinc : ipv4Path cfg t.input.pkt t.input.intId = .inc
  · exact wanClean_inc_iff h hinc
  · exact iff_of_true (wanClean_of_ne_inc hinc hshort) fun hbad => hinc hbad.1

/-- Such an entry was made for an earlier packet from the LAN, with the address it is sent to as
its source address. -/
theorem Hairpins.exists_source {r s : Router} {tr : List (Ipv4Step cfg)} {i : Ipv4Input cfg}
    (h : Ipv4Run cfg r tr s) (hbad : Hairpins s i) :
    ∃ u ∈ tr, ipv4Path cfg u.input.pkt u.input.intId = .out ∧
      cfg.interfaceGetSide (cfg.getInterfaceForIp
        (incTarget i.pkt (srcEndpoint u.input.pkt))) = .wan := by
  obtain ⟨-, hsome, e, he, hwan⟩ := hbad
  obtain ⟨⟨src, dst⟩, hports⟩ := Option.isSome_iff_exists.1 hsome
  obtain ⟨m, -, hbytes, hsince⟩ := exists_opened_of_extern h (k := incExternKey i.pkt)
    (transportPorts_eq_some hports).1 he
  obtain ⟨u, hu, hf, -, hm⟩ := hsince.exists_mem
  refine ⟨u, hu, hf.1, ?_⟩
  have hsource : srcEndpoint u.input.pkt = (e.lanIp, e.lanPort) := by
    rw [← NaptEntry.bytes_injective hbytes, hm]
    rfl
  rwa [hsource]

/-- **Egress.** In every run, all that a step adds to the log carries the packet it sends, or asks
for a MAC address. In a run without short headers every step is clean if and only if no packet
of it hairpins; and one that does has had an earlier packet from the LAN, whose source is on the
WAN side. -/
theorem wan_clean_iff {r s : Router} {tr : List (Ipv4Step cfg)} (h : Ipv4Run cfg r tr s)
    (hshort : ∀ t ∈ tr, ¬ ShortHeader t.input) :
    (∀ t ∈ tr, ∃ es, t.post.log = t.pre.log ++ es ∧
      ∀ e ∈ es, ∃ pkt ∈ sentPacket cfg t.pre.napt t.input, Carries cfg pkt e) ∧
      ((∀ t ∈ tr, WanClean t) ↔ ∀ t ∈ tr, ¬ Hairpins t.pre t.input) ∧
      ∀ before t after, tr = before ++ t :: after → Hairpins t.pre t.input →
        ∃ u ∈ before, ipv4Path cfg u.input.pkt u.input.intId = .out ∧
          cfg.interfaceGetSide (cfg.getInterfaceForIp
            (incTarget t.input.pkt (srcEndpoint u.input.pkt))) = .wan := by
  refine ⟨fun t ht => ?_, forall₂_congr fun t ht => ?_, ?_⟩
  · obtain ⟨before, after, rfl⟩ := List.append_of_mem ht
    obtain ⟨-, hstep, -⟩ := h.cut
    obtain ⟨napt, hpost⟩ := ipv4Handle_sent hstep
    cases hsent : sentPacket cfg t.pre.napt t.input with
    | none =>
      rw [hsent, Option.elim_none] at hpost
      exact ⟨[], by rw [hpost, List.append_nil], by simp⟩
    | some pkt =>
      rw [hsent, Option.elim_some] at hpost
      obtain ⟨es, hlog, hes⟩ := sendIpv4_log cfg { t.pre with napt } pkt
      exact ⟨es, by rw [hpost, hlog], fun e he => ⟨pkt, rfl, hes e he⟩⟩
  · obtain ⟨before, after, rfl⟩ := List.append_of_mem ht
    obtain ⟨hbefore, -, -⟩ := h.cut
    exact wanClean_iff hbefore (hshort t ht)
  · rintro before t after rfl hbad
    exact hbad.exists_source h.cut.1

/-- The answer to a LAN host goes to the LAN. -/
theorem wan_clean_answer :
    ∃ tr t pkt, Ipv4Run shippedConfig routerInit (tr ++ [t]) t.post ∧
      ipv4Path shippedConfig t.input.pkt t.input.intId = .inc ∧
      sentPacket shippedConfig t.pre.napt t.input = some pkt ∧
      ipDst pkt = ⟨192, 168, 1, 100⟩ ∧ ∀ u ∈ tr ++ [t], WanClean u := by
  obtain ⟨tr, t, hrun, -, hlast⟩ := exists_run_snoc (ipv4Handle shippedConfig) routerInit
    [fromLan (⟨192, 168, 1, 100⟩, ⟨5000⟩) (⟨8, 8, 8, 8⟩, ⟨53⟩) 0]
    ⟨udpDatagram (⟨8, 8, 8, 8⟩, ⟨53⟩) (⟨192, 168, 0, 2⟩, ⟨1024⟩), ⟨1, by decide⟩, fun _ => 0⟩
    (fun tr t => decide (ipv4Path shippedConfig t.input.pkt t.input.intId = .inc ∧
      (sentPacket shippedConfig t.pre.napt t.input).map ipDst = some ⟨192, 168, 1, 100⟩ ∧
      (∀ u ∈ tr ++ [t], ¬ ShortHeader u.input) ∧
      ∀ u ∈ tr ++ [t], ∀ w ∈ tr ++ [t],
        shippedConfig.interfaceGetSide (shippedConfig.getInterfaceForIp
          (incTarget u.input.pkt (srcEndpoint w.input.pkt))) = .wan →
        ipv4Path shippedConfig w.input.pkt w.input.intId ≠ .out))
    (by decide +kernel)
  obtain ⟨hinc, hdst, hshort, hsources⟩ := of_decide_eq_true hlast
  obtain ⟨pkt, hsent, hpkt⟩ := Option.map_eq_some_iff.1 hdst
  obtain ⟨-, hclean, hhistory⟩ := wan_clean_iff (r := routerInit) hrun hshort
  refine ⟨tr, t, pkt, hrun, hinc, hsent, hpkt, hclean.2 fun u hu hbad => ?_⟩
  obtain ⟨before, after, htr⟩ := List.append_of_mem hu
  obtain ⟨w, hw, hout, hwan⟩ := hhistory before u after htr hbad
  exact hsources u hu w (by rw [htr]; exact List.mem_append_left _ hw) hwan hout

/-- A LAN host sends one packet with the source `8.8.4.4`. The answer is translated back to that
address, and queued for the gateway of the WAN with the server as its source. -/
theorem wan_clean_fails :
    ∃ tr t pkt, Ipv4Run shippedConfig routerInit (tr ++ [t]) t.post ∧
      (tr ++ [t]).map (·.input) = [fromLan (⟨8, 8, 4, 4⟩, ⟨5000⟩) (⟨8, 8, 8, 8⟩, ⟨53⟩) 0,
        ⟨udpDatagram (⟨8, 8, 8, 8⟩, ⟨53⟩) (⟨192, 168, 0, 2⟩, ⟨1024⟩), ⟨1, by decide⟩,
          fun _ => 0⟩] ∧
      ipv4Path shippedConfig t.input.pkt t.input.intId = .inc ∧
      sentPacket shippedConfig t.pre.napt t.input = some pkt ∧
      ipDst pkt = ⟨8, 8, 4, 4⟩ ∧ ipSrc (fillChecksums pkt) = ⟨8, 8, 8, 8⟩ ∧
      (t.post.log.filterMap Event.queues).map (fun p => (p.1, ipSrc p.2.pkt)) =
        [(⟨192, 168, 0, 1⟩, ⟨192, 168, 0, 2⟩), (⟨192, 168, 0, 1⟩, ⟨8, 8, 8, 8⟩)] ∧
      ¬ WanClean t := by
  obtain ⟨tr, t, hrun, hinputs, hlast⟩ := exists_run_snoc (ipv4Handle shippedConfig) routerInit
    [fromLan (⟨8, 8, 4, 4⟩, ⟨5000⟩) (⟨8, 8, 8, 8⟩, ⟨53⟩) 0]
    ⟨udpDatagram (⟨8, 8, 8, 8⟩, ⟨53⟩) (⟨192, 168, 0, 2⟩, ⟨1024⟩), ⟨1, by decide⟩, fun _ => 0⟩
    (fun _ t => decide (ipv4Path shippedConfig t.input.pkt t.input.intId = .inc ∧
      (sentPacket shippedConfig t.pre.napt t.input).map
        (fun pkt => (ipDst pkt, ipSrc (fillChecksums pkt))) =
          some (⟨8, 8, 4, 4⟩, ⟨8, 8, 8, 8⟩) ∧
      (t.post.log.filterMap Event.queues).map (fun p => (p.1, ipSrc p.2.pkt)) =
        [(⟨192, 168, 0, 1⟩, ⟨192, 168, 0, 2⟩), (⟨192, 168, 0, 1⟩, ⟨8, 8, 8, 8⟩)]))
    (by decide +kernel)
  obtain ⟨hinc, hsent, hqueued⟩ := of_decide_eq_true hlast
  obtain ⟨pkt, hpkt, haddrs⟩ := Option.map_eq_some_iff.1 hsent
  obtain ⟨hdst, hsrc⟩ := Prod.ext_iff.1 haddrs
  refine ⟨tr, t, pkt, hrun, hinputs, hinc, hpkt, hdst, hsrc, hqueued, fun hclean => ?_⟩
  have hlan := hclean.inbound pkt hpkt hinc
  simp only at hdst
  rw [hdst] at hlan
  revert hlan
  decide +kernel

end NaptRouter
