import NaptRouter.Probing

/-!
# When the router stops forwarding to the WAN

`napt_out_handle` locks the mutex of the intern table, and returns without releasing it when ten
drawn ports are taken. Every later TCP or UDP packet from the LAN to the WAN waits for it. That
is the only way in which a packet can be held up (`hangs_iff`), and from then on nothing is
forwarded to the WAN and the tables do not change any more (`runs_out_freezes`).
-/

namespace NaptRouter

open ByteMemory Hashmap Runs

variable {cfg : Config} {r r' s : Router} {i : Ipv4Input cfg}

/-- The packet needs a mutex of `napt_out_handle`: it is TCP or UDP, from the LAN to the WAN. -/
def NeedsIntern (i : Ipv4Input cfg) : Prop :=
  ipv4Path cfg i.pkt i.intId = .out ∧ (transportPorts i.pkt).isSome = true

instance (i : Ipv4Input cfg) : Decidable (NeedsIntern i) := inferInstanceAs (Decidable (_ ∧ _))

/-- Its LAN endpoint has no mapping, and the ten ports that are drawn are taken. -/
def RunsOut (cfg : Config) (r : Router) (i : Ipv4Input cfg) : Prop :=
  NeedsIntern i ∧ r.napt.internHashmap.lookup (outInternKey i.pkt).bytes = none ∧
    ∀ n < 10, ¬ PortFree cfg r.napt i.pkt (i.rand n)

instance (cfg : Config) (r : Router) (i : Ipv4Input cfg) : Decidable (RunsOut cfg r i) :=
  inferInstanceAs (Decidable (_ ∧ _ ∧ _))

/-! ## One packet -/

/-- A packet waits exactly when it needs the mutex and the mutex is locked. -/
theorem ipv4Handle_eq_none (hok : r.napt.Ok) :
    ipv4Handle cfg r i = none ↔ NeedsIntern i ∧ r.napt.internHashmap.lock = true := by
  constructor
  · intro h
    refine ⟨?_, ipv4Handle_blocked hok h⟩
    rw [ipv4Handle] at h
    cases hpath : ipv4Path cfg i.pkt i.intId with
    | ignored | bridged => simp [hpath] at h
    | inc =>
      rw [hpath] at h
      obtain ⟨lan, htr⟩ := exists_naptIncTranslate hok i.pkt
      cases lan <;> simp [naptIncHandle, htr] at h
    | out =>
      rw [hpath] at h
      cases hports : transportPorts i.pkt with
      | none => simp [naptOutHandle, naptOutTranslate, hports] at h
      | some ports => exact ⟨hpath, by rw [hports, Option.isSome_some]⟩
  · rintro ⟨⟨hpath, hports⟩, hlock⟩
    obtain ⟨ports, hports⟩ := Option.isSome_iff_exists.1 hports
    have hspec := naptOutTranslate_spec cfg hok i.rand hports
    rw [if_pos hlock] at hspec
    simp [ipv4Handle, hpath, naptOutHandle, hspec]

theorem napt_of_not_needs (hok : r.napt.Ok) (h : ipv4Handle cfg r i = some r')
    (hneeds : ¬ NeedsIntern i) : r'.napt = r.napt := by
  rw [ipv4Handle] at h
  cases hpath : ipv4Path cfg i.pkt i.intId with
  | ignored =>
    rw [hpath] at h
    rw [← Option.some.inj h]
  | bridged =>
    rw [hpath] at h
    rw [← Option.some.inj h, sendIpv4_napt]
  | inc =>
    rw [hpath] at h
    exact naptIncHandle_napt hok h
  | out =>
    rw [hpath] at h
    cases hports : transportPorts i.pkt with
    | none =>
      simp only [naptOutHandle, naptOutTranslate, hports, Option.bind_eq_bind, Option.bind_some,
        Option.some.injEq] at h
      rw [← h]
    | some ports => exact absurd ⟨hpath, by rw [hports, Option.isSome_some]⟩ hneeds

/-- **One packet** leaves the mutex locked if it was, or if it runs out of ports. -/
theorem lock_ipv4Handle (hok : r.napt.Ok) (h : ipv4Handle cfg r i = some r') :
    r'.napt.internHashmap.lock = true ↔
      r.napt.internHashmap.lock = true ∨ RunsOut cfg r i := by
  by_cases hneeds : NeedsIntern i
  · have hlock : r.napt.internHashmap.lock = false := by
      rw [Bool.eq_false_iff]
      intro hlock
      rw [(ipv4Handle_eq_none hok).2 ⟨hneeds, hlock⟩] at h
      cases h
    obtain ⟨ports, hports⟩ := Option.isSome_iff_exists.1 hneeds.2
    rw [ipv4Handle, hneeds.1] at h
    cases hlookup : r.napt.internHashmap.lookup (outInternKey i.pkt).bytes with
    | some v =>
      have hspec := naptOutTranslate_spec cfg hok i.rand hports
      rw [hlock] at hspec
      obtain ⟨napt', port, htr, hres⟩ := hspec
      simp only [naptOutHandle, htr, Option.bind_eq_bind, Option.bind_some] at h
      cases hres with
      | reused hit port =>
        rw [← Option.some.inj h, sendIpv4_napt]
        simp [RunsOut, hlookup]
      | opened miss opened => cases hlookup.symm.trans miss
      | dropped miss => cases hlookup.symm.trans miss
    | none =>
      obtain ⟨napt', port, htr, hres, hfree⟩ :=
        naptOutTranslate_miss cfg hok i.rand hports hlock hlookup
      simp only [naptOutHandle, htr, Option.bind_eq_bind, Option.bind_some] at h
      -- No port was free exactly when none is returned.
      have hruns : RunsOut cfg r i ↔ port = none := by
        rw [hfree]
        exact ⟨fun hr => hr.2.2, fun htaken => ⟨hneeds, hlookup, htaken⟩⟩
      rw [hruns]
      cases hres with
      | reused hit port => cases hlookup.symm.trans hit
      | opened miss opened =>
        rw [← Option.some.inj h, sendIpv4_napt, opened.internTable.lock]
        simp
      | dropped miss =>
        rw [← Option.some.inj h]
        simp [Hashmap.setLock]
  · rw [napt_of_not_needs hok h hneeds]
    exact (or_iff_left fun hr => hneeds hr.1).symm

/-! ## Runs -/

theorem lock_of_run {tr : List (Ipv4Step cfg)} (h : Ipv4Run cfg r tr s) :
    s.napt.internHashmap.lock = true ↔ ∃ t ∈ tr, RunsOut cfg t.pre t.input := by
  induction h with
  | nil => simp [naptInit, hashmapInit]
  | snoc hrun hstep ih =>
    rw [lock_ipv4Handle (napt_history hrun).1 hstep, ih]
    simp [or_and_right, exists_or]

/-- **Which packets are held up**, for every run: exactly the TCP and UDP packets from the LAN to
the WAN, once one of them has run out of ports. -/
theorem hangs_iff {tr : List (Ipv4Step cfg)} (h : Ipv4Run cfg r tr s) (i : Ipv4Input cfg) :
    ipv4Handle cfg s i = none ↔
      NeedsIntern i ∧ ∃ t ∈ tr, RunsOut cfg t.pre t.input := by
  rw [ipv4Handle_eq_none (napt_history h).1, lock_of_run h]

/-- A LAN host sends to a server, and every port that is drawn is 1024. -/
def drawsFirst (host : UInt8) : Ipv4Input shippedConfig :=
  ⟨udpDatagram (⟨192, 168, 1, host⟩, ⟨5000⟩) (⟨8, 8, 8, 8⟩, ⟨53⟩), ⟨0, Nat.zero_lt_two⟩, fun _ => 0⟩

/-- The second host finds no port, and then the first one, which has a mapping, is held up. -/
theorem hangs_second_host :
    ∃ tr t, Ipv4Run shippedConfig routerInit (tr ++ [t]) t.post ∧
      (tr ++ [t]).map (·.input) = [drawsFirst 100, drawsFirst 101] ∧
      ipv4Handle shippedConfig t.post (drawsFirst 100) = none := by
  obtain ⟨tr, t, hrun, hinputs, hlast⟩ := exists_run_snoc (ipv4Handle shippedConfig) routerInit
    [drawsFirst 100] (drawsFirst 101)
    (fun _ t => decide (RunsOut shippedConfig t.pre t.input ∧ NeedsIntern (drawsFirst 100)))
    (by decide +kernel)
  obtain ⟨hruns, hneeds⟩ := of_decide_eq_true hlast
  exact ⟨tr, t, hrun, hinputs, (hangs_iff (r := routerInit) hrun _).2 ⟨hneeds, t, by simp, hruns⟩⟩

theorem frozen_run (hok : r.napt.Ok) (hlock : r.napt.internHashmap.lock = true)
    {tr : List (Ipv4Step cfg)} (h : Run (ipv4Handle cfg) r tr s) :
    s.napt = r.napt ∧ ∀ u ∈ tr, ∀ P, ¬ Forwards u P := by
  induction h with
  | nil => exact ⟨rfl, fun u hu => by cases hu⟩
  | @snoc tr s s' i _ hstep ih =>
    obtain ⟨hnapt, hnone⟩ := ih
    rw [← hnapt] at hok hlock
    have hneeds : ¬ NeedsIntern i := by
      intro hneeds
      rw [(ipv4Handle_eq_none hok).2 ⟨hneeds, hlock⟩] at hstep
      cases hstep
    refine ⟨(napt_of_not_needs hok hstep hneeds).trans hnapt, fun u hu P hforwards => ?_⟩
    rcases List.mem_append.1 hu with hold | hnew
    · exact hnone u hold P hforwards
    · obtain rfl := List.mem_singleton.1 hnew
      obtain ⟨ports, hports⟩ := hforwards.exists_ports
      exact hneeds ⟨hforwards.1, by rw [hports, Option.isSome_some]⟩

/-- **What a packet that runs out of ports leaves behind.** Nothing is forwarded to the WAN after
it, and the tables stay as they are. -/
theorem runs_out_freezes {before after : List (Ipv4Step cfg)} {t : Ipv4Step cfg}
    (h : Ipv4Run cfg r (before ++ t :: after) s) (ht : RunsOut cfg t.pre t.input) :
    s.napt = t.post.napt ∧ ∀ u ∈ after, ∀ P, ¬ Forwards u P := by
  have hupto := h.upto
  have hlock : t.post.napt.internHashmap.lock = true :=
    (lock_of_run hupto).2 ⟨t, by simp, ht⟩
  exact frozen_run (napt_history hupto).1 hlock h.cut.2.2

/-- The answer to the first host still comes through. -/
theorem runs_out_freezes_answer :
    ∃ t u : Ipv4Step shippedConfig, RunsOut shippedConfig t.pre t.input ∧
      u.post.napt = t.post.napt ∧ ipv4Path shippedConfig u.input.pkt u.input.intId = .inc ∧
      (naptIncTranslate u.pre.napt u.input.pkt).map (·.2) =
        some (some (⟨192, 168, 1, 100⟩, ⟨5000⟩)) ∧ ∀ P, ¬ Forwards u P := by
  let answer : Ipv4Input shippedConfig :=
    ⟨udpDatagram (⟨8, 8, 8, 8⟩, ⟨53⟩) (⟨192, 168, 0, 2⟩, ⟨1024⟩), ⟨1, by decide⟩, fun _ => 0⟩
  obtain ⟨v, tr, u, hrun, -, hlast⟩ := exists_run_cons_snoc (ipv4Handle shippedConfig) routerInit
    (drawsFirst 100) [drawsFirst 101] answer
    (fun _ tr u => tr.any fun t => decide (tr.length = 1 ∧ RunsOut shippedConfig t.pre t.input ∧
      ipv4Path shippedConfig u.input.pkt u.input.intId = .inc ∧
      (naptIncTranslate u.pre.napt u.input.pkt).map (·.2) =
        some (some (⟨192, 168, 1, 100⟩, ⟨5000⟩)))) (by decide +kernel)
  obtain ⟨t, ht, htest⟩ := List.any_eq_true.1 hlast
  obtain ⟨hlen, hruns, hinc, hdelivers⟩ := of_decide_eq_true htest
  obtain ⟨w, rfl⟩ := List.length_eq_one_iff.1 hlen
  obtain rfl := List.mem_singleton.1 ht
  have hrun' : Ipv4Run shippedConfig routerInit ([v] ++ t :: [u]) u.post := hrun
  obtain ⟨hnapt, hnone⟩ := runs_out_freezes hrun' hruns
  exact ⟨t, u, hruns, hnapt, hinc, hdelivers, hnone u List.mem_cons_self⟩

end NaptRouter
