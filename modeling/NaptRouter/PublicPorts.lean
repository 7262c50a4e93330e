import NaptRouter.Firewall

/-!
# Public ports

Two properties of the source ports that `napt_out_handle` assigns. A LAN endpoint keeps its port
as long as the intern table does not grow (`port_stable`). Two LAN endpoints that talk to the
same remote endpoint have different ports as long as each talks through a mapping opened for
that remote endpoint and the extern table does not grow in between (`ports_differ`): only then
has the later port been tested against the earlier one.
-/

namespace NaptRouter

open ByteMemory Runs

variable {cfg : Config}

/-! ## Stability -/

/-- After a forwarded packet, the mapping of its LAN endpoint is open under the port it left
from. -/
theorem Forwards.exists_since {r s : Router} {tr : List (Ipv4Step cfg)} {t : Ipv4Step cfg}
    {P : Port} (h : Ipv4Run cfg r (tr ++ [t]) s) (hfwd : Forwards t P) :
    ∃ m, Since (Opens · m) GrowsIntern (tr ++ [t]) ∧ m.internKey = outInternKey t.input.pkt ∧
      m.publicPort = P := by
  obtain ⟨htr, hstep, -⟩ := h.cut
  have hres := hfwd.result (napt_history htr).1 hstep
  generalize t.post.napt = napt' at hres
  cases hres with
  | opened hmiss hopen =>
    have hopens : Opens t (outMapping cfg t.input.pkt P) := ⟨hfwd, hmiss, rfl⟩
    exact ⟨_, since_snoc.2 (Or.inl hopens), rfl, rfl⟩
  | reused hit hport =>
    have hgrows : ¬ GrowsIntern t := by
      intro hex
      obtain ⟨⟨m, hm⟩, -⟩ := hex
      cases hit.symm.trans hm.2.1
    obtain ⟨m, hkey, rfl, hsince⟩ := exists_opened_of_intern htr (k := outInternKey t.input.pkt)
      hfwd.protocol_ne_zero hit
    exact ⟨m, since_snoc.2 (Or.inr ⟨hgrows, hsince⟩), hkey, (hport _ rfl).symm⟩

/-- **Mapping stability.** Two packets of a run from the same LAN endpoint with the same
protocol leave with the same source port if no packet strictly between them makes the intern
table grow. -/
theorem port_stable {r s : Router} {before mid after : List (Ipv4Step cfg)}
    {t u : Ipv4Step cfg} {P P' : Port}
    (h : Ipv4Run cfg r (before ++ t :: (mid ++ u :: after)) s) (ht : Forwards t P)
    (hu : Forwards u P') (hsrc : srcEndpoint u.input.pkt = srcEndpoint t.input.pkt)
    (hproto : protocol u.input.pkt = protocol t.input.pkt)
    (hgrow : ∀ v ∈ mid, ¬ GrowsIntern v) : P' = P := by
  obtain ⟨m, hsince, hkey, rfl⟩ := ht.exists_since h.upto
  rw [← List.cons_append, ← List.append_assoc] at h
  obtain ⟨hpre, hstep, -⟩ := h.cut
  have hsince' : Since (Opens · m) GrowsIntern (before ++ t :: mid) := by
    simpa using hsince.append hgrow
  have hit := intern_of_since hpre hsince'
  have hsame : outInternKey u.input.pkt = outInternKey t.input.pkt := by
    obtain ⟨hip, hport⟩ := Prod.ext_iff.1 hsrc
    simp only [srcEndpoint] at hip hport
    simp only [outInternKey, hip, hport, hproto]
  rw [hkey, ← hsame] at hit
  have hres := hu.result (napt_history hpre).1 hstep
  generalize u.post.napt = napt' at hres
  cases hres with
  | opened hmiss => cases hit.symm.trans hmiss
  | reused hit' hport => exact hport m.toNaptEntry (Option.some.inj (hit'.symm.trans hit))

/-- A flow keeps its port while another one is opened. -/
theorem port_stable_next : ∃ t u : Ipv4Step shippedConfig, ∃ P P',
    srcEndpoint u.input.pkt = srcEndpoint t.input.pkt ∧ Forwards t P ∧ Forwards u P' ∧
      P' = P := by
  let server : IpAddr × Port := (⟨8, 8, 8, 8⟩, ⟨53⟩)
  let host : IpAddr × Port := (⟨192, 168, 1, 100⟩, ⟨5000⟩)
  let other : IpAddr × Port := (⟨192, 168, 1, 101⟩, ⟨5000⟩)
  obtain ⟨t, tr, u, hrun, -, htest⟩ := exists_run_cons_snoc (ipv4Handle shippedConfig) routerInit
    (fromLan host server 0) [fromLan other server 1] (fromLan host server 2)
    (fun t tr u => decide (srcEndpoint u.input.pkt = srcEndpoint t.input.pkt ∧
      protocol u.input.pkt = protocol t.input.pkt ∧ Forwards t ⟨1024⟩ ∧ Forwards u ⟨1024⟩ ∧
      ∀ v ∈ tr, ¬ v.pre.napt.internHashmap.Full)) (by decide +kernel)
  obtain ⟨hsrc, hproto, hfwd, hfwd', hfull⟩ := of_decide_eq_true htest
  have hrun' : Ipv4Run shippedConfig routerInit ([] ++ t :: (tr ++ u :: [])) u.post := hrun
  exact ⟨t, u, _, _, hsrc, hfwd, hfwd',
    port_stable hrun' hfwd hfwd' hsrc hproto fun v hv hg => hfull v hv hg.2⟩

/-- The sixth flow makes the intern table grow, and the first one changes its port. -/
theorem port_stable_fails :
    let host : IpAddr × Port := (⟨192, 168, 1, 100⟩, ⟨5000⟩)
    let server : IpAddr × Port := (⟨8, 8, 8, 8⟩, ⟨53⟩)
    let flow (n : Nat) : Ipv4Input shippedConfig :=
      fromLan (⟨192, 168, 1, 100⟩, ⟨UInt16.ofNat (5000 + n)⟩) server n
    ∃ tr t u, Ipv4Run shippedConfig routerInit (t :: tr ++ [u]) u.post ∧
      (t :: tr ++ [u]).map (·.input) =
        [flow 0, flow 1, flow 2, flow 3, flow 4, flow 5, fromLan host server 6] ∧
      srcEndpoint t.input.pkt = host ∧ srcEndpoint u.input.pkt = host ∧
      protocol u.input.pkt = protocol t.input.pkt ∧ Forwards t ⟨1024⟩ ∧ Forwards u ⟨1030⟩ := by
  intro host server flow
  obtain ⟨t, tr, u, hrun, hinputs, htest⟩ := exists_run_cons_snoc (ipv4Handle shippedConfig)
    routerInit (flow 0) [flow 1, flow 2, flow 3, flow 4, flow 5] (fromLan host server 6)
    (fun t _ u => decide (srcEndpoint t.input.pkt = host ∧
      srcEndpoint u.input.pkt = host ∧ protocol u.input.pkt = protocol t.input.pkt ∧
      Forwards t ⟨1024⟩ ∧ Forwards u ⟨1030⟩)) (by decide +kernel)
  exact ⟨tr, t, u, hrun, hinputs, of_decide_eq_true htest⟩

/-! ## Clashes -/

/-- **No public-port clash.** Two packets of a run from different LAN endpoints to the same
remote endpoint with the same protocol leave with different source ports if `ReturnOpen` holds
of both and no packet strictly between them makes the extern table grow. -/
theorem ports_differ {r s : Router} {before mid after : List (Ipv4Step cfg)}
    {t u : Ipv4Step cfg} {P P' : Port}
    (h : Ipv4Run cfg r (before ++ t :: (mid ++ u :: after)) s) (ht : Forwards t P)
    (hu : Forwards u P') (hsrc : srcEndpoint u.input.pkt ≠ srcEndpoint t.input.pkt)
    (hdst : dstEndpoint u.input.pkt = dstEndpoint t.input.pkt)
    (hproto : protocol u.input.pkt = protocol t.input.pkt) (hopen : ReturnOpen before t)
    (hopen' : ReturnOpen (before ++ t :: mid) u) (hgrow : ∀ v ∈ mid, ¬ GrowsExtern v) :
    P' ≠ P := by
  rintro rfl
  obtain ⟨m, hsince, hpublic, hlan, hremote, hmproto⟩ := (returnOpen_iff h.upto ht).1 hopen
  rw [← List.cons_append, ← List.append_assoc] at h
  obtain ⟨m', hsince', hpublic', hlan', hremote', hmproto'⟩ := (returnOpen_iff h.upto hu).1 hopen'
  obtain ⟨hpre, hstep, -⟩ := h.cut
  have hsince₁ : Since (Opens · m) GrowsExtern (before ++ t :: mid) := by
    simpa using hsince.append hgrow
  have hkey : m'.externKey = m.externKey :=
    externKey_eq_iff.2 ⟨by rw [hremote, hremote', hdst], by rw [hpublic, hpublic'],
      by rw [hmproto, hmproto', hproto]⟩
  have hfound := extern_of_since hpre hsince₁
  rcases since_snoc.1 hsince' with hopens | ⟨-, hsince₂⟩
  · -- The later packet opens a mapping, and has found its key free.
    have hfree := hopens.absent (napt_history hpre).1 hstep
    rw [hkey, hfound] at hfree
    cases hfree
  · -- Both mappings are in the table under one key, so they are one.
    have hfound' := extern_of_since hpre hsince₂
    rw [hkey, hfound] at hfound'
    have hentry := NaptEntry.bytes_injective (Option.some.inj hfound')
    exact hsrc (by rw [← hlan', ← hlan, Mapping.lan, Mapping.lan, hentry])

/-- Two hosts that talk to one server, with the same random numbers. -/
theorem ports_differ_two_hosts : ∃ t u : Ipv4Step shippedConfig, ∃ P P',
    dstEndpoint u.input.pkt = dstEndpoint t.input.pkt ∧ Forwards t P ∧ Forwards u P' ∧
      P' ≠ P := by
  let server : IpAddr × Port := (⟨8, 8, 8, 8⟩, ⟨53⟩)
  let host : IpAddr × Port := (⟨192, 168, 1, 100⟩, ⟨5000⟩)
  let other : IpAddr × Port := (⟨192, 168, 1, 101⟩, ⟨5000⟩)
  obtain ⟨t, tr, u, hrun, -, htest⟩ := exists_run_cons_snoc (ipv4Handle shippedConfig) routerInit
    (fromLan host server 0) [] (fromLan other server 0)
    (fun t tr u => decide (srcEndpoint u.input.pkt ≠ srcEndpoint t.input.pkt ∧
      dstEndpoint u.input.pkt = dstEndpoint t.input.pkt ∧
      protocol u.input.pkt = protocol t.input.pkt ∧ Forwards t ⟨1024⟩ ∧ Forwards u ⟨1025⟩ ∧
      InternMiss t ∧ InternMiss u ∧ tr = [])) (by decide +kernel)
  obtain ⟨hsrc, hdst, hproto, hfwd, hfwd', hmiss, hmiss', rfl⟩ := of_decide_eq_true htest
  have hrun' : Ipv4Run shippedConfig routerInit ([] ++ t :: ([] ++ u :: [])) u.post := hrun
  exact ⟨t, u, _, _, hdst, hfwd, hfwd', ports_differ hrun' hfwd hfwd' hsrc hdst hproto
    (Or.inl hmiss) (Or.inl hmiss') fun v hv => absurd hv List.not_mem_nil⟩

/-- A host that talked to another server first takes the port it got there along, untested. -/
theorem ports_differ_fails :
    let host : IpAddr × Port := (⟨192, 168, 1, 100⟩, ⟨5000⟩)
    let other : IpAddr × Port := (⟨192, 168, 1, 101⟩, ⟨5000⟩)
    let first : IpAddr × Port := (⟨8, 8, 8, 8⟩, ⟨53⟩)
    let second : IpAddr × Port := (⟨1, 1, 1, 1⟩, ⟨53⟩)
    ∃ tr t u, Ipv4Run shippedConfig routerInit (t :: tr ++ [u]) u.post ∧
      (t :: tr ++ [u]).map (·.input) =
        [fromLan host first 0, fromLan other second 0, fromLan other first 0] ∧
      srcEndpoint u.input.pkt ≠ srcEndpoint t.input.pkt ∧
      dstEndpoint u.input.pkt = dstEndpoint t.input.pkt ∧
      protocol u.input.pkt = protocol t.input.pkt ∧ Forwards t ⟨1024⟩ ∧ Forwards u ⟨1024⟩ := by
  intro host other first second
  obtain ⟨t, tr, u, hrun, hinputs, htest⟩ := exists_run_cons_snoc (ipv4Handle shippedConfig)
    routerInit (fromLan host first 0) [fromLan other second 0] (fromLan other first 0)
    (fun t _ u => decide (srcEndpoint u.input.pkt ≠ srcEndpoint t.input.pkt ∧
      dstEndpoint u.input.pkt = dstEndpoint t.input.pkt ∧
      protocol u.input.pkt = protocol t.input.pkt ∧ Forwards t ⟨1024⟩ ∧ Forwards u ⟨1024⟩))
    (by decide +kernel)
  exact ⟨tr, t, u, hrun, hinputs, of_decide_eq_true htest⟩

end NaptRouter
