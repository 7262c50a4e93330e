import NaptRouter.Egress
import NaptRouter.ReceivedLength
import NaptRouter.Threads

/-!
# The loop of `thread_start`

Each thread reads into one buffer, and `ethernet_handle` works in that buffer: what the router
writes into a packet is still there at the next `read`, behind the bytes that it returns. The
number of these bytes is not looked at.

As long as every frame that is received holds what the router reads of it then, the buffers do not
matter, and the threads do what they would do with a new buffer for each frame
(`read_loop_fresh`). When `read` fails, the last frame is handled once more, as the router left
it (`failed_read_learns`).
-/

namespace NaptRouter

open ByteMemory Runs

variable {cfg : Config}

/-- The router, and the buffer of each thread. -/
structure Readers (cfg : Config) where
  router : Router
  buffer : cfg.IntId → Mem

/-- What `read` puts into the buffer of a thread, nothing if it fails, and what `rand()` returns
while the frame is handled. -/
structure Reception (cfg : Config) where
  bytes : List UInt8
  intId : cfg.IntId
  rand : Nat → Nat

inductive ReadInput (cfg : Config)
  | received (x : Reception cfg)
  | timer
  | elapse (nsec : Nat)

/-- The frame in the buffer after `read`. -/
def Reception.frame (x : Reception cfg) (buffer : Mem) : Frame cfg :=
  ⟨buffer.write 0 x.bytes, x.intId, x.rand⟩

/-- The buffer after `ethernet_handle`: a packet that is sent is rewritten in place, and its
checksums are filled in. -/
def handledBuffer (cfg : Config) (r : Router) (f : Frame cfg) : Mem :=
  if ntohs (ethertype f.bytes) = ethertypeIpv4 then
    match sentPacket cfg r.napt { pkt := payload f.bytes, intId := f.intId, rand := f.rand } with
    | none => f.bytes
    | some pkt => fun i =>
        if i < sizeofEthernetHdr then f.bytes i else fillChecksums pkt (i - sizeofEthernetHdr)
  else f.bytes

def readStep (cfg : Config) (s : Readers cfg) : ReadInput cfg → Option (Readers cfg)
  | .received x =>
      let f := x.frame (s.buffer x.intId)
      (ethernetHandle cfg s.router f).map fun router =>
        { router, buffer := Function.update s.buffer x.intId (handledBuffer cfg s.router f) }
  | .timer => some { s with router := timerHandler cfg s.router }
  | .elapse nsec => some { s with router := { s.router with timer := s.router.timer - nsec } }

/-! ## Frames that hold what is read of them -/

/-- The same input, with a new buffer. -/
def ReadInput.fresh : ReadInput cfg → WireInput cfg
  | .received x => .frame (x.frame Mem.zero)
  | .timer => .timer
  | .elapse nsec => .elapse nsec

/-- The frame holds all that `ethernet_handle` reads of it in this state. -/
def ReadInput.Covered (r : Router) : ReadInput cfg → Prop
  | .received x => FrameCovered cfg x.bytes.length r (x.frame Mem.zero)
  | .timer | .elapse _ => True

/-- **One step** does not depend on the buffer. -/
theorem readStep_fresh {s s' : Readers cfg} {i : ReadInput cfg} (h : readStep cfg s i = some s')
    (hcovered : i.Covered s.router) : wireStep cfg s.router i.fresh = some s'.router := by
  cases i with
  | received x =>
    obtain ⟨router, hrouter, rfl⟩ := Option.map_eq_some_iff.1 h
    have hagree : AgreeTo x.bytes.length (x.frame Mem.zero).bytes
        (x.frame (s.buffer x.intId)).bytes := by
      intro j hj
      have hbyte (m : Mem) : m.write 0 x.bytes j = x.bytes[j] := by
        rw [Mem.write_zero_apply, List.getElem?_eq_getElem hj, Option.getD_some]
      exact (hbyte Mem.zero).trans (hbyte (s.buffer x.intId)).symm
    exact (noninterfering_of_covered hcovered _ hagree).trans hrouter
  | timer => exact congrArg (Option.map (·.router)) h
  | elapse nsec => exact congrArg (Option.map (·.router)) h

/-- **The buffers do not matter.** A run whose frames hold what is read of them does to the router
what the run over the same frames in new buffers does. -/
theorem read_loop_fresh {s₀ s : Readers cfg} {tr : List (Step (Readers cfg) (ReadInput cfg))}
    (h : Run (readStep cfg) s₀ tr s) (hcovered : ∀ t ∈ tr, t.input.Covered t.pre.router) :
    Run (wireStep cfg) s₀.router
      (tr.map fun t => ⟨t.pre.router, t.input.fresh, t.post.router⟩) s.router := by
  induction h with
  | nil => exact .nil
  | @snoc tr s s' i _ hstep ih =>
    rw [List.map_append]
    have hlast : i.Covered s.router := hcovered ⟨s, i, s'⟩ (by simp)
    exact (ih fun t ht => hcovered t (List.mem_append_left _ ht)).snoc
      (readStep_fresh hstep hlast)

/-- A datagram, as it is received. -/
def wholeFrame : List UInt8 := (oneByteFrame 1).read 0 43

theorem zero_write_wholeFrame : Mem.zero.write 0 wholeFrame = oneByteFrame 1 := by
  funext i
  by_cases hi : i < 43
  · exact Mem.write_read_apply _ _ hi
  · have hzero : oneByteFrame 1 i = 0 := by
      rw [oneByteFrame, Mem.write_apply_of_ge _ _ (by simp; omega),
        Mem.write_apply_of_ge _ _ (by simp; omega), Mem.write_apply_of_ge _ _ (by simp; omega)]
      exact Mem.write_apply_of_ge _ _ (Nat.not_lt.1 fun h => hi (Nat.lt_succ_of_lt h))
    rw [hzero]
    exact Mem.write_apply_of_ge _ _ (Nat.not_lt.1 hi)

theorem covered_wholeFrame (r : Router) (rand : Nat → Nat) :
    FrameCovered shippedConfig 43 r ⟨Mem.zero.write 0 wholeFrame, ⟨0, by decide⟩, rand⟩ := by
  rw [zero_write_wholeFrame]
  have htype : ntohs (ethertype (oneByteFrame 1)) ≠ ethertypeArp := by decide +kernel
  have hregular : RegularFrame 43 (oneByteFrame 1) :=
    ⟨by decide, fun _ => ⟨by decide, oneByteFrame_regular 1⟩, fun harp => absurd harp htype⟩
  have hwhole : 14 + (ntohs (totalLength (payload (oneByteFrame 1)))).toNat ≤ 43 := by
    decide +kernel
  exact hregular.covered (fun _ => hwhole) fun harp => absurd harp htype

/-- The datagram, and an ARP packet of one byte less into the same buffer. -/
theorem read_loop_fresh_two :
    ∃ tr t, Run (readStep shippedConfig) ⟨routerInit, fun _ => Mem.zero⟩ (tr ++ [t]) t.post ∧
      (t.post.buffer ⟨0, by decide⟩ 42 = 1) ∧
      Run (wireStep shippedConfig) routerInit
        ((tr ++ [t]).map fun u => ⟨u.pre.router, u.input.fresh, u.post.router⟩) t.post.router := by
  let answer : List UInt8 := MacAddr.broadcast.bytes ++ [2, 0, 0, 0, 0, 1] ++
    le16 (ntohs ethertypeArp) ++ (lanAnswer ⟨2, 0, 0, 0, 0, 1⟩).bytes
  obtain ⟨tr, t, hrun, hinputs, hlast⟩ := exists_run_snoc (readStep shippedConfig)
    ⟨routerInit, fun _ => Mem.zero⟩ [.received ⟨wholeFrame, ⟨0, by decide⟩, fun _ => 0⟩]
    (.received ⟨answer, ⟨0, by decide⟩, fun _ => 0⟩)
    (fun _ t => decide (t.post.buffer ⟨0, by decide⟩ 42 = 1)) (by decide +kernel)
  refine ⟨tr, t, hrun, of_decide_eq_true hlast, read_loop_fresh hrun fun u hu => ?_⟩
  have hmem : u.input ∈ (tr ++ [t]).map (·.input) := List.mem_map_of_mem hu
  rw [hinputs] at hmem
  rcases List.mem_pair.1 hmem with hwhole | hanswer
  · rw [hwhole]
    exact covered_wholeFrame ..
  · rw [hanswer]
    refine ⟨by decide, fun hipv4 => ?_, fun _ => ⟨by decide, fun _ => Or.inl (by decide)⟩⟩
    exact absurd hipv4 (by decide +kernel)

/-! ## Failed reads -/

/-- The frame that a failed `read` leaves in the buffer is the one that was handled last. -/
theorem handledBuffer_header {r : Router} {f : Frame cfg} {i : Nat} (hi : i < 14) :
    handledBuffer cfg r f i = f.bytes i := by
  rw [handledBuffer]
  split_ifs
  · cases sentPacket cfg r.napt ⟨payload f.bytes, f.intId, f.rand⟩ with
    | none => rfl
    | some pkt => exact if_pos hi
  · rfl

theorem payload_handledBuffer {r : Router} {f : Frame cfg} {pkt : Mem}
    (htype : ntohs (ethertype f.bytes) = ethertypeIpv4)
    (hsent : sentPacket cfg r.napt ⟨payload f.bytes, f.intId, f.rand⟩ = some pkt) :
    payload (handledBuffer cfg r f) = fillChecksums pkt := by
  funext i
  rw [payload, Mem.shift, handledBuffer, if_pos htype, hsent]
  simp

/-- A packet goes from the LAN to the WAN, and then `read` fails on the same interface. The
packet in the buffer comes from the address of the WAN interface now, and **the router learns its
own address**, with the MAC address of the LAN host. -/
theorem failed_read_learns {s s' s'' : Readers cfg} {x : Reception cfg} {rand : Nat → Nat}
    {napt : Napt} {P : Port} (hstep : readStep cfg s (.received x) = some s')
    (hfail : readStep cfg s' (.received ⟨[], x.intId, rand⟩) = some s'')
    (htype : ntohs (ethertype (x.frame (s.buffer x.intId)).bytes) = ethertypeIpv4)
    (hout : ipv4Path cfg (payload (x.frame (s.buffer x.intId)).bytes) x.intId = .out)
    (hport : naptOutTranslate cfg s.router.napt (payload (x.frame (s.buffer x.intId)).bytes)
      x.rand = some (napt, some P))
    (h16 : 16 ≤ headerLen (payload (x.frame (s.buffer x.intId)).bytes)) :
    macOf s''.router.ipMacMap (cfg.interfaceGetIp cfg.interfaceGetWanId) =
      some (macSrc (x.frame (s.buffer x.intId)).bytes) := by
  obtain ⟨router, -, rfl⟩ := Option.map_eq_some_iff.1 hstep
  obtain ⟨router', hrouter', rfl⟩ := Option.map_eq_some_iff.1 hfail
  let f := x.frame (s.buffer x.intId)
  let again : Frame cfg := ⟨handledBuffer cfg s.router f, x.intId, rand⟩
  have hagain : ethernetHandle cfg router again = some router' := by
    simp only [Reception.frame, Function.update_self, Mem.write_nil] at hrouter'
    exact hrouter'
  have hsent : sentPacket cfg s.router.napt ⟨payload f.bytes, f.intId, f.rand⟩ =
      some (naptOutRewrite cfg (payload f.bytes) P) := by
    rw [sentPacket]
    simp only [show ipv4Path cfg (payload f.bytes) f.intId = .out from hout,
      show naptOutTranslate cfg s.router.napt (payload f.bytes) f.rand = some (napt, some P)
        from hport, Option.bind_eq_bind, Option.bind_some]
  -- The buffer still has the header of the last frame, with the rewritten packet behind it.
  have hheader : AgreeTo 14 f.bytes again.bytes :=
    fun i hi => (handledBuffer_header hi).symm
  have htype' : ntohs (ethertype again.bytes) = ethertypeIpv4 := by
    rw [← htype, ethertype, ethertype, hheader.load16 (by decide)]
  have hmac : macSrc again.bytes = macSrc f.bytes :=
    (MacAddr.read_congr (hheader.read (by decide))).symm
  have hlearned : learned again.bytes =
      some ⟨cfg.interfaceGetIp cfg.interfaceGetWanId, macSrc f.bytes⟩ := by
    rw [learned, if_pos htype', hmac, payload_handledBuffer htype hsent, ipSrc_naptOutRewrite P h16]
  rw [macOf_ethernetHandle hagain, hlearned]
  exact if_pos rfl

/-- The datagram goes to the WAN, and `read` fails. -/
theorem failed_read_learns_lan :
    ∃ s' s'', readStep shippedConfig ⟨routerInit, fun _ => Mem.zero⟩
        (.received ⟨wholeFrame, ⟨0, by decide⟩, fun _ => 0⟩) = some s' ∧
      readStep shippedConfig s' (.received ⟨[], ⟨0, by decide⟩, fun _ => 1⟩) = some s'' ∧
      macOf s''.router.ipMacMap ⟨192, 168, 0, 2⟩ = some ⟨2, 0, 0, 0, 0, 1⟩ := by
  let x : Reception shippedConfig := ⟨wholeFrame, ⟨0, by decide⟩, fun _ => 0⟩
  have htest : ((readStep shippedConfig ⟨routerInit, fun _ => Mem.zero⟩ (.received x)).any
      fun s' => (readStep shippedConfig s' (.received ⟨[], x.intId, fun _ => 1⟩)).isSome)
      = true := by
    decide +kernel
  obtain ⟨s', hstep, hsome⟩ := (Option.any_eq_true ..).1 htest
  obtain ⟨s'', hfail⟩ := Option.isSome_iff_exists.1 hsome
  have hport : (naptOutTranslate shippedConfig naptInit (payload (x.frame Mem.zero).bytes)
      x.rand).map (·.2) = some (some ⟨1024⟩) := by decide +kernel
  obtain ⟨⟨napt, port⟩, htr, rfl⟩ := Option.map_eq_some_iff.1 hport
  have hmac : macSrc (x.frame Mem.zero).bytes = ⟨2, 0, 0, 0, 0, 1⟩ := by decide +kernel
  have hlearns := failed_read_learns hstep hfail (by decide +kernel) (by decide +kernel) htr
    (by decide +kernel)
  exact ⟨s', s'', hstep, hfail, hlearns.trans (congrArg some hmac)⟩

end NaptRouter
