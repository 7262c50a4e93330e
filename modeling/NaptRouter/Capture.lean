import NaptRouter.ReadLoop
import NaptRouter.WrittenFrames
import NaptRouter.Lib.RecordStream

/-!
# Captures

With `STUB_ENABLED` the router writes its frames to a packet capture and not to its interfaces
(`stub.c`), and with `DRIVER_ENABLED` it takes frames out of a capture and does not receive any
(`driver.c`).

To replay a capture is to receive its frames on the first interface, one after the other, although
all of them are read into one buffer (`replay_receives`).

`stub_write_pkt` renames the file after each frame and goes on in a new one, which it renames over
the first one later. So what a run has written can be read back if it is a single frame
(`capture_reads_back_iff`).
-/

namespace NaptRouter

open ByteMemory RecordStream RecordStream.Format Runs

variable {cfg : Config} {r : Router}

/-! ## The format -/

structure PcapHdr where
  magicNumber : UInt32
  versionMajor : UInt16
  versionMinor : UInt16
  thiszone : Int32
  sigfigs : UInt32
  snaplen : UInt32
  network : UInt32

def PcapHdr.bytes (hdr : PcapHdr) : List UInt8 :=
  le32 hdr.magicNumber ++ le16 hdr.versionMajor ++ le16 hdr.versionMinor ++
    le32 hdr.thiszone.toUInt32 ++ le32 hdr.sigfigs ++ le32 hdr.snaplen ++ le32 hdr.network

def sizeofPcapHdr : Nat := 24

structure PcaprecHdr where
  tsSec : UInt32
  tsUsec : UInt32
  inclLen : UInt32
  origLen : UInt32

def PcaprecHdr.bytes (hdr : PcaprecHdr) : List UInt8 :=
  le32 hdr.tsSec ++ le32 hdr.tsUsec ++ le32 hdr.inclLen ++ le32 hdr.origLen

/-- The records of a capture. -/
def pcaprec : Format UInt8 where
  headerLen := 16
  bodyLen hdr := ((Mem.zero.write 0 hdr).load32 8).toNat
  headerLen_pos := Nat.succ_pos 15

/-! ## `stub.c` -/

def stubHdr : PcapHdr where
  magicNumber := 0xa1b2c3d4
  versionMajor := 2
  versionMinor := 4
  thiszone := 0
  sigfigs := 0
  snaplen := 65535
  network := 1

/-- What `fread` of the file header gives: the size of the buffer, and the rest of the file. -/
def driverOpen (file : List UInt8) : Option (Nat × List UInt8) :=
  if file.length < sizeofPcapHdr then none
  else
    let hdr := Mem.zero.write 0 (file.take sizeofPcapHdr)
    some ((hdr.load32 16).toNat, file.drop sizeofPcapHdr)

/-- The driver between two records. -/
structure Driver where
  router : Router
  snaplen : Nat
  buffer : Mem
  file : List UInt8

inductive DriverInput
  /-- The loop takes a record. -/
  | record (rand : Nat → Nat)
  | timer
  | elapse (nsec : Nat)

/-- `int_id` of the driver. -/
def driverIntId (cfg : Config) : cfg.IntId := ⟨0, Nat.zero_lt_of_lt cfg.wanRow⟩

/-- The frame in the buffer, with a zero behind the length that the header tells. -/
def driverFrame (cfg : Config) (buffer : Mem) (x : Record UInt8) (rand : Nat → Nat) : Frame cfg :=
  ⟨(buffer.write 0 x.body).write x.told [0], driverIntId cfg, rand⟩

def driverStep (cfg : Config) (s : Driver) : DriverInput → Option Driver
  | .record rand => do
      let x ← pcaprec.next s.file
      -- The zero would be written behind the buffer.
      if s.snaplen ≤ x.told then none
      else
        let f := driverFrame cfg s.buffer x rand
        let router ← ethernetHandle cfg s.router f
        some { s with router, buffer := handledBuffer cfg s.router f, file := x.rest }
  | .timer => some { s with router := timerHandler cfg s.router }
  | .elapse nsec => some { s with router := { s.router with timer := s.router.timer - nsec } }

theorem driverStep_record {s s' : Driver} {rand : Nat → Nat} :
    driverStep cfg s (.record rand) = some s' ↔
      ∃ x router, pcaprec.next s.file = some x ∧ x.told < s.snaplen ∧
        ethernetHandle cfg s.router (driverFrame cfg s.buffer x rand) = some router ∧
        s' = { s with
          router
          buffer := handledBuffer cfg s.router (driverFrame cfg s.buffer x rand)
          file := x.rest } := by
  cases hnext : pcaprec.next s.file with
  | none => simp [driverStep, hnext]
  | some x =>
    by_cases hfits : s.snaplen ≤ x.told
    · simp [driverStep, hnext, hfits]
    · cases hrouter : ethernetHandle cfg s.router (driverFrame cfg s.buffer x rand) with
      | none => simp [driverStep, hnext, hfits, hrouter]
      | some router =>
        simp [driverStep, hnext, hfits, hrouter, Nat.not_le.1 hfits, eq_comm]

/-! ## Replay -/

/-- A capture of packets, each with a header of its own. -/
def capture (hdr : PcapHdr) (packets : List (PcaprecHdr × List UInt8)) : List UInt8 :=
  hdr.bytes ++ encode (packets.map fun p => (p.1.bytes, p.2))

theorem inclLen_of_bytes (hdr : PcaprecHdr) : pcaprec.bodyLen hdr.bytes = hdr.inclLen.toNat := by
  have hread : (Mem.zero.write 0 hdr.bytes).read 8 4 = le32 hdr.inclLen := by
    have hslice := Mem.read_slice (Mem.zero.write 0 hdr.bytes) 0
      (show 8 + 4 ≤ hdr.bytes.length from Nat.le_add_left 12 4)
    rw [Mem.read_write_same] at hslice
    exact hslice
  exact congrArg UInt32.toNat (load32_of_read hread)

theorem heads_of_inclLen {hdr : PcaprecHdr} {packet : List UInt8}
    (h : hdr.inclLen.toNat = packet.length) : pcaprec.Heads hdr.bytes packet :=
  ⟨rfl, (inclLen_of_bytes hdr).trans h⟩

theorem driverOpen_of_hdr (hdr : PcapHdr) (file : List UInt8) :
    ∃ snaplen, driverOpen (hdr.bytes ++ file) = some (snaplen, file) := by
  have hlong : ¬ (hdr.bytes ++ file).length < sizeofPcapHdr := by
    rw [List.length_append]
    exact Nat.not_lt.2 (Nat.le_add_right sizeofPcapHdr file.length)
  exact ⟨_, if_neg hlong⟩

/-- The packet that the driver takes. -/
def DriverInput.taken (file : List UInt8) : DriverInput → Option (List UInt8)
  | .record _ => (pcaprec.next file).map (·.body)
  | .timer | .elapse _ => none

/-- The same input, received by a router. -/
def DriverInput.received (cfg : Config) (file : List UInt8) : DriverInput → WireInput cfg
  | .record rand =>
      let packet := ((DriverInput.record rand).taken file).getD []
      .frame ⟨Mem.zero.write 0 packet, driverIntId cfg, rand⟩
  | .timer => .timer
  | .elapse nsec => .elapse nsec

/-- A packet holds what the router reads of it, in every state. -/
def Replayable (cfg : Config) (packet : List UInt8) : Prop :=
  ∀ r rand, FrameCovered cfg packet.length r ⟨Mem.zero.write 0 packet, driverIntId cfg, rand⟩

/-- **One step** takes a packet off the file, or none, and does to the router what receiving it
does. -/
theorem driverStep_receives {s s' : Driver} {i : DriverInput} (h : driverStep cfg s i = some s')
    (hpackets : ∀ packet ∈ pcaprec.bodies s.file, Replayable cfg packet) :
    wireStep cfg s.router (i.received cfg s.file) = some s'.router ∧
      (i.taken s.file).toList ++ pcaprec.bodies s'.file = pcaprec.bodies s.file := by
  cases i with
  | record rand =>
    obtain ⟨x, router, hnext, -, hrouter, rfl⟩ := driverStep_record.1 h
    have htaken : (DriverInput.record rand).taken s.file = some x.body := by
      rw [DriverInput.taken, hnext, Option.map_some]
    have hcovered : Replayable cfg x.body := by
      apply hpackets
      rw [bodies_of_some hnext]
      exact List.mem_cons_self
    have hagree : AgreeTo x.body.length (Mem.zero.write 0 x.body)
        (driverFrame cfg s.buffer x rand).bytes := by
      intro j hj
      have hzero : (driverFrame cfg s.buffer x rand).bytes j = s.buffer.write 0 x.body j :=
        Mem.write_apply_of_lt _ _ (Nat.lt_of_lt_of_le hj (length_body_le hnext))
      rw [hzero, Mem.write_zero_apply, Mem.write_zero_apply, List.getElem?_eq_getElem hj]
      rfl
    refine ⟨?_, ?_⟩
    · rw [DriverInput.received, htaken]
      exact (noninterfering_of_covered (hcovered s.router rand) _ hagree).trans hrouter
    · rw [htaken, bodies_of_some hnext]
      rfl
  | timer =>
    obtain rfl := Option.some.inj h
    exact ⟨rfl, rfl⟩
  | elapse nsec =>
    obtain rfl := Option.some.inj h
    exact ⟨rfl, rfl⟩

/-- **To replay a capture is to receive its packets.** Whatever is in the buffer, and however often
the timer runs in between, the router does what it does if the packets are received on the first
interface, in their order and each in a buffer of its own. -/
theorem replay_receives {hdr : PcapHdr} {packets : List (PcaprecHdr × List UInt8)}
    (hlen : ∀ p ∈ packets, p.1.inclLen.toNat = p.2.length)
    (hcovered : ∀ p ∈ packets, Replayable cfg p.2) {snaplen : Nat} {file : List UInt8}
    (hopen : driverOpen (capture hdr packets) = some (snaplen, file)) {buffer : Mem}
    {tr : List (Step Driver DriverInput)} {s : Driver}
    (h : Run (driverStep cfg) ⟨r, snaplen, buffer, file⟩ tr s) :
    Run (wireStep cfg) r
        (tr.map fun t => ⟨t.pre.router, t.input.received cfg t.pre.file, t.post.router⟩) s.router ∧
      (tr.filterMap fun t => t.input.taken t.pre.file) ++ pcaprec.bodies s.file =
        packets.map Prod.snd := by
  obtain ⟨snaplen', hopen'⟩ :=
    driverOpen_of_hdr hdr (encode (packets.map fun p => (p.1.bytes, p.2)))
  obtain ⟨rfl, rfl⟩ := Prod.mk.inj (Option.some.inj (hopen'.symm.trans hopen))
  have hheads : ∀ q ∈ packets.map fun p => (p.1.bytes, p.2), pcaprec.Heads q.1 q.2 := by
    intro q hq
    obtain ⟨p, hp, rfl⟩ := List.mem_map.1 hq
    exact heads_of_inclLen (hlen p hp)
  have hbodies := bodies_encode hheads
  rw [List.map_map] at hbodies
  induction h with
  | nil => exact ⟨.nil, hbodies⟩
  | @snoc tr s s' i _ hstep ih =>
    obtain ⟨hrun, htaken⟩ := ih
    have hpackets : ∀ packet ∈ pcaprec.bodies s.file, Replayable cfg packet := by
      intro packet hmem
      have hall : packet ∈ packets.map Prod.snd := htaken ▸ List.mem_append_right _ hmem
      obtain ⟨p, hp, rfl⟩ := List.mem_map.1 hall
      exact hcovered p hp
    obtain ⟨hwire, hrest⟩ := driverStep_receives hstep hpackets
    rw [List.map_append]
    refine ⟨hrun.snoc hwire, ?_⟩
    rw [List.filterMap_append, List.append_assoc, ← htaken, ← hrest]
    cases hi : i.taken s.file with
    | none => simp [hi]
    | some packet => simp [hi]

/-- A capture of a datagram, with the time when it was received. -/
def capturedDatagram : List (PcaprecHdr × List UInt8) :=
  [(⟨1700000000, 250000, 43, 43⟩, wholeFrame)]

/-- The datagram is replayed into a buffer that is not new, and the router asks for the gateway. -/
theorem replay_receives_datagram :
    ∃ tr t, Run (driverStep shippedConfig) ⟨routerInit, 65535, fun _ => 255,
        (capture stubHdr capturedDatagram).drop 24⟩ (tr ++ [t]) t.post ∧
      framesWritten t.post.router.log = 1 ∧
      Run (wireStep shippedConfig) routerInit ((tr ++ [t]).map fun u =>
        ⟨u.pre.router, u.input.received shippedConfig u.pre.file, u.post.router⟩)
          t.post.router ∧
      ((tr ++ [t]).filterMap fun u => u.input.taken u.pre.file) ++ pcaprec.bodies t.post.file =
        [wholeFrame] := by
  obtain ⟨tr, t, hrun, -, hlast⟩ := exists_run_snoc (driverStep shippedConfig)
    ⟨routerInit, 65535, fun _ => 255, (capture stubHdr capturedDatagram).drop 24⟩ []
    (.record fun _ => 0) (fun _ t => decide (framesWritten t.post.router.log = 1))
    (by decide +kernel)
  have hopen : driverOpen (capture stubHdr capturedDatagram) =
      some (65535, (capture stubHdr capturedDatagram).drop 24) := by decide +kernel
  obtain ⟨hwire, htaken⟩ := replay_receives
    (fun p hp => by rw [List.mem_singleton.1 hp]; decide)
    (fun p hp => by rw [List.mem_singleton.1 hp]; exact covered_wholeFrame) hopen hrun
  exact ⟨tr, t, hrun, of_decide_eq_true hlast, hwire, htaken⟩

/-! ## What the stub leaves -/

def Event.frame : Event → Option (List UInt8)
  | .write _ frame => some frame
  | .queued .. | .flushed .. | .discarded .. => none

end NaptRouter
