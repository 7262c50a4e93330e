import NaptRouter.Timer

/-!
# `outgoing.c`, and the flush of `timer.c`

`send_ipv4` rewrites the checksums in place, picks the interface and the next hop, and either
writes the frame or hands a copy of the packet to `timer_add_packet`. `timer_update_packets`
takes the node of a resolved address out of the delta list and sends its packets.
-/

namespace NaptRouter

open ByteMemory

/-! ## Checksums -/

/-- The second loop of `calculate_checksum`: fold the carries back in. -/
def foldCarry : Nat → Nat → Nat
  | 0, checksum => checksum
  | fuel + 1, checksum =>
      if checksum > 0xFFFF then foldCarry fuel (checksum % 65536 + checksum / 65536)
      else checksum

/-- Two rounds fold any 32-bit sum into 16 bits. -/
theorem foldCarry_le {checksum : Nat} (h : checksum < 2 ^ 32) :
    foldCarry 2 checksum ≤ 0xFFFF := by
  simp only [foldCarry]
  split_ifs <;> omega

/-- `calculate_checksum(m + ptr, len)`: the checksum, and the memory with the padding byte that
the function writes after an odd run. The sum is kept in a `uint32_t`. -/
def calculateChecksum (m : Mem) (ptr len : Nat) : UInt16 × Mem :=
  let m := if len % 2 = 1 then m.write (ptr + len) [0] else m
  let checksum := (List.range ((len + 1) / 2)).foldl
    (fun checksum i => (checksum + (m.load16 (ptr + 2 * i)).toNat) % 2 ^ 32) 0
  (~~~(UInt16.ofNat (foldCarry 2 checksum)), m)

/-- `struct ip_pseudo_hdr`. -/
def pseudoHdr (pkt : Mem) (udpLength : UInt16) : Mem :=
  Mem.zero.write 0 ((ipSrc pkt).bytes ++ (ipDst pkt).bytes ++ [0, protocol pkt] ++
    le16 udpLength)

/-- `checksum` of the transport header is set to the sum of the pseudo header, and then to the
checksum of the segment. -/
def transportChecksum (pkt : Mem) (off checksumOff len : Nat) (udpLength : UInt16) :
    UInt16 × Mem :=
  let pseudoChecksum := (calculateChecksum (pseudoHdr pkt udpLength) 0 12).1
  let pkt := pkt.store16 (off + checksumOff) (~~~pseudoChecksum)
  calculateChecksum pkt off len

/-- `udp_pkt->checksum`. -/
def udpChecksum (pkt : Mem) : UInt16 := pkt.load16 (headerLen pkt + udpChecksumOff)

/-- The packet with the checksum of its header. -/
def headerChecksum (pkt : Mem) : Mem :=
  let pkt := setChecksum pkt 0
  let (checksum, pkt) := calculateChecksum pkt 0 (headerLen pkt)
  setChecksum pkt checksum

/-- The packet with the checksum of its segment. -/
def segmentChecksum (pkt : Mem) : Mem :=
  let off := headerLen pkt
  if protocol pkt = 0x11 then
    if udpChecksum pkt ≠ 0 then
      let (checksum, pkt) := transportChecksum pkt off udpChecksumOff
        (ntohs (udpLength pkt off)).toNat (udpLength pkt off)
      pkt.store16 (off + udpChecksumOff) (if checksum = 0 then 0xffff else checksum)
    else pkt
  else if protocol pkt = 0x06 then
    let tcpLen : UInt16 := ntohs (totalLength pkt) - UInt16.ofNat off
    let (checksum, pkt) := transportChecksum pkt off tcpChecksumOff tcpLen.toNat (ntohs tcpLen)
    pkt.store16 (off + tcpChecksumOff) checksum
  else pkt

/-- The part of `send_ipv4` that fills in the checksums. -/
def fillChecksums (pkt : Mem) : Mem := segmentChecksum (headerChecksum pkt)

theorem calculateChecksum_apply (m : Mem) {ptr len i : Nat} (h : i < ptr + len) :
    (calculateChecksum m ptr len).2 i = m i := by
  simp only [calculateChecksum]
  split_ifs
  · exact m.write_apply_of_lt _ h
  · rfl

theorem transportChecksum_apply (pkt : Mem) {off checksumOff len i : Nat} (udpLength : UInt16)
    (h : i < off) : (transportChecksum pkt off checksumOff len udpLength).2 i = pkt i := by
  rw [transportChecksum, calculateChecksum_apply _ (by omega)]
  exact store16_apply_of_lt _ _ (by omega)

theorem setChecksum_apply (pkt : Mem) (v : UInt16) {i : Nat} (h10 : i ≠ 10) (h11 : i ≠ 11) :
    setChecksum pkt v i = pkt i := by
  by_cases h : i < 10
  · exact store16_apply_of_lt _ _ h
  · exact store16_apply_of_ge _ _ (by omega)

theorem headerLen_congr {pkt pkt' : Mem} (h : pkt' 0 = pkt 0) : headerLen pkt' = headerLen pkt := by
  rw [headerLen, headerLen, h]

theorem headerChecksum_apply (pkt : Mem) {i : Nat} (h10 : i ≠ 10) (h11 : i ≠ 11) :
    headerChecksum pkt i = pkt i := by
  have heven : headerLen (setChecksum pkt 0) % 2 ≠ 1 := by
    rw [headerLen]
    omega
  simp only [headerChecksum, calculateChecksum, if_neg heven]
  rw [setChecksum_apply _ _ h10 h11, setChecksum_apply _ _ h10 h11]

theorem fillChecksums_header (pkt : Mem) {i : Nat} (h : i < headerLen pkt) :
    fillChecksums pkt i = headerChecksum pkt i := by
  have hlen : headerLen (headerChecksum pkt) = headerLen pkt :=
    headerLen_congr (headerChecksum_apply _ (by decide) (by decide))
  have hsegment (checksumOff len : Nat) (udpLength v : UInt16) :
      (transportChecksum (headerChecksum pkt) (headerLen (headerChecksum pkt)) checksumOff len
        udpLength).2.store16 (headerLen (headerChecksum pkt) + checksumOff) v i =
          headerChecksum pkt i := by
    rw [store16_apply_of_lt _ _ (by omega), transportChecksum_apply _ _ (by omega)]
  rw [fillChecksums, segmentChecksum]
  split_ifs
  · exact hsegment ..
  · rfl
  · exact hsegment ..
  · rfl

/-- Of the header, only the checksum is rewritten. -/
theorem fillChecksums_apply {pkt : Mem} {i : Nat} (hi : i < headerLen pkt) (h10 : i ≠ 10)
    (h11 : i ≠ 11) : fillChecksums pkt i = pkt i :=
  (fillChecksums_header pkt hi).trans (headerChecksum_apply pkt h10 h11)

/-! ## Sending -/

/-- The Ethernet frame of `len` bytes of a packet. -/
def ipv4Frame (dstMac srcMac : MacAddr) (pkt : Mem) (len : Nat) : List UInt8 :=
  dstMac.bytes ++ srcMac.bytes ++ le16 (ntohs ethertypeIpv4) ++ pkt.read 0 len

def sendIpv4 (cfg : Config) (r : Router) (pkt : Mem) : Router :=
  let dstIp := ipDst pkt
  let intId := cfg.getInterfaceForIp dstIp
  let pkt := fillChecksums pkt
  let localDstIp := cfg.localDstIp intId dstIp
  let len := (ntohs (totalLength pkt)).toNat
  if !hasMacForIp r.ipMacMap localDstIp then
    -- malloc and memcpy; the bytes after the copy are somebody else's.
    let newPkt : QueuedPkt := { ptr := r.copies, pkt := Mem.zero.write 0 (pkt.read 0 len) }
    timerAddPacket cfg { r with copies := r.copies + 1 } newPkt intId localDstIp
  else
    match cfg.interfaceGetType intId with
    | .ether =>
        let srcMac := cfg.interfaceGetMacAddr intId
        let dstMac := getMacFromIp r.ipMacMap localDstIp
        r.emit (.write intId (ipv4Frame dstMac srcMac pkt len))
    | .wifi | .unknown => r

@[simp] theorem sendArp_napt (cfg : Config) (r : Router) (pkt : ArpHdr) (intId : cfg.IntId) :
    (sendArp cfg r pkt intId).napt = r.napt := by
  unfold sendArp
  split <;> rfl

@[simp] theorem sendIpv4_napt (cfg : Config) (r : Router) (pkt : Mem) :
    (sendIpv4 cfg r pkt).napt = r.napt := by
  simp only [sendIpv4]
  split
  · rw [timerAddPacket]
    split
    · rfl
    · rw [Router.emit_napt]
      split <;> exact sendArp_napt ..
  · split <;> rfl

@[simp] theorem sendArp_ipMacMap (cfg : Config) (r : Router) (pkt : ArpHdr)
    (intId : cfg.IntId) : (sendArp cfg r pkt intId).ipMacMap = r.ipMacMap := by
  unfold sendArp
  split <;> rfl

@[simp] theorem sendIpv4_ipMacMap (cfg : Config) (r : Router) (pkt : Mem) :
    (sendIpv4 cfg r pkt).ipMacMap = r.ipMacMap := by
  simp only [sendIpv4]
  split
  · rw [timerAddPacket]
    split
    · rfl
    · rw [Router.emit_ipMacMap]
      split <;> exact sendArp_ipMacMap ..
  · split <;> rfl

/-! ## Flushing a resolved node -/

/-- Unlink the first node for `dst`; the node after it takes over its delta. -/
def unlinkNode (dst : IpAddr) : List DeltaNode → Option (DeltaNode × List DeltaNode)
  | [] => none
  | node :: rest =>
      if ipAddrEquals node.ipAddr dst then
        some (node, match rest with
          | [] => []
          | next :: rest => { next with msec := next.msec + node.msec } :: rest)
      else (unlinkNode dst rest).map fun (found, rest) => (found, node :: rest)

/-- The timer when the head of the list is unlinked. Only `tv_nsec` of the time left is used. -/
def rearmAfterHead (r : Router) (rest : List DeltaNode) : Router :=
  match rest with
  | [] => r.timerSettime 0 0
  | next :: _ =>
      let total := r.timerTvNsec + next.msec * 1000000
      r.timerSettime (total / 1000000000) (total % 1000000000)

/-- The loop that sends and frees the packets of an unlinked node. -/
def flushPkts (cfg : Config) (nextHop : IpAddr) : List QueuedPkt → Router → Router
  | [], r => r
  | q :: rest, r => flushPkts cfg nextHop rest ((sendIpv4 cfg r q.pkt).emit (.flushed q nextHop))

/-- What every packet sent keeps, the loop keeps. -/
theorem flushPkts_keeps {cfg : Config} {P : Router → Prop} {nextHop : IpAddr}
    (hsend : ∀ r q, P r → P ((sendIpv4 cfg r q.pkt).emit (.flushed q nextHop)))
    (pkts : List QueuedPkt) {r : Router} (h : P r) : P (flushPkts cfg nextHop pkts r) := by
  induction pkts generalizing r with
  | nil => exact h
  | cons q rest ih => exact ih (hsend r q h)

def timerUpdatePackets (cfg : Config) (r : Router) (dst : IpAddr) : Router :=
  match r.deltaList, unlinkNode dst r.deltaList with
  | head :: rest, some (node, deltaList) =>
      let r := if ipAddrEquals head.ipAddr dst then rearmAfterHead r rest else r
      flushPkts cfg dst node.pktList { r with deltaList }
  | _, _ => r

end NaptRouter
