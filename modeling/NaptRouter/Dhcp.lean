import NaptRouter.Structs
import Mathlib.Data.List.FinRange
import Mathlib.Logic.Function.Basic

/-!
# `dhcp.c`

The DHCP server: a table of ten leases, and one reply at most to each datagram. Addresses are
`in_addr` words, in network order as they lie in memory and so byte-swapped as numbers.

* The clock is read once for a datagram; `time_t` is an integer.
* The receive buffer is memory: what lies behind the received bytes is whatever was there.
* A datagram handed to `sendto` counts as sent.
-/

namespace NaptRouter

open ByteMemory

/-! ## Constants and addresses -/

def dhcpBufferSize : Nat := 1024
def maxLeases : Nat := 10
def dhcpOptionMessageType : UInt8 := 53
def dhcpOptionRequestedIp : UInt8 := 50
def dhcpOptionLeaseTime : UInt8 := 51
def dhcpOptionSubnetMask : UInt8 := 1
def dhcpOptionRouter : UInt8 := 3
def dhcpOptionDns : UInt8 := 6
def dhcpDiscover : UInt8 := 1
def dhcpOffer : UInt8 := 2
def dhcpRequest : UInt8 := 3
def dhcpAck : UInt8 := 5
def dhcpNak : UInt8 := 6
def dhcpEnd : UInt8 := 255

/-- `inet_aton`: the word whose bytes in memory are the four numbers. -/
def inetAton (ip : IpAddr) : UInt32 := (Mem.zero.write 0 ip.bytes).load32 0

/-- `dhcp_pool_start` and `dhcp_pool_end`. -/
structure DhcpPool where
  poolStart : UInt32
  poolEnd : UInt32

/-- `init_dhcp_pool`. -/
def initDhcpPool : DhcpPool where
  poolStart := inetAton ⟨192, 168, 1, 100⟩
  poolEnd := inetAton ⟨192, 168, 1, 110⟩

/-! ## The lease table -/

/-- `dhcp_lease_t`. Nothing writes `mac`. -/
structure DhcpLease where
  ip : UInt32
  mac : MacAddr
  leaseStart : Int
  leaseExpiry : Int
  allocated : Bool
deriving DecidableEq

abbrev LeaseTable := Fin maxLeases → DhcpLease

/-- `lease_table` before the first datagram. -/
def leaseTableInit : LeaseTable := fun _ =>
  { ip := 0, mac := ⟨0, 0, 0, 0, 0, 0⟩, leaseStart := 0, leaseExpiry := 0, allocated := false }

/-- `is_ip_in_pool`: the words are compared in network order. -/
def isIpInPool (pool : DhcpPool) (ip : UInt32) : Bool :=
  decide (ip ≥ pool.poolStart) && decide (ip ≤ pool.poolEnd)

def isIpAvailable (now : Int) (leaseTable : LeaseTable) (ip : UInt32) : Bool :=
  (List.finRange maxLeases).all fun i =>
    let lease := leaseTable i
    !(lease.allocated && lease.ip == ip && decide (now < lease.leaseExpiry))

/-- The body of the loop of `cleanup_expired_leases`. -/
def reclaim (now : Int) (lease : DhcpLease) : DhcpLease :=
  if lease.allocated && decide (lease.leaseExpiry ≤ now) then
    { lease with allocated := false, leaseStart := 0, leaseExpiry := 0, ip := 0 }
  else lease

def cleanupExpiredLeases (now : Int) (leaseTable : LeaseTable) : LeaseTable :=
  fun i => reclaim now (leaseTable i)

/-- `ntohl(ntohl(dhcp_pool_start.s_addr) + i)`. -/
def poolIp (pool : DhcpPool) (i : Nat) : UInt32 := ntohl (ntohl pool.poolStart + UInt32.ofNat i)

def getAvailableIp (pool : DhcpPool) (now : Int) (leaseTable : LeaseTable) :
    LeaseTable × UInt32 :=
  let leaseTable := cleanupExpiredLeases now leaseTable
  match (List.finRange maxLeases).find? fun i => !(leaseTable i).allocated with
  | some i =>
      let lease := { leaseTable i with
        allocated := true, leaseStart := now, leaseExpiry := now + 180000, ip := poolIp pool i }
      (Function.update leaseTable i lease, lease.ip)
  | none => (leaseTable, inetAton ⟨0, 0, 0, 0⟩)

/-! ## Options -/

/-- The loop that looks for an option, from `options` on and with a bound on its rounds. -/
def findOptionLoop (buffer : Mem) (limit : Nat) (option : UInt8) : Nat → Nat → Option Nat
  | 0, _ => none
  | fuel + 1, options =>
      if buffer options ≠ dhcpEnd ∧ options < limit then
        if buffer options = option then some options
        else findOptionLoop buffer limit option fuel (options + (2 + (buffer (options + 1)).toNat))
      else none

/-- Every round moves on by two bytes at least, so that rounds up to the limit are enough. -/
theorem findOptionLoop_fuel (buffer : Mem) (limit : Nat) (option : UInt8) {fuel fuel' options : Nat}
    (h : limit ≤ options + fuel) (h' : limit ≤ options + fuel') :
    findOptionLoop buffer limit option fuel options =
      findOptionLoop buffer limit option fuel' options := by
  induction fuel generalizing fuel' options with
  | zero =>
    cases fuel' with
    | zero => rfl
    | succ fuel' =>
      rw [findOptionLoop, findOptionLoop, if_neg]
      omega
  | succ fuel ih =>
    cases fuel' with
    | zero =>
      rw [findOptionLoop, findOptionLoop, if_neg]
      omega
    | succ fuel' =>
      rw [findOptionLoop, findOptionLoop, @ih fuel' _ (by omega) (by omega)]

/-- Where the option starts. -/
def findOption (buffer : Mem) (limit : Nat) (option : UInt8) : Option Nat :=
  findOptionLoop buffer limit option limit 240

/-- `message_type` after the loop of `handle_dhcp_packet`. -/
def messageType (buffer : Mem) (recvLen : Nat) : UInt8 :=
  match findOption buffer recvLen dhcpOptionMessageType with
  | some options => buffer (options + 2)
  | none => 0

def extractRequestedIp (buffer : Mem) : UInt32 :=
  match findOption buffer dhcpBufferSize dhcpOptionRequestedIp with
  | some options => buffer.load32 (options + 2)
  | none => 0

/-! ## Replies -/

/-- The options that an offer and an acknowledgement share, after the message type. -/
def leaseOptions (ip : UInt32) : List UInt8 :=
  [dhcpOptionRequestedIp, 4] ++ le32 ip ++
  [dhcpOptionLeaseTime, 4] ++ le32 (ntohl 18000) ++
  [dhcpOptionSubnetMask, 4] ++ le32 (inetAton ⟨255, 255, 255, 0⟩) ++
  [dhcpOptionRouter, 4] ++ le32 (inetAton ⟨192, 168, 1, 1⟩) ++
  [dhcpOptionDns, 4] ++ le32 (inetAton ⟨8, 8, 8, 8⟩) ++ [dhcpEnd]

/-- The frame of the three `send_dhcp` functions: copy the head of the request, mark it as a reply,
fill in fields of the header and append options. -/
def dhcpReplyPacket (buffer : Mem) (copied : Nat) (fields : Mem → Mem) (options : List UInt8) :
    List UInt8 :=
  let packet := Mem.zero.write 0 (buffer.read 0 copied)
  let packet := packet.write 0 [0x02]
  let packet := (fields packet).write (240 * 4) options
  packet.read 0 (240 * 4 + options.length)

/-- The datagram of `send_dhcp_offer`. -/
def dhcpOfferPacket (buffer : Mem) (offeredIp : UInt32) : List UInt8 :=
  dhcpReplyPacket buffer 240
    (fun packet => (packet.write 16 (le32 offeredIp)).write 24 (le32 (inetAton ⟨192, 168, 1, 1⟩)))
    ([dhcpOptionMessageType, 1, dhcpOffer] ++ leaseOptions offeredIp)

/-- The datagram of `send_dhcp_ack`. -/
def dhcpAckPacket (buffer : Mem) (allocatedIp : UInt32) : List UInt8 :=
  dhcpReplyPacket buffer 240 (fun packet => packet.write 16 (le32 allocatedIp))
    ([dhcpOptionMessageType, 1, dhcpAck] ++ leaseOptions allocatedIp)

/-- The datagram of `send_dhcp_nak`: it copies the options of the request, too. -/
def dhcpNakPacket (buffer : Mem) : List UInt8 :=
  dhcpReplyPacket buffer (240 * 4) id [dhcpOptionMessageType, 1, dhcpNak, dhcpEnd]

/-- `handle_dhcp_packet` after its loop: the table afterwards and the datagram sent, if any. -/
def dhcpDispatch (pool : DhcpPool) (now : Int) (leaseTable : LeaseTable) (buffer : Mem)
    (messageType : UInt8) (requestedIp : UInt32) : LeaseTable × Option (List UInt8) :=
  if messageType = dhcpDiscover then
    let (leaseTable, offeredIp) := getAvailableIp pool now leaseTable
    (leaseTable, some (dhcpOfferPacket buffer offeredIp))
  else if messageType = dhcpRequest then
    if !isIpInPool pool requestedIp || isIpAvailable now leaseTable requestedIp then
      (leaseTable, some (dhcpNakPacket buffer))
    else (leaseTable, some (dhcpAckPacket buffer requestedIp))
  else (leaseTable, none)

/-- `handle_dhcp_packet`. It calls `extract_requested_ip` for a REQUEST only. -/
def handleDhcpPacket (pool : DhcpPool) (now : Int) (leaseTable : LeaseTable) (buffer : Mem)
    (recvLen : Nat) : LeaseTable × Option (List UInt8) :=
  dhcpDispatch pool now leaseTable buffer (messageType buffer recvLen) (extractRequestedIp buffer)

/-! ## Reading a reply -/

/-- The field `yiaddr` of a reply. -/
def yiaddr (reply : List UInt8) : UInt32 := (Mem.zero.write 0 reply).load32 16

/-- The message type of a reply: its options start at `240 * 4`. -/
def replyType (reply : List UInt8) : UInt8 := reply.getD (240 * 4 + 2) 0

/-- The lease time that an offer or an acknowledgement announces, in seconds. -/
def replyLeaseTime (reply : List UInt8) : UInt32 :=
  ntohl ((Mem.zero.write 0 reply).load32 (240 * 4 + 11))

end NaptRouter
