import NaptRouter.Devices
import NaptRouter.Hashmap

/-!
# The state of the router

The globals of `ipv4.c`, `devices.c` and `timer.c`, and a log of what the router has done that
can be seen from outside a function: frames handed to `write`, packets handed to
`timer_add_packet`, and the two places where a queued packet is freed.

A queued packet is the copy that `send_ipv4` makes with `malloc`. Copies are numbered in the
order they are made; the number stands for the pointer.
-/

namespace NaptRouter

open ByteMemory

/-- The copy of a packet that waits for an ARP reply. -/
structure QueuedPkt where
  ptr : Nat
  pkt : Mem

/-- `struct delta_node`; the packet list in the order of its `next` pointers. -/
structure DeltaNode where
  msec : Nat
  ipAddr : IpAddr
  pktList : List QueuedPkt
  retryAmt : Nat

inductive Event
  /-- `write` of a frame to the socket of an interface. -/
  | write (intId : Nat) (frame : List UInt8)
  /-- `timer_add_packet` has queued a packet for a next hop. -/
  | queued (q : QueuedPkt) (nextHop : IpAddr)
  /-- `timer_update_packets` has sent a packet of the node of `nextHop` and freed it. -/
  | flushed (q : QueuedPkt) (nextHop : IpAddr)
  /-- `timer_handler` has freed a packet of the node of `nextHop` unsent. -/
  | discarded (q : QueuedPkt) (nextHop : IpAddr)

/-- The two NAPT tables of `ipv4.c`. -/
structure Napt where
  externHashmap : Hashmap
  internHashmap : Hashmap

structure Router where
  napt : Napt
  ipMacMap : IpMacMap
  deltaList : List DeltaNode
  /-- Nanoseconds left on the one-shot timer; 0 when it is not armed. -/
  timer : Nat
  /-- How many packet copies have been made. -/
  copies : Nat
  log : List Event

namespace Router

def emit (r : Router) (e : Event) : Router := { r with log := r.log ++ [e] }

@[simp] theorem emit_napt (r : Router) (e : Event) : (r.emit e).napt = r.napt := rfl
@[simp] theorem emit_ipMacMap (r : Router) (e : Event) : (r.emit e).ipMacMap = r.ipMacMap := rfl
@[simp] theorem emit_deltaList (r : Router) (e : Event) :
    (r.emit e).deltaList = r.deltaList := rfl
@[simp] theorem emit_copies (r : Router) (e : Event) : (r.emit e).copies = r.copies := rfl
@[simp] theorem emit_log (r : Router) (e : Event) : (r.emit e).log = r.log ++ [e] := rfl

/-- `timer_settime` with a zero interval; a zero value disarms. -/
def timerSettime (r : Router) (tvSec tvNsec : Nat) : Router :=
  { r with timer := tvSec * 1000000000 + tvNsec }

/-- `it_value.tv_nsec` as `timer_gettime` reports it. -/
def timerTvNsec (r : Router) : Nat := r.timer % 1000000000

end Router

/-- `send_arp`: one frame on an Ethernet interface, nothing on the others. -/
def sendArp (cfg : Config) (r : Router) (pkt : ArpHdr) (intId : cfg.IntId) : Router :=
  match cfg.interfaceGetType intId with
  | .ether =>
      r.emit (.write intId (MacAddr.broadcast.bytes ++ pkt.senderMac.bytes ++
        le16 (ntohs ethertypeArp) ++ pkt.bytes))
  | .wifi | .unknown => r

/-- The ARP request that `timer_add_packet` and `timer_handler` build. -/
def arpRequest (cfg : Config) (intId : cfg.IntId) (targetIp : IpAddr) : ArpHdr where
  hardwareType := ntohs 0x0001
  protocolType := ntohs 0x0800
  hardwareLength := 6
  protocolLength := 4
  operation := ntohs 0x01
  senderIp := cfg.interfaceGetIp intId
  senderMac := cfg.interfaceGetMacAddr intId
  targetIp := targetIp
  targetMac := MacAddr.broadcast

end NaptRouter
