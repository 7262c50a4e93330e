import NaptRouter.Ipv4

/-!
# `arp.c` and `ethernet.c`

What a received frame does. The sender of an IPv4 frame and the sender of an ARP packet are
both entered in the IP-to-MAC map; only the second also takes the delta-list node of the
address out.
-/

namespace NaptRouter

open ByteMemory

/-! ## `arp_handle` -/

/-- The packet passes the three tests at the start of `arp_handle`. -/
def arpValid (pkt : ArpHdr) : Bool :=
  ntohs pkt.protocolType == 0x0800 && ntohs pkt.hardwareType == 0x0001 &&
    !ipAddrEquals pkt.senderIp ⟨0, 0, 0, 0⟩

/-- The interface and the source address of the frame are not used: the last test of the
function, on the side of the interface, has nothing after it. -/
def arpHandle (cfg : Config) (r : Router) (pkt : ArpHdr) (_intId : cfg.IntId)
    (_src : MacAddr) : Router :=
  if !arpValid pkt then r
  else
    let senderPair : IpMacPair := { ipAddr := pkt.senderIp, macAddr := pkt.senderMac }
    let r := { r with ipMacMap := updateIpMacPair r.ipMacMap senderPair }
    timerUpdatePackets cfg r pkt.senderIp

/-! ## `ethernet_handle` -/

/-- A received frame, the interface it came in on, and what `rand()` returns meanwhile. -/
structure Frame (cfg : Config) where
  bytes : Mem
  intId : cfg.IntId
  rand : Nat → Nat

/-- `pkt_ptr + 1`. -/
def payload (frame : Mem) : Mem := frame.shift sizeofEthernetHdr

/-- The IPv4 packet in a frame. -/
def Frame.ipv4 {cfg : Config} (f : Frame cfg) : Ipv4Input cfg := ⟨payload f.bytes, f.intId, f.rand⟩

/-- The sender of an IPv4 frame. -/
def Frame.sender {cfg : Config} (f : Frame cfg) : IpMacPair :=
  ⟨ipSrc (payload f.bytes), macSrc f.bytes⟩

def ethernetHandle (cfg : Config) (r : Router) (f : Frame cfg) : Option Router :=
  if ntohs (ethertype f.bytes) = ethertypeIpv4 then
    let ipPkt := payload f.bytes
    let senderPair : IpMacPair := { ipAddr := ipSrc ipPkt, macAddr := macSrc f.bytes }
    let r := { r with ipMacMap := updateIpMacPair r.ipMacMap senderPair }
    ipv4Handle cfg r { pkt := ipPkt, intId := f.intId, rand := f.rand }
  else if ntohs (ethertype f.bytes) = ethertypeArp then
    some (arpHandle cfg r (ArpHdr.read (payload f.bytes) 0) f.intId (macSrc f.bytes))
  else some r

/-- Handling an IPv4 packet changes the NAPT tables and sends at most one packet. -/
theorem ipv4Handle_cases {cfg : Config} {r r' : Router} {i : Ipv4Input cfg}
    (h : ipv4Handle cfg r i = some r') :
    ∃ napt, r' = { r with napt } ∨ ∃ pkt, r' = sendIpv4 cfg { r with napt } pkt := by
  unfold ipv4Handle at h
  split at h
  · exact ⟨r.napt, Or.inl (Option.some.inj h).symm⟩
  · obtain ⟨⟨napt, endpoint⟩, -, h⟩ := Option.bind_eq_some_iff.1 h
    cases endpoint with
    | none => exact ⟨napt, Or.inl (Option.some.inj h).symm⟩
    | some _ => exact ⟨napt, Or.inr ⟨_, (Option.some.inj h).symm⟩⟩
  · exact ⟨r.napt, Or.inr ⟨i.pkt, (Option.some.inj h).symm⟩⟩
  · obtain ⟨⟨napt, port⟩, -, h⟩ := Option.bind_eq_some_iff.1 h
    cases port with
    | none => exact ⟨napt, Or.inl (Option.some.inj h).symm⟩
    | some _ => exact ⟨napt, Or.inr ⟨_, (Option.some.inj h).symm⟩⟩

/-! ## Learning an address -/

/-- The state with the sender of a frame or of an ARP packet entered in the map. -/
def learn (r : Router) (pair : IpMacPair) : Router :=
  { r with ipMacMap := updateIpMacPair r.ipMacMap pair }

theorem hasMacForIp_learn_ne {r : Router} {pair : IpMacPair} {ip : IpAddr} (hip : ip ≠ pair.ipAddr)
    (h : hasMacForIp r.ipMacMap ip = false) : hasMacForIp (learn r pair).ipMacMap ip = false := by
  rw [Bool.eq_false_iff] at h ⊢
  intro hlearn
  rcases (hasMacForIp_update _ _ _).1 hlearn with heq | hold
  · exact hip heq
  · exact h hold

theorem hasMacForIp_learn_self (r : Router) (pair : IpMacPair) :
    hasMacForIp (learn r pair).ipMacMap pair.ipAddr = true :=
  (hasMacForIp_update _ _ _).2 (Or.inl rfl)

theorem ethernetHandle_ipv4 {cfg : Config} {r : Router} {f : Frame cfg}
    (htype : ntohs (ethertype f.bytes) = ethertypeIpv4) :
    ethernetHandle cfg r f = ipv4Handle cfg (learn r f.sender) f.ipv4 :=
  if_pos htype

theorem ethernetHandle_arp {cfg : Config} {r : Router} {f : Frame cfg}
    (htype : ntohs (ethertype f.bytes) = ethertypeArp) :
    ethernetHandle cfg r f =
      some (arpHandle cfg r (.read (payload f.bytes) 0) f.intId (macSrc f.bytes)) := by
  rw [ethernetHandle, if_neg (by rw [htype]; decide), if_pos htype]

end NaptRouter
