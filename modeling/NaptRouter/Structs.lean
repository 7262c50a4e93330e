import NaptRouter.Lib.ByteMemory

/-!
# Addresses, ports and packet headers

`structs.h`, and the header layouts of `ipv4.h`, `arp.h` and `ethernet.h`. A packet is a block
of memory (`Mem`), as in the C, where a header is a pointer cast over the receive buffer. A
header field is a read or a write at its offset. Sixteen-bit fields are loaded in the byte
order of the machine (little-endian) and swapped by `ntohs` where the C swaps them.
-/

namespace NaptRouter

open ByteMemory

/-! ## Addresses -/

/-- `ip_addr_t`. -/
structure IpAddr where
  b0 : UInt8
  b1 : UInt8
  b2 : UInt8
  b3 : UInt8
deriving DecidableEq, Repr

/-- `mac_addr_t`. -/
structure MacAddr where
  b0 : UInt8
  b1 : UInt8
  b2 : UInt8
  b3 : UInt8
  b4 : UInt8
  b5 : UInt8
deriving DecidableEq, Repr

/-- `port_t`: a port in host order. -/
structure Port where
  value : UInt16
deriving DecidableEq, Repr

namespace IpAddr

/-- The address as it lies in memory. -/
def bytes (ip : IpAddr) : List UInt8 := [ip.b0, ip.b1, ip.b2, ip.b3]

/-- The address stored at an offset. -/
def read (m : Mem) (off : Nat) : IpAddr := ⟨m off, m (off + 1), m (off + 2), m (off + 3)⟩

@[simp] theorem length_bytes (ip : IpAddr) : ip.bytes.length = 4 := rfl

theorem bytes_injective {ip ip' : IpAddr} (h : ip.bytes = ip'.bytes) : ip = ip' := by
  cases ip
  cases ip'
  simpa [bytes] using h

theorem bytes_read (m : Mem) (off : Nat) : (read m off).bytes = m.read off 4 := by
  simp [bytes, read, Mem.read, List.range_succ]

theorem read_eq_iff {m : Mem} {off : Nat} {ip : IpAddr} :
    read m off = ip ↔ m.read off 4 = ip.bytes := by
  rw [← bytes_read]
  exact ⟨fun h => h ▸ rfl, bytes_injective⟩

theorem read_congr {m m' : Mem} {off off' : Nat} (h : m.read off 4 = m'.read off' 4) :
    read m off = read m' off' := by
  rw [read_eq_iff, h, bytes_read]

end IpAddr

namespace MacAddr

def bytes (mac : MacAddr) : List UInt8 := [mac.b0, mac.b1, mac.b2, mac.b3, mac.b4, mac.b5]

def read (m : Mem) (off : Nat) : MacAddr :=
  ⟨m off, m (off + 1), m (off + 2), m (off + 3), m (off + 4), m (off + 5)⟩

theorem read_congr {m m' : Mem} {off off' : Nat} (h : m.read off 6 = m'.read off' 6) :
    read m off = read m' off' := by
  have hb := Mem.read_eq_iff.1 h
  have h0 : m off = m' off' := hb 0 (by decide)
  simp only [read, h0, hb 1 (by decide), hb 2 (by decide), hb 3 (by decide), hb 4 (by decide),
    hb 5 (by decide)]

/-- `{0xFF, 0xFF, 0xFF, 0xFF, 0xFF, 0xFF}`. -/
def broadcast : MacAddr := ⟨0xFF, 0xFF, 0xFF, 0xFF, 0xFF, 0xFF⟩

end MacAddr

/-! ## IPv4 header -/

/-- `(pkt->ver_ihl & 0x0F) * 4`: where the transport header starts. -/
def headerLen (pkt : Mem) : Nat := (pkt 0 &&& 0x0F).toNat * 4

/-- `pkt->total_length`, in network order. -/
def totalLength (pkt : Mem) : UInt16 := pkt.load16 2

/-- `pkt->protocol`. -/
def protocol (pkt : Mem) : UInt8 := pkt 9

/-- `pkt->ip_src`. -/
def ipSrc (pkt : Mem) : IpAddr := .read pkt 12

/-- `pkt->ip_dst`. -/
def ipDst (pkt : Mem) : IpAddr := .read pkt 16

/-- `pkt->checksum = v`. -/
def setChecksum (pkt : Mem) (v : UInt16) : Mem := pkt.store16 10 v

/-- `pkt->ip_src = ip`. -/
def setIpSrc (pkt : Mem) (ip : IpAddr) : Mem := pkt.write 12 ip.bytes

/-- `pkt->ip_dst = ip`. -/
def setIpDst (pkt : Mem) (ip : IpAddr) : Mem := pkt.write 16 ip.bytes

/-! ## Transport header

`udp_hdr_t` and `tcp_hdr_t` both start with the source port and the destination port. -/

/-- `to_port(hdr->port_src)` of the header at `off`. -/
def portSrc (pkt : Mem) (off : Nat) : Port := ⟨ntohs (pkt.load16 off)⟩

/-- `to_port(hdr->port_dst)` of the header at `off`. -/
def portDst (pkt : Mem) (off : Nat) : Port := ⟨ntohs (pkt.load16 (off + 2))⟩

/-- `hdr->port_src = from_port(port)`. -/
def setPortSrc (pkt : Mem) (off : Nat) (port : Port) : Mem := pkt.store16 off (ntohs port.value)

/-- `hdr->port_dst = from_port(port)`. -/
def setPortDst (pkt : Mem) (off : Nat) (port : Port) : Mem :=
  pkt.store16 (off + 2) (ntohs port.value)

/-- `udp_hdr->length` of the header at `off`, in network order. -/
def udpLength (pkt : Mem) (off : Nat) : UInt16 := pkt.load16 (off + 4)

/-- Offset of `checksum` in `udp_hdr_t`. -/
def udpChecksumOff : Nat := 6

/-- Offset of `checksum` in `tcp_hdr_t`. -/
def tcpChecksumOff : Nat := 16

/-- A UDP datagram without options, payload or checksum. -/
def udpDatagram (src dst : IpAddr × Port) : Mem :=
  Mem.zero.write 0 ([0x45, 0, 0, 28, 0, 0, 0, 0, 64, 17, 0, 0] ++ src.1.bytes ++ dst.1.bytes ++
    le16 (ntohs src.2.value) ++ le16 (ntohs dst.2.value) ++ [0, 8, 0, 0])

@[simp] theorem portSrc_setPortSrc (pkt : Mem) (off : Nat) (port : Port) :
    portSrc (setPortSrc pkt off port) off = port := by
  simp [portSrc, setPortSrc, ntohs_ntohs]

@[simp] theorem portDst_setPortDst (pkt : Mem) (off : Nat) (port : Port) :
    portDst (setPortDst pkt off port) off = port := by
  simp [portDst, setPortDst, ntohs_ntohs]

/-! ## ARP and Ethernet headers -/

/-- `arp_hdr_t`, the sixteen-bit fields as they lie in memory. -/
structure ArpHdr where
  hardwareType : UInt16
  protocolType : UInt16
  hardwareLength : UInt8
  protocolLength : UInt8
  operation : UInt16
  senderMac : MacAddr
  senderIp : IpAddr
  targetMac : MacAddr
  targetIp : IpAddr
deriving DecidableEq, Repr

namespace ArpHdr

def bytes (pkt : ArpHdr) : List UInt8 :=
  le16 pkt.hardwareType ++ le16 pkt.protocolType ++ [pkt.hardwareLength, pkt.protocolLength] ++
    le16 pkt.operation ++ pkt.senderMac.bytes ++ pkt.senderIp.bytes ++ pkt.targetMac.bytes ++
    pkt.targetIp.bytes

/-- The header a pointer cast finds at an offset. -/
def read (m : Mem) (off : Nat) : ArpHdr where
  hardwareType := m.load16 off
  protocolType := m.load16 (off + 2)
  hardwareLength := m (off + 4)
  protocolLength := m (off + 5)
  operation := m.load16 (off + 6)
  senderMac := .read m (off + 8)
  senderIp := .read m (off + 14)
  targetMac := .read m (off + 18)
  targetIp := .read m (off + 24)

end ArpHdr

/-- `sizeof(ethernet_hdr_t)`. -/
def sizeofEthernetHdr : Nat := 14

/-- `pkt_ptr->mac_src`. -/
def macSrc (frame : Mem) : MacAddr := .read frame 6

/-- `pkt_ptr->ethertype`, in network order. -/
def ethertype (frame : Mem) : UInt16 := frame.load16 12

/-- `ETHERTYPE_IPV4`. -/
def ethertypeIpv4 : UInt16 := 0x0800

/-- `ETHERTYPE_ARP`. -/
def ethertypeArp : UInt16 := 0x0806

end NaptRouter
