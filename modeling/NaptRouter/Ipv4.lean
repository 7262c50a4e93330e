import NaptRouter.Outgoing

/-!
# `ipv4.c`

Address and port translation. `naptOutTranslate` and `naptIncTranslate` are the halves of
`napt_out_handle` and `napt_inc_handle` that work on the tables; the other halves rewrite the
packet and send it. `none` is a call that never returns.

The keys and the entry are stored in the tables as bytes, in the layout of the structs: ports
little-endian, and two bytes of padding before the entry's timestamp.
-/

namespace NaptRouter

open ByteMemory

/-! ## What the tables hold -/

/-- `napt_extern_key_t`, packed. -/
structure NaptExternKey where
  ipDst : IpAddr
  portSrc : Port
  portDst : Port
  protocol : UInt8
deriving DecidableEq, Repr

/-- `napt_intern_key_t`, packed. -/
structure NaptInternKey where
  ipSrc : IpAddr
  portSrc : Port
  protocol : UInt8
deriving DecidableEq, Repr

/-- `napt_entry_t`. -/
structure NaptEntry where
  lanIp : IpAddr
  lanPort : Port
  publicIp : IpAddr
  publicPort : Port
  dstIp : IpAddr
  dstPort : Port
  timestamp : UInt32
deriving DecidableEq, Repr

def NaptExternKey.bytes (k : NaptExternKey) : List UInt8 :=
  k.ipDst.bytes ++ le16 k.portSrc.value ++ le16 k.portDst.value ++ [k.protocol]

def NaptInternKey.bytes (k : NaptInternKey) : List UInt8 :=
  k.ipSrc.bytes ++ le16 k.portSrc.value ++ [k.protocol]

/-- The padding is indeterminate in the C and never read. -/
def NaptEntry.bytes (e : NaptEntry) : List UInt8 :=
  e.lanIp.bytes ++ le16 e.lanPort.value ++ e.publicIp.bytes ++ le16 e.publicPort.value ++
    e.dstIp.bytes ++ le16 e.dstPort.value ++ [0, 0] ++ le32 e.timestamp

/-- The entry a `napt_entry_t*` points to. -/
def NaptEntry.read (m : Mem) (ptr : Nat) : NaptEntry where
  lanIp := .read m ptr
  lanPort := ⟨m.load16 (ptr + 4)⟩
  publicIp := .read m (ptr + 6)
  publicPort := ⟨m.load16 (ptr + 10)⟩
  dstIp := .read m (ptr + 12)
  dstPort := ⟨m.load16 (ptr + 16)⟩
  timestamp := m.load32 (ptr + 20)

def sizeofNaptExternKey : Nat := 9

def sizeofNaptInternKey : Nat := 7

def sizeofNaptEntry : Nat := 24

def naptExternKeyHash (key : List UInt8) : Nat := hashmapCyclicHash (key.take sizeofNaptExternKey)

def naptInternKeyHash (key : List UInt8) : Nat := hashmapCyclicHash (key.take sizeofNaptInternKey)

def naptInit : Napt where
  externHashmap := hashmapInit naptExternKeyHash sizeofNaptExternKey sizeofNaptEntry
  internHashmap := hashmapInit naptInternKeyHash sizeofNaptInternKey sizeofNaptEntry

/-- The router when `main` starts to read packets. -/
def routerInit : Router where
  napt := naptInit
  ipMacMap := IpMacMap.init
  deltaList := []
  timer := 0
  copies := 0
  log := []

/-! ## Outbound -/

/-- The two ports of a TCP or UDP packet, source first. Other packets are dropped. -/
def transportPorts (pkt : Mem) : Option (Port × Port) :=
  if protocol pkt = 6 ∨ protocol pkt = 17 then
    some (portSrc pkt (headerLen pkt), portDst pkt (headerLen pkt))
  else none

/-- The port drawn by one `rand()`. -/
def naptRandPort (rand : Nat) : Port := ⟨UInt16.ofNat (rand % (60000 - 1024) + 1024)⟩

/-- The `while` loop of `napt_out_handle` with `left` attempts left. `rand n` is what `rand()`
returns in attempt `n`. -/
def naptTryPorts (ipSrc ipDst publicIp : IpAddr) (portSrc portDst : Port) (protocol : UInt8)
    (rand : Nat → Nat) : Nat → Napt → Option (Napt × Option Port)
  | 0, napt => some (napt, none)
  | left + 1, napt => do
      let newPortSrc := naptRandPort (rand (10 - (left + 1)))
      let externKey : NaptExternKey := { ipDst, portSrc := newPortSrc, portDst, protocol }
      let (found, externHashmap) ← hashmapContains napt.externHashmap externKey.bytes
      let napt := { napt with externHashmap }
      if found then naptTryPorts ipSrc ipDst publicIp portSrc portDst protocol rand left napt
      else
        let value : NaptEntry :=
          { lanIp := ipSrc, lanPort := portSrc, publicIp, publicPort := newPortSrc,
            dstIp := ipDst, dstPort := portDst, timestamp := 0 }
        let externHashmap ← hashmapInsert napt.externHashmap externKey.bytes value.bytes
        let internKey : NaptInternKey := { ipSrc, portSrc, protocol }
        let internHashmap ← hashmapInsert napt.internHashmap internKey.bytes value.bytes
        some ({ externHashmap, internHashmap }, some newPortSrc)

/-- The first half of `napt_out_handle`: the tables afterwards, and the new source port unless
the packet is dropped. When no port is found, the intern table stays locked. -/
def naptOutTranslate (cfg : Config) (napt : Napt) (pkt : Mem) (rand : Nat → Nat) :
    Option (Napt × Option Port) :=
  match transportPorts pkt with
  | none => some (napt, none)
  | some (portSrc, portDst) => do
      let publicIp := cfg.interfaceGetIp cfg.interfaceGetWanId
      let internKey : NaptInternKey := { ipSrc := ipSrc pkt, portSrc, protocol := protocol pkt }
      let internHashmap ← hashmapLock napt.internHashmap
      let (existingRes, internHashmap) ← hashmapGet internHashmap internKey.bytes
      let napt := { napt with internHashmap }
      match existingRes with
      | some ptr =>
          let newPortSrc := (NaptEntry.read internHashmap.data ptr).publicPort
          some ({ napt with internHashmap := hashmapUnlock internHashmap }, some newPortSrc)
      | none =>
          let externHashmap ← hashmapLock napt.externHashmap
          let (napt, port) ← naptTryPorts (ipSrc pkt) (ipDst pkt) publicIp portSrc portDst
            (protocol pkt) rand 10 { napt with externHashmap }
          let napt := { napt with externHashmap := hashmapUnlock napt.externHashmap }
          match port with
          | none => some (napt, none)
          | some newPortSrc =>
              some ({ napt with internHashmap := hashmapUnlock napt.internHashmap },
                some newPortSrc)

/-- The packet that `napt_out_handle` sends. -/
def naptOutRewrite (cfg : Config) (pkt : Mem) (newPortSrc : Port) : Mem :=
  let transport := headerLen pkt
  let pkt := setIpSrc pkt (cfg.interfaceGetIp cfg.interfaceGetWanId)
  setPortSrc pkt transport newPortSrc

def naptOutHandle (cfg : Config) (r : Router) (pkt : Mem) (rand : Nat → Nat) :
    Option Router := do
  let (napt, port) ← naptOutTranslate cfg r.napt pkt rand
  match port with
  | none => some { r with napt }
  | some newPortSrc => some (sendIpv4 cfg { r with napt } (naptOutRewrite cfg pkt newPortSrc))

/-! ## Inbound -/

/-- The first half of `napt_inc_handle`: the tables afterwards, and the LAN endpoint of the
entry unless the packet is dropped. -/
def naptIncTranslate (napt : Napt) (pkt : Mem) : Option (Napt × Option (IpAddr × Port)) :=
  match transportPorts pkt with
  | none => some (napt, none)
  | some (portSrc, portDst) => do
      let externKey : NaptExternKey :=
        { ipDst := ipSrc pkt, portSrc := portDst, portDst := portSrc, protocol := protocol pkt }
      let externHashmap ← hashmapLock napt.externHashmap
      let (entry, externHashmap) ← hashmapGet externHashmap externKey.bytes
      let napt := { napt with externHashmap := hashmapUnlock externHashmap }
      match entry with
      | none => some (napt, none)
      | some ptr =>
          let entry := NaptEntry.read externHashmap.data ptr
          some (napt, some (entry.lanIp, entry.lanPort))

/-- The packet that `napt_inc_handle` sends. -/
def naptIncRewrite (pkt : Mem) (lanIp : IpAddr) (lanPort : Port) : Mem :=
  let transport := headerLen pkt
  let pkt := setIpDst pkt lanIp
  setPortDst pkt transport lanPort

def naptIncHandle (cfg : Config) (r : Router) (pkt : Mem) : Option Router := do
  let (napt, endpoint) ← naptIncTranslate r.napt pkt
  match endpoint with
  | none => some { r with napt }
  | some (lanIp, lanPort) =>
      some (sendIpv4 cfg { r with napt } (naptIncRewrite pkt lanIp lanPort))

/-! ## `ipv4_handle` -/

/-- What `ipv4_handle` does with a packet. -/
inductive Path
  | ignored
  | inc
  | bridged
  | out
deriving DecidableEq, Repr

/-- The tests of `ipv4_handle`. -/
def ipv4Path (cfg : Config) (pkt : Mem) (intId : cfg.IntId) : Path :=
  if ipAddrEquals (ipDst pkt) ⟨0xff, 0xff, 0xff, 0xff⟩ then .ignored
  else if cfg.interfaceGetSide intId = .wan then
    if !ipAddrEquals (ipDst pkt) (cfg.interfaceGetIp intId) then .ignored else .inc
  else
    let outIntId := cfg.getInterfaceForIp (ipDst pkt)
    if outIntId = intId then .ignored
    else if cfg.interfaceGetSide outIntId = .lan then .bridged
    else .out

/-- A packet, the interface it came in on, and what `rand()` returns while it is handled. -/
structure Ipv4Input (cfg : Config) where
  pkt : Mem
  intId : cfg.IntId
  rand : Nat → Nat

def ipv4Handle (cfg : Config) (r : Router) (i : Ipv4Input cfg) : Option Router :=
  match ipv4Path cfg i.pkt i.intId with
  | .ignored => some r
  | .inc => naptIncHandle cfg r i.pkt
  | .bridged => some (sendIpv4 cfg r i.pkt)
  | .out => naptOutHandle cfg r i.pkt i.rand

/-! ## Lengths and round trips -/

@[simp] theorem NaptExternKey.length_bytes (k : NaptExternKey) :
    k.bytes.length = sizeofNaptExternKey := rfl

@[simp] theorem NaptInternKey.length_bytes (k : NaptInternKey) :
    k.bytes.length = sizeofNaptInternKey := rfl

@[simp] theorem NaptEntry.length_bytes (e : NaptEntry) : e.bytes.length = sizeofNaptEntry := rfl

end NaptRouter
