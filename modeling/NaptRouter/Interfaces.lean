import NaptRouter.Structs
import Mathlib.Data.List.FinRange
import Mathlib.Data.Fin.VecNotation

/-!
# `utils.c` and `interfaces.c`

The interface table, the WAN network that `main` reads from the system, and the choice of the
outgoing interface. The table and the WAN settings are parameters (`Config`): `main` fills in
MAC addresses and the WAN address before the first packet, and nothing writes them later.
-/

namespace NaptRouter

/-! ## Masks -/

/-- The loop of `create_subnet_mask` over the first three octets. It stops at the octet in which
the prefix ends; `((int8_t) -1) << (8 - cidr_prefix_len)` is stored modulo 256. -/
def subnetMaskLoop : Nat → UInt8 → List UInt8
  | 0, _ => []
  | i + 1, cidrPrefixLen =>
      if cidrPrefixLen ≤ 8 then [UInt8.ofInt (-1 * 2 ^ (8 - cidrPrefixLen.toNat))]
      else 0xff :: subnetMaskLoop i (cidrPrefixLen - 8)

/-- `create_subnet_mask`. Octets the loop does not reach stay 0. -/
def createSubnetMask (cidrPrefixLen : UInt8) : IpAddr :=
  let bytes := subnetMaskLoop 3 cidrPrefixLen
  ⟨bytes.getD 0 0, bytes.getD 1 0, bytes.getD 2 0, bytes.getD 3 0⟩

def applyMask (mask ip : IpAddr) : IpAddr :=
  ⟨mask.b0 &&& ip.b0, mask.b1 &&& ip.b1, mask.b2 &&& ip.b2, mask.b3 &&& ip.b3⟩

def ipAddrEquals (ip1 ip2 : IpAddr) : Bool :=
  ip1.b0 == ip2.b0 && ip1.b1 == ip2.b1 && ip1.b2 == ip2.b2 && ip1.b3 == ip2.b3

@[simp] theorem ipAddrEquals_iff {ip1 ip2 : IpAddr} : ipAddrEquals ip1 ip2 = true ↔ ip1 = ip2 := by
  cases ip1
  cases ip2
  simp [ipAddrEquals, and_assoc]

/-- The inner loop of `prefix_len_get`: `byte_len` less the low zero bits of `val`. -/
def octetPrefixLen : Nat → UInt16 → Nat
  | 0, _ => 0
  | byteLen + 1, val =>
      if val &&& 1 = 0 then octetPrefixLen byteLen (val >>> 1) else byteLen + 1

def prefixLenLoop (prefixLen : Nat) : List UInt8 → Option Nat
  | [] => none
  | byte :: rest =>
      let byteLen := octetPrefixLen 8 byte.toUInt16
      let prefixLen := prefixLen + byteLen
      if byteLen ≠ 8 then some prefixLen else prefixLenLoop prefixLen rest

/-- `prefix_len_get`. `none`: the function ends without a `return`. -/
def prefixLenGet (mask : IpAddr) : Option Nat := prefixLenLoop 0 mask.bytes

/-! ## The interface table -/

/-- `INT_SIDE_LAN`, `INT_SIDE_WAN`. -/
inductive Side
  | lan
  | wan
deriving DecidableEq, Repr

/-- `INT_TYPE_ETHER`, `INT_TYPE_WIFI`, and the two values of the bit field without a name. -/
inductive IntType
  | ether
  | wifi
  | unknown
deriving DecidableEq, Repr

/-- `interface_config_t`. -/
structure InterfaceConfig where
  deviceMacAddr : MacAddr
  networkIp : IpAddr
  interfaceIp : IpAddr
  cidrPrefixLen : UInt8
  type : IntType
  side : Side
deriving DecidableEq, Repr

/-- The configuration the router runs with. -/
structure Config where
  amt : Nat
  interfaceArr : Fin amt → InterfaceConfig
  /-- The table has the row that `interface_get_wan_id` names. -/
  wanRow : 1 < amt
  wanNetworkIp : IpAddr
  wanCidrPrefixLen : Nat
  wanGatewayIp : IpAddr
  /-- What `int_id` happens to hold in `get_interface_for_ip` before the first match. A table
  with a `0.0.0.0/0` row, as the shipped one, never returns it. -/
  uninitIntId : Fin amt

namespace Config

abbrev IntId (cfg : Config) := Fin cfg.amt

variable (cfg : Config)

def interfaceGetWanId : cfg.IntId := ⟨1, cfg.wanRow⟩

def interfaceGetSide (intId : cfg.IntId) : Side := (cfg.interfaceArr intId).side

def interfaceGetType (intId : cfg.IntId) : IntType := (cfg.interfaceArr intId).type

def interfaceGetIp (intId : cfg.IntId) : IpAddr := (cfg.interfaceArr intId).interfaceIp

def interfaceGetMacAddr (intId : cfg.IntId) : MacAddr := (cfg.interfaceArr intId).deviceMacAddr

def interfaceGetSubnetMask (intId : cfg.IntId) : IpAddr :=
  createSubnetMask (cfg.interfaceArr intId).cidrPrefixLen

/-- One round of `get_interface_for_ip`: the best match so far and its prefix length, kept in an
`int8_t`. -/
def matchInterface (ip : IpAddr) (best : cfg.IntId × Int) (i : cfg.IntId) : cfg.IntId × Int :=
  let config := cfg.interfaceArr i
  if (config.cidrPrefixLen.toNat : Int) ≤ best.2 then best
  else if ipAddrEquals (applyMask (cfg.interfaceGetSubnetMask i) ip) config.networkIp then
    (i, Int.bmod config.cidrPrefixLen.toNat 256)
  else best

def getInterfaceForIp (ip : IpAddr) : cfg.IntId :=
  ((List.finRange cfg.amt).foldl (cfg.matchInterface ip) (cfg.uninitIntId, -1)).1

/-- The loop of `get_interface_for_ip` with its index, which is a `uint8_t`: a table of 256 rows
never ends it. `none`: `fuel` rounds are not enough. -/
def interfaceLoop (ip : IpAddr) : Nat → UInt8 → cfg.IntId × Int → Option cfg.IntId
  | 0, _, _ => none
  | fuel + 1, i, best =>
      if h : i.toNat < cfg.amt then
        interfaceLoop ip fuel (i + 1) (cfg.matchInterface ip best ⟨i.toNat, h⟩)
      else some best.1

/-- What `main` sets for an address of the WAN interface and its netmask. `stale` is what the
caller of `prefix_len_get` finds when there is no return value. -/
def setWan (ip mask : IpAddr) (stale : Nat) : Config :=
  let ipNetwork := applyMask mask ip
  { cfg with
    interfaceArr := Function.update cfg.interfaceArr cfg.interfaceGetWanId
      { cfg.interfaceArr cfg.interfaceGetWanId with interfaceIp := ip }
    wanNetworkIp := ipNetwork
    wanCidrPrefixLen := (prefixLenGet mask).getD stale
    wanGatewayIp := { ipNetwork with b3 := ipNetwork.b3 ||| 1 } }

/-- The next hop that `send_ipv4` picks for a destination: the destination itself on the LAN and
in the WAN network, the gateway otherwise. -/
def localDstIp (intId : cfg.IntId) (dstIp : IpAddr) : IpAddr :=
  match cfg.interfaceGetSide intId with
  | .lan => dstIp
  | .wan =>
      let subnetMask := createSubnetMask (UInt8.ofNat cfg.wanCidrPrefixLen)
      let dstMasked := applyMask subnetMask dstIp
      if ipAddrEquals dstMasked cfg.wanNetworkIp then dstIp else cfg.wanGatewayIp

end Config

/-- The table in `interfaces.c`, with the WAN settings it starts from. -/
def shippedConfig : Config where
  amt := 2
  interfaceArr := ![
    { deviceMacAddr := ⟨0, 0, 0, 0, 0, 0⟩, networkIp := ⟨192, 168, 1, 0⟩,
      interfaceIp := ⟨192, 168, 1, 1⟩, cidrPrefixLen := 24, type := .ether, side := .lan },
    { deviceMacAddr := ⟨0, 0, 0, 0, 0, 0⟩, networkIp := ⟨0, 0, 0, 0⟩,
      interfaceIp := ⟨192, 168, 0, 2⟩, cidrPrefixLen := 0, type := .ether, side := .wan }]
  wanRow := by decide
  wanNetworkIp := ⟨192, 168, 0, 0⟩
  wanCidrPrefixLen := 24
  wanGatewayIp := ⟨192, 168, 0, 1⟩
  uninitIntId := 0

end NaptRouter
