import DpdkEcho.Net.Header

/-!
# Reading a frame

A receiver's view of a frame: Ethernet with an optional 802.1Q tag, IPv4, and UDP or TCP. Each
layer is refused (`none`) when the frame is too short for it or its length fields contradict each
other. The layouts are those of the standards, written down without reference to a sender.
-/

namespace DpdkEcho

open Infra

/-! ## Ethernet -/

/-- The link layer. `next` is the offset behind it. -/
structure EtherView where
  dstMac : EtherAddr
  srcMac : EtherAddr
  tci : Option UInt16
  etherType : UInt16
  next : Nat
deriving DecidableEq

/-- Ethernet and 802.1Q. The ether type is the one behind the tag. -/
def decodeEther (m : Mem) (len : Nat) : Option EtherView :=
  if len < 14 then none
  else if load16 m 12 = 0x8100 then
    if len < 18 then none
    else some {
      dstMac := loadMac m 0
      srcMac := loadMac m 6
      tci := some (load16 m 14)
      etherType := load16 m 16
      next := 18 }
  else some {
    dstMac := loadMac m 0
    srcMac := loadMac m 6
    tci := none
    etherType := load16 m 12
    next := 14 }

/-! ## IPv4 -/

structure Ipv4View where
  headerLength : Nat
  totalLength : Nat
  proto : UInt8
  srcIp : UInt32
  dstIp : UInt32
deriving DecidableEq

/-- IPv4 at `off`. Fragments are not reassembled. -/
def decodeIpv4 (m : Mem) (off len : Nat) : Option Ipv4View :=
  let headerLength := 4 * ((m off).toNat % 16)
  let totalLength := (load16 m (off + 2)).toNat
  if len < off + 20 ∨ (m off).toNat / 16 ≠ 4 ∨ headerLength < 20 ∨ totalLength < headerLength ∨
      len < off + totalLength ∨ load16 m (off + 6) &&& 0x3fff ≠ 0 then none
  else some {
    headerLength := headerLength
    totalLength := totalLength
    proto := m (off + 9)
    srcIp := load32 m (off + 12)
    dstIp := load32 m (off + 16) }

/-! ## UDP and TCP -/

structure UdpView where
  srcPort : UInt16
  dstPort : UInt16
  dgramLen : Nat
deriving DecidableEq

/-- UDP at `off`, in a packet with `room` bytes from there on. -/
def decodeUdp (m : Mem) (off room : Nat) : Option UdpView :=
  let dgramLen := (load16 m (off + 4)).toNat
  if room < 8 ∨ dgramLen < 8 ∨ room < dgramLen then none
  else some {
    srcPort := load16 m off
    dstPort := load16 m (off + 2)
    dgramLen := dgramLen }

/-- A TCP option with a length, without its first two bytes. -/
structure TcpOption where
  kind : UInt8
  data : List UInt8
deriving DecidableEq, Repr

/-- The data of an option as a number, least significant byte first. -/
def TcpOption.value (o : TcpOption) : Nat := o.data.foldr (fun b acc => b.toNat + 256 * acc) 0

/-- Walk the bytes of the options. Kind 0 ends the list, kind 1 is padding, and any other is
followed by its length, which counts the first two bytes as well. -/
def walkOptions : (fuel : Nat) → List UInt8 → Option (List TcpOption)
  | _, [] => some []
  | 0, _ :: _ => none
  | fuel + 1, kind :: rest =>
    if kind = 0 then some []
    else if kind = 1 then walkOptions fuel rest
    else
      match rest with
      | [] => none
      | n :: rest =>
        if n.toNat < 2 ∨ rest.length < n.toNat - 2 then none
        else
          (walkOptions fuel (rest.drop (n.toNat - 2))).map
            ({ kind := kind, data := rest.take (n.toNat - 2) } :: ·)

structure TcpView where
  srcPort : UInt16
  dstPort : UInt16
  headerLength : Nat
  options : List TcpOption
deriving DecidableEq

/-- TCP at `off`, in a packet with `room` bytes from there on. -/
def decodeTcp (m : Mem) (off room : Nat) : Option TcpView :=
  let headerLength := 4 * ((m (off + 12)).toNat / 16)
  if room < 20 ∨ headerLength < 20 ∨ room < headerLength then none
  else
    (walkOptions (headerLength - 20)
      ((List.range (headerLength - 20)).map fun i => m (off + 20 + i))).map fun options =>
        { srcPort := load16 m off
          dstPort := load16 m (off + 2)
          headerLength := headerLength
          options := options }

/-! ## The frame -/

inductive TransportView where
  | udp (view : UdpView)
  | tcp (view : TcpView)
deriving DecidableEq

def TransportView.srcPort : TransportView → UInt16
  | .udp view => view.srcPort
  | .tcp view => view.srcPort

def TransportView.dstPort : TransportView → UInt16
  | .udp view => view.dstPort
  | .tcp view => view.dstPort

/-- A decoded frame. `transportOff` is where the transport header starts, `payload` is the offset
behind it. -/
structure FrameView where
  ether : EtherView
  ip : Ipv4View
  transportOff : Nat
  transport : TransportView
  payload : Nat
  payloadLength : Nat
deriving DecidableEq

/-- What is behind the IPv4 header. -/
def decodeTransport (m : Mem) (ether : EtherView) (ip : Ipv4View) : Option FrameView :=
  let off := ether.next + ip.headerLength
  let room := ip.totalLength - ip.headerLength
  if ip.proto = 17 then
    (decodeUdp m off room).map fun udp =>
      { ether := ether, ip := ip, transportOff := off, transport := .udp udp
        payload := off + 8, payloadLength := udp.dgramLen - 8 }
  else if ip.proto = 6 then
    (decodeTcp m off room).map fun tcp =>
      { ether := ether, ip := ip, transportOff := off, transport := .tcp tcp
        payload := off + tcp.headerLength, payloadLength := room - tcp.headerLength }
  else none

/-- Decode the `len` bytes of a frame. -/
def decodeFrame (m : Mem) (len : Nat) : Option FrameView := do
  let ether ← decodeEther m len
  if ether.etherType ≠ 0x0800 then none
  else
    let ip ← decodeIpv4 m ether.next len
    decodeTransport m ether ip

end DpdkEcho
