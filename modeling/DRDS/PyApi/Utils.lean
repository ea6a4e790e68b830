import DRDS.Server.Packet

/-! The packets of `pyapi/utils.py`. A ctypes integer field keeps the low bits of what it
is given, and packed fields lie in the byte order of the host, little-endian here. `none`
is a raised exception. -/
namespace DRDS.PyApi
open Go

structure Header where
  src : UInt8
  dst : UInt8
  typePrio : UInt8
  verRes : UInt8
  physicalTime : UInt32
  simulinkTime : UInt32
  sequence : UInt16
  length : UInt16
  service : UInt8
  flag : UInt8
  option1 : UInt8
  option2 : UInt8
  subframeNum : UInt16
  deriving DecidableEq

structure SubHeader where
  dataID : UInt16
  timeDiff : UInt16
  row : UInt8
  col : UInt8
  length : UInt16
  deriving DecidableEq

structure SubPacket where
  header : SubHeader
  payload : List Float64
  deriving DecidableEq

structure Packet where
  header : Header
  subpackets : List SubPacket
  deriving DecidableEq

/-- `bytes(self.header)` -/
def Header.bytes (h : Header) : List UInt8 :=
  [h.src, h.dst, h.typePrio, h.verRes] ++ leBytes 4 h.physicalTime.toNat ++
    leBytes 4 h.simulinkTime.toNat ++ leBytes 2 h.sequence.toNat ++ leBytes 2 h.length.toNat ++
    [h.service, h.flag, h.option1, h.option2] ++ leBytes 2 h.subframeNum.toNat

def SubHeader.bytes (h : SubHeader) : List UInt8 :=
  leBytes 2 h.dataID.toNat ++ leBytes 2 h.timeDiff.toNat ++ [h.row, h.col] ++
    leBytes 2 h.length.toNat

def SubPacket.init (dataID timeDiff row col length : ℕ) (payload : List Float64) : SubPacket where
  header := ⟨.ofNat dataID, .ofNat timeDiff, .ofNat row, .ofNat col, .ofNat length⟩
  payload := payload

/-- `double_arr(*self.payload)` zeroes what the payload leaves and raises when it is too long. -/
def SubPacket.pkt2Buf? (p : SubPacket) : Option (List UInt8) :=
  if p.payload.length ≤ p.header.length.toNat then
    some (p.header.bytes ++
      (p.payload.rightpad p.header.length.toNat 0).flatMap (fun v => leBytes 8 v.toNat))
  else none

def Packet.init (src dst type prio version reserved physicalTime simulinkTime sequence length
    service flag option1 option2 subframeNum : ℕ) (subpackets : List SubPacket) : Packet where
  header := {
    src := .ofNat src
    dst := .ofNat dst
    -- `+` binds tighter than `<<`
    typePrio := .ofNat (type <<< (4 + prio))
    verRes := .ofNat (version <<< (4 + reserved))
    physicalTime := .ofNat physicalTime
    simulinkTime := .ofNat simulinkTime
    sequence := .ofNat sequence
    length := .ofNat length
    service := .ofNat service
    flag := .ofNat flag
    option1 := .ofNat option1
    option2 := .ofNat option2
    subframeNum := .ofNat subframeNum }
  subpackets := subpackets

def Packet.pkt2Buf? (p : Packet) : Option (List UInt8) :=
  p.subpackets.foldlM (fun buf subpkt => do
    let b ← subpkt.pkt2Buf?
    some (buf ++ b)) p.header.bytes

/-! ### Decoding -/

def field (buffer : List UInt8) (offset width : ℕ) : ℕ := leNat ((buffer.drop offset).take width)

/-- `Header.from_buffer_copy(buffer[:22])`, which raises when there are fewer bytes. -/
def Header.fromBuffer? (buffer : List UInt8) : Option Header :=
  if 22 ≤ buffer.length then
    some {
      src := .ofNat (field buffer 0 1)
      dst := .ofNat (field buffer 1 1)
      typePrio := .ofNat (field buffer 2 1)
      verRes := .ofNat (field buffer 3 1)
      physicalTime := .ofNat (field buffer 4 4)
      simulinkTime := .ofNat (field buffer 8 4)
      sequence := .ofNat (field buffer 12 2)
      length := .ofNat (field buffer 14 2)
      service := .ofNat (field buffer 16 1)
      flag := .ofNat (field buffer 17 1)
      option1 := .ofNat (field buffer 18 1)
      option2 := .ofNat (field buffer 19 1)
      subframeNum := .ofNat (field buffer 20 2) }
  else none

/-- `SubHeader.from_buffer_copy(buffer[:8])` -/
def SubHeader.fromBuffer? (buffer : List UInt8) : Option SubHeader :=
  if 8 ≤ buffer.length then
    some {
      dataID := .ofNat (field buffer 0 2)
      timeDiff := .ofNat (field buffer 2 2)
      row := .ofNat (field buffer 4 1)
      col := .ofNat (field buffer 5 1)
      length := .ofNat (field buffer 6 2) }
  else none

/-- The subframe and the bytes it took. -/
def SubPacket.buf2Pkt? (buffer : List UInt8) : Option (SubPacket × ℕ) := do
  let header ← SubHeader.fromBuffer? buffer
  let size := 8 * header.length.toNat
  let body := (buffer.drop 8).take size
  if body.length = size then
    some (⟨header, (List.range header.length.toNat).map fun i => .ofNat (field body (8 * i) 8)⟩,
      8 + size)
  else none

def Packet.buf2Pkt? (buffer : List UInt8) : Option Packet := do
  let header ← Header.fromBuffer? buffer
  let (_, subpackets) ← (List.range header.subframeNum.toNat).foldlM (fun (index, subpackets) _ => do
    let (subpkt, size) ← SubPacket.buf2Pkt? (buffer.drop index)
    some (index + size, subpackets ++ [subpkt])) (22, [])
  some ⟨header, subpackets⟩

end DRDS.PyApi
