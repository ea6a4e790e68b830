import DRDS.Go.LittleEndian
import DRDS.Wire.PrefixDecoder

/-! The service packet and its Go encoder and decoder. A packet is generic in how it
holds a byte string: `β` is a slice in the running code and a list of bytes on the wire. -/
namespace DRDS.Server
open Go Wire

structure Packet (β : Type) where
  src : UInt8
  dst : UInt8
  messageType : UInt8
  priority : UInt8
  version : UInt8
  reserved : UInt8
  physicalTime : UInt32
  simulinkTime : UInt32
  sequence : UInt16
  length : UInt16
  payload : β
  deriving DecidableEq

structure SubPacket (β : Type) where
  dataID : UInt16
  timeDiff : UInt16
  row : UInt8
  col : UInt8
  length : UInt16
  payload : β
  deriving DecidableEq

structure ServicePacket (β : Type) extends Packet β where
  service : UInt8
  flag : UInt8
  option1 : UInt8
  option2 : UInt8
  subframeNum : UInt16
  subpackets : List (SubPacket β)
  deriving DecidableEq

variable {β γ : Type}

def SubPacket.map (f : β → γ) (s : SubPacket β) : SubPacket γ := { s with payload := f s.payload }

def ServicePacket.map (f : β → γ) (p : ServicePacket β) : ServicePacket γ :=
  { p with payload := f p.payload, subpackets := p.subpackets.map (SubPacket.map f) }

/-- What a subframe says, whatever capacity its payload slice has. -/
def SubPacket.visible : SubPacket (Slice UInt8) → SubPacket (List UInt8) := SubPacket.map Slice.toList

def ServicePacket.visible : ServicePacket (Slice UInt8) → ServicePacket (List UInt8) :=
  ServicePacket.map Slice.toList

/-! ### Decoding -/

def fromBuf? (buf : Slice UInt8) : Option (Packet (Slice UInt8)) := do
  let src ← buf.index? 0
  let dst ← buf.index? 1
  let temp ← uint16At? buf 2 4
  let physicalTime ← uint32At? buf 4 8
  let simulinkTime ← uint32At? buf 8 12
  let sequence ← uint16At? buf 12 14
  let length ← uint16At? buf 14 16
  let payload ← buf.sliceFrom? 16
  some {
    src, dst
    messageType := (temp >>> 12).toUInt8
    priority := (temp >>> 8 &&& 0x0f).toUInt8
    version := (temp >>> 4 &&& 0x0f).toUInt8
    reserved := (temp &&& 0x0f).toUInt8
    physicalTime, simulinkTime, sequence, length, payload }

/-- One round of the subframe loop: the subframe and the bytes after it. -/
def subframe? (payload : Slice UInt8) : Option (SubPacket (Slice UInt8) × Slice UInt8) := do
  let dataID ← uint16At? payload 0 2
  let timeDiff ← uint16At? payload 2 4
  let row ← payload.index? 4
  let col ← payload.index? 5
  let length ← uint16At? payload 6 8
  -- the offset is computed in the 16 bits of `length`
  let body ← payload.slice? 8 (8 + 8 * length).toNat
  let rest ← payload.sliceFrom? (8 + 8 * length).toNat
  some ({ dataID, timeDiff, row, col, length, payload := body }, rest)

def fromServiceBuf? (buf : Slice UInt8) : Option (ServicePacket (Slice UInt8)) := do
  let pkt ← fromBuf? buf
  let service ← pkt.payload.index? 0
  let flag ← pkt.payload.index? 1
  let option1 ← pkt.payload.index? 2
  let option2 ← pkt.payload.index? 3
  let subframeNum ← uint16At? pkt.payload 4 6
  let payload ← pkt.payload.sliceFrom? 6
  let (subpackets, payload) ← repeat? subframe? subframeNum.toNat payload
  some { toPacket := { pkt with payload }, service, flag, option1, option2, subframeNum, subpackets }

/-! ### Encoding -/

/-- `temp`: type, priority, version and reserved in one word. -/
def nibbles (pkt : Packet β) : UInt16 :=
  (pkt.messageType.toUInt16 <<< 12) + (pkt.priority.toUInt16 <<< 8) +
    (pkt.version.toUInt16 <<< 4) + pkt.reserved.toUInt16

/-- The sixteen bytes `ToBuf` and `ToServiceBuf` start with. -/
def headerBuf (pkt : Packet β) : List UInt8 :=
  [pkt.src, pkt.dst] ++ leBytes 2 (nibbles pkt).toNat ++ leBytes 4 pkt.physicalTime.toNat ++
    leBytes 4 pkt.simulinkTime.toNat ++ leBytes 2 pkt.sequence.toNat ++
    leBytes 2 pkt.length.toNat

def toBuf (pkt : Packet (Slice UInt8)) : List UInt8 := headerBuf pkt ++ pkt.payload.toList

/-- The eight bytes of a subframe before its payload. -/
def subHeader (subpacket : SubPacket β) : List UInt8 :=
  leBytes 2 subpacket.dataID.toNat ++ leBytes 2 subpacket.timeDiff.toNat ++
    [subpacket.row, subpacket.col] ++ leBytes 2 subpacket.length.toNat

def subBuf (subpacket : SubPacket (List UInt8)) : List UInt8 :=
  subHeader subpacket ++ subpacket.payload

def bufExt (pkt : ServicePacket β) : List UInt8 :=
  headerBuf pkt.toPacket ++ [pkt.service, pkt.flag, pkt.option1, pkt.option2]

def toServiceBuf (pkt : ServicePacket (Slice UInt8)) : List UInt8 :=
  bufExt pkt ++ (leBytes 2 pkt.subframeNum.toNat ++
    pkt.subpackets.flatMap (fun subpacket => subBuf subpacket.visible))

/-! ### Payloads of doubles -/

def payloadFloat2Buf (payload : List Float64) : List UInt8 :=
  payload.flatMap (fun v => leBytes 8 v.toNat)

def float64frombytes? (bytes : Slice UInt8) : Option Float64 := uint64? bytes

/-- A round of the loop over the bytes: every eighth starts a value. -/
def payloadRound? (buf : Slice UInt8) (data64 : List Float64) (i : ℕ) : Option (List Float64) :=
  if i % 8 = 0 then do
    let targetBuf ← buf.slice? i (i + 8)
    let v ← float64frombytes? targetBuf
    some (data64 ++ [v])
  else some data64

def payloadBuf2Float? (g : Slice.Growth) (buf : Slice UInt8) : Option (Slice Float64) := do
  let data64 ← (List.range buf.len).foldlM (payloadRound? buf) []
  some (.grown data64 (.replicate (g.spare data64.length) 0))

end DRDS.Server
