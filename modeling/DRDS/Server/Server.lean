import DRDS.Go.Loop
import DRDS.Handler.Handler
import DRDS.Server.Packet

/-! The data service: the four services, the packets it sends and the dispatch of a received
packet. What a `go` statement starts is collected as a `Routine` and run on its own. -/
namespace DRDS
open Go

/-- A key missing from a register reads as the empty slice, one missing from `AllClientAddr`
as nil. -/
structure Server where
  handler : Handler
  localSystemID : UInt8
  allClientAddr : UInt8 → Option Addr
  sequence : UInt16
  publisherRegister : UInt16 → List UInt8
  subscriberRegister : UInt16 → List UInt8
  world : World

/-- A server as `Init` leaves it, with an empty table for data id 3 and its records of one
value. -/
def Server.afterInit : Server where
  handler := {
    recordTables := [3]
    dataShapes := fun id => if id = 3 then 1 else 0
    dataBuffer := fun id => if id = 3 then some [] else none }
  localSystemID := 1
  allClientAddr := fun id => if id ∈ Utils.systemID then some ⟨0x7f000001, 20001⟩ else none
  sequence := 0
  publisherRegister := fun _ => []
  subscriberRegister := fun _ => []
  world := ⟨0, fun id => if id = 3 then some ⟨1, []⟩ else none, []⟩

/-- A packet of client 2 for the server with system id 1. -/
def Server.clientPacket {β : Type} (service : UInt8) (subpackets : List (Server.SubPacket β))
    (payload : β) : Server.ServicePacket β where
  src := 2
  dst := 1
  messageType := Utils.msgOuter
  priority := Utils.priorityHight
  version := Utils.versionV0
  reserved := Utils.reserved
  physicalTime := 1650000000
  simulinkTime := 500
  sequence := 0
  length := 22
  payload := payload
  service := service
  flag := Utils.flagSingle
  option1 := Utils.reserved
  option2 := Utils.reserved
  subframeNum := .ofNat subpackets.length
  subpackets := subpackets

/-- How a call ends: it returns `nil` or an error, it panics, or it never returns. -/
inductive Outcome where
  | returned (err : Option String)
  | panicked
  | hangs
  deriving DecidableEq

namespace Server

/-! ### Sending -/

/-- `Type` to `Sequence` of the headers `sendPkt` and `sendOpt` fill in. -/
def outHeader (e : Env) (s : Server) (dst priority : UInt8) (synt : UInt32) (length : UInt16) :
    Packet (Slice UInt8) where
  src := s.localSystemID
  dst := dst
  messageType := Utils.msgOuter
  priority := priority
  version := Utils.versionV0
  reserved := Utils.reserved
  physicalTime := (e.unixMilli s.world.calls / 1000).toUInt32
  simulinkTime := synt
  sequence := s.sequence
  length := length
  payload := .ofList []

/-- The row count, and the length of the first row, each in a byte. -/
def matRow (dataMap : List (List Float64)) : UInt8 := .ofNat dataMap.length

def matCol (dataMap : List (List Float64)) : UInt8 := .ofNat (dataMap.headD []).length

def dataPkt (e : Env) (s : Server) (dst priority : UInt8) (synt : UInt32) (flag : UInt8)
    (dataID : UInt16) (dataMap : List (List Float64)) : ServicePacket (Slice UInt8) :=
  let row := matRow dataMap
  let col := matCol dataMap
  { toPacket := outHeader e s dst priority synt (Utils.serviceHeaderLen.toUInt16 +
      Utils.subHeaderLen.toUInt16 + row.toUInt16 * col.toUInt16 * 8)
    service := Utils.serSend
    flag := flag
    option1 := Utils.reserved
    option2 := Utils.reserved
    subframeNum := 1
    subpackets := [{
      dataID := dataID
      timeDiff := Utils.reserved.toUInt16
      row := row
      col := col
      length := row.toUInt16 * col.toUInt16
      payload := .ofList (payloadFloat2Buf dataMap.flatten) }] }

def optPkt (e : Env) (s : Server) (dst priority : UInt8) (synt : UInt32)
    (service flag opt1 opt2 : UInt8) : ServicePacket (Slice UInt8) where
  toPacket := outHeader e s dst priority synt Utils.serviceHeaderLen.toUInt16
  service := service
  flag := flag
  option1 := opt1
  option2 := opt2
  subframeNum := 0
  subpackets := []

/-- The clock is read and a sequence number taken. -/
def numbered (s : Server) : Server :=
  { s with sequence := s.sequence + 1, world := s.world.tick }

/-- Dial the client and write one datagram. -/
def transmit (e : Env) (dst : UInt8) (buf : List UInt8) (s : Server) : Option String × Server :=
  match e.dialUDP s.world.calls (s.allClientAddr dst) with
  | .error err => (some err, { s with world := s.world.tick })
  | .ok addr =>
    match e.write s.world.tick.calls addr buf with
    | some err => (some err, { s with world := s.world.tick.tick })
    | none => (none, { s with
        world := { s.world.tick.tick with sent := s.world.sent ++ [(addr, buf)] } })

def sendPkt (e : Env) (dst priority : UInt8) (synt : UInt32) (flag : UInt8) (dataID : UInt16)
    (dataMap : List (List Float64)) (s : Server) : Option String × Server :=
  s.numbered.transmit e dst (toServiceBuf (dataPkt e s dst priority synt flag dataID dataMap))

/-- A control packet that went out takes a second sequence number. -/
def sendOpt (e : Env) (dst priority : UInt8) (synt : UInt32) (service flag opt1 opt2 : UInt8)
    (s : Server) : Option String × Server :=
  match s.numbered.transmit e dst
      (toServiceBuf (optPkt e s dst priority synt service flag opt1 opt2)) with
  | (some err, s) => (some err, s)
  | (none, s) => (none, { s with sequence := s.sequence + 1 })

/-! ### Services -/

/-- The handler call that `Send` and `Publish` enqueue a record with. -/
def writeToBuffer (id : UInt16) (data : Data) (s : Server) : Option String × Server :=
  let (err, handler) := s.handler.writeToBuffer id data
  (err, { s with handler })

def send (id : UInt16) (time physicalTime : UInt32) (rawData : List Float64) (s : Server) :
    Option String × Server :=
  s.writeToBuffer id ⟨time, physicalTime, rawData⟩

def queryLastSynt (e : Env) (id : UInt16) (s : Server) : UInt32 × Server :=
  let (last, world) := DRDS.queryLastSynt e id s.world
  (last, { s with world })

def request (e : Env) (id : UInt16) (synt : UInt32) (dst priority : UInt8) (s : Server) :
    Option String × Server :=
  let (synt, s) := if synt = Utils.timeSimuLast then s.queryLastSynt e id else (synt, s)
  let ((_, data, err), world) := s.handler.readSynt e id synt s.world
  match err with
  | some err => (some err, { s with world })
  | none => sendPkt e dst priority synt Utils.flagSingle id [data] { s with world }

/-- The priority of the request is not used. -/
def requestRange (e : Env) (id : UInt16) (timeStart : UInt32) (timeDiff : UInt16)
    (dst _priority : UInt8) (s : Server) : Option String × Server :=
  let (timeEnd, s) := if timeDiff = Utils.paramterRequestLast then s.queryLastSynt e id
    else (timeStart + timeDiff.toUInt32, s)
  match s.handler.readRange e id timeStart timeEnd s.world with
  | (.error err, world) => (some err, { s with world })
  | (.ok (_, _, dataMat), world) =>
    sendPkt e dst Utils.priorityHight timeStart Utils.flagSingle id dataMat { s with world }

/-- One row after the other, up to the first that is refused or out of range. -/
def publishRows (id : UInt16) (synt physicalTime : UInt32) (rawData : Slice Float64) (col : ℕ) :
    List ℕ → Server → Outcome × Server
  | [], s => (.returned none, s)
  | row :: rows, s =>
    match rawData.slice? (row * col) ((row + 1) * col) with
    | none => (.panicked, s)
    | some value =>
      match s.writeToBuffer id ⟨synt + .ofNat row, physicalTime, value.toList⟩ with
      | (some err, s) => (.returned (some err), s)
      | (none, s) => publishRows id synt physicalTime rawData col rows s

/-- `register[id] = append(register[id], dst)` -/
def addClient (register : UInt16 → List UInt8) (id : UInt16) (dst : UInt8) :
    UInt16 → List UInt8 :=
  Function.update register id (register id ++ [dst])

/-- The test under the read lock. -/
def isPublisherRegistered (s : Server) (id : UInt16) (dst : UInt8) : Bool :=
  Utils.uint8Contains (s.publisherRegister id) dst

/-- `Publish` after the test. -/
def publishFrom (isRegistered : Bool) (e : Env) (id : UInt16) (dst rows cols : UInt8)
    (synt physicalTime : UInt32) (rawData : Slice Float64) (s : Server) : Outcome × Server :=
  if isRegistered then
    let (lastSynt, s) := s.queryLastSynt e id
    if synt < lastSynt then
      let (_, s) := s.sendOpt e dst Utils.priorityHight synt Utils.serResponse Utils.flagError
        Utils.reserved Utils.reserved
      (.returned (some "published data are not synchronized with current database"), s)
    else publishRows id synt physicalTime rawData cols.toNat (List.range rows.toNat) s
  else
    let s := { s with publisherRegister := addClient s.publisherRegister id dst }
    let (_, s) := s.sendOpt e dst Utils.priorityHight synt Utils.serResponse Utils.flagSingle
      Utils.reserved Utils.reserved
    (.returned none, s)

def publish (e : Env) (id : UInt16) (dst rows cols : UInt8) (synt physicalTime : UInt32)
    (rawData : Slice Float64) (s : Server) : Outcome × Server :=
  publishFrom (s.isPublisherRegistered id dst) e id dst rows cols synt physicalTime rawData s

/-- The loop `for i := synt; i <= lastSynt; i++`; `none` when it needs more rounds. -/
def history? (e : Env) (id : UInt16) (lastSynt : UInt32) :
    ℕ → UInt32 → Server → Option (List (List Float64) × Server)
  | 0, _, _ => none
  | n + 1, i, s =>
    if i ≤ lastSynt then
      let ((_, row, _), world) := s.handler.readSynt e id i s.world
      match history? e id lastSynt n (i + 1) { s with world } with
      | none => none
      | some (rows, s) => some (row :: rows, s)
    else some ([], s)

/-- More rounds than the loop can make and still end. -/
def historyRounds : ℕ := 2 ^ 32

def isSubscriberRegistered (s : Server) (id : UInt16) (dst : UInt8) : Bool :=
  Utils.uint8Contains (s.subscriberRegister id) dst

/-- The acknowledgement `Subscribe` ends with. -/
def subscribeAck (e : Env) (dst : UInt8) (synt : UInt32) (s : Server) : Outcome × Server :=
  let (err, s) := s.sendOpt e dst Utils.priorityHight synt Utils.serResponse Utils.flagSingle
    Utils.reserved Utils.reserved
  (.returned err, s)

/-- `Subscribe` after the test. -/
def subscribeFrom (isRegistered : Bool) (e : Env) (id : UInt16) (dst : UInt8) (synt : UInt32)
    (s : Server) : Outcome × Server :=
  if isRegistered then
    let (lastSynt, s) := s.queryLastSynt e id
    if synt ≤ lastSynt then
      match s.history? e id lastSynt historyRounds synt with
      | none => (.hangs, s)
      | some (dataMap, s) =>
        let (_, s) := s.sendPkt e dst Utils.priorityMedium synt Utils.flagSingle id dataMap
        s.subscribeAck e dst synt
    else s.subscribeAck e dst synt
  else
    subscribeAck e dst synt
      { s with subscriberRegister := addClient s.subscriberRegister id dst }

/-- The rate is not used. -/
def subscribe (e : Env) (id : UInt16) (dst : UInt8) (synt : UInt32) (_rate : UInt16)
    (s : Server) : Outcome × Server :=
  subscribeFrom (s.isSubscriberRegistered id dst) e id dst synt s

/-! ### Dispatch -/

/-- A call started with `go`. -/
inductive Routine where
  | send (id : UInt16) (time physicalTime : UInt32) (rawData : List Float64)
  | sendPkt (dst priority : UInt8) (synt : UInt32) (flag : UInt8) (dataID : UInt16)
      (dataMap : List (List Float64))
  | publish (id : UInt16) (dst rows cols : UInt8) (synt physicalTime : UInt32)
      (rawData : Slice Float64)

def Routine.run (e : Env) : Routine → Server → Outcome × Server
  | .send id time physicalTime rawData, s =>
    let (err, s) := s.send id time physicalTime rawData
    (.returned err, s)
  | .sendPkt dst priority synt flag dataID dataMap, s =>
    let (err, s) := s.sendPkt e dst priority synt flag dataID dataMap
    (.returned err, s)
  | .publish id dst rows cols synt physicalTime rawData, s =>
    s.publish e id dst rows cols synt physicalTime rawData

/-- `rawData[i*col : (i+1)*col]` for each `i` below `row`. -/
def rowsOf? (rawData : Slice Float64) (row col : UInt8) : Option (List (List Float64)) :=
  (List.range row.toNat).mapM fun i =>
    (rawData.slice? (i * col.toNat) ((i + 1) * col.toNat)).map Slice.toList

/-- One packet for each subscriber. The rows are the same for all of them, so a row out of
range shows before anything is started. -/
def forward? (s : Server) (pkt : ServicePacket (Slice UInt8)) (subpkt : SubPacket (Slice UInt8))
    (rawData : Slice Float64) : Option (List Routine) :=
  (s.subscriberRegister subpkt.dataID).mapM fun dst =>
    (rowsOf? rawData subpkt.row subpkt.col).map fun dataMat =>
      .sendPkt dst pkt.priority pkt.simulinkTime pkt.flag subpkt.dataID dataMat

/-- What a round of a loop starts, and how the call ends if it ends there. -/
abbrev Round := List Routine × Option Outcome

/-- A round of the `SER_SEND` loop. -/
def sendRound (g : Slice.Growth) (s : Server) (pkt : ServicePacket (Slice UInt8))
    (subpkt : SubPacket (Slice UInt8)) : Round :=
  match payloadBuf2Float? g subpkt.payload with
  | none => ([], some .panicked)
  | some rawData =>
    let store := .send subpkt.dataID (pkt.simulinkTime + subpkt.timeDiff.toUInt32)
      pkt.physicalTime rawData.toList
    match s.forward? pkt subpkt rawData with
    | none => ([store], some .panicked)
    | some forwards => (store :: forwards, none)

/-- A round of the `SER_PUBLISH` loop, which returns at the first empty subframe. -/
def publishRound (s : Server) (pkt : ServicePacket (Slice UInt8)) (rawData : Slice Float64)
    (subpkt : SubPacket (Slice UInt8)) : Round :=
  let store := .publish subpkt.dataID pkt.src subpkt.row subpkt.col
    (pkt.simulinkTime + subpkt.timeDiff.toUInt32) pkt.physicalTime rawData
  if subpkt.length = 0 then ([store], some (.returned none))
  else
    match s.forward? pkt subpkt rawData with
    | none => ([store], some .panicked)
    | some forwards => (store :: forwards, none)

/-- Calls made one after the other, up to the first that does not return `nil`. -/
def callLoop {α : Type} (body : α → Server → Outcome × Server) : List α → Server → Outcome × Server
  | [], s => (.returned none, s)
  | x :: xs, s =>
    match body x s with
    | (.returned none, s) => callLoop body xs s
    | (o, s) => (o, s)

def requestCall (e : Env) (pkt : ServicePacket (Slice UInt8)) (subpkt : SubPacket (Slice UInt8))
    (s : Server) : Outcome × Server :=
  let (err, s) :=
    if subpkt.timeDiff = 0 then s.request e subpkt.dataID pkt.simulinkTime pkt.src pkt.priority
    else s.requestRange e subpkt.dataID pkt.simulinkTime subpkt.timeDiff pkt.src pkt.priority
  (.returned err, s)

structure Handled where
  outcome : Outcome
  spawned : List Routine
  server : Server

def handlePkt (g : Slice.Growth) (e : Env) (pkt : ServicePacket (Slice UInt8)) (s : Server) :
    Handled :=
  if pkt.service = Utils.serSend then
    let (spawned, outcome) := rangeLoop (.returned none) (sendRound g s pkt) pkt.subpackets
    ⟨outcome, spawned, s⟩
  else if pkt.service = Utils.serRequest then
    let (outcome, s) := callLoop (requestCall e pkt) pkt.subpackets s
    ⟨outcome, [], s⟩
  else if pkt.service = Utils.serPublish then
    -- the bytes after the last subframe, not the payload of any
    match payloadBuf2Float? g pkt.payload with
    | none => ⟨.panicked, [], s⟩
    | some rawData =>
      let (spawned, outcome) := rangeLoop (.returned none) (publishRound s pkt rawData) pkt.subpackets
      ⟨outcome, spawned, s⟩
  else if pkt.service = Utils.serSubscribe then
    let (outcome, s) := callLoop (fun subpkt s =>
      s.subscribe e subpkt.dataID pkt.src pkt.simulinkTime subpkt.timeDiff) pkt.subpackets s
    ⟨outcome, [], s⟩
  else ⟨.returned none, [], s⟩

end Server
end DRDS
