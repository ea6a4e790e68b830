import DRDS.Concurrency.Program
import DRDS.Handler.HandleData
import DRDS.Server.PacketFormat
import DRDS.Web.Command

/-! The goroutines of a data service, action by action: each statement of the database, each access to a
channel, a register or the sequence number, and each system call may be followed by the actions of
another goroutine. -/
namespace DRDS
open Go Concurrency

/-- The server with what its sockets and its `Buffer` hold. Kept with it are all datagrams that have
arrived and all commands that have been posted. -/
structure Service where
  server : Server
  socket : List (List UInt8)
  buffer : List (Slice UInt8)
  arrived : List (List UInt8)
  commands : List (String × Body)

/-- What runs: the subscriptions `main` makes, the two loops of `listen`, the loop of a record table with
its variables, a call started with `go`, and the handler of a command. -/
inductive Goroutine where
  | main (subscriptions : List (UInt16 × UInt8))
  | producer
  | consumer
  | handleData (id : UInt16) (p : Pending)
  | call (r : Server.Routine)
  | command (param : String) (body : Body)

namespace Service
variable {α : Type}

abbrev Code (α : Type) : Type := Program Service Goroutine α

def onServer (f : Server → α × Server) : Code α :=
  .atomic fun S =>
    let (a, server) := f S.server
    (a, { S with server })

/-! ### Sending -/

/-- The clock is read with the sequence number. -/
def number : Code Server := onServer fun s => (s, s.numbered)

def dial (e : Env) (dst : UInt8) : Code (Except String Addr) :=
  onServer fun s => (e.dialUDP s.world.calls (s.allClientAddr dst), { s with world := s.world.tick })

def write (e : Env) (addr : Addr) (buf : List UInt8) : Code (Option String) :=
  onServer fun s =>
    match e.write s.world.calls addr buf with
    | some err => (some err, { s with world := s.world.tick })
    | none => (none, { s with world := { s.world.tick with sent := s.world.sent ++ [(addr, buf)] } })

def transmit (e : Env) (dst : UInt8) (buf : List UInt8) : Code (Option String) := do
  match ← dial e dst with
  | .error err => return some err
  | .ok addr => write e addr buf

def sendPkt (e : Env) (dst priority : UInt8) (synt : UInt32) (flag : UInt8) (dataID : UInt16)
    (dataMap : List (List Float64)) : Code (Option String) := do
  let s ← number
  transmit e dst (Server.toServiceBuf (s.dataPkt e dst priority synt flag dataID dataMap))

def sendOpt (e : Env) (dst priority : UInt8) (synt : UInt32) (service flag opt1 opt2 : UInt8) :
    Code (Option String) := do
  let s ← number
  match ← transmit e dst (Server.toServiceBuf (s.optPkt e dst priority synt service flag opt1 opt2)) with
  | some err => return some err
  | none => onServer fun s => (none, { s with sequence := s.sequence + 1 })

/-! ### The handler -/

/-- `handler.DataBuffer[id] <- data`, which waits for room. -/
def push (id : UInt16) (data : Data) : Code Unit :=
  .await
    (fun S => (S.server.handler.dataBuffer id).bind fun queue =>
      if queue.length < Utils.buffLen then some () else none)
    fun S => { S with server := (S.server.writeToBuffer id data).2 }

/-- Between the test of the length and the push others may push. -/
def writeToBuffer (id : UInt16) (data : Data) : Code (Option String) := do
  match ← onServer fun s => (s.handler.dataBuffer id, s) with
  | none => return none
  | some queue =>
    if Utils.buffLen ≤ queue.length then return some "buffer is full"
    else do
      push id data
      return none

def queryLastSynt (e : Env) (id : UInt16) : Code UInt32 := onServer fun s => s.queryLastSynt e id

def readSynt (e : Env) (id : UInt16) (synt : UInt32) : Code (UInt64 × List Float64 × Option String) :=
  onServer fun s =>
    let (answer, world) := s.handler.readSynt e id synt s.world
    (answer, { s with world })

def readRange (e : Env) (id : UInt16) (start stop : UInt32) :
    Code (Except String (List UInt32 × List UInt64 × List (List Float64))) :=
  onServer fun s =>
    let (answer, world) := s.handler.readRange e id start stop s.world
    (answer, { s with world })

/-- The time is read before the records are looked at. -/
def writeRange (e : Env) (id : UInt16) (dataVec : List Data) : Code (Option String) := do
  let h ← onServer fun s => (s.handler, s)
  if Utils.uint16Contains h.recordTables id then do
    let recvT ← onServer fun s => (e.unixMilli s.world.calls, { s with world := s.world.tick })
    match dataVec.mapM (h.fillin id recvT) with
    | .error err => return some err
    | .ok rows => onServer fun s =>
      let (err, world) := s.world.insert e id (h.dataShapes id).toNat rows
      (err, { s with world })
  else return none

def receive (id : UInt16) : Code Data :=
  .await (fun S => ((S.server.handler.dataBuffer id).getD []).head?)
    fun S => { S with server := { S.server with handler := { S.server.handler with
      dataBuffer := Function.update S.server.handler.dataBuffer id
        ((S.server.handler.dataBuffer id).map List.tail) } } }

/-- The end of a round, which writes the batch it hands over; the error of a failed write is printed. -/
def handOver (e : Env) (id : UInt16) : Pending × Option (List Data) → Code Unit
  | (p, none) => .again (.handleData id p)
  | (p, some batch) => do
    let _ ← writeRange e id batch
    .again (.handleData id p)

/-- One round of the loop: a record out of the channel, or 100 ms without one, and the time of either
is left to the outside. -/
def handleData (e : Env) (id : UInt16) (p : Pending) : Code Unit :=
  .choose fun n =>
    if n = 0 then do
      let data ← receive id
      .choose fun now => handOver e id (p.handleData (.data data now))
    else .choose fun now => handOver e id (p.handleData (.timeout now))

/-! ### Services -/

def send (id : UInt16) (time physicalTime : UInt32) (rawData : List Float64) : Code (Option String) :=
  writeToBuffer id ⟨time, physicalTime, rawData⟩

/-- `Request` once the time is known. -/
def requestAt (e : Env) (id : UInt16) (synt : UInt32) (dst priority : UInt8) : Code (Option String) := do
  match ← readSynt e id synt with
  | (_, _, some err) => return some err
  | (_, data, none) => sendPkt e dst priority synt Utils.flagSingle id [data]

def request (e : Env) (id : UInt16) (synt : UInt32) (dst priority : UInt8) : Code (Option String) :=
  if synt = Utils.timeSimuLast then do
    let synt ← queryLastSynt e id
    requestAt e id synt dst priority
  else requestAt e id synt dst priority

/-- `RequestRange` once the end is known. -/
def requestUpTo (e : Env) (id : UInt16) (timeStart timeEnd : UInt32) (dst : UInt8) :
    Code (Option String) := do
  match ← readRange e id timeStart timeEnd with
  | .error err => return some err
  | .ok (_, _, dataMat) =>
    sendPkt e dst Utils.priorityHight timeStart Utils.flagSingle id dataMat

def requestRange (e : Env) (id : UInt16) (timeStart : UInt32) (timeDiff : UInt16) (dst _priority : UInt8) :
    Code (Option String) :=
  if timeDiff = Utils.paramterRequestLast then do
    let timeEnd ← queryLastSynt e id
    requestUpTo e id timeStart timeEnd dst
  else requestUpTo e id timeStart (timeStart + timeDiff.toUInt32) dst

def publishRows (id : UInt16) (synt physicalTime : UInt32) (rawData : Slice Float64) (col : ℕ) :
    List ℕ → Code (Option String)
  | [] => return none
  | row :: rows =>
    match rawData.slice? (row * col) ((row + 1) * col) with
    | none => .panic
    | some value => do
      match ← writeToBuffer id ⟨synt + .ofNat row, physicalTime, value.toList⟩ with
      | some err => return some err
      | none => publishRows id synt physicalTime rawData col rows

def publish (e : Env) (id : UInt16) (dst rows cols : UInt8) (synt physicalTime : UInt32)
    (rawData : Slice Float64) : Code (Option String) := do
  if ← onServer fun s => (s.isPublisherRegistered id dst, s) then do
    let lastSynt ← queryLastSynt e id
    if synt < lastSynt then do
      let _ ← sendOpt e dst Utils.priorityHight synt Utils.serResponse Utils.flagError Utils.reserved
        Utils.reserved
      return some "published data are not synchronized with current database"
    else publishRows id synt physicalTime rawData cols.toNat (List.range rows.toNat)
  else do
    onServer fun s => ((), { s with publisherRegister := Server.addClient s.publisherRegister id dst })
    let _ ← sendOpt e dst Utils.priorityHight synt Utils.serResponse Utils.flagSingle Utils.reserved
      Utils.reserved
    return none

/-- The rows of the history, with a statement for each time; out of rounds, the loop never ends. -/
def history (e : Env) (id : UInt16) (lastSynt : UInt32) : ℕ → UInt32 → Code (List (List Float64))
  | 0, _ => .await (fun _ => none) fun S => S
  | n + 1, i =>
    if i ≤ lastSynt then do
      let (_, row, _) ← readSynt e id i
      let rows ← history e id lastSynt n (i + 1)
      return row :: rows
    else return []

def subscribeAck (e : Env) (dst : UInt8) (synt : UInt32) : Code (Option String) :=
  sendOpt e dst Utils.priorityHight synt Utils.serResponse Utils.flagSingle Utils.reserved
    Utils.reserved

def subscribe (e : Env) (id : UInt16) (dst : UInt8) (synt : UInt32) (_rate : UInt16) :
    Code (Option String) := do
  if ← onServer fun s => (s.isSubscriberRegistered id dst, s) then do
    let lastSynt ← queryLastSynt e id
    if synt ≤ lastSynt then do
      let dataMap ← history e id lastSynt Server.historyRounds synt
      let _ ← sendPkt e dst Utils.priorityMedium synt Utils.flagSingle id dataMap
      subscribeAck e dst synt
    else subscribeAck e dst synt
  else do
    onServer fun s => ((), { s with subscriberRegister := Server.addClient s.subscriberRegister id dst })
    subscribeAck e dst synt

/-! ### Dispatch -/

/-- A loop whose rounds may end the function. -/
def rounds {β : Type} (body : β → Code (Option (Option String))) : List β → Code (Option String)
  | [] => return none
  | x :: xs => do
    match ← body x with
    | some o => return o
    | none => rounds body xs

/-- A round that makes a call and ends the function with its error. -/
def tryCall (call : Code (Option String)) : Code (Option (Option String)) := do
  match ← call with
  | some err => return some (some err)
  | none => return none

/-- The subscribers are read at once, and one packet for each of them is started. -/
def forward (pkt : Server.ServicePacket (Slice UInt8)) (subpkt : Server.SubPacket (Slice UInt8))
    (rawData : Slice Float64) : Code (Option (Option String)) := do
  match ← onServer fun s => (s.forward? pkt subpkt rawData, s) with
  | none => .panic
  | some forwards => do
    Program.startAll (forwards.map .call)
    return none

def sendRound (g : Slice.Growth) (pkt : Server.ServicePacket (Slice UInt8))
    (subpkt : Server.SubPacket (Slice UInt8)) : Code (Option (Option String)) :=
  match Server.payloadBuf2Float? g subpkt.payload with
  | none => .panic
  | some rawData => do
    Program.start (.call (.send subpkt.dataID (pkt.simulinkTime + subpkt.timeDiff.toUInt32)
      pkt.physicalTime rawData.toList))
    forward pkt subpkt rawData

def publishRound (pkt : Server.ServicePacket (Slice UInt8)) (rawData : Slice Float64)
    (subpkt : Server.SubPacket (Slice UInt8)) : Code (Option (Option String)) := do
  Program.start (.call (.publish subpkt.dataID pkt.src subpkt.row subpkt.col
    (pkt.simulinkTime + subpkt.timeDiff.toUInt32) pkt.physicalTime rawData))
  if subpkt.length = 0 then return some none
  else forward pkt subpkt rawData

def requestCall (e : Env) (pkt : Server.ServicePacket (Slice UInt8))
    (subpkt : Server.SubPacket (Slice UInt8)) : Code (Option String) :=
  if subpkt.timeDiff = 0 then request e subpkt.dataID pkt.simulinkTime pkt.src pkt.priority
  else requestRange e subpkt.dataID pkt.simulinkTime subpkt.timeDiff pkt.src pkt.priority

def handlePkt (g : Slice.Growth) (e : Env) (pkt : Server.ServicePacket (Slice UInt8)) :
    Code (Option String) :=
  if pkt.service = Utils.serSend then rounds (sendRound g pkt) pkt.subpackets
  else if pkt.service = Utils.serRequest then
    rounds (fun subpkt => tryCall (requestCall e pkt subpkt)) pkt.subpackets
  else if pkt.service = Utils.serPublish then
    match Server.payloadBuf2Float? g pkt.payload with
    | none => .panic
    | some rawData => rounds (publishRound pkt rawData) pkt.subpackets
  else if pkt.service = Utils.serSubscribe then
    rounds (fun subpkt => tryCall (subscribe e subpkt.dataID pkt.src pkt.simulinkTime subpkt.timeDiff))
      pkt.subpackets
  else return none

/-! ### The goroutines -/

/-- `habitatServer.Subscribe` with each data id and its client; what it answers is not looked at. -/
def main (e : Env) : List (UInt16 × UInt8) → Code Unit
  | [] => return ()
  | (id, dst) :: subscriptions => do
    let _ ← subscribe e id dst 0 1000
    main e subscriptions

/-- The ground station and the structure agent. -/
def mainSubscriptions : List (UInt16 × UInt8) := [(3023, 0), (65000, 2)]

/-- A read of a socket, and the send on `Buffer`, which waits for room. -/
def producer : Code Unit := do
  let buf ← Program.await (fun S => S.socket.head?) fun S => { S with socket := S.socket.tail }
  Program.await (fun S => if S.buffer.length < Utils.buffLen then some () else none)
    fun S => { S with buffer := S.buffer ++ [Server.listenBuf buf] }
  .again .producer

def consumer (g : Slice.Growth) (e : Env) : Code Unit := do
  let buf ← Program.await (fun S => S.buffer.head?) fun S => { S with buffer := S.buffer.tail }
  match Server.fromServiceBuf? buf with
  | none => .panic
  | some pkt => do
    -- the error is printed
    let _ ← handlePkt g e pkt
    .again .consumer

def commandProcess (e : Env) (param : String) (body : Body) : Code (Option String) :=
  match command? param body with
  | .error err => return some err
  | .ok (id, dst, values) => do
    match ← sendPkt e dst Utils.priorityNormal Utils.reserved.toUInt32 Utils.flagSingle (.ofInt id)
      [values] with
    | some err => return some err
    | none => do
      let physicalTime ← onServer fun s =>
        ((e.unixMilli s.world.calls / 1000).toUInt32, { s with world := s.world.tick })
      send (.ofInt id) Utils.reserved.toUInt32 physicalTime values

def call (e : Env) : Server.Routine → Code (Option String)
  | .send id time physicalTime rawData => send id time physicalTime rawData
  | .sendPkt dst priority synt flag dataID dataMap => sendPkt e dst priority synt flag dataID dataMap
  | .publish id dst rows cols synt physicalTime rawData =>
    publish e id dst rows cols synt physicalTime rawData

def body (g : Slice.Growth) (e : Env) : Goroutine → Code Unit
  | .main subscriptions => main e subscriptions
  | .producer => producer
  | .consumer => consumer g e
  | .handleData id p => handleData e id p
  | .call r => do
    let _ ← call e r
    return ()
  | .command param body => do
    let _ ← commandProcess e param body
    return ()

/-- A datagram arrives, or a command is posted. A read that fails leaves a zero array, as an empty
datagram does. -/
inductive Input where
  | datagram (bytes : List UInt8)
  | command (param : String) (body : Body)

def input (x : Input) (S : Service) : Service × List Goroutine :=
  match x with
  | .datagram bytes => ({ S with socket := S.socket ++ [bytes], arrived := S.arrived ++ [bytes] }, [])
  | .command param body =>
    ({ S with commands := S.commands ++ [(param, body)] }, [.command param body])

def setting (g : Slice.Growth) (e : Env) : Setting Service Goroutine Input := ⟨body g e, input⟩

end Service
end DRDS
