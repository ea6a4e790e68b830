import DRDS.Handler.Reads
import DRDS.Server.Publish
import DRDS.Server.Replies
import DRDS.Service.Alone

/-! What a data service stores and sends only if it was told to: the contract all its goroutines keep,
whatever the order in which they run. -/
namespace DRDS.Service
open Go Concurrency Server

/-! ### What a service has been told -/

/-- What there is before the first action: the records in the database, and the subscriptions `main` is
to make. -/
structure Start where
  rows : UInt16 → List Row
  subscriptions : List (UInt16 × UInt8)

def Received (S : Service) (pkt : ServicePacket (Slice UInt8)) : Prop :=
  ∃ bytes ∈ S.arrived, fromServiceBuf? (listenBuf bytes) = some pkt

/-- A command has been posted whose checks go through. -/
def Posted (S : Service) (id : UInt16) (dst : UInt8) (values : List Float64) : Prop :=
  ∃ param body n, (param, body) ∈ S.commands ∧ command? param body = .ok (n, dst, values) ∧
    .ofInt n = id

/-- The records clients and operators have given: the values of a subframe sent, or of a command. -/
inductive Offered (g : Slice.Growth) (S : Service) (id : UInt16) : Data → Prop
  | send {pkt : ServicePacket (Slice UInt8)} {f : SubPacket (Slice UInt8)} {rawData : Slice Float64}
      (received : S.Received pkt) (service : pkt.service = Utils.serSend) (mem : f ∈ pkt.subpackets)
      (names : f.dataID = id) (raw : payloadBuf2Float? g f.payload = some rawData) :
      Offered g S id ⟨pkt.simulinkTime + f.timeDiff.toUInt32, pkt.physicalTime, rawData.toList⟩
  | command {dst : UInt8} {values : List Float64} (physicalTime : UInt32)
      (posted : S.Posted id dst values) : Offered g S id ⟨0, physicalTime, values⟩

/-- Zero, or a number of a record there was, or a number given as data of the id, as it was given or as
its column answers it. -/
def Known (g : Slice.Growth) (e : Env) (init : Start) (S : Service) (id : UInt16) (v : Float64) : Prop :=
  v = 0 ∨ (∃ r ∈ init.rows id, v ∈ r.values) ∨
    ∃ data, Offered g S id data ∧ (v ∈ data.value ∨ ∃ w ∈ data.value, v = e.column w)

/-- A record there was, or one that was given, as it is stored. -/
def Recorded (g : Slice.Growth) (e : Env) (init : Start) (S : Service) (id : UInt16) (r : Row) : Prop :=
  r ∈ init.rows id ∨ ∃ data, Offered g S id data ∧ r.data = data.stored e

/-- The client has subscribed or requested the data id, or an operator has posted a command of it for the
client, or `main` subscribes the client. -/
def Asked (init : Start) (S : Service) (id : UInt16) (dst : UInt8) : Prop :=
  (id, dst) ∈ init.subscriptions ∨
  (∃ pkt, S.Received pkt ∧ (pkt.service = Utils.serRequest ∨ pkt.service = Utils.serSubscribe) ∧
    pkt.src = dst ∧ ∃ f ∈ pkt.subpackets, f.dataID = id) ∨
  ∃ values, S.Posted id dst values

/-- The client has sent a packet that is acknowledged, or is subscribed by `main`. -/
def Registering (init : Start) (S : Service) (dst : UInt8) : Prop :=
  (∃ id, (id, dst) ∈ init.subscriptions) ∨
    ∃ pkt, S.Received pkt ∧ pkt.service = Utils.serSubscribe ∧ pkt.src = dst

/-- A control packet of the service 0x0A for a client. -/
def IsResponseTo (dst : UInt8) (buf : List UInt8) : Prop :=
  ∃ v, buf = wire v ∧ v.dst = dst ∧ v.service = Utils.serResponse ∧ v.subframeNum = 0 ∧
    v.subpackets = []

/-- Data of one id for a client, in one subframe with these numbers. It says that it has as many as `row`
times `col`. -/
def IsDataWith (dst : UInt8) (id : UInt16) (row col : UInt8) (vs : List Float64) (buf : List UInt8) :
    Prop :=
  ∃ v f, buf = wire v ∧ v.dst = dst ∧ v.service = Utils.serSend ∧ v.subframeNum = 1 ∧
    v.subpackets = [f] ∧ f.dataID = id ∧ f.row = row ∧ f.col = col ∧
    f.length = row.toUInt16 * col.toUInt16 ∧ f.payload = payloadFloat2Buf vs

/-- The datagram goes to a client's address, and either acknowledges what it has sent or carries known
data it has asked for. -/
def Justified (g : Slice.Growth) (e : Env) (init : Start) (S : Service)
    (x : Addr × List UInt8) : Prop :=
  ∃ dst, S.server.allClientAddr dst = some x.1 ∧
    ((IsResponseTo dst x.2 ∧ Registering init S dst) ∨
      ∃ id row col vs, IsDataWith dst id row col vs x.2 ∧ Asked init S id dst ∧
        ∀ v ∈ vs, Known g e init S id v)

/-! ### The contract -/

/-- What no action takes back: tables, registers and the datagrams sent only grow at their end. -/
structure Later (S T : Service) : Prop where
  arrived : S.arrived <+: T.arrived
  commands : S.commands <+: T.commands
  addrs : T.server.allClientAddr = S.server.allClientAddr
  recordTables : T.server.handler.recordTables = S.server.handler.recordTables
  dataShapes : T.server.handler.dataShapes = S.server.handler.dataShapes
  columns : ∀ id, (T.server.world.tables id).map Table.columns =
    (S.server.world.tables id).map Table.columns
  rows : ∀ id, S.server.world.rows id <+: T.server.world.rows id
  subscribers : ∀ id, S.server.subscriberRegister id <+: T.server.subscriberRegister id
  sent : S.server.world.sent <+: T.server.world.sent

theorem Later.refl (S : Service) : Later S S :=
  ⟨List.prefix_rfl, List.prefix_rfl, rfl, rfl, rfl, fun _ => rfl, fun _ => List.prefix_rfl,
    fun _ => List.prefix_rfl, List.prefix_rfl⟩

theorem Later.trans {S T U : Service} (h₁ : Later S T) (h₂ : Later T U) : Later S U where
  arrived := h₁.arrived.trans h₂.arrived
  commands := h₁.commands.trans h₂.commands
  addrs := h₂.addrs.trans h₁.addrs
  recordTables := h₂.recordTables.trans h₁.recordTables
  dataShapes := h₂.dataShapes.trans h₁.dataShapes
  columns id := (h₂.columns id).trans (h₁.columns id)
  rows id := (h₁.rows id).trans (h₂.rows id)
  subscribers id := (h₁.subscribers id).trans (h₂.subscribers id)
  sent := h₁.sent.trans h₂.sent

section Later
variable {g : Slice.Growth} {e : Env} {init : Start} {S T : Service} {id : UInt16}
  {dst : UInt8}

theorem Received.later {pkt : ServicePacket (Slice UInt8)} (h : S.Received pkt) (hST : Later S T) :
    T.Received pkt := by
  obtain ⟨bytes, hbytes, hpkt⟩ := h
  exact ⟨bytes, hST.arrived.subset hbytes, hpkt⟩

theorem Posted.later {values : List Float64} (h : S.Posted id dst values) (hST : Later S T) :
    T.Posted id dst values := by
  obtain ⟨param, body, n, hmem, hrest⟩ := h
  exact ⟨param, body, n, hST.commands.subset hmem, hrest⟩

theorem Offered.later {data : Data} (h : Offered g S id data) (hST : Later S T) :
    Offered g T id data := by
  cases h with
  | send received service mem names raw => exact .send (received.later hST) service mem names raw
  | command physicalTime posted => exact .command physicalTime (posted.later hST)

theorem Known.later {v : Float64} (h : Known g e init S id v) (hST : Later S T) : Known g e init T id v := by
  rcases h with hzero | hold | ⟨data, hdata, hv⟩
  · exact .inl hzero
  · exact .inr (.inl hold)
  · exact .inr (.inr ⟨data, hdata.later hST, hv⟩)

theorem Recorded.later {r : Row} (h : Recorded g e init S id r) (hST : Later S T) :
    Recorded g e init T id r := by
  rcases h with hold | ⟨data, hdata, hstored⟩
  · exact .inl hold
  · exact .inr ⟨data, hdata.later hST, hstored⟩

theorem Asked.later (h : Asked init S id dst) (hST : Later S T) : Asked init T id dst := by
  rcases h with hsub | ⟨pkt, hpkt, hrest⟩ | ⟨values, hvalues⟩
  · exact .inl hsub
  · exact .inr (.inl ⟨pkt, hpkt.later hST, hrest⟩)
  · exact .inr (.inr ⟨values, hvalues.later hST⟩)

theorem Registering.later (h : Registering init S dst) (hST : Later S T) : Registering init T dst := by
  rcases h with hsub | ⟨pkt, hpkt, hrest⟩
  · exact .inl hsub
  · exact .inr ⟨pkt, hpkt.later hST, hrest⟩

theorem Justified.later {x : Addr × List UInt8} (h : Justified g e init S x) (hST : Later S T) :
    Justified g e init T x := by
  obtain ⟨dst, haddr, ⟨hresponse, hreg⟩ | ⟨id, row, col, vs, hdata, hasked, hknown⟩⟩ := h
  all_goals rw [← hST.addrs] at haddr
  · exact ⟨dst, haddr, .inl ⟨hresponse, hreg.later hST⟩⟩
  · exact ⟨dst, haddr, .inr ⟨id, row, col, vs, hdata, hasked.later hST,
      fun v hv => (hknown v hv).later hST⟩⟩

end Later

/-- Only what is admitted has come in. Everything that is held, stored or sent was given, everyone who is
sent data has asked, and no channel holds more than it has room for. -/
structure Inv (g : Slice.Growth) (e : Env) (init : Start) (admits : Input → Prop) (S : Service) : Prop where
  arrived : ∀ bytes ∈ S.arrived, admits (.datagram bytes)
  commands : ∀ command ∈ S.commands, admits (.command command.1 command.2)
  socket : ∀ bytes ∈ S.socket, bytes ∈ S.arrived
  buffer : ∀ buf ∈ S.buffer, ∃ bytes ∈ S.arrived, buf = listenBuf bytes
  bufferRoom : S.buffer.length ≤ Utils.buffLen
  queues : ∀ id queue, S.server.handler.dataBuffer id = some queue → ∀ data ∈ queue, Offered g S id data
  queueRoom : ∀ id queue, S.server.handler.dataBuffer id = some queue → queue.length ≤ Utils.buffLen
  rows : ∀ id, ∀ r ∈ S.server.world.rows id, Recorded g e init S id r
  subscribers : ∀ id, ∀ dst ∈ S.server.subscriberRegister id, Asked init S id dst
  sent : ∀ x ∈ S.server.world.sent, Justified g e init S x

/-- What a goroutine is started for. None is started to publish. -/
def Pre (g : Slice.Growth) (e : Env) (init : Start) : Goroutine → Service → Prop
  | .main subscriptions, _ => subscriptions ⊆ init.subscriptions
  | .producer, _ => True
  | .consumer, _ => True
  | .handleData id p, S => ∀ data ∈ p.buffer, Offered g S id data
  | .call (.send id time physicalTime rawData), S => Offered g S id ⟨time, physicalTime, rawData⟩
  | .call (.sendPkt dst _ _ _ dataID dataMap), S =>
    Asked init S dataID dst ∧ ∀ row ∈ dataMap, ∀ v ∈ row, Known g e init S dataID v
  | .call (.publish ..), _ => False
  | .command param body, S => (param, body) ∈ S.commands

theorem Pre.later {g : Slice.Growth} {e : Env} {init : Start} {r : Goroutine}
    {S T : Service} (h : Pre g e init r S) (hST : Later S T) : Pre g e init r T := by
  match r, h with
  | .main _, h => exact h
  | .producer, _ => trivial
  | .consumer, _ => trivial
  | .handleData .., h => exact fun data hdata => (h data hdata).later hST
  | .call (.send ..), h => exact Offered.later h hST
  | .call (.sendPkt ..), h =>
    exact ⟨h.1.later hST, fun row hrow v hv => (h.2 row hrow v hv).later hST⟩
  | .call (.publish ..), h => exact h
  | .command .., h => exact hST.commands.subset h

/-- The packet is published, or has a matrix of more cells than values. -/
def Crashes (pkt : ServicePacket (Slice UInt8)) : Prop :=
  pkt.service = Utils.serPublish ∨ pkt.service = Utils.serSend ∧
    ∃ f ∈ pkt.subpackets, f.length.toNat % 8192 < f.row.toNat * f.col.toNat

/-- The datagram does not decode, or its packet cannot be handled. -/
def Faulty (bytes : List UInt8) : Prop :=
  ∀ pkt, fromServiceBuf? (listenBuf bytes) = some pkt → Crashes pkt

def Fault (S : Service) : Prop := ∃ bytes ∈ S.arrived, Faulty bytes

def contract (g : Slice.Growth) (e : Env) (init : Start) (admits : Input → Prop) :
    Contract Service Goroutine where
  Inv := Inv g e init admits
  Later := Later
  Pre := Pre g e init
  Fault := Fault
  refl := .refl
  trans := .trans
  pre_later := Pre.later
  fault_later := fun ⟨bytes, hbytes, hcrash⟩ hST => ⟨bytes, hST.arrived.subset hbytes, hcrash⟩

end DRDS.Service
