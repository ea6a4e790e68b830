import DRDS.Concurrency.Network
import DRDS.Service.Relay

/-! Data services that are each other's clients, as the ground station is one of the habitat: where the
numbers in their databases come from, and which datagrams make them panic, over every network between
them. -/
namespace DRDS.Service
open Go Concurrency Server

/-- A data service with all it is started with. -/
structure Site where
  env : Env
  server : Server
  subscriptions : List (UInt16 × UInt8)
  consumers : ℕ
  producers : ℕ
  now : UInt16 → ℤ

def Site.start (x : Site) : Start := ⟨x.server.world.rows, x.subscriptions⟩

def Site.launch (g : Slice.Growth) (x : Site) : Pool Service Goroutine :=
  Service.launch g x.env x.server x.subscriptions x.consumers x.producers x.now

/-! ### Origins -/

/-- A client has sent the number as data of the id to one of the services, or an operator has posted it in
a command. -/
def Given (g : Slice.Growth) (outside : Input → Prop) (id : UInt16) (v : Float64) : Prop :=
  (∃ bytes pkt f rawData, outside (.datagram bytes) ∧ fromServiceBuf? (listenBuf bytes) = some pkt ∧
    pkt.service = Utils.serSend ∧ f ∈ pkt.subpackets ∧ f.dataID = id ∧
    payloadBuf2Float? g f.payload = some rawData ∧ v ∈ rawData.toList) ∨
  ∃ param body n dst values, outside (.command param body) ∧
    command? param body = .ok (n, dst, values) ∧ UInt16.ofInt n = id ∧ v ∈ values

/-- Zero, or a number there was for the id, or one that was given for it, after any number of passages
through the columns of the databases. -/
inductive Traced {ι : Type} (g : Slice.Growth) (sites : ι → Site) (outside : Input → Prop)
    (id : UInt16) : Float64 → Prop
  | zero : Traced g sites outside id 0
  | initial {k : ι} {r : Row} {v : Float64} (hr : r ∈ (sites k).server.world.rows id)
      (hv : v ∈ r.values) : Traced g sites outside id v
  | given {v : Float64} (h : Given g outside id v) : Traced g sites outside id v
  | column (k : ι) {v : Float64} (h : Traced g sites outside id v) :
      Traced g sites outside id ((sites k).env.column v)

section Origins
variable {ι : Type} (g : Slice.Growth) (sites : ι → Site) (outside : Input → Prop)

/-- An acknowledgement, or data with traced numbers. -/
def Relayed (bytes : List UInt8) : Prop :=
  (∃ dst, IsResponseTo dst bytes) ∨ ∃ dst id row col vs, IsDataWith dst id row col vs bytes ∧
    ∀ v ∈ vs, Traced g sites outside id v

/-- What comes in is from outside the services or relayed by one of them. -/
def Admitted (x : Input) : Prop :=
  outside x ∨ ∃ bytes, x = .datagram bytes ∧ Relayed g sites outside bytes

/-- Data that says to be of more values than the receive buffer has room for. -/
def Oversized (bytes : List UInt8) : Prop :=
  ∃ dst id row col vs, IsDataWith dst id row col vs bytes ∧ 558 < row.toNat * col.toNat

variable {g sites outside}

theorem Relayed.faulty_iff {bytes : List UInt8} (h : Relayed g sites outside bytes) :
    Faulty bytes ↔ Oversized bytes := by
  constructor
  · intro hfaulty
    obtain ⟨dst, hresponse⟩ | ⟨dst, id, row, col, vs, hdata, _⟩ := h
    · exact absurd hfaulty hresponse.not_faulty
    · exact ⟨dst, id, row, col, vs, hdata, hdata.faulty_iff.mp hfaulty⟩
  · rintro ⟨dst, id, row, col, vs, hdata, hcells⟩
    exact hdata.faulty_iff.mpr hcells

variable {k : ι} {S : Service} {id : UInt16}
  (hS : Inv g (sites k).env (sites k).start (Admitted g sites outside) S)
include hS

theorem Inv.traced_of_offered {data : Data} (h : Offered g S id data) :
    ∀ v ∈ data.value, Traced g sites outside id v := by
  intro v hv
  cases h with
  | @send pkt f rawData received service mem names raw =>
    obtain ⟨bytes, hbytes, hdecode⟩ := received
    rcases hS.arrived bytes hbytes with hout | ⟨_, hrelay, ⟨dst, hresponse⟩ | hdata⟩
    · exact .given (.inl ⟨bytes, pkt, f, rawData, hout, hdecode, service, mem, names, raw, hv⟩)
    · cases hrelay
      obtain ⟨pkt', hdecode', hservice⟩ := hresponse.decoded
      cases hdecode.symm.trans hdecode'
      rw [hservice] at service
      cases service
    · cases hrelay
      obtain ⟨dst, id', row, col, vs, hdata, htraced⟩ := hdata
      obtain ⟨hid, hvalues⟩ := hdata.values hdecode mem raw
      rw [← names, hid]
      rcases hvalues v hv with hmem | rfl
      · exact htraced v hmem
      · exact .zero
  | @command dst values physicalTime posted =>
    obtain ⟨param, body, n, hmem, hcommand, hid⟩ := posted
    rcases hS.commands (param, body) hmem with hout | ⟨_, hrelay, _⟩
    · exact .given (.inr ⟨param, body, n, dst, values, hout, hcommand, hid, hv⟩)
    · cases hrelay

theorem Inv.traced_of_known {v : Float64} (h : Known g (sites k).env (sites k).start S id v) :
    Traced g sites outside id v := by
  rcases h with rfl | ⟨r, hr, hv⟩ | ⟨data, hdata, hv | ⟨w, hw, rfl⟩⟩
  · exact .zero
  · exact .initial hr hv
  · exact hS.traced_of_offered hdata v hv
  · exact .column k (hS.traced_of_offered hdata w hw)

theorem Inv.traced_of_row {r : Row} (hr : r ∈ S.server.world.rows id) :
    ∀ v ∈ r.values, Traced g sites outside id v := by
  intro v hv
  rcases hS.rows id r hr with hold | ⟨data, hdata, hstored⟩
  · exact .initial hold hv
  · have hvalues : r.values = data.value.map (sites k).env.column := congrArg Data.value hstored
    obtain ⟨w, hw, rfl⟩ := List.mem_map.mp (hvalues ▸ hv)
    exact .column k (hS.traced_of_offered hdata w hw)

theorem Inv.relayed_of_sent {x : Addr × List UInt8} (hx : x ∈ S.server.world.sent) :
    Relayed g sites outside x.2 := by
  obtain ⟨dst, _, ⟨hresponse, _⟩ | ⟨id, row, col, vs, hdata, _, hknown⟩⟩ := hS.sent x hx
  · exact .inl ⟨dst, hresponse⟩
  · exact .inr ⟨dst, id, row, col, vs, hdata, fun v hv => hS.traced_of_known (hknown v hv)⟩

/-- What a service panics of is from outside or oversized. -/
theorem Inv.fault_origin (h : S.Fault) : ∃ bytes ∈ S.arrived, Faulty bytes ∧
    (outside (.datagram bytes) ∨ Oversized bytes) := by
  obtain ⟨bytes, hbytes, hfaulty⟩ := h
  refine ⟨bytes, hbytes, hfaulty, ?_⟩
  rcases hS.arrived bytes hbytes with hout | ⟨_, hrelay, hrelayed⟩
  · exact .inl hout
  · cases hrelay
    exact .inr (hrelayed.faulty_iff.mp hfaulty)

end Origins

/-! ### Runs -/

/-- Every datagram that a service has sent may arrive at any service. The others may go on when one has
panicked, also where one process runs them all. -/
def federation {ι : Type} (g : Slice.Growth) (sites : ι → Site) : Network ι Service Goroutine Input where
  setting k := setting g (sites k).env
  emitted S := S.server.world.sent.map fun x => .datagram x.2

/-- What clients send and operators post in a run. -/
def outsideOf {ι : Type} (ms : List (NetMove ι Input)) (x : Input) : Prop :=
  ∃ k, NetMove.own k (.outside x) ∈ ms

theorem federation_keeps {ι : Type} (g : Slice.Growth) (sites : ι → Site) (outside : Input → Prop) :
    (federation g sites).Keeps
      (fun k => contract g (sites k).env (sites k).start (Admitted g sites outside))
      (Admitted g sites outside) where
  pool k := setting_keeps g (sites k).env (sites k).start _
  emitted k S hS x hx := by
    obtain ⟨datagram, hdatagram, rfl⟩ := List.mem_map.mp hx
    exact .inr ⟨datagram.2, rfl, Inv.relayed_of_sent hS hdatagram⟩

section Federation
variable {ι : Type} [DecidableEq ι] {g : Slice.Growth} {sites : ι → Site}
  {ms : List (NetMove ι Input)} {N : ι → Pool Service Goroutine}

theorem federation_holds (hfresh : ∀ k, (sites k).server.Fresh)
    (hrun : (federation g sites).run? ms (fun k => (sites k).launch g) = some N) (k : ι) :
    (contract g (sites k).env (sites k).start (Admitted g sites (outsideOf ms))).Holds (N k) :=
  (federation_keeps g sites (outsideOf ms)).run? (fun i _ hx => .inl ⟨i, hx⟩)
    (fun i => launch_holds g (sites i).env (hfresh i) _ (sites i).subscriptions (sites i).consumers
      (sites i).producers (sites i).now) hrun k

/-- The habitat has the ground station for a subscriber. -/
def habitatAndGround (habitat : Server) (onGround : Bool) : Site where
  env := .reliable
  server := if onGround then { afterInit with localSystemID := 0 } else habitat
  subscriptions := if onGround then [] else [(3, 0)]
  consumers := 1
  producers := 1
  now _ := 0

theorem habitatAndGround_fresh {habitat : Server} (h : habitat.Fresh) (onGround : Bool) :
    (habitatAndGround habitat onGround).server.Fresh := by
  cases onGround with
  | true => exact ⟨afterInit_fresh.queues, afterInit_fresh.subscribers, afterInit_fresh.sent⟩
  | false => exact h

/-- However the services pass data on to each other, all numbers they store or send were there or were
given for the same data id. -/
theorem federated_traced (hfresh : ∀ k, (sites k).server.Fresh)
    (hrun : (federation g sites).run? ms (fun k => (sites k).launch g) = some N) (k : ι) :
    (∀ id, ∀ r ∈ (N k).shared.server.world.rows id, ∀ v ∈ r.values,
      Traced g sites (outsideOf ms) id v) ∧
    ∀ x ∈ (N k).shared.server.world.sent, Relayed g sites (outsideOf ms) x.2 := by
  have hInv : Inv g (sites k).env (sites k).start _ (N k).shared := (federation_holds hfresh hrun k).inv
  exact ⟨fun _ _ hr => hInv.traced_of_row hr, fun _ hx => hInv.relayed_of_sent hx⟩

def storeRun : List (Move Input) :=
  List.replicate 3 (.thread 2 0) ++ List.replicate 4 (.thread 1 0) ++ List.replicate 2 (.thread 4 0) ++
    [.thread 0 0, .thread 0 0, .thread 0 100000000] ++ List.replicate 4 (.thread 0 0)

def relayRun : List (NetMove Bool Input) :=
  recordRun.map (.own false) ++ [.pass false 1 true] ++ storeRun.map (.own true)

theorem federated_traced_relayRun : ∃ N,
    (federation .tight (habitatAndGround afterInit)).run? relayRun
      (fun k => (habitatAndGround afterInit k).launch .tight) = some N ∧
    ((N true).shared.server.world.rows 3).length = 1 ∧
    (∀ id, ∀ r ∈ (N true).shared.server.world.rows id, ∀ v ∈ r.values,
      Traced .tight (habitatAndGround afterInit) (outsideOf relayRun) id v) ∧
    ∀ x ∈ (N true).shared.server.world.sent,
      Relayed .tight (habitatAndGround afterInit) (outsideOf relayRun) x.2 := by
  have hrun : ((federation .tight (habitatAndGround afterInit)).run? relayRun
      (fun k => (habitatAndGround afterInit k).launch .tight)).any
        (fun N => ((N true).shared.server.world.rows 3).length = 1) := by
    decide +kernel
  obtain ⟨N, hN, hends⟩ := (Option.any_eq_true _ _).mp hrun
  exact ⟨N, hN, of_decide_eq_true hends, federated_traced (habitatAndGround_fresh afterInit_fresh) hN true⟩

/-- A service panics only of what a client has sent or of oversized data, and of the datagrams that services
send these are the faulty ones. -/
theorem federated_fault (hfresh : ∀ k, (sites k).server.Fresh)
    (hrun : (federation g sites).run? ms (fun k => (sites k).launch g) = some N) (k : ι) :
    ((N k).panicked → ∃ bytes ∈ (N k).shared.arrived, Faulty bytes ∧
      (outsideOf ms (.datagram bytes) ∨ Oversized bytes)) ∧
    ∀ x ∈ (N k).shared.server.world.sent, Faulty x.2 ↔ Oversized x.2 := by
  have hholds := federation_holds hfresh hrun k
  have hInv : Inv g (sites k).env (sites k).start _ (N k).shared := hholds.inv
  exact ⟨fun hpanic => hInv.fault_origin (hholds.fault hpanic),
    fun _ hx => (hInv.relayed_of_sent hx).faulty_iff⟩

def wideHabitat : Server :=
  { afterInit with
    handler := { afterInit.handler with dataShapes := fun id => if id = 3 then 200 else 0 }
    world := ⟨0, fun id => if id = 3 then
      some ⟨200, List.replicate 3 ⟨500, 0, 0, List.replicate 200 0⟩⟩ else none, []⟩ }

/-- A client requests the three records, and the reply comes to the ground. -/
def oversizedRun : List (NetMove Bool Input) :=
  let request : List (Move Input) :=
    [.outside (.datagram (wire (clientPacket Utils.serRequest [⟨3, 10, 0, 0, 0, []⟩] [])))] ++
      List.replicate 3 (.thread 2 0) ++ List.replicate 5 (.thread 1 0)
  let receive : List (Move Input) := List.replicate 3 (.thread 2 0) ++ List.replicate 2 (.thread 1 0)
  request.map (.own false) ++ [.pass false 0 true] ++ receive.map (.own true)

theorem federated_fault_oversizedRun : ∃ N,
    (federation .tight (habitatAndGround wideHabitat)).run? oversizedRun
      (fun k => (habitatAndGround wideHabitat k).launch .tight) = some N ∧ (N true).panicked ∧
    ((N true).panicked → ∃ bytes ∈ (N true).shared.arrived, Faulty bytes ∧
      (outsideOf oversizedRun (.datagram bytes) ∨ Oversized bytes)) ∧
    ∀ x ∈ (N true).shared.server.world.sent, Faulty x.2 ↔ Oversized x.2 := by
  have hrun : ((federation .tight (habitatAndGround wideHabitat)).run? oversizedRun
      (fun k => (habitatAndGround wideHabitat k).launch .tight)).any (fun N => (N true).panicked) := by
    decide +kernel
  obtain ⟨N, hN, hends⟩ := (Option.any_eq_true _ _).mp hrun
  have hfresh : wideHabitat.Fresh :=
    ⟨afterInit_fresh.queues, afterInit_fresh.subscribers, afterInit_fresh.sent⟩
  exact ⟨N, hN, hends, federated_fault (habitatAndGround_fresh hfresh) hN true⟩

end Federation
end DRDS.Service
