import DRDS.Server.Registers
import DRDS.Service.Programs

/-! A goroutine that is left alone does what the server's call does at once. -/
namespace DRDS.Service
open Go Concurrency Program

section Calls
variable {α β : Type} {e : Env} {id : UInt16}

@[simp] theorem alone_onServer (f : Server → α × Server) (S : Service) :
    (onServer f).alone S = (.returned (f S.server).1, [], { S with server := (f S.server).2 }) := rfl

@[simp] theorem alone_onServer_bind (f : Server → α × Server) (k : α → Code β) (S : Service) :
    ((onServer f).bind k).alone S = (k (f S.server).1).alone { S with server := (f S.server).2 } := rfl

/-- Left alone, the code returns what the call returns, starts nothing and leaves the call's server. -/
structure Plays (c : Code α) (f : Server → α × Server) : Prop where
  alone : ∀ S, c.alone S = (.returned (f S.server).1, [], { S with server := (f S.server).2 })

theorem Plays.bind {c : Code α} {f : Server → α × Server} (h : Plays c f) (k : α → Code β)
    (S : Service) :
    (c.bind k).alone S = (k (f S.server).1).alone { S with server := (f S.server).2 } :=
  alone_bind_of_returned (h.alone S)

theorem transmit_plays (dst : UInt8) (buf : List UInt8) :
    Plays (transmit e dst buf) (Server.transmit e dst buf) := by
  refine ⟨fun S => ?_⟩
  simp only [transmit, dial, bind_eq, alone_onServer_bind]
  unfold Server.transmit
  cases e.dialUDP S.server.world.calls (S.server.allClientAddr dst) with
  | error err => rfl
  | ok addr =>
    simp only [write, alone_onServer]
    cases e.write S.server.world.tick.calls addr buf <;> rfl

theorem sendPkt_plays (dst priority : UInt8) (synt : UInt32) (flag : UInt8)
    (dataMap : List (List Float64)) :
    Plays (sendPkt e dst priority synt flag id dataMap)
      (Server.sendPkt e dst priority synt flag id dataMap) := by
  refine ⟨fun S => ?_⟩
  simp only [sendPkt, number, bind_eq, alone_onServer_bind]
  exact (transmit_plays ..).alone _

theorem sendOpt_plays (dst priority : UInt8) (synt : UInt32) (service flag opt1 opt2 : UInt8) :
    Plays (sendOpt e dst priority synt service flag opt1 opt2)
      (Server.sendOpt e dst priority synt service flag opt1 opt2) := by
  refine ⟨fun S => ?_⟩
  simp only [sendOpt, number, bind_eq, alone_onServer_bind]
  rw [(transmit_plays ..).bind]
  unfold Server.sendOpt
  dsimp only
  rcases S.server.numbered.transmit e dst _ with ⟨_ | err, t⟩ <;> rfl

theorem alone_push {S : Service} {data : Data} {queue : List Data}
    (hqueue : S.server.handler.dataBuffer id = some queue) (hroom : queue.length < Utils.buffLen) :
    (push id data).alone S =
      (.returned (), [], { S with server := (S.server.writeToBuffer id data).2 }) :=
  alone_await (by simp [hqueue, hroom])

theorem writeToBuffer_plays (data : Data) :
    Plays (writeToBuffer id data) (Server.writeToBuffer id data) := by
  refine ⟨fun S => ?_⟩
  simp only [writeToBuffer, bind_eq, alone_onServer_bind]
  cases hqueue : S.server.handler.dataBuffer id with
  | none =>
    simp only [Server.writeToBuffer, Handler.writeToBuffer, hqueue]
    rfl
  | some queue =>
    by_cases hfull : Utils.buffLen ≤ queue.length
    · simp only [Server.writeToBuffer, Handler.writeToBuffer, hqueue, hfull, if_true]
      rfl
    · simp only [hfull, if_false]
      rw [alone_bind_of_returned (alone_push hqueue (Nat.lt_of_not_le hfull))]
      simp only [Server.writeToBuffer, Handler.writeToBuffer, hqueue, hfull, if_false]
      rfl

theorem queryLastSynt_plays : Plays (queryLastSynt e id) (Server.queryLastSynt e id) :=
  ⟨fun _ => rfl⟩

theorem requestAt_plays (synt : UInt32) (dst priority : UInt8) :
    Plays (requestAt e id synt dst priority) fun s =>
      let ((_, data, err), world) := s.handler.readSynt e id synt s.world
      match err with
      | some err => (some err, { s with world })
      | none => Server.sendPkt e dst priority synt Utils.flagSingle id [data] { s with world } := by
  refine ⟨fun S => ?_⟩
  simp only [requestAt, readSynt, bind_eq, alone_onServer_bind]
  rcases S.server.handler.readSynt e id synt S.server.world with ⟨⟨_, data, _ | err⟩, world⟩
  · exact (sendPkt_plays ..).alone { S with server := { S.server with world } }
  · rfl

theorem request_plays (synt : UInt32) (dst priority : UInt8) :
    Plays (request e id synt dst priority) (Server.request e id synt dst priority) := by
  refine ⟨fun S => ?_⟩
  unfold request Server.request
  split_ifs with hlast
  · exact (queryLastSynt_plays.bind _ S).trans ((requestAt_plays ..).alone _)
  · exact (requestAt_plays ..).alone S

theorem requestUpTo_plays (timeStart timeEnd : UInt32) (dst : UInt8) :
    Plays (requestUpTo e id timeStart timeEnd dst) fun s =>
      match s.handler.readRange e id timeStart timeEnd s.world with
      | (.error err, world) => (some err, { s with world })
      | (.ok (_, _, dataMat), world) => Server.sendPkt e dst Utils.priorityHight timeStart
          Utils.flagSingle id dataMat { s with world } := by
  refine ⟨fun S => ?_⟩
  simp only [requestUpTo, readRange, bind_eq, alone_onServer_bind]
  rcases S.server.handler.readRange e id timeStart timeEnd S.server.world with
    ⟨err | ⟨_, _, dataMat⟩, world⟩
  · rfl
  · exact (sendPkt_plays ..).alone { S with server := { S.server with world } }

theorem requestRange_plays (timeStart : UInt32) (timeDiff : UInt16) (dst priority : UInt8) :
    Plays (requestRange e id timeStart timeDiff dst priority)
      (Server.requestRange e id timeStart timeDiff dst priority) := by
  refine ⟨fun S => ?_⟩
  unfold requestRange Server.requestRange
  split_ifs with hlast
  · exact (queryLastSynt_plays.bind _ S).trans ((requestUpTo_plays ..).alone _)
  · exact (requestUpTo_plays ..).alone S

/-! ### Calls that may panic or never return -/

/-- How a run on its own is that of a call: the same result, routines and server, unless the call never
returns, and then the run does not either. -/
def Played (run : End (Option String) × List Goroutine × Service) (S : Service) (o : Outcome)
    (rs : List Server.Routine) (t : Server) : Prop :=
  match o with
  | .returned err => run = (.returned err, rs.map .call, { S with server := t })
  | .panicked => run = (.panicked, rs.map .call, { S with server := t })
  | .hangs => ∃ T, run = (.stays, rs.map .call, T)

/-- A call that starts nothing. -/
structure Ends (c : Code (Option String)) (f : Server → Outcome × Server) : Prop where
  alone : ∀ S, Played (c.alone S) S (f S.server).1 [] (f S.server).2

theorem played_server {run : End (Option String) × List Goroutine × Service} {S : Service} {o : Outcome}
    {rs : List Server.Routine} {t u : Server} :
    Played run { S with server := u } o rs t ↔ Played run S o rs t := by
  cases o <;> exact .rfl

theorem Plays.ends {c : Code (Option String)} {f : Server → Option String × Server} (h : Plays c f) :
    Ends c fun s => (.returned (f s).1, (f s).2) := ⟨h.alone⟩

theorem publishRows_ends (synt physicalTime : UInt32) (rawData : Slice Float64) (col : ℕ)
    (rows : List ℕ) : Ends (publishRows id synt physicalTime rawData col rows)
      (Server.publishRows id synt physicalTime rawData col rows) := by
  induction rows with
  | nil => exact ⟨fun _ => rfl⟩
  | cons row rows ih =>
    refine ⟨fun S => ?_⟩
    unfold publishRows Server.publishRows
    cases rawData.slice? (row * col) ((row + 1) * col) with
    | none => rfl
    | some value =>
      simp only [bind_eq]
      rw [(writeToBuffer_plays _).bind]
      rcases hw : Server.writeToBuffer id ⟨synt + .ofNat row, physicalTime, value.toList⟩ S.server with
        ⟨_ | err, t⟩
      all_goals rw [hw]
      · exact played_server.mp (ih.alone { S with server := t })
      · rfl

theorem publish_ends (dst rows cols : UInt8) (synt physicalTime : UInt32) (rawData : Slice Float64) :
    Ends (publish e id dst rows cols synt physicalTime rawData)
      (Server.publish e id dst rows cols synt physicalTime rawData) := by
  refine ⟨fun S => ?_⟩
  simp only [publish, bind_eq, alone_onServer_bind]
  unfold Server.publish Server.publishFrom
  cases S.server.isPublisherRegistered id dst with
  | true =>
    simp only [if_true]
    rw [queryLastSynt_plays.bind]
    by_cases hlate : synt < (S.server.queryLastSynt e id).1
    · simp only [hlate, if_true]
      rw [(sendOpt_plays ..).bind]
      rfl
    · simp only [hlate, if_false]
      exact played_server.mp ((publishRows_ends ..).alone _)
  | false =>
    simp only [Bool.false_eq_true, if_false, alone_onServer_bind]
    rw [(sendOpt_plays ..).bind]
    rfl

theorem subscribeAck_ends (dst : UInt8) (synt : UInt32) :
    Ends (subscribeAck e dst synt) (Server.subscribeAck e dst synt) :=
  (sendOpt_plays ..).ends

theorem history_alone (lastSynt : UInt32) (n : ℕ) (i : UInt32) (S : Service) :
    match S.server.history? e id lastSynt n i with
    | some (rows, t) =>
      (history e id lastSynt n i).alone S = (.returned rows, [], { S with server := t })
    | none => ∃ T, (history e id lastSynt n i).alone S = (.stays, [], T) := by
  induction n generalizing i S with
  | zero => exact ⟨S, rfl⟩
  | succ n ih =>
    unfold Server.history? history
    by_cases hi : i ≤ lastSynt
    · simp only [hi, if_true, readSynt, bind_eq, alone_onServer_bind]
      rcases S.server.handler.readSynt e id i S.server.world with ⟨⟨_, row, _⟩, world⟩
      have hrest := ih (i + 1) { S with server := { S.server with world } }
      dsimp only at hrest ⊢
      cases hhist : Server.history? e id lastSynt n (i + 1) { S.server with world } with
      | none =>
        rw [hhist] at hrest
        obtain ⟨T, hT⟩ := hrest
        exact ⟨T, alone_bind_of_stays hT⟩
      | some answer =>
        rw [hhist] at hrest
        exact alone_bind_of_returned hrest
    · simp only [hi, if_false]
      rfl

theorem subscribe_ends (dst : UInt8) (synt : UInt32) (rate : UInt16) :
    Ends (subscribe e id dst synt rate) (Server.subscribe e id dst synt rate) := by
  refine ⟨fun S => ?_⟩
  simp only [subscribe, bind_eq, alone_onServer_bind]
  unfold Server.subscribe Server.subscribeFrom
  cases S.server.isSubscriberRegistered id dst with
  | true =>
    simp only [if_true]
    rw [queryLastSynt_plays.bind]
    by_cases hpast : synt ≤ (S.server.queryLastSynt e id).1
    · simp only [hpast, if_true]
      have hhist := @history_alone e id (S.server.queryLastSynt e id).1
        Server.historyRounds synt { S with server := (S.server.queryLastSynt e id).2 }
      dsimp only at hhist ⊢
      cases hrows : Server.history? e id (S.server.queryLastSynt e id).1 Server.historyRounds synt
          (S.server.queryLastSynt e id).2 with
      | none =>
        rw [hrows] at hhist
        obtain ⟨T, hT⟩ := hhist
        exact ⟨T, alone_bind_of_stays hT⟩
      | some answer =>
        rw [hrows] at hhist
        rw [alone_bind_of_returned hhist, (sendPkt_plays ..).bind]
        exact played_server.mp ((subscribeAck_ends ..).alone _)
    · simp only [hpast, if_false]
      exact played_server.mp ((subscribeAck_ends ..).alone _)
  | false =>
    simp only [Bool.false_eq_true, if_false, alone_onServer_bind]
    exact played_server.mp ((subscribeAck_ends ..).alone _)

theorem subscribe_first {S : Service} {dst : UInt8} (hnot : dst ∉ S.server.subscriberRegister id)
    (synt : UInt32) (rate : UInt16) : ∃ err T, (subscribe e id dst synt rate).alone S = (.returned err, [], T) ∧
      T.server.subscriberRegister = Server.addClient S.server.subscriberRegister id dst := by
  have hfound : S.server.isSubscriberRegistered id dst = false := by
    rw [← Bool.not_eq_true]
    exact fun h => hnot ((Utils.uint8Contains_iff ..).mp h)
  simp only [subscribe, bind_eq, alone_onServer_bind, hfound, Bool.false_eq_true, if_false]
  exact ⟨_, _, (sendOpt_plays ..).alone _, congrArg Prod.snd (Server.registers_subscribeAck ..)⟩

/-- `main`, left alone, subscribes the clients. -/
theorem main_alone {subscriptions : List (UInt16 × UInt8)} (hids : (subscriptions.map Prod.fst).Nodup)
    {S : Service} (hS : ∀ x ∈ subscriptions, S.server.subscriberRegister x.1 = []) :
    ∃ T, (main e subscriptions).alone S = (.returned (), [], T) ∧ T.server.subscriberRegister =
      subscriptions.foldl (fun register x => Server.addClient register x.1 x.2)
        S.server.subscriberRegister := by
  induction subscriptions generalizing S with
  | nil => exact ⟨S, rfl, rfl⟩
  | cons x subscriptions ih =>
    rw [List.forall_mem_cons] at hS
    rw [List.map_cons, List.nodup_cons] at hids
    have hnot : x.2 ∉ S.server.subscriberRegister x.1 := by
      rw [hS.1]
      exact List.not_mem_nil
    obtain ⟨err, T, hT, hregister⟩ := subscribe_first (e := e) hnot 0 1000
    have hrest : ∀ y ∈ subscriptions, T.server.subscriberRegister y.1 = [] := by
      intro y hy
      have hne : y.1 ≠ x.1 := fun heq => hids.1 (heq ▸ List.mem_map_of_mem hy)
      rw [hregister, Server.addClient, Function.update_of_ne hne]
      exact hS.2 y hy
    obtain ⟨U, hU, hend⟩ := ih hids.2 hrest
    refine ⟨U, ?_, ?_⟩
    · rw [main, bind_eq, alone_bind_of_returned hT]
      exact hU
    · rw [hend, hregister, List.foldl_cons]

theorem main_subscribes {S : Service} (hS : S.server.subscriberRegister = fun _ => []) :
    ∃ T, (main e mainSubscriptions).alone S = (.returned (), [], T) ∧
      T.server.subscriberRegister 3023 = [0] ∧ T.server.subscriberRegister 65000 = [2] := by
  have hids : (mainSubscriptions.map Prod.fst).Nodup := by decide
  obtain ⟨T, hT, hregister⟩ := main_alone (e := e) hids fun x _ => congrFun hS x.1
  exact ⟨T, hT, by rw [hregister, hS]; decide, by rw [hregister, hS]; decide⟩

end Calls

/-! ### Packets -/

section Packets
variable {β : Type} {g : Slice.Growth} {e : Env}

theorem rounds_ends {call : β → Code (Option String)} {f : β → Server → Outcome × Server}
    (h : ∀ x, Ends (call x) (f x)) (xs : List β) :
    Ends (rounds (fun x => tryCall (call x)) xs) (Server.callLoop f xs) := by
  induction xs with
  | nil => exact ⟨fun _ => rfl⟩
  | cons x xs ih =>
    refine ⟨fun S => ?_⟩
    have hx := (h x).alone S
    simp only [rounds, tryCall, bind_eq]
    unfold Server.callLoop
    rcases hf : f x S.server with ⟨⟨_ | err⟩ | _ | _, t⟩
    all_goals rw [hf] at hx
    · rw [alone_bind_of_returned (alone_bind_of_returned hx)]
      exact played_server.mp (ih.alone { S with server := t })
    · rw [alone_bind_of_returned (alone_bind_of_returned hx)]
      rfl
    · exact alone_bind_of_panicked (alone_bind_of_panicked hx)
    · obtain ⟨T, hT⟩ := hx
      exact ⟨T, alone_bind_of_stays (alone_bind_of_stays hT)⟩

/-- A round that reads the server only. -/
def RoundPlayed (run : End (Option (Option String)) × List Goroutine × Service) (S : Service) :
    Server.Round → Prop
  | (rs, none) => run = (.returned none, rs.map .call, S)
  | (rs, some (.returned err)) => run = (.returned (some err), rs.map .call, S)
  | (rs, some .panicked) => run = (.panicked, rs.map .call, S)
  | (_, some .hangs) => False

theorem rounds_alone {body : β → Code (Option (Option String))} {round : β → Server.Round}
    {S : Service} (h : ∀ x, RoundPlayed ((body x).alone S) S (round x)) (xs : List β) :
    Played ((rounds body xs).alone S) S (rangeLoop (.returned none) round xs).2
      (rangeLoop (.returned none) round xs).1 S.server := by
  induction xs with
  | nil => rfl
  | cons x xs ih =>
    have hx := h x
    unfold rounds rangeLoop
    rcases hround : round x with ⟨rs, _ | ⟨err | _ | _⟩⟩
    all_goals rw [hround] at hx
    · have hx' : (body x).alone S = (.returned none, rs.map .call, S) := hx
      simp only [bind_eq, alone_bind, hx']
      rcases hloop : rangeLoop (.returned none) round xs with ⟨rs', err | _ | _⟩
      all_goals rw [hloop] at ih
      · have ih' : (rounds body xs).alone S = (.returned err, rs'.map .call, S) := ih
        simp [Played, ih', hloop]
      · have ih' : (rounds body xs).alone S = (.panicked, rs'.map .call, S) := ih
        simp [Played, ih', hloop]
      · obtain ⟨T, hT⟩ := ih
        simp [Played, hT, hloop]
    · exact (alone_bind _ _ S).trans (by rw [show (body x).alone S = _ from hx]; simp [alone])
    · exact alone_bind_of_panicked hx
    · exact absurd hx id

theorem forward_alone (pkt : Server.ServicePacket (Slice UInt8))
    (subpkt : Server.SubPacket (Slice UInt8)) (rawData : Slice Float64) (S : Service) :
    (forward pkt subpkt rawData).alone S =
      match S.server.forward? pkt subpkt rawData with
      | none => (.panicked, [], S)
      | some rs => (.returned none, rs.map .call, S) := by
  simp only [forward, bind_eq, alone_onServer_bind]
  cases S.server.forward? pkt subpkt rawData with
  | none => rfl
  | some rs => simp [alone_bind, alone]

theorem sendRound_alone (pkt : Server.ServicePacket (Slice UInt8))
    (subpkt : Server.SubPacket (Slice UInt8)) (S : Service) :
    RoundPlayed ((sendRound g pkt subpkt).alone S) S (S.server.sendRound g pkt subpkt) := by
  unfold sendRound Server.sendRound
  cases Server.payloadBuf2Float? g subpkt.payload with
  | none => rfl
  | some rawData =>
    simp only [start, bind_eq, Program.bind, alone, forward_alone]
    cases S.server.forward? pkt subpkt rawData <;> rfl

theorem publishRound_alone (pkt : Server.ServicePacket (Slice UInt8)) (rawData : Slice Float64)
    (subpkt : Server.SubPacket (Slice UInt8)) (S : Service) :
    RoundPlayed ((publishRound pkt rawData subpkt).alone S) S
      (S.server.publishRound pkt rawData subpkt) := by
  unfold publishRound Server.publishRound
  by_cases hempty : subpkt.length = 0
  · simp only [start, bind_eq, Program.bind, hempty, if_true]
    rfl
  · simp only [start, bind_eq, Program.bind, alone, hempty, if_false, forward_alone]
    cases S.server.forward? pkt subpkt rawData <;> rfl

theorem requestCall_ends (pkt : Server.ServicePacket (Slice UInt8))
    (subpkt : Server.SubPacket (Slice UInt8)) :
    Ends (requestCall e pkt subpkt) (Server.requestCall e pkt subpkt) := by
  refine ⟨fun S => ?_⟩
  unfold requestCall Server.requestCall
  split_ifs
  · exact (request_plays ..).ends.alone S
  · exact (requestRange_plays ..).ends.alone S

theorem handlePkt_alone (pkt : Server.ServicePacket (Slice UInt8)) (S : Service) :
    Played ((handlePkt g e pkt).alone S) S (S.server.handlePkt g e pkt).outcome
      (S.server.handlePkt g e pkt).spawned (S.server.handlePkt g e pkt).server := by
  unfold handlePkt Server.handlePkt
  split_ifs
  · exact rounds_alone (fun subpkt => sendRound_alone pkt subpkt S) pkt.subpackets
  · exact (rounds_ends (requestCall_ends pkt) pkt.subpackets).alone S
  · cases Server.payloadBuf2Float? g pkt.payload with
    | none => rfl
    | some rawData =>
      exact rounds_alone (fun subpkt => publishRound_alone pkt rawData subpkt S) pkt.subpackets
  · exact (rounds_ends (fun subpkt => subscribe_ends ..) pkt.subpackets).alone S
  · rfl

end Packets

/-! ### Routines, commands and batches -/

section Goroutines
variable {g : Slice.Growth} {e : Env}

theorem call_ends (r : Server.Routine) : Ends (call e r) (r.run e) := by
  cases r with
  | send id time physicalTime rawData => exact (writeToBuffer_plays _).ends
  | sendPkt => exact (sendPkt_plays ..).ends
  | publish => exact publish_ends ..

theorem commandProcess_plays (param : String) (body : Body) :
    Plays (commandProcess e param body) (DRDS.commandProcess e param body) := by
  refine ⟨fun S => ?_⟩
  unfold commandProcess DRDS.commandProcess
  cases command? param body with
  | error err => rfl
  | ok c =>
    obtain ⟨id, dst, values⟩ := c
    simp only [bind_eq]
    rw [(sendPkt_plays ..).bind]
    rcases hsend : Server.sendPkt e dst Utils.priorityNormal Utils.reserved.toUInt32 Utils.flagSingle
      (.ofInt id) [values] S.server with ⟨_ | err, t⟩
    · simp only [alone_onServer_bind]
      exact (writeToBuffer_plays _).alone _
    · rfl

theorem writeRange_plays (id : UInt16) (batch : List Data) :
    Plays (writeRange e id batch) fun s =>
      let (err, world) := s.handler.writeRange e id batch s.world
      (err, { s with world }) := by
  refine ⟨fun S => ?_⟩
  simp only [writeRange, bind_eq, alone_onServer_bind]
  unfold Handler.writeRange
  by_cases hid : Utils.uint16Contains S.server.handler.recordTables id
  · simp only [hid, if_true, alone_onServer_bind]
    cases batch.mapM (S.server.handler.fillin id (e.unixMilli S.server.world.calls)) <;> rfl
  · simp only [hid]
    rfl

/-- Action by action or at once, it is the same: packets, routines, commands and batches that nothing
comes between do what the calls of the server do. -/
theorem alone_eq_atomic (g : Slice.Growth) (e : Env) (S : Service) :
    (∀ pkt, Played ((handlePkt g e pkt).alone S) S (S.server.handlePkt g e pkt).outcome
      (S.server.handlePkt g e pkt).spawned (S.server.handlePkt g e pkt).server) ∧
    (∀ r, Played ((call e r).alone S) S (r.run e S.server).1 [] (r.run e S.server).2) ∧
    (∀ param body, (commandProcess e param body).alone S =
      (.returned (DRDS.commandProcess e param body S.server).1, [],
        { S with server := (DRDS.commandProcess e param body S.server).2 })) ∧
    ∀ id batch, (writeRange e id batch).alone S =
      (.returned (S.server.handler.writeRange e id batch S.server.world).1, [],
        { S with server := { S.server with
          world := (S.server.handler.writeRange e id batch S.server.world).2 } }) :=
  ⟨fun pkt => handlePkt_alone pkt S, fun r => (call_ends r).alone S,
    fun param body => (commandProcess_plays param body).alone S,
    fun id batch => (writeRange_plays id batch).alone S⟩

end Goroutines
end DRDS.Service
