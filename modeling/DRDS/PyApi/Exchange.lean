import DRDS.PyApi.Api
import DRDS.Server.Replies

/-! One client and the server, with the datagrams between them. They may be lost and come in any
order; the client reads them from one socket. -/
namespace DRDS.PyApi
open Go
open Server (fromServiceBuf? listenBuf handlePkt)

/-- A datagram for the client, with the number of the call whose packet it answers; other
datagrams have none. -/
abbrev Incoming := Option ℕ × List UInt8

/-- The call that waits, and the rounds its loop has made. -/
structure Waiting where
  number : ℕ
  call : Call
  count : ℕ

structure Return where
  number : ℕ
  call : Call
  result : Option (Option ℕ × Packet)

structure Link where
  server : Server
  crashed : Bool
  routines : List Server.Routine
  /-- What is on its way to the server, by the number of its call. -/
  requests : List (ℕ × List UInt8)
  replies : List Incoming
  socket : List Incoming
  calls : ℕ
  waiting : Option Waiting
  returned : List Return

def Link.init (s : Server) : Link := ⟨s, false, [], [], [], [], 0, none, []⟩

inductive Action where
  | call (c : Call) (physicalTime : ℕ)
  | poll
  | deliver (i : ℕ)
  | loseReply (i : ℕ)
  | loseRequest (i : ℕ)
  /-- The server receives and handles a packet of a call. -/
  | serve (i : ℕ)
  /-- The server handles any other packet: of another client, or one that `send` sent. -/
  | handle (p : Server.ServicePacket (Slice UInt8))
  /-- A goroutine that was started runs. -/
  | run (i : ℕ)
  /-- The write buffers and the database go on. -/
  | besides (handler : Handler) (tables : UInt16 → Option Table)

/-- The datagrams for the client that were sent between two states of the server. -/
def API.emitted (api : API) (s t : Server) : List (List UInt8) :=
  ((t.world.sent.drop s.world.sent.length).filter (·.1 = api.addr)).map (·.2)

/-- A turn of the server, which ends it when something panics. -/
def Link.turn (api : API) (origin : Option ℕ) (outcome : Outcome) (spawned : List Server.Routine)
    (t : Server) (L : Link) : Link :=
  { L with
    server := t
    crashed := outcome = .panicked
    routines := L.routines ++ spawned
    replies := L.replies ++ (api.emitted L.server t).map fun buf => (origin, buf) }

def Link.step? (g : Slice.Growth) (e : Env) (api : API) : Action → Link → Option Link
  | .call c physicalTime, L =>
    match L.waiting with
    | some _ => none
    | none =>
      let message := (api.pkt? physicalTime c).bind Packet.pkt2Buf?
      some { L with
        calls := L.calls + 1
        waiting := some ⟨L.calls, c, 0⟩
        requests := L.requests ++ message.toList.map fun buf => (L.calls, buf) }
  | .poll, L =>
    match L.waiting with
    | none => none
    | some w =>
      match round w.count (L.socket.head?.map (·.2)) with
      | .continues count =>
        some { L with waiting := some { w with count }, socket := L.socket.tail }
      | .returns none =>
        some { L with waiting := none, returned := L.returned ++ [⟨w.number, w.call, none⟩] }
      | .returns (some pkt) =>
        let result := L.socket.head?.map fun message => (message.1, pkt)
        some { L with
          waiting := none
          socket := L.socket.tail
          returned := L.returned ++ [⟨w.number, w.call, result⟩] }
  | .deliver i, L =>
    L.replies[i]?.map fun message =>
      { L with replies := L.replies.eraseIdx i, socket := L.socket ++ [message] }
  | .loseReply i, L => some { L with replies := L.replies.eraseIdx i }
  | .loseRequest i, L => some { L with requests := L.requests.eraseIdx i }
  | .serve i, L =>
    if L.crashed then none
    else
      L.requests[i]?.map fun (number, buf) =>
        let L := { L with requests := L.requests.eraseIdx i }
        match fromServiceBuf? (listenBuf buf) with
        | none => { L with crashed := true }
        | some p =>
          let handled := handlePkt g e p L.server
          L.turn api (some number) handled.outcome handled.spawned handled.server
  | .handle p, L =>
    if L.crashed then none
    else
      let handled := handlePkt g e p L.server
      some (L.turn api none handled.outcome handled.spawned handled.server)
  | .run i, L =>
    if L.crashed then none
    else
      L.routines[i]?.map fun r =>
        let (outcome, t) := r.run e L.server
        { L with routines := L.routines.eraseIdx i }.turn api none outcome [] t
  | .besides handler tables, L =>
    some { L with server := { L.server with handler, world := { L.server.world with tables } } }

theorem Link.step?_poll {g : Slice.Growth} {e : Env} {api : API} {L T : Link}
    (h : L.step? g e api .poll = some T) : ∃ w, L.waiting = some w ∧
      ((∃ count, T = { L with waiting := some { w with count }, socket := L.socket.tail }) ∨
        T = { L with waiting := none, returned := L.returned ++ [⟨w.number, w.call, none⟩] } ∨
        ∃ message socket pkt, L.socket = message :: socket ∧
          Packet.buf2Pkt? message.2 = some pkt ∧
          T = { L with
            waiting := none
            socket
            returned := L.returned ++ [⟨w.number, w.call, some (message.1, pkt)⟩] }) := by
  cases hw : L.waiting with
  | none =>
    simp only [step?, hw] at h
    cases h
  | some w =>
    simp only [step?, hw] at h
    refine ⟨w, rfl, ?_⟩
    cases hround : round w.count (L.socket.head?.map (·.2)) with
    | continues count =>
      rw [hround] at h
      exact .inl ⟨count, (Option.some.inj h).symm⟩
    | returns result =>
      rw [hround] at h
      cases result with
      | none => exact .inr (.inl (Option.some.inj h).symm)
      | some pkt =>
        obtain ⟨buf, hhead, hdecode⟩ := message_of_round hround
        obtain ⟨message, hmessage, rfl⟩ := Option.map_eq_some_iff.mp hhead
        obtain ⟨socket, hsocket⟩ := List.head?_eq_some_iff.mp hmessage
        have hT := (Option.some.inj h).symm
        rw [hsocket] at hT
        exact .inr (.inr ⟨message, socket, pkt, hsocket, hdecode, hT⟩)

def Link.run? (g : Slice.Growth) (e : Env) (api : API) : List Action → Link → Option Link
  | [], L => some L
  | a :: as, L => (L.step? g e api a).bind (run? g e api as)

end DRDS.PyApi
