import DRDS.Concurrency.CheckThenAct
import DRDS.Server.Forward

/-! The client registers under concurrently handled packets. `Subscribe` and `Publish` test a
register in one critical section and append to it in another. -/
namespace DRDS.Server
open Go Concurrency

/-! ### The services of a packet -/

section Services
variable {g : Slice.Growth} {e : Env} {p : ServicePacket (Slice UInt8)} {s : Server}

def subscribeCall (e : Env) (pkt : ServicePacket (Slice UInt8)) (subpkt : SubPacket (Slice UInt8))
    (s : Server) : Outcome × Server :=
  s.subscribe e subpkt.dataID pkt.src pkt.simulinkTime subpkt.timeDiff

theorem handlePkt_send (h : p.service = Utils.serSend) : handlePkt g e p s =
    ⟨(rangeLoop (.returned none) (sendRound g s p) p.subpackets).2,
      (rangeLoop (.returned none) (sendRound g s p) p.subpackets).1, s⟩ := by
  rw [handlePkt, if_pos h]

theorem handlePkt_request (h : p.service = Utils.serRequest) : handlePkt g e p s =
    ⟨(callLoop (requestCall e p) p.subpackets s).1, [],
      (callLoop (requestCall e p) p.subpackets s).2⟩ := by
  rw [handlePkt, h, if_neg (by decide), if_pos rfl]

theorem handlePkt_publish (h : p.service = Utils.serPublish) {rawData : Slice Float64}
    (hraw : payloadBuf2Float? g p.payload = some rawData) : handlePkt g e p s =
    ⟨(rangeLoop (.returned none) (publishRound s p rawData) p.subpackets).2,
      (rangeLoop (.returned none) (publishRound s p rawData) p.subpackets).1, s⟩ := by
  rw [handlePkt, h, if_neg (by decide), if_neg (by decide), if_pos rfl, hraw]

/-- The payload of the packet is decoded before the first subframe. -/
theorem handlePkt_publish_of_none (h : p.service = Utils.serPublish)
    (hraw : payloadBuf2Float? g p.payload = none) : handlePkt g e p s = ⟨.panicked, [], s⟩ := by
  rw [handlePkt, h, if_neg (by decide), if_neg (by decide), if_pos rfl, hraw]

theorem handlePkt_subscribe (h : p.service = Utils.serSubscribe) : handlePkt g e p s =
    ⟨(callLoop (subscribeCall e p) p.subpackets s).1, [],
      (callLoop (subscribeCall e p) p.subpackets s).2⟩ := by
  rw [handlePkt, h, if_neg (by decide), if_neg (by decide), if_neg (by decide), if_pos rfl]
  rfl

end Services

/-! ### What changes a register -/

def registers (s : Server) : (UInt16 → List UInt8) × (UInt16 → List UInt8) :=
  (s.publisherRegister, s.subscriberRegister)

theorem registers_of_eq {ω : Type} {x : ω × Server} {o : ω} {s t : Server} (hx : x = (o, t))
    (h : registers x.2 = registers s) : registers t = registers s := by
  rwa [hx] at h

@[simp] theorem registers_transmit (e : Env) (dst : UInt8) (buf : List UInt8) (s : Server) :
    registers (s.transmit e dst buf).2 = registers s := by
  rcases transmit_cases e dst buf s with ⟨err, w, h, _⟩ | ⟨addr, w, h, _⟩ <;>
  · rw [h]
    rfl

@[simp] theorem registers_sendPkt (e : Env) (dst priority : UInt8) (synt : UInt32)
    (flag : UInt8) (dataID : UInt16) (mat : List (List Float64)) (s : Server) :
    registers (s.sendPkt e dst priority synt flag dataID mat).2 = registers s := by
  rw [sendPkt, registers_transmit]
  rfl

@[simp] theorem registers_sendOpt (e : Env) (dst priority : UInt8) (synt : UInt32)
    (service flag opt1 opt2 : UInt8) (s : Server) :
    registers (s.sendOpt e dst priority synt service flag opt1 opt2).2 = registers s := by
  have h := registers_transmit e dst
    (toServiceBuf (optPkt e s dst priority synt service flag opt1 opt2)) s.numbered
  unfold sendOpt
  split
  all_goals
    rename_i heq
    have hs := registers_of_eq heq h
    exact hs

@[simp] theorem registers_writeToBuffer (id : UInt16) (data : Data) (s : Server) :
    registers (s.writeToBuffer id data).2 = registers s := rfl

theorem registers_request (e : Env) (id : UInt16) (synt : UInt32) (dst priority : UInt8)
    (s : Server) : registers (s.request e id synt dst priority).2 = registers s := by
  unfold request
  split_ifs
  all_goals
    dsimp only
    split
    · rfl
    · rw [registers_sendPkt]
      rfl

theorem registers_requestRange (e : Env) (id : UInt16) (timeStart : UInt32) (timeDiff : UInt16)
    (dst priority : UInt8) (s : Server) :
    registers (s.requestRange e id timeStart timeDiff dst priority).2 = registers s := by
  unfold requestRange
  split_ifs
  all_goals
    dsimp only
    split
    · rfl
    · rw [registers_sendPkt]
      rfl

theorem registers_publishRows (id : UInt16) (synt physicalTime : UInt32)
    (rawData : Slice Float64) (col : ℕ) (rows : List ℕ) (s : Server) :
    registers (publishRows id synt physicalTime rawData col rows s).2 = registers s := by
  induction rows generalizing s with
  | nil => rfl
  | cons row rows ih =>
    unfold publishRows
    split
    · rfl
    · rename_i value _
      have h := registers_writeToBuffer id ⟨synt + .ofNat row, physicalTime, value.toList⟩ s
      split
      · rename_i heq
        exact registers_of_eq heq h
      · rename_i heq
        rw [ih]
        exact registers_of_eq heq h

theorem registers_history? (e : Env) (id : UInt16) (lastSynt : UInt32) (n : ℕ) (i : UInt32)
    (s t : Server) (rows : List (List Float64)) (h : s.history? e id lastSynt n i = some (rows, t)) :
    registers t = registers s := by
  induction n generalizing i s t rows with
  | zero => cases h
  | succ n ih =>
    unfold history? at h
    split at h
    · dsimp only at h
      split at h
      · cases h
      · rename_i heq
        cases h
        have hrest := ih _ _ _ _ heq
        exact hrest
    · cases h
      rfl

@[simp] theorem registers_subscribeAck (e : Env) (dst : UInt8) (synt : UInt32) (s : Server) :
    registers (s.subscribeAck e dst synt).2 = registers s := registers_sendOpt ..

/-- After the test a client is appended when it was not found, whatever else the call does. -/
theorem registers_subscribeFrom (found : Bool) (e : Env) (id : UInt16) (dst : UInt8)
    (synt : UInt32) (s : Server) : registers (subscribeFrom found e id dst synt s).2 =
      (s.publisherRegister,
        if found then s.subscriberRegister else addClient s.subscriberRegister id dst) := by
  cases found with
  | false => exact registers_subscribeAck e dst synt _
  | true =>
    simp only [subscribeFrom, if_true]
    split_ifs
    · split
      · rfl
      · rename_i dataMap t h
        have hloop := registers_history? _ _ _ _ _ _ _ _ h
        rw [registers_subscribeAck, registers_sendPkt]
        exact hloop
    · rw [registers_subscribeAck]
      rfl

theorem subscriberRegister_subscribe (e : Env) (id : UInt16) (dst : UInt8) (synt : UInt32)
    (rate : UInt16) (s : Server) :
    (s.subscribe e id dst synt rate).2.subscriberRegister =
      if s.isSubscriberRegistered id dst then s.subscriberRegister
      else addClient s.subscriberRegister id dst :=
  congrArg Prod.snd (registers_subscribeFrom (s.isSubscriberRegistered id dst) e id dst synt s)

theorem registers_publishFrom (found : Bool) (e : Env) (id : UInt16) (dst rows cols : UInt8)
    (synt physicalTime : UInt32) (rawData : Slice Float64) (s : Server) :
    registers (publishFrom found e id dst rows cols synt physicalTime rawData s).2 =
      (if found then s.publisherRegister else addClient s.publisherRegister id dst,
        s.subscriberRegister) := by
  cases found with
  | false => exact registers_sendOpt ..
  | true =>
    simp only [publishFrom, if_true]
    split_ifs
    · exact registers_sendOpt ..
    · exact registers_publishRows ..

theorem callLoop_cons_of_nil {α : Type} {body : α → Server → Outcome × Server} {x : α} {s t : Server}
    (h : body x s = (.returned none, t)) (xs : List α) :
    callLoop body (x :: xs) s = callLoop body xs t := by
  rw [callLoop, h]

theorem callLoop_cons_of_ne {α : Type} {body : α → Server → Outcome × Server} {x : α} {s : Server}
    (h : (body x s).1 ≠ .returned none) (xs : List α) : callLoop body (x :: xs) s = body x s := by
  unfold callLoop
  split
  · rename_i heq
    exact absurd (congrArg Prod.fst heq) h
  · rename_i heq
    exact heq.symm

theorem registers_callLoop {α : Type} {body : α → Server → Outcome × Server}
    (h : ∀ x s, registers (body x s).2 = registers s) (xs : List α) (s : Server) :
    registers (callLoop body xs s).2 = registers s := by
  induction xs generalizing s with
  | nil => rfl
  | cons x xs ih =>
    have hx := h x s
    unfold callLoop
    split
    · rename_i heq
      rw [ih]
      exact registers_of_eq heq hx
    · rename_i heq
      exact registers_of_eq heq hx

theorem registers_requestCall (e : Env) (p : ServicePacket (Slice UInt8))
    (f : SubPacket (Slice UInt8)) (s : Server) : registers (requestCall e p f s).2 = registers s := by
  unfold requestCall
  split_ifs
  · exact registers_request ..
  · exact registers_requestRange ..

theorem registers_handlePkt (g : Slice.Growth) (e : Env) {p : ServicePacket (Slice UInt8)}
    (s : Server) (h : p.service ≠ Utils.serSubscribe) :
    registers (handlePkt g e p s).server = registers s := by
  unfold handlePkt
  split_ifs
  · rfl
  · exact registers_callLoop (registers_requestCall e p) _ _
  · split <;> rfl
  · rfl

/-! ### Calls in two steps -/

inductive Register where
  | publisher
  | subscriber
  deriving DecidableEq

def clients (s : Server) : Register × UInt16 → List UInt8
  | (.publisher, id) => s.publisherRegister id
  | (.subscriber, id) => s.subscriberRegister id

inductive Call where
  | subscribe (id : UInt16) (dst : UInt8) (synt : UInt32) (rate : UInt16)
  | publish (id : UInt16) (dst rows cols : UInt8) (synt physicalTime : UInt32)
      (rawData : Slice Float64)

def Call.entry : Call → (Register × UInt16) × UInt8
  | .subscribe id dst _ _ => ((.subscriber, id), dst)
  | .publish id dst _ _ _ _ _ => ((.publisher, id), dst)

/-- The first step: the test under the read lock. -/
def Call.test : Call → Server → Bool
  | .subscribe id dst _ _, s => s.isSubscriberRegistered id dst
  | .publish id dst _ _ _ _ _, s => s.isPublisherRegistered id dst

/-- The second step: the append under the lock, if it comes to that, and the rest. -/
def Call.finish (found : Bool) (e : Env) : Call → Server → Outcome × Server
  | .subscribe id dst synt _, s => subscribeFrom found e id dst synt s
  | .publish id dst rows cols synt physicalTime rawData, s =>
    publishFrom found e id dst rows cols synt physicalTime rawData s

/-- The call as the code runs it when nothing comes between. -/
def Call.run (e : Env) : Call → Server → Outcome × Server
  | .subscribe id dst synt rate, s => s.subscribe e id dst synt rate
  | .publish id dst rows cols synt physicalTime rawData, s =>
    s.publish e id dst rows cols synt physicalTime rawData

theorem Call.finish_test (e : Env) (c : Call) (s : Server) :
    c.finish (c.test s) e s = c.run e s := by
  cases c <;> rfl

theorem Call.test_iff (c : Call) (s : Server) :
    c.test s = true ↔ c.entry.2 ∈ clients s c.entry.1 := by
  cases c <;> exact Utils.uint8Contains_iff _ _

theorem clients_congr {s t : Server} (h : registers t = registers s) : clients t = clients s := by
  obtain ⟨hp, hs⟩ := Prod.mk.inj h
  funext ⟨r, id⟩
  cases r with
  | publisher => exact congrFun hp id
  | subscriber => exact congrFun hs id

theorem clients_of_registers {s : Server} {pub sub : UInt16 → List UInt8}
    (h : registers s = (pub, sub)) (id : UInt16) :
    clients s (.publisher, id) = pub id ∧ clients s (.subscriber, id) = sub id := by
  obtain ⟨hp, hs⟩ := Prod.mk.inj h
  exact ⟨congrFun hp id, congrFun hs id⟩

theorem addClient_apply (register : UInt16 → List UInt8) (id i : UInt16) (dst : UInt8) :
    addClient register id dst i = if i = id then register id ++ [dst] else register i := by
  rw [addClient, Function.update_apply]

/-- The second step of a call that found its client leaves the registers alone; else it
appends the client. -/
theorem Call.clients_finish (found : Bool) (e : Env) (c : Call) (s : Server) :
    clients (c.finish found e s).2 = if found then clients s else
      Function.update (clients s) c.entry.1 (clients s c.entry.1 ++ [c.entry.2]) := by
  funext ⟨r, i⟩
  cases c with
  | subscribe id dst synt rate =>
    obtain ⟨hp, hs⟩ := clients_of_registers (registers_subscribeFrom found e id dst synt s) i
    cases r with
    | publisher =>
      rw [finish, hp]
      cases found <;> simp [entry, clients]
    | subscriber =>
      rw [finish, hs]
      cases found <;> simp [entry, clients, addClient_apply, Function.update_apply]
  | publish id dst rows cols synt physicalTime rawData =>
    obtain ⟨hp, hs⟩ := clients_of_registers
      (registers_publishFrom found e id dst rows cols synt physicalTime rawData s) i
    cases r with
    | publisher =>
      rw [finish, hp]
      cases found <;> simp [entry, clients, addClient_apply, Function.update_apply]
    | subscriber =>
      rw [finish, hs]
      cases found <;> simp [entry, clients]

end DRDS.Server
