import DRDS.Server.Sequential

/-! A packet against its subframes: handling it whole, and handling a packet for each subframe.
A goroutine runs to its end as soon as it is started. -/
namespace DRDS.Server
open Go

/-! ### Handling to the end -/

/-- Goroutines run one after the other, up to one that does not return. -/
def runRoutines (e : Env) : List Routine → Server → Outcome × Server
  | [], s => (.returned none, s)
  | r :: rs, s =>
    match r.run e s with
    | (.returned _, s) => runRoutines e rs s
    | (o, s) => (o, s)

def handled (g : Slice.Growth) (e : Env) (p : ServicePacket (Slice UInt8)) (s : Server) :
    Outcome × Server :=
  let h := handlePkt g e p s
  match runRoutines e h.spawned h.server with
  | (.returned _, s) => (h.outcome, s)
  | (o, s) => (o, s)

def ServicePacket.single (p : ServicePacket (Slice UInt8)) (f : SubPacket (Slice UInt8)) :
    ServicePacket (Slice UInt8) := { p with subframeNum := 1, subpackets := [f] }

/-- A packet for each subframe, in order. A packet that ends in an error does not keep the
consumer from the next. -/
def handleEach (g : Slice.Growth) (e : Env) (p : ServicePacket (Slice UInt8)) :
    List (SubPacket (Slice UInt8)) → Server → Outcome × Server
  | [], s => (.returned none, s)
  | f :: fs, s =>
    match handled g e (p.single f) s with
    | (.returned _, s) => handleEach g e p fs s
    | (o, s) => (o, s)

/-- No packet of one subframe ends in an error: the calls it makes succeed. -/
def ErrorFree (g : Slice.Growth) (e : Env) (p : ServicePacket (Slice UInt8)) :
    List (SubPacket (Slice UInt8)) → Server → Prop
  | [], _ => True
  | f :: fs, s => (∀ err, (handled g e (p.single f) s).1 ≠ .returned (some err)) ∧
    ∀ t, handled g e (p.single f) s = (.returned none, t) → ErrorFree g e p fs t

section Handling
variable {g : Slice.Growth} {e : Env} {p : ServicePacket (Slice UInt8)}
  {f : SubPacket (Slice UInt8)} {fs : List (SubPacket (Slice UInt8))} {s t : Server}

theorem handleEach_cons_of_nil (h : handled g e (p.single f) s = (.returned none, t)) :
    handleEach g e p (f :: fs) s = handleEach g e p fs t := by
  rw [handleEach, h]

theorem handleEach_cons_of_ne (h : ∀ err, (handled g e (p.single f) s).1 ≠ .returned err) :
    handleEach g e p (f :: fs) s = handled g e (p.single f) s := by
  unfold handleEach
  split
  · rename_i err u heq
    exact absurd (congrArg Prod.fst heq) (h err)
  · rename_i heq
    exact heq.symm

theorem runRoutines_append (rs rs' : List Routine) (s : Server) :
    runRoutines e (rs ++ rs') s =
      match runRoutines e rs s with
      | (.returned _, s) => runRoutines e rs' s
      | (o, s) => (o, s) := by
  induction rs generalizing s with
  | nil => rfl
  | cons r rs ih =>
    rw [List.cons_append, runRoutines, runRoutines]
    rcases r.run e s with ⟨_ | _ | _, t⟩
    · exact ih t
    · rfl
    · rfl

theorem subscriberRegister_runRoutines (rs : List Routine) (s : Server) :
    (runRoutines e rs s).2.subscriberRegister = s.subscriberRegister := by
  induction rs generalizing s with
  | nil => rfl
  | cons r rs ih =>
    have hr : (r.run e s).2.subscriberRegister = s.subscriberRegister := by
      cases r with
      | send => rfl
      | sendPkt => exact congrArg Prod.snd (registers_sendPkt ..)
      | publish => exact congrArg Prod.snd (registers_publishFrom ..)
    rw [runRoutines]
    rcases h : r.run e s with ⟨_ | _ | _, t⟩
    all_goals rw [h] at hr
    · exact (ih t).trans hr
    · exact hr
    · exact hr

/-! ### Calls in a loop -/

/-- A loop of calls does what the calls do each on its own. -/
theorem callLoop_eq_handleEach {body : SubPacket (Slice UInt8) → Server → Outcome × Server}
    (hsingle : ∀ f s, handled g e (p.single f) s = callLoop body [f] s)
    (hok : ErrorFree g e p fs s) : callLoop body fs s = handleEach g e p fs s := by
  induction fs generalizing s with
  | nil => rfl
  | cons f fs ih =>
    obtain ⟨herr, hrest⟩ := hok
    rcases hcall : body f s with ⟨o, t⟩
    by_cases ho : o = .returned none
    · subst ho
      have hone : handled g e (p.single f) s = (.returned none, t) := by
        rw [hsingle, callLoop_cons_of_nil hcall, callLoop]
      rw [callLoop_cons_of_nil hcall, handleEach_cons_of_nil hone]
      exact ih (hrest t hone)
    · have hne : (body f s).1 ≠ .returned none := by
        rw [hcall]
        exact ho
      have hone : handled g e (p.single f) s = body f s := by
        rw [hsingle, callLoop_cons_of_ne hne]
      rw [callLoop_cons_of_ne hne, handleEach_cons_of_ne, hone]
      intro err heq
      cases err with
      | none => exact hne (hone ▸ heq)
      | some err => exact herr err heq

theorem handled_of_spawned_nil (h : (handlePkt g e p s).spawned = []) :
    handled g e p s = ((handlePkt g e p s).outcome, (handlePkt g e p s).server) := by
  rw [handled, h]
  rfl

theorem handled_request (h : p.service = Utils.serRequest) :
    handled g e p s = callLoop (requestCall e p) p.subpackets s := by
  have hp := handlePkt_request (g := g) (e := e) (s := s) h
  rw [handled_of_spawned_nil (congrArg Handled.spawned hp), hp]

theorem handled_subscribe (h : p.service = Utils.serSubscribe) :
    handled g e p s = callLoop (subscribeCall e p) p.subpackets s := by
  have hp := handlePkt_subscribe (g := g) (e := e) (s := s) h
  rw [handled_of_spawned_nil (congrArg Handled.spawned hp), hp]

/-! ### Goroutines in a loop -/

/-- A loop whose goroutines run as they are started. -/
def handledLoop (e : Env) (body : SubPacket (Slice UInt8) → Round)
    (fs : List (SubPacket (Slice UInt8))) (s : Server) : Outcome × Server :=
  let (rs, outcome) := rangeLoop (.returned none) body fs
  match runRoutines e rs s with
  | (.returned _, s) => (outcome, s)
  | (o, s) => (o, s)

theorem handledLoop_cons_of_none {body : SubPacket (Slice UInt8) → Round} {rs : List Routine}
    (h : body f = (rs, none)) : handledLoop e body (f :: fs) s =
      match runRoutines e rs s with
      | (.returned _, s) => handledLoop e body fs s
      | (o, s) => (o, s) := by
  unfold handledLoop
  rw [rangeLoop, h]
  dsimp only
  rw [runRoutines_append]
  rcases runRoutines e rs s with ⟨_ | _ | _, t⟩ <;> rfl

theorem handledLoop_cons_of_some {body : SubPacket (Slice UInt8) → Round} {rs : List Routine}
    {o : Outcome} (h : body f = (rs, some o)) : handledLoop e body (f :: fs) s =
      match runRoutines e rs s with
      | (.returned _, s) => (o, s)
      | (o, s) => (o, s) := by
  unfold handledLoop
  rw [rangeLoop, h]

theorem handled_send (h : p.service = Utils.serSend) :
    handled g e p s = handledLoop e (sendRound g s p) p.subpackets s := by
  rw [handled, handlePkt_send h]
  rfl

theorem handled_publish (h : p.service = Utils.serPublish) {rawData : Slice Float64}
    (hraw : payloadBuf2Float? g p.payload = some rawData) :
    handled g e p s = handledLoop e (publishRound s p rawData) p.subpackets s := by
  rw [handled, handlePkt_publish h hraw]
  rfl

theorem sendRound_congr (h : t.subscriberRegister = s.subscriberRegister) :
    sendRound g t p = sendRound g s p := by
  funext f
  unfold sendRound forward?
  rw [h]

theorem publishRound_congr {rawData : Slice Float64}
    (h : t.subscriberRegister = s.subscriberRegister) :
    publishRound t p rawData = publishRound s p rawData := by
  funext f
  unfold publishRound forward?
  rw [h]

theorem sendRound_some {rs : List Routine} {o : Outcome} (h : sendRound g s p f = (rs, some o)) :
    o = .panicked := by
  unfold sendRound at h
  split at h
  · cases h
    rfl
  · dsimp only at h
    split at h
    · cases h
      rfl
    · cases h

theorem handled_send_eq_handleEach (h : p.service = Utils.serSend)
    (fs : List (SubPacket (Slice UInt8))) (s : Server) :
    handledLoop e (sendRound g s p) fs s = handleEach g e p fs s := by
  induction fs generalizing s with
  | nil => rfl
  | cons f fs ih =>
    have hone : handled g e (p.single f) s = handledLoop e (sendRound g s p) [f] s :=
      handled_send (p := p.single f) h
    rcases hround : sendRound g s p f with ⟨rs, _ | o⟩
    · have hsub := subscriberRegister_runRoutines (e := e) rs s
      rw [handledLoop_cons_of_none hround] at hone ⊢
      rcases hrun : runRoutines e rs s with ⟨o, t⟩
      rw [hrun] at hone hsub
      cases o with
      | returned err =>
        rw [handleEach_cons_of_nil hone]
        dsimp only
        rw [← sendRound_congr hsub]
        exact ih t
      | panicked => rw [handleEach_cons_of_ne (by rw [hone]; simp), hone]
      | hangs => rw [handleEach_cons_of_ne (by rw [hone]; simp), hone]
    · obtain rfl := sendRound_some hround
      rw [handledLoop_cons_of_some hround] at hone ⊢
      rw [handleEach_cons_of_ne, hone]
      intro err
      rw [hone]
      rcases runRoutines e rs s with ⟨_ | _ | _, t⟩ <;> simp

end Handling
end DRDS.Server
