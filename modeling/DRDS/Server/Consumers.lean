import DRDS.Server.Registers

/-! Goroutines that handle packets at once: every order of the two steps of their `Subscribe`
and `Publish` calls, and of all else that goes on between. -/
namespace DRDS.Server
open Go Concurrency

/-- A goroutine: the call between its two steps with what its test found, and the calls it has
yet to make. -/
structure Thread where
  tested : Option (Call × Bool)
  rest : List Call

structure System where
  server : Server
  threads : ℕ → Thread

def System.init (s : Server) : System := ⟨s, fun _ => ⟨none, []⟩⟩

def Routine.publishCall? : Routine → Option Call
  | .publish id dst rows cols synt physicalTime rawData =>
    some (.publish id dst rows cols synt physicalTime rawData)
  | _ => none

/-- The calls a packet leads to: a consumer makes those of a `SER_SUBSCRIBE` packet one after
the other, and each `Publish` has a goroutine of its own. -/
def packetCalls (g : Slice.Growth) (e : Env) (p : ServicePacket (Slice UInt8)) (s : Server) :
    List (List Call) :=
  if p.service = Utils.serSubscribe then
    [p.subpackets.map fun f => .subscribe f.dataID p.src p.simulinkTime f.timeDiff]
  else ((handlePkt g e p s).spawned.filterMap Routine.publishCall?).map fun c => [c]

inductive Action where
  /-- A thread takes up the calls of a packet. -/
  | start (t : ℕ) (p : ServicePacket (Slice UInt8)) (i : ℕ)
  | test (t : ℕ)
  | finish (t : ℕ)
  /-- A packet is handled that subscribes nobody. -/
  | handle (p : ServicePacket (Slice UInt8))
  /-- A routine runs that is not a `Publish`. -/
  | run (r : Routine)

/-- A call that does not return `nil` ends the packet. -/
def System.step? (g : Slice.Growth) (e : Env) : Action → System → Option System
  | .start t p i, S =>
    match S.threads t, (packetCalls g e p S.server)[i]? with
    | ⟨none, []⟩, some calls =>
      some { S with threads := Function.update S.threads t ⟨none, calls⟩ }
    | _, _ => none
  | .test t, S =>
    match S.threads t with
    | ⟨none, c :: rest⟩ =>
      some { S with threads := Function.update S.threads t ⟨some (c, c.test S.server), rest⟩ }
    | _ => none
  | .finish t, S =>
    match S.threads t with
    | ⟨some (c, found), rest⟩ =>
      let (outcome, server) := c.finish found e S.server
      let rest := if outcome = .returned none then rest else []
      some ⟨server, Function.update S.threads t ⟨none, rest⟩⟩
    | _ => none
  | .handle p, S =>
    if p.service = Utils.serSubscribe then none
    else some { S with server := (handlePkt g e p S.server).server }
  | .run r, S =>
    match r.publishCall? with
    | some _ => none
    | none => some { S with server := (r.run e S.server).2 }

def System.run? (g : Slice.Growth) (e : Env) : List Action → System → Option System
  | [], S => some S
  | a :: as, S => (S.step? g e a).bind (run? g e as)

/-! ### The system as check-then-act -/

def Thread.pending (th : Thread) : Option ((Register × UInt16) × UInt8) :=
  match th.tested with
  | some (c, false) => some c.entry
  | _ => none

def System.checks (S : System) : CheckThenAct ℕ (Register × UInt16) UInt8 where
  entries := clients S.server
  missing t := (S.threads t).pending

/-- No test is made while another call has found the same client missing from the same list
and not appended it yet. -/
def System.Alone (S : System) : Action → Prop
  | .test t => ∀ c rest, S.threads t = ⟨none, c :: rest⟩ → ∀ u, (S.threads u).pending ≠ some c.entry
  | _ => True

def System.Serialized (g : Slice.Growth) (e : Env) : List Action → System → Prop
  | [], _ => True
  | a :: as, S => S.Alone a ∧ ∀ T, S.step? g e a = some T → T.Serialized g e as

theorem registers_run (e : Env) {r : Routine} (s : Server) (h : r.publishCall? = none) :
    registers (r.run e s).2 = registers s := by
  cases r with
  | send => rfl
  | sendPkt => exact registers_sendPkt ..
  | publish => cases h

/-- What a thread has pending is all of it that the registers depend on. -/
theorem System.checks_update (S : System) (s : Server) (t : ℕ) (th : Thread) :
    System.checks ⟨s, Function.update S.threads t th⟩ =
      ⟨clients s, Function.update S.checks.missing t th.pending⟩ := by
  simp only [checks, CheckThenAct.mk.injEq, true_and]
  exact Function.comp_update Thread.pending S.threads t th

theorem System.checks_of_pending {S : System} {s : Server} {t : ℕ} {th : Thread}
    (hs : clients s = clients S.server) (hth : th.pending = (S.threads t).pending) :
    System.checks ⟨s, Function.update S.threads t th⟩ = S.checks := by
  rw [S.checks_update, hs, hth]
  change CheckThenAct.mk (clients S.server) (Function.update S.checks.missing t (S.checks.missing t)) = _
  rw [Function.update_eq_self]
  rfl

theorem System.checks_of_registers {S : System} {s : Server} (h : registers s = registers S.server) :
    System.checks ⟨s, S.threads⟩ = S.checks := by
  rw [checks, clients_congr h]
  rfl

/-- A step that tests alone is a step of check-then-act, or none at all. -/
theorem System.step?_simulates {g : Slice.Growth} {e : Env} {a : Action} {S T : System}
    (h : S.step? g e a = some T) (ha : S.Alone a) :
    Relation.ReflTransGen CheckThenAct.Step S.checks T.checks := by
  cases a with
  | start t p i =>
    simp only [step?] at h
    split at h
    · rename_i hth _
      cases h
      rw [checks_of_pending rfl (by rw [hth]; rfl)]
    · cases h
  | test t =>
    simp only [step?] at h
    split at h
    · rename_i c rest hth
      cases h
      cases hfound : c.test S.server with
      | true => rw [checks_of_pending rfl (by rw [hth]; rfl)]
      | false =>
        have habsent : c.entry.2 ∉ S.checks.entries c.entry.1 := by
          intro hmem
          rw [(c.test_iff S.server).mpr hmem] at hfound
          cases hfound
        have hidle : S.checks.missing t = none := by
          change (S.threads t).pending = none
          rw [hth]
          rfl
        rw [checks_update]
        exact .single (.check t c.entry.1 c.entry.2 habsent hidle (ha c rest hth))
    · cases h
  | finish t =>
    simp only [step?] at h
    split at h
    · rename_i c found rest hth
      cases h
      have hclients := c.clients_finish found e S.server
      cases found with
      | true => rw [checks_of_pending hclients (by rw [hth]; rfl)]
      | false =>
        have hpending : S.checks.missing t = some (c.entry.1, c.entry.2) := by
          change (S.threads t).pending = _
          rw [hth]
          rfl
        rw [checks_update, hclients]
        exact .single (.act t c.entry.1 c.entry.2 hpending)
    · cases h
  | handle p =>
    simp only [step?] at h
    split_ifs at h with hservice
    cases h
    rw [checks_of_registers (registers_handlePkt g e S.server hservice)]
  | run r =>
    simp only [step?] at h
    split at h
    · cases h
    · rename_i hr
      cases h
      rw [checks_of_registers (registers_run e S.server hr)]

theorem System.run?_simulates {g : Slice.Growth} {e : Env} {as : List Action} {S T : System}
    (h : S.run? g e as = some T) (hser : S.Serialized g e as) :
    Relation.ReflTransGen CheckThenAct.Step S.checks T.checks := by
  induction as generalizing S with
  | nil =>
    cases h
    exact .refl
  | cons a as ih =>
    obtain ⟨U, hU, hrest⟩ := Option.bind_eq_some_iff.mp h
    exact (step?_simulates hU hser.1).trans (ih hrest (hser.2 U hU))

/-! ### Forwards to one subscriber -/

def Routine.dst? : Routine → Option UInt8
  | .sendPkt dst _ _ _ _ _ => some dst
  | _ => none

theorem filterMap_dst?_forward? {s : Server} {p : ServicePacket (Slice UInt8)}
    {f : SubPacket (Slice UInt8)} {rawData : Slice Float64} {rs : List Routine}
    (h : s.forward? p f rawData = some rs) :
    rs.filterMap Routine.dst? = s.subscriberRegister f.dataID := by
  have hdst : ∀ {dsts : List UInt8} {rs : List Routine},
      List.Forall₂ (fun dst r => (rowsOf? rawData f.row f.col).map (fun dataMat =>
        Routine.sendPkt dst p.priority p.simulinkTime p.flag f.dataID dataMat) = some r) dsts rs →
      rs.filterMap Routine.dst? = dsts := by
    intro dsts rs hf
    induction hf with
    | nil => rfl
    | cons hr _ ih =>
      obtain ⟨mat, _, rfl⟩ := Option.map_eq_some_iff.mp hr
      rw [List.filterMap_cons, ih]
      rfl
  exact hdst (mapM_forall₂ h)

theorem nodup_dst?_sendRound (g : Slice.Growth) {s : Server} (p : ServicePacket (Slice UInt8))
    (f : SubPacket (Slice UInt8)) (h : (s.subscriberRegister f.dataID).Nodup) :
    ((sendRound g s p f).1.filterMap Routine.dst?).Nodup := by
  unfold sendRound
  split
  · exact List.nodup_nil
  · split
    · exact List.nodup_nil
    · rename_i hforward
      rw [← filterMap_dst?_forward? hforward] at h
      exact h

/-- In every run whose tests are made alone no client is registered twice for a data id, and
no subframe is forwarded twice to a subscriber. -/
theorem registers_nodup (g : Slice.Growth) (e : Env) (s : Server) (as : List Action) (S : System)
    (hs : registers s = (fun _ => [], fun _ => [])) (hrun : (System.init s).run? g e as = some S)
    (hser : (System.init s).Serialized g e as) :
    (∀ d, (S.server.publisherRegister d).Nodup ∧ (S.server.subscriberRegister d).Nodup) ∧
      ∀ p f, ((sendRound g S.server p f).1.filterMap Routine.dst?).Nodup := by
  have hnone : ∀ t, (System.init s).checks.missing t = none := fun _ => rfl
  have hinit : (System.init s).checks.Exclusive := by
    refine ⟨fun ⟨r, d⟩ => ?_, fun {t k a} h => by simp [hnone t] at h,
      fun {t u x} h => by simp [hnone t] at h⟩
    obtain ⟨hp, hs⟩ := clients_of_registers hs d
    change (clients s (r, d)).Nodup
    cases r with
    | publisher =>
      rw [hp]
      exact List.nodup_nil
    | subscriber =>
      rw [hs]
      exact List.nodup_nil
  have hfinal := hinit.run (System.run?_simulates hrun hser)
  have hsub := fun d => hfinal.nodup (.subscriber, d)
  exact ⟨fun d => ⟨hfinal.nodup (.publisher, d), hsub d⟩,
    fun p f => nodup_dst?_sendRound g p f (hsub f.dataID)⟩

def subscribePacket : ServicePacket (Slice UInt8) :=
  clientPacket Utils.serSubscribe [⟨3, 1, 0, 0, 0, .ofList []⟩] (.ofList [])

/-- Two consumers take up copies of one packet, and both test before either appends. -/
theorem subscribePacket_twice_registers_twice :
    ∃ S, (System.init afterInit).run? .tight .reliable
        [.start 0 subscribePacket 0, .start 1 subscribePacket 0, .test 0, .test 1, .finish 0,
          .finish 1] = some S ∧
      ¬ (S.server.subscriberRegister 3).Nodup := by
  refine ⟨_, rfl, ?_⟩
  decide +kernel

/-- Clients 2 and 3 subscribe at once, and a copy of the first packet comes after. -/
def twoSubscribe : List Action :=
  [.start 0 subscribePacket 0, .start 1 { subscribePacket with src := 3 } 0, .test 0, .test 1, .finish 1,
    .finish 0, .start 0 subscribePacket 0, .test 0, .finish 0]

theorem twoSubscribe_serialized : (System.init afterInit).Serialized .tight .reliable twoSubscribe := by
  refine ⟨trivial, fun S hS => ?_⟩
  cases hS
  refine ⟨trivial, fun S hS => ?_⟩
  cases hS
  -- nobody has tested
  refine ⟨fun c rest hc u => ?_, fun S hS => ?_⟩
  · by_cases hu : u = 1 <;> by_cases hu' : u = 0 <;>
      simp [hu, hu', Thread.pending, System.init]
  cases hS
  -- the first consumer has found another client missing
  refine ⟨fun c rest hc u => ?_, fun S hS => ?_⟩
  · have hentry : c.entry = ((.subscriber, 3), 3) := by
      cases hc
      rfl
    rw [hentry]
    by_cases hu : u = 0
    · subst hu
      decide
    · by_cases hu' : u = 1 <;> simp [hu, hu', Thread.pending, System.init]
  cases hS
  refine ⟨trivial, fun S hS => ?_⟩
  cases hS
  refine ⟨trivial, fun S hS => ?_⟩
  cases hS
  refine ⟨trivial, fun S hS => ?_⟩
  cases hS
  -- both have appended
  refine ⟨fun c rest hc u => ?_, fun S hS => ⟨trivial, fun _ _ => trivial⟩⟩
  · by_cases hu : u = 0 <;> by_cases hu' : u = 1 <;>
      simp [hu, hu', Thread.pending, System.init]

/-- Each is registered once. -/
theorem twoSubscribe_nodup :
    ∃ S, (System.init afterInit).run? .tight .reliable twoSubscribe = some S ∧
      S.server.subscriberRegister 3 = [3, 2] ∧
      (∀ d, (S.server.publisherRegister d).Nodup ∧ (S.server.subscriberRegister d).Nodup) ∧
        ∀ p f, ((sendRound .tight S.server p f).1.filterMap Routine.dst?).Nodup := by
  have hrun : ((System.init afterInit).run? .tight .reliable twoSubscribe).any fun S =>
      S.server.subscriberRegister 3 = [3, 2] := by
    decide +kernel
  obtain ⟨S, hrun, hregister⟩ := (Option.any_eq_true _ _).mp hrun
  exact ⟨S, hrun, of_decide_eq_true hregister,
    registers_nodup _ _ _ _ S rfl hrun twoSubscribe_serialized⟩

end DRDS.Server
