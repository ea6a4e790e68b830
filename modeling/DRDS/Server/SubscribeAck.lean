import DRDS.Server.Consumers
import DRDS.Server.Replies

/-! Subscriptions whose acknowledgement does not go out: the client is registered before. -/
namespace DRDS.Server
open Go

section Opt
variable {e : Env} (he : e.IgnoresBytes) {s : Server} {dst : UInt8} (priority : UInt8)
  (synt : UInt32) (service flag opt1 opt2 : UInt8)
include he

theorem sendOpt_eq_none_iff :
    (s.sendOpt e dst priority synt service flag opt1 opt2).1 = none ↔
      Reached e s dst (s.world.calls + 1) := by
  have hfit : (toServiceBuf (optPkt e s dst priority synt service flag opt1 opt2)).length ≤ 65507 := by
    simp [toServiceBuf, bufExt, optPkt]
  unfold sendOpt
  by_cases hreach : Reached e s dst (s.world.calls + 1)
  · have hreach' : Reached e s.numbered dst s.numbered.world.calls := hreach
    obtain ⟨addr, w, ht, _⟩ := transmit_of_reached he hreach' hfit
    rw [ht]
    exact ⟨fun _ => hreach, fun _ => rfl⟩
  · have hreach' : ¬ Reached e s.numbered dst s.numbered.world.calls := hreach
    obtain ⟨err, w, ht, _⟩ := transmit_of_not_reached he hreach'
      (toServiceBuf (optPkt e s dst priority synt service flag opt1 opt2))
    rw [ht]
    exact ⟨fun h => absurd h (Option.some_ne_none err), fun h => absurd h hreach⟩

end Opt

/-- A call of `Subscribe` that returns an error leaves the subscribers as they were. -/
def FailsCleanly (e : Env) (s : Server) (id : UInt16) (dst : UInt8) (synt : UInt32)
    (rate : UInt16) : Prop :=
  ∀ err, (s.subscribe e id dst synt rate).1 = .returned (some err) →
    (s.subscribe e id dst synt rate).2.subscriberRegister = s.subscriberRegister

theorem addClient_ne (register : UInt16 → List UInt8) (id : UInt16) (dst : UInt8) :
    addClient register id dst ≠ register := by
  intro heq
  have hlen := congrArg List.length (congrFun heq id)
  rw [addClient_apply, if_pos rfl, List.length_append, List.length_singleton] at hlen
  omega

/-- The register is left alone exactly when the client was registered before or its
acknowledgement goes out. -/
theorem failsCleanly_iff {e : Env} (he : e.IgnoresBytes) (s : Server) (id : UInt16) (dst : UInt8)
    (synt : UInt32) (rate : UInt16) : FailsCleanly e s id dst synt rate ↔
      dst ∈ s.subscriberRegister id ∨ Reached e s dst (s.world.calls + 1) := by
  have hreg := subscriberRegister_subscribe e id dst synt rate s
  by_cases hfound : dst ∈ s.subscriberRegister id
  · rw [isSubscriberRegistered, (Utils.uint8Contains_iff _ _).mpr hfound] at hreg
    exact ⟨fun _ => .inl hfound, fun _ _ _ => hreg⟩
  · have hnot : s.isSubscriberRegistered id dst = false := by
      rw [← Bool.not_eq_true]
      exact fun h => hfound ((Utils.uint8Contains_iff _ _).mp h)
    rw [hnot] at hreg
    have houtcome : (s.subscribe e id dst synt rate).1 = .returned
        (sendOpt e dst Utils.priorityHight synt Utils.serResponse Utils.flagSingle Utils.reserved
          Utils.reserved { s with
            subscriberRegister := addClient s.subscriberRegister id dst }).1 := by
      rw [subscribe, hnot]
      rfl
    have hack : (sendOpt e dst Utils.priorityHight synt Utils.serResponse Utils.flagSingle
        Utils.reserved Utils.reserved { s with
          subscriberRegister := addClient s.subscriberRegister id dst }).1 = none ↔
        Reached e s dst (s.world.calls + 1) := sendOpt_eq_none_iff he _ _ _ _ _ _
    rw [or_iff_right hfound, ← hack]
    constructor
    · intro hclean
      by_contra herr
      obtain ⟨err, herr⟩ := Option.ne_none_iff_exists'.mp herr
      rw [herr] at houtcome
      exact addClient_ne _ _ _ (hreg.symm.trans (hclean err houtcome))
    · intro hnil err herr
      rw [houtcome, hnil] at herr
      cases herr

/-! ### Runs -/

/-- Clients that are registered have an address. -/
def Addressed (s : Server) : Prop :=
  ∀ id, ∀ dst ∈ s.subscriberRegister id, ∃ addr, s.allClientAddr dst = some addr

/-- A call of `Subscribe` that did not find its client reaches it with the acknowledgement. -/
def System.Acknowledges (e : Env) (S : System) : Action → Prop
  | .finish t => ∀ id dst synt rate,
    (S.threads t).tested = some (.subscribe id dst synt rate, false) →
      Reached e S.server dst (S.server.world.calls + 1)
  | _ => True

/-- A run in which every such call does. -/
def System.Acknowledged (g : Slice.Growth) (e : Env) : List Action → System → Prop
  | [], _ => True
  | a :: as, S => S.Acknowledges e a ∧ ∀ T, S.step? g e a = some T → T.Acknowledged g e as

section Addresses
variable {g : Slice.Growth} {e : Env}

theorem addrs_publishFrom (found : Bool) (id : UInt16) (dst rows cols : UInt8)
    (synt physicalTime : UInt32) (rawData : Slice Float64) (s : Server) :
    (publishFrom found e id dst rows cols synt physicalTime rawData s).2.allClientAddr =
      s.allClientAddr := by
  unfold publishFrom
  split_ifs
  · dsimp only
    split_ifs
    · exact (sendOpt_sends (P := fun _ => True) _ synt _ _ _ fun _ _ _ _ => trivial).addrs
    · obtain ⟨handler, hrows⟩ := publishRows_besides id synt physicalTime rawData cols.toNat
        (List.range rows.toNat) (s.queryLastSynt e id).2
      rw [hrows]
      rfl
  · exact (sendOpt_sends (P := fun _ => True) _ synt _ _ _ fun _ _ _ _ => trivial).addrs

theorem addrs_subscribeFrom (found : Bool) (id : UInt16) (dst : UInt8) (synt : UInt32)
    (s : Server) : (subscribeFrom found e id dst synt s).2.allClientAddr = s.allClientAddr := by
  have hack : ∀ t : Server, (t.subscribeAck e dst synt).2.allClientAddr = t.allClientAddr :=
    fun t => (subscribeAck_sends (P := fun _ => True) synt fun _ _ _ _ => trivial).addrs
  unfold subscribeFrom
  split_ifs
  · dsimp only
    split_ifs
    · split
      · rfl
      · rename_i rows t hhist
        obtain ⟨calls, rfl⟩ := history?_besides hhist
        rw [hack]
        exact (sendPkt_sends (P := fun _ => True) _ _ _ _ fun _ _ _ _ => trivial).addrs
    · rw [hack]
      rfl
  · rw [hack]

theorem Call.addrs_finish (found : Bool) (c : Call) (s : Server) :
    (c.finish found e s).2.allClientAddr = s.allClientAddr := by
  cases c with
  | subscribe => exact addrs_subscribeFrom ..
  | publish => exact addrs_publishFrom ..

/-- What a step does to the subscribers: it leaves them, or appends the client of a call of
`Subscribe` that did not find it. No step changes an address. -/
theorem System.step?_subscribers {a : Action} {S T : System} (h : S.step? g e a = some T) :
    T.server.allClientAddr = S.server.allClientAddr ∧
      (T.server.subscriberRegister = S.server.subscriberRegister ∨
        ∃ t id dst synt rate, a = .finish t ∧
          (S.threads t).tested = some (.subscribe id dst synt rate, false) ∧
          T.server.subscriberRegister = addClient S.server.subscriberRegister id dst) := by
  cases a with
  | start t p i =>
    simp only [step?] at h
    split at h
    · cases h
      exact ⟨rfl, .inl rfl⟩
    · cases h
  | test t =>
    simp only [step?] at h
    split at h
    · cases h
      exact ⟨rfl, .inl rfl⟩
    · cases h
  | finish t =>
    simp only [step?] at h
    split at h
    · rename_i c found rest hth
      cases h
      refine ⟨c.addrs_finish found S.server, ?_⟩
      cases c with
      | subscribe id dst synt rate =>
        have hreg := congrArg Prod.snd (registers_subscribeFrom found e id dst synt S.server)
        cases found with
        | true => exact .inl hreg
        | false => exact .inr ⟨t, id, dst, synt, rate, rfl, by rw [hth], hreg⟩
      | publish id dst rows cols synt physicalTime rawData =>
        exact .inl (congrArg Prod.snd
          (registers_publishFrom found e id dst rows cols synt physicalTime rawData S.server))
    · cases h
  | handle p =>
    simp only [step?] at h
    split_ifs at h with hservice
    cases h
    refine ⟨?_, .inl (congrArg Prod.snd (registers_handlePkt g e S.server hservice))⟩
    exact (handlePkt_sends (P := fun _ => True) fun _ _ _ _ _ => trivial).addrs
  | run r =>
    simp only [step?] at h
    split at h
    · cases h
    · rename_i hr
      cases h
      refine ⟨?_, .inl (congrArg Prod.snd (registers_run e S.server hr))⟩
      exact (run_sends (P := fun _ => True) fun _ _ _ _ _ _ => trivial).addrs

theorem System.step?_addressed {a : Action} {S T : System} (h : S.step? g e a = some T)
    (ha : S.Acknowledges e a) (hS : S.server.Addressed) : T.server.Addressed := by
  obtain ⟨haddrs, hsame | ⟨t, id, dst, synt, rate, rfl, htested, hreg⟩⟩ := step?_subscribers h
  · intro i c hc
    rw [haddrs]
    exact hS i c (hsame ▸ hc)
  · obtain ⟨addr, haddr, _⟩ := ha id dst synt rate htested
    intro i c hc
    rw [hreg, addClient_apply] at hc
    rw [haddrs]
    split_ifs at hc with hi
    · rcases List.mem_append.mp hc with hc | hc
      · exact hS id c hc
      · rw [List.mem_singleton.mp hc]
        exact ⟨addr, haddr⟩
    · exact hS i c hc

theorem System.run?_addressed {as : List Action} {S T : System} (h : S.run? g e as = some T)
    (hack : S.Acknowledged g e as) (hS : S.server.Addressed) : T.server.Addressed := by
  induction as generalizing S with
  | nil =>
    cases h
    exact hS
  | cons a as ih =>
    obtain ⟨U, hU, hrest⟩ := Option.bind_eq_some_iff.mp h
    exact ih hrest (hack.2 U hU) (step?_addressed hU hack.1 hS)

end Addresses

/-- A call that fails leaves the subscribers alone exactly when its client was registered or its
acknowledgement goes out. In every run whose calls register only clients that they reach, every
subscriber has an address. -/
theorem subscribe_failsCleanly (e : Env) (he : e.IgnoresBytes) :
    (∀ s id dst synt rate, FailsCleanly e s id dst synt rate ↔
      dst ∈ s.subscriberRegister id ∨ Reached e s dst (s.world.calls + 1)) ∧
    ∀ (g : Slice.Growth) (s : Server) (as : List Action) (S : System), s.NoSubscribers →
      (System.init s).run? g e as = some S → (System.init s).Acknowledged g e as →
        S.server.Addressed := by
  refine ⟨failsCleanly_iff he, fun g s as S hs hrun hack => ?_⟩
  refine System.run?_addressed hrun hack fun id dst hdst => ?_
  change dst ∈ s.subscriberRegister id at hdst
  rw [hs id] at hdst
  cases hdst

def strangerPacket : ServicePacket (Slice UInt8) := { subscribePacket with src := 200 }

/-- Client 200 is told of an error and registered. -/
theorem stranger_registered : ¬ FailsCleanly .reliable afterInit 3 200 500 1 ∧
    ∃ S, (System.init afterInit).run? .tight .reliable
        [.start 0 strangerPacket 0, .test 0, .finish 0] = some S ∧ ¬ S.server.Addressed := by
  refine ⟨?_, _, rfl, ?_⟩
  · intro hclean
    have hreg := congrFun (hclean "dial udp: missing address" (by decide +kernel)) 3
    exact absurd hreg (by decide +kernel)
  · intro haddressed
    obtain ⟨addr, haddr⟩ := haddressed 3 200 (by decide +kernel)
    have hnone : afterInit.allClientAddr 200 = none := by decide
    cases hnone.symm.trans haddr

theorem subscribePacket_acknowledged : (System.init afterInit).Acknowledged .tight .reliable
    [.start 0 subscribePacket 0, .test 0, .finish 0] := by
  refine ⟨trivial, fun S hS => ⟨trivial, fun T hT => ⟨?_, fun _ _ => trivial⟩⟩⟩
  cases hS
  cases hT
  intro id dst synt rate htested
  cases htested
  exact ⟨⟨0x7f000001, 20001⟩, by decide, rfl, rfl⟩

theorem subscribePacket_failsCleanly :
    (FailsCleanly .reliable afterInit 3 2 500 1 ↔
      2 ∈ afterInit.subscriberRegister 3 ∨ Reached .reliable afterInit 2 (afterInit.world.calls + 1)) ∧
    ∃ S, (System.init afterInit).run? .tight .reliable
        [.start 0 subscribePacket 0, .test 0, .finish 0] = some S ∧ S.server.Addressed := by
  obtain ⟨hcall, hruns⟩ := subscribe_failsCleanly .reliable Env.reliable_ignoresBytes
  obtain ⟨S, hrun⟩ : ∃ S, (System.init afterInit).run? .tight .reliable
      [.start 0 subscribePacket 0, .test 0, .finish 0] = some S := ⟨_, rfl⟩
  exact ⟨hcall afterInit 3 2 500 1, S, hrun,
    hruns .tight afterInit _ S (fun _ => rfl) hrun subscribePacket_acknowledged⟩

end DRDS.Server
