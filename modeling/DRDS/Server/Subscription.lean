import DRDS.Server.FanOut
import Mathlib.Data.List.TakeWhile

/-! What a subscription leads to from the packet that makes it to the end of the run. -/
namespace DRDS.Server
open Go Wire

/-! ### Forwards to one client -/

/-- The matrix that a routine sends to a client as data of an id. -/
def Routine.dataFor? (c : UInt8) (d : UInt16) : Routine → Option (List (List Float64))
  | .sendPkt dst _ _ _ dataID dataMap => if dst = c ∧ dataID = d then some dataMap else none
  | _ => none

def dataFor (c : UInt8) (d : UInt16) (rs : List Routine) : List (List (List Float64)) :=
  rs.filterMap (Routine.dataFor? c d)

theorem dataFor_map_sendPkt (c : UInt8) (d : UInt16) (priority : UInt8) (synt : UInt32)
    (flag : UInt8) (id : UInt16) (mat : List (List Float64)) (clients : List UInt8) :
    dataFor c d (clients.map fun dst => .sendPkt dst priority synt flag id mat) =
      if id = d then .replicate (clients.count c) mat else [] := by
  induction clients with
  | nil => simp [dataFor]
  | cons dst clients ih =>
    unfold dataFor at ih ⊢
    rw [List.map_cons, List.filterMap_cons, ih, List.count_cons]
    by_cases hid : id = d <;> by_cases hdst : dst = c <;>
      simp [Routine.dataFor?, hid, hdst, List.replicate_succ]

section Rounds
variable {g : Slice.Growth} {s : Server} {p : ServicePacket (Slice UInt8)} {c : UInt8} {d : UInt16}

/-- The rows of a subframe, of the data that the round decodes. -/
def RowsOf (rawData : SubPacket (Slice UInt8) → Option (Slice Float64))
    (f : SubPacket (Slice UInt8)) (mat : List (List Float64)) : Prop :=
  ∃ raw, rawData f = some raw ∧ rowsOf? raw f.row f.col = some mat

theorem dataFor_forward? (hc : c ∈ s.subscriberRegister d) (hn : (s.subscriberRegister d).Nodup)
    (rawData : SubPacket (Slice UInt8) → Option (Slice Float64)) {f : SubPacket (Slice UInt8)}
    {raw : Slice Float64} {rs : List Routine} (hraw : rawData f = some raw)
    (h : s.forward? p f raw = some rs) :
    List.Forall₂ (RowsOf rawData) (if f.dataID = d then [f] else []) (dataFor c d rs) := by
  cases hrows : rowsOf? raw f.row f.col with
  | some mat =>
    have hall : s.forward? p f raw = some ((s.subscriberRegister f.dataID).map fun dst =>
        .sendPkt dst p.priority p.simulinkTime p.flag f.dataID mat) := by
      rw [forward?, hrows]
      exact List.mapM_pure
    cases h.symm.trans hall
    rw [dataFor_map_sendPkt]
    split_ifs with hd
    · rw [hd, List.count_eq_one_of_mem hn hc]
      exact .cons ⟨raw, hraw, hrows⟩ .nil
    · exact .nil
  | none =>
    have hnone : s.subscriberRegister f.dataID = [] := by
      have hsome : (s.forward? p f raw).isSome := by
        rw [h]
        rfl
      rw [forward?_isSome, ← rowsOf?_isSome, hrows] at hsome
      simpa using hsome
    rw [forward?, hnone] at h
    cases h
    split_ifs with hd
    · rw [← hd, hnone] at hc
      cases hc
    · exact .nil

/-- How a round of either forwarding loop ends: in a panic, at a subframe where the loop stops,
or with the rows of its subframe forwarded. -/
inductive RoundEnds (c : UInt8) (d : UInt16) (stops : SubPacket (Slice UInt8) → Bool)
    (rawData : SubPacket (Slice UInt8) → Option (Slice Float64)) (f : SubPacket (Slice UInt8)) :
    Round → Prop
  | panics (rs : List Routine) : RoundEnds c d stops rawData f (rs, some .panicked)
  | stops {rs : List Routine} {o : Outcome} (hstop : stops f = true) (hrs : dataFor c d rs = []) :
      RoundEnds c d stops rawData f (rs, some o)
  | forwards {rs : List Routine} (hstop : stops f = false)
      (hrs : List.Forall₂ (RowsOf rawData) (if f.dataID = d then [f] else []) (dataFor c d rs)) :
      RoundEnds c d stops rawData f (rs, none)

theorem rangeLoop_forwards {stops : SubPacket (Slice UInt8) → Bool}
    {rawData : SubPacket (Slice UInt8) → Option (Slice Float64)}
    {body : SubPacket (Slice UInt8) → Round}
    (hbody : ∀ f, RoundEnds c d stops rawData f (body f)) (fs : List (SubPacket (Slice UInt8)))
    (hout : (rangeLoop (.returned none) body fs).2 ≠ .panicked) :
    List.Forall₂ (RowsOf rawData) ((fs.takeWhile fun f => !stops f).filter fun f => f.dataID = d)
      (dataFor c d (rangeLoop (.returned none) body fs).1) := by
  induction fs with
  | nil => exact .nil
  | cons f fs ih =>
    have hf := hbody f
    unfold rangeLoop at hout ⊢
    rcases hround : body f with ⟨rs, _ | o⟩
    · rw [hround] at hout hf
      cases hf with
      | forwards hstop hrs =>
        have hrest := ih hout
        rw [List.takeWhile_cons, hstop]
        simp only [Bool.not_false, if_true]
        unfold dataFor at hrs ⊢
        rw [List.filterMap_append]
        have hsplit : (f :: fs.takeWhile fun f => !stops f).filter (fun f => decide (f.dataID = d)) =
            (if f.dataID = d then [f] else []) ++
              (fs.takeWhile fun f => !stops f).filter fun f => decide (f.dataID = d) := by
          by_cases hd : f.dataID = d <;> simp [hd]
        rw [hsplit]
        exact List.rel_append hrs hrest
    · rw [hround] at hout hf
      cases hf with
      | panics => exact absurd rfl hout
      | stops hstop hrs =>
        rw [List.takeWhile_cons, hstop]
        change List.Forall₂ _ [] (dataFor c d rs)
        rw [hrs]
        exact .nil

theorem sendRound_ends (hc : c ∈ s.subscriberRegister d) (hn : (s.subscriberRegister d).Nodup)
    (f : SubPacket (Slice UInt8)) :
    RoundEnds c d (fun _ => false) (fun f => payloadBuf2Float? g f.payload) f
      (sendRound g s p f) := by
  unfold sendRound
  split
  · exact .panics _
  · rename_i raw hraw
    dsimp only
    split
    · exact .panics _
    · rename_i rs hrs
      have hforwards := dataFor_forward? hc hn (fun f => payloadBuf2Float? g f.payload) hraw hrs
      exact .forwards rfl hforwards

theorem publishRound_ends (hc : c ∈ s.subscriberRegister d) (hn : (s.subscriberRegister d).Nodup)
    (raw : Slice Float64) (f : SubPacket (Slice UInt8)) :
    RoundEnds c d (fun f => f.length = 0) (fun _ => some raw) f (publishRound s p raw f) := by
  unfold publishRound
  dsimp only
  split_ifs with hlength
  · exact .stops (decide_eq_true hlength) rfl
  · split
    · exact .panics _
    · rename_i rs hrs
      have hforwards := dataFor_forward? hc hn (fun _ => some raw) rfl hrs
      exact .forwards (decide_eq_false hlength) hforwards

/-! ### Runs -/

/-- A packet of either kind that is handled forwards to the client the rows of each subframe of
the id that its loop gets to, once. -/
def ForwardsTo (g : Slice.Growth) (e : Env) (s : Server) (p : ServicePacket (Slice UInt8))
    (c : UInt8) (d : UInt16) : Prop :=
  (p.service = Utils.serSend →
    List.Forall₂ (RowsOf fun f => payloadBuf2Float? g f.payload)
      (p.subpackets.filter fun f => f.dataID = d) (dataFor c d (handlePkt g e p s).spawned)) ∧
  (p.service = Utils.serPublish →
    List.Forall₂ (RowsOf fun _ => payloadBuf2Float? g p.payload)
      ((p.subpackets.takeWhile fun f => f.length ≠ 0).filter fun f => f.dataID = d)
      (dataFor c d (handlePkt g e p s).spawned))

theorem handlePkt_forwardsTo (e : Env) (hc : c ∈ s.subscriberRegister d)
    (hn : (s.subscriberRegister d).Nodup) (hout : (handlePkt g e p s).outcome ≠ .panicked) :
    ForwardsTo g e s p c d := by
  constructor
  · intro hsend
    rw [handlePkt_send hsend] at hout ⊢
    have hall := rangeLoop_forwards (sendRound_ends (g := g) (p := p) hc hn) p.subpackets hout
    simp only [Bool.not_false] at hall
    rwa [List.takeWhile_eq_self_iff.mpr fun _ _ => rfl] at hall
  · intro hpub
    cases hraw : payloadBuf2Float? g p.payload with
    | none => exact absurd (congrArg Handled.outcome (handlePkt_publish_of_none hpub hraw)) hout
    | some raw =>
      rw [handlePkt_publish hpub hraw] at hout ⊢
      have hall := rangeLoop_forwards (publishRound_ends (p := p) hc hn raw) p.subpackets hout
      simpa using hall

/-- A `Subscribe` call leaves its client registered, whatever its rate. -/
theorem mem_subscriberRegister_subscribe (e : Env) (id : UInt16) (dst : UInt8) (synt : UInt32)
    (rate : UInt16) (s : Server) :
    dst ∈ (s.subscribe e id dst synt rate).2.subscriberRegister id := by
  rw [subscriberRegister_subscribe]
  cases hfound : s.isSubscriberRegistered id dst with
  | true => exact (Utils.uint8Contains_iff _ _).mp hfound
  | false => simp [addClient_apply]

theorem callLoop_subscribes (e : Env) (p : ServicePacket (Slice UInt8))
    {fs : List (SubPacket (Slice UInt8))} {s : Server}
    (hout : (callLoop (subscribeCall e p) fs s).1 = .returned none) :
    ∀ f ∈ fs, p.src ∈ (callLoop (subscribeCall e p) fs s).2.subscriberRegister f.dataID := by
  induction fs generalizing s with
  | nil => simp
  | cons f fs ih =>
    have hmem : p.src ∈ (subscribeCall e p f s).2.subscriberRegister f.dataID :=
      mem_subscriberRegister_subscribe e f.dataID p.src p.simulinkTime f.timeDiff s
    rcases hcall : subscribeCall e p f s with ⟨o, t⟩
    by_cases ho : o = .returned none
    · subst ho
      rw [callLoop_cons_of_nil hcall] at hout ⊢
      rw [hcall] at hmem
      rw [List.forall_mem_cons]
      refine ⟨?_, ih hout⟩
      have hgrows : ∀ (f : SubPacket (Slice UInt8)) s, Grows s (subscribeCall e p f s).2 :=
        fun f s => subscribe_grows e f.dataID p.src p.simulinkTime f.timeDiff s
      exact (callLoop_grows hgrows fs t).stays _ hmem
    · have hne : (subscribeCall e p f s).1 ≠ .returned none := by
        rw [hcall]
        exact ho
      rw [callLoop_cons_of_ne hne] at hout
      exact absurd hout hne

theorem handlePkt_subscribes (e : Env) (hsub : p.service = Utils.serSubscribe)
    (hout : (handlePkt g e p s).outcome = .returned none) :
    ∀ f ∈ p.subpackets, p.src ∈ (handlePkt g e p s).server.subscriberRegister f.dataID := by
  rw [handlePkt_subscribe hsub] at hout ⊢
  exact callLoop_subscribes e p hout

end Rounds

/-- A client that has subscribed is sent the id to the end of the run, whatever packets are
handled: a `SER_SUBSCRIBE` packet registers, with offset 0 as with any other, and none ends a
subscription. -/
theorem subscription_lasts (g : Slice.Growth) (e : Env) (s₀ s t : Server) (c : UInt8) (d : UInt16)
    (hs₀ : s₀.NoSubscribers) (hs : Reaches g e s₀ s)
    (p : ServicePacket (Slice UInt8)) (hsub : p.service = Utils.serSubscribe) (hsrc : p.src = c)
    (hd : ∃ f ∈ p.subpackets, f.dataID = d) (hout : (handlePkt g e p s).outcome = .returned none)
    (ht : Reaches g e (handlePkt g e p s).server t) :
    c ∈ t.subscriberRegister d ∧
      (∀ synt rate, t.subscribe e d c synt rate = t.subscribe e d c synt 0) ∧
      ∀ q, (handlePkt g e q t).outcome ≠ .panicked → ForwardsTo g e t q c d := by
  obtain ⟨f, hf, rfl⟩ := hd
  have hregistered : c ∈ (handlePkt g e p s).server.subscriberRegister f.dataID :=
    hsrc ▸ handlePkt_subscribes e hsub hout f hf
  have hstays := ht.grows.stays f.dataID hregistered
  have hreach : Reaches g e s₀ t := (hs.tail (.packet p)).trans ht
  exact ⟨hstays, fun _ _ => rfl, fun q hq =>
    handlePkt_forwardsTo e hstays (hreach.nodup hs₀ f.dataID) hq⟩

/-- The end of a subscription, as the README has it. -/
def endPacket : ServicePacket (Slice UInt8) :=
  clientPacket Utils.serSubscribe [⟨3, 0, 0, 0, 0, .ofList []⟩] (.ofList [])

def unsubscribed : Server := (handlePkt .tight .reliable endPacket subscribed).server

/-- The next packet of data id 3 is forwarded to client 2 all the same. -/
theorem unsubscribed_forwards : ∃ p, fromServiceBuf? (listenBuf (wire valuePacket)) = some p ∧
    (handlePkt .tight .reliable endPacket subscribed).outcome = .returned none ∧
    dataFor 2 3 (handlePkt .tight .reliable p unsubscribed).spawned = [[[0x3ff0000000000000]]] ∧
    (((handlePkt .tight .reliable p unsubscribed).spawned.foldl (fun s r => (r.run .reliable s).2)
      unsubscribed).world.sent.drop unsubscribed.world.sent.length).map (fun d => (d.1, d.2[1]?)) =
        [(⟨0x7f000001, 20001⟩, some 2)] := by
  have hall : (fromServiceBuf? (listenBuf (wire valuePacket))).any (fun p =>
    (handlePkt .tight .reliable endPacket subscribed).outcome = .returned none ∧
    dataFor 2 3 (handlePkt .tight .reliable p unsubscribed).spawned = [[[0x3ff0000000000000]]] ∧
    (((handlePkt .tight .reliable p unsubscribed).spawned.foldl (fun s r => (r.run .reliable s).2)
      unsubscribed).world.sent.drop unsubscribed.world.sent.length).map (fun d => (d.1, d.2[1]?)) =
        [(⟨0x7f000001, 20001⟩, some 2)]) = true := by decide +kernel
  obtain ⟨p, hp, hq⟩ := Option.any_eq_true _ _ |>.mp hall
  exact ⟨p, hp, of_decide_eq_true hq⟩

/-- Client 2 subscribes, and sends what should end its subscription. -/
theorem subscription_lasts_unsubscribed :
    2 ∈ unsubscribed.subscriberRegister 3 ∧
      (∀ synt rate, unsubscribed.subscribe .reliable 3 2 synt rate =
        unsubscribed.subscribe .reliable 3 2 synt 0) ∧
      ∀ q, (handlePkt .tight .reliable q unsubscribed).outcome ≠ .panicked →
        ForwardsTo .tight .reliable unsubscribed q 2 3 :=
  subscription_lasts .tight .reliable afterInit afterInit unsubscribed 2 3 (fun _ => rfl) .refl
    (clientPacket Utils.serSubscribe [⟨3, 1, 0, 0, 0, .ofList []⟩] (.ofList [])) rfl rfl
    ⟨_, List.mem_singleton_self _, rfl⟩ (by decide +kernel) (.single (.packet endPacket))

end DRDS.Server
