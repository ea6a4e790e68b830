import DRDS.Concurrency.Channel
import DRDS.Web.Subscribe

/-! The websocket clients of the web server. Each has its own `Subscribe` goroutines, and all
share the channel `bufferOutput`. -/
namespace DRDS
open Concurrency

/-- How far a call of `RealtimeProcess` is: its connection is there, `ReadMessage` has reported
that the client has gone, the call has returned. -/
inductive Connection where
  | absent
  | connected
  | gone
  | closed
  deriving DecidableEq

/-- The web server. The values in `bufferOutput` are marked with the client whose goroutine put
them there; the code's are not. -/
structure WebServer where
  world : World
  bufferOutput : Channel ℕ VisualData
  connection : ℕ → Connection
  subscribes : ℕ → List Subscribe

inductive WebServer.Event where
  | connect (c : ℕ)
  /-- A step of one of the goroutines of a client. -/
  | subscribe (c i : ℕ)
  /-- A client's sending loop takes a value and writes it, with the result of `WriteJSON`. -/
  | write (c : ℕ) (err : Option String)
  | readError (c : ℕ)
  /-- A client's sending loop takes the close signal. -/
  | close (c : ℕ)
  | insert (id : UInt16) (columns : ℕ) (rows : List Row)
  | call

namespace WebServer

def init (w : World) : WebServer := ⟨w, .empty, fun _ => .absent, fun _ => []⟩

def Receives (S : WebServer) (c : ℕ) : Prop := S.connection c = .connected ∨ S.connection c = .gone

instance (S : WebServer) (c : ℕ) : Decidable (S.Receives c) :=
  inferInstanceAs (Decidable (_ ∨ _))

def setSubscribe (S : WebServer) (c i : ℕ) (s : Subscribe) : WebServer :=
  { S with subscribes := Function.update S.subscribes c ((S.subscribes c).set i s) }

/-- A step of a goroutine, which waits while the channel is full. -/
def subscribe (e : Env) (h : Handler) (S : WebServer) (c i : ℕ) : WebServer :=
  match (S.subscribes c)[i]? with
  | none => S
  | some s =>
    match s.step? e h (S.connection c = .closed) S.world with
    | none => S
    | some (none, s, world) => { S.setSubscribe c i s with world }
    | some (some item, s, world) =>
      if S.bufferOutput.buffer.length < Utils.outputBufferLen then
        { S.setSubscribe c i s with world, bufferOutput := S.bufferOutput.push c item }
      else S

def next (e : Env) (h : Handler) (S : WebServer) : Event → WebServer
  | .connect c =>
    if S.connection c = .absent then
      { S with
        connection := Function.update S.connection c .connected
        subscribes := Function.update S.subscribes c (h.recordTables.map Subscribe.start) }
    else S
  | .subscribe c i => S.subscribe e h c i
  | .write c err =>
    -- the value is lost when it cannot be written
    if S.Receives c then { S with bufferOutput := S.bufferOutput.take c err.isNone } else S
  | .readError c =>
    if S.connection c = .connected then
      { S with connection := Function.update S.connection c .gone }
    else S
  | .close c =>
    if S.connection c = .gone then
      { S with connection := Function.update S.connection c .closed }
    else S
  | .insert id columns rows => { S with world := (S.world.insert e id columns rows).2 }
  | .call => { S with world := S.world.tick }

def run (e : Env) (h : Handler) (S : WebServer) (es : List Event) : WebServer :=
  es.foldl (next e h) S

/-- A connected client has been written what its own goroutines put into the channel, each value
once and nothing else, as far as it is not still in the channel. -/
def Serves (S : WebServer) : Prop := ∀ c, S.connection c = .connected → S.bufferOutput.Serves c

/-- A client connects to an empty channel, a goroutine puts a value into the channel while no
sending loop but its own client's runs, and writes to a connected client succeed. -/
def Alone (S : WebServer) : Event → Prop
  | .connect c => S.connection c = .absent → S.bufferOutput.buffer = []
  | .subscribe c i =>
    (∃ s item items, (S.subscribes c)[i]? = some s ∧ s.stage = .write (item :: items)) →
      ∀ c', S.Receives c' → c' = c
  | .write c err => S.connection c = .connected → err = none
  | _ => True

def RunAlone (e : Env) (h : Handler) : WebServer → List Event → Prop
  | _, [] => True
  | S, ev :: es => S.Alone ev ∧ RunAlone e h (next e h S ev) es

/-! ### One step -/

/-- The channel holds values of a client alone while its sending loop runs. -/
structure Inv (S : WebServer) : Prop where
  fresh : ∀ c, S.connection c = .absent →
    S.subscribes c = [] ∧ S.bufferOutput.put c = [] ∧ S.bufferOutput.got c = []
  holds : ∀ c, S.Receives c → S.bufferOutput.HoldsOnly c
  serves : S.Serves

variable {e : Env} {h : Handler} {S : WebServer}

theorem init_inv (w : World) : (init w).Inv where
  fresh _ _ := ⟨rfl, rfl, rfl⟩
  holds _ hc := by rcases hc with hc | hc <;> cases hc
  serves _ hc := by cases hc

theorem inv_connect {c : ℕ} (hS : S.Inv) (ha : S.Alone (.connect c)) :
    (next e h S (.connect c)).Inv := by
  by_cases habsent : S.connection c = .absent
  · have hbuffer := ha habsent
    obtain ⟨_, hput, hgot⟩ := hS.fresh c habsent
    rw [next, if_pos habsent]
    refine ⟨?_, ?_, ?_⟩
    · intro c' hc'
      have hne : c' ≠ c := by
        rintro rfl
        simp at hc'
      simp only [Function.update_of_ne hne] at hc' ⊢
      exact hS.fresh c' hc'
    · intro c' _
      exact Channel.holdsOnly_of_nil hbuffer
    · intro c' hc'
      by_cases hne : c' = c
      · rw [hne]
        exact Channel.serves_of_unused hput hgot hbuffer
      · exact hS.serves c' (by simpa [Function.update_of_ne hne] using hc')
  · rwa [next, if_neg habsent]

/-- A step of a goroutine changes nothing, or changes the goroutine and the outside, and may put
a value that a poll has read into the channel. -/
theorem subscribe_cases (e : Env) (h : Handler) (S : WebServer) (c i : ℕ) :
    S.subscribe e h c i = S ∨ ∃ s s' world, (S.subscribes c)[i]? = some s ∧
      (S.subscribe e h c i = { S.setSubscribe c i s' with world } ∨
        ∃ item items, s.stage = .write (item :: items) ∧ S.subscribe e h c i =
          { S.setSubscribe c i s' with
            world, bufferOutput := S.bufferOutput.push c item }) := by
  unfold subscribe
  rcases hs : (S.subscribes c)[i]? with _ | s
  · exact .inl rfl
  · rcases hstep : s.step? e h (S.connection c = .closed) S.world with _ | ⟨_ | item, s', world⟩
    · left
      simp only [hstep]
    · right
      refine ⟨s, s', world, rfl, .inl ?_⟩
      simp only [hstep]
    · simp only [hstep]
      split_ifs
      · obtain ⟨items, hstage⟩ := Subscribe.stage_of_step? hstep
        exact .inr ⟨s, s', world, rfl, .inr ⟨item, items, hstage, rfl⟩⟩
      · exact .inl rfl

theorem inv_subscribe {c i : ℕ} (hS : S.Inv) (ha : S.Alone (.subscribe c i)) :
    (S.subscribe e h c i).Inv := by
  rcases subscribe_cases e h S c i with hsame | ⟨s, s', world, hs, hnext⟩
  · rwa [hsame]
  · -- the client of a goroutine has connected
    have hfresh : ∀ c', S.connection c' = .absent → c' ≠ c ∧
        (S.setSubscribe c i s').subscribes c' = [] := by
      intro c' hc'
      have hne : c' ≠ c := by
        rintro rfl
        rw [(hS.fresh c' hc').1] at hs
        cases hs
      exact ⟨hne, (Function.update_of_ne hne ..).trans (hS.fresh c' hc').1⟩
    rcases hnext with hnext | ⟨item, items, hstage, hnext⟩
    · rw [hnext]
      exact ⟨fun c' hc' => ⟨(hfresh c' hc').2, (hS.fresh c' hc').2⟩, hS.holds, hS.serves⟩
    · rw [hnext]
      refine ⟨fun c' hc' => ⟨(hfresh c' hc').2, ?_, (hS.fresh c' hc').2.2⟩, ?_, ?_⟩
      · exact (Function.update_of_ne (hfresh c' hc').1 ..).trans (hS.fresh c' hc').2.1
      · intro c' hc'
        rw [ha ⟨s, item, items, hs, hstage⟩ c' hc']
        apply Channel.HoldsOnly.push
        rw [← ha ⟨s, item, items, hs, hstage⟩ c' hc']
        exact hS.holds c' hc'
      · intro c' hc'
        exact (hS.serves c' hc').push c item

theorem inv_write {c : ℕ} {err : Option String} (hS : S.Inv) (ha : S.Alone (.write c err)) :
    (next e h S (.write c err)).Inv := by
  by_cases hc : S.Receives c
  · rw [next, if_pos hc]
    refine ⟨?_, ?_, ?_⟩
    · intro c' hc'
      obtain ⟨hsubscribes, hput, hgot⟩ := hS.fresh c' hc'
      have hne : c' ≠ c := by
        rintro rfl
        rcases hc with hc | hc <;> exact absurd (hc'.symm.trans hc) (by decide)
      exact ⟨hsubscribes, (congrFun (Channel.put_take ..) c').trans hput,
        (Channel.got_take hne ..).trans hgot⟩
    · intro c' hc'
      exact (hS.holds c' hc').take
    · intro c' hc'
      apply (hS.serves c' hc').take (hS.holds c hc)
      rintro rfl
      rw [ha hc']
      rfl
  · rwa [next, if_neg hc]

theorem inv_leave {c : ℕ} {later : Connection} (hS : S.Inv)
    (hlater : later = .gone ∧ S.connection c = .connected ∨ later = .closed) :
    ({ S with connection := Function.update S.connection c later } : WebServer).Inv := by
  have hother : ∀ c' k, k = .absent ∨ k = .connected →
      Function.update S.connection c later c' = k → S.connection c' = k := by
    intro c' k hk hc'
    rw [Function.update_apply] at hc'
    split_ifs at hc'
    · rcases hlater with ⟨rfl, _⟩ | rfl <;> rcases hk with rfl | rfl <;> cases hc'
    · exact hc'
  refine ⟨fun c' hc' => hS.fresh c' (hother c' _ (.inl rfl) hc'), ?_,
    fun c' hc' => hS.serves c' (hother c' _ (.inr rfl) hc')⟩
  intro c' hc'
  apply hS.holds c'
  rcases hc' with hc' | hc'
  · exact .inl (hother c' _ (.inr rfl) hc')
  · change Function.update S.connection c later c' = .gone at hc'
    rw [Function.update_apply] at hc'
    split_ifs at hc' with heq
    · rcases hlater with ⟨_, hconn⟩ | rfl
      · exact .inl (heq ▸ hconn)
      · cases hc'
    · exact .inr hc'

theorem inv_next {ev : Event} (hS : S.Inv) (ha : S.Alone ev) : (next e h S ev).Inv := by
  cases ev with
  | connect c => exact inv_connect hS ha
  | subscribe c i => exact inv_subscribe hS ha
  | write c err => exact inv_write hS ha
  | readError c =>
    rw [next]
    split_ifs with hc
    · exact inv_leave hS (.inl ⟨rfl, hc⟩)
    · exact hS
  | close c =>
    rw [next]
    split_ifs with hc
    · exact inv_leave hS (.inr rfl)
    · exact hS
  | insert id columns rows => exact ⟨hS.fresh, hS.holds, hS.serves⟩
  | call => exact ⟨hS.fresh, hS.holds, hS.serves⟩

/-! ### Whole runs -/

theorem inv_run {es : List Event} (hS : S.Inv) (hes : RunAlone e h S es) :
    (run e h S es).Inv := by
  induction es generalizing S with
  | nil => exact hS
  | cons ev es ih => exact ih (inv_next hS hes.1) hes.2

theorem serves_of_runAlone (e : Env) (h : Handler) (w : World) (es : List Event)
    (hes : RunAlone e h (init w) es) : (run e h (init w) es).Serves :=
  (inv_run (init_inv w) hes).serves

/-! ### One client and two -/

/-- A client connects, its goroutine reads one record, and the value is written. -/
def oneClient : List Event :=
  [.connect 0, .subscribe 0 0, .insert 3 1 [⟨7, 0, 100, [7]⟩], .insert 3 1 [⟨10, 0, 100, [7]⟩],
    .subscribe 0 0, .subscribe 0 0, .subscribe 0 0, .subscribe 0 0, .write 0 none]

def inSuccession : List Event :=
  oneClient ++ [.readError 0, .close 0, .connect 1, .subscribe 1 0, .insert 3 1 [⟨13, 0, 100, [8]⟩],
    .insert 3 1 [⟨16, 0, 100, [8]⟩], .subscribe 1 0, .subscribe 1 0, .subscribe 1 0, .subscribe 1 0,
    .subscribe 1 0, .write 1 none, .write 1 none]

theorem inSuccession_alone : RunAlone .reliable Server.afterInit.handler (init Server.afterInit.world)
    inSuccession := by
  have hfirst : ∀ S : WebServer, S.connection = Function.update (fun _ => .absent) 0 .connected →
      ∀ c, S.Receives c → c = 0 := by
    intro S hS c hc
    by_contra hne
    rw [Receives, hS, Function.update_of_ne hne] at hc
    rcases hc with hc | hc <;> cases hc
  have hsecond : ∀ S : WebServer, S.connection = Function.update (Function.update (Function.update
      (Function.update (fun _ => .absent) 0 .connected) 0 .gone) 0 .closed) 1 .connected →
      ∀ c, S.Receives c → c = 1 := by
    intro S hS c hc
    by_contra hne
    by_cases hzero : c = 0
    · subst hzero
      rw [Receives, hS] at hc
      rcases hc with hc | hc <;> cases hc
    · rw [Receives, hS, Function.update_of_ne hne, Function.update_of_ne hzero,
        Function.update_of_ne hzero, Function.update_of_ne hzero] at hc
      rcases hc with hc | hc <;> cases hc
  exact ⟨fun _ => rfl, fun _ => hfirst _ rfl, trivial, trivial, fun _ => hfirst _ rfl,
    fun _ => hfirst _ rfl, fun _ => hfirst _ rfl, fun _ => hfirst _ rfl, fun _ => rfl, trivial, trivial,
    fun _ => rfl, fun _ => hsecond _ rfl, trivial, trivial, fun _ => hsecond _ rfl,
    fun _ => hsecond _ rfl, fun _ => hsecond _ rfl, fun _ => hsecond _ rfl, fun _ => hsecond _ rfl,
    fun _ => rfl, fun _ => rfl, trivial⟩

/-- Each is written the values of its own goroutine. -/
theorem inSuccession_serves : ∃ S,
    run .reliable Server.afterInit.handler (init Server.afterInit.world) inSuccession = S ∧
    (S.bufferOutput.got 0).map (fun x => (x.1, x.2.value)) = [(0, 7)] ∧
    (S.bufferOutput.got 1).map (fun x => (x.1, x.2.value)) = [(1, 7), (1, 8)] ∧ S.Serves :=
  ⟨_, rfl, by decide +kernel, by decide +kernel, serves_of_runAlone .reliable Server.afterInit.handler
    Server.afterInit.world inSuccession inSuccession_alone⟩

/-- Two clients are connected when a goroutine of the first reads a record. -/
def twoClients : List Event :=
  .connect 1 :: oneClient.dropLast ++ [.write 1 none]

/-- The second client takes the value. -/
theorem twoClients_mix :
    ¬ (run .reliable Server.afterInit.handler (init Server.afterInit.world) twoClients).Serves := by
  intro hserves
  have hfirst := hserves 0 (by decide)
  exact absurd hfirst (by decide)

end WebServer
end DRDS
