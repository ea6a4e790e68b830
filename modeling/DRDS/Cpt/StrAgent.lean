import DRDS.Cpt.Agent
import Mathlib.Data.List.Flatten
import Mathlib.Data.List.TakeWhile

/-! The polling loop of both agents down to the bytes of the datagrams, and the switches of the structure
agent. A listener ends with the first datagram shorter than a double. -/
namespace DRDS.Cpt
open Go

/-- What `recvfrom(8)` and `struct.unpack` make of a datagram. A longer one is cut. -/
def receive? (data : List UInt8) : Option Float64 :=
  if 8 ≤ data.length then some (.ofNat (leNat (data.take 8))) else none

/-- The listeners that are still there, what they hold, the place of the loop, what it has told the
devices, and with what data it polled. -/
structure Poller (κ : Type) where
  alive : String → Bool
  buffer : String → List Float64
  phase : Phase
  written : List κ
  polls : List (String × List Float64)

inductive Poller.Action where
  | arrive (port : ℕ) (data : List UInt8)
  | loop

namespace Poller
variable {κ : Type}

def init : Poller κ := ⟨fun _ => true, fun _ => [], .sensors, [], []⟩

/-- `run` of the listener of the port, for one datagram. -/
def arrive (port : ℕ) (data : List UInt8) (P : Poller κ) : Poller κ :=
  { P with
    alive := fun dataName =>
      P.alive dataName && (localPorts.lookup dataName != some port || (receive? data).isSome)
    buffer := fun dataName =>
      if localPorts.lookup dataName = some port ∧ P.alive dataName then
        P.buffer dataName ++ (receive? data).toList
      else P.buffer dataName }

section Loop
variable (commands : String → List Float64 → List κ)

def loop (P : Poller κ) : Poller κ :=
  match P.phase with
  | .sensors => { P with phase := .next dataNames }
  | .check dataName rest =>
    if P.buffer dataName = [] then { P with phase := .command dataName [] rest }
    else { P with phase := .pop dataName rest }
  | .pop dataName rest =>
    { P with
      buffer := Function.update P.buffer dataName (P.buffer dataName).dropLast
      phase := .reset dataName (P.buffer dataName) rest }
  | .reset dataName pending rest =>
    { P with
      buffer := Function.update P.buffer dataName []
      phase := .command dataName pending rest }
  | .command dataName pending rest =>
    { P with
      written := P.written ++ commands dataName pending
      polls := P.polls ++ [(dataName, pending)]
      phase := .next rest }

def step (P : Poller κ) : Action → Poller κ
  | .arrive port data => P.arrive port data
  | .loop => P.loop commands

def run (acts : List Action) : Poller κ := acts.foldl (step commands) init

end Loop

/-! ### What becomes of the datagrams -/

def datagrams (port : ℕ) (acts : List Action) : List (List UInt8) :=
  acts.filterMap fun
    | .arrive port' data => if port' = port then some data else none
    | .loop => none

def received (port : ℕ) (acts : List Action) : List Float64 :=
  ((datagrams port acts).takeWhile fun data => (receive? data).isSome).filterMap receive?

def taken (name : String) (P : Poller κ) : List Float64 :=
  P.polls.flatMap fun poll => if poll.1 = name then poll.2 else []

/-- What is still to be taken: with the data of a poll under way goes what has come after it. -/
def held (name : String) (P : Poller κ) : List Float64 :=
  match P.phase with
  | .reset dataName pending _ =>
    if dataName = name then pending ++ (P.buffer name).drop (pending.length - 1) else P.buffer name
  | .command dataName pending _ => if dataName = name then pending ++ P.buffer name else P.buffer name
  | _ => P.buffer name

variable (commands : String → List Float64 → List κ)

/-- Whenever the loop empties the buffer of a listener, nothing has come since it popped. -/
def Undisturbed (name : String) (acts : List Action) : Prop :=
  ∀ before, before ++ [.loop] <+: acts → ∀ pending rest,
    (run commands before).phase = .reset name pending rest →
      (run commands before).buffer name = pending.dropLast

variable {commands}

theorem run_concat (acts : List Action) (a : Action) :
    run commands (acts ++ [a]) = (run commands acts).step commands a := by
  rw [run, List.foldl_append, List.foldl_cons, List.foldl_nil, run]

theorem undisturbed_concat (name : String) (acts : List Action) (a : Action) :
    Undisturbed commands name (acts ++ [a]) ↔ Undisturbed commands name acts ∧
      (a = .loop → ∀ pending rest, (run commands acts).phase = .reset name pending rest →
        (run commands acts).buffer name = pending.dropLast) := by
  constructor
  · intro h
    refine ⟨fun before hbefore => h before (hbefore.trans (List.prefix_append ..)), fun ha => ?_⟩
    subst ha
    exact h acts (List.prefix_refl _)
  · rintro ⟨hacts, hlast⟩ before hbefore
    rcases List.prefix_concat_iff.mp hbefore with heq | hbefore
    · obtain ⟨rfl, ha⟩ := List.append_inj' heq rfl
      exact hlast (List.singleton_inj.mp ha).symm
    · exact hacts before hbefore

theorem datagrams_concat_arrive (port port' : ℕ) (acts : List Action) (data : List UInt8) :
    datagrams port (acts ++ [.arrive port' data]) =
      datagrams port acts ++ if port' = port then [data] else [] := by
  rw [datagrams, List.filterMap_append, ← datagrams]
  by_cases hport : port' = port <;> simp [hport]

theorem datagrams_concat_loop (port : ℕ) (acts : List Action) :
    datagrams port (acts ++ [.loop]) = datagrams port acts := by
  simp [datagrams]

theorem received_concat_arrive (port : ℕ) (acts : List Action) (data : List UInt8) :
    received port (acts ++ [.arrive port data]) = received port acts ++
      if (datagrams port acts).all fun data => (receive? data).isSome then (receive? data).toList else [] := by
  rw [received, datagrams_concat_arrive, if_pos rfl, List.takeWhile_append, received]
  split_ifs with hlen hall hall
  · have hself := List.takeWhile_eq_self_iff.mpr (List.all_eq_true.mp hall)
    rw [hself, List.filterMap_append]
    cases hdata : receive? data <;> simp [hdata]
  · have hself := (List.takeWhile_prefix _).eq_of_length hlen
    exact absurd (List.all_eq_true.mpr (List.takeWhile_eq_self_iff.mp hself)) hall
  · have hself := List.takeWhile_eq_self_iff.mpr (List.all_eq_true.mp hall)
    exact absurd (congrArg List.length hself) hlen
  · rw [List.append_nil]

section Accounts
variable {name : String} {P : Poller κ}

/-- While the buffer is to be emptied it still holds what was pending with the datum that was popped. -/
def Popped (name : String) (P : Poller κ) : Prop :=
  ∀ pending rest, P.phase = .reset name pending rest → pending.dropLast <+: P.buffer name

theorem held_of_next {Q : Poller κ} {rest : List String} (h : Q.phase = .next rest) :
    held name Q = Q.buffer name := by
  unfold held
  rw [h]
  cases rest <;> rfl

/-- A step of the loop drops what has come between pop and reset, and nothing else. -/
theorem accounts_loop (h : P.Popped name) :
    (taken name (P.loop commands) ++ held name (P.loop commands)).Sublist (taken name P ++ held name P) ∧
    (taken name (P.loop commands) ++ held name (P.loop commands) = taken name P ++ held name P ↔
      ∀ pending rest, P.phase = .reset name pending rest → P.buffer name = pending.dropLast) := by
  unfold Poller.loop
  split
  case h_1 hphase =>
    rw [@held_of_next κ name _ dataNames rfl]
    simp [taken, held, hphase]
  case h_2 dataName rest hphase =>
    split_ifs with hempty
    · by_cases hname : dataName = name
      · subst hname
        simp [taken, held, hphase]
      · simp [taken, held, hphase, hname]
    · simp [taken, held, hphase]
  case h_3 dataName rest hphase =>
    by_cases hname : dataName = name
    · subst hname
      simp [taken, held, hphase]
    · simp [taken, held, hphase, hname, Function.update_of_ne (Ne.symm hname)]
  case h_4 dataName pending rest hphase =>
    by_cases hname : dataName = name
    · subst hname
      obtain ⟨later, hbuffer⟩ := h pending rest hphase
      have hdrop : (P.buffer dataName).drop (pending.length - 1) = later := by
        rw [← hbuffer, ← List.length_dropLast, List.drop_left]
      simp only [taken, held, hphase, if_true, Function.update_self, List.append_nil, hdrop]
      refine ⟨(List.sublist_append_left pending later).append_left _, ?_⟩
      rw [List.append_cancel_left_eq, List.self_eq_append_right, ← hbuffer]
      constructor
      · rintro rfl _ _ ⟨⟩
        rw [List.append_nil]
      · intro hnew
        exact List.append_right_eq_self.mp (hnew pending rest rfl)
    · simp [taken, held, hphase, hname, Function.update_of_ne (Ne.symm hname)]
  case h_5 dataName pending rest hphase =>
    rw [@held_of_next κ name _ rest rfl]
    by_cases hname : dataName = name
    · subst hname
      simp [taken, held, hphase]
    · simp [taken, held, hphase, hname]

theorem popped_loop : (P.loop commands).Popped name := by
  unfold Poller.loop
  split
  case h_1 => exact fun _ _ hreset => absurd hreset (@Agent.next_ne_reset dataNames _ _ _)
  case h_2 =>
    split_ifs
    · rintro _ _ ⟨⟩
    · rintro _ _ ⟨⟩
  case h_3 dataName rest hphase =>
    rintro _ _ ⟨⟩
    simp
  case h_4 => rintro _ _ ⟨⟩
  case h_5 => exact fun _ _ hreset => absurd hreset Agent.next_ne_reset

def news (name : String) (port : ℕ) (data : List UInt8) (P : Poller κ) : List Float64 :=
  if localPorts.lookup name = some port ∧ P.alive name then (receive? data).toList else []

theorem buffer_arrive (port : ℕ) (data : List UInt8) :
    (P.arrive port data).buffer name = P.buffer name ++ news name port data P := by
  unfold news
  dsimp only [Poller.arrive]
  split_ifs
  · rfl
  · rw [List.append_nil]

theorem Popped.arrive (h : P.Popped name) (port : ℕ) (data : List UInt8) :
    (P.arrive port data).Popped name := by
  intro pending rest hreset
  rw [buffer_arrive]
  exact (h pending rest hreset).trans (List.prefix_append ..)

theorem held_arrive (h : P.Popped name) (port : ℕ) (data : List UInt8) :
    held name (P.arrive port data) = held name P ++ news name port data P := by
  have hphase : (P.arrive port data).phase = P.phase := rfl
  unfold held
  rw [hphase, buffer_arrive]
  cases hp : P.phase with
  | reset dataName pending rest =>
    dsimp only
    split_ifs with hname
    · subst hname
      have hle := (h pending rest hp).length_le
      rw [List.length_dropLast] at hle
      rw [List.drop_append_of_le_length hle, List.append_assoc]
    · rfl
  | command dataName pending rest =>
    dsimp only
    split_ifs
    · rw [List.append_assoc]
    · rfl
  | _ => rfl

end Accounts

/-- What has become of the datagrams for a listener. -/
structure Accounts (commands : String → List Float64 → List κ) (name : String) (port : ℕ)
    (acts : List Action) (P : Poller κ) : Prop where
  popped : P.Popped name
  alive : P.alive name = (datagrams port acts).all fun data => (receive? data).isSome
  sublist : (taken name P ++ held name P).Sublist (received port acts)
  all_iff : taken name P ++ held name P = received port acts ↔ Undisturbed commands name acts

variable {name : String} {port : ℕ}

theorem init_accounts : Accounts commands name port [] (init : Poller κ) where
  popped := by rintro _ _ ⟨⟩
  alive := rfl
  sublist := .slnil
  all_iff := by
    refine iff_of_true rfl fun before hbefore => ?_
    simp at hbefore

theorem Accounts.loop {acts : List Action} (h : Accounts commands name port acts (run commands acts)) :
    Accounts commands name port (acts ++ [.loop]) (run commands (acts ++ [.loop])) := by
  obtain ⟨hsub, heq⟩ := @accounts_loop κ commands name (run commands acts) h.popped
  have hreceived : received port (acts ++ [.loop]) = received port acts := by
    rw [received, datagrams_concat_loop, received]
  rw [run_concat]
  change Accounts commands name port (acts ++ [.loop]) ((run commands acts).loop commands)
  refine ⟨popped_loop, ?_, ?_, ?_⟩
  · rw [datagrams_concat_loop, ← h.alive]
    unfold Poller.loop
    split <;> [rfl; (split_ifs <;> rfl); rfl; rfl; rfl]
  · rw [hreceived]
    exact hsub.trans h.sublist
  · rw [hreceived, undisturbed_concat, ← h.all_iff]
    simp only [forall_const]
    rw [← heq]
    constructor
    · -- what is lost is never made up for
      intro hall
      have hsame := h.sublist.antisymm (hall ▸ hsub)
      exact ⟨hsame, hall.trans hsame.symm⟩
    · rintro ⟨hsame, hstep⟩
      exact hstep.trans hsame

theorem Accounts.arrive {acts : List Action} (h : Accounts commands name port acts (run commands acts))
    (hport : localPorts.lookup name = some port) (port' : ℕ) (data : List UInt8) :
    Accounts commands name port (acts ++ [.arrive port' data])
      (run commands (acts ++ [.arrive port' data])) := by
  have hreceived : received port (acts ++ [.arrive port' data]) =
      received port acts ++ news name port' data (run commands acts) := by
    by_cases hsame : port' = port
    · subst hsame
      rw [received_concat_arrive, ← h.alive, news]
      simp [hport]
    · have hne : ¬ port = port' := Ne.symm hsame
      rw [received, datagrams_concat_arrive, if_neg hsame, List.append_nil, ← received, news, hport]
      simp [hne]
  have hstep : taken name ((run commands acts).arrive port' data) ++
      held name ((run commands acts).arrive port' data) =
        taken name (run commands acts) ++ held name (run commands acts) ++
          news name port' data (run commands acts) := by
    rw [held_arrive h.popped, ← List.append_assoc]
    rfl
  rw [run_concat]
  change Accounts commands name port _ ((run commands acts).arrive port' data)
  refine ⟨h.popped.arrive port' data, ?_, ?_, ?_⟩
  · rw [datagrams_concat_arrive, List.all_append, ← h.alive]
    dsimp only [Poller.arrive]
    by_cases hsame : port' = port
    · simp [hport, hsame]
    · have hne : ¬ port = port' := Ne.symm hsame
      simp [hport, hsame, hne]
  · rw [hreceived, hstep]
    exact h.sublist.append_right _
  · rw [hreceived, hstep, List.append_cancel_right_eq, undisturbed_concat, ← h.all_iff]
    simp

theorem run_accounts (hport : localPorts.lookup name = some port) (acts : List Action) :
    Accounts commands name port acts (run commands acts) := by
  induction acts using List.reverseRecOn with
  | nil => exact init_accounts
  | append_singleton acts a ih =>
    cases a with
    | arrive port' data => exact ih.arrive hport port' data
    | loop => exact ih.loop

theorem run_written (acts : List Action) : (run commands acts).written =
    (run commands acts).polls.flatMap fun poll => commands poll.1 poll.2 := by
  induction acts using List.reverseRecOn with
  | nil => rfl
  | append_singleton acts a ih =>
    rw [run_concat]
    cases a with
    | arrive port data => exact ih
    | loop =>
      change ((run commands acts).loop commands).written = _
      unfold Poller.step Poller.loop
      split
      case h_2 => split_ifs <;> exact ih
      case h_5 =>
        rw [List.flatMap_append, ← ih, List.flatMap_singleton]
      all_goals exact ih

/-- In any run of either agent the polls of a listener take each double of its port at most once, in the
order they came, and the devices are told what the polls ask for. None is lost exactly when nothing ever
comes for the listener between pop and reset. -/
theorem polled_once (commands : String → List Float64 → List κ)
    (hport : localPorts.lookup name = some port) (acts : List Action) :
    let P := run commands acts
    P.written = P.polls.flatMap (fun poll => commands poll.1 poll.2) ∧
    (taken name P ++ held name P).Sublist (received port acts) ∧
    (taken name P ++ held name P = received port acts ↔ Undisturbed commands name acts) :=
  ⟨run_written acts, (run_accounts hport acts).sublist, (run_accounts hport acts).all_iff⟩

end Poller

/-! ### The power agent -/

def Action.toPoller : Action → Poller.Action
  | .arrive port value => .arrive port (leBytes 8 value.toNat)
  | .loop => .loop

def Agent.toPoller (A : Agent) : Poller Float64 := ⟨fun _ => true, A.buffer, A.phase, A.currents, A.polls⟩

theorem receive?_leBytes (value : Float64) : receive? (leBytes 8 value.toNat) = some value := by
  have hlt := value.toNat_lt
  have hread : leNat (leBytes 8 value.toNat) = value.toNat := leNat_leBytes_of_lt hlt
  have htake : (leBytes 8 value.toNat).take 8 = leBytes 8 value.toNat :=
    List.take_of_length_le (length_leBytes ..).le
  rw [receive?, if_pos (length_leBytes ..).ge, htake, hread]
  simp

theorem Agent.step_toPoller (round2 : Float64 → Float64) (A : Agent) (a : Action) :
    (A.step round2 a).toPoller = A.toPoller.step (Agent.commands round2) a.toPoller := by
  cases a with
  | arrive port value =>
    simp only [step, Agent.arrive, Action.toPoller, toPoller, Poller.step, Poller.arrive, receive?_leBytes]
    simp
  | loop =>
    change (A.loop round2).toPoller = A.toPoller.loop (Agent.commands round2)
    unfold Agent.loop Poller.loop
    cases hphase : A.phase <;> simp only [toPoller, hphase]
    case check => split_ifs <;> rfl

/-- Where every datagram is a double, the power agent is a poller. -/
theorem Agent.run_toPoller (round2 : Float64 → Float64) (acts : List Action) :
    (run round2 acts).toPoller = Poller.run (Agent.commands round2) (acts.map Action.toPoller) := by
  induction acts using List.reverseRecOn with
  | nil => rfl
  | append_singleton acts a ih =>
    rw [run_concat, step_toPoller, ih, List.map_append, List.map_singleton, Poller.run_concat]

/-! ### The structure agent -/

namespace StrAgent
open Poller

/-- A pin is cleared with 0 and set with 1; any other value is a wrong command. -/
def switch (pin : ℕ) (data : Float64) : List (ℕ × Bool) :=
  if data = 0 ∨ data = 0x8000000000000000 then [(pin, false)]
  else if data = 0x3ff0000000000000 then [(pin, true)]
  else []

def commands (dataName : String) (pending : List Float64) : List (ℕ × Bool) :=
  match pending.getLast? with
  | none => []
  | some data =>
    if dataName = "Swith_Compre" then switch 7 data
    else if dataName = "Swith_Heatpad" then switch 6 data
    else []

theorem pin_of_switch {pin : ℕ} {data : Float64} {x : ℕ × Bool} (h : x ∈ switch pin data) : x.1 = pin := by
  unfold switch at h
  split_ifs at h
  · rw [List.mem_singleton.mp h]
  · rw [List.mem_singleton.mp h]
  · cases h

theorem filter_switch (pin pin' : ℕ) (data : Float64) :
    (switch pin' data).filter (·.1 = pin) = if pin' = pin then switch pin data else [] := by
  split_ifs with hpin
  · subst hpin
    exact List.filter_eq_self.mpr fun x hx => decide_eq_true (pin_of_switch hx)
  · exact List.filter_eq_nil_iff.mpr fun x hx => by simp [pin_of_switch hx, hpin]

theorem written_sublist {pin port : ℕ} {name : String} (hport : localPorts.lookup name = some port)
    (hpin : ∀ dataName pending, (commands dataName pending).filter (·.1 = pin) =
      if dataName = name then pending.getLast?.toList.flatMap (switch pin) else [])
    (acts : List Poller.Action) :
    ((run commands acts).written.filter (·.1 = pin)).Sublist
      ((received port acts).flatMap (switch pin)) := by
  have htaken : ((run commands acts).written.filter (·.1 = pin)).Sublist
      ((taken name (run commands acts)).flatMap (switch pin)) := by
    rw [run_written, List.filter_flatMap, taken, List.flatMap_assoc]
    refine List.Sublist.flatMap_right _ fun poll _ => ?_
    rw [hpin]
    split_ifs
    · have hlast : poll.2.getLast?.toList.Sublist poll.2 := by
        cases hpending : poll.2.getLast? with
        | none => exact List.nil_sublist _
        | some data => exact List.singleton_sublist.mpr (List.mem_of_getLast? hpending)
      exact hlast.flatMap _
    · exact List.nil_sublist _
  have haccounts : Accounts commands name port acts (run commands acts) := run_accounts hport acts
  have hreceived := (List.sublist_append_left _ _).trans haccounts.sublist
  exact htaken.trans (hreceived.flatMap _)

/-- In any run each pin is switched only as datagrams on its own port ask for it, in their order, and no
datagram switches it twice. -/
theorem switched_as_asked (acts : List Poller.Action) :
    ((run commands acts).written.filter (·.1 = 7)).Sublist ((received 10003 acts).flatMap (switch 7)) ∧
    ((run commands acts).written.filter (·.1 = 6)).Sublist ((received 10004 acts).flatMap (switch 6)) ∧
    ∀ x ∈ (run commands acts).written, x.1 = 7 ∨ x.1 = 6 := by
  refine ⟨@written_sublist 7 10003 "Swith_Compre" rfl ?_ acts,
    @written_sublist 6 10004 "Swith_Heatpad" rfl ?_ acts, fun x hx => ?_⟩
  · intro dataName pending
    unfold commands
    cases pending.getLast? with
    | none => simp
    | some data =>
      dsimp only
      split_ifs <;> simp_all [filter_switch]
  · intro dataName pending
    unfold commands
    cases pending.getLast? with
    | none => simp
    | some data =>
      dsimp only
      split_ifs <;> simp_all [filter_switch]
  · rw [run_written] at hx
    obtain ⟨poll, _, hx⟩ := List.mem_flatMap.mp hx
    unfold commands at hx
    split at hx
    · cases hx
    · split_ifs at hx
      · exact .inl (pin_of_switch hx)
      · exact .inr (pin_of_switch hx)
      · cases hx

/-- A switch is asked for, polled, and asked for again before the buffer is emptied. -/
def switchTwice : List Poller.Action :=
  [.arrive 10003 (leBytes 8 0x3ff0000000000000)] ++ .replicate 7 .loop ++
    [.arrive 10003 (leBytes 8 0)] ++ .replicate 2 .loop

theorem switchTwice_polled : (run commands switchTwice).written = [(7, true)] ∧
    received 10003 switchTwice = [0x3ff0000000000000, 0] ∧
    (taken "Swith_Compre" (run commands switchTwice) ++ held "Swith_Compre" (run commands switchTwice)).Sublist
      (received 10003 switchTwice) ∧ ¬ Undisturbed commands "Swith_Compre" switchTwice := by
  have hport : localPorts.lookup "Swith_Compre" = some 10003 := rfl
  have honce := polled_once commands hport switchTwice
  refine ⟨by decide +kernel, by decide +kernel, honce.2.1, fun hnone => ?_⟩
  exact absurd (honce.2.2.mpr hnone) (by decide +kernel)

end StrAgent
end DRDS.Cpt
