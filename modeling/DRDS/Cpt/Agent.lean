import DRDS.Go.LittleEndian
import Mathlib.Data.List.Infix
import Mathlib.Logic.Function.Basic

/-! The polling loop of the power agent with the threads that listen on its ports. A datagram is one
double, and is held as that. -/
namespace DRDS.Cpt
open Go

/-- `local_ports`, in the order of the dictionary. -/
def localPorts : List (String × ℕ) :=
  [("L1_Current_set", 10001), ("L1_Voltage_set", 10002), ("Swith_Compre", 10003),
    ("Swith_Heatpad", 10004), ("L1_Current", 10005), ("L1_Voltage", 10006), ("PV_Current", 10013),
    ("PV_Voltage", 10014), ("Pressure_1", 10015), ("Pressure_2", 10016), ("Temp_1", 10017),
    ("Temp_2", 10018), ("PV_1_Voltage", 10019), ("PV_1_Current", 10020), ("PV_1_Power", 10021),
    ("PV_2_Voltage", 10022), ("PV_2_Current", 10023), ("PV_2_Power", 10024),
    ("PV_3_Voltage", 10025), ("PV_3_Current", 10026), ("PV_3_Power", 10027),
    ("PV_4_Voltage", 10028), ("PV_4_Current", 10029), ("PV_4_Power", 10030)]

def dataNames : List String := localPorts.map (·.1)

/-- Where the loop is: at the sensors, or in `receive_latest` of a listener, about to test its buffer,
to pop from it or to empty it, or about to see what was received. With what was popped goes all that
was pending with it. -/
inductive Phase where
  | sensors
  | check (dataName : String) (rest : List String)
  | pop (dataName : String) (rest : List String)
  | reset (dataName : String) (pending : List Float64) (rest : List String)
  | command (dataName : String) (pending : List Float64) (rest : List String)

def Phase.next : List String → Phase
  | [] => .sensors
  | dataName :: rest => .check dataName rest

def Phase.names : Phase → List String
  | .sensors => []
  | .check dataName rest => dataName :: rest
  | .pop dataName rest => dataName :: rest
  | .reset dataName _ rest => dataName :: rest
  | .command dataName _ rest => dataName :: rest

@[simp] theorem Phase.names_next (rest : List String) : (next rest).names = rest := by
  cases rest <;> rfl

/-- The buffers of the listeners, the place of the loop, and the `set_current` calls on the load.
Recorded with them is each poll of a listener with the data pending at it. -/
structure Agent where
  buffer : String → List Float64
  phase : Phase
  currents : List Float64
  polls : List (String × List Float64)

inductive Action where
  | arrive (port : ℕ) (value : Float64)
  | loop

namespace Agent

def init : Agent := ⟨fun _ => [], .sensors, [], []⟩

/-- The listener of the port appends what arrives. -/
def arrive (port : ℕ) (value : Float64) (A : Agent) : Agent :=
  { A with buffer := fun dataName =>
      if localPorts.lookup dataName = some port then A.buffer dataName ++ [value]
      else A.buffer dataName }

section Loop
variable (round2 : Float64 → Float64)

def commands (dataName : String) (pending : List Float64) : List Float64 :=
  if dataName = "L1_Current_Set" then (pending.getLast?.map round2).toList else []

def loop (A : Agent) : Agent :=
  match A.phase with
  | .sensors => { A with phase := .next dataNames }
  | .check dataName rest =>
    if A.buffer dataName = [] then { A with phase := .command dataName [] rest }
    else { A with phase := .pop dataName rest }
  | .pop dataName rest =>
    { A with
      buffer := Function.update A.buffer dataName (A.buffer dataName).dropLast
      phase := .reset dataName (A.buffer dataName) rest }
  | .reset dataName pending rest =>
    { A with
      buffer := Function.update A.buffer dataName []
      phase := .command dataName pending rest }
  | .command dataName pending rest =>
    { A with
      currents := A.currents ++ commands round2 dataName pending
      polls := A.polls ++ [(dataName, pending)]
      phase := .next rest }

def step (A : Agent) : Action → Agent
  | .arrive port value => A.arrive port value
  | .loop => A.loop round2

/-- What the agent has done after so many arrivals and steps, in any order. -/
def run (acts : List Action) : Agent := acts.foldl (step round2) init

/-- What the polls of the set point ask for: of those with data pending the last, rounded. -/
def setPoints (polls : List (String × List Float64)) : List Float64 :=
  polls.flatMap fun (dataName, pending) =>
    if dataName = "L1_Current_set" then (pending.getLast?.map round2).toList else []

def LatestWins (A : Agent) : Prop := A.currents = setPoints round2 A.polls

def Arrived (acts : List Action) : Prop := ∃ value, .arrive 10001 value ∈ acts

/-- The loop looks at the listener of the set point when a datagram has arrived for it. -/
def Looks (acts : List Action) : Prop :=
  ∃ before, before <+: acts ∧ Arrived before ∧
    ∃ rest, (run round2 before).phase = .check "L1_Current_set" rest

def Due (A : Agent) : Prop :=
  match A.phase with
  | .sensors => False
  | .check dataName _ => dataName = "L1_Current_set" ∧ A.buffer dataName ≠ []
  | .pop dataName _ => dataName = "L1_Current_set"
  | .reset dataName _ _ => dataName = "L1_Current_set"
  | .command dataName pending _ => dataName = "L1_Current_set" ∧ pending ≠ []

/-! ### What the loop does -/

/-- What holds at every place of the loop. No listener has the name that `set_current` is called
under, so the load is never given a current. -/
structure Polling (A : Agent) : Prop where
  currents : A.currents = []
  names : ∀ dataName ∈ A.phase.names, dataName ∈ dataNames
  popping : ∀ dataName rest, A.phase = .pop dataName rest → A.buffer dataName ≠ []
  popped : ∀ dataName pending rest, A.phase = .reset dataName pending rest → pending ≠ []

theorem polling_init : Polling init := by
  constructor <;> simp [init, Phase.names]

variable {round2} {A : Agent} {port : ℕ} {value : Float64}

theorem Polling.arrive (h : A.Polling) : (A.arrive port value).Polling := by
  refine ⟨h.currents, h.names, fun dataName rest hpop => ?_, h.popped⟩
  have hbuffer := h.popping dataName rest hpop
  dsimp only [Agent.arrive]
  split_ifs
  · simp
  · exact hbuffer

@[simp] theorem next_ne_pop {rest rest' : List String} {dataName : String} :
    Phase.next rest ≠ .pop dataName rest' := by
  cases rest <;> simp [Phase.next]

@[simp] theorem next_ne_reset {rest rest' : List String} {dataName : String} {pending : List Float64} :
    Phase.next rest ≠ .reset dataName pending rest' := by
  cases rest <;> simp [Phase.next]

theorem commands_of_mem {dataName : String} (h : dataName ∈ dataNames) (pending : List Float64) :
    commands round2 dataName pending = [] := by
  have hne : dataName ≠ "L1_Current_Set" := by
    rintro rfl
    exact absurd h (by decide)
  rw [commands, if_neg hne]

theorem Polling.loop (h : A.Polling) : (A.loop round2).Polling := by
  have hnames := h.names
  unfold Agent.loop
  split
  case h_1 hphase =>
    exact ⟨h.currents, by simp, by simp, by simp⟩
  case h_2 dataName rest hphase =>
    rw [hphase] at hnames
    split_ifs with hempty
    · exact ⟨h.currents, hnames, by simp, by simp⟩
    · refine ⟨h.currents, hnames, ?_, by simp⟩
      rintro _ _ ⟨⟩
      exact hempty
  case h_3 dataName rest hphase =>
    rw [hphase] at hnames
    refine ⟨h.currents, hnames, by simp, ?_⟩
    rintro _ _ _ ⟨⟩
    exact h.popping dataName rest hphase
  case h_4 dataName pending rest hphase =>
    rw [hphase] at hnames
    exact ⟨h.currents, hnames, by simp, by simp⟩
  case h_5 dataName pending rest hphase =>
    rw [hphase] at hnames
    have hall := List.forall_mem_cons.mp hnames
    refine ⟨?_, by simpa using hall.2, by simp, by simp⟩
    rw [h.currents, commands_of_mem hall.1, List.append_nil]

/-! ### What the polls find -/

theorem run_concat (acts : List Action) (a : Action) :
    run round2 (acts ++ [a]) = (run round2 acts).step round2 a := by
  rw [run, List.foldl_append, List.foldl_cons, List.foldl_nil, run]

theorem run_polling (acts : List Action) : (run round2 acts).Polling := by
  induction acts using List.reverseRecOn with
  | nil => exact polling_init
  | append_singleton acts a ih =>
    rw [run_concat]
    cases a with
    | arrive port value => exact ih.arrive
    | loop => exact ih.loop

theorem looks_concat (acts : List Action) (a : Action) : Looks round2 (acts ++ [a]) ↔
    Looks round2 acts ∨ Arrived (acts ++ [a]) ∧
      ∃ rest, ((run round2 acts).step round2 a).phase = .check "L1_Current_set" rest := by
  rw [← run_concat]
  unfold Looks
  constructor
  · rintro ⟨before, hprefix, harrived, hcheck⟩
    rcases List.prefix_concat_iff.mp hprefix with rfl | hprefix
    · exact .inr ⟨harrived, hcheck⟩
    · exact .inl ⟨before, hprefix, harrived, hcheck⟩
  · rintro (⟨before, hprefix, hlook⟩ | hlook)
    · exact ⟨before, hprefix.trans (List.prefix_append ..), hlook⟩
    · exact ⟨_, List.prefix_refl _, hlook⟩

theorem arrived_concat_loop {acts : List Action} : Arrived (acts ++ [.loop]) ↔ Arrived acts := by
  simp [Arrived]

theorem setPoints_concat (polls : List (String × List Float64)) (dataName : String)
    (pending : List Float64) : setPoints round2 (polls ++ [(dataName, pending)]) ≠ [] ↔
      setPoints round2 polls ≠ [] ∨ dataName = "L1_Current_set" ∧ pending ≠ [] := by
  rw [setPoints, List.flatMap_append, List.flatMap_singleton, ← setPoints]
  by_cases hname : dataName = "L1_Current_set"
  · cases pending using List.reverseRecOn with
    | nil => simp [hname]
    | append_singleton => simp [hname]
  · simp [hname]

/-- What has been looked at after it arrived has been asked for or is about to be. What has not is
still in the buffer. -/
structure Tracks (round2 : Float64 → Float64) (acts : List Action) (A : Agent) : Prop where
  looks : Looks round2 acts ↔ setPoints round2 A.polls ≠ [] ∨ A.Due
  arrived : A.buffer "L1_Current_set" ≠ [] → Arrived acts
  waiting : Arrived acts → ¬ Looks round2 acts → A.buffer "L1_Current_set" ≠ []

theorem lookup_setPoint (port : ℕ) :
    localPorts.lookup "L1_Current_set" = some port ↔ port = 10001 := by
  simp [localPorts, eq_comm]

theorem buffer_arrive (A : Agent) (port : ℕ) (value : Float64) :
    (A.arrive port value).buffer "L1_Current_set" ≠ [] ↔
      A.buffer "L1_Current_set" ≠ [] ∨ port = 10001 := by
  dsimp only [Agent.arrive]
  rw [apply_ite (· ≠ [])]
  simp only [lookup_setPoint]
  split_ifs with hport <;> simp [hport]

theorem due_arrive : (A.arrive port value).Due ↔
    A.Due ∨ port = 10001 ∧ ∃ rest, A.phase = .check "L1_Current_set" rest := by
  have hbuffer := buffer_arrive A port value
  have hphase : (A.arrive port value).phase = A.phase := rfl
  unfold Due
  rw [hphase]
  cases A.phase with
  | check dataName rest =>
    by_cases hname : dataName = "L1_Current_set"
    · subst hname
      simpa using hbuffer
    · simp [hname]
  | _ => simp

theorem Tracks.arrive {acts : List Action} (h : Tracks round2 acts (run round2 acts)) :
    Tracks round2 (acts ++ [.arrive port value]) ((run round2 acts).arrive port value) := by
  have harrived : Arrived (acts ++ [.arrive port value]) ↔ Arrived acts ∨ port = 10001 := by
    simp [Arrived, exists_or, eq_comm]
  have hlooks : Looks round2 (acts ++ [.arrive port value]) ↔ Looks round2 acts ∨
      port = 10001 ∧ ∃ rest, (run round2 acts).phase = .check "L1_Current_set" rest := by
    rw [looks_concat, harrived]
    constructor
    · rintro (hlook | ⟨harr | hport, hcheck⟩)
      · exact .inl hlook
      · exact .inl ⟨acts, List.prefix_refl _, harr, hcheck⟩
      · exact .inr ⟨hport, hcheck⟩
    · rintro (hlook | ⟨hport, hcheck⟩)
      · exact .inl hlook
      · exact .inr ⟨.inr hport, hcheck⟩
  refine ⟨?_, ?_, ?_⟩
  · rw [hlooks, h.looks, due_arrive, or_assoc]
    rfl
  · rw [buffer_arrive, harrived]
    exact Or.imp_left h.arrived
  · rw [buffer_arrive, harrived, hlooks]
    rintro (harr | hport) hno
    · exact .inl (h.waiting harr fun hlook => hno (.inl hlook))
    · exact .inr hport

theorem due_next {rest : List String} {buffer : String → List Float64} {currents : List Float64}
    {polls : List (String × List Float64)} : Due ⟨buffer, .next rest, currents, polls⟩ ↔
      (∃ rest', Phase.next rest = .check "L1_Current_set" rest') ∧ buffer "L1_Current_set" ≠ [] := by
  cases rest with
  | nil => simp [Due, Phase.next]
  | cons dataName rest =>
    by_cases hname : dataName = "L1_Current_set" <;> simp [Due, Phase.next, hname]

/-- A step of the loop finds a set point only where it comes to the listener. -/
theorem Polling.asked_loop (h : A.Polling) :
    setPoints round2 (A.loop round2).polls ≠ [] ∨ (A.loop round2).Due ↔
      (setPoints round2 A.polls ≠ [] ∨ A.Due) ∨
        (∃ rest, (A.loop round2).phase = .check "L1_Current_set" rest) ∧
          A.buffer "L1_Current_set" ≠ [] := by
  unfold Agent.loop
  cases hphase : A.phase with
  | sensors =>
    have hdue : ¬ A.Due := by simp [Due, hphase]
    dsimp only
    rw [due_next, or_iff_left hdue]
  | check dataName rest =>
    have hdue : A.Due ↔ dataName = "L1_Current_set" ∧ A.buffer dataName ≠ [] := by
      simp [Due, hphase]
    rw [hdue]
    by_cases hempty : A.buffer dataName = [] <;> simp [hempty, Due]
  | pop dataName rest =>
    have hdue : A.Due ↔ dataName = "L1_Current_set" := by simp [Due, hphase]
    rw [hdue]
    simp [Due]
  | reset dataName pending rest =>
    have hdue : A.Due ↔ dataName = "L1_Current_set" := by simp [Due, hphase]
    rw [hdue]
    simp [Due, h.popped dataName pending rest hphase]
  | command dataName pending rest =>
    have hdue : A.Due ↔ dataName = "L1_Current_set" ∧ pending ≠ [] := by simp [Due, hphase]
    dsimp only
    rw [setPoints_concat, due_next, hdue]

theorem buffer_loop (h : A.buffer "L1_Current_set" ≠ []) :
    (A.loop round2).buffer "L1_Current_set" ≠ [] ∨ A.Due := by
  unfold Agent.loop
  cases hphase : A.phase with
  | sensors => exact .inl h
  | check dataName rest =>
    left
    dsimp only
    split_ifs <;> exact h
  | pop dataName rest =>
    by_cases hname : dataName = "L1_Current_set"
    · exact .inr (by simp [Due, hphase, hname])
    · exact .inl (by simpa [Function.update_of_ne (Ne.symm hname)] using h)
  | reset dataName pending rest =>
    by_cases hname : dataName = "L1_Current_set"
    · exact .inr (by simp [Due, hphase, hname])
    · exact .inl (by simpa [Function.update_of_ne (Ne.symm hname)] using h)
  | command dataName pending rest => exact .inl h

theorem buffer_of_loop (h : (A.loop round2).buffer "L1_Current_set" ≠ []) :
    A.buffer "L1_Current_set" ≠ [] := by
  intro hempty
  unfold Agent.loop at h
  cases hphase : A.phase with
  | sensors => simp [hphase, hempty] at h
  | check dataName rest =>
    simp only [hphase] at h
    split_ifs at h <;> exact h hempty
  | pop dataName rest =>
    by_cases hname : dataName = "L1_Current_set"
    · simp [hphase, hname, hempty] at h
    · simp [hphase, Function.update_of_ne (Ne.symm hname), hempty] at h
  | reset dataName pending rest =>
    by_cases hname : dataName = "L1_Current_set"
    · simp [hphase, hname] at h
    · simp [hphase, Function.update_of_ne (Ne.symm hname), hempty] at h
  | command dataName pending rest => simp [hphase, hempty] at h

theorem Tracks.loop {acts : List Action} (h : Tracks round2 acts (run round2 acts)) :
    Tracks round2 (acts ++ [.loop]) ((run round2 acts).loop round2) := by
  have hlooks : Looks round2 (acts ++ [.loop]) ↔ Looks round2 acts ∨ Arrived acts ∧
      ∃ rest, ((run round2 acts).loop round2).phase = .check "L1_Current_set" rest := by
    rw [looks_concat, arrived_concat_loop]
    rfl
  refine ⟨?_, ?_, ?_⟩
  · rw [hlooks, (run_polling acts).asked_loop, ← h.looks]
    constructor
    · rintro (hlook | ⟨harr, hcheck⟩)
      · exact .inl hlook
      · by_cases hlook : Looks round2 acts
        · exact .inl hlook
        · exact .inr ⟨hcheck, h.waiting harr hlook⟩
    · rintro (hlook | ⟨hcheck, hbuffer⟩)
      · exact .inl hlook
      · exact .inr ⟨h.arrived hbuffer, hcheck⟩
  · rw [arrived_concat_loop]
    exact fun hbuffer => h.arrived (buffer_of_loop hbuffer)
  · rw [arrived_concat_loop, hlooks]
    intro harr hno
    have hnone : ¬ Looks round2 acts := fun hlook => hno (.inl hlook)
    exact (buffer_loop (h.waiting harr hnone)).resolve_right fun hdue =>
      hnone (h.looks.mpr (.inr hdue))

theorem run_tracks (acts : List Action) : Tracks round2 acts (run round2 acts) := by
  induction acts using List.reverseRecOn with
  | nil =>
    have hlooks : ¬ Looks round2 [] := by
      rintro ⟨before, hprefix, ⟨_, hmem⟩, _⟩
      rw [List.prefix_nil.mp hprefix] at hmem
      cases hmem
    exact ⟨by simp [hlooks, run, init, setPoints, Due], by simp [run, init], by simp [Arrived]⟩
  | append_singleton acts a ih =>
    rw [run_concat]
    cases a with
    | arrive port value => exact ih.arrive
    | loop => exact ih.loop

/-- No set point reaches the load, so all is well as long as none is asked for. -/
theorem latestWins_run_iff (acts : List Action) :
    LatestWins round2 (run round2 acts) ↔ setPoints round2 (run round2 acts).polls = [] := by
  rw [LatestWins, (run_polling acts).currents, eq_comm]

variable (round2) in
/-- The name compared with is no key of the dictionary. In every state of a run in which no set point
had arrived whenever the loop looked for one, all is well; and in no other at the end of a round. -/
theorem latestWins_of_not_looks (acts : List Action) :
    (¬ Looks round2 acts → LatestWins round2 (run round2 acts)) ∧
      ((run round2 acts).phase = .sensors →
        (LatestWins round2 (run round2 acts) ↔ ¬ Looks round2 acts)) := by
  have htracks : Tracks round2 acts (run round2 acts) := run_tracks acts
  rw [latestWins_run_iff]
  constructor
  · intro hno
    by_contra hasked
    exact hno (htracks.looks.mpr (.inl hasked))
  · intro hround
    have hdue : ¬ (run round2 acts).Due := by simp [Due, hround]
    rw [htracks.looks, or_iff_left hdue, not_ne_iff]

end Loop

def oneRound (port : ℕ) : List Action := .arrive port 0x4000000000000000 :: .replicate 51 .loop

/-- The set point is polled, and the load is not given it. -/
theorem oneRound_setPoint_lost : (run id (oneRound 10001)).phase = .sensors ∧
    setPoints id (run id (oneRound 10001)).polls = [0x4000000000000000] ∧
      ¬ LatestWins id (run id (oneRound 10001)) := by
  unfold LatestWins
  exact ⟨rfl, by decide +kernel, by decide +kernel⟩

theorem oneRound_other_latestWins : LatestWins id (run id (oneRound 10002)) ∧
    (LatestWins id (run id (oneRound 10002)) ↔ ¬ Looks id (oneRound 10002)) := by
  have hno : ¬ Looks id (oneRound 10002) := by
    rintro ⟨before, hprefix, ⟨value, hmem⟩, _⟩
    have hmem' := hprefix.subset hmem
    simp [oneRound] at hmem'
  exact ⟨(latestWins_of_not_looks id (oneRound 10002)).1 hno,
    (latestWins_of_not_looks id (oneRound 10002)).2 rfl⟩

end Agent
end DRDS.Cpt
