import Mathlib.Data.Int.Notation
import Mathlib.Data.List.Basic

/-! Programs as their atomic actions, pools of programs under every schedule, and the rule by which
an invariant holds of a pool whatever the schedule. -/
namespace DRDS.Concurrency

/-- What is left of a program that returns an `α`. An action waits until it is `ready`, and what
comes after it depends on the state it found. `choose` leaves a choice to the outside, `go` starts
a routine beside the program, and `again` goes on as a routine. -/
inductive Program (σ ρ α : Type) where
  | done (a : α)
  | act (ready : σ → Bool) (step : σ → σ) (next : σ → Program σ ρ α)
  | choose (next : ℤ → Program σ ρ α)
  | go (r : ρ) (next : Program σ ρ α)
  | again (r : ρ)
  | panic

namespace Program
variable {σ ρ α β : Type}

def bind (p : Program σ ρ α) (k : α → Program σ ρ β) : Program σ ρ β :=
  match p with
  | .done a => k a
  | .act ready step next => .act ready step fun s => (next s).bind k
  | .choose next => .choose fun n => (next n).bind k
  | .go r next => .go r (next.bind k)
  | .again r => .again r
  | .panic => .panic

instance : Monad (Program σ ρ) where
  pure := done
  bind := bind

def atomic (f : σ → α × σ) : Program σ ρ α :=
  .act (fun _ => true) (fun s => (f s).2) fun s => .done (f s).1

/-- One action, blocked until there is something to look at. -/
def await (look : σ → Option α) (step : σ → σ) : Program σ ρ α :=
  .act (fun s => (look s).isSome) step fun s =>
    match look s with
    | some a => .done a
    | none => .panic

def start (r : ρ) : Program σ ρ Unit := .go r (.done ())

def startAll : List ρ → Program σ ρ Unit
  | [] => .done ()
  | r :: rs => .go r (startAll rs)

/-! ### Alone -/

/-- How a program ends when nothing comes between its actions; what waits, leaves a choice or goes
round again does not return. -/
inductive End (α : Type) where
  | returned (a : α)
  | panicked
  | stays
  deriving DecidableEq

/-- The end, the routines started on the way, and the state. -/
def alone : Program σ ρ α → σ → End α × List ρ × σ
  | .done a, s => (.returned a, [], s)
  | .act ready step next, s => if ready s then (next s).alone (step s) else (.stays, [], s)
  | .choose _, s => (.stays, [], s)
  | .go r next, s =>
    let (o, rs, t) := next.alone s
    (o, r :: rs, t)
  | .again _, s => (.stays, [], s)
  | .panic, s => (.panicked, [], s)

@[simp] theorem bind_eq (p : Program σ ρ α) (k : α → Program σ ρ β) : p >>= k = p.bind k := rfl

@[simp] theorem pure_eq (a : α) : (pure a : Program σ ρ α) = .done a := rfl

theorem alone_bind (p : Program σ ρ α) (k : α → Program σ ρ β) (s : σ) :
    (p.bind k).alone s =
      match p.alone s with
      | (.returned a, rs, t) =>
        let (o, rs', u) := (k a).alone t
        (o, rs ++ rs', u)
      | (.panicked, rs, t) => (.panicked, rs, t)
      | (.stays, rs, t) => (.stays, rs, t) := by
  induction p generalizing s with
  | done a => rfl
  | act ready step next ih =>
    simp only [bind, alone]
    split_ifs
    · exact ih s (step s)
    · rfl
  | choose next _ => rfl
  | go r next ih =>
    simp only [bind, alone, ih s]
    rcases next.alone s with ⟨o, rs, t⟩
    cases o <;> rfl
  | again r => rfl
  | panic => rfl

theorem alone_bind_of_returned {p : Program σ ρ α} {k : α → Program σ ρ β} {s t : σ} {a : α}
    (h : p.alone s = (.returned a, [], t)) : (p.bind k).alone s = (k a).alone t := by
  rw [alone_bind, h]
  rfl

theorem alone_bind_of_panicked {p : Program σ ρ α} {k : α → Program σ ρ β} {s t : σ} {rs : List ρ}
    (h : p.alone s = (.panicked, rs, t)) : (p.bind k).alone s = (.panicked, rs, t) := by
  rw [alone_bind, h]

theorem alone_bind_of_stays {p : Program σ ρ α} {k : α → Program σ ρ β} {s t : σ} {rs : List ρ}
    (h : p.alone s = (.stays, rs, t)) : (p.bind k).alone s = (.stays, rs, t) := by
  rw [alone_bind, h]

@[simp] theorem alone_atomic (f : σ → α × σ) (s : σ) :
    (atomic f : Program σ ρ α).alone s = (.returned (f s).1, [], (f s).2) := rfl

@[simp] theorem alone_atomic_bind (f : σ → α × σ) (k : α → Program σ ρ β) (s : σ) :
    ((atomic f).bind k).alone s = (k (f s).1).alone (f s).2 := rfl

theorem alone_await {look : σ → Option α} {step : σ → σ} {s : σ} {a : α} (h : look s = some a) :
    (await look step : Program σ ρ α).alone s = (.returned a, [], step s) := by
  simp [await, alone, h]

@[simp] theorem alone_startAll (rs : List ρ) (s : σ) :
    (startAll rs : Program σ ρ Unit).alone s = (.returned (), rs, s) := by
  induction rs with
  | nil => rfl
  | cons r rs ih => rw [startAll, alone, ih]

end Program

/-! ### Pools -/

/-- The programs of the routines, and what the outside may do: change the state and start routines. -/
structure Setting (σ ρ τ : Type) where
  body : ρ → Program σ ρ Unit
  outside : τ → σ → σ × List ρ

/-- The threads, those that have ended included. A panic is the end of all of them. -/
structure Pool (σ ρ : Type) where
  shared : σ
  threads : List (Program σ ρ Unit)
  panicked : Bool

/-- A schedule says which thread moves, with the choice it makes if it leaves one, or what the outside
does. -/
inductive Move (τ : Type) where
  | thread (i : ℕ) (n : ℤ)
  | outside (x : τ)

namespace Pool
variable {σ ρ τ : Type}

/-- A thread that has ended or waits cannot move. -/
def step? (E : Setting σ ρ τ) : Move τ → Pool σ ρ → Option (Pool σ ρ)
  | _, ⟨_, _, true⟩ => none
  | .outside x, ⟨s, threads, false⟩ =>
    let (t, rs) := E.outside x s
    some ⟨t, threads ++ rs.map E.body, false⟩
  | .thread i n, ⟨s, threads, false⟩ =>
    match threads[i]? with
    | none => none
    | some (.done _) => none
    | some (.act ready step next) =>
      if ready s then some ⟨step s, threads.set i (next s), false⟩ else none
    | some (.choose next) => some ⟨s, threads.set i (next n), false⟩
    | some (.go r next) => some ⟨s, threads.set i next ++ [E.body r], false⟩
    | some (.again r) => some ⟨s, threads.set i (E.body r), false⟩
    | some .panic => some ⟨s, threads, true⟩

def run? (E : Setting σ ρ τ) : List (Move τ) → Pool σ ρ → Option (Pool σ ρ)
  | [], P => some P
  | m :: ms, P => (P.step? E m).bind (run? E ms)

end Pool

/-! ### Contracts -/

/-- What holds between all actions, what later states keep, what a routine needs to be started, and what
there is when a program panics. -/
structure Contract (σ ρ : Type) where
  Inv : σ → Prop
  Later : σ → σ → Prop
  Pre : ρ → σ → Prop
  Fault : σ → Prop
  refl : ∀ s, Later s s
  trans : ∀ {s t u}, Later s t → Later t u → Later s u
  pre_later : ∀ {r s t}, Pre r s → Later s t → Pre r t
  fault_later : ∀ {s t}, Fault s → Later s t → Fault t

namespace Contract
variable {σ ρ τ α β : Type}

/-- From the state on, and whatever the others do in between, the program keeps the contract, and a
result it returns satisfies `Q`. -/
def Safe (C : Contract σ ρ) : Program σ ρ α → (α → σ → Prop) → σ → Prop
  | .done a, Q, s => ∀ t, C.Later s t → C.Inv t → Q a t
  | .act ready step next, Q, s => ∀ t, C.Later s t → C.Inv t → ready t →
    C.Inv (step t) ∧ C.Later t (step t) ∧ C.Safe (next t) Q (step t)
  | .choose next, Q, s => ∀ n, C.Safe (next n) Q s
  | .go r next, Q, s => C.Pre r s ∧ C.Safe next Q s
  | .again r, _, s => C.Pre r s
  | .panic, _, s => C.Fault s

variable {C : Contract σ ρ} {Q R : α → σ → Prop} {s t : σ}

theorem Safe.later {p : Program σ ρ α} (h : C.Safe p Q s) (hst : C.Later s t) : C.Safe p Q t := by
  induction p with
  | done a => exact fun u hu => h u (C.trans hst hu)
  | act ready step next _ => exact fun u hu => h u (C.trans hst hu)
  | choose next ih => exact fun n => ih n (h n)
  | go r next ih => exact ⟨C.pre_later h.1 hst, ih h.2⟩
  | again r => exact C.pre_later h hst
  | panic => exact C.fault_later h hst

theorem Safe.mono {p : Program σ ρ α} (h : C.Safe p Q s)
    (hQR : ∀ a t, C.Later s t → C.Inv t → Q a t → R a t) : C.Safe p R s := by
  induction p generalizing s with
  | done a => exact fun t hst hInv => hQR a t hst hInv (h t hst hInv)
  | act ready step next ih =>
    intro t hst hInv hready
    obtain ⟨hInv', htu, hnext⟩ := h t hst hInv hready
    exact ⟨hInv', htu, ih t hnext fun a u hu => hQR a u (C.trans (C.trans hst htu) hu)⟩
  | choose next ih => exact fun n => ih n (h n) hQR
  | go r next ih => exact ⟨h.1, ih h.2 hQR⟩
  | again r => exact h
  | panic => exact h

theorem Safe.bind {p : Program σ ρ α} {k : α → Program σ ρ β} {Q : β → σ → Prop}
    (hInv : C.Inv s) (h : C.Safe p (fun a t => C.Safe (k a) Q t) s) : C.Safe (p.bind k) Q s := by
  induction p generalizing s with
  | done a => exact h s (C.refl s) hInv
  | act ready step next ih =>
    intro t hst hInv' hready
    obtain ⟨hInv'', htu, hnext⟩ := h t hst hInv' hready
    exact ⟨hInv'', htu, ih t hInv'' hnext⟩
  | choose next ih => exact fun n => ih n hInv (h n)
  | go r next ih => exact ⟨h.1, ih hInv h.2⟩
  | again r => exact h
  | panic => exact h

/-- The rule of an action, whatever has happened before it. -/
theorem Safe.atomic {f : σ → α × σ} (h : ∀ t, C.Later s t → C.Inv t →
    C.Inv (f t).2 ∧ C.Later t (f t).2 ∧ ∀ u, C.Later (f t).2 u → C.Inv u → Q (f t).1 u) :
    C.Safe (.atomic f) Q s :=
  fun t hst hInv _ => h t hst hInv

theorem Safe.await {look : σ → Option α} {step : σ → σ}
    (h : ∀ t a, C.Later s t → C.Inv t → look t = some a →
      C.Inv (step t) ∧ C.Later t (step t) ∧ ∀ u, C.Later (step t) u → C.Inv u → Q a u) :
    C.Safe (.await look step) Q s := by
  intro t hst hInv hready
  obtain ⟨a, ha⟩ := Option.isSome_iff_exists.mp hready
  obtain ⟨hInv', hlater, hQ⟩ := h t a hst hInv ha
  refine ⟨hInv', hlater, ?_⟩
  dsimp only
  rw [ha]
  exact hQ

theorem Safe.startAll {rs : List ρ} {Q : Unit → σ → Prop} (h : ∀ r ∈ rs, C.Pre r s)
    (hQ : ∀ t, C.Later s t → C.Inv t → Q () t) : C.Safe (.startAll rs) Q s := by
  induction rs with
  | nil => exact hQ
  | cons r rs ih =>
    rw [List.forall_mem_cons] at h
    exact ⟨h.1, ih h.2⟩

/-! ### Pools that keep a contract -/

/-- The programs of all routines keep the contract, and so does the outside as far as it is admitted. -/
structure Keeps (C : Contract σ ρ) (E : Setting σ ρ τ) (admits : τ → Prop) : Prop where
  body : ∀ r s, C.Inv s → C.Pre r s → C.Safe (E.body r) (fun _ _ => True) s
  outside : ∀ x s, admits x → C.Inv s → C.Inv (E.outside x s).1 ∧ C.Later s (E.outside x s).1 ∧
    ∀ r ∈ (E.outside x s).2, C.Pre r (E.outside x s).1

structure Holds (C : Contract σ ρ) (P : Pool σ ρ) : Prop where
  inv : C.Inv P.shared
  threads : ∀ p ∈ P.threads, C.Safe p (fun _ _ => True) P.shared
  fault : P.panicked → C.Fault P.shared

variable {E : Setting σ ρ τ} {admits : τ → Prop}

theorem Keeps.holds (hE : C.Keeps E admits) {rs : List ρ} (hInv : C.Inv s)
    (hrs : ∀ r ∈ rs, C.Pre r s) : C.Holds ⟨s, rs.map E.body, false⟩ := by
  refine ⟨hInv, fun p hp => ?_, fun h => nomatch h⟩
  obtain ⟨r, hr, rfl⟩ := List.mem_map.mp hp
  exact hE.body r s hInv (hrs r hr)

theorem Keeps.step? (hE : C.Keeps E admits) {m : Move τ} (hm : ∀ x, m = .outside x → admits x)
    {P P' : Pool σ ρ} (hP : C.Holds P) (h : P.step? E m = some P') :
    C.Holds P' ∧ C.Later P.shared P'.shared := by
  obtain ⟨s, threads, panicked⟩ := P
  obtain ⟨hInv, hthreads, _⟩ := hP
  dsimp only at hInv hthreads
  cases panicked with
  | true => cases m <;> cases h
  | false =>
    cases m with
    | outside x =>
      obtain ⟨hInv', hlater, hpre⟩ := hE.outside x s (hm x rfl) hInv
      cases h
      refine ⟨⟨hInv', fun p hp => ?_, fun h => nomatch h⟩, hlater⟩
      rcases List.mem_append.mp hp with hp | hp
      · exact (hthreads p hp).later hlater
      · obtain ⟨r, hr, rfl⟩ := List.mem_map.mp hp
        exact hE.body r _ hInv' (hpre r hr)
    | thread i n =>
      -- all other threads are safe in later states
      have hset : ∀ {t : σ} {q : Program σ ρ Unit}, C.Later s t → C.Safe q (fun _ _ => True) t →
          ∀ p ∈ threads.set i q, C.Safe p (fun _ _ => True) t := by
        intro t q hst hq p hp
        rcases List.mem_or_eq_of_mem_set hp with hp | rfl
        · exact (hthreads p hp).later hst
        · exact hq
      simp only [Pool.step?] at h
      split at h
      · cases h
      · cases h
      · rename_i ready step next hp
        split_ifs at h with hready
        cases h
        obtain ⟨hInv', hlater, hnext⟩ :=
          hthreads _ (List.mem_of_getElem? hp) s (C.refl s) hInv hready
        exact ⟨⟨hInv', hset hlater hnext, fun h => nomatch h⟩, hlater⟩
      · rename_i next hp
        cases h
        exact ⟨⟨hInv, hset (C.refl s) (hthreads _ (List.mem_of_getElem? hp) n), fun h => nomatch h⟩,
          C.refl s⟩
      · rename_i r next hp
        cases h
        obtain ⟨hpre, hnext⟩ := hthreads _ (List.mem_of_getElem? hp)
        refine ⟨⟨hInv, fun p hp' => ?_, fun h => nomatch h⟩, C.refl s⟩
        rcases List.mem_append.mp hp' with hp' | hp'
        · exact hset (C.refl s) hnext p hp'
        · rw [List.mem_singleton.mp hp']
          exact hE.body r s hInv hpre
      · rename_i r hp
        cases h
        have hpre : C.Pre r s := hthreads _ (List.mem_of_getElem? hp)
        exact ⟨⟨hInv, hset (C.refl s) (hE.body r s hInv hpre), fun h => nomatch h⟩, C.refl s⟩
      · rename_i hp
        cases h
        have hfault : C.Fault s := hthreads _ (List.mem_of_getElem? hp)
        exact ⟨⟨hInv, hthreads, fun _ => hfault⟩, C.refl s⟩

/-- Under every schedule the invariant holds between any two moves. -/
theorem Keeps.run? (hE : C.Keeps E admits) {ms : List (Move τ)}
    (hms : ∀ x, .outside x ∈ ms → admits x) {P P' : Pool σ ρ} (hP : C.Holds P)
    (h : P.run? E ms = some P') : C.Holds P' ∧ C.Later P.shared P'.shared := by
  induction ms generalizing P with
  | nil =>
    cases h
    exact ⟨hP, C.refl _⟩
  | cons m ms ih =>
    obtain ⟨P₁, hstep, hrest⟩ := Option.bind_eq_some_iff.mp h
    obtain ⟨hP₁, hlater₁⟩ := hE.step? (fun x hx => hms x (hx ▸ List.mem_cons_self)) hP hstep
    obtain ⟨hP', hlater⟩ := ih (fun x hx => hms x (List.mem_cons_of_mem m hx)) hP₁ hrest
    exact ⟨hP', C.trans hlater₁ hlater⟩

end Contract
end DRDS.Concurrency
