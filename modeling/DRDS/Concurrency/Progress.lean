import DRDS.Concurrency.Program

/-! Loops that use something up: a routine that never ends and does not wait while something is left, and
each of whose rounds uses some of it, can use all of it up from wherever it is, whatever has happened
before. -/
namespace DRDS.Concurrency
variable {σ ρ τ α β : Type}

/-- How much is left, and what the steps that use it up may change. -/
structure Descent (σ : Type) where
  left : σ → ℕ
  Rel : σ → σ → Prop
  refl : ∀ s, Rel s s
  trans : ∀ {s t u}, Rel s t → Rel t u → Rel s u
  left_le : ∀ {s t}, Rel s t → left t ≤ left s

namespace Program

/-- The program does not wait while something is left, and changes what it may. It panics nowhere, goes on
only as one of some routines, and returns only what satisfies `Q`. -/
def Loops (D : Descent σ) (ends : ρ → Prop) : Program σ ρ α → (α → Prop) → Prop
  | .done a, Q => Q a
  | .act ready step next, Q =>
    (∀ s, 0 < D.left s → ready s) ∧ ∀ s, ready s → D.Rel s (step s) ∧ (next s).Loops D ends Q
  | .choose next, Q => ∀ n, (next n).Loops D ends Q
  | .go _ next, Q => next.Loops D ends Q
  | .again r, _ => ends r
  | .panic, _ => False

/-- With the right choices the program uses something up before it ends. -/
def Uses (D : Descent σ) : Program σ ρ α → Prop
  | .done _ => False
  | .act _ step next => ∀ s, 0 < D.left s → D.left (step s) < D.left s ∨ (next s).Uses D
  | .choose next => ∃ n, (next n).Uses D
  | .go _ next => next.Uses D
  | .again _ => False
  | .panic => False

variable {D : Descent σ} {ends : ρ → Prop} {Q R : α → Prop}

theorem Loops.bind {p : Program σ ρ α} {k : α → Program σ ρ β} {Q : β → Prop}
    (h : p.Loops D ends fun a => (k a).Loops D ends Q) : (p.bind k).Loops D ends Q := by
  induction p with
  | done a => exact h
  | act ready step next ih => exact ⟨h.1, fun s hs => ⟨(h.2 s hs).1, ih s (h.2 s hs).2⟩⟩
  | choose next ih => exact fun n => ih n (h n)
  | go r next ih => exact ih h
  | again r => exact h
  | panic => exact h

theorem Loops.mono {p : Program σ ρ α} (h : p.Loops D ends Q) (hQR : ∀ a, Q a → R a) :
    p.Loops D ends R := by
  induction p with
  | done a => exact hQR a h
  | act ready step next ih => exact ⟨h.1, fun s hs => ⟨(h.2 s hs).1, ih s (h.2 s hs).2⟩⟩
  | choose next ih => exact fun n => ih n (h n)
  | go r next ih => exact ih h
  | again r => exact h
  | panic => exact h

theorem Loops.atomic {f : σ → α × σ} (hf : ∀ s, D.Rel s (f s).2) (hQ : ∀ s, Q (f s).1) :
    (atomic f : Program σ ρ α).Loops D ends Q :=
  ⟨fun _ _ => rfl, fun s _ => ⟨hf s, hQ s⟩⟩

theorem Loops.await {look : σ → Option α} {step : σ → σ} (hlook : ∀ s, 0 < D.left s → (look s).isSome)
    (hstep : ∀ s, D.Rel s (step s)) (hQ : ∀ s a, look s = some a → Q a) :
    (await look step : Program σ ρ α).Loops D ends Q := by
  refine ⟨hlook, fun s hs => ⟨hstep s, ?_⟩⟩
  obtain ⟨a, ha⟩ := Option.isSome_iff_exists.mp hs
  dsimp only
  rw [ha]
  exact hQ s a ha

end Program

namespace Pool
open Program

def SameBut (k : ℕ) (P P' : Pool σ ρ) : Prop :=
  ∀ i ≠ k, ∀ p, P.threads[i]? = some p → P'.threads[i]? = some p

theorem SameBut.refl (k : ℕ) (P : Pool σ ρ) : SameBut k P P := fun _ _ _ h => h

theorem SameBut.trans {k : ℕ} {P P' P'' : Pool σ ρ} (h : SameBut k P P') (h' : SameBut k P' P'') :
    SameBut k P P'' :=
  fun i hi p hp => h' i hi p (h i hi p hp)

theorem run?_append {E : Setting σ ρ τ} (ms ms' : List (Move τ)) (P : Pool σ ρ) :
    P.run? E (ms ++ ms') = (P.run? E ms).bind (run? E ms') := by
  induction ms generalizing P with
  | nil => rfl
  | cons m ms ih =>
    rw [List.cons_append, run?, run?, Option.bind_assoc]
    exact Option.bind_congr fun P' _ => ih P'

variable {E : Setting σ ρ τ} {D : Descent σ} {ends : ρ → Prop} {k : ℕ} {P P' : Pool σ ρ}

def LoopsAt (D : Descent σ) (ends : ρ → Prop) (k : ℕ) (P : Pool σ ρ) : Prop :=
  ∃ p, P.threads[k]? = some p ∧ p.Loops D ends fun _ => False

theorem getElem?_set_append {γ : Type} {l : List γ} {x : γ} (hx : l[k]? = some x) (i : ℕ) (y : γ)
    (l' : List γ) : (l.set i y ++ l')[k]? = some (if i = k then y else x) := by
  have hk : k < l.length := (List.getElem?_eq_some_iff.mp hx).1
  rw [List.getElem?_append_left (by rwa [List.length_set])]
  split_ifs with hik
  · rw [hik, List.getElem?_set_self hk]
  · rw [List.getElem?_set_ne hik, hx]

theorem step?_loops (hE : ∀ r, ends r → (E.body r).Loops D ends fun _ => False) {m : Move τ}
    (h : P.step? E m = some P') (hk : LoopsAt D ends k P) : LoopsAt D ends k P' := by
  obtain ⟨s, threads, panicked⟩ := P
  obtain ⟨p, hp, hloops⟩ := hk
  dsimp only at hp
  -- what the thread that moves leaves in its place
  have hset : ∀ {i : ℕ} {q : Program σ ρ Unit}, (i = k → q.Loops D ends fun _ => False) → ∀ l,
      ∃ p, (threads.set i q ++ l)[k]? = some p ∧ p.Loops D ends fun _ => False := by
    intro i q hq l
    refine ⟨_, getElem?_set_append hp i q l, ?_⟩
    split_ifs with hik
    · exact hq hik
    · exact hloops
  have hmoves : ∀ {i : ℕ} {q : Program σ ρ Unit}, threads[i]? = some q → i = k →
      q.Loops D ends fun _ => False := by
    rintro i q hq rfl
    cases hp.symm.trans hq
    exact hloops
  cases panicked with
  | true => cases m <;> cases h
  | false =>
    cases m with
    | outside x =>
      cases h
      have hk := (List.getElem?_eq_some_iff.mp hp).1
      exact ⟨p, (List.getElem?_append_left hk).trans hp, hloops⟩
    | thread i n =>
      simp only [Pool.step?] at h
      split at h
      · cases h
      · cases h
      · rename_i ready step next hq
        split_ifs at h with hready
        cases h
        simpa [LoopsAt] using hset (fun hik => ((hmoves hq hik).2 s hready).2) []
      · rename_i next hq
        cases h
        simpa [LoopsAt] using hset (fun hik => hmoves hq hik n) []
      · rename_i r next hq
        cases h
        exact hset (q := next) (fun hik => (hmoves hq hik :)) _
      · rename_i r hq
        cases h
        simpa [LoopsAt] using hset (fun hik => hE r (hmoves hq hik)) []
      · rename_i hq
        cases h
        exact ⟨p, hp, hloops⟩

theorem run?_loops (hE : ∀ r, ends r → (E.body r).Loops D ends fun _ => False) {ms : List (Move τ)}
    (h : P.run? E ms = some P') (hk : LoopsAt D ends k P) : LoopsAt D ends k P' := by
  induction ms generalizing P with
  | nil =>
    cases h
    exact hk
  | cons m ms ih =>
    obtain ⟨P₁, hstep, hrest⟩ := Option.bind_eq_some_iff.mp h
    exact ih hrest (step?_loops hE hstep hk)

/-! ### One thread alone -/

/-- Moves of one thread lead to a state in which no more than that is left, with the other threads where
they were. -/
def Reaches (E : Setting σ ρ τ) (D : Descent σ) (k : ℕ) (P : Pool σ ρ) (most : ℕ) : Prop :=
  ∃ ns : List ℤ, ∃ P', P.run? E (ns.map (.thread k)) = some P' ∧ P'.panicked = false ∧
    D.left P'.shared ≤ most ∧ D.Rel P.shared P'.shared ∧ SameBut k P P'

theorem Reaches.of_step {n : ℤ} {most : ℕ} (hstep : P.step? E (.thread k n) = some P')
    (hrel : D.Rel P.shared P'.shared) (hsame : SameBut k P P') (h : Reaches E D k P' most) :
    Reaches E D k P most := by
  obtain ⟨ns, P'', hrun, hpanic, hleft, hrel', hsame'⟩ := h
  exact ⟨n :: ns, P'', Option.bind_eq_some_iff.mpr ⟨P', hstep, hrun⟩, hpanic, hleft,
    D.trans hrel hrel', hsame.trans hsame'⟩

theorem sameBut_set (s s' : σ) (threads rest : List (Program σ ρ Unit)) (q : Program σ ρ Unit) :
    SameBut k ⟨s, threads, false⟩ ⟨s', threads.set k q ++ rest, false⟩ := by
  intro i hi p hp
  rw [getElem?_set_append hp, if_neg (Ne.symm hi)]

section Alone
variable {s : σ} {threads : List (Program σ ρ Unit)} {p : Program σ ρ Unit}

theorem set_here (hp : threads[k]? = some p) (q : Program σ ρ Unit) (rest : List (Program σ ρ Unit)) :
    (threads.set k q ++ rest)[k]? = some q :=
  (getElem?_set_append hp k q rest).trans (by rw [if_pos rfl])

theorem reaches_act {ready : σ → Bool} {step : σ → σ} {next : σ → Program σ ρ Unit} {most : ℕ}
    (hp : threads[k]? = some (.act ready step next)) (hready : ready s) (hrel : D.Rel s (step s))
    (h : Reaches E D k ⟨step s, threads.set k (next s) ++ [], false⟩ most) :
    Reaches E D k ⟨s, threads, false⟩ most := by
  refine .of_step (n := 0) ?_ hrel (sameBut_set _ _ _ _ _) h
  simp only [Pool.step?, hp, hready, if_true, List.append_nil]

theorem reaches_choose {next : ℤ → Program σ ρ Unit} {most : ℕ} (n : ℤ)
    (hp : threads[k]? = some (.choose next))
    (h : Reaches E D k ⟨s, threads.set k (next n) ++ [], false⟩ most) :
    Reaches E D k ⟨s, threads, false⟩ most := by
  refine .of_step (n := n) ?_ (D.refl s) (sameBut_set _ _ _ _ _) h
  simp only [Pool.step?, hp, List.append_nil]

theorem reaches_go {r : ρ} {next : Program σ ρ Unit} {most : ℕ}
    (hp : threads[k]? = some (.go r next))
    (h : Reaches E D k ⟨s, threads.set k next ++ [E.body r], false⟩ most) :
    Reaches E D k ⟨s, threads, false⟩ most := by
  refine .of_step (n := 0) ?_ (D.refl s) (sameBut_set _ _ _ _ _) h
  simp only [Pool.step?, hp]

theorem reaches_again {r : ρ} {most : ℕ} (hp : threads[k]? = some (.again r))
    (h : Reaches E D k ⟨s, threads.set k (E.body r) ++ [], false⟩ most) :
    Reaches E D k ⟨s, threads, false⟩ most := by
  refine .of_step (n := 0) ?_ (D.refl s) (sameBut_set _ _ _ _ _) h
  simp only [Pool.step?, hp, List.append_nil]

theorem reaches_of_uses (hp : threads[k]? = some p) (hloops : p.Loops D ends fun _ => False)
    (huses : p.Uses D) {n : ℕ} (hleft : D.left s = n + 1) : Reaches E D k ⟨s, threads, false⟩ n := by
  induction p generalizing s threads with
  | done a => cases hloops
  | act ready step next ih =>
    have hpos : 0 < D.left s := by omega
    have hready := hloops.1 s hpos
    obtain ⟨hrel, hnext⟩ := hloops.2 s hready
    refine reaches_act hp hready hrel ?_
    -- the action itself has used something up, or the rest does
    have hle := D.left_le hrel
    rcases Nat.lt_or_ge (D.left (step s)) (D.left s) with hlt | hge
    · exact ⟨[], _, rfl, rfl, by dsimp only; omega, D.refl _, .refl k _⟩
    · rcases huses s hpos with hlt | huses
      · omega
      · exact ih s (set_here hp _ _) hnext huses (by omega)
  | choose next ih =>
    obtain ⟨c, hc⟩ := huses
    exact reaches_choose c hp (ih c (set_here hp _ _) (hloops c) hc hleft)
  | go r next ih => exact reaches_go hp (ih (set_here hp _ _) hloops huses hleft)
  | again r => cases huses
  | panic => cases hloops

/-- From wherever it is, a thread that loops comes round. -/
theorem reaches_of_loops (hE : ∀ r, ends r → (E.body r).Loops D ends fun _ => False)
    (huses : ∀ r, ends r → (E.body r).Uses D) (hp : threads[k]? = some p)
    (hloops : p.Loops D ends fun _ => False) {n : ℕ} (hleft : D.left s = n + 1) :
    Reaches E D k ⟨s, threads, false⟩ n := by
  induction p generalizing s threads with
  | done a => cases hloops
  | act ready step next ih =>
    have hpos : 0 < D.left s := by omega
    have hready := hloops.1 s hpos
    obtain ⟨hrel, hnext⟩ := hloops.2 s hready
    refine reaches_act hp hready hrel ?_
    have hle := D.left_le hrel
    rcases Nat.lt_or_ge (D.left (step s)) (D.left s) with hlt | hge
    · exact ⟨[], _, rfl, rfl, by dsimp only; omega, D.refl _, .refl k _⟩
    · exact ih s (set_here hp _ _) hnext (by omega)
  | choose next ih => exact reaches_choose 0 hp (ih 0 (set_here hp _ _) (hloops 0) hleft)
  | go r next ih => exact reaches_go hp (ih (set_here hp _ _) hloops hleft)
  | again r =>
    exact reaches_again hp (reaches_of_uses (set_here hp _ _) (hE r hloops) (huses r hloops) hleft)
  | panic => cases hloops

end Alone

/-- Wherever a thread that loops is, it can use up all that is left. -/
theorem reaches_zero (hE : ∀ r, ends r → (E.body r).Loops D ends fun _ => False)
    (huses : ∀ r, ends r → (E.body r).Uses D) (hpanic : P.panicked = false)
    (hk : LoopsAt D ends k P) : Reaches E D k P 0 := by
  induction hn : D.left P.shared using Nat.strongRecOn generalizing P with
  | ind n ih =>
    cases n with
    | zero => exact ⟨[], P, rfl, hpanic, Nat.le_of_eq hn, D.refl _, .refl k P⟩
    | succ n =>
      have hone : Reaches E D k P n := by
        obtain ⟨s, threads, panicked⟩ := P
        obtain ⟨p, hp, hloops⟩ := hk
        subst hpanic
        exact reaches_of_loops hE huses hp hloops hn
      obtain ⟨ns, P₁, hrun, hpanic₁, hleft, hrel, hsame⟩ := hone
      obtain ⟨ns', P', hrun', hpanic', hleft', hrel', hsame'⟩ :=
        ih (D.left P₁.shared) (by omega) hpanic₁ (run?_loops hE hrun hk) rfl
      refine ⟨ns ++ ns', P', ?_, hpanic', hleft', D.trans hrel hrel', hsame.trans hsame'⟩
      rw [List.map_append, run?_append, hrun, Option.bind_some, hrun']

end Pool
end DRDS.Concurrency
