import DRDS.Concurrency.Program
import Mathlib.Algebra.BigOperators.Group.List.Basic
import Mathlib.Algebra.GroupWithZero.Nat

/-! Credits: every routine starts with what it is still to add, and pays with it for what it adds, so under
every schedule a pool holds no more than it has been given; and no less, if nothing may be dropped. -/
namespace DRDS.Concurrency
open Program
variable {σ ρ τ α β : Type}

/-- What a state holds, what it has been given so far, and what a routine adds from its start on. `Ok` is
what is known of all states and `Pre` what a routine is started for. Nothing may be dropped if the account is
`strict`. -/
structure Account (σ ρ : Type) where
  held : σ → ℕ
  given : σ → ℕ
  credit : ρ → ℕ
  Ok : σ → Prop
  Pre : ρ → Prop
  strict : Prop

namespace Pool

def Always (E : Setting σ ρ τ) (I : σ → Prop) : List (Move τ) → Pool σ ρ → Prop
  | [], P => I P.shared
  | x :: xs, P => I P.shared ∧ ∀ P', P.step? E x = some P' → P'.Always E I xs

theorem Always.head {E : Setting σ ρ τ} {I : σ → Prop} {xs : List (Move τ)} {P : Pool σ ρ}
    (h : P.Always E I xs) : I P.shared := by
  cases xs with
  | nil => exact h
  | cons x xs => exact h.1

theorem Always.last {E : Setting σ ρ τ} {I : σ → Prop} {xs : List (Move τ)} {P P' : Pool σ ρ}
    (h : P.Always E I xs) (hrun : P.run? E xs = some P') : I P'.shared := by
  induction xs generalizing P with
  | nil =>
    cases hrun
    exact h
  | cons x xs ih =>
    obtain ⟨P₁, hstep, hrest⟩ := Option.bind_eq_some_iff.mp hrun
    exact ih (h.2 P₁ hstep) hrest

instance Always.decidable (E : Setting σ ρ τ) (I : σ → Prop) [DecidablePred I] :
    ∀ (xs : List (Move τ)) (P : Pool σ ρ), Decidable (P.Always E I xs)
  | [], P => inferInstanceAs (Decidable (I P.shared))
  | x :: xs, P =>
    match h : P.step? E x with
    | none => decidable_of_iff (I P.shared) ⟨fun hI => ⟨hI, fun P' hP' => by
        rw [h] at hP'
        cases hP'⟩, And.left⟩
    | some P₁ =>
      haveI := Always.decidable E I xs P₁
      decidable_of_iff (I P.shared ∧ P₁.Always E I xs) ⟨fun hI => ⟨hI.1, fun P' hP' => by
        rw [h] at hP'
        cases hP'
        exact hI.2⟩, fun hI => ⟨hI.1, hI.2 P₁ h⟩⟩

theorem always_of_forall {E : Setting σ ρ τ} {I : σ → Prop} (h : ∀ s, I s) (xs : List (Move τ))
    (P : Pool σ ρ) : P.Always E I xs := by
  induction xs generalizing P with
  | nil => exact h P.shared
  | cons x xs ih => exact ⟨h P.shared, fun P' _ => ih P'⟩

end Pool

namespace Account

def Leaves (A : Account σ ρ) (n m : ℕ) : Prop := m ≤ n ∧ (A.strict → n = m)

/-- With this credit the program pays for all it does, and `Q` holds of what it returns and what is left
of the credit. -/
def Pays (A : Account σ ρ) : Program σ ρ α → ℕ → (α → ℕ → Prop) → Prop
  | .done a, n, Q => ∃ m, A.Leaves n m ∧ Q a m
  | .act ready step next, n, Q => ∀ s, A.Ok s → ready s → ∃ m, A.Pays (next s) m Q ∧
    A.Leaves (A.held s + n + A.given (step s)) (A.held (step s) + m + A.given s)
  | .choose next, n, Q => ∀ c, A.Pays (next c) n Q
  | .go r next, n, Q => A.Pre r ∧ ∃ m, A.Pays next m Q ∧ A.Leaves n (A.credit r + m)
  | .again r, n, _ => A.Pre r ∧ A.Leaves n (A.credit r)
  | .panic, _, _ => True

/-- The program takes so much of any credit. -/
def Takes (A : Account σ ρ) (p : Program σ ρ α) (c : ℕ) (R : α → Prop) : Prop :=
  ∀ n, A.Pays p (c + n) fun a m => m = n ∧ R a

variable {A : Account σ ρ} {Q Q' : α → ℕ → Prop} {R R' : α → Prop} {c d m n k : ℕ}

theorem Leaves.refl (n : ℕ) : A.Leaves n n := ⟨Nat.le_refl n, fun _ => rfl⟩

theorem Leaves.of_eq (h : n = m) : A.Leaves n m := ⟨Nat.le_of_eq h.symm, fun _ => h⟩

theorem Leaves.of_le (h : m ≤ n) (hs : A.strict → n = m) : A.Leaves n m := ⟨h, hs⟩

theorem Leaves.add_right (h : A.Leaves n m) (k : ℕ) : A.Leaves (n + k) (m + k) :=
  ⟨Nat.add_le_add_right h.1 k, fun hs => by rw [h.2 hs]⟩

theorem Leaves.trans (h : A.Leaves n m) (h' : A.Leaves m k) : A.Leaves n k :=
  ⟨Nat.le_trans h'.1 h.1, fun hs => (h.2 hs).trans (h'.2 hs)⟩

/-- The credit that is not needed is dropped where it may be. -/
theorem Pays.of_leaves {p : Program σ ρ α} (h : A.Pays p m Q) (hnm : A.Leaves n m) : A.Pays p n Q := by
  induction p generalizing m n with
  | done a =>
    obtain ⟨l, hl, hQ⟩ := h
    exact ⟨l, hnm.trans hl, hQ⟩
  | act ready step next ih =>
    intro s hok hs
    obtain ⟨l, hnext, hle, hstrict⟩ := h s hok hs
    refine ⟨l, hnext, by have := hnm.1; omega, fun hA => ?_⟩
    have hn := hnm.2 hA
    have hl := hstrict hA
    omega
  | choose next ih => exact fun c => ih c (h c) hnm
  | go r next ih =>
    obtain ⟨hpre, l, hnext, hl⟩ := h
    exact ⟨hpre, l, hnext, hnm.trans hl⟩
  | again r => exact ⟨h.1, hnm.trans h.2⟩
  | panic => trivial

theorem Pays.mono {p : Program σ ρ α} (h : A.Pays p n Q) (hQ : ∀ a m, Q a m → Q' a m) :
    A.Pays p n Q' := by
  induction p generalizing n with
  | done a =>
    obtain ⟨l, hl, hQa⟩ := h
    exact ⟨l, hl, hQ a l hQa⟩
  | act ready step next ih =>
    intro s hok hs
    obtain ⟨l, hnext, hl⟩ := h s hok hs
    exact ⟨l, ih s hnext, hl⟩
  | choose next ih => exact fun c => ih c (h c)
  | go r next ih =>
    obtain ⟨hpre, l, hnext, hl⟩ := h
    exact ⟨hpre, l, ih hnext, hl⟩
  | again r => exact h
  | panic => trivial

theorem Pays.bind {p : Program σ ρ α} {k : α → Program σ ρ β} {Q : β → ℕ → Prop}
    (h : A.Pays p n fun a m => A.Pays (k a) m Q) : A.Pays (p.bind k) n Q := by
  induction p generalizing n with
  | done a =>
    obtain ⟨l, hl, hk⟩ := h
    exact hk.of_leaves hl
  | act ready step next ih =>
    intro s hok hs
    obtain ⟨l, hnext, hl⟩ := h s hok hs
    exact ⟨l, ih s hnext, hl⟩
  | choose next ih => exact fun c => ih c (h c)
  | go r next ih =>
    obtain ⟨hpre, l, hnext, hl⟩ := h
    exact ⟨hpre, l, ih hnext, hl⟩
  | again r => exact h
  | panic => trivial

/-- What is taken out of the state may pay for what comes after. -/
theorem Pays.await_bind {look : σ → Option α} {step : σ → σ} {k : α → Program σ ρ β}
    {Q : β → ℕ → Prop} (h : ∀ s a, A.Ok s → look s = some a → ∃ m, A.Pays (k a) m Q ∧
      A.Leaves (A.held s + n + A.given (step s)) (A.held (step s) + m + A.given s)) :
    A.Pays ((await look step).bind k) n Q := by
  intro s hok hs
  obtain ⟨a, ha⟩ := Option.isSome_iff_exists.mp hs
  obtain ⟨m, hm, hleaves⟩ := h s a hok ha
  refine ⟨m, ?_, hleaves⟩
  dsimp only
  rw [ha]
  exact hm

theorem Pays.of_await_bind {look : σ → Option α} {step : σ → σ} {k : α → Program σ ρ β}
    {Q : β → ℕ → Prop} (h : A.Pays ((await look step).bind k) n Q) {s : σ} {a : α} (hok : A.Ok s)
    (ha : look s = some a) : ∃ m, A.Pays (k a) m Q ∧
      A.Leaves (A.held s + n + A.given (step s)) (A.held (step s) + m + A.given s) := by
  obtain ⟨m, hm, hleaves⟩ := h s hok (Option.isSome_iff_exists.mpr ⟨a, ha⟩)
  dsimp only at hm
  rw [ha] at hm
  exact ⟨m, hm, hleaves⟩

/-! ### Parts of programs -/

theorem Takes.done {a : α} (hR : R a) (hc : A.strict → c = 0) : A.Takes (.done a) c R :=
  fun n => ⟨n, ⟨Nat.le_add_left n c, fun hs => by rw [hc hs, Nat.zero_add]⟩, rfl, hR⟩

theorem Takes.panic : A.Takes (.panic : Program σ ρ α) c R := fun _ => trivial

theorem Takes.mono {p : Program σ ρ α} (h : A.Takes p c R) (hR : ∀ a, R a → R' a) : A.Takes p c R' :=
  fun n => (h n).mono fun a _ ha => ⟨ha.1, hR a ha.2⟩

theorem Takes.of_leaves {p : Program σ ρ α} (h : A.Takes p d R) (hcd : A.Leaves c d) : A.Takes p c R :=
  fun n => (h n).of_leaves ⟨Nat.add_le_add_right hcd.1 n, fun hs => by rw [hcd.2 hs]⟩

theorem Takes.pays {p : Program σ ρ α} {k : α → Program σ ρ β} {Q : β → ℕ → Prop} (hp : A.Takes p c R)
    (hk : ∀ a, R a → A.Pays (k a) n Q) : A.Pays (p.bind k) (c + n) Q :=
  .bind ((hp n).mono fun a _ ha => ha.1 ▸ hk a ha.2)

theorem Takes.seq {p : Program σ ρ α} {k : α → Program σ ρ β} {R' : β → Prop} (hp : A.Takes p c R)
    (hk : ∀ a, R a → A.Takes (k a) d R') : A.Takes (p.bind k) (c + d) R' :=
  fun n => Nat.add_assoc c d n ▸ hp.pays fun a ha => hk a ha n

theorem Takes.free {p : Program σ ρ α} {k : α → Program σ ρ β} {R' : β → Prop} (hp : A.Takes p 0 R)
    (hk : ∀ a, R a → A.Takes (k a) d R') : A.Takes (p.bind k) d R' :=
  Nat.zero_add d ▸ hp.seq hk

theorem Takes.atomic {f : σ → α × σ}
    (hf : ∀ s, A.Ok s → A.Leaves (A.held s + c + A.given (f s).2) (A.held (f s).2 + A.given s))
    (hR : ∀ s, A.Ok s → R (f s).1) : A.Takes (atomic f) c R := by
  refine fun n s hok _ => ⟨n, ⟨n, .refl n, rfl, hR s hok⟩, ?_⟩
  obtain ⟨hle, hstrict⟩ := hf s hok
  exact ⟨by dsimp only; omega, fun hs => by have := hstrict hs; dsimp only; omega⟩

theorem Takes.await {look : σ → Option α} {step : σ → σ} (h : ∀ s a, A.Ok s → look s = some a →
      R a ∧ A.Leaves (A.held s + c + A.given (step s)) (A.held (step s) + A.given s)) :
    A.Takes (await look step) c R := by
  intro n s hok hs
  obtain ⟨a, ha⟩ := Option.isSome_iff_exists.mp hs
  obtain ⟨hR, hle, hstrict⟩ := h s a hok ha
  refine ⟨n, ?_, by omega, fun hA => by have := hstrict hA; omega⟩
  dsimp only
  rw [ha]
  exact ⟨n, .refl n, rfl, hR⟩

theorem Takes.start {r : ρ} {p : Program σ ρ α} (hpre : A.Pre r) (hp : A.Takes p c R) :
    A.Takes (.go r p) (A.credit r + c) R :=
  fun n => ⟨hpre, c + n, hp n, Nat.add_assoc (A.credit r) c n ▸ .refl _⟩

theorem Takes.startAll {rs : List ρ} {R : Unit → Prop} (hpre : ∀ r ∈ rs, A.Pre r) (hR : R ()) :
    A.Takes (startAll rs) (rs.map A.credit).sum R := by
  induction rs with
  | nil => exact .done hR fun _ => rfl
  | cons r rs ih =>
    rw [List.forall_mem_cons] at hpre
    rw [List.map_cons, List.sum_cons]
    exact .start hpre.1 (ih hpre.2)

/-! ### Pools that pay -/

/-- The credit of the threads, each of which has none left at its end. -/
def Covers (A : Account σ ρ) : ℕ → List (Program σ ρ Unit) → Prop
  | n, [] => A.Leaves n 0
  | n, p :: threads => ∃ m k, A.Pays p m (fun _ l => A.Leaves l 0) ∧ A.Covers k threads ∧
    A.Leaves n (m + k)

theorem Covers.of_leaves {threads : List (Program σ ρ Unit)} (h : A.Covers m threads)
    (hnm : A.Leaves n m) : A.Covers n threads := by
  cases threads with
  | nil => exact hnm.trans h
  | cons p threads =>
    obtain ⟨a, b, hp, hrest, hleaves⟩ := h
    exact ⟨a, b, hp, hrest, hnm.trans hleaves⟩

theorem Covers.append {ps qs : List (Program σ ρ Unit)} (hps : A.Covers m ps) (hqs : A.Covers n qs) :
    A.Covers (m + n) (ps ++ qs) := by
  induction ps generalizing m with
  | nil => exact hqs.of_leaves ⟨Nat.le_add_left n m, fun hs => by rw [hps.2 hs, Nat.zero_add]⟩
  | cons p ps ih =>
    obtain ⟨a, b, hp, hrest, hleaves⟩ := hps
    refine ⟨a, b + n, hp, ih hrest, ?_⟩
    rw [← Nat.add_assoc]
    exact hleaves.add_right n

/-- The credit of one thread may be given to another program in its place. -/
theorem Covers.of_getElem? {threads : List (Program σ ρ Unit)} {i : ℕ} {p : Program σ ρ Unit}
    (h : A.Covers n threads) (hp : threads[i]? = some p) :
    ∃ m k, A.Pays p m (fun _ l => A.Leaves l 0) ∧ A.Leaves n (m + k) ∧
      ∀ q c, A.Pays q c (fun _ l => A.Leaves l 0) → A.Covers (c + k) (threads.set i q) := by
  induction threads generalizing i n with
  | nil => cases hp
  | cons p' threads ih =>
    obtain ⟨a, b, hp', hrest, hleaves⟩ := h
    cases i with
    | zero =>
      obtain rfl : p' = p := Option.some.inj hp
      exact ⟨a, b, hp', hleaves, fun q c hq => ⟨c, b, hq, hrest, .refl _⟩⟩
    | succ i =>
      obtain ⟨m, k, hm, hmk, hset⟩ := ih hrest hp
      refine ⟨m, a + k, hm, hleaves.trans ?_, fun q c hq => ?_⟩
      · exact .of_le (by have := hmk.1; omega) fun hs => by have := hmk.2 hs; omega
      · exact ⟨a, c + k, hp', hset q c hq, .of_eq (by omega)⟩

/-- All programs pay with the credit they start with, and the outside gives what it adds. -/
structure Keeps (A : Account σ ρ) (E : Setting σ ρ τ) : Prop where
  body : ∀ r, A.Pre r → A.Pays (E.body r) (A.credit r) fun _ l => A.Leaves l 0
  outside : ∀ x s, A.Ok s → A.Ok (E.outside x s).1 → (∀ r ∈ (E.outside x s).2, A.Pre r) ∧
    A.Leaves (A.held s + A.given (E.outside x s).1)
      (A.held (E.outside x s).1 + ((E.outside x s).2.map A.credit).sum + A.given s)

/-- What the state holds and the credit of the threads have been given. -/
def Balanced (A : Account σ ρ) (P : Pool σ ρ) : Prop :=
  ∃ n, A.Covers n P.threads ∧ A.Leaves (A.given P.shared) (A.held P.shared + n)

variable {E : Setting σ ρ τ} {P P' : Pool σ ρ}

theorem Keeps.covers (hE : A.Keeps E) {rs : List ρ} (hrs : ∀ r ∈ rs, A.Pre r) :
    A.Covers (rs.map A.credit).sum (rs.map E.body) := by
  induction rs with
  | nil => exact .refl 0
  | cons r rs ih =>
    rw [List.forall_mem_cons] at hrs
    exact ⟨_, _, hE.body r hrs.1, ih hrs.2, .of_eq List.sum_cons⟩

theorem Balanced.of_set {s s' : σ} {threads : List (Program σ ρ Unit)} {q : Program σ ρ Unit}
    {i b : ℕ} (hset : ∀ q c, A.Pays q c (fun _ l => A.Leaves l 0) → A.Covers (c + k) (threads.set i q))
    (hn : A.Leaves (A.given s) (A.held s + n)) (hmk : A.Leaves n (m + k))
    (hq : A.Pays q b fun _ l => A.Leaves l 0)
    (hpaid : A.Leaves (A.held s + m + A.given s') (A.held s' + b + A.given s)) :
    A.Balanced ⟨s', threads.set i q, false⟩ := by
  refine ⟨b + k, hset q b hq, ?_, fun hs => ?_⟩
  · have := hn.1
    have := hmk.1
    have := hpaid.1
    dsimp only
    omega
  · have := hn.2 hs
    have := hmk.2 hs
    have := hpaid.2 hs
    dsimp only
    omega

theorem Keeps.step? (hE : A.Keeps E) {x : Move τ} (hok : A.Ok P.shared) (hP : A.Balanced P)
    (h : P.step? E x = some P') (hok' : A.Ok P'.shared) : A.Balanced P' := by
  obtain ⟨s, threads, panicked⟩ := P
  obtain ⟨n, hcovers, hn⟩ := hP
  dsimp only at hcovers hn hok
  cases panicked with
  | true => cases x <;> cases h
  | false =>
    cases x with
    | outside x =>
      cases h
      obtain ⟨hpre, hle, hstrict⟩ := hE.outside x s hok hok'
      refine ⟨n + ((E.outside x s).2.map A.credit).sum, hcovers.append (hE.covers hpre), ?_⟩
      change A.Leaves (A.given (E.outside x s).1) (A.held (E.outside x s).1 + _)
      refine ⟨?_, fun hs => ?_⟩
      · have := hn.1
        omega
      · have := hn.2 hs
        have := hstrict hs
        omega
    | thread i c =>
      simp only [Pool.step?] at h
      split at h
      · cases h
      · cases h
      · rename_i ready step next hp
        split_ifs at h with hready
        cases h
        obtain ⟨m, k, hm, hmk, hset⟩ := hcovers.of_getElem? hp
        obtain ⟨b, hnext, hpaid⟩ := hm s hok hready
        exact .of_set hset hn hmk hnext hpaid
      · rename_i next hp
        cases h
        obtain ⟨m, k, hm, hmk, hset⟩ := hcovers.of_getElem? hp
        exact .of_set hset hn hmk (hm c) (.refl _)
      · rename_i r next hp
        cases h
        obtain ⟨m, k, hm, hmk, hset⟩ := hcovers.of_getElem? hp
        obtain ⟨hpre, b, hnext, hpaid⟩ := hm
        -- the routine is started with a part of the credit
        refine ⟨_, (hset _ b hnext).append (hE.covers (List.forall_mem_singleton.mpr hpre)), ?_,
          fun hs => ?_⟩
        · have := hn.1
          have := hmk.1
          have := hpaid.1
          simp only [List.map_cons, List.map_nil, List.sum_singleton]
          omega
        · have := hn.2 hs
          have := hmk.2 hs
          have := hpaid.2 hs
          simp only [List.map_cons, List.map_nil, List.sum_singleton]
          omega
      · rename_i r hp
        cases h
        obtain ⟨m, k, hm, hmk, hset⟩ := hcovers.of_getElem? hp
        obtain ⟨hpre, hle, hstrict⟩ := hm
        exact .of_set hset hn hmk (hE.body r hpre) (.of_le (by omega) fun hs => by rw [hstrict hs])
      · cases h
        exact ⟨n, hcovers, hn⟩

/-- Under every schedule a pool keeps its balance. -/
theorem Keeps.run? (hE : A.Keeps E) {xs : List (Move τ)} (hP : A.Balanced P)
    (hok : P.Always E A.Ok xs) (h : P.run? E xs = some P') : A.Balanced P' := by
  induction xs generalizing P with
  | nil =>
    cases h
    exact hP
  | cons x xs ih =>
    obtain ⟨P₁, hstep, hrest⟩ := Option.bind_eq_some_iff.mp h
    exact ih (hE.step? hok.1 hP hstep (hok.2 P₁ hstep).head) (hok.2 P₁ hstep) hrest

end Account
end DRDS.Concurrency
