import DRDS.Concurrency.Program
import Mathlib.Logic.Function.Basic

/-! Pools side by side that take in what others have put out, and the rule by which each may rely on what
all of them guarantee. -/
namespace DRDS.Concurrency

/-- A pool makes a move of its own, or the `n`-th message of one is passed to another. -/
inductive NetMove (ι τ : Type) where
  | own (i : ι) (m : Move τ)
  | pass (i : ι) (n : ℕ) (j : ι)

/-- The setting of each pool, and the messages a state has put out so far. As none is taken back, a
message may be passed on late, out of order, more than once or never. -/
structure Network (ι σ ρ τ : Type) where
  setting : ι → Setting σ ρ τ
  emitted : σ → List τ

namespace Network
variable {ι σ ρ τ : Type} [DecidableEq ι]

def step? (W : Network ι σ ρ τ) : NetMove ι τ → (ι → Pool σ ρ) → Option (ι → Pool σ ρ)
  | .own i m, N => ((N i).step? (W.setting i) m).map (Function.update N i)
  | .pass i n j, N => do
    let x ← (W.emitted (N i).shared)[n]?
    ((N j).step? (W.setting j) (.outside x)).map (Function.update N j)

def run? (W : Network ι σ ρ τ) : List (NetMove ι τ) → (ι → Pool σ ρ) → Option (ι → Pool σ ρ)
  | [], N => some N
  | m :: ms, N => (W.step? m N).bind (run? W ms)

/-- Each pool keeps its contract as far as what it takes in is admitted, and as long as it does, all it puts
out is admitted. -/
structure Keeps (W : Network ι σ ρ τ) (C : ι → Contract σ ρ) (admits : τ → Prop) : Prop where
  pool : ∀ i, (C i).Keeps (W.setting i) admits
  emitted : ∀ i s, (C i).Inv s → ∀ x ∈ W.emitted s, admits x

variable {W : Network ι σ ρ τ} {C : ι → Contract σ ρ} {admits : τ → Prop} {N N' : ι → Pool σ ρ}

theorem Keeps.update (hW : W.Keeps C admits) (hN : ∀ i, (C i).Holds (N i)) {j : ι} {m : Move τ}
    (hm : ∀ x, m = .outside x → admits x) {P : Pool σ ρ}
    (h : (N j).step? (W.setting j) m = some P) (i : ι) : (C i).Holds (Function.update N j P i) := by
  by_cases hij : i = j
  · subst hij
    rw [Function.update_self]
    exact ((hW.pool i).step? hm (hN i) h).1
  · rw [Function.update_of_ne hij]
    exact hN i

theorem Keeps.step? (hW : W.Keeps C admits) {m : NetMove ι τ}
    (hm : ∀ i x, m = .own i (.outside x) → admits x) (hN : ∀ i, (C i).Holds (N i))
    (h : W.step? m N = some N') : ∀ i, (C i).Holds (N' i) := by
  cases m with
  | own j m =>
    obtain ⟨P, hP, rfl⟩ := Option.map_eq_some_iff.mp h
    exact hW.update hN (fun x hx => hm j x (hx ▸ rfl)) hP
  | pass k n j =>
    obtain ⟨x, hx, hstep⟩ := Option.bind_eq_some_iff.mp h
    obtain ⟨P, hP, rfl⟩ := Option.map_eq_some_iff.mp hstep
    -- what is passed on is admitted since the pool that has put it out keeps its contract
    have hadmits : admits x := hW.emitted k _ (hN k).inv x (List.mem_of_getElem? hx)
    refine hW.update hN (fun y hy => ?_) hP
    cases hy
    exact hadmits

/-- If all that comes from outside the network is admitted, all pools keep their contracts. -/
theorem Keeps.run? (hW : W.Keeps C admits) {ms : List (NetMove ι τ)}
    (hms : ∀ i x, .own i (.outside x) ∈ ms → admits x) (hN : ∀ i, (C i).Holds (N i))
    (h : W.run? ms N = some N') : ∀ i, (C i).Holds (N' i) := by
  induction ms generalizing N with
  | nil =>
    cases h
    exact hN
  | cons m ms ih =>
    obtain ⟨N₁, hstep, hrest⟩ := Option.bind_eq_some_iff.mp h
    have hN₁ := hW.step? (fun i x hx => hms i x (hx ▸ List.mem_cons_self)) hN hstep
    exact ih (fun i x hx => hms i x (List.mem_cons_of_mem m hx)) hN₁ hrest

end Network
end DRDS.Concurrency
