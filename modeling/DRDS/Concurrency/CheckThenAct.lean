import Mathlib.Data.List.Nodup
import Mathlib.Logic.Function.Basic
import Mathlib.Logic.Relation

/-! Check-then-act: threads that look for an entry in a shared list and add it, if it was
missing, in a later step. -/
namespace DRDS.Concurrency

/-- The lists by key, and for each thread the entry it found missing and has yet to add. -/
structure CheckThenAct (τ κ α : Type) where
  entries : κ → List α
  missing : τ → Option (κ × α)

namespace CheckThenAct
variable {τ κ α : Type} [DecidableEq τ]

/-- No list repeats an entry, and what a thread has yet to add is missing and its own. -/
structure Exclusive (s : CheckThenAct τ κ α) : Prop where
  nodup : ∀ k, (s.entries k).Nodup
  absent : ∀ {t k a}, s.missing t = some (k, a) → a ∉ s.entries k
  unique : ∀ {t u x}, s.missing t = some x → s.missing u = some x → t = u

theorem Exclusive.check {s : CheckThenAct τ κ α} (hs : Exclusive s) (t : τ) {k : κ} {a : α}
    (absent : a ∉ s.entries k) (alone : ∀ u, s.missing u ≠ some (k, a)) :
    Exclusive { s with missing := Function.update s.missing t (some (k, a)) } := by
  refine ⟨hs.nodup, ?_, ?_⟩
  · intro u k' a' hu
    by_cases hut : u = t
    · subst hut
      simp only [Function.update_self, Option.some.injEq, Prod.mk.injEq] at hu
      obtain ⟨rfl, rfl⟩ := hu
      exact absent
    · exact hs.absent (by simpa [hut] using hu)
  · intro u v x hu hv
    by_cases hut : u = t <;> by_cases hvt : v = t
    · rw [hut, hvt]
    · subst hut
      simp only [Function.update_self, Function.update_of_ne hvt] at hu hv
      exact absurd (hv.trans hu.symm) (alone v)
    · subst hvt
      simp only [Function.update_self, Function.update_of_ne hut] at hu hv
      exact absurd (hu.trans hv.symm) (alone u)
    · exact hs.unique (by simpa [hut] using hu) (by simpa [hvt] using hv)

variable [DecidableEq κ]

theorem Exclusive.act {s : CheckThenAct τ κ α} (hs : Exclusive s) {t : τ} {k : κ} {a : α}
    (pending : s.missing t = some (k, a)) :
    Exclusive ⟨Function.update s.entries k (s.entries k ++ [a]),
      Function.update s.missing t none⟩ := by
  have habsent := hs.absent pending
  have hkeep : ∀ {u x}, Function.update s.missing t none u = some x →
      u ≠ t ∧ s.missing u = some x := by
    intro u x hu
    have hut : u ≠ t := by
      rintro rfl
      simp at hu
    exact ⟨hut, by rwa [Function.update_of_ne hut] at hu⟩
  refine ⟨?_, ?_, ?_⟩
  · intro k'
    by_cases hk : k' = k
    · subst hk
      simpa using (hs.nodup k').concat habsent
    · simpa [hk] using hs.nodup k'
  · intro u k' a' hu
    obtain ⟨hut, hu'⟩ := hkeep hu
    by_cases hk : k' = k
    · subst hk
      -- another thread's entry for the same list is another entry
      have hne : a' ≠ a := by
        rintro rfl
        exact hut (hs.unique hu' pending)
      simpa [hne] using hs.absent hu'
    · simpa [hk] using hs.absent hu'
  · intro u v x hu hv
    exact hs.unique (hkeep hu).2 (hkeep hv).2

/-- A step of one thread. No thread finds missing what another has found missing before it
and not added. -/
inductive Step : CheckThenAct τ κ α → CheckThenAct τ κ α → Prop
  | check {s} (t : τ) (k : κ) (a : α) (absent : a ∉ s.entries k) (idle : s.missing t = none)
      (alone : ∀ u, s.missing u ≠ some (k, a)) :
      Step s { s with missing := Function.update s.missing t (some (k, a)) }
  | act {s} (t : τ) (k : κ) (a : α) (pending : s.missing t = some (k, a)) :
      Step s ⟨Function.update s.entries k (s.entries k ++ [a]), Function.update s.missing t none⟩

theorem Exclusive.step {s s' : CheckThenAct τ κ α} (hs : Exclusive s) (h : Step s s') :
    Exclusive s' := by
  cases h with
  | check t k a absent idle alone => exact hs.check t absent alone
  | act t k a pending => exact hs.act pending

/-- In a run whose checks stand alone the lists never repeat an entry. -/
theorem Exclusive.run {s s' : CheckThenAct τ κ α} (hs : Exclusive s)
    (h : Relation.ReflTransGen Step s s') : Exclusive s' := by
  induction h with
  | refl => exact hs
  | tail _ hstep ih => exact ih.step hstep

end CheckThenAct
end DRDS.Concurrency
