import Mathlib.Data.List.Basic

/-! A reader that keeps only how far it has read: a read takes what a growing list holds between
the last bound and the next. -/
namespace DRDS.Concurrency
open Std

variable {α T : Type} [LE T] [LT T] [DecidableLE T] [DecidableLT T] (key : α → T)

def between (start stop : T) (rows : List α) : List α :=
  rows.filter fun r => start ≤ key r ∧ key r < stop

variable {key} {start low high : T} {rows : List α}

/-- What was taken is what the list holds below the bound, each element as often. -/
def Covers (key : α → T) (start low : T) (taken rows : List α) : Prop :=
  taken.Perm (between key start low rows)

/-- The list grows by elements that the reads so far did not have to take. -/
theorem Covers.append {taken new : List α} (h : Covers key start low taken rows)
    (hnew : ∀ r ∈ new, ¬ (start ≤ key r ∧ key r < low)) :
    Covers key start low taken (rows ++ new) := by
  have hnone : between key start low new = [] := by
    simp only [between, List.filter_eq_nil_iff, decide_eq_true_eq]
    exact hnew
  have happend : between key start low (rows ++ new) = between key start low rows := by
    rw [between, List.filter_append]
    exact (congrArg (between key start low rows ++ ·) hnone).trans (List.append_nil _)
  unfold Covers
  rwa [happend]

variable [IsLinearOrder T] [LawfulOrderLT T]

theorem between_append_perm (hstart : start ≤ low) (hlow : low ≤ high) (rows : List α) :
    (between key start low rows ++ between key low high rows).Perm
      (between key start high rows) := by
  have hbelow : (between key start high rows).filter (fun r => key r < low) =
      between key start low rows := by
    rw [between, between, List.filter_filter]
    apply List.filter_congr
    intro r _
    have hhigh : key r < low → key r < high := fun h => lt_of_lt_of_le h hlow
    grind
  have habove : (between key start high rows).filter (fun r => !decide (key r < low)) =
      between key low high rows := by
    rw [between, between, List.filter_filter]
    apply List.filter_congr
    intro r _
    have hle : ¬ key r < low ↔ low ≤ key r := not_lt
    have hge : low ≤ key r → start ≤ key r := fun h => le_trans hstart h
    grind
  rw [← hbelow, ← habove]
  exact List.filter_append_perm _ _

theorem between_self (start : T) (rows : List α) : between key start start rows = [] := by
  simp only [between, List.filter_eq_nil_iff, decide_eq_true_eq, not_and]
  intro r _ hle
  exact not_lt.mpr hle

theorem Covers.nil (start : T) (rows : List α) : Covers key start start [] rows := by
  unfold Covers
  rw [between_self]

theorem Covers.read {taken : List α} (h : Covers key start low taken rows) (hstart : start ≤ low)
    (hlow : low ≤ high) : Covers key start high (taken ++ between key low high rows) rows :=
  (List.Perm.append_right _ h).trans (between_append_perm hstart hlow rows)

end DRDS.Concurrency
