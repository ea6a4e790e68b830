import Mathlib.Logic.Function.Basic
import Mathlib.Tactic.SplitIfs

/-! Loops over elements with keys: assignments to a map, where the last element of a key counts,
and inserts under a primary key, where the first does. -/
namespace DRDS.Go

variable {α β κ κ' ν : Type*} [DecidableEq κ] [DecidableEq κ']

/-- `for _, a := range l { f[key(a)] = val(a) }` -/
def assign (key : α → κ) (val : α → ν) (f : κ → ν) (l : List α) : κ → ν :=
  l.foldl (fun f a => Function.update f (key a) (val a)) f

def lastWith (key : α → κ) (l : List α) (k : κ) : Option α := l.findRev? fun a => key a = k

/-- An insert into a table with a primary key. -/
def insertNew (key : α → κ) (l : List α) (a : α) : List α :=
  if ∃ b ∈ l, key b = key a then l else l ++ [a]

/-! ### The last element of a key -/

@[simp] theorem lastWith_nil (key : α → κ) (k : κ) : lastWith key [] k = none := rfl

theorem lastWith_cons (key : α → κ) (a : α) (l : List α) (k : κ) :
    lastWith key (a :: l) k = (lastWith key l k).or (if key a = k then some a else none) := by
  unfold lastWith
  rw [List.findRev?]
  cases List.findRev? (fun a => key a = k) l with
  | none =>
    rw [Option.none_or]
    by_cases h : key a = k <;> simp [h]
  | some b => rfl

theorem lastWith_append (key : α → κ) (l₁ l₂ : List α) (k : κ) :
    lastWith key (l₁ ++ l₂) k = (lastWith key l₂ k).or (lastWith key l₁ k) := by
  induction l₁ with
  | nil => simp
  | cons a l₁ ih => rw [List.cons_append, lastWith_cons, lastWith_cons, ih, Option.or_assoc]

theorem key_of_lastWith {key : α → κ} {l : List α} {k : κ} {a : α}
    (h : lastWith key l k = some a) : key a = k := by
  rw [lastWith, List.findRev?_eq_find?_reverse] at h
  simpa using List.find?_some h

theorem mem_of_lastWith {key : α → κ} {l : List α} {k : κ} {a : α}
    (h : lastWith key l k = some a) : a ∈ l := by
  rw [lastWith, List.findRev?_eq_find?_reverse] at h
  exact List.mem_reverse.mp (List.mem_of_find?_eq_some h)

theorem lastWith_eq_none {key : α → κ} {l : List α} {k : κ} :
    lastWith key l k = none ↔ ∀ a ∈ l, key a ≠ k := by
  induction l with
  | nil => simp
  | cons a l ih => simp [lastWith_cons, ih, and_comm]

theorem assign_apply (key : α → κ) (val : α → ν) (f : κ → ν) (l : List α) (k : κ) :
    assign key val f l k = ((lastWith key l k).map val).getD (f k) := by
  unfold assign
  induction l generalizing f with
  | nil => rfl
  | cons a l ih =>
    rw [List.foldl_cons, ih, lastWith_cons]
    cases lastWith key l k with
    | some b => rfl
    | none =>
      by_cases h : key a = k
      · subst h
        simp
      · simp [h, Function.update_of_ne (Ne.symm h)]

/-! ### The first element of a key -/

/-- Reads by another key: what is in the table with the primary key stays, else the first insert of
it counts, and comes last. -/
theorem lastWith_foldl_insertNew {key : α → κ} {key' : α → κ'} {l : List α} {c : κ} {k : κ'}
    (hkey : ∀ a ∈ l, key' a = k ↔ key a = c) (l₀ : List α) :
    lastWith key' (l.foldl (insertNew key) l₀) k =
      (if ∃ b ∈ l₀, key b = c then none else l.find? fun a => key a = c).or
        (lastWith key' l₀ k) := by
  induction l generalizing l₀ with
  | nil => simp
  | cons a l ih =>
    rw [List.forall_mem_cons] at hkey
    rw [List.foldl_cons, ih hkey.2, List.find?_cons, insertNew]
    by_cases hold : ∃ b ∈ l₀, key b = key a
    · rw [if_pos hold]
      by_cases ha : key a = c
      · rw [ha] at hold
        rw [if_pos hold, if_pos hold]
      · simp [ha]
    · rw [if_neg hold, lastWith_append, lastWith_cons, lastWith_nil, Option.none_or]
      by_cases ha : key a = c
      · rw [ha] at hold
        simp [hold, ha, hkey.1.mpr ha]
      · have ha' : key' a ≠ k := fun h => ha (hkey.1.mp h)
        simp [ha, ha']

/-- The first element that is found is the same in any order, as far as the elements found agree. -/
theorem find?_map_congr {p : α → Bool} {f : α → β} {l l' : List α}
    (hmem : ∀ a, a ∈ l ↔ a ∈ l') (hf : ∀ a ∈ l, ∀ b ∈ l, p a → p b → f a = f b) :
    (l.find? p).map f = (l'.find? p).map f := by
  cases hfind : l.find? p with
  | none =>
    have hnone : l'.find? p = none :=
      List.find?_eq_none.mpr fun a ha => List.find?_eq_none.mp hfind a ((hmem a).mpr ha)
    rw [hnone]
  | some a =>
    cases hfind' : l'.find? p with
    | none =>
      have ha := (hmem a).mp (List.mem_of_find?_eq_some hfind)
      exact absurd (List.find?_some hfind) (List.find?_eq_none.mp hfind' a ha)
    | some b =>
      have hb := (hmem b).mpr (List.mem_of_find?_eq_some hfind')
      exact congrArg some (hf a (List.mem_of_find?_eq_some hfind) b hb (List.find?_some hfind)
        (List.find?_some hfind'))

end DRDS.Go
