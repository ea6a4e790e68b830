import Mathlib.Data.List.Induction
import Mathlib.Data.Nat.ModEq

/-! Numbers handed out by a shared counter. A number taken may go unused, and the counter may
be advanced without a number being taken. -/
namespace DRDS.Concurrency

/-- A number taken, how often the counter had skipped one before, and whether it was used. -/
structure Ticket where
  number : ℕ
  skips : ℕ
  used : Bool

namespace Ticket

/-- The numbers are those of a counter that starts at 0, in the order they were taken. -/
def Counted (ts : List Ticket) : Prop :=
  ∀ (k : ℕ) (t : Ticket), ts[k]? = some t → t.number = k + t.skips

def lost (ts : List Ticket) : ℕ := ts.countP fun t => !t.used

def usedNumbers (ts : List Ticket) : List ℕ := (ts.filter used).map number

/-- The numbers used count from 0 modulo `m`. -/
def Consecutive (m : ℕ) (ts : List Ticket) : Prop :=
  (usedNumbers ts).map (· % m) = (List.range (usedNumbers ts).length).map (· % m)

/-- What was lost and skipped before a number that is used comes to a multiple of `m`. -/
def Balanced (m : ℕ) (ts : List Ticket) : Prop :=
  ∀ (k : ℕ) (t : Ticket), ts[k]? = some t → t.used → m ∣ lost (ts.take k) + t.skips

theorem length_usedNumbers (ts : List Ticket) : (usedNumbers ts).length + lost ts = ts.length := by
  rw [usedNumbers, List.length_map, lost, ← List.countP_eq_length_filter,
    List.length_eq_countP_add_countP used]
  simp only [Bool.not_eq_true, Bool.decide_eq_false]

theorem forall_getElem?_append {P : ℕ → Ticket → Prop} {ts : List Ticket} {t : Ticket} :
    (∀ k u, (ts ++ [t])[k]? = some u → P k u) ↔
      (∀ k u, ts[k]? = some u → P k u) ∧ P ts.length t := by
  constructor
  · intro h
    constructor
    · intro k u hk
      have hlt : k < ts.length := (List.getElem?_eq_some_iff.mp hk).1
      exact h k u (by rw [List.getElem?_append_left hlt, hk])
    · exact h _ _ (by simp)
  · rintro ⟨hts, ht⟩ k u hk
    rcases Nat.lt_or_ge k ts.length with hlt | hge
    · exact hts k u (by rwa [List.getElem?_append_left hlt] at hk)
    · rw [List.getElem?_append_right hge, List.getElem?_singleton] at hk
      split_ifs at hk with hzero
      · cases hk
        have hlen : k = ts.length := by omega
        rwa [hlen]

theorem counted_append {ts : List Ticket} {t : Ticket} :
    Counted (ts ++ [t]) ↔ Counted ts ∧ t.number = ts.length + t.skips :=
  forall_getElem?_append

theorem balanced_append {m : ℕ} {ts : List Ticket} {t : Ticket} :
    Balanced m (ts ++ [t]) ↔ Balanced m ts ∧ (t.used → m ∣ lost ts + t.skips) := by
  have h : Balanced m (ts ++ [t]) ↔
      (∀ (k : ℕ) (u : Ticket), ts[k]? = some u → u.used → m ∣ lost ((ts ++ [t]).take k) + u.skips) ∧
        (t.used → m ∣ lost ((ts ++ [t]).take ts.length) + t.skips) :=
    forall_getElem?_append (P := fun k u => u.used → m ∣ lost ((ts ++ [t]).take k) + u.skips)
  rw [List.take_left] at h
  refine h.trans (and_congr_left' ?_)
  have htake : ∀ (k : ℕ) (u : Ticket), ts[k]? = some u → (ts ++ [t]).take k = ts.take k := by
    intro k u hk
    exact List.take_append_of_le_length (List.getElem?_eq_some_iff.mp hk).1.le
  constructor
  · intro hts k u hk
    rw [← htake k u hk]
    exact hts k u hk
  · intro hts k u hk
    rw [htake k u hk]
    exact hts k u hk

theorem consecutive_append {m : ℕ} {ts : List Ticket} {t : Ticket} :
    Consecutive m (ts ++ [t]) ↔
      Consecutive m ts ∧ (t.used → t.number % m = (usedNumbers ts).length % m) := by
  unfold Consecutive usedNumbers
  rw [List.filter_append]
  cases ht : t.used with
  | false => simp [ht]
  | true =>
    have hone : [t].filter used = [t] := by simp [ht]
    rw [hone, List.map_append, List.length_append, List.length_map, List.map_cons, List.map_nil,
      List.length_singleton, List.range_succ, List.map_append, List.map_append]
    constructor
    · intro heq
      obtain ⟨hts, htt⟩ := List.append_inj heq (by simp)
      exact ⟨hts, fun _ => by simpa using htt⟩
    · rintro ⟨hts, htt⟩
      rw [hts, List.map_cons, List.map_nil, List.map_cons, List.map_nil, htt rfl]

/-- The numbers used are consecutive exactly when what was lost or skipped before each of them
makes up full turns of the counter. -/
theorem consecutive_iff {m : ℕ} {ts : List Ticket} (h : Counted ts) :
    Consecutive m ts ↔ Balanced m ts := by
  induction ts using List.reverseRecOn with
  | nil => simp [Consecutive, Balanced, usedNumbers]
  | append_singleton ts t ih =>
    obtain ⟨hts, hnumber⟩ := counted_append.mp h
    rw [consecutive_append, balanced_append, ih hts]
    have hlen := length_usedNumbers ts
    have hturn : t.number % m = (usedNumbers ts).length % m ↔ m ∣ lost ts + t.skips := by
      have hsum : t.number = (usedNumbers ts).length + (lost ts + t.skips) := by omega
      rw [hsum]
      constructor
      · intro hmod
        have hle := Nat.le_add_right (usedNumbers ts).length (lost ts + t.skips)
        have hdvd := (Nat.modEq_iff_dvd' hle).mp (Eq.symm hmod)
        rwa [Nat.add_sub_cancel_left] at hdvd
      · rintro ⟨q, hq⟩
        rw [hq, Nat.add_mul_mod_self_left]
    rw [hturn]

end Ticket
end DRDS.Concurrency
