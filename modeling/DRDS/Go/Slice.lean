import Mathlib.Data.List.Basic
import Mathlib.Data.Nat.Basic

/-! Go slices: windows on the elements of an array. An index expression is checked
against the length, a slice expression against the capacity; `none` is the run-time
panic of an expression out of range. -/
namespace DRDS.Go

/-- `backing` is the underlying array from the first element of the slice to its end. -/
structure Slice (α : Type) where
  backing : List α
  len : ℕ
  len_le : len ≤ backing.length

namespace Slice
variable {α : Type}

def cap (s : Slice α) : ℕ := s.backing.length

def toList (s : Slice α) : List α := s.backing.take s.len

/-- A whole array taken as a slice: its capacity is its length. -/
def ofList (l : List α) : Slice α := ⟨l, l.length, le_rfl⟩

/-- The capacity a run of appends leaves beyond so many elements, which is up to the runtime. -/
structure Growth where
  spare : ℕ → ℕ
  spare_zero : spare 0 = 0

def Growth.tight : Growth := ⟨fun _ => 0, rfl⟩

def grown (l spare : List α) : Slice α := ⟨l ++ spare, l.length, by simp⟩

def index? (s : Slice α) (i : ℕ) : Option α := if i < s.len then s.backing[i]? else none

/-- The slice expression `s[i:j]`. -/
def slice? (s : Slice α) (i j : ℕ) : Option (Slice α) :=
  if h : i ≤ j ∧ j ≤ s.cap then
    some ⟨s.backing.drop i, j - i, by rw [List.length_drop]; exact Nat.sub_le_sub_right h.2 i⟩
  else none

/-- The slice expression `s[i:]`, whose upper bound is the length. -/
def sliceFrom? (s : Slice α) (i : ℕ) : Option (Slice α) := s.slice? i s.len

@[simp] theorem length_toList (s : Slice α) : s.toList.length = s.len := by
  simp [toList, s.len_le]

@[simp] theorem toList_ofList (l : List α) : (ofList l).toList = l := by simp [ofList, toList]

@[simp] theorem len_ofList (l : List α) : (ofList l).len = l.length := rfl

@[simp] theorem cap_ofList (l : List α) : (ofList l).cap = l.length := rfl

@[simp] theorem toList_grown (l spare : List α) : (grown l spare).toList = l := by
  simp [grown, toList]

@[simp] theorem len_grown (l spare : List α) : (grown l spare).len = l.length := rfl

@[simp] theorem cap_grown (l spare : List α) :
    (grown l spare).cap = l.length + spare.length := by simp [grown, cap]

theorem len_le_cap (s : Slice α) : s.len ≤ s.cap := s.len_le

theorem index?_eq (s : Slice α) (i : ℕ) : s.index? i = s.toList[i]? := by
  unfold index? toList
  rw [List.getElem?_take]

theorem slice?_eq_none {s : Slice α} {i j : ℕ} :
    s.slice? i j = none ↔ ¬ (i ≤ j ∧ j ≤ s.cap) := by
  unfold slice?
  split_ifs with h <;> simp [h]

theorem slice?_some {s t : Slice α} {i j : ℕ} (h : s.slice? i j = some t) :
    i ≤ j ∧ j ≤ s.cap ∧ t.len = j - i ∧ t.backing = s.backing.drop i := by
  unfold slice? at h
  split_ifs at h with hb
  cases h
  exact ⟨hb.1, hb.2, rfl, rfl⟩

/-- Within the capacity a slice expression may reach beyond the visible elements. -/
theorem mem_backing_of_slice? {s t : Slice α} {i j : ℕ} (h : s.slice? i j = some t) {a : α}
    (ha : a ∈ t.toList) : a ∈ s.backing := by
  have hmem : a ∈ t.backing := List.mem_of_mem_take ha
  rw [(slice?_some h).2.2.2] at hmem
  exact List.mem_of_mem_drop hmem

theorem slice?_of_le {s : Slice α} {i j : ℕ} (hi : i ≤ j) (hj : j ≤ s.len) :
    ∃ t, s.slice? i j = some t ∧ t.len = j - i ∧
      t.toList = (s.toList.drop i).take (j - i) := by
  have hb : i ≤ j ∧ j ≤ s.cap := ⟨hi, le_trans hj s.len_le_cap⟩
  refine ⟨_, dif_pos hb, rfl, ?_⟩
  simp only [toList, List.drop_take, List.take_take]
  congr 1
  omega

/-- What a slice expression below the length cuts out of the visible elements. -/
theorem slice?_drop {s t : Slice α} {i j : ℕ} (h : s.slice? i j = some t) (hj : j ≤ s.len) :
    s.toList.drop i = t.toList ++ s.toList.drop j := by
  obtain ⟨hi, _⟩ := slice?_some h
  obtain ⟨u, hu, _, hul⟩ := slice?_of_le hi hj
  rw [h] at hu
  cases hu
  have hd : s.toList.drop j = (s.toList.drop i).drop (j - i) := by
    rw [List.drop_drop, Nat.add_sub_cancel' hi]
  rw [hul, hd, List.take_append_drop]

theorem sliceFrom?_some {s t : Slice α} {i : ℕ} (h : s.sliceFrom? i = some t) :
    i ≤ s.len ∧ t.toList = s.toList.drop i ∧ t.cap = s.cap - i := by
  obtain ⟨hi, hle, hlen, hback⟩ := slice?_some h
  refine ⟨hi, ?_, by rw [cap, hback, List.length_drop, cap]⟩
  rw [toList, hback, hlen, toList, List.drop_take]

theorem len_sliceFrom? {s t : Slice α} {i : ℕ} (h : s.sliceFrom? i = some t) :
    t.len = s.len - i := by
  rw [← t.length_toList, (sliceFrom?_some h).2.1, List.length_drop, length_toList]

theorem sliceFrom?_of_le {s : Slice α} {i : ℕ} (h : i ≤ s.len) :
    ∃ t, s.sliceFrom? i = some t := ⟨_, dif_pos ⟨h, s.len_le_cap⟩⟩

end Slice
end DRDS.Go
