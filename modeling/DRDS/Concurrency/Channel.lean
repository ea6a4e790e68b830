import Mathlib.Data.List.Basic
import Mathlib.Logic.Function.Basic

/-! A channel that several parties put values into and take values from. -/
namespace DRDS.Concurrency

variable {ι α : Type} [DecidableEq ι]

/-- The values in the channel, oldest first, each with the party that put it there, what each
party has put in, and what each has taken out and kept. -/
structure Channel (ι α : Type) where
  buffer : List (ι × α)
  put : ι → List α
  got : ι → List (ι × α)

namespace Channel

def empty : Channel ι α := ⟨[], fun _ => [], fun _ => []⟩

def push (ch : Channel ι α) (c : ι) (a : α) : Channel ι α where
  buffer := ch.buffer ++ [(c, a)]
  put := Function.update ch.put c (ch.put c ++ [a])
  got := ch.got

/-- Party `c` takes the oldest value, which is lost if it is not kept. -/
def take (ch : Channel ι α) (c : ι) (keep : Bool) : Channel ι α :=
  match ch.buffer with
  | [] => ch
  | x :: rest =>
    { ch with
      buffer := rest
      got := if keep then Function.update ch.got c (ch.got c ++ [x]) else ch.got }

/-- What party `c` put in it has got, in this order and nothing else, or is still in the channel. -/
def Serves (ch : Channel ι α) (c : ι) : Prop :=
  ch.got c ++ ch.buffer.filter (·.1 = c) = (ch.put c).map (c, ·)

instance [DecidableEq α] (ch : Channel ι α) (c : ι) : Decidable (ch.Serves c) :=
  inferInstanceAs (Decidable (_ = _))

def HoldsOnly (ch : Channel ι α) (c : ι) : Prop := ∀ x ∈ ch.buffer, x.1 = c

variable {ch : Channel ι α} {c : ι}

theorem serves_of_unused (hput : ch.put c = []) (hgot : ch.got c = []) (hbuffer : ch.buffer = []) :
    ch.Serves c := by
  rw [Serves, hput, hgot, hbuffer]
  rfl

theorem Serves.push (h : ch.Serves c) (p : ι) (a : α) : (ch.push p a).Serves c := by
  unfold Serves at h ⊢
  by_cases hp : p = c
  · subst hp
    simp only [Channel.push, Function.update_self, List.filter_append, List.map_append, ← h]
    simp
  · simp only [Channel.push, Function.update_of_ne (Ne.symm hp), List.filter_append, ← h]
    simp [hp]

theorem put_take (p : ι) (keep : Bool) : (ch.take p keep).put = ch.put := by
  unfold Channel.take
  split <;> rfl

theorem got_take {p : ι} (hne : c ≠ p) (keep : Bool) : (ch.take p keep).got c = ch.got c := by
  unfold Channel.take
  split
  · rfl
  · cases keep with
    | false => rfl
    | true => exact Function.update_of_ne hne ..

/-- A value is taken by the party that put it in, and kept if that is the party. -/
theorem Serves.take {p : ι} {keep : Bool} (h : ch.Serves c) (hown : ch.HoldsOnly p)
    (hkeep : p = c → keep) : (ch.take p keep).Serves c := by
  unfold Channel.take
  cases hbuffer : ch.buffer with
  | nil => exact h
  | cons x rest =>
    have hx : x.1 = p := hown x (by simp [hbuffer])
    unfold Serves at h ⊢
    rw [hbuffer] at h
    by_cases hp : p = c
    · subst hp
      simp only [hkeep rfl, if_true, Function.update_self, ← h]
      simp [hx]
    · have hgot : (if keep then Function.update ch.got p (ch.got p ++ [x]) else ch.got) c =
          ch.got c := by
        cases keep with
        | false => rfl
        | true => exact Function.update_of_ne (Ne.symm hp) ..
      have hother : x.1 ≠ c := by rwa [hx]
      rw [List.filter_cons_of_neg (by simpa using hother)] at h
      rw [← h]
      exact congrArg (· ++ _) hgot

theorem HoldsOnly.push (h : ch.HoldsOnly c) (a : α) : (ch.push c a).HoldsOnly c := by
  intro x hx
  rcases List.mem_append.mp hx with hx | hx
  · exact h x hx
  · rw [List.mem_singleton.mp hx]

theorem HoldsOnly.take {p : ι} {keep : Bool} (h : ch.HoldsOnly c) :
    (ch.take p keep).HoldsOnly c := by
  unfold Channel.take
  cases hbuffer : ch.buffer with
  | nil => exact h
  | cons x rest =>
    intro y hy
    exact h y (by rw [hbuffer]; exact List.mem_cons_of_mem x hy)

omit [DecidableEq ι] in
theorem holdsOnly_of_nil (hbuffer : ch.buffer = []) : ch.HoldsOnly c := by
  intro x hx
  rw [hbuffer] at hx
  cases hx

end Channel
end DRDS.Concurrency
