import Mathlib.Data.List.Basic
import Mathlib.Logic.Function.Basic
import Mathlib.Logic.Relation
import Mathlib.Order.Basic

/-! Writers that share a log: each tests once that it is not late, and appends its keys in later
steps. -/
namespace DRDS.Concurrency

/-- How long the log was when the writer tested, the key it appends next, and whether it has
failed. -/
structure Writer (T : Type) where
  mark : ℕ
  next : T
  failed : Bool

/-- A log whose entries say who appended them, if it was a writer. -/
structure Appends (τ T : Type) where
  log : List (Option τ × T)
  writers : τ → Option (Writer T)

namespace Appends
variable {τ T : Type}

def Live (s : Appends τ T) (x : Option τ × T) : Prop :=
  ∃ t w, x.1 = some t ∧ s.writers t = some w ∧ w.failed = false

theorem not_live_none (s : Appends τ T) (k : T) : ¬ s.Live (none, k) := by
  rintro ⟨t, w, h, _⟩
  cases h

theorem live_of_advance [DecidableEq τ] {s : Appends τ T} {t : τ} {w w' : Writer T}
    (writer : s.writers t = some w) (failed : w'.failed = false → w.failed = false)
    {x : Option τ × T} (h : Live { s with writers := Function.update s.writers t (some w') } x) : s.Live x := by
  obtain ⟨u, v, hu, hv, hlive⟩ := h
  by_cases hut : u = t
  · subst hut
    obtain rfl : w' = v := by simpa using hv
    exact ⟨u, w, hu, writer, failed hlive⟩
  · exact ⟨u, v, hu, by simpa [hut] using hv, hlive⟩

variable [Preorder T]

/-- The live entries ascend, and no writer is behind those it has tested or its own. -/
structure Ordered (s : Appends τ T) : Prop where
  known : ∀ t k, (some t, k) ∈ s.log → s.writers t ≠ none
  marked : ∀ t w, s.writers t = some w → w.mark ≤ s.log.length
  sorted : s.log.Pairwise fun x y => s.Live x → s.Live y → x.2 ≤ y.2
  tested : ∀ t w, s.writers t = some w → w.failed = false →
    ∀ x ∈ s.log.take w.mark, s.Live x → x.2 ≤ w.next
  own : ∀ t w, s.writers t = some w → ∀ k, (some t, k) ∈ s.log → k ≤ w.next

theorem Ordered.init (keys : List T) :
    Ordered ⟨keys.map fun k => ((none : Option τ), k), fun _ => none⟩ := by
  constructor
  · intro t k hk
    simp at hk
  · intro t w hw
    cases hw
  · rw [List.pairwise_map]
    exact List.pairwise_of_forall fun x _ hl => absurd hl (not_live_none _ x)
  · intro t w hw
    cases hw
  · intro t w hw
    cases hw

theorem Ordered.other {s : Appends τ T} (hs : s.Ordered) (k : T) :
    Ordered { s with log := s.log ++ [(none, k)] } := by
  constructor
  · intro u k' hk
    exact hs.known u k' (by simpa using hk)
  · intro u v hv
    rw [List.length_append]
    exact Nat.le_add_right_of_le (hs.marked u v hv)
  · refine List.pairwise_append.mpr ⟨hs.sorted, List.pairwise_singleton .., ?_⟩
    intro x _ y hy _ hl
    obtain rfl := List.mem_singleton.mp hy
    exact absurd hl (s.not_live_none k)
  · intro u v hv hlive x hx hl
    rw [List.take_append_of_le_length (hs.marked u v hv)] at hx
    exact hs.tested u v hv hlive x hx hl
  · intro u v hv k' hk
    exact hs.own u v hv k' (by simpa using hk)

variable [DecidableEq τ]

/-- A step of one writer. It tests with no later entry there, and appends a key with none that
others have appended in between. -/
inductive Step : Appends τ T → Appends τ T → Prop
  | test {s} (t : τ) (next : T) (failed : Bool) (idle : s.writers t = none)
      (ontime : failed = false → ∀ x ∈ s.log, s.Live x → x.2 ≤ next) :
      Step s { s with
        writers := Function.update s.writers t (some ⟨s.log.length, next, failed⟩) }
  | append {s} (t : τ) (w : Writer T) (writer : s.writers t = some w) (alive : w.failed = false)
      (alone : ∀ x ∈ s.log.drop w.mark, x.1 ≠ some t → s.Live x → x.2 ≤ w.next) :
      Step s { s with log := s.log ++ [(some t, w.next)] }
  | advance {s} (t : τ) (w w' : Writer T) (writer : s.writers t = some w) (mark : w'.mark = w.mark)
      (next : w.next ≤ w'.next) (failed : w'.failed = false → w.failed = false) :
      Step s { s with writers := Function.update s.writers t (some w') }
  | other {s} (k : T) : Step s { s with log := s.log ++ [(none, k)] }

theorem Ordered.live_of_test {s : Appends τ T} (hs : s.Ordered) {t : τ} {w : Writer T}
    (idle : s.writers t = none) {x : Option τ × T} (hx : x ∈ s.log)
    (h : Live { s with writers := Function.update s.writers t (some w) } x) : s.Live x := by
  obtain ⟨u, v, hu, hv, hlive⟩ := h
  have hut : u ≠ t := by
    rintro rfl
    obtain ⟨x₁, k⟩ := x
    obtain rfl : x₁ = some u := hu
    exact hs.known u k hx idle
  exact ⟨u, v, hu, by simpa [hut] using hv, hlive⟩

theorem Ordered.test {s : Appends τ T} (hs : s.Ordered) (t : τ) (next : T) (failed : Bool)
    (idle : s.writers t = none)
    (ontime : failed = false → ∀ x ∈ s.log, s.Live x → x.2 ≤ next) :
    Ordered { s with
      writers := Function.update s.writers t (some ⟨s.log.length, next, failed⟩) } := by
  constructor
  · intro u k hk
    by_cases hut : u = t
    · simp [hut]
    · simpa [hut] using hs.known u k hk
  · intro u w hw
    by_cases hut : u = t
    · subst hut
      obtain rfl : _ = w := by simpa using hw
      exact Nat.le_refl _
    · exact hs.marked u w (by simpa [hut] using hw)
  · refine hs.sorted.imp_of_mem fun hx hy hxy hlx hly => ?_
    exact hxy (hs.live_of_test idle hx hlx) (hs.live_of_test idle hy hly)
  · intro u w hw hlive x hx hl
    have hmem : x ∈ s.log := List.mem_of_mem_take hx
    have hl' := hs.live_of_test idle hmem hl
    by_cases hut : u = t
    · subst hut
      obtain rfl : _ = w := by simpa using hw
      exact ontime hlive x hmem hl'
    · exact hs.tested u w (by simpa [hut] using hw) hlive x hx hl'
  · intro u w hw k hk
    by_cases hut : u = t
    · subst hut
      exact absurd idle (hs.known u k hk)
    · exact hs.own u w (by simpa [hut] using hw) k hk

/-- What a writer has tested, what it has appended and what others have is all there is. -/
theorem Ordered.le_next {s : Appends τ T} (hs : s.Ordered) {t : τ} {w : Writer T}
    (writer : s.writers t = some w) (alive : w.failed = false)
    (alone : ∀ x ∈ s.log.drop w.mark, x.1 ≠ some t → s.Live x → x.2 ≤ w.next)
    {x : Option τ × T} (hx : x ∈ s.log) (hl : s.Live x) : x.2 ≤ w.next := by
  rw [← List.take_append_drop w.mark s.log, List.mem_append] at hx
  rcases hx with hx | hx
  · exact hs.tested t w writer alive x hx hl
  · by_cases hxt : x.1 = some t
    · obtain ⟨x₁, k⟩ := x
      obtain rfl : x₁ = some t := hxt
      exact hs.own t w writer k (List.mem_of_mem_drop hx)
    · exact alone x hx hxt hl

theorem Ordered.append {s : Appends τ T} (hs : s.Ordered) {t : τ} {w : Writer T}
    (writer : s.writers t = some w) (alive : w.failed = false)
    (alone : ∀ x ∈ s.log.drop w.mark, x.1 ≠ some t → s.Live x → x.2 ≤ w.next) :
    Ordered { s with log := s.log ++ [(some t, w.next)] } := by
  constructor
  · intro u k hk
    rcases List.mem_append.mp hk with hk | hk
    · exact hs.known u k hk
    · simp only [List.mem_singleton, Prod.mk.injEq, Option.some.injEq] at hk
      obtain ⟨rfl, rfl⟩ := hk
      exact Option.ne_none_iff_exists'.mpr ⟨w, writer⟩
  · intro u v hv
    rw [List.length_append]
    exact Nat.le_add_right_of_le (hs.marked u v hv)
  · refine List.pairwise_append.mpr ⟨hs.sorted, List.pairwise_singleton .., ?_⟩
    intro x hx y hy hl _
    obtain rfl := List.mem_singleton.mp hy
    exact hs.le_next writer alive alone hx hl
  · intro u v hv hlive x hx hl
    rw [List.take_append_of_le_length (hs.marked u v hv)] at hx
    exact hs.tested u v hv hlive x hx hl
  · intro u v hv k hk
    rcases List.mem_append.mp hk with hk | hk
    · exact hs.own u v hv k hk
    · simp only [List.mem_singleton, Prod.mk.injEq, Option.some.injEq] at hk
      obtain ⟨rfl, rfl⟩ := hk
      obtain rfl := Option.some.inj (writer.symm.trans hv)
      exact le_refl _

theorem Ordered.advance {s : Appends τ T} (hs : s.Ordered) {t : τ} {w w' : Writer T}
    (writer : s.writers t = some w) (mark : w'.mark = w.mark) (next : w.next ≤ w'.next)
    (failed : w'.failed = false → w.failed = false) :
    Ordered { s with writers := Function.update s.writers t (some w') } := by
  constructor
  · intro u k hk
    by_cases hut : u = t
    · simp [hut]
    · simpa [hut] using hs.known u k hk
  · intro u v hv
    by_cases hut : u = t
    · subst hut
      obtain rfl : w' = v := by simpa using hv
      exact mark ▸ hs.marked u w writer
    · exact hs.marked u v (by simpa [hut] using hv)
  · refine hs.sorted.imp fun hxy hlx hly => ?_
    exact hxy (live_of_advance writer failed hlx) (live_of_advance writer failed hly)
  · intro u v hv hlive x hx hl
    have hl' := live_of_advance writer failed hl
    by_cases hut : u = t
    · subst hut
      obtain rfl : w' = v := by simpa using hv
      rw [mark] at hx
      exact le_trans (hs.tested u w writer (failed hlive) x hx hl') next
    · exact hs.tested u v (by simpa [hut] using hv) hlive x hx hl'
  · intro u v hv k hk
    by_cases hut : u = t
    · subst hut
      obtain rfl : w' = v := by simpa using hv
      exact le_trans (hs.own u w writer k hk) next
    · exact hs.own u v (by simpa [hut] using hv) k hk

theorem Ordered.step {s s' : Appends τ T} (hs : s.Ordered) (h : Step s s') : s'.Ordered := by
  cases h with
  | test t next failed idle ontime => exact hs.test t next failed idle ontime
  | append t w writer alive alone => exact hs.append writer alive alone
  | advance t w w' writer mark next failed => exact hs.advance writer mark next failed
  | other k => exact hs.other k

/-- The live entries ascend after every run. -/
theorem Ordered.run {s s' : Appends τ T} (hs : s.Ordered)
    (h : Relation.ReflTransGen Step s s') : s'.Ordered := by
  induction h with
  | refl => exact hs
  | tail _ hstep ih => exact ih.step hstep

end Appends
end DRDS.Concurrency
