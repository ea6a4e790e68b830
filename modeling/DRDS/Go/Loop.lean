import Mathlib.Data.List.Forall2

/-! Range loops: loops that may end their function early, and loops of a partial body. -/
namespace DRDS.Go
variable {α β ρ ω : Type}

/-- A loop whose rounds start routines of type `ρ` and may end the function with an `ω`. -/
def rangeLoop (done : ω) (body : α → List ρ × Option ω) : List α → List ρ × ω
  | [] => ([], done)
  | x :: xs =>
    match body x with
    | (rs, some o) => (rs, o)
    | (rs, none) => (rs ++ (rangeLoop done body xs).1, (rangeLoop done body xs).2)

/-- The elements whose round begins: all up to the first whose round ends the function. -/
def reached (body : α → List ρ × Option ω) : List α → List α
  | [] => []
  | x :: xs => x :: if (body x).2.isNone then reached body xs else []

theorem rangeLoop_fst (done : ω) (body : α → List ρ × Option ω) (xs : List α) :
    (rangeLoop done body xs).1 = (reached body xs).flatMap fun x => (body x).1 := by
  induction xs with
  | nil => rfl
  | cons x xs ih =>
    unfold rangeLoop reached
    rcases hx : body x with ⟨rs, _ | o⟩
    · simp [hx, ih]
    · simp [hx]

theorem reached_subset (body : α → List ρ × Option ω) (xs : List α) : reached body xs ⊆ xs := by
  induction xs with
  | nil => exact List.Subset.refl _
  | cons x xs ih =>
    unfold reached
    split_ifs
    · exact List.cons_subset_cons x ih
    · exact List.cons_subset_cons x (List.nil_subset xs)

theorem rangeLoop_snd {done : ω} {body : α → List ρ × Option ω} {xs : List α}
    (h : ∀ x ∈ xs, (body x).2 = none) : (rangeLoop done body xs).2 = done := by
  induction xs with
  | nil => rfl
  | cons x xs ih =>
    rw [List.forall_mem_cons] at h
    unfold rangeLoop
    rcases hx : body x with ⟨rs, _ | o⟩
    · exact ih h.2
    · have hn := h.1
      rw [hx] at hn
      cases hn

theorem reached_eq_self {body : α → List ρ × Option ω} {xs : List α}
    (h : ∀ x ∈ xs, (body x).2 = none) : reached body xs = xs := by
  induction xs with
  | nil => rfl
  | cons x xs ih =>
    rw [List.forall_mem_cons] at h
    rw [reached, h.1, ih h.2]
    rfl

/-- What is reached is what goes through, and the element after it. -/
theorem mem_reached {body : α → List ρ × Option ω} {x : α} {xs : List α} :
    x ∈ reached body xs ∧ (body x).2 = none ↔
      x ∈ xs.takeWhile fun x => (body x).2.isNone := by
  induction xs with
  | nil => simp [reached]
  | cons y xs ih =>
    unfold reached
    cases hy : (body y).2 with
    | none =>
      simp only [Option.isNone_none, if_true, List.mem_cons, List.takeWhile_cons, hy]
      rw [← ih]
      constructor
      · rintro ⟨rfl | hx, hn⟩
        · exact .inl rfl
        · exact .inr ⟨hx, hn⟩
      · rintro (rfl | ⟨hx, hn⟩)
        · exact ⟨.inl rfl, hy⟩
        · exact ⟨.inr hx, hn⟩
    | some o =>
      simp only [Option.isNone_some, List.takeWhile_cons, hy]
      simp only [Bool.false_eq_true, if_false, List.mem_singleton, List.not_mem_nil, iff_false,
        not_and]
      rintro rfl hn
      rw [hy] at hn
      cases hn

/-! ### Partial bodies -/

theorem mapM_forall₂ {f : α → Option β} {xs : List α} {ys : List β} (h : xs.mapM f = some ys) :
    List.Forall₂ (fun x y => f x = some y) xs ys := by
  induction xs generalizing ys with
  | nil =>
    cases h
    exact .nil
  | cons x xs ih =>
    simp only [List.mapM_cons, Option.bind_eq_bind, Option.bind_eq_some_iff] at h
    obtain ⟨y, hy, zs, hzs, hys⟩ := h
    cases hys
    exact .cons hy (ih hzs)

theorem mapM_of_forall₂ {f : α → Option β} {xs : List α} {ys : List β}
    (h : List.Forall₂ (fun x y => f x = some y) xs ys) : xs.mapM f = some ys := by
  induction h with
  | nil => rfl
  | cons hy _ ih =>
    rw [List.mapM_cons, hy, ih]
    rfl

theorem exists_of_mem_mapM {f : α → Option β} {xs : List α} {ys : List β} (h : xs.mapM f = some ys)
    {y : β} (hy : y ∈ ys) : ∃ x ∈ xs, f x = some y := by
  induction mapM_forall₂ h with
  | nil => cases hy
  | @cons x z xs zs hxz hrest ih =>
    rcases List.mem_cons.mp hy with rfl | hy
    · exact ⟨x, List.mem_cons_self, hxz⟩
    · obtain ⟨x', hx', hfx'⟩ := ih (mapM_of_forall₂ hrest) hy
      exact ⟨x', List.mem_cons_of_mem x hx', hfx'⟩

theorem mapM_of_forall {f : α → Option β} {g : α → β} {xs : List α} (h : ∀ x ∈ xs, f x = some (g x)) :
    xs.mapM f = some (xs.map g) := by
  induction xs with
  | nil => rfl
  | cons x xs ih =>
    rw [List.forall_mem_cons] at h
    rw [List.mapM_cons, h.1, ih h.2]
    rfl

theorem mapM_isSome {f : α → Option β} {xs : List α} :
    (xs.mapM f).isSome ↔ ∀ x ∈ xs, (f x).isSome := by
  induction xs with
  | nil => simp
  | cons x xs ih =>
    rw [List.forall_mem_cons, ← ih, List.mapM_cons]
    cases f x with
    | none => simp
    | some y => cases xs.mapM f <;> simp

end DRDS.Go
