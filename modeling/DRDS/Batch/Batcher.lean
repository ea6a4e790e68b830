import Mathlib.Data.List.Basic

/-! Machines that hold items back and pass them on in batches, and sinks that take a batch
whole or not at all. -/
namespace DRDS.Batch

/-- A step may add items to what the machine holds and may pass on a batch from its front. -/
structure Batcher (σ ε α : Type) where
  step? : ε → σ → Option (σ × Option (List α))
  item : ε → σ → List α
  held : σ → List α
  conserve : ∀ {ev s t out}, step? ev s = some (t, out) →
    out.getD [] ++ held t = held s ++ item ev s

/-- What a run leaves: the last state, the batches passed on and the items taken in. -/
structure Run (σ α : Type) where
  state : σ
  batches : List (List α)
  items : List α

namespace Batcher
variable {σ ε α : Type} (B : Batcher σ ε α)

def run? : List ε → σ → Option (Run σ α)
  | [], s => some ⟨s, [], []⟩
  | ev :: evs, s => do
    let (t, out) ← B.step? ev s
    let r ← run? evs t
    some { r with batches := out.toList ++ r.batches, items := B.item ev s ++ r.items }

theorem run?_cons {ev : ε} {evs : List ε} {s : σ} {r : Run σ α}
    (h : B.run? (ev :: evs) s = some r) :
    ∃ t out u, B.step? ev s = some (t, out) ∧ B.run? evs t = some u ∧ r.state = u.state ∧
      r.batches = out.toList ++ u.batches ∧ r.items = B.item ev s ++ u.items := by
  simp only [run?, Option.bind_eq_bind, Option.bind_eq_some_iff, Option.some.injEq] at h
  obtain ⟨⟨t, out⟩, ht, u, hu, rfl⟩ := h
  exact ⟨t, out, u, ht, hu, rfl, rfl, rfl⟩

/-- No run loses, repeats or reorders an item. -/
theorem run?_conserve {evs : List ε} {s : σ} {r : Run σ α} (h : B.run? evs s = some r) :
    r.batches.flatten ++ B.held r.state = B.held s ++ r.items := by
  induction evs generalizing s r with
  | nil =>
    cases h
    simp
  | cons ev evs ih =>
    obtain ⟨t, out, u, ht, hu, hstate, hbatches, hitems⟩ := B.run?_cons h
    have hstep := B.conserve ht
    have hrest := ih hu
    have hout : out.toList.flatten = out.getD [] := by cases out <;> simp
    rw [hstate, hbatches, hitems, List.flatten_append, hout, List.append_assoc, hrest,
      ← List.append_assoc, hstep, List.append_assoc]

theorem exists_run? (htotal : ∀ ev s, ∃ t out, B.step? ev s = some (t, out)) (evs : List ε) (s : σ) :
    ∃ r, B.run? evs s = some r := by
  induction evs generalizing s with
  | nil => exact ⟨_, rfl⟩
  | cons ev evs ih =>
    obtain ⟨t, out, ht⟩ := htotal ev s
    obtain ⟨r, hr⟩ := ih t
    refine ⟨{ r with batches := out.toList ++ r.batches, items := B.item ev s ++ r.items }, ?_⟩
    simp only [run?, ht, hr, Option.bind_eq_bind, Option.bind_some]

theorem run?_items {f : ε → List α} (hitem : ∀ ev s, B.item ev s = f ev) {evs : List ε} {s : σ}
    {r : Run σ α} (h : B.run? evs s = some r) : r.items = evs.flatMap f := by
  induction evs generalizing s r with
  | nil =>
    cases h
    rfl
  | cons ev evs ih =>
    obtain ⟨t, out, u, _, hu, _, _, hitems⟩ := B.run?_cons h
    rw [hitems, hitem, ih hu, List.flatMap_cons]

/-- What every step keeps of the state and grants of its batch holds of a run. -/
theorem run?_invariant {P : σ → Prop} {Q : List α → Prop}
    (hstep : ∀ {ev s t out}, B.step? ev s = some (t, out) → P s → P t ∧ ∀ b ∈ out, Q b)
    {evs : List ε} {s : σ} {r : Run σ α} (h : B.run? evs s = some r) (hs : P s) :
    P r.state ∧ ∀ b ∈ r.batches, Q b := by
  induction evs generalizing s r with
  | nil =>
    cases h
    exact ⟨hs, by simp⟩
  | cons ev evs ih =>
    obtain ⟨t, out, u, ht, hu, hstate, hbatches, _⟩ := B.run?_cons h
    obtain ⟨hP, hout⟩ := hstep ht hs
    obtain ⟨hrest, hQ⟩ := ih hu hP
    rw [hstate, hbatches]
    refine ⟨hrest, fun b hb => ?_⟩
    rcases List.mem_append.mp hb with hfirst | hlater
    · exact hout b (Option.mem_toList.mp hfirst)
    · exact hQ b hlater

end Batcher

/-! ### Batches taken whole or not at all -/

section AllOrNothing
variable {α : Type} (good : α → Prop) [DecidablePred good]

/-- What a sink keeps that drops each batch with an item it does not like. -/
def kept (bs : List (List α)) : List α :=
  bs.flatMap fun b => if ∀ a ∈ b, good a then b else []

def Uniform (b : List α) : Prop := (∀ a ∈ b, good a) ∨ ∀ a ∈ b, ¬ good a

instance : DecidablePred (Uniform good) := fun _ => inferInstanceAs (Decidable (_ ∨ _))

@[simp] theorem kept_nil : kept good [] = [] := rfl

theorem kept_cons (b : List α) (bs : List (List α)) :
    kept good (b :: bs) = (if ∀ a ∈ b, good a then b else []) ++ kept good bs := rfl

theorem kept_append (bs cs : List (List α)) : kept good (bs ++ cs) = kept good bs ++ kept good cs := by
  simp [kept]

theorem kept_batch_sublist (b : List α) :
    (if ∀ a ∈ b, good a then b else []).Sublist (b.filter good) := by
  split_ifs with h
  · rw [List.filter_eq_self.mpr (by simpa using h)]
  · exact List.nil_sublist _

/-- All good items of a batch are kept exactly when the batch is of one kind. -/
theorem kept_batch_eq_iff (b : List α) :
    (if ∀ a ∈ b, good a then b else []) = b.filter good ↔ Uniform good b := by
  unfold Uniform
  split_ifs with h
  · have hf : b.filter good = b := List.filter_eq_self.mpr (by simpa using h)
    exact ⟨fun _ => .inl h, fun _ => hf.symm⟩
  · rw [eq_comm, List.filter_eq_nil_iff]
    simp [h]

theorem kept_sublist (bs : List (List α)) : (kept good bs).Sublist (bs.flatten.filter good) := by
  induction bs with
  | nil => simp
  | cons b bs ih =>
    rw [kept_cons, List.flatten_cons, List.filter_append]
    exact (kept_batch_sublist good b).append ih

/-- A sink of whole batches keeps all good items exactly when each batch is of one kind. -/
theorem kept_eq_filter_iff (bs : List (List α)) :
    kept good bs = bs.flatten.filter good ↔ ∀ b ∈ bs, Uniform good b := by
  induction bs with
  | nil => simp
  | cons b bs ih =>
    rw [kept_cons, List.flatten_cons, List.filter_append, List.forall_mem_cons, ← ih,
      ← kept_batch_eq_iff]
    constructor
    · intro h
      -- neither part can make up for what the other loses
      have hlen := congrArg List.length h
      have hb := kept_batch_sublist good b
      have hbs := kept_sublist good bs
      have hb' := hb.length_le
      have hbs' := hbs.length_le
      rw [List.length_append, List.length_append] at hlen
      exact ⟨hb.eq_of_length (by omega), hbs.eq_of_length (by omega)⟩
    · rintro ⟨h₁, h₂⟩
      rw [h₁, h₂]

theorem map_kept_eq_iff {β : Type} (f : α → β) (bs : List (List α)) :
    (kept good bs).map f = (bs.flatten.filter good).map f ↔ ∀ b ∈ bs, Uniform good b := by
  rw [← kept_eq_filter_iff]
  constructor
  · intro h
    have hlen := congrArg List.length h
    rw [List.length_map, List.length_map] at hlen
    exact (kept_sublist good bs).eq_of_length hlen
  · intro h
    rw [h]

end AllOrNothing
end DRDS.Batch
