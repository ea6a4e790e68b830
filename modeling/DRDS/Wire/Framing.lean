import DRDS.Wire.PrefixDecoder

/-! Frames that announce their own length. The walk over a byte string is fixed by the
lengths its headers announce and by the size a frame of an announced length has. -/
namespace DRDS.Wire

/-- `size` is the whole frame, header included, as a function of the announced length. -/
structure Framing (β : Type) where
  header : ℕ
  lengthOf : List β → ℕ
  size : ℕ → ℕ

namespace Framing
variable {β : Type}

/-- The lengths announced at the first `n` frame boundaries, as far as headers remain. -/
def lengths (F : Framing β) : ℕ → List β → List ℕ
  | 0, _ => []
  | n + 1, bs =>
    if F.header ≤ bs.length then
      F.lengthOf (bs.take F.header) ::
        F.lengths n (bs.drop (F.size (F.lengthOf (bs.take F.header))))
    else []

/-- The first `n` frames lie inside the byte string. -/
def Fits (F : Framing β) : ℕ → List β → Prop
  | 0, _ => True
  | n + 1, bs =>
    F.header ≤ F.size (F.lengthOf (bs.take F.header)) ∧
      F.size (F.lengthOf (bs.take F.header)) ≤ bs.length ∧
      F.Fits n (bs.drop (F.size (F.lengthOf (bs.take F.header))))

instance decidableFits (F : Framing β) : ∀ n bs, Decidable (F.Fits n bs)
  | 0, _ => isTrue trivial
  | n + 1, bs =>
    have := F.decidableFits n (bs.drop (F.size (F.lengthOf (bs.take F.header))))
    inferInstanceAs (Decidable (_ ∧ _ ∧ _))

/-- A decoding step that accepts a frame exactly when it lies inside the stream, and
leaves what is after it. -/
structure Reads {σ φ : Type} (F : Framing β) (step : σ → Option (φ × σ)) (bytes : σ → List β) :
    Prop where
  accepts : ∀ s, (step s).isSome ↔
    F.header ≤ F.size (F.lengthOf ((bytes s).take F.header)) ∧
      F.size (F.lengthOf ((bytes s).take F.header)) ≤ (bytes s).length
  rest : ∀ {s x s'}, step s = some (x, s') →
    bytes s' = (bytes s).drop (F.size (F.lengthOf ((bytes s).take F.header)))

theorem Reads.repeat?_isSome {σ φ : Type} {F : Framing β} {step : σ → Option (φ × σ)}
    {bytes : σ → List β} (h : F.Reads step bytes) (n : ℕ) (s : σ) :
    (repeat? step n s).isSome ↔ F.Fits n (bytes s) := by
  induction n generalizing s with
  | zero => simp [repeat?, Fits]
  | succ n ih =>
    rw [Fits, ← and_assoc, ← h.accepts s]
    cases hx : step s with
    | none => simp [repeat?, hx]
    | some r =>
      obtain ⟨x, t⟩ := r
      rw [← h.rest hx, ← ih t]
      cases ht : repeat? step n t <;> simp [repeat?, hx, ht]

end Framing
end DRDS.Wire
