import Mathlib.Data.List.Basic

/-! Decoders that consume the front of a stream. A decoder is sound when what it
consumed is the encoding of what it built, and complete when it accepts every encoding
of a valid value; both survive repetition. -/
namespace DRDS.Wire

variable {σ φ α β : Type}

/-- The rounds of a decoding loop, each one reading what the round before left. -/
def repeat? (step : σ → Option (φ × σ)) : ℕ → σ → Option (List φ × σ)
  | 0, s => some ([], s)
  | n + 1, s => do
    let (x, s) ← step s
    let (xs, s) ← repeat? step n s
    some (x :: xs, s)

theorem repeat?_preserves {step : σ → Option (φ × σ)} {P : σ → Prop}
    (hstep : ∀ {s x t}, step s = some (x, t) → P s → P t) (n : ℕ) {s t : σ} {xs : List φ}
    (h : repeat? step n s = some (xs, t)) (hs : P s) : P t := by
  induction n generalizing s xs with
  | zero =>
    cases h
    exact hs
  | succ n ih =>
    simp only [repeat?, Option.bind_eq_bind, Option.bind_eq_some_iff, Prod.exists] at h
    obtain ⟨x, u, hu, ys, v, hv, heq⟩ := h
    cases Option.some.inj heq
    exact ih hv (hstep hu hs)

/-- A decoding loop that keeps its place in the whole input as an index: a round is given what is
left from there on, and says how much of it it took. -/
def repeatAt? (read? : List β → Option (α × ℕ)) (n : ℕ) (bs : List β) (start : ℕ) :
    Option (ℕ × List α) :=
  (List.range n).foldlM (fun (index, xs) _ => do
    let (x, size) ← read? (bs.drop index)
    some (index + size, xs ++ [x])) (start, [])

/-- The index stays at the end of what has been read, whatever comes after. -/
theorem repeatAt?_complete {read? : List β → Option (α × ℕ)} {encode : α → List β}
    {Valid : α → Prop}
    (hread : ∀ a z, Valid a → read? (encode a ++ z) = some (a, (encode a).length))
    {as : List α} (has : ∀ a ∈ as, Valid a) {bs front z : List β}
    (hbs : bs = front ++ (as.flatMap encode ++ z)) :
    repeatAt? read? as.length bs front.length =
      some ((front ++ as.flatMap encode).length, as) := by
  have hloop : ∀ (rounds : List ℕ) (as xs : List α) (front : List β),
      rounds.length = as.length → (∀ a ∈ as, Valid a) → bs = front ++ (as.flatMap encode ++ z) →
      rounds.foldlM (fun (index, xs) _ => do
        let (x, size) ← read? (bs.drop index)
        some (index + size, xs ++ [x])) (front.length, xs) =
      some ((front ++ as.flatMap encode).length, xs ++ as) := by
    intro rounds as xs front hlen has hbs
    induction rounds generalizing as xs front with
    | nil =>
      obtain rfl := List.eq_nil_of_length_eq_zero hlen.symm
      simp
    | cons round rounds ih =>
      cases as with
      | nil => cases hlen
      | cons a as =>
        rw [List.forall_mem_cons] at has
        rw [List.flatMap_cons, List.append_assoc] at hbs
        have hdrop : bs.drop front.length = encode a ++ (as.flatMap encode ++ z) := by
          rw [hbs, List.drop_left]
        have hrest := ih as (xs ++ [a]) (front ++ encode a) (Nat.succ.inj hlen) has.2
          (by rw [hbs, List.append_assoc])
        rw [List.length_append, List.append_assoc, List.append_assoc] at hrest
        simp only [List.foldlM_cons, hdrop, hread a _ has.1, Option.bind_eq_bind,
          Option.bind_some]
        exact hrest
  rw [repeatAt?, hloop _ as [] front (List.length_range ..) has hbs, List.nil_append]

/-- `σ` is how the running code holds the unread input and `φ` what it builds; `bytes`
and `view` say what they stand for. -/
structure PrefixDecoder (σ φ α β : Type) where
  decode? : σ → Option (φ × σ)
  bytes : σ → List β
  view : φ → α
  encode : α → List β
  Valid : α → Prop
  sound : ∀ {s x s'}, decode? s = some (x, s') →
    Valid (view x) ∧ bytes s = encode (view x) ++ bytes s'
  complete : ∀ {a s z}, Valid a → bytes s = encode a ++ z →
    ∃ x s', decode? s = some (x, s') ∧ view x = a ∧ bytes s' = z

namespace PrefixDecoder

theorem repeat?_sound (d : PrefixDecoder σ φ α β) (n : ℕ) {s s' : σ} {xs : List φ}
    (h : repeat? d.decode? n s = some (xs, s')) :
    xs.length = n ∧ (∀ a ∈ xs.map d.view, d.Valid a) ∧
      d.bytes s = (xs.map d.view).flatMap d.encode ++ d.bytes s' := by
  induction n generalizing s xs with
  | zero =>
    cases Option.some.inj h
    exact ⟨rfl, by simp, by simp⟩
  | succ n ih =>
    simp only [repeat?, Option.bind_eq_bind, Option.bind_eq_some_iff, Prod.exists] at h
    obtain ⟨x, t, hx, ys, u, hys, heq⟩ := h
    cases Option.some.inj heq
    obtain ⟨hv, hb⟩ := d.sound hx
    obtain ⟨hn, hvs, hbs⟩ := ih hys
    refine ⟨by simp [hn], ?_, ?_⟩
    · simpa [hv] using hvs
    · rw [hb, hbs, List.map_cons, List.flatMap_cons, List.append_assoc]

theorem repeat?_complete (d : PrefixDecoder σ φ α β) {as : List α} {s : σ} {z : List β}
    (ha : ∀ a ∈ as, d.Valid a) (hb : d.bytes s = as.flatMap d.encode ++ z) :
    ∃ xs s', repeat? d.decode? as.length s = some (xs, s') ∧ xs.map d.view = as ∧
      d.bytes s' = z := by
  induction as generalizing s with
  | nil => exact ⟨[], s, rfl, rfl, by simpa using hb⟩
  | cons a as ih =>
    rw [List.flatMap_cons, List.append_assoc] at hb
    obtain ⟨x, t, hx, hxa, ht⟩ := d.complete (ha a (by simp)) hb
    obtain ⟨xs, s', hxs, hxsa, hs'⟩ := ih (fun b hb => ha b (by simp [hb])) ht
    exact ⟨x :: xs, s', by simp [repeat?, hx, hxs], by rw [List.map_cons, hxa, hxsa], hs'⟩

/-- A fixed number of values in a row. -/
def repeated (d : PrefixDecoder σ φ α β) (n : ℕ) :
    PrefixDecoder σ (List φ) (List α) β where
  decode? := repeat? d.decode? n
  bytes := d.bytes
  view := List.map d.view
  encode as := as.flatMap d.encode
  Valid as := as.length = n ∧ ∀ a ∈ as, d.Valid a
  sound h := by
    obtain ⟨hn, hv, hb⟩ := d.repeat?_sound n h
    exact ⟨⟨by simp [hn], hv⟩, hb⟩
  complete ha hb := by
    obtain ⟨rfl, ha⟩ := ha
    exact d.repeat?_complete ha hb

end PrefixDecoder
end DRDS.Wire
