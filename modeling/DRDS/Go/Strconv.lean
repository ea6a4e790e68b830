import Mathlib.Algebra.Group.Nat.Defs
import Mathlib.Algebra.Ring.Int.Defs

/-! `strconv` on texts, held as lists of characters. A result comes with whether there is an
error. -/
namespace DRDS.Go

/-- The digits of a number below `max + 1`, read onto `n`; whichever comes first of a character
that is no digit and a number too large decides the error. -/
def parseDigits (max : ℕ) : List Char → ℕ → ℕ × Bool
  | [], n => (n, false)
  | c :: cs, n =>
    if c.isDigit then
      if max < 10 * n + (c.toNat - 48) then (max, true)
      else parseDigits max cs (10 * n + (c.toNat - 48))
    else (0, true)

/-- `strconv.ParseUint(s, 10, bits)` -/
def parseUint (bits : ℕ) (s : List Char) : ℕ × Bool :=
  if s = [] then (0, true) else parseDigits (2 ^ bits - 1) s 0

/-- `strconv.Atoi(s)` with 64-bit integers -/
def atoi (s : List Char) : ℤ × Bool :=
  let (neg, digits) := match s with
    | '-' :: digits => (true, digits)
    | '+' :: digits => (false, digits)
    | digits => (false, digits)
  let (un, err) := parseUint 64 digits
  if err ∧ un = 0 then (0, true)
  else if neg then if 2 ^ 63 < un then (-2 ^ 63, true) else (-un, false)
  else if 2 ^ 63 ≤ un then (2 ^ 63 - 1, true) else (un, false)

/-- `strconv.Itoa(n)`, and `%d` in a format -/
def itoa (n : ℕ) : List Char := Nat.toDigits 10 n

/-- `strings.Split` after a first part without the separator. -/
theorem splitOn_append_cons {s : List Char} {sep : Char} (hs : sep ∉ s) (t : List Char) :
    (s ++ sep :: t).splitOn sep = s :: t.splitOn sep := by
  apply List.splitOnP_append_cons_of_forall_mem
  · intro c hc
    have hne : c ≠ sep := fun h => hs (h ▸ hc)
    simpa using hne
  · simp

theorem itoa_ne_nil (n : ℕ) : itoa n ≠ [] := Nat.toDigits_ne_nil

theorem isDigit_of_mem_itoa {n : ℕ} {c : Char} (h : c ∈ itoa n) : c.isDigit = true :=
  Nat.isDigit_of_mem_toDigits (by omega) (by omega) h

@[simp] theorem ofDigitChars_itoa (n : ℕ) : Nat.ofDigitChars 10 (itoa n) 0 = n :=
  Nat.ofDigitChars_ten_toDigits

theorem itoa_injective : Function.Injective itoa := by
  intro m n h
  rw [← ofDigitChars_itoa m, h, ofDigitChars_itoa]

theorem le_ofDigitChars (s : List Char) (n : ℕ) : n ≤ Nat.ofDigitChars 10 s n := by
  induction s generalizing n with
  | nil => exact le_rfl
  | cons c s ih =>
    have hstep := ih (10 * n + (c.toNat - 48))
    change n ≤ Nat.ofDigitChars 10 s (10 * n + (c.toNat - 48))
    omega

theorem parseDigits_eq {max : ℕ} {s : List Char} {n : ℕ} (hs : ∀ c ∈ s, c.isDigit = true)
    (hmax : Nat.ofDigitChars 10 s n ≤ max) :
    parseDigits max s n = (Nat.ofDigitChars 10 s n, false) := by
  induction s generalizing n with
  | nil => rfl
  | cons c s ih =>
    rw [List.forall_mem_cons] at hs
    change Nat.ofDigitChars 10 s (10 * n + (c.toNat - 48)) ≤ max at hmax
    have hfits : ¬ max < 10 * n + (c.toNat - 48) :=
      Nat.not_lt.mpr (Nat.le_trans (le_ofDigitChars s _) hmax)
    rw [parseDigits, if_pos hs.1, if_neg hfits, ih hs.2 hmax]
    rfl

theorem parseUint_itoa {bits n : ℕ} (h : n < 2 ^ bits) : parseUint bits (itoa n) = (n, false) := by
  have hfits : Nat.ofDigitChars 10 (itoa n) 0 ≤ 2 ^ bits - 1 := by
    rw [ofDigitChars_itoa]
    exact Nat.le_sub_one_of_lt h
  have hread := parseDigits_eq (fun _ => isDigit_of_mem_itoa) hfits
  rw [parseUint, if_neg (itoa_ne_nil n), hread, ofDigitChars_itoa]

theorem atoi_itoa {n : ℕ} (h : n < 2 ^ 63) : atoi (itoa n) = ((n : ℤ), false) := by
  have hparse : parseUint 64 (itoa n) = (n, false) := parseUint_itoa (by omega)
  rcases hs : itoa n with _ | ⟨c, s⟩
  · exact absurd hs (itoa_ne_nil n)
  · have hc : c.isDigit = true := isDigit_of_mem_itoa (n := n) (by simp [hs])
    rw [hs] at hparse
    unfold atoi
    split
    rename_i neg digits hsign
    split at hsign
    · rename_i heq
      cases heq
      exact absurd hc (by decide)
    · rename_i heq
      cases heq
      exact absurd hc (by decide)
    · cases hsign
      simpa [hparse] using h

end DRDS.Go
