import DRDS.Handler.ReadRange

/-! Reads of a single time. An error, a time without a record and a row that cannot be scanned
all read as no values. -/
namespace DRDS
open Go

/-- The statement names columns of the table, and a byte counts its scan targets. -/
structure Handler.Scans (h : Handler) (id : UInt16) (t : Table) : Prop where
  selects : h.Selects id t
  counted : h.dataShapes id ≠ 255

/-- The row `QueryRow` takes: the first of the time. -/
def Table.rowAt? (t : Table) (synt : UInt32) : Option Row := t.rows.find? fun r => r.iter = synt

theorem Table.mem_of_rowAt? {t : Table} {synt : UInt32} {r : Row} (h : t.rowAt? synt = some r) :
    r ∈ t.rows ∧ r.iter = synt :=
  ⟨List.mem_of_find?_eq_some h, of_decide_eq_true (List.find?_some h :)⟩

theorem Table.rowAt?_eq_none {t : Table} {synt : UInt32} :
    t.rowAt? synt = none ↔ ∀ r ∈ t.rows, r.iter ≠ synt := by
  simp [rowAt?]

/-- A row read at a time is the values of the first record of the time, if there is one and the
statement, the `k`-th question to the outside, is answered and can be scanned; and empty else. -/
inductive Handler.SyntValues (e : Env) (h : Handler) (id : UInt16) (t : Table) (synt : UInt32)
    (k : ℕ) : List Float64 → Prop
  | row {r : Row} (hr : t.rowAt? synt = some r) (he : e.statement k = none) (hs : h.Scans id t) :
      SyntValues e h id t synt k (r.read (h.dataShapes id).toNat)
  | none (hno : t.rowAt? synt = none ∨ e.statement k ≠ none ∨ ¬ h.Scans id t) :
      SyntValues e h id t synt k []

theorem Handler.SyntValues.length_lt {e : Env} {h : Handler} {id : UInt16} {t : Table}
    {synt : UInt32} {k : ℕ} {values : List Float64} (hv : h.SyntValues e id t synt k values) :
    values.length < 256 := by
  cases hv with
  | row =>
    rw [Row.length_read]
    exact UInt8.toNat_lt _
  | none => decide

theorem scanTargets_one (columnSize : UInt8) :
    scanTargets columnSize 1 = columnSize.toNat + 1 ↔ columnSize ≠ 255 := by
  have hlt := columnSize.toNat_lt
  rw [scanTargets, UInt8.toNat_add, ne_eq, ← UInt8.toNat_inj]
  change (columnSize.toNat + 1) % 256 = columnSize.toNat + 1 ↔ ¬ columnSize.toNat = 255
  omega

theorem Handler.readSynt_values {e : Env} {h : Handler} {id : UInt16} {t : Table} {w : World}
    (synt : UInt32) (ht : w.tables id = some t) : ∃ recvT values,
      h.readSynt e id synt w = ((recvT, values, none), w.tick) ∧
        h.SyntValues e id t synt w.calls values := by
  unfold readSynt World.select
  cases he : e.statement w.calls with
  | some err => exact ⟨0, [], rfl, .none (.inr (.inl (by simp [he])))⟩
  | none =>
    rw [ht]
    dsimp only
    by_cases hs : h.Selects id t
    · rw [if_pos ⟨decide_eq_true hs.1, hs.2⟩]
      cases hr : t.rowAt? synt with
      | none =>
        have hfilter : (t.rows.filter fun r => decide (r.iter = synt)) = [] := by
          rw [List.filter_eq_nil_iff]
          exact fun r hmem => by simpa using Table.rowAt?_eq_none.mp hr r hmem
        rw [hfilter]
        exact ⟨0, [], rfl, .none (.inl hr)⟩
      | some r =>
        have hhead : (t.rows.filter fun r => decide (r.iter = synt)).head? = some r := by
          rw [List.head?_filter]
          exact hr
        obtain ⟨rest, hfilter⟩ := List.head?_eq_some_iff.mp hhead
        rw [hfilter, List.map_cons]
        dsimp only
        by_cases hsize : h.dataShapes id = 255
        · rw [if_neg (fun hcount => (scanTargets_one _).mp hcount hsize)]
          exact ⟨0, [], rfl, .none (.inr (.inr fun hscan => hscan.counted hsize))⟩
        · rw [if_pos ((scanTargets_one _).mpr hsize)]
          exact ⟨r.recvT, _, rfl, .row hr he ⟨hs, hsize⟩⟩
    · have hno : ¬ (decide (0 < h.dataShapes id) = true ∧ (h.dataShapes id).toNat ≤ t.columns) :=
        fun hyes => hs ⟨of_decide_eq_true hyes.1, hyes.2⟩
      rw [if_neg hno]
      exact ⟨0, [], rfl, .none (.inr (.inr fun hscan => hs hscan.selects))⟩

/-! ### An interval, time by time -/

def Table.between (t : Table) (start last : UInt32) : List Row :=
  t.rows.filter fun r => start ≤ r.iter ∧ r.iter ≤ last

def Table.atTime (t : Table) (time : ℕ) : List Row := t.rows.filter fun r => r.iter.toNat = time

def Table.fromTime (t : Table) : ℕ → ℕ → List Row
  | _, 0 => []
  | time, n + 1 => t.atTime time ++ t.fromTime (time + 1) n

theorem Table.mem_fromTime {t : Table} {time n : ℕ} {r : Row} :
    r ∈ t.fromTime time n ↔ r ∈ t.rows ∧ time ≤ r.iter.toNat ∧ r.iter.toNat < time + n := by
  induction n generalizing time with
  | zero =>
    simp only [fromTime, List.not_mem_nil, Nat.add_zero, false_iff, not_and, not_lt]
    exact fun _ h => h
  | succ n ih =>
    rw [fromTime, List.mem_append, ih, atTime, List.mem_filter, decide_eq_true_eq, ← and_or_left]
    apply and_congr_right
    intro _
    omega

theorem Table.fromTime_perm (t : Table) (time n : ℕ) : (t.fromTime time n).Perm
    (t.rows.filter fun r => time ≤ r.iter.toNat ∧ r.iter.toNat < time + n) := by
  induction n generalizing time with
  | zero =>
    have hnone : (t.rows.filter fun r => decide (time ≤ r.iter.toNat ∧ r.iter.toNat < time + 0)) =
        [] := by
      rw [List.filter_eq_nil_iff]
      intro r _
      simp
    rw [hnone]
    exact .refl _
  | succ n ih =>
    refine (List.Perm.append_left _ (ih (time + 1))).trans ?_
    have hsplit := List.filter_append_perm (fun r : Row => decide (r.iter.toNat = time))
      (t.rows.filter fun r => decide (time ≤ r.iter.toNat ∧ r.iter.toNat < time + (n + 1)))
    rw [List.filter_filter, List.filter_filter] at hsplit
    refine List.Perm.trans (.of_eq ?_) hsplit
    congr 1
    · apply List.filter_congr
      intro r _
      by_cases h : r.iter.toNat = time <;> simp [h]
    · apply List.filter_congr
      intro r _
      rw [← decide_not, ← Bool.decide_and, decide_eq_decide]
      omega

theorem Table.fromTime_pairwise (t : Table) (time n : ℕ) :
    (t.fromTime time n).Pairwise fun r r' => r.iter ≤ r'.iter := by
  induction n generalizing time with
  | zero => exact .nil
  | succ n ih =>
    have hat : ∀ r ∈ t.atTime time, r.iter.toNat = time := fun r hr =>
      of_decide_eq_true (List.mem_filter.mp hr).2
    rw [fromTime, List.pairwise_append]
    refine ⟨?_, ih (time + 1), ?_⟩
    · rw [List.pairwise_iff_forall_sublist]
      intro r r' hsub
      have hr := hat r (hsub.subset (by simp))
      have hr' := hat r' (hsub.subset (by simp))
      exact UInt32.le_iff_toNat_le.mpr (hr.trans hr'.symm).le
    · intro r hr r' hr'
      have hlt := (mem_fromTime.mp hr').2.1
      rw [UInt32.le_iff_toNat_le, hat r hr]
      omega

theorem Table.inOrder_fromTime (t : Table) {start last : UInt32} (h : start ≤ last) :
    InOrder (t.between start last) (t.fromTime start.toNat (last.toNat - start.toNat + 1)) := by
  refine ⟨(t.fromTime_perm _ _).trans (.of_eq ?_), t.fromTime_pairwise _ _⟩
  have hle := UInt32.le_iff_toNat_le.mp h
  apply List.filter_congr
  intro r _
  rw [decide_eq_decide, UInt32.le_iff_toNat_le, UInt32.le_iff_toNat_le]
  omega

/-- The values read at successive times, by successive statements. -/
inductive Handler.ReadsTimes (e : Env) (h : Handler) (id : UInt16) (t : Table) :
    UInt32 → ℕ → List (List Float64) → Prop
  | nil {synt : UInt32} {k : ℕ} : ReadsTimes e h id t synt k []
  | cons {synt : UInt32} {k : ℕ} {values : List Float64} {rows : List (List Float64)}
      (hv : h.SyntValues e id t synt k values)
      (hrows : h.ReadsTimes e id t (synt + 1) (k + 1) rows) :
      ReadsTimes e h id t synt k (values :: rows)

/-- There is at most one record of the time, and if there is one the `k`-th statement, which asks
for it, is answered. -/
def Table.Single (t : Table) (e : Env) (time k : ℕ) : Prop :=
  t.atTime time = [] ∨ ∃ r, t.atTime time = [r] ∧ e.statement k = none

theorem Table.rowAt?_eq_head? (t : Table) (synt : UInt32) :
    t.rowAt? synt = (t.atTime synt.toNat).head? := by
  rw [rowAt?, ← List.head?_filter, atTime]
  congr 1
  apply List.filter_congr
  intro r _
  rw [decide_eq_decide, UInt32.toNat_inj]

section Times
variable {e : Env} {h : Handler} {id : UInt16} {t : Table} {synt : UInt32} {k : ℕ}

theorem Handler.SyntValues.length_le {values : List Float64}
    (hv : h.SyntValues e id t synt k values) :
    values.length ≤ (h.dataShapes id).toNat * (t.atTime synt.toNat).length := by
  cases hv with
  | row hr =>
    rw [t.rowAt?_eq_head?] at hr
    obtain ⟨rest, hat⟩ := List.head?_eq_some_iff.mp hr
    rw [Row.length_read, hat, List.length_cons]
    exact Nat.le_mul_of_pos_right _ (Nat.succ_pos _)
  | none => exact Nat.zero_le _

theorem Handler.SyntValues.single {values : List Float64} (hv : h.SyntValues e id t synt k values)
    (hpos : 0 < (h.dataShapes id).toNat)
    (hall : (h.dataShapes id).toNat * (t.atTime synt.toNat).length ≤ values.length) :
    t.Single e synt.toNat k := by
  cases hv with
  | row hr he =>
    rw [t.rowAt?_eq_head?] at hr
    obtain ⟨rest, hat⟩ := List.head?_eq_some_iff.mp hr
    rw [Row.length_read, hat, List.length_cons] at hall
    have hone : rest.length + 1 ≤ 1 := Nat.le_of_mul_le_mul_left (by omega) hpos
    obtain rfl : rest = [] := List.eq_nil_of_length_eq_zero (by omega)
    exact .inr ⟨_, hat, he⟩
  | none =>
    have hzero : (t.atTime synt.toNat).length ≤ 0 :=
      Nat.le_of_mul_le_mul_left (by simpa using hall) hpos
    exact .inl (List.eq_nil_of_length_eq_zero (Nat.le_zero.mp hzero))

theorem Handler.SyntValues.eq_of_single {values : List Float64}
    (hv : h.SyntValues e id t synt k values) (hs : h.Scans id t) (hone : t.Single e synt.toNat k) :
    values = ((t.atTime synt.toNat).map (Row.read (h.dataShapes id).toNat)).flatten := by
  cases hv with
  | row hr =>
    rw [t.rowAt?_eq_head?] at hr
    rcases hone with hnone | ⟨r, hat, _⟩
    · rw [hnone] at hr
      cases hr
    · rw [hat] at hr ⊢
      cases hr
      simp
  | none hno =>
    rw [t.rowAt?_eq_head?] at hno
    rcases hone with hnone | ⟨r, hat, he⟩
    · rw [hnone]
      rfl
    · rcases hno with hnone | hfails | hnot
      · rw [hat] at hnone
        cases hnone
      · exact absurd he hfails
      · exact absurd hs hnot

variable {rows : List (List Float64)}

theorem toNat_add_one {synt : UInt32} (h : synt.toNat + 1 < 2 ^ 32) :
    (synt + 1).toNat = synt.toNat + 1 := by
  rw [UInt32.toNat_add]
  exact Nat.mod_eq_of_lt h

/-- Time by time no more values are read than the records have. -/
theorem Handler.ReadsTimes.length_le (hr : h.ReadsTimes e id t synt k rows)
    (hlt : synt.toNat + rows.length < 2 ^ 32) :
    rows.flatten.length ≤ (h.dataShapes id).toNat * (t.fromTime synt.toNat rows.length).length := by
  induction hr with
  | nil => exact Nat.zero_le _
  | cons hv hrows ih =>
    rw [List.length_cons] at hlt
    have hrest := ih (by rw [toNat_add_one (by omega)]; omega)
    rw [toNat_add_one (by omega)] at hrest
    rw [List.flatten_cons, List.length_append, List.length_cons, Table.fromTime,
      List.length_append, Nat.mul_add]
    exact Nat.add_le_add hv.length_le hrest

theorem Handler.ReadsTimes.single (hr : h.ReadsTimes e id t synt k rows)
    (hlt : synt.toNat + rows.length < 2 ^ 32) (hpos : 0 < (h.dataShapes id).toNat)
    (hall : (h.dataShapes id).toNat * (t.fromTime synt.toNat rows.length).length ≤
      rows.flatten.length) : ∀ j < rows.length, t.Single e (synt.toNat + j) (k + j) := by
  induction hr with
  | nil => exact fun j hj => absurd hj (Nat.not_lt_zero j)
  | @cons synt k values rows hv hrows ih =>
    rw [List.length_cons] at hlt
    have hnext : (synt + 1).toNat = synt.toNat + 1 := toNat_add_one (by omega)
    have hrest := hrows.length_le (by rw [hnext]; omega)
    have hfirst := hv.length_le
    rw [List.flatten_cons, List.length_append, List.length_cons, Table.fromTime,
      List.length_append, Nat.mul_add] at hall
    rw [hnext] at hrest ih
    intro j hj
    cases j with
    | zero => exact hv.single hpos (by omega)
    | succ j =>
      have hj' := ih (by omega) (by omega) j (by rw [List.length_cons] at hj; omega)
      rwa [Nat.add_assoc, Nat.add_assoc, Nat.add_comm 1 j] at hj'

theorem Handler.ReadsTimes.flatten_eq (hr : h.ReadsTimes e id t synt k rows)
    (hlt : synt.toNat + rows.length < 2 ^ 32) (hs : h.Scans id t)
    (hone : ∀ j < rows.length, t.Single e (synt.toNat + j) (k + j)) :
    rows.flatten =
      ((t.fromTime synt.toNat rows.length).map (Row.read (h.dataShapes id).toNat)).flatten := by
  induction hr with
  | nil => rfl
  | @cons synt k values rows hv hrows ih =>
    rw [List.length_cons] at hlt hone
    have hnext : (synt + 1).toNat = synt.toNat + 1 := toNat_add_one (by omega)
    rw [hnext] at ih
    have hrest : ∀ j < rows.length, t.Single e (synt.toNat + 1 + j) (k + 1 + j) := by
      intro j hj
      have hj' := hone (j + 1) (by omega)
      rwa [Nat.add_comm j 1, ← Nat.add_assoc, ← Nat.add_assoc] at hj'
    rw [List.flatten_cons, List.length_cons, Table.fromTime, List.map_append, List.flatten_append,
      hv.eq_of_single hs (hone 0 (Nat.succ_pos _)), ih (by omega) hrest]

end Times

end DRDS
