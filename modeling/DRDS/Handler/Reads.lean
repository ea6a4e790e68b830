import DRDS.Handler.Handler

/-! What the reads of a record table return when the database answers. -/
namespace DRDS
open Go

instance lawfulOrderMax_uint32 : Std.LawfulOrderMax UInt32 where
  max_eq_or a b := by
    change (if a ≤ b then b else a) = a ∨ (if a ≤ b then b else a) = b
    split_ifs
    · exact .inr rfl
    · exact .inl rfl
  max_le_iff a b c := by
    change (if a ≤ b then b else a) ≤ c ↔ a ≤ c ∧ b ≤ c
    split_ifs with h
    · exact ⟨fun hb => ⟨UInt32.le_trans h hb, hb⟩, fun hab => hab.2⟩
    · have hba : b ≤ a := (UInt32.le_total a b).resolve_left h
      exact ⟨fun ha => ⟨ha, UInt32.le_trans hba ha⟩, fun hab => hab.1⟩

theorem World.select_world (e : Env) (id : UInt16) (wellFormed : Bool) (columns : ℕ)
    (keep : Row → Bool) (w : World) : (w.select e id wellFormed columns keep).2 = w.tick := by
  unfold select
  cases e.statement w.calls with
  | some err => rfl
  | none =>
    cases w.tables id with
    | none => rfl
    | some t =>
      dsimp only
      split_ifs <;> rfl

theorem Handler.readSynt_world (e : Env) (h : Handler) (id : UInt16) (synt : UInt32) (w : World) :
    (h.readSynt e id synt w).2 = w.tick := by
  have hworld := World.select_world e id (decide (0 < h.dataShapes id)) (h.dataShapes id).toNat
    (fun r => r.iter = synt) w
  unfold readSynt
  dsimp only
  rcases hsel : w.select e id (decide (0 < h.dataShapes id)) (h.dataShapes id).toNat
    (fun r => r.iter = synt) with ⟨_ | (_ | ⟨row, rows⟩), w'⟩
  all_goals
    rw [hsel] at hworld
    obtain rfl : w' = w.tick := hworld
  · rfl
  · rfl
  · dsimp only
    split_ifs <;> rfl

/-- What a SELECT of so many value columns reads of a row. -/
def Row.read (columns : ℕ) (r : Row) : List Float64 := (r.values.take columns).rightpad columns 0

@[simp] theorem Row.length_read (columns : ℕ) (r : Row) : (r.read columns).length = columns := by
  rw [read, List.length_rightpad, List.length_take]
  omega

theorem Row.read_of_length {columns : ℕ} {r : Row} (h : r.values.length = columns) :
    r.read columns = r.values := by
  rw [read, List.take_of_length_le h.le, List.rightpad, h, Nat.sub_self, List.replicate_zero,
    List.append_nil]

def Table.lastSynt (t : Table) : UInt32 := ((t.rows.map Row.iter).max?).getD 0

theorem Table.le_lastSynt {t : Table} {r : Row} (hr : r ∈ t.rows) : r.iter ≤ t.lastSynt := by
  have hmem : r.iter ∈ t.rows.map Row.iter := List.mem_map_of_mem hr
  unfold lastSynt
  cases hmax : (t.rows.map Row.iter).max? with
  | none =>
    rw [List.max?_eq_none_iff] at hmax
    simp [hmax] at hmem
  | some last => exact (List.max?_eq_some_iff.mp hmax).2 _ hmem

theorem Table.exists_lastSynt {t : Table} (h : t.rows ≠ []) : ∃ r ∈ t.rows, r.iter = t.lastSynt := by
  unfold lastSynt
  cases hmax : (t.rows.map Row.iter).max? with
  | none =>
    rw [List.max?_eq_none_iff, List.map_eq_nil_iff] at hmax
    exact absurd hmax h
  | some last => exact List.mem_map.mp (List.max?_eq_some_iff.mp hmax).1

def Table.range (t : Table) (start stop : UInt32) : List Row :=
  t.rows.filter fun r => start ≤ r.iter ∧ r.iter < stop

section Answered
variable {e : Env} {id : UInt16} {w : World} {t : Table}

theorem queryLastSynt_of_answer (ht : w.tables id = some t) (he : e.statement w.calls = none) :
    queryLastSynt e id w = (t.lastSynt, w.tick) := by
  simp [queryLastSynt, World.select, ht, he, Table.lastSynt, Function.comp_def]

theorem queryLastSynt_of_error (e : Env) (id : UInt16) (w : World)
    (he : e.statement w.calls ≠ none) : queryLastSynt e id w = (0, w.tick) := by
  obtain ⟨err, herr⟩ := Option.ne_none_iff_exists'.mp he
  simp [queryLastSynt, World.select, herr]

theorem queryLastSynt_world (e : Env) (id : UInt16) (w : World) :
    (queryLastSynt e id w).2 = w.tick := by
  have hworld := World.select_world e id true 0 (fun _ => true) w
  unfold queryLastSynt
  rcases hsel : w.select e id true 0 (fun _ => true) with ⟨_ | rows, w'⟩
  all_goals
    rw [hsel] at hworld
    exact hworld

variable {h : Handler} {start stop : UInt32}

/-- The statement of a range read is well formed and names columns of the table. -/
def Handler.Selects (h : Handler) (id : UInt16) (t : Table) : Prop :=
  0 < h.dataShapes id ∧ (h.dataShapes id).toNat ≤ t.columns

theorem Handler.readRange_world (e : Env) (h : Handler) (id : UInt16) (start stop : UInt32)
    (w : World) : (h.readRange e id start stop w).2 = w.tick := by
  have hworld := World.select_world e id (decide (0 < h.dataShapes id)) (h.dataShapes id).toNat
    (fun r => start ≤ r.iter ∧ r.iter < stop) w
  unfold readRange
  dsimp only
  rcases hsel : w.select e id (decide (0 < h.dataShapes id)) (h.dataShapes id).toNat
    (fun r => start ≤ r.iter ∧ r.iter < stop) with ⟨_ | rows, w'⟩
  all_goals
    rw [hsel] at hworld
    exact hworld

theorem Handler.readRange_answer (start stop : UInt32) (ht : w.tables id = some t) :
    (∃ err, (h.readRange e id start stop w).1 = .error err ∧
      ¬ (e.statement w.calls = none ∧ h.Selects id t)) ∨
    (e.statement w.calls = none ∧ h.Selects id t ∧ ∃ simuVec phyVec dataMat,
      (h.readRange e id start stop w).1 = .ok (simuVec, phyVec, dataMat) ∧
      dataMat.length = (t.range start stop).length) := by
  unfold readRange World.select Selects
  cases he : e.statement w.calls with
  | some err => exact .inl ⟨err, rfl, by simp⟩
  | none =>
    by_cases hs : 0 < h.dataShapes id ∧ (h.dataShapes id).toNat ≤ t.columns
    · right
      refine ⟨rfl, hs, ?_⟩
      simp [ht, hs.1, hs.2, Table.range]
    · left
      simp [ht, hs]

/-- With a shape whose scan targets a byte can count, the three vectors are those of the rows. -/
theorem Handler.readRange_of_answer (ht : w.tables id = some t) (he : e.statement w.calls = none)
    (hs : h.Selects id t) (hsize : h.dataShapes id < 254) :
    h.readRange e id start stop w = (.ok ((t.range start stop).map Row.iter,
      (t.range start stop).map Row.recvT,
      (t.range start stop).map (Row.read (h.dataShapes id).toNat)), w.tick) := by
  have htargets : scanTargets (h.dataShapes id) 2 = (h.dataShapes id).toNat + 2 := by
    have hlt : (h.dataShapes id).toNat < 254 := UInt8.lt_iff_toNat_lt.mp hsize
    rw [scanTargets, UInt8.toNat_add]
    change ((h.dataShapes id).toNat + 2) % 256 = _
    omega
  have hscan : ∀ row : Row, scanRow (h.dataShapes id) row =
      ([row.iter], [row.recvT], row.values) := by
    intro row
    rw [scanRow, htargets]
    simp
  unfold readRange World.select
  simp only [he, ht, hs.1, hs.2, decide_true, and_self, if_true]
  simp only [List.flatMap_map, List.map_map, Function.comp_def, hscan]
  rw [List.map_eq_flatMap (f := Row.iter), List.map_eq_flatMap (f := Row.recvT)]
  rfl

end Answered

/-! ### The rows of a table -/

/-- The rows of `record<id>`, none when there is no such table. -/
def World.rows (w : World) (id : UInt16) : List Row := ((w.tables id).map Table.rows).getD []

@[simp] theorem World.rows_tick (w : World) (id : UInt16) : w.tick.rows id = w.rows id := rfl

theorem World.rows_of_table {w : World} {id : UInt16} {t : Table} (ht : w.tables id = some t) :
    w.rows id = t.rows := by
  rw [rows, ht]
  rfl

theorem World.insert_rows (e : Env) (id : UInt16) (columns : ℕ) (rows : List Row) (w : World)
    (id' : UInt16) : ((w.insert e id columns rows).2.rows id' = w.rows id') ∨
      (id' = id ∧ (w.insert e id columns rows).1 = none ∧
        (w.insert e id columns rows).2.rows id' =
          w.rows id' ++ rows.map fun r => { r with values := r.values.map e.column }) := by
  unfold insert
  cases e.statement w.calls with
  | some err => exact .inl rfl
  | none =>
    cases ht : w.tables id with
    | none => exact .inl rfl
    | some t =>
      dsimp only
      split_ifs
      · by_cases hid : id' = id
        · right
          subst hid
          refine ⟨rfl, rfl, ?_⟩
          simp [World.rows, ht]
        · left
          simp [World.rows, Function.update_of_ne hid]
      · exact .inl rfl

theorem World.insert_columns (e : Env) (id : UInt16) (columns : ℕ) (rows : List Row) (w : World)
    (id' : UInt16) : ((w.insert e id columns rows).2.tables id').map Table.columns =
      (w.tables id').map Table.columns := by
  unfold insert
  cases e.statement w.calls with
  | some err => rfl
  | none =>
    cases ht : w.tables id with
    | none => rfl
    | some t =>
      dsimp only
      split_ifs
      · by_cases hid : id' = id
        · subst hid
          simp [ht]
        · simp [Function.update_of_ne hid]
      · rfl

/-- A time that is no later than some record. -/
def Reached (rows : List Row) (time : UInt32) : Prop := time = 0 ∨ ∃ r ∈ rows, time ≤ r.iter

theorem Reached.mono {rows rows' : List Row} {time : UInt32} (h : Reached rows time)
    (hsub : rows ⊆ rows') : Reached rows' time := by
  rcases h with hzero | ⟨r, hr, hle⟩
  · exact .inl hzero
  · exact .inr ⟨r, hsub hr, hle⟩

theorem reached_queryLastSynt (e : Env) (id : UInt16) (w : World) :
    Reached (w.rows id) (queryLastSynt e id w).1 := by
  unfold queryLastSynt World.select
  cases e.statement w.calls with
  | some err => exact .inl rfl
  | none =>
    cases ht : w.tables id with
    | none => exact .inl rfl
    | some t =>
      simp only [List.filter_true, zero_le, and_self, if_true, List.map_map, Function.comp_def,
        World.rows_of_table ht]
      cases hmax : (t.rows.map fun r => r.iter).max? with
      | none => exact .inl rfl
      | some last =>
        obtain ⟨r, hr, hiter⟩ := List.mem_map.mp (List.max?_eq_some_iff.mp hmax).1
        exact .inr ⟨r, hr, by rw [hiter]; exact UInt32.le_refl _⟩

theorem Reached.le_queryLastSynt {e : Env} {id : UInt16} {w : World} {time : UInt32}
    (h : Reached (w.rows id) time) (he : e.statement w.calls = none) :
    time ≤ (queryLastSynt e id w).1 := by
  rcases h with rfl | ⟨r, hr, hle⟩
  · exact UInt32.zero_le
  · cases ht : w.tables id with
    | none => simp [World.rows, ht] at hr
    | some t =>
      rw [World.rows_of_table ht] at hr
      rw [queryLastSynt_of_answer ht he]
      exact UInt32.le_trans hle (t.le_lastSynt hr)

end DRDS
