import DRDS.Server.Effects

/-! Publishing into a channel that others write and read at the same time: what a call has
enqueued when it returns. -/
namespace DRDS.Server
open Go

/-! ### The row loop among others -/

/-- What others do to the channel of a data id. An id without a channel stays without. -/
def changeQueue (change : List Data → List Data) (id : UInt16) (s : Server) : Server :=
  { s with handler := { s.handler with
      dataBuffer := Function.update s.handler.dataBuffer id ((s.handler.dataBuffer id).map change) } }

/-- The row loop of `Publish`, with what others do to the channel before each row, and the
records the call has enqueued. A push that waits for room is one that comes later. -/
def publishRowsAmong (others : ℕ → List Data → List Data) (id : UInt16)
    (synt physicalTime : UInt32) (rawData : Slice Float64) (col : ℕ) :
    List ℕ → Server → Outcome × List Data × Server
  | [], s => (.returned none, [], s)
  | row :: rows, s =>
    let s := s.changeQueue (others row) id
    match rawData.slice? (row * col) ((row + 1) * col) with
    | none => (.panicked, [], s)
    | some value =>
      let data : Data := ⟨synt + .ofNat row, physicalTime, value.toList⟩
      match s.writeToBuffer id data with
      | (some err, s) => (.returned (some err), [], s)
      | (none, t) =>
        let put := if s.handler.dataBuffer id = none then [] else [data]
        let (o, enqueued, t) := publishRowsAmong others id synt physicalTime rawData col rows t
        (o, put ++ enqueued, t)

/-- `Publish` of a registered publisher. -/
def publishAmong (others : ℕ → List Data → List Data) (e : Env) (id : UInt16)
    (dst rows cols : UInt8) (synt physicalTime : UInt32) (rawData : Slice Float64) (s : Server) :
    Outcome × List Data × Server :=
  let (lastSynt, s) := s.queryLastSynt e id
  if synt < lastSynt then
    let (_, s) := s.sendOpt e dst Utils.priorityHight synt Utils.serResponse Utils.flagError
      Utils.reserved Utils.reserved
    (.returned (some "published data are not synchronized with current database"), [], s)
  else publishRowsAmong others id synt physicalTime rawData cols.toNat (List.range rows.toNat) s

@[simp] theorem changeQueue_id (id : UInt16) (s : Server) : s.changeQueue (fun q => q) id = s := by
  have hsame : (s.handler.dataBuffer id).map (fun q => q) = s.handler.dataBuffer id :=
    Option.map_id'
  rw [changeQueue, hsame, Function.update_eq_self]

theorem publishRowsAmong_alone (id : UInt16) (synt physicalTime : UInt32)
    (rawData : Slice Float64) (col : ℕ) (rows : List ℕ) (s : Server) : ∃ enqueued,
      publishRowsAmong (fun _ q => q) id synt physicalTime rawData col rows s =
        ((publishRows id synt physicalTime rawData col rows s).1, enqueued,
          (publishRows id synt physicalTime rawData col rows s).2) := by
  induction rows generalizing s with
  | nil => exact ⟨[], rfl⟩
  | cons row rows ih =>
    unfold publishRowsAmong publishRows
    rw [changeQueue_id]
    dsimp only
    cases rawData.slice? (row * col) ((row + 1) * col) with
    | none => exact ⟨[], rfl⟩
    | some value =>
      rcases hwrite : s.writeToBuffer id ⟨synt + .ofNat row, physicalTime, value.toList⟩ with
        ⟨_ | err, t⟩
      · obtain ⟨enqueued, hrest⟩ := ih t
        simp only [hwrite, hrest]
        exact ⟨_, rfl⟩
      · simp only [hwrite]
        exact ⟨[], rfl⟩

/-- A call that others leave alone is the call of the code. -/
theorem publishAmong_alone (e : Env) (id : UInt16) (dst rows cols : UInt8)
    (synt physicalTime : UInt32) (rawData : Slice Float64) (s : Server)
    (hreg : s.isPublisherRegistered id dst) : ∃ enqueued,
      publishAmong (fun _ q => q) e id dst rows cols synt physicalTime rawData s =
        ((s.publish e id dst rows cols synt physicalTime rawData).1, enqueued,
          (s.publish e id dst rows cols synt physicalTime rawData).2) := by
  unfold publishAmong publish publishFrom
  rw [if_pos hreg]
  dsimp only
  split_ifs
  · exact ⟨[], rfl⟩
  · exact publishRowsAmong_alone ..

/-! ### One row -/

section Rows
variable (others : ℕ → List Data → List Data) (id : UInt16) (synt physicalTime : UInt32)
  (rawData : Slice Float64) (col : ℕ)

def rowData (row : ℕ) : Data :=
  ⟨synt + .ofNat row, physicalTime,
    ((rawData.slice? (row * col) ((row + 1) * col)).map Slice.toList).getD []⟩

/-- The channel as the call finds it `j` rows after a row, if it enqueues the rows up to there. -/
def foundAfter (row : ℕ) (queue : List Data) : ℕ → List Data
  | 0 => others row queue
  | j + 1 => foundAfter (row + 1)
    (others row queue ++ [rowData synt physicalTime rawData col row]) j

variable {others id synt physicalTime rawData col}

theorem slice?_row (row : ℕ) :
    (∃ value, rawData.slice? (row * col) ((row + 1) * col) = some value) ↔
      (row + 1) * col ≤ rawData.cap := by
  rw [← Option.isSome_iff_exists, Option.isSome_iff_ne_none, ne_eq, Slice.slice?_eq_none, not_not]
  exact and_iff_right (Nat.mul_le_mul_right _ (Nat.le_succ row))

theorem slice?_row_eq_none {row : ℕ} : rawData.slice? (row * col) ((row + 1) * col) = none ↔
    rawData.cap < (row + 1) * col := by
  rw [← Option.not_isSome_iff_eq_none, Option.isSome_iff_exists, slice?_row, Nat.not_le]

theorem rowData_of_slice? {row : ℕ} {value : Slice Float64}
    (h : rawData.slice? (row * col) ((row + 1) * col) = some value) :
    rowData synt physicalTime rawData col row =
      ⟨synt + .ofNat row, physicalTime, value.toList⟩ := by
  rw [rowData, h]
  rfl

variable (others synt physicalTime rawData col) in
theorem publishRowsAmong_cons (row : ℕ) (rows : List ℕ) {s : Server} {queue : List Data}
    (hqueue : s.handler.dataBuffer id = some queue) :
    let run := publishRowsAmong others id synt physicalTime rawData col
    (rawData.cap < (row + 1) * col ∧ (run (row :: rows) s).1 = .panicked ∧
      (run (row :: rows) s).2.1 = []) ∨
    ((row + 1) * col ≤ rawData.cap ∧ Utils.buffLen ≤ (others row queue).length ∧
      (run (row :: rows) s).1 = .returned (some "buffer is full") ∧ (run (row :: rows) s).2.1 = []) ∨
    ((row + 1) * col ≤ rawData.cap ∧ ¬ Utils.buffLen ≤ (others row queue).length ∧
      ∃ t : Server, t.handler.dataBuffer id =
          some (others row queue ++ [rowData synt physicalTime rawData col row]) ∧
        (run (row :: rows) s).1 = (run rows t).1 ∧
        (run (row :: rows) s).2.1 =
          rowData synt physicalTime rawData col row :: (run rows t).2.1) := by
  intro run
  have hfound : (s.changeQueue (others row) id).handler.dataBuffer id = some (others row queue) := by
    simp [changeQueue, hqueue]
  simp only [run, publishRowsAmong]
  by_cases hin : (row + 1) * col ≤ rawData.cap
  · obtain ⟨value, hvalue⟩ := slice?_row row |>.mpr hin
    have hdata : rowData synt physicalTime rawData col row =
        ⟨synt + .ofNat row, physicalTime, value.toList⟩ := rowData_of_slice? hvalue
    rw [hvalue]
    dsimp only
    right
    by_cases hfull : Utils.buffLen ≤ (others row queue).length
    · left
      refine ⟨hin, hfull, ?_⟩
      simp [writeToBuffer, Handler.writeToBuffer, hfound, hfull]
    · right
      refine ⟨hin, hfull, ?_⟩
      simp only [writeToBuffer, Handler.writeToBuffer, hfound, hfull, if_false, hdata]
      refine ⟨_, ?_, rfl, rfl⟩
      simp
  · left
    have hout : rawData.cap < (row + 1) * col := Nat.lt_of_not_le hin
    rw [slice?_row_eq_none.mpr hout]
    exact ⟨hout, rfl, rfl⟩

variable (others synt physicalTime rawData col) in
/-- Without a channel every row there is counts as enqueued, and none is. -/
theorem publishRowsAmong_of_none (n row : ℕ) {s : Server} (hnone : s.handler.dataBuffer id = none) :
    let run := publishRowsAmong others id synt physicalTime rawData col (List.range' row n) s
    run.2.1 = [] ∧ (run.1 = .returned none ∨ run.1 = .panicked) ∧
      (run.1 = .returned none ↔ n = 0 ∨ (row + n) * col ≤ rawData.cap) := by
  induction n generalizing row s with
  | zero => exact ⟨rfl, .inl rfl, fun _ => .inl rfl, fun _ => rfl⟩
  | succ n ih =>
    intro run
    have hwrite : ∀ data : Data, (s.changeQueue (others row) id).writeToBuffer id data =
        (none, s.changeQueue (others row) id) := by
      intro data
      simp [writeToBuffer, Handler.writeToBuffer, changeQueue, hnone]
    have hnone' : (s.changeQueue (others row) id).handler.dataBuffer id = none := by
      simp [changeQueue, hnone]
    have hrest := ih (row + 1) hnone'
    simp only [run, List.range'_succ, publishRowsAmong, hnone', if_true, List.nil_append]
    cases hvalue : rawData.slice? (row * col) ((row + 1) * col) with
    | none =>
      have hout := slice?_row_eq_none.mp hvalue
      refine ⟨rfl, .inr rfl, Iff.intro (fun h => by cases h) ?_⟩
      rintro (hzero | hle)
      · cases hzero
      · have hmono : (row + 1) * col ≤ (row + (n + 1)) * col := Nat.mul_le_mul_right _ (by omega)
        omega
    | some value =>
      have hin := (slice?_row row).mp ⟨value, hvalue⟩
      dsimp only
      rw [hwrite]
      refine ⟨hrest.1, hrest.2.1, hrest.2.2.trans ?_⟩
      rw [Nat.add_assoc, Nat.add_comm 1 n]
      rcases Nat.eq_zero_or_pos n with rfl | hpos
      · simpa using hin
      · simp only [hpos.ne', false_or, Nat.add_eq_zero_iff, one_ne_zero, and_false]

section Channel
variable (n row : ℕ) {s : Server} {queue : List Data}

theorem enqueued_of_nil (hqueue : s.handler.dataBuffer id = some queue)
    (hnil : (publishRowsAmong others id synt physicalTime rawData col (List.range' row n) s).1 =
      .returned none) :
    (publishRowsAmong others id synt physicalTime rawData col (List.range' row n) s).2.1 =
      (List.range' row n).map (rowData synt physicalTime rawData col) := by
  induction n generalizing row s queue with
  | zero => rfl
  | succ n ih =>
    rw [List.range'_succ] at hnil ⊢
    rcases publishRowsAmong_cons others synt physicalTime rawData col row
        (List.range' (row + 1) n) hqueue with
      ⟨_, hpanic, _⟩ | ⟨_, _, herr, _⟩ | ⟨_, _, t, ht, hout, henq⟩
    · rw [hnil] at hpanic
      cases hpanic
    · rw [hnil] at herr
      cases herr
    · rw [henq, ih (row + 1) ht (hout.symm.trans hnil), List.map_cons]

theorem fails_of_full (hqueue : s.handler.dataBuffer id = some queue)
    (hfull : ∃ j < n, (row + j + 1) * col ≤ rawData.cap ∧
      Utils.buffLen ≤ (foundAfter others synt physicalTime rawData col row queue j).length) :
    (publishRowsAmong others id synt physicalTime rawData col (List.range' row n) s).1 =
      .returned (some "buffer is full") := by
  induction n generalizing row s queue with
  | zero =>
    obtain ⟨j, hj, _⟩ := hfull
    exact absurd hj (Nat.not_lt_zero j)
  | succ n ih =>
    obtain ⟨j, hj, hin, hlen⟩ := hfull
    have hmono : (row + 1) * col ≤ (row + j + 1) * col := Nat.mul_le_mul_right _ (by omega)
    rw [List.range'_succ]
    rcases publishRowsAmong_cons others synt physicalTime rawData col row
        (List.range' (row + 1) n) hqueue with
      ⟨hout, _⟩ | ⟨_, _, herr, _⟩ | ⟨_, hroom, t, ht, hout, _⟩
    · omega
    · exact herr
    · cases j with
      | zero => exact absurd hlen hroom
      | succ j =>
        rw [hout]
        refine ih (row + 1) ht ⟨j, by omega, ?_, hlen⟩
        rwa [Nat.add_assoc row 1 j, Nat.add_comm 1 j]

theorem full_of_fails (hqueue : s.handler.dataBuffer id = some queue) {err : String}
    (herr : (publishRowsAmong others id synt physicalTime rawData col (List.range' row n) s).1 =
      .returned (some err)) :
    ∃ j < n, (row + j + 1) * col ≤ rawData.cap ∧
      Utils.buffLen ≤ (foundAfter others synt physicalTime rawData col row queue j).length := by
  induction n generalizing row s queue with
  | zero => cases herr
  | succ n ih =>
    rw [List.range'_succ] at herr
    rcases publishRowsAmong_cons others synt physicalTime rawData col row
        (List.range' (row + 1) n) hqueue with
      ⟨_, hpanic, _⟩ | ⟨hin, hfull, _, _⟩ | ⟨_, _, t, ht, hout, _⟩
    · rw [herr] at hpanic
      cases hpanic
    · exact ⟨0, Nat.succ_pos n, hin, hfull⟩
    · obtain ⟨j, hj, hin, hlen⟩ := ih (row + 1) ht (hout.symm.trans herr)
      refine ⟨j + 1, by omega, ?_, hlen⟩
      rwa [Nat.add_assoc row 1 j, Nat.add_comm 1 j] at hin

end Channel

end Rows

/-! ### All or nothing -/

/-- A call that returns an error has enqueued nothing, and one that returns `nil` each of its rows
once, in order. -/
structure AllOrNothing (records : List Data) (run : Outcome × List Data × Server) : Prop where
  nothing : ∀ err, run.1 = .returned (some err) → run.2.1 = []
  everything : run.1 = .returned none → run.2.1 = records

section Atomic
variable (others : ℕ → List Data → List Data) (e : Env) (id : UInt16) (dst rows cols : UInt8)
  (synt physicalTime : UInt32) (rawData : Slice Float64) (col n : ℕ) (s : Server)

theorem allOrNothing_of_none (hnone : s.handler.dataBuffer id = none) :
    AllOrNothing ((List.range' 0 n).map (rowData synt physicalTime rawData col))
        (publishRowsAmong others id synt physicalTime rawData col (List.range' 0 n) s) ↔
      n = 0 ∨ rawData.cap < n * col := by
  obtain ⟨hput, hends, hnil⟩ :=
    publishRowsAmong_of_none others synt physicalTime rawData col n 0 hnone
  rw [Nat.zero_add] at hnil
  constructor
  · rintro ⟨_, heverything⟩
    by_cases hin : n * col ≤ rawData.cap
    · have hrecords := heverything (hnil.mpr (.inr hin))
      rw [hput, eq_comm, List.map_eq_nil_iff, List.range'_eq_nil_iff] at hrecords
      exact .inl hrecords
    · exact .inr (Nat.lt_of_not_le hin)
  · intro hcond
    refine ⟨fun _ _ => hput, fun hreturned => ?_⟩
    obtain rfl : n = 0 := by
      rcases hnil.mp hreturned with hzero | hin
      · exact hzero
      · exact hcond.resolve_right (Nat.not_lt_of_le hin)
    exact hput

theorem allOrNothing_of_queue {queue : List Data}
    (hqueue : s.handler.dataBuffer id = some queue) :
    AllOrNothing ((List.range' 0 n).map (rowData synt physicalTime rawData col))
        (publishRowsAmong others id synt physicalTime rawData col (List.range' 0 n) s) ↔
      Utils.buffLen ≤ (foundAfter others synt physicalTime rawData col 0 queue 0).length ∨
        ∀ row < n, (row + 1) * col ≤ rawData.cap → ¬ Utils.buffLen ≤
          (foundAfter others synt physicalTime rawData col 0 queue row).length := by
  constructor
  · rintro ⟨hnothing, _⟩
    by_contra hcond
    push Not at hcond
    obtain ⟨hroom, row, hrow, hin, hfull⟩ := hcond
    have herr := fails_of_full n 0 hqueue ⟨row, hrow, by rwa [Nat.zero_add], hfull⟩
    have hempty := hnothing _ herr
    -- the first row was enqueued before
    obtain ⟨m, rfl⟩ : ∃ m, n = m + 1 := Nat.exists_eq_succ_of_ne_zero (by omega)
    rw [List.range'_succ] at herr hempty
    have hfirst : (0 + 1) * col ≤ (row + 1) * col := Nat.mul_le_mul_right _ (by omega)
    rcases publishRowsAmong_cons others synt physicalTime rawData col 0 (List.range' (0 + 1) m)
        hqueue with ⟨hout, _⟩ | ⟨_, hfull', _⟩ | ⟨_, _, t, _, _, henq⟩
    · omega
    · exact absurd hfull' (Nat.not_le_of_lt hroom)
    · rw [hempty] at henq
      cases henq
  · rintro (hfull | hroom)
    · cases n with
      | zero => exact ⟨fun _ _ => rfl, fun _ => rfl⟩
      | succ m =>
        rw [List.range'_succ]
        rcases publishRowsAmong_cons others synt physicalTime rawData col 0 (List.range' (0 + 1) m)
            hqueue with ⟨_, hpanic, hempty⟩ | ⟨_, _, herr, hempty⟩ | ⟨_, hroom, _⟩
        · exact ⟨fun _ _ => hempty, fun hnil => by rw [hpanic] at hnil; cases hnil⟩
        · exact ⟨fun _ _ => hempty, fun hnil => by rw [herr] at hnil; cases hnil⟩
        · exact absurd hfull hroom
    · refine ⟨fun err herr => ?_, fun hnil => enqueued_of_nil n 0 hqueue hnil⟩
      obtain ⟨row, hrow, hin, hfull⟩ := full_of_fails n 0 hqueue herr
      rw [Nat.zero_add] at hin
      exact absurd hfull (hroom row hrow hin)

/-- The channel is full for the first row, or for no row that is there. Where there is no channel,
there are no rows, or not all are there. -/
def FullAtFirst : Prop :=
  match s.handler.dataBuffer id with
  | none => rows.toNat = 0 ∨ rawData.cap < rows.toNat * cols.toNat
  | some queue =>
    Utils.buffLen ≤ (foundAfter others synt physicalTime rawData cols.toNat 0 queue 0).length ∨
      ∀ row < rows.toNat, (row + 1) * cols.toNat ≤ rawData.cap → ¬ Utils.buffLen ≤
        (foundAfter others synt physicalTime rawData cols.toNat 0 queue row).length

/-- A call is all or nothing exactly when it is refused for its time, or the channel, as others
leave it, is full for its first row or never. -/
theorem publish_allOrNothing_iff :
    AllOrNothing ((List.range rows.toNat).map (rowData synt physicalTime rawData cols.toNat))
        (publishAmong others e id dst rows cols synt physicalTime rawData s) ↔
      synt < (s.queryLastSynt e id).1 ∨
        FullAtFirst others id rows cols synt physicalTime rawData s := by
  rw [publishAmong]
  dsimp only
  by_cases hlate : synt < (s.queryLastSynt e id).1
  · rw [if_pos hlate]
    exact ⟨fun _ => .inl hlate, fun _ => ⟨fun _ _ => rfl, fun hnil => by cases hnil⟩⟩
  · have hbuffer : (s.queryLastSynt e id).2.handler.dataBuffer id = s.handler.dataBuffer id := rfl
    rw [if_neg hlate, or_iff_right hlate, FullAtFirst, List.range_eq_range']
    cases hqueue : s.handler.dataBuffer id with
    | none => exact allOrNothing_of_none _ _ _ _ _ _ _ _ (hbuffer.trans hqueue)
    | some queue => exact allOrNothing_of_queue _ _ _ _ _ _ _ _ (hbuffer.trans hqueue)

end Atomic

def publishing (queue : List Data) : Server := { afterInit with
  publisherRegister := fun _ => [2]
  handler := { afterInit.handler with dataBuffer := fun _ => some queue } }

/-- With room for one record the first of two rows is enqueued and the second refused. -/
theorem oneLeft_not_allOrNothing {queue : List Data} (hlen : queue.length + 1 = Utils.buffLen) :
    ¬ AllOrNothing ((List.range 2).map (rowData 500 0 (.ofList [1, 2]) 1))
      (publishAmong (fun _ q => q) .reliable 3 2 2 1 500 0 (.ofList [1, 2]) (publishing queue)) := by
  rintro ⟨hnothing, _⟩
  have hintime : ¬ (500 : UInt32) < ((publishing queue).queryLastSynt .reliable 3).1 := by
    change ¬ (500 : UInt32) < 0
    decide
  have hqueue : ((publishing queue).queryLastSynt .reliable 3).2.handler.dataBuffer 3 =
      some queue := rfl
  rw [publishAmong] at hnothing
  dsimp only at hnothing
  rw [if_neg hintime, List.range_eq_range'] at hnothing
  have hsecond : Utils.buffLen ≤
      (foundAfter (fun _ q => q) 500 0 (.ofList [1, 2]) 1 0 queue 1).length := by
    rw [foundAfter, foundAfter, List.length_append, List.length_singleton]
    exact hlen.ge
  have hempty := hnothing "buffer is full"
    (fails_of_full 2 0 hqueue ⟨1, by decide, by decide, hsecond⟩)
  rcases publishRowsAmong_cons (fun _ q => q) 500 0 (.ofList [1, 2]) 1 0 [1] hqueue with
    ⟨hout, _⟩ | ⟨_, hfull, _⟩ | ⟨_, _, t, _, _, henq⟩
  · exact absurd hout (by decide)
  · omega
  · cases hempty.symm.trans henq

theorem almostFull_not_allOrNothing :
    ¬ AllOrNothing ((List.range 2).map (rowData 500 0 (.ofList [1, 2]) 1))
      (publishAmong (fun _ q => q) .reliable 3 2 2 1 500 0 (.ofList [1, 2])
        (publishing (.replicate 65535 ⟨400, 0, [1]⟩))) :=
  oneLeft_not_allOrNothing (by rw [List.length_replicate, Utils.buffLen])

end DRDS.Server
