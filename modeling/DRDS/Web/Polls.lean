import DRDS.Concurrency.Watermark
import DRDS.Web.Subscribe

/-! Polls of one record table while records are inserted into it: what one `Subscribe` goroutine
sends over whole runs. -/
namespace DRDS
open Go Concurrency

/-! ### Runs -/

/-- One `Subscribe` goroutine, its table in the outside, and what it has sent. -/
structure Feed where
  world : World
  loop : Subscribe
  emitted : List VisualData

/-- An insert into a record table, another call of the outside, or a step of the goroutine, which
reads `*closeSig` where it does. -/
inductive Feed.Event where
  | insert (id : UInt16) (columns : ℕ) (rows : List Row)
  | call
  | step (closeSig : Bool)

namespace Feed

def init (e : Env) (id : UInt16) (w : World) : Feed where
  world := (queryLastSynt e id w).2
  loop := ⟨id, (queryLastSynt e id w).1, 0, .check⟩
  emitted := []

def next (e : Env) (h : Handler) (S : Feed) : Event → Feed
  | .insert id columns rows => { S with world := (S.world.insert e id columns rows).2 }
  | .call => { S with world := S.world.tick }
  | .step closeSig =>
    match S.loop.step? e h closeSig S.world with
    | none => S
    | some (none, loop, world) => ⟨world, loop, S.emitted⟩
    | some (some item, loop, world) => ⟨world, loop, S.emitted ++ [item]⟩

def run (e : Env) (h : Handler) (S : Feed) (es : List Event) : Feed := es.foldl (next e h) S

def rows (S : Feed) : List Row := S.world.rows S.loop.id

end Feed

/-- What the goroutine sends for a record, read with the columns `DataShapes` counts. -/
def Subscribe.visual (h : Handler) (id : UInt16) (r : Row) : List VisualData :=
  writeBufferOutput id r.recvT (r.read (h.dataShapes id).toNat)

namespace Feed
variable (e : Env) (h : Handler)

/-- The values sent, and those the poll has read and is sending, are those of these records. -/
def Emits (S : Feed) (records : List Row) : Prop :=
  S.emitted ++ S.loop.pending = records.flatMap (Subscribe.visual h S.loop.id)

def Reads (S : Feed) : Prop := S.loop.stage = .read

/-- Of the records from the start on, none is emitted more often than the table holds it. Once a
poll has read a bound, a record before the bound that is in the table when a poll is about to
read its range is emitted, by that poll if it was not before. -/
def EmitsOnce (start : UInt32) (S : Feed) (es : List Event) : Prop :=
  ∃ records, Emits h (run e h S es) records ∧
    ∀ r, start ≤ r.iter → records.count r ≤ (run e h S es).rows.count r ∧
      ∀ es₁ es₂ es₃ closeSig, es = es₁ ++ es₂ ++ es₃ →
        (run e h S es₁).Reads → (run e h S (es₁ ++ es₂)).Reads → .step closeSig ∈ es₃ →
        r.iter < (run e h S es₁).loop.currentTime →
        (run e h S (es₁ ++ es₂)).rows.count r ≤ records.count r

/-- No record from the start on is inserted before the upper bound of the ranges already read,
and the two queries of a poll are answered, the first unless no time has been reached yet, the
second, which must be of a size that it can scan, unless there is nothing in its range. -/
def InTime (start : UInt32) (S : Feed) : Event → Prop
  | .insert id columns rows => id = S.loop.id → (S.world.insert e id columns rows).1 = none →
      ∀ r ∈ rows, ¬ (start ≤ r.iter ∧ r.iter < S.loop.bound)
  | .call => True
  | .step _ =>
    match S.loop.stage with
    | .query => e.statement S.world.calls = none ∨ S.loop.lastTime = 0
    | .read =>
      (e.statement S.world.calls = none ∧ h.dataShapes S.loop.id < 254 ∧
        ∃ t, S.world.tables S.loop.id = some t ∧ h.Selects S.loop.id t) ∨
      ∀ r ∈ S.rows, ¬ (S.loop.lastTime ≤ r.iter ∧ r.iter < S.loop.currentTime)
    | _ => True

def RunInTime (start : UInt32) : Feed → List Event → Prop
  | _, [] => True
  | S, ev :: es => InTime e h start S ev ∧ RunInTime start (next e h S ev) es

/-! ### One step -/

/-- The bound the polls have asked for. -/
def top (S : Feed) : UInt32 :=
  if S.loop.stage = .read then S.loop.currentTime else S.loop.bound

/-- What the goroutine knows of its table: it has emitted the records below its bound, and no
bound is past the last record. -/
structure Inv (start : UInt32) (S : Feed) : Prop where
  begun : S.loop.stage ≠ .begin
  start_le : start ≤ S.loop.bound
  bound_le : S.loop.bound ≤ S.top
  last : Reached S.rows S.loop.lastTime
  current : Reached S.rows S.loop.currentTime
  emits : ∃ records, Emits h S records ∧ Covers Row.iter start S.loop.bound records S.rows

variable {e h} {start : UInt32} {S : Feed}

theorem top_eq_bound (hstage : S.loop.stage ≠ .read) : S.top = S.loop.bound := if_neg hstage

theorem bound_next_step (closeSig : Bool) (hbegun : S.loop.stage ≠ .begin) :
    (next e h S (.step closeSig)).loop.bound = S.top := by
  rcases S with ⟨w, ⟨id, lastTime, currentTime, stage⟩, emitted⟩
  cases stage with
  | begin => exact absurd rfl hbegun
  | check => cases closeSig <;> rfl
  | query => rfl
  | read =>
    simp only [next, Subscribe.step?]
    rcases h.readRange e id lastTime currentTime w with ⟨err | ⟨_, timeVec, dataMat⟩, w'⟩ <;> rfl
  | write items => cases items <;> rfl
  | returned err => rfl

theorem Inv.insert {id : UInt16} {columns : ℕ} {rows : List Row} (hS : Inv h start S)
    (ht : InTime e h start S (.insert id columns rows)) :
    Inv h start (next e h S (.insert id columns rows)) := by
  obtain ⟨records, hemits, hcovers⟩ := hS.emits
  rcases World.insert_rows e id columns rows S.world S.loop.id with hrows | ⟨hid, hok, hrows⟩
  · have hsame : (next e h S (.insert id columns rows)).rows = S.rows := hrows
    refine ⟨hS.begun, hS.start_le, hS.bound_le, ?_, ?_, records, hemits, ?_⟩
    · rw [hsame]
      exact hS.last
    · rw [hsame]
      exact hS.current
    · rw [hsame]
      exact hcovers
  · have hmore : (next e h S (.insert id columns rows)).rows =
        S.rows ++ rows.map fun r => { r with values := r.values.map e.column } := hrows
    have hsub : S.rows ⊆ (next e h S (.insert id columns rows)).rows := by
      rw [hmore]
      exact List.subset_append_left _ _
    refine ⟨hS.begun, hS.start_le, hS.bound_le, hS.last.mono hsub, hS.current.mono hsub, records,
      hemits, ?_⟩
    rw [hmore]
    apply hcovers.append
    intro r hr
    obtain ⟨r', hr', rfl⟩ := List.mem_map.mp hr
    exact ht hid.symm hok r' hr'

theorem readRange_of_none {id : UInt16} {first stop : UInt32} {w : World}
    (hnone : between Row.iter first stop (w.rows id) = []) :
    (∃ err, h.readRange e id first stop w = (.error err, w.tick)) ∨
      h.readRange e id first stop w = (.ok ([], [], []), w.tick) := by
  unfold Handler.readRange World.select
  cases e.statement w.calls with
  | some err => exact .inl ⟨err, rfl⟩
  | none =>
    cases ht : w.tables id with
    | none => exact .inl ⟨_, rfl⟩
    | some t =>
      have hfilter : t.rows.filter (fun r => decide (first ≤ r.iter ∧ r.iter < stop)) = [] := by
        rw [← hnone, World.rows_of_table ht]
        rfl
      dsimp only
      rw [hfilter]
      split_ifs
      · exact .inr rfl
      · exact .inl ⟨_, rfl⟩

theorem items_map (id : UInt16) (rows : List Row) : Subscribe.items id (rows.map Row.recvT)
    (rows.map (Row.read (h.dataShapes id).toNat)) = rows.flatMap (Subscribe.visual h id) := by
  rw [Subscribe.items, List.zip_map', List.flatMap_map]
  rfl

/-- The range read takes the records between the two times of the loop. -/
theorem read_pending {closeSig : Bool} (hread : S.Reads)
    (ht : InTime e h start S (.step closeSig)) :
    (next e h S (.step closeSig)).loop.pending =
      (between Row.iter S.loop.lastTime S.loop.currentTime S.rows).flatMap
        (Subscribe.visual h S.loop.id) := by
  rcases S with ⟨w, ⟨id, lastTime, currentTime, stage⟩, emitted⟩
  obtain rfl : stage = .read := hread
  rcases ht with ⟨he, hsize, t, htable, hs⟩ | hnone
  · have hrange : h.readRange e id lastTime currentTime w = _ :=
      Handler.readRange_of_answer htable he hs hsize
    simp only [next, Subscribe.step?, hrange, Subscribe.pending]
    rw [items_map]
    simp only [rows, World.rows_of_table htable]
    rfl
  · have hempty : between Row.iter lastTime currentTime (w.rows id) = [] := by
      simp only [between, List.filter_eq_nil_iff, decide_eq_true_eq]
      exact hnone
    simp only [next, Subscribe.step?, rows, hempty]
    rcases readRange_of_none hempty with ⟨err, hrange⟩ | hrange <;>
    · rw [hrange]
      rfl

theorem Inv.le_query {closeSig : Bool} (hS : Inv h start S) (hquery : S.loop.stage = .query)
    (ht : InTime e h start S (.step closeSig)) :
    S.loop.lastTime ≤ (queryLastSynt e S.loop.id S.world).1 := by
  simp only [InTime, hquery] at ht
  rcases ht with he | hzero
  · exact hS.last.le_queryLastSynt he
  · rw [hzero]
    exact UInt32.zero_le

theorem next_read (closeSig : Bool) (hread : S.Reads) : ∃ stage, stage ≠ .begin ∧ stage ≠ .read ∧
    next e h S (.step closeSig) = { S with
      world := S.world.tick
      loop := { S.loop with stage } } := by
  rcases S with ⟨w, ⟨id, lastTime, currentTime, stage⟩, emitted⟩
  obtain rfl : stage = .read := hread
  have hworld := h.readRange_world e id lastTime currentTime w
  simp only [next, Subscribe.step?]
  rcases hrange : h.readRange e id lastTime currentTime w with ⟨err | ⟨_, timeVec, dataMat⟩, w'⟩
  all_goals
    rw [hrange] at hworld
    obtain rfl : w' = w.tick := hworld
  · exact ⟨.returned (some err), nofun, nofun, rfl⟩
  · exact ⟨.write (Subscribe.items id timeVec dataMat), nofun, nofun, rfl⟩

theorem Inv.read {closeSig : Bool} (hS : Inv h start S) (hread : S.Reads)
    (ht : InTime e h start S (.step closeSig)) : Inv h start (next e h S (.step closeSig)) := by
  obtain ⟨records, hemits, hcovers⟩ := hS.emits
  have hpending := read_pending hread ht
  have htop : S.top = S.loop.currentTime := if_pos hread
  have hbound : (next e h S (.step closeSig)).loop.bound = S.loop.currentTime := by
    rw [bound_next_step closeSig hS.begun, htop]
  have hlow : S.loop.bound = S.loop.lastTime := by
    rw [Subscribe.bound, show S.loop.stage = .read from hread]
  have hnone : S.loop.pending = [] := by
    rw [Subscribe.pending, show S.loop.stage = .read from hread]
  have hle : S.loop.lastTime ≤ S.loop.currentTime := by
    rw [← hlow, ← htop]
    exact hS.bound_le
  have hstart : start ≤ S.loop.lastTime := by
    rw [← hlow]
    exact hS.start_le
  obtain ⟨stage, hbegun, hpast, hnext⟩ := next_read closeSig hread
  rw [hnext] at hpending hbound ⊢
  refine ⟨hbegun, ?_, ?_, hS.last, hS.current, records ++
    between Row.iter S.loop.lastTime S.loop.currentTime S.rows, ?_, ?_⟩
  · rw [hbound]
    exact UInt32.le_trans hstart hle
  · rw [top_eq_bound hpast]
    exact UInt32.le_refl _
  · unfold Emits at hemits ⊢
    rw [hnone, List.append_nil] at hemits
    rw [hpending, List.flatMap_append]
    exact congrArg (· ++ _) hemits
  · rw [hbound]
    rw [hlow] at hcovers
    exact hcovers.read hstart hle

theorem Inv.step {closeSig : Bool} (hS : Inv h start S)
    (ht : InTime e h start S (.step closeSig)) : Inv h start (next e h S (.step closeSig)) := by
  have hquery := fun hstage => hS.le_query (e := e) hstage ht
  have hread := fun hstage => hS.read (e := e) hstage ht
  obtain ⟨records, hemits, hcovers⟩ := hS.emits
  rcases S with ⟨w, ⟨id, lastTime, currentTime, stage⟩, emitted⟩
  cases stage with
  | begin => exact absurd rfl hS.begun
  | check =>
    cases closeSig <;>
      exact ⟨nofun, hS.start_le, hS.bound_le, hS.last, hS.current, records, hemits, hcovers⟩
  | query =>
    have hrows : (queryLastSynt e id w).2.rows id = w.rows id := by
      rw [queryLastSynt_world, World.rows_tick]
    have hsub : w.rows id ⊆ (queryLastSynt e id w).2.rows id := by
      rw [hrows]
      exact List.Subset.refl _
    refine ⟨nofun, hS.start_le, hquery rfl, hS.last.mono hsub,
      (reached_queryLastSynt e id w).mono hsub, records, hemits, ?_⟩
    change Covers Row.iter start lastTime records ((queryLastSynt e id w).2.rows id)
    rw [hrows]
    exact hcovers
  | read => exact hread rfl
  | write items =>
    cases items with
    | nil =>
      exact ⟨nofun, hS.start_le, hS.bound_le, hS.current, hS.current, records, hemits, hcovers⟩
    | cons item items =>
      refine ⟨nofun, hS.start_le, hS.bound_le, hS.last, hS.current, records, ?_, hcovers⟩
      exact (List.append_assoc emitted [item] items).trans hemits
  | returned err => exact hS

theorem inv_next {ev : Event} (hS : Inv h start S) (ht : InTime e h start S ev) :
    Inv h start (next e h S ev) := by
  cases ev with
  | insert id columns rows => exact hS.insert ht
  | call => exact ⟨hS.begun, hS.start_le, hS.bound_le, hS.last, hS.current, hS.emits⟩
  | step closeSig => exact hS.step ht

/-! ### Whole runs -/

theorem init_inv (e : Env) (h : Handler) (id : UInt16) (w : World) :
    Inv h (queryLastSynt e id w).1 (init e id w) := by
  have hrows : (init e id w).rows = w.rows id := by
    rw [rows, init, queryLastSynt_world, World.rows_tick]
  refine ⟨nofun, UInt32.le_refl _, UInt32.le_refl _, ?_, .inl rfl, [], rfl, .nil _ _⟩
  rw [hrows]
  exact reached_queryLastSynt e id w

theorem run_append (S : Feed) (es₁ es₂ : List Event) :
    run e h S (es₁ ++ es₂) = run e h (run e h S es₁) es₂ := List.foldl_append

theorem runInTime_append {es₁ es₂ : List Event} : RunInTime e h start S (es₁ ++ es₂) ↔
    RunInTime e h start S es₁ ∧ RunInTime e h start (run e h S es₁) es₂ := by
  induction es₁ generalizing S with
  | nil => exact (iff_of_eq (true_and _)).symm
  | cons ev es₁ ih => exact (and_congr_right' ih).trans and_assoc.symm

theorem inv_run {es : List Event} (hS : Inv h start S) (hes : RunInTime e h start S es) :
    Inv h start (run e h S es) := by
  induction es generalizing S with
  | nil => exact hS
  | cons ev es ih => exact ih (inv_next hS hes.1) hes.2

theorem rows_prefix_next (ev : Event) : S.rows <+: (next e h S ev).rows := by
  have hsame : ∀ rows, rows = S.rows → S.rows <+: rows := by
    intro rows hrows
    exact ⟨[], (List.append_nil _).trans hrows.symm⟩
  cases ev with
  | insert id columns rows =>
    rcases World.insert_rows e id columns rows S.world S.loop.id with hrows | ⟨_, _, hrows⟩
    · exact hsame _ hrows
    · exact ⟨_, hrows.symm⟩
  | call => exact hsame _ rfl
  | step closeSig =>
    rcases S with ⟨w, ⟨id, lastTime, currentTime, stage⟩, emitted⟩
    have hquery : (queryLastSynt e id w).2.rows id = w.rows id := by
      rw [queryLastSynt_world, World.rows_tick]
    apply hsame
    cases stage with
    | begin => exact hquery
    | check => rfl
    | query => exact hquery
    | read =>
      obtain ⟨stage, _, _, hnext⟩ := next_read (e := e) (h := h)
        (S := ⟨w, ⟨id, lastTime, currentTime, .read⟩, emitted⟩) closeSig rfl
      rw [hnext]
      rfl
    | write items => cases items <;> rfl
    | returned err => rfl

theorem rows_prefix_run (es : List Event) : S.rows <+: (run e h S es).rows := by
  induction es generalizing S with
  | nil => exact List.prefix_rfl
  | cons ev es ih => exact (rows_prefix_next ev).trans ih

theorem Inv.bound_le_next {ev : Event} (hS : Inv h start S) :
    S.loop.bound ≤ (next e h S ev).loop.bound := by
  cases ev with
  | insert id columns rows => exact UInt32.le_refl _
  | call => exact UInt32.le_refl _
  | step closeSig =>
    rw [bound_next_step closeSig hS.begun]
    exact hS.bound_le

theorem Inv.bound_le_run {es : List Event} (hS : Inv h start S) (hes : RunInTime e h start S es) :
    S.loop.bound ≤ (run e h S es).loop.bound := by
  induction es generalizing S with
  | nil => exact UInt32.le_refl _
  | cons ev es ih => exact UInt32.le_trans hS.bound_le_next (ih (inv_next hS hes.1) hes.2)

theorem Inv.top_le_run {es : List Event} (hS : Inv h start S) (hes : RunInTime e h start S es)
    {closeSig : Bool} (hstep : .step closeSig ∈ es) : S.top ≤ (run e h S es).loop.bound := by
  induction es generalizing S with
  | nil => simp at hstep
  | cons ev es ih =>
    have hnext := inv_next hS hes.1
    cases ev with
    | insert id columns rows => exact ih hnext hes.2 (by simpa using hstep)
    | call => exact ih hnext hes.2 (by simpa using hstep)
    | step c =>
      rw [← bound_next_step (e := e) (h := h) c hS.begun]
      exact hnext.bound_le_run hes.2

theorem emitsOnce_of_inTime (e : Env) (h : Handler) (id : UInt16) (w : World) (es : List Event)
    (hes : RunInTime e h (queryLastSynt e id w).1 (init e id w) es) :
    EmitsOnce e h (queryLastSynt e id w).1 (init e id w) es := by
  let start := (queryLastSynt e id w).1
  have hinit := init_inv e h id w
  have hinv := inv_run hinit hes
  obtain ⟨records, hemits, hcovers⟩ := hinv.emits
  have hcount : ∀ r, start ≤ r.iter → r.iter < (run e h (init e id w) es).loop.bound →
      records.count r = (run e h (init e id w) es).rows.count r := by
    intro r hstart hbound
    rw [hcovers.count_eq, between, List.count_filter (by simpa using ⟨hstart, hbound⟩)]
  refine ⟨records, hemits, fun r hstart => ⟨?_, ?_⟩⟩
  · rw [hcovers.count_eq]
    exact List.filter_sublist.count_le r
  · intro es₁ es₂ es₃ closeSig hsplit hread _ hstep hbefore
    subst hsplit
    have htop : (run e h (init e id w) es₁).top = (run e h (init e id w) es₁).loop.currentTime :=
      if_pos hread
    rw [List.append_assoc, runInTime_append] at hes
    have hbound : r.iter < (run e h (init e id w) (es₁ ++ es₂ ++ es₃)).loop.bound := by
      rw [List.append_assoc, run_append]
      apply UInt32.lt_of_lt_of_le (htop ▸ hbefore)
      exact (inv_run hinit hes.1).top_le_run hes.2 (List.mem_append_right es₂ hstep)
    rw [hcount r hstart hbound, run_append _ (es₁ ++ es₂)]
    exact (rows_prefix_run es₃).sublist.count_le r

/-! ### Records in order and out of order -/

def insertAt (iter : UInt32) : Event := .insert 3 1 [⟨iter, 0, 100, [7]⟩]

def inOrder : List Event :=
  [insertAt 7, insertAt 10, .step false, .step false, .step false, .step false, .step false]

theorem inOrder_emitsOnce : RunInTime .reliable Server.afterInit.handler 0
      (init .reliable 3 Server.afterInit.world) inOrder ∧
    EmitsOnce .reliable Server.afterInit.handler 0
      (init .reliable 3 Server.afterInit.world) inOrder := by
  have hrun : RunInTime .reliable Server.afterInit.handler 0
      (init .reliable 3 Server.afterInit.world) inOrder := by
    refine ⟨fun _ _ => ?_, fun _ _ => ?_, trivial, .inl rfl, .inl ⟨rfl, ?_, _, rfl, ?_, ?_⟩,
      trivial, trivial, trivial⟩
    all_goals decide
  exact ⟨hrun, emitsOnce_of_inTime .reliable Server.afterInit.handler 3 Server.afterInit.world
    inOrder hrun⟩

/-- The polls of a table in which the record at time 7 comes after a poll up to time 10. -/
def outOfOrder : List Event :=
  [insertAt 10, .step false, .step false, .step false, .step false, insertAt 7,
    .step false, .step false, .step false, .step false]

/-- The record that came late is not emitted. -/
theorem outOfOrder_misses : ¬ EmitsOnce .reliable Server.afterInit.handler
    (queryLastSynt .reliable 3 Server.afterInit.world).1
    (init .reliable 3 Server.afterInit.world) outOfOrder := by
  rintro ⟨records, hemits, honce⟩
  let late : Row := ⟨7, 0, 100, [7]⟩
  have hcount := (honce late (by decide)).2 (outOfOrder.take 3) ((outOfOrder.drop 3).take 5)
    (outOfOrder.drop 8) false rfl rfl rfl (by simp [outOfOrder]) (by decide)
  have hmem : late ∈ records := by
    rw [← List.count_pos_iff]
    exact Nat.lt_of_lt_of_le (by decide) hcount
  have hnone : records.flatMap (Subscribe.visual Server.afterInit.handler 3) = [] := hemits.symm
  exact absurd (List.flatMap_eq_nil_iff.mp hnone late hmem) (by decide)

end Feed
end DRDS
