import DRDS.Concurrency.Appends
import DRDS.Handler.HandleData
import DRDS.Server.Replies
import DRDS.Server.Times

/-! Publishers that share a channel: every order of the passes of their row loops, of the reads and
flushes of `handleData`, and of what other senders put there. -/
namespace DRDS

/-! ### Whole batches -/

variable {e : Env} {id : UInt16} {w : World}

theorem World.insert_error {columns : ℕ} {rows : List Row}
    (h : (w.insert e id columns rows).1 ≠ none) : (w.insert e id columns rows).2 = w.tick := by
  unfold insert at h ⊢
  split
  · split_ifs with hcolumns
    · rename_i hanswer ht
      simp [hanswer, ht, hcolumns] at h
    · rfl
  · rfl
  · rfl

theorem Handler.writeRange_stores {h : Handler} (batch : List Data) (hid : id ∈ h.recordTables) :
    (h.writeRange e id batch w).2.records id = w.records id ++
      if (h.writeRange e id batch w).1 = none then batch.map (Data.stored e) else [] := by
  by_cases hnone : (h.writeRange e id batch w).1 = none
  · have hstored := writeRange_records hid fun _ => hnone
    by_cases hshaped : ∀ d ∈ batch, h.Shaped id d
    · rw [if_pos hshaped] at hstored
      rwa [if_pos hnone]
    · obtain ⟨err, herr⟩ := h.mapM_fillin_error id (e.unixMilli w.calls) hshaped
      rw [writeRange, if_pos ((Utils.uint16Contains_iff _ _).mpr hid), herr] at hnone
      cases hnone
  · rw [if_neg hnone, List.append_nil]
    unfold writeRange at hnone ⊢
    rw [if_pos ((Utils.uint16Contains_iff _ _).mpr hid)] at hnone ⊢
    split at hnone
    · rfl
    · rw [World.insert_error hnone]
      rfl

namespace Server
open Go Concurrency

/-! ### The system -/

/-- A call of `Publish` for the data id. -/
structure Publication where
  dst : UInt8
  rows : UInt8
  cols : UInt8
  synt : UInt32
  physicalTime : UInt32
  rawData : Slice Float64

def unsynchronized : Outcome :=
  .returned (some "published data are not synchronized with current database")

/-- `Publish` of a registered publisher up to its row loop, and its outcome if it ends there. -/
def publishCheck (e : Env) (id : UInt16) (c : Publication) (s : Server) :
    Option Outcome × Server :=
  let (lastSynt, s) := s.queryLastSynt e id
  if c.synt < lastSynt then
    let (_, s) := s.sendOpt e c.dst Utils.priorityHight c.synt Utils.serResponse Utils.flagError
      Utils.reserved Utils.reserved
    (some unsynchronized, s)
  else (none, s)

/-- A pass of the row loop, and the outcome if the call ends there. -/
def publishPass (id : UInt16) (c : Publication) (row : ℕ) (s : Server) : Option Outcome × Server :=
  if row < c.rows.toNat then
    match publishRows id c.synt c.physicalTime c.rawData c.cols.toNat [row] s with
    | (.returned none, s) => (none, s)
    | (o, s) => (some o, s)
  else (some (.returned none), s)

/-- The record a pass puts on the channel, if it puts one there. -/
def passPuts (id : UInt16) (c : Publication) (row : ℕ) (s : Server) : List Data :=
  if row < c.rows.toNat ∧ (row + 1) * c.cols.toNat ≤ c.rawData.cap ∧
      (s.handler.dataBuffer id).any (·.length < Utils.buffLen) then
    [rowData c.synt c.physicalTime c.rawData c.cols.toNat row]
  else []

/-- A record on the channel, and the call of `Publish` that put it there, if one did. -/
structure Put where
  call : Option ℕ
  data : Data

/-- A call of `Publish`: the row of its loop, and its outcome once it has ended. Recorded with it
is how many records had been put on the channel when it began, and those that were accepted. -/
structure Publishing where
  call : Publication
  row : ℕ
  outcome : Option Outcome
  mark : ℕ
  earlier : List Put

def Publishing.failed (t : Publishing) : Bool := t.outcome.any (· ≠ .returned none)

def Publishing.writer (t : Publishing) : Writer ℕ := ⟨t.mark, t.call.synt.toNat + t.row, t.failed⟩

def Put.entry (x : Put) : Option ℕ × ℕ := (x.call, x.data.iter.toNat)

/-- The server, the loop of `handleData` with the batch it is writing, and the calls of `Publish`.
Recorded with them are all records put on the channel, those on their way to the table, and those
that have arrived there. -/
structure Streams where
  server : Server
  pending : Pending
  writing : Option (List Data)
  calls : ℕ → Option Publishing
  puts : List Put
  waiting : List Put
  arrived : List Put

namespace Streams

def pipe (S : Streams) : Pipe := ⟨S.server.handler, S.pending⟩

/-- What is on its way to the table. -/
def held (id : UInt16) (S : Streams) : List Data := S.writing.getD [] ++ S.pipe.held id

def start (id : UInt16) (s : Server) (p : Pending) : Streams :=
  let puts := (Pipe.held id ⟨s.handler, p⟩).map fun data => ⟨none, data⟩
  ⟨s, p, none, fun _ => none, puts, puts, []⟩

/-- A record of a call that has returned `nil`. -/
def accepted (S : Streams) (x : Put) : Bool :=
  x.call.any fun i => (S.calls i).any fun t => t.outcome = some (.returned none)

def put (call : Option ℕ) (data : List Data) (S : Streams) : Streams :=
  let puts := data.map fun data => ⟨call, data⟩
  { S with puts := S.puts ++ puts, waiting := S.waiting ++ puts }

inductive Action where
  | check (i : ℕ) (c : Publication)
  | pass (i : ℕ)
  /-- Another sender writes to the channel. -/
  | send (data : Data)
  | receive (now : ℤ)
  | timeout (now : ℤ)
  /-- The batch reaches the table, or is lost. -/
  | flush

/-- A round of `handleData`, which waits for a batch to be written. -/
def handleData (id : UInt16) (ev : Event) (S : Streams) : Option Streams :=
  if S.writing = none then do
    let (p, writing) ← S.pipe.step? id ev
    some { S with server := { S.server with handler := p.handler }, pending := p.pending, writing }
  else none

def step? (e : Env) (id : UInt16) : Action → Streams → Option Streams
  | .check i c, S =>
    if (S.calls i).isNone ∧ S.server.isPublisherRegistered id c.dst then
      let (outcome, server) := publishCheck e id c S.server
      let t : Publishing := ⟨c, 0, outcome, S.puts.length, S.puts.filter S.accepted⟩
      some { S with server, calls := Function.update S.calls i (some t) }
    else none
  | .pass i, S =>
    match S.calls i with
    | some ⟨c, row, none, mark, earlier⟩ =>
      let (outcome, server) := publishPass id c row S.server
      let t : Publishing := ⟨c, row + 1, outcome, mark, earlier⟩
      some { S.put (some i) (passPuts id c row S.server) with
        server, calls := Function.update S.calls i (some t) }
    | _ => none
  | .send data, S => do
    let (p, _) ← S.pipe.step? id (.push data)
    some { S.put none (Pipe.pushed id (.push data) S.pipe) with
      server := { S.server with handler := p.handler } }
  | .receive now, S => S.handleData id (.receive now)
  | .timeout now, S => S.handleData id (.timeout now)
  | .flush, S => do
    let batch ← S.writing
    let (err, world) := S.server.handler.writeRange e id batch S.server.world
    let stored := id ∈ S.server.handler.recordTables ∧ err = none
    some { S with
      server := { S.server with world }
      writing := none
      waiting := S.waiting.drop batch.length
      arrived := S.arrived ++ if stored then S.waiting.take batch.length else [] }

def run? (e : Env) (id : UInt16) : List Action → Streams → Option Streams
  | [], S => some S
  | a :: as, S => (S.step? e id a).bind (run? e id as)

/-! ### A call on its own -/

section Call
variable (e : Env) (id : UInt16) (c : Publication) (s : Server)

theorem publish_eq_check (hreg : s.isPublisherRegistered id c.dst) :
    s.publish e id c.dst c.rows c.cols c.synt c.physicalTime c.rawData =
      match publishCheck e id c s with
      | (some o, t) => (o, t)
      | (none, t) => publishRows id c.synt c.physicalTime c.rawData c.cols.toNat
          (List.range c.rows.toNat) t := by
  rw [publish, publishFrom, if_pos hreg, publishCheck]
  dsimp only
  split_ifs <;> rfl

theorem publishRows_eq_pass {row : ℕ} (hrow : row < c.rows.toNat) (rows : List ℕ) :
    publishRows id c.synt c.physicalTime c.rawData c.cols.toNat (row :: rows) s =
      match publishPass id c row s with
      | (some o, t) => (o, t)
      | (none, t) => publishRows id c.synt c.physicalTime c.rawData c.cols.toNat rows t := by
  rw [publishPass, if_pos hrow, publishRows, publishRows]
  cases c.rawData.slice? (row * c.cols.toNat) ((row + 1) * c.cols.toNat) with
  | none => rfl
  | some value =>
    rcases hwrite : s.writeToBuffer id ⟨c.synt + .ofNat row, c.physicalTime, value.toList⟩ with
      ⟨_ | err, t⟩
    · simp only [hwrite, publishRows]
    · simp only [hwrite]

theorem publishCheck_besides : ∃ sequence world,
    (publishCheck e id c s).2 = { s with sequence, world } ∧ world.tables = s.world.tables := by
  have hworld : (s.queryLastSynt e id).2.world.tables = s.world.tables := by
    change (DRDS.queryLastSynt e id s.world).2.tables = s.world.tables
    rw [queryLastSynt_world]
    rfl
  unfold publishCheck
  dsimp only
  split_ifs
  · obtain ⟨sequence, world, hopt⟩ := sendOpt_besides e c.dst Utils.priorityHight c.synt
      Utils.serResponse Utils.flagError Utils.reserved Utils.reserved (s.queryLastSynt e id).2
    have hsends : Sends (fun _ => True) (s.queryLastSynt e id).2
        ((s.queryLastSynt e id).2.sendOpt e c.dst Utils.priorityHight c.synt Utils.serResponse
          Utils.flagError Utils.reserved Utils.reserved).2 :=
      sendOpt_sends _ _ _ _ _ fun _ _ _ _ => trivial
    have htables := hsends.tables
    rw [hopt] at htables ⊢
    exact ⟨sequence, world, rfl, htables.trans hworld⟩
  · exact ⟨s.sequence, _, rfl, hworld⟩

theorem publishPass_snd {row : ℕ} (hrow : row < c.rows.toNat) : (publishPass id c row s).2 =
    (publishRows id c.synt c.physicalTime c.rawData c.cols.toNat [row] s).2 := by
  rw [publishPass, if_pos hrow]
  split
  all_goals
    rename_i heq
    rw [heq]

theorem publishPass_besides (row : ℕ) :
    ∃ handler, (publishPass id c row s).2 = { s with handler } := by
  by_cases hrow : row < c.rows.toNat
  · rw [publishPass_snd id c s hrow]
    exact publishRows_besides ..
  · rw [publishPass, if_neg hrow]
    exact ⟨s.handler, rfl⟩

theorem queue_publishPass (row : ℕ) :
    ((publishPass id c row s).2.handler.dataBuffer id).getD [] =
      (s.handler.dataBuffer id).getD [] ++ passPuts id c row s := by
  unfold passPuts
  by_cases hrow : row < c.rows.toNat
  · rw [publishPass_snd id c s hrow, publishRows]
    by_cases hin : (row + 1) * c.cols.toNat ≤ c.rawData.cap
    · obtain ⟨value, hvalue⟩ := (slice?_row row).mpr hin
      have hdata : rowData c.synt c.physicalTime c.rawData c.cols.toNat row =
          ⟨c.synt + .ofNat row, c.physicalTime, value.toList⟩ := rowData_of_slice? hvalue
      have hqueue := s.handler.writeToBuffer_queue id
        ⟨c.synt + .ofNat row, c.physicalTime, value.toList⟩
      rw [hvalue]
      simp only [hrow, hin, true_and, hdata]
      rw [← hqueue, writeToBuffer]
      rcases hwrite : s.handler.writeToBuffer id
          ⟨c.synt + .ofNat row, c.physicalTime, value.toList⟩ with ⟨_ | err, h⟩
      · simp only [hwrite, publishRows]
      · simp only [hwrite]
    · rw [slice?_row_eq_none.mpr (Nat.lt_of_not_le hin)]
      simp [hin]
  · rw [publishPass, if_neg hrow]
    simp [hrow]

end Call

section Alone
variable {e : Env} {id : UInt16} {i : ℕ} {c : Publication} {S : Streams}

theorem step?_check (hidle : S.calls i = none) (hreg : S.server.isPublisherRegistered id c.dst) :
    ∃ T, S.step? e id (.check i c) = some T ∧ T.server = (publishCheck e id c S.server).2 ∧
      ∃ mark earlier, T.calls i =
        some ⟨c, 0, (publishCheck e id c S.server).1, mark, earlier⟩ := by
  have hguard : (S.calls i).isNone ∧ S.server.isPublisherRegistered id c.dst :=
    ⟨Option.isNone_iff_eq_none.mpr hidle, hreg⟩
  rw [step?, if_pos hguard]
  exact ⟨_, rfl, rfl, _, _, Function.update_self ..⟩

variable (e id) in
theorem step?_pass {row mark : ℕ} {earlier : List Put}
    (hcall : S.calls i = some ⟨c, row, none, mark, earlier⟩) :
    ∃ T, S.step? e id (.pass i) = some T ∧ T.server = (publishPass id c row S.server).2 ∧
      T.calls i = some ⟨c, row + 1, (publishPass id c row S.server).1, mark, earlier⟩ := by
  rw [step?, hcall]
  exact ⟨_, rfl, rfl, Function.update_self ..⟩

variable (e id) in
/-- A call that nothing comes between runs its row loop. -/
theorem run?_passes {mark : ℕ} {earlier : List Put} (n row : ℕ) (hrows : row + n = c.rows.toNat)
    (hcall : S.calls i = some ⟨c, row, none, mark, earlier⟩) : ∃ k T t o,
      S.run? e id (.replicate k (.pass i)) = some T ∧ T.calls i = some t ∧ t.outcome = some o ∧
        publishRows id c.synt c.physicalTime c.rawData c.cols.toNat (List.range' row n) S.server =
          (o, T.server) := by
  induction n generalizing row S with
  | zero =>
    have hend : publishPass id c row S.server = (some (.returned none), S.server) := by
      rw [publishPass, if_neg (by omega)]
    obtain ⟨T, hstep, hserver, hT⟩ := step?_pass e id hcall
    rw [hend] at hserver hT
    refine ⟨1, T, _, _, by rw [List.replicate_one, run?, hstep]; rfl, hT, rfl, ?_⟩
    rw [hserver]
    rfl
  | succ n ih =>
    obtain ⟨U, hstep, hserver, hU⟩ := step?_pass e id hcall
    rw [List.range'_succ, publishRows_eq_pass id c S.server (by omega)]
    rcases hpass : publishPass id c row S.server with ⟨_ | o, s⟩
    · rw [hpass] at hserver hU
      obtain ⟨k, T, t, o, hrun, ht, ho, hrest⟩ := ih (row + 1) (by omega) hU
      refine ⟨k + 1, T, t, o, ?_, ht, ho, ?_⟩
      · rw [List.replicate_succ, run?, hstep]
        exact hrun
      · rw [hserver] at hrest
        exact hrest
    · rw [hpass] at hserver hU
      refine ⟨1, U, _, o, by rw [List.replicate_one, run?, hstep]; rfl, hU, rfl, ?_⟩
      rw [hserver]

/-- A call that nothing comes between is the call of the code. -/
theorem run?_alone (hidle : S.calls i = none) (hreg : S.server.isPublisherRegistered id c.dst) :
    ∃ k T t o, S.run? e id (.check i c :: .replicate k (.pass i)) = some T ∧
      T.calls i = some t ∧ t.outcome = some o ∧
      S.server.publish e id c.dst c.rows c.cols c.synt c.physicalTime c.rawData = (o, T.server) := by
  obtain ⟨U, hstep, hserver, mark, earlier, hU⟩ := step?_check (e := e) hidle hreg
  rw [publish_eq_check e id c S.server hreg]
  rcases hcheck : publishCheck e id c S.server with ⟨_ | o, s⟩
  · rw [hcheck] at hserver hU
    obtain ⟨k, T, t, o, hrun, ht, ho, hrows⟩ :=
      run?_passes e id c.rows.toNat 0 (Nat.zero_add _) hU
    refine ⟨k, T, t, o, ?_, ht, ho, ?_⟩
    · rw [run?, hstep]
      exact hrun
    · rw [hserver] at hrows
      rw [List.range_eq_range']
      exact hrows
  · rw [hcheck] at hserver hU
    refine ⟨0, U, _, o, by rw [run?, hstep]; rfl, hU, rfl, ?_⟩
    rw [hserver]

end Alone

/-! ### What a step does -/

section Steps
variable {e : Env} {id : UInt16} {S T : Streams}

theorem check_cases {i : ℕ} {c : Publication} (h : S.step? e id (.check i c) = some T) :
    S.calls i = none ∧ T = { S with
      server := (publishCheck e id c S.server).2
      calls := Function.update S.calls i (some
        ⟨c, 0, (publishCheck e id c S.server).1, S.puts.length, S.puts.filter S.accepted⟩) } := by
  rw [step?] at h
  split_ifs at h with hguard
  cases h
  exact ⟨Option.isNone_iff_eq_none.mp hguard.1, rfl⟩

theorem pass_cases {i : ℕ} (h : S.step? e id (.pass i) = some T) :
    ∃ c row mark earlier, S.calls i = some ⟨c, row, none, mark, earlier⟩ ∧
      T = { S.put (some i) (passPuts id c row S.server) with
        server := (publishPass id c row S.server).2
        calls := Function.update S.calls i
          (some ⟨c, row + 1, (publishPass id c row S.server).1, mark, earlier⟩) } := by
  rw [step?] at h
  split at h
  · rename_i c row mark earlier hcall
    cases h
    exact ⟨c, row, mark, earlier, hcall, rfl⟩
  · cases h

theorem send_cases {data : Data} (h : S.step? e id (.send data) = some T) :
    ∃ p, S.pipe.step? id (.push data) = some (p, none) ∧
      T = { S.put none (Pipe.pushed id (.push data) S.pipe) with
        server := { S.server with handler := p.handler } } ∧ p.pending = S.pending := by
  cases h
  exact ⟨_, rfl, rfl, rfl⟩

theorem handleData_cases {ev : Event} (h : S.handleData id ev = some T) :
    S.writing = none ∧ ∃ p writing, S.pipe.step? id ev = some (p, writing) ∧
      T = { S with
        server := { S.server with handler := p.handler }, pending := p.pending, writing } := by
  unfold Streams.handleData at h
  split_ifs at h with hidle
  obtain ⟨⟨p, writing⟩, hstep, hT⟩ := Option.bind_eq_some_iff.mp h
  cases hT
  exact ⟨hidle, p, writing, hstep, rfl⟩

theorem flush_cases (h : S.step? e id .flush = some T) :
    ∃ batch, S.writing = some batch ∧ T = { S with
      server := { S.server with
        world := (S.server.handler.writeRange e id batch S.server.world).2 }
      writing := none
      waiting := S.waiting.drop batch.length
      arrived := S.arrived ++ if id ∈ S.server.handler.recordTables ∧
          (S.server.handler.writeRange e id batch S.server.world).1 = none then
        S.waiting.take batch.length else [] } := by
  obtain ⟨batch, hbatch, hT⟩ := Option.bind_eq_some_iff.mp h
  cases hT
  exact ⟨batch, hbatch, rfl⟩

end Steps

/-! ### The way to the table -/

/-- What is on its way is what has been put on the channel and has neither arrived nor been lost,
and what arrives is appended to the table. -/
structure Linked (e : Env) (id : UInt16) (before : List Data) (S : Streams) : Prop where
  waiting : S.held id = S.waiting.map Put.data
  arrived : S.server.world.records id = before ++ S.arrived.map fun x => x.data.stored e
  order : (S.arrived ++ S.waiting).Sublist S.puts

section Linked
variable {e : Env} {id : UInt16} {before : List Data} {S T : Streams}

theorem linked_start (s : Server) (p : Pending) :
    Linked e id (s.world.records id) (start id s p) := by
  refine ⟨?_, by simp [start], by simp [start]⟩
  simp [held, start, pipe, Function.comp_def]

theorem Linked.check {i : ℕ} {c : Publication} (h : Linked e id before S)
    (hstep : S.step? e id (.check i c) = some T) : Linked e id before T := by
  obtain ⟨_, rfl⟩ := check_cases hstep
  obtain ⟨sequence, world, hserver, htables⟩ := publishCheck_besides e id c S.server
  refine ⟨?_, ?_, h.order⟩
  · rw [← h.waiting, held, held, pipe, pipe, hserver]
  · rw [← h.arrived, hserver, World.records, World.records, htables]

theorem Linked.pass {i : ℕ} (h : Linked e id before S)
    (hstep : S.step? e id (.pass i) = some T) : Linked e id before T := by
  obtain ⟨c, row, mark, earlier, _, rfl⟩ := pass_cases hstep
  obtain ⟨handler, hserver⟩ := publishPass_besides id c S.server row
  have hqueue := queue_publishPass id c S.server row
  refine ⟨?_, ?_, ?_⟩
  · have hwaiting := h.waiting
    simp only [held, pipe, Pipe.held, Pipe.queue] at hwaiting ⊢
    simp only [put, hqueue, List.map_append, List.map_map, ← hwaiting, List.append_assoc]
    simp [Function.comp_def]
  · rw [hserver]
    exact h.arrived
  · rw [put, ← List.append_assoc]
    exact h.order.append (.refl _)

theorem Linked.send {data : Data} (h : Linked e id before S)
    (hstep : S.step? e id (.send data) = some T) : Linked e id before T := by
  obtain ⟨p, hpipe, rfl, hpending⟩ := send_cases hstep
  have hconserve := Pipe.step?_conserve hpipe
  refine ⟨?_, h.arrived, ?_⟩
  · have hwaiting := h.waiting
    rw [held] at hwaiting
    rw [Option.getD_none, List.nil_append] at hconserve
    have hheld : Pipe.held id ⟨p.handler, S.pending⟩ = p.held id := by rw [← hpending]
    simp only [put, List.map_append, List.map_map, ← hwaiting, List.append_assoc]
    exact congrArg (S.writing.getD [] ++ ·)
      ((hheld.trans hconserve).trans (by simp [Function.comp_def]))
  · rw [put, ← List.append_assoc]
    exact h.order.append (.refl _)

theorem Linked.handleData {ev : Event} (h : Linked e id before S)
    (hev : Pipe.pushed id ev S.pipe = []) (hstep : S.handleData id ev = some T) :
    Linked e id before T := by
  obtain ⟨hidle, p, writing, hpipe, rfl⟩ := handleData_cases hstep
  have hconserve := Pipe.step?_conserve hpipe
  rw [hev, List.append_nil] at hconserve
  refine ⟨?_, h.arrived, h.order⟩
  rw [← h.waiting, held, held, hidle]
  exact hconserve

theorem Linked.flush (h : Linked e id before S) (hstep : S.step? e id .flush = some T) :
    Linked e id before T := by
  obtain ⟨batch, hbatch, rfl⟩ := flush_cases hstep
  have hwaiting := h.waiting
  rw [held, hbatch, Option.getD_some] at hwaiting
  have htake : batch = (S.waiting.take batch.length).map Put.data := by
    rw [List.map_take, ← hwaiting, List.take_left]
  have hdrop : S.pipe.held id = (S.waiting.drop batch.length).map Put.data := by
    rw [List.map_drop, ← hwaiting, List.drop_left]
  refine ⟨hdrop, ?_, ?_⟩
  · rw [List.map_append, ← List.append_assoc, ← h.arrived]
    by_cases hid : id ∈ S.server.handler.recordTables
    · have hstores := Handler.writeRange_stores (e := e) (w := S.server.world) batch hid
      refine hstores.trans ?_
      rw [List.append_cancel_left_eq]
      simp only [hid, true_and]
      split_ifs
      · conv_lhs => rw [htake]
        simp [Function.comp_def]
      · rfl
    · have hunknown : S.server.handler.writeRange e id batch S.server.world =
          (none, S.server.world) := by
        rw [Handler.writeRange, if_neg fun hc => hid ((Utils.uint16Contains_iff _ _).mp hc)]
      simp [hunknown, hid]
  · split_ifs
    · rw [List.append_assoc, List.take_append_drop]
      exact h.order
    · rw [List.append_nil]
      exact ((List.Sublist.refl _).append (List.drop_sublist _ _)).trans h.order

theorem Linked.step {a : Action} (h : Linked e id before S) (hstep : S.step? e id a = some T) :
    Linked e id before T := by
  cases a with
  | check i c => exact h.check hstep
  | pass i => exact h.pass hstep
  | send data => exact h.send hstep
  | receive now => exact h.handleData rfl hstep
  | timeout now => exact h.handleData rfl hstep
  | flush => exact h.flush hstep

end Linked

/-! ### The order -/

/-- A record of a call that has not failed. -/
def Open (S : Streams) (x : Put) : Prop :=
  ∃ i t, x.call = some i ∧ S.calls i = some t ∧ t.failed = false

/-- No call begins before a record that the table does not show, and none puts a record on the
channel after a later one that another call has put there since it began. No time wraps. -/
def Careful (e : Env) (id : UInt16) (S : Streams) : Action → Prop
  | .check _ c => ∀ x ∈ S.puts, S.Open x → c.synt < x.data.iter →
      e.statement S.server.world.calls = none ∧ ∃ r ∈ S.server.world.rows id, c.synt < r.iter
  | .pass i => ∀ t, S.calls i = some t → t.outcome = none →
      ∀ data ∈ passPuts id t.call t.row S.server, t.call.synt.toNat + t.row < 2 ^ 32 ∧
        ∀ x ∈ S.puts.drop t.mark, S.Open x → x.call ≠ some i → x.data.iter ≤ data.iter
  | _ => True

def CarefulRun (e : Env) (id : UInt16) : List Action → Streams → Prop
  | [], _ => True
  | a :: as, S => S.Careful e id a ∧ ∀ T, S.step? e id a = some T → T.CarefulRun e id as

/-- The log of what has been put on the channel, with the calls as its writers. -/
def appends (S : Streams) : Appends ℕ ℕ :=
  ⟨S.puts.map Put.entry, fun i => (S.calls i).map Publishing.writer⟩

section Order
variable {e : Env} {id : UInt16} {S T : Streams}

theorem writers_appends (i : ℕ) : S.appends.writers i = (S.calls i).map Publishing.writer := rfl

theorem open_iff {x : Put} : S.Open x ↔ S.appends.Live x.entry := by
  constructor
  · rintro ⟨i, t, hx, ht, hopen⟩
    exact ⟨i, t.writer, hx, by rw [writers_appends, ht, Option.map_some], hopen⟩
  · rintro ⟨i, w, hx, hw, hopen⟩
    obtain ⟨t, ht, rfl⟩ := Option.map_eq_some_iff.mp hw
    exact ⟨i, t, hx, ht, hopen⟩

theorem appends_update (puts : List Put) (i : ℕ) (t : Publishing) (s : Server) (waiting : List Put) :
    appends { S with server := s, calls := Function.update S.calls i (some t), puts, waiting } =
      ⟨puts.map Put.entry, Function.update S.appends.writers i (some t.writer)⟩ := by
  have hcomp := Function.comp_update (Option.map Publishing.writer) S.calls i (some t)
  exact congrArg (Appends.mk (puts.map Put.entry)) hcomp

theorem lt_lastSynt {s : Server} {synt : UInt32} (he : e.statement s.world.calls = none)
    (hlater : ∃ r ∈ s.world.rows id, synt < r.iter) : synt < (s.queryLastSynt e id).1 := by
  obtain ⟨r, hr, hlt⟩ := hlater
  have hreached : DRDS.Reached (s.world.rows id) r.iter := .inr ⟨r, hr, UInt32.le_refl _⟩
  exact UInt32.lt_of_lt_of_le hlt (hreached.le_queryLastSynt he)

theorem publishCheck_fst (c : Publication) (s : Server) : (publishCheck e id c s).1 =
    if c.synt < (s.queryLastSynt e id).1 then some unsynchronized else none := by
  unfold publishCheck
  dsimp only
  split_ifs <;> rfl

theorem check_simulates {i : ℕ} {c : Publication} (hstep : S.step? e id (.check i c) = some T)
    (hcare : S.Careful e id (.check i c)) : Appends.Step S.appends T.appends := by
  obtain ⟨hidle, rfl⟩ := check_cases hstep
  have hwriter : S.appends.writers i = none := by
    rw [writers_appends, hidle, Option.map_none]
  have hmark : S.puts.length = S.appends.log.length := (List.length_map _).symm
  rw [appends_update, Publishing.writer, hmark]
  refine .test i _ _ hwriter fun hopen x hx hlive => ?_
  obtain ⟨y, hy, rfl⟩ := List.mem_map.mp hx
  by_contra hlate
  have hlt : c.synt < y.data.iter := UInt32.lt_iff_toNat_lt.mpr (Nat.lt_of_not_le hlate)
  obtain ⟨hanswer, hshown⟩ := hcare y hy (open_iff.mpr hlive) hlt
  rw [Publishing.failed, publishCheck_fst, if_pos (lt_lastSynt hanswer hshown)] at hopen
  have hfailed : (some unsynchronized).any (· ≠ .returned none) = true := by decide
  exact absurd (hfailed.symm.trans hopen) (by decide)

theorem passPuts_cases (id : UInt16) (c : Publication) (row : ℕ) (s : Server) :
    passPuts id c row s = [] ∨
      passPuts id c row s = [rowData c.synt c.physicalTime c.rawData c.cols.toNat row] := by
  unfold passPuts
  split_ifs
  · exact .inr rfl
  · exact .inl rfl

theorem toNat_rowTime {synt : UInt32} {row : ℕ} (h : synt.toNat + row < 2 ^ 32) :
    (synt + .ofNat row).toNat = synt.toNat + row := by
  rw [UInt32.toNat_add, UInt32.toNat_ofNat']
  omega

theorem pass_simulates {i : ℕ} (hstep : S.step? e id (.pass i) = some T)
    (hcare : S.Careful e id (.pass i)) :
    Relation.ReflTransGen Appends.Step S.appends T.appends := by
  obtain ⟨c, row, mark, earlier, hcall, hT⟩ := pass_cases hstep
  let t : Publishing := ⟨c, row + 1, (publishPass id c row S.server).1, mark, earlier⟩
  let puts := (passPuts id c row S.server).map fun data => (⟨some i, data⟩ : Put)
  have happends : T.appends = ⟨(S.puts ++ puts).map Put.entry,
      Function.update S.appends.writers i (some t.writer)⟩ := by
    rw [hT]
    exact appends_update ..
  have hwriter : S.appends.writers i = some ⟨mark, c.synt.toNat + row, false⟩ := by
    rw [writers_appends, hcall]
    rfl
  have hnext : c.synt.toNat + row ≤ t.writer.next := Nat.le_succ _
  rw [happends]
  dsimp only [puts]
  rcases passPuts_cases id c row S.server with hnone | hone
  · rw [hnone, List.map_nil, List.append_nil]
    exact .single (.advance i _ _ hwriter rfl hnext fun _ => rfl)
  · obtain ⟨hwrap, halone⟩ := hcare _ hcall rfl _ (hone ▸ List.mem_singleton_self _)
    have htime := toNat_rowTime hwrap
    have happend : Appends.Step S.appends
        { S.appends with log := S.appends.log ++ [(some i, c.synt.toNat + row)] } := by
      refine .append i _ hwriter rfl fun x hx hne hlive => ?_
      rw [appends, ← List.map_drop] at hx
      obtain ⟨y, hy, rfl⟩ := List.mem_map.mp hx
      have hle := halone y hy (open_iff.mpr hlive) hne
      rw [UInt32.le_iff_toNat_le] at hle
      exact hle.trans_eq htime
    have hlog : (rowData c.synt c.physicalTime c.rawData c.cols.toNat row).iter.toNat =
        c.synt.toNat + row := htime
    rw [hone, List.map_singleton, List.map_append, List.map_singleton, Put.entry, hlog]
    exact (Relation.ReflTransGen.single happend).tail
      (.advance i _ _ hwriter rfl hnext fun _ => rfl)

theorem send_simulates {data : Data} (hstep : S.step? e id (.send data) = some T) :
    Relation.ReflTransGen Appends.Step S.appends T.appends := by
  obtain ⟨p, _, hT, _⟩ := send_cases hstep
  have happends : T.appends = ⟨S.appends.log ++ (Pipe.pushed id (.push data) S.pipe).map
      fun data => (none, data.iter.toNat), S.appends.writers⟩ := by
    rw [hT, appends, put, List.map_append, List.map_map]
    rfl
  rw [happends]
  by_cases hroom : (S.pipe.handler.dataBuffer id).any (·.length < Utils.buffLen)
  · have hpushed : Pipe.pushed id (.push data) S.pipe = [data] := if_pos hroom
    rw [hpushed]
    exact .single (.other _)
  · have hpushed : Pipe.pushed id (.push data) S.pipe = [] := if_neg hroom
    rw [hpushed, List.map_nil, List.append_nil]

/-- The loop and the writes leave the calls and the log of the channel alone. -/
theorem handleData_history {ev : Event} (hstep : S.handleData id ev = some T) :
    T.appends = S.appends ∧ T.calls = S.calls := by
  obtain ⟨_, p, writing, _, rfl⟩ := handleData_cases hstep
  exact ⟨rfl, rfl⟩

theorem flush_history (hstep : S.step? e id .flush = some T) :
    T.appends = S.appends ∧ T.calls = S.calls := by
  obtain ⟨batch, _, rfl⟩ := flush_cases hstep
  exact ⟨rfl, rfl⟩

theorem step?_simulates {a : Action} (hstep : S.step? e id a = some T) (hcare : S.Careful e id a) :
    Relation.ReflTransGen Appends.Step S.appends T.appends := by
  cases a with
  | check i c => exact .single (check_simulates hstep hcare)
  | pass i => exact pass_simulates hstep hcare
  | send data => exact send_simulates hstep
  | receive now => exact (handleData_history hstep).1 ▸ .refl
  | timeout now => exact (handleData_history hstep).1 ▸ .refl
  | flush => exact (flush_history hstep).1 ▸ .refl

theorem step?_ordered {a : Action} (h : S.appends.Ordered) (hstep : S.step? e id a = some T)
    (hcare : S.Careful e id a) : T.appends.Ordered :=
  h.run (step?_simulates hstep hcare)

theorem start_ordered (s : Server) (p : Pending) : (start id s p).appends.Ordered := by
  have hinit : Appends.Ordered ⟨((Pipe.held id ⟨s.handler, p⟩).map (·.iter.toNat)).map
      fun k => ((none : Option ℕ), k), fun _ => none⟩ := .init _
  rw [List.map_map] at hinit
  have hputs : (start id s p).appends = ⟨_, _⟩ := rfl
  rw [hputs, start, List.map_map]
  exact hinit

end Order

/-! ### Synchronized streams -/

/-- The records of accepted calls ascend in the table, and a call that begins before a record
accepted earlier is refused. -/
structure Synchronized (e : Env) (id : UInt16) (before : List Data) (S : Streams) : Prop where
  arrived : S.server.world.records id = before ++ S.arrived.map fun x => x.data.stored e
  ascending : ((S.arrived.filter S.accepted).map fun x => x.data.iter).Pairwise (· ≤ ·)
  refused : ∀ i t, S.calls i = some t → (∃ x ∈ t.earlier, t.call.synt < x.data.iter) →
    t.outcome = some unsynchronized

def Refuses (S : Streams) : Prop :=
  ∀ i t, S.calls i = some t → (∃ x ∈ t.earlier, t.call.synt < x.data.iter) →
    t.outcome = some unsynchronized

section Synchronized
variable {e : Env} {id : UInt16} {before : List Data} {S T : Streams}

theorem open_of_accepted {x : Put} (h : S.accepted x) : S.Open x := by
  unfold accepted at h
  obtain ⟨i, hx, hcall⟩ := (Option.any_eq_true _ _).mp h
  obtain ⟨t, ht, houtcome⟩ := (Option.any_eq_true _ _).mp hcall
  refine ⟨i, t, hx, ht, ?_⟩
  rw [Publishing.failed, of_decide_eq_true houtcome]
  rfl

theorem ascending_of_ordered (hlinked : Linked e id before S) (h : S.appends.Ordered) :
    ((S.arrived.filter S.accepted).map fun x => x.data.iter).Pairwise (· ≤ ·) := by
  have hputs : S.puts.Pairwise fun x y => S.Open x → S.Open y → x.data.iter ≤ y.data.iter := by
    have hsorted := h.sorted
    rw [appends, List.pairwise_map] at hsorted
    refine hsorted.imp fun hxy hx hy => ?_
    exact UInt32.le_iff_toNat_le.mpr (hxy (open_iff.mp hx) (open_iff.mp hy))
  have hsub : S.arrived.Sublist S.puts := (List.sublist_append_left _ _).trans hlinked.order
  have harrived := (hputs.sublist hsub).filter S.accepted
  rw [List.pairwise_map]
  refine harrived.imp_of_mem fun hx hy hxy => ?_
  obtain ⟨_, hx⟩ := List.mem_filter.mp hx
  obtain ⟨_, hy⟩ := List.mem_filter.mp hy
  exact hxy (open_of_accepted hx) (open_of_accepted hy)

theorem Refuses.congr (h : S.Refuses) (hcalls : T.calls = S.calls) : T.Refuses := by
  intro i t ht
  rw [hcalls] at ht
  exact h i t ht

theorem Refuses.update {i : ℕ} {t : Publishing} (h : S.Refuses)
    (hcalls : T.calls = Function.update S.calls i (some t))
    (ht : (∃ x ∈ t.earlier, t.call.synt < x.data.iter) → t.outcome = some unsynchronized) :
    T.Refuses := by
  intro j u hu hearlier
  rw [hcalls] at hu
  by_cases hj : j = i
  · subst hj
    rw [Function.update_self, Option.some.injEq] at hu
    subst hu
    exact ht hearlier
  · rw [Function.update_of_ne hj] at hu
    exact h j u hu hearlier

theorem Refuses.check {i : ℕ} {c : Publication} (h : S.Refuses)
    (hstep : S.step? e id (.check i c) = some T) (hcare : S.Careful e id (.check i c)) :
    T.Refuses := by
  obtain ⟨_, hT⟩ := check_cases hstep
  refine h.update (congrArg Streams.calls hT) ?_
  rintro ⟨x, hx, hlt⟩
  obtain ⟨hput, haccepted⟩ := List.mem_filter.mp hx
  obtain ⟨hanswer, hshown⟩ := hcare x hput (open_of_accepted haccepted) hlt
  exact (publishCheck_fst ..).trans (if_pos (lt_lastSynt hanswer hshown))

theorem Refuses.pass {i : ℕ} (h : S.Refuses) (hstep : S.step? e id (.pass i) = some T) :
    T.Refuses := by
  obtain ⟨c, row, mark, earlier, hcall, hT⟩ := pass_cases hstep
  refine h.update (congrArg Streams.calls hT) fun hearlier => ?_
  -- a call that has been refused makes no pass
  cases h i _ hcall hearlier

theorem Refuses.step {a : Action} (h : S.Refuses) (hstep : S.step? e id a = some T)
    (hcare : S.Careful e id a) : T.Refuses := by
  cases a with
  | check i c => exact h.check hstep hcare
  | pass i => exact h.pass hstep
  | send data =>
    obtain ⟨p, _, rfl, _⟩ := send_cases hstep
    exact h.congr rfl
  | receive now => exact h.congr (handleData_history hstep).2
  | timeout now => exact h.congr (handleData_history hstep).2
  | flush => exact h.congr (flush_history hstep).2

/-- What a careful run keeps. -/
theorem run?_synchronized {as : List Action} (hlinked : Linked e id before S)
    (hordered : S.appends.Ordered) (hrefuses : S.Refuses) (hrun : S.run? e id as = some T)
    (hcare : S.CarefulRun e id as) : T.Synchronized e id before := by
  induction as generalizing S with
  | nil =>
    cases hrun
    exact ⟨hlinked.arrived, ascending_of_ordered hlinked hordered, hrefuses⟩
  | cons a as ih =>
    obtain ⟨U, hstep, hrest⟩ := Option.bind_eq_some_iff.mp hrun
    obtain ⟨hnow, hlater⟩ := hcare
    exact ih (hlinked.step hstep) (step?_ordered hordered hstep hnow) (hrefuses.step hstep hnow)
      hrest (hlater U hstep)

end Synchronized
end Streams

open Streams

/-- Published streams stay synchronized in every run in which no call begins before a record that
the table does not show, or is overtaken by another. -/
theorem streams_synchronized (e : Env) (id : UInt16) (s : Server) (p : Pending)
    (as : List Streams.Action) (S : Streams) (hrun : (start id s p).run? e id as = some S)
    (hcare : (start id s p).CarefulRun e id as) : S.Synchronized e id (s.world.records id) := by
  refine run?_synchronized (linked_start s p) (start_ordered s p) ?_ hrun hcare
  intro i t ht
  cases ht

def oneValue (synt : UInt32) : Publication := ⟨2, 1, 1, synt, 0, .ofList [1]⟩

/-- A call for time 5 begins when the record of time 10 waits in the channel. -/
def lateCall : List Streams.Action :=
  [.check 0 (oneValue 10), .pass 0, .pass 0, .check 1 (oneValue 5), .pass 1, .pass 1, .receive 1,
    .receive 2, .timeout 100000002, .flush]

/-- Both are accepted, and the table has time 5 after time 10. -/
theorem lateCall_not_synchronized :
    ∃ S, (start 3 (publishing []) ⟨[], 0⟩).run? .reliable 3 lateCall = some S ∧
      ¬ S.Synchronized .reliable 3 ((publishing []).world.records 3) := by
  refine ⟨_, rfl, ?_⟩
  rintro ⟨_, hascending, _⟩
  revert hascending
  decide +kernel

/-- Clients 2 and 4 publish data id 3. -/
def twoPublishing : Server := { publishing [] with publisherRegister := fun _ => [2, 4] }

/-- Both publish at once, and once their records are in the table one more call begins too early. -/
def twoCalls : List Streams.Action :=
  [.check 0 (oneValue 10), .check 1 { oneValue 12 with dst := 4 }, .pass 0, .pass 1, .pass 0, .pass 1,
    .receive 1, .receive 2, .timeout 100000002, .flush, .check 2 (oneValue 5)]

theorem twoCalls_careful : (start 3 twoPublishing ⟨[], 0⟩).CarefulRun .reliable 3 twoCalls := by
  refine ⟨fun x hx => absurd hx List.not_mem_nil, fun S hS => ?_⟩
  cases hS
  refine ⟨fun x hx => absurd hx List.not_mem_nil, fun S hS => ?_⟩
  cases hS
  -- the first record is put on the channel
  refine ⟨?_, fun S hS => ?_⟩
  · intro t ht _ data _
    obtain rfl := Option.some.inj ht
    exact ⟨by decide, fun x hx => absurd hx List.not_mem_nil⟩
  cases hS
  -- and then a later one
  refine ⟨?_, fun S hS => ?_⟩
  · intro t ht _ data hdata
    obtain rfl := Option.some.inj ht
    obtain rfl := List.mem_singleton.mp hdata
    refine ⟨by decide, fun x hx _ _ => ?_⟩
    obtain rfl := List.mem_singleton.mp hx
    decide
  cases hS
  -- the calls end
  refine ⟨?_, fun S hS => ?_⟩
  · intro t ht _ data hdata
    obtain rfl := Option.some.inj ht
    exact absurd hdata List.not_mem_nil
  cases hS
  refine ⟨?_, fun S hS => ?_⟩
  · intro t ht _ data hdata
    obtain rfl := Option.some.inj ht
    exact absurd hdata List.not_mem_nil
  cases hS
  refine ⟨trivial, fun S hS => ?_⟩
  cases hS
  refine ⟨trivial, fun S hS => ?_⟩
  cases hS
  refine ⟨trivial, fun S hS => ?_⟩
  cases hS
  refine ⟨trivial, fun S hS => ?_⟩
  cases hS
  -- the table holds the later records
  exact ⟨fun x _ _ _ => ⟨rfl, by decide⟩, fun _ _ => trivial⟩

/-- The records come in order, and the late call is refused. -/
theorem twoCalls_synchronized :
    ∃ S, (start 3 twoPublishing ⟨[], 0⟩).run? .reliable 3 twoCalls = some S ∧
      (S.server.world.records 3).map Data.iter = [10, 12] ∧
      (S.calls 2).map Publishing.outcome = some (some unsynchronized) ∧
      S.Synchronized .reliable 3 (twoPublishing.world.records 3) := by
  have hrun : ((start 3 twoPublishing ⟨[], 0⟩).run? .reliable 3 twoCalls).any fun S =>
      (S.server.world.records 3).map Data.iter = [10, 12] ∧
        (S.calls 2).map Publishing.outcome = some (some unsynchronized) := by
    decide +kernel
  obtain ⟨S, hrun, hend⟩ := (Option.any_eq_true _ _).mp hrun
  obtain ⟨hrecords, hrefused⟩ := of_decide_eq_true hend
  exact ⟨S, hrun, hrecords, hrefused,
    streams_synchronized .reliable 3 _ _ _ S hrun twoCalls_careful⟩

end Server
end DRDS
