import DRDS.Handler.Handler
import DRDS.Batch.Batcher

/-! The write buffer of one record table, from `WriteToBuffer` through the select loop of
`handleData` to the table. -/
namespace DRDS
open Go Batch

/-- The variables of the loop, with times in nanoseconds. -/
structure Pending where
  buffer : List Data
  lastWriteTime : ℤ

/-- The case taken: a record out of the channel, or 100 ms without one. -/
inductive Select where
  | data (data : Data) (now : ℤ)
  | timeout (now : ℤ)

/-- One round of the loop and the batch it hands to `WriteRange`, if it hands one over. -/
def Pending.handleData (p : Pending) : Select → Pending × Option (List Data)
  | .data data now =>
    let buffer := p.buffer ++ [data]
    if 100000000 ≤ now - p.lastWriteTime ∨ 256 ≤ buffer.length then (⟨[], now⟩, some buffer)
    else (⟨buffer, p.lastWriteTime⟩, none)
  | .timeout now => if 0 < p.buffer.length then (⟨[], now⟩, some p.buffer) else (p, none)

/-- A channel with the loop that empties it. -/
structure Pipe where
  handler : Handler
  pending : Pending

inductive Event where
  | push (data : Data)
  | receive (now : ℤ)
  | timeout (now : ℤ)

def Pipe.queue (s : Pipe) (id : UInt16) : List Data := (s.handler.dataBuffer id).getD []

/-- What a sender or the clock can do next; nothing is received from an empty channel. -/
def Pipe.step? (id : UInt16) : Event → Pipe → Option (Pipe × Option (List Data))
  | .push data, s => some ({ s with handler := (s.handler.writeToBuffer id data).2 }, none)
  | .receive now, s =>
    match s.handler.dataBuffer id with
    | some (data :: queue) =>
      let (pending, out) := s.pending.handleData (.data data now)
      let dataBuffer := Function.update s.handler.dataBuffer id (some queue)
      some (⟨{ s.handler with dataBuffer }, pending⟩, out)
    | _ => none
  | .timeout now, s =>
    let (pending, out) := s.pending.handleData (.timeout now)
    some ({ s with pending }, out)

def Pipe.pushed (id : UInt16) : Event → Pipe → List Data
  | .push data, s =>
    if (s.handler.dataBuffer id).any (·.length < Utils.buffLen) then [data] else []
  | _, _ => []

def Pipe.held (id : UInt16) (s : Pipe) : List Data := s.pending.buffer ++ s.queue id

/-- The error of a failed write is printed and the batch is gone. -/
def Handler.flush (e : Env) (h : Handler) (id : UInt16) : Option (List Data) → World → World
  | none, w => w
  | some buffer, w => (h.writeRange e id buffer w).2

def Pipe.run? (e : Env) (id : UInt16) : List Event → Pipe × World → Option (Pipe × World)
  | [], s => some s
  | ev :: evs, (s, w) => do
    let (t, out) ← s.step? id ev
    run? e id evs (t, s.handler.flush e id out w)

/-! ### Records to batches -/

@[simp] theorem Pending.handleData_data (p : Pending) (data : Data) (now : ℤ) :
    (p.handleData (.data data now)).2.getD [] ++ (p.handleData (.data data now)).1.buffer =
      p.buffer ++ [data] := by
  unfold handleData
  dsimp only
  split_ifs <;> simp

@[simp] theorem Pending.handleData_timeout (p : Pending) (now : ℤ) :
    (p.handleData (.timeout now)).2.getD [] ++ (p.handleData (.timeout now)).1.buffer = p.buffer := by
  unfold handleData
  dsimp only
  split_ifs <;> simp

def Select.received : Select → List Data
  | .data record _ => [record]
  | .timeout _ => []

theorem Pending.handleData_received (p : Pending) (ev : Select) :
    (p.handleData ev).2.getD [] ++ (p.handleData ev).1.buffer = p.buffer ++ ev.received := by
  cases ev with
  | data data now => exact p.handleData_data data now
  | timeout now => simp [Select.received]

/-- Less than a full batch stays behind, and no batch is empty. -/
theorem Pending.handleData_length {p : Pending} (ev : Select) (hp : p.buffer.length ≤ 255) :
    (p.handleData ev).1.buffer.length ≤ 255 ∧
      ∀ b ∈ (p.handleData ev).2, 1 ≤ b.length ∧ b.length ≤ 256 := by
  cases ev with
  | data data now =>
    have hlen : (p.buffer ++ [data]).length = p.buffer.length + 1 := by simp
    unfold handleData
    dsimp only
    split_ifs with hflush
    · refine ⟨Nat.zero_le _, fun b hb => ?_⟩
      obtain rfl := Option.some.inj hb
      omega
    · exact ⟨by dsimp only; omega, fun b hb => by cases hb⟩
  | timeout now =>
    unfold handleData
    dsimp only
    split_ifs with hsome
    · refine ⟨Nat.zero_le _, fun b hb => ?_⟩
      obtain rfl := Option.some.inj hb
      omega
    · exact ⟨hp, fun b hb => by cases hb⟩

/-- The loop as a machine that passes records on in batches. -/
def Pending.batcher : Batcher Pending Select Data where
  step? ev p := some (p.handleData ev)
  item ev _ := ev.received
  held := Pending.buffer
  conserve {ev p _ _} h := by
    have hconserve := p.handleData_received ev
    rwa [Option.some.inj h] at hconserve

theorem Pending.length_step? {ev : Select} {p q : Pending} {out : Option (List Data)}
    (h : batcher.step? ev p = some (q, out)) (hp : p.buffer.length ≤ 255) :
    q.buffer.length ≤ 255 ∧ ∀ b ∈ out, 1 ≤ b.length ∧ b.length ≤ 256 := by
  have hpair : p.handleData ev = (q, out) := Option.some.inj h
  have hlength := Pending.handleData_length ev hp
  rwa [hpair] at hlength

/-- Whatever the events and their times, the batches and what is pending are the records received,
in order; a batch has 1 to 256 records and fewer are pending. -/
theorem handleData_batches (lastWriteTime : ℤ) (evs : List Select) :
    ∃ r, Pending.batcher.run? evs ⟨[], lastWriteTime⟩ = some r ∧
      r.batches.flatten ++ r.state.buffer = evs.flatMap Select.received ∧
      (∀ b ∈ r.batches, 1 ≤ b.length ∧ b.length ≤ 256) ∧ r.state.buffer.length ≤ 255 := by
  obtain ⟨r, hr⟩ := Pending.batcher.exists_run? (fun ev p => ⟨_, _, rfl⟩) evs ⟨[], lastWriteTime⟩
  have hconserve : r.batches.flatten ++ r.state.buffer = [] ++ r.items :=
    Pending.batcher.run?_conserve hr
  have hitems := Pending.batcher.run?_items (f := Select.received) (fun _ _ => rfl) hr
  obtain ⟨hpending, hbatches⟩ := Pending.batcher.run?_invariant Pending.length_step? hr
    (Nat.zero_le _)
  rw [List.nil_append, hitems] at hconserve
  exact ⟨r, hr, hconserve, hbatches, hpending⟩

theorem Handler.writeToBuffer_queue (h : Handler) (id : UInt16) (data : Data) :
    (((h.writeToBuffer id data).2.dataBuffer id).getD []) = (h.dataBuffer id).getD [] ++
      if (h.dataBuffer id).any (·.length < Utils.buffLen) then [data] else [] := by
  unfold writeToBuffer
  cases hq : h.dataBuffer id with
  | none => simp [hq]
  | some queue =>
    by_cases hfull : Utils.buffLen ≤ queue.length
    · simp [hq, hfull, Nat.not_lt.mpr hfull]
    · simp [hfull, Nat.not_le.mp hfull]

theorem Pipe.step?_conserve {id : UInt16} {ev : Event} {s t : Pipe} {out : Option (List Data)}
    (h : s.step? id ev = some (t, out)) :
    out.getD [] ++ t.held id = s.held id ++ Pipe.pushed id ev s := by
  cases ev with
  | push data =>
    cases h
    simp only [held, queue, pushed, Option.getD_none, List.nil_append]
    rw [s.handler.writeToBuffer_queue, List.append_assoc]
  | receive now =>
    simp only [step?] at h
    split at h
    · rename_i data queue hq
      simp only [Option.some.injEq, Prod.mk.injEq] at h
      obtain ⟨rfl, rfl⟩ := h
      rw [held, held, ← List.append_assoc, Pending.handleData_data]
      simp [Pipe.queue, pushed, hq]
    · cases h
  | timeout now =>
    simp only [step?, Option.some.injEq, Prod.mk.injEq] at h
    obtain ⟨rfl, rfl⟩ := h
    rw [held, held, ← List.append_assoc, Pending.handleData_timeout]
    simp [Pipe.queue, pushed]

def Pipe.batcher (id : UInt16) : Batcher Pipe Event Data where
  step? ev s := s.step? id ev
  item := Pipe.pushed id
  held := Pipe.held id
  conserve := Pipe.step?_conserve

theorem Handler.writeToBuffer_config (h : Handler) (id : UInt16) (data : Data) :
    (h.writeToBuffer id data).2.recordTables = h.recordTables ∧
      (h.writeToBuffer id data).2.dataShapes = h.dataShapes := by
  unfold writeToBuffer
  split
  · exact ⟨rfl, rfl⟩
  · split_ifs <;> exact ⟨rfl, rfl⟩

theorem Pipe.step?_config {id : UInt16} {ev : Event} {s t : Pipe} {out : Option (List Data)}
    (h : s.step? id ev = some (t, out)) :
    t.handler.recordTables = s.handler.recordTables ∧
      t.handler.dataShapes = s.handler.dataShapes := by
  cases ev with
  | push data =>
    cases h
    exact s.handler.writeToBuffer_config id data
  | receive now =>
    simp only [step?] at h
    split at h
    · simp only [Option.some.injEq, Prod.mk.injEq] at h
      obtain ⟨rfl, rfl⟩ := h
      exact ⟨rfl, rfl⟩
    · cases h
  | timeout now =>
    simp only [step?, Option.some.injEq, Prod.mk.injEq] at h
    obtain ⟨rfl, rfl⟩ := h
    exact ⟨rfl, rfl⟩

theorem Pipe.step?_channel {id : UInt16} {ev : Event} {s t : Pipe} {out : Option (List Data)}
    (hchannel : ∃ queue, s.handler.dataBuffer id = some queue) (h : s.step? id ev = some (t, out)) :
    ∃ queue, t.handler.dataBuffer id = some queue := by
  obtain ⟨queue, hqueue⟩ := hchannel
  cases ev with
  | push data =>
    cases h
    simp only [Handler.writeToBuffer, hqueue]
    split_ifs
    · exact ⟨queue, hqueue⟩
    · exact ⟨_, Function.update_self ..⟩
  | receive now =>
    simp only [step?] at h
    split at h
    · simp only [Option.some.injEq, Prod.mk.injEq] at h
      obtain ⟨rfl, rfl⟩ := h
      exact ⟨_, Function.update_self ..⟩
    · cases h
  | timeout now =>
    simp only [step?, Option.some.injEq, Prod.mk.injEq] at h
    obtain ⟨rfl, rfl⟩ := h
    exact ⟨queue, hqueue⟩

/-! ### Batches to the table -/

/-- What the table answers for a record. -/
def Data.stored (e : Env) (data : Data) : Data := { data with value := data.value.map e.column }

def Row.data (r : Row) : Data := ⟨r.iter, r.sendT, r.values⟩

def World.records (w : World) (id : UInt16) : List Data :=
  ((w.tables id).map fun t => t.rows.map Row.data).getD []

/-- Every INSERT of a run succeeds: only the shape of a record fails a write. -/
def Pipe.InsertsSucceed (e : Env) (id : UInt16) : List Event → Pipe × World → Prop
  | [], _ => True
  | ev :: evs, (s, w) => ∀ t out, s.step? id ev = some (t, out) →
    (∀ b, out = some b → (∀ d ∈ b, s.handler.Shaped id d) →
      (s.handler.writeRange e id b w).1 = none) ∧
    InsertsSucceed e id evs (t, s.handler.flush e id out w)

theorem World.records_insert {e : Env} {id : UInt16} {columns : ℕ} {rows : List Row} {w : World}
    (h : (w.insert e id columns rows).1 = none) : (w.insert e id columns rows).2.records id =
      w.records id ++ rows.map (fun r => r.data.stored e) := by
  unfold insert at h ⊢
  cases hs : e.statement w.calls with
  | some err => simp [hs] at h
  | none =>
    cases ht : w.tables id with
    | none => simp [hs, ht] at h
    | some t =>
      by_cases hcol : columns ≤ t.columns
      · simp [hcol, records, ht, Function.comp_def, Row.data, Data.stored]
      · simp [hs, ht, hcol] at h

theorem Handler.mapM_fillin (h : Handler) (id : UInt16) (recvT : UInt64) {b : List Data}
    (hb : ∀ d ∈ b, h.Shaped id d) :
    b.mapM (h.fillin id recvT) = .ok (b.map fun d => ⟨d.iter, d.sendT, recvT, d.value⟩) := by
  induction b with
  | nil => rfl
  | cons d b ih =>
    rw [List.forall_mem_cons] at hb
    rw [List.mapM_cons, ih hb.2, fillin, if_pos hb.1]
    rfl

theorem Handler.mapM_fillin_error (h : Handler) (id : UInt16) (recvT : UInt64) {b : List Data}
    (hb : ¬ ∀ d ∈ b, h.Shaped id d) : ∃ err, b.mapM (h.fillin id recvT) = .error err := by
  induction b with
  | nil => simp at hb
  | cons d b ih =>
    rw [List.forall_mem_cons, not_and_or] at hb
    rw [List.mapM_cons]
    by_cases hd : h.Shaped id d
    · obtain ⟨err, herr⟩ := ih (hb.resolve_left (not_not_intro hd))
      exact ⟨err, by rw [herr, fillin, if_pos hd]; rfl⟩
    · exact ⟨_, by rw [fillin, if_neg hd]; rfl⟩

/-- A batch reaches the table whole, or not at all when one of its records has another shape. -/
theorem Handler.writeRange_records {e : Env} {h : Handler} {id : UInt16} {w : World}
    {b : List Data} (hid : id ∈ h.recordTables)
    (hok : (∀ d ∈ b, h.Shaped id d) → (h.writeRange e id b w).1 = none) :
    (h.writeRange e id b w).2.records id = w.records id ++
      if ∀ d ∈ b, h.Shaped id d then b.map (Data.stored e) else [] := by
  have hknown : Utils.uint16Contains h.recordTables id = true :=
    (Utils.uint16Contains_iff _ _).mpr hid
  unfold writeRange at hok ⊢
  rw [if_pos hknown] at hok ⊢
  by_cases hb : ∀ d ∈ b, h.Shaped id d
  · have hins := hok hb
    rw [h.mapM_fillin id _ hb] at hins ⊢
    rw [if_pos hb]
    exact (World.records_insert hins).trans (by simp [World.records, Function.comp_def, Row.data])
  · obtain ⟨err, herr⟩ := h.mapM_fillin_error id (e.unixMilli w.calls) hb
    rw [herr, if_neg hb, List.append_nil]
    rfl

theorem Handler.flush_records {e : Env} {h : Handler} {id : UInt16} {w : World}
    {out : Option (List Data)} (hid : id ∈ h.recordTables)
    (hok : ∀ b, out = some b → (∀ d ∈ b, h.Shaped id d) → (h.writeRange e id b w).1 = none) :
    (h.flush e id out w).records id =
      w.records id ++ (kept (h.Shaped id) out.toList).map (Data.stored e) := by
  cases out with
  | none => simp [flush]
  | some b =>
    have hrec := writeRange_records hid (hok b rfl)
    rw [Option.toList_some, kept_cons, kept_nil, List.append_nil, apply_ite (List.map _),
      List.map_nil]
    exact hrec

/-- A run of the buffer writes what its batches leave. -/
theorem Pipe.run?_records {e : Env} {id : UInt16} {evs : List Event} {s t : Pipe} {w w' : World}
    (hid : id ∈ s.handler.recordTables) (hok : Pipe.InsertsSucceed e id evs (s, w))
    (hrun : Pipe.run? e id evs (s, w) = some (t, w')) :
    ∃ r, (batcher id).run? evs s = some r ∧ r.state = t ∧ w'.records id =
      w.records id ++ (kept (s.handler.Shaped id) r.batches).map (Data.stored e) := by
  induction evs generalizing s w with
  | nil =>
    cases hrun
    exact ⟨_, rfl, rfl, by simp⟩
  | cons ev evs ih =>
    simp only [run?, Option.bind_eq_bind, Option.bind_eq_some_iff] at hrun
    obtain ⟨⟨u, out⟩, hstep, hrest⟩ := hrun
    obtain ⟨hok₁, hok₂⟩ := hok u out hstep
    obtain ⟨htables, hshapes⟩ := step?_config hstep
    have hshaped : u.handler.Shaped id = s.handler.Shaped id := by
      unfold Handler.Shaped
      rw [hshapes]
    have hrec₁ := Handler.flush_records hid hok₁
    obtain ⟨r, hr, hstate, hrec⟩ := ih (htables ▸ hid) hok₂ hrest
    refine ⟨{ r with batches := out.toList ++ r.batches, items := pushed id ev s ++ r.items },
      ?_, hstate, ?_⟩
    · rw [Batcher.run?]
      change (s.step? id ev).bind _ = _
      rw [hstep]
      change ((batcher id).run? evs u).bind _ = _
      rw [hr]
      rfl
    · rw [hrec, hrec₁, kept_append, List.map_append, List.append_assoc]
      simp only [hshaped]

/-- Once all is flushed, the table has each well-shaped record that was pushed, once and in
order, and no other, exactly when no batch mixed well-shaped records with others. -/
theorem records_eq_pushed_iff (e : Env) (id : UInt16) (evs : List Event) (s t : Pipe)
    (w w' : World) (r : Run Pipe Data) (hid : id ∈ s.handler.recordTables)
    (hok : Pipe.InsertsSucceed e id evs (s, w)) (hstart : s.held id = [])
    (hrun : Pipe.run? e id evs (s, w) = some (t, w'))
    (hr : (Pipe.batcher id).run? evs s = some r) (hflushed : t.held id = []) :
    w'.records id =
        w.records id ++ (r.items.filter (s.handler.Shaped id)).map (Data.stored e) ↔
      ∀ b ∈ r.batches, Uniform (s.handler.Shaped id) b := by
  obtain ⟨r', hr', hstate, hrec⟩ := Pipe.run?_records hid hok hrun
  rw [hr] at hr'
  cases hr'
  have hall : r.batches.flatten = r.items := by
    have h := Batcher.run?_conserve _ hr
    change r.batches.flatten ++ r.state.held id = s.held id ++ r.items at h
    rwa [hstate, hflushed, hstart, List.append_nil, List.nil_append] at h
  rw [hrec, List.append_cancel_left_eq, ← hall]
  exact map_kept_eq_iff _ _ _

def scalarPipe : Pipe where
  handler := { recordTables := [3], dataShapes := fun _ => 1, dataBuffer := fun _ => some [] }
  pending := ⟨[], 0⟩

def scalarWorld : World := ⟨0, fun _ => some ⟨1, []⟩, []⟩

/-- One sender pushes one value, another pushes two, and the timer fires. -/
def mixedEvents : List Event :=
  [.push ⟨500, 0, [7]⟩, .push ⟨501, 0, [8, 9]⟩, .receive 1, .receive 2, .timeout 100000002]

/-- The record of the first sender is lost with that of the second. -/
theorem mixedEvents_lose_record :
    ∃ t w r, Pipe.run? .reliable 3 mixedEvents (scalarPipe, scalarWorld) = some (t, w) ∧
      (Pipe.batcher 3).run? mixedEvents scalarPipe = some r ∧ t.held 3 = [] ∧
      w.records 3 ≠ scalarWorld.records 3 ++
        (r.items.filter (scalarPipe.handler.Shaped 3)).map (Data.stored .reliable) := by
  refine ⟨_, _, _, rfl, rfl, rfl, ?_⟩
  decide

/-- The timer fires between the senders. -/
def separateEvents : List Event :=
  [.push ⟨500, 0, [7]⟩, .receive 1, .timeout 100000002,
    .push ⟨501, 0, [8, 9]⟩, .push ⟨502, 0, [8, 9]⟩, .receive 100000003, .receive 100000004,
    .timeout 200000005, .push ⟨503, 0, [9]⟩, .receive 200000006, .timeout 300000007]

theorem separateEvents_insertsSucceed :
    Pipe.InsertsSucceed .reliable 3 separateEvents (scalarPipe, scalarWorld) := by
  -- a batch is written at the timeouts, and the second has no record of the shape
  refine fun t out h => ?_
  cases h
  refine ⟨fun _ hb => (by cases hb), fun t out h => ?_⟩
  cases h
  refine ⟨fun _ hb => (by cases hb), fun t out h => ?_⟩
  cases h
  refine ⟨fun b hb _ => (by cases hb; rfl), fun t out h => ?_⟩
  cases h
  refine ⟨fun _ hb => (by cases hb), fun t out h => ?_⟩
  cases h
  refine ⟨fun _ hb => (by cases hb), fun t out h => ?_⟩
  cases h
  refine ⟨fun _ hb => (by cases hb), fun t out h => ?_⟩
  cases h
  refine ⟨fun _ hb => (by cases hb), fun t out h => ?_⟩
  cases h
  refine ⟨fun b hb hshaped => ?_, fun t out h => ?_⟩
  · cases hb
    exact absurd (hshaped _ List.mem_cons_self) (by decide)
  cases h
  refine ⟨fun _ hb => (by cases hb), fun t out h => ?_⟩
  cases h
  refine ⟨fun _ hb => (by cases hb), fun t out h => ?_⟩
  cases h
  exact ⟨fun b hb _ => (by cases hb; rfl), trivial⟩

/-- Only the records of the second batch are lost. -/
theorem separateEvents_records : ∃ (t : Pipe) (w : World) (r : Run Pipe Data),
    Pipe.run? .reliable 3 separateEvents (scalarPipe, scalarWorld) = some (t, w) ∧
    (Pipe.batcher 3).run? separateEvents scalarPipe = some r ∧ (r.batches.map List.length) = [1, 2, 1] ∧
    (w.records 3).map Data.iter = [500, 503] ∧
    w.records 3 = scalarWorld.records 3 ++
      (r.items.filter (scalarPipe.handler.Shaped 3)).map (Data.stored .reliable) := by
  obtain ⟨t, w, r, hrun, hr, hheld, hlengths, hrecords, huniform⟩ :
      ∃ t w r, Pipe.run? .reliable 3 separateEvents (scalarPipe, scalarWorld) = some (t, w) ∧
        (Pipe.batcher 3).run? separateEvents scalarPipe = some r ∧ t.held 3 = [] ∧
        r.batches.map List.length = [1, 2, 1] ∧ (w.records 3).map Data.iter = [500, 503] ∧
        ∀ b ∈ r.batches, Uniform (scalarPipe.handler.Shaped 3) b :=
    ⟨_, _, _, rfl, rfl, rfl, rfl, rfl, by unfold Uniform; decide⟩
  have hid : (3 : UInt16) ∈ scalarPipe.handler.recordTables := by decide
  exact ⟨t, w, r, hrun, hr, hlengths, hrecords,
    (records_eq_pushed_iff _ _ _ _ _ _ _ _ hid separateEvents_insertsSucceed rfl hrun hr hheld).mpr
      huniform⟩

end DRDS
