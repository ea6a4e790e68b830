import DRDS.Concurrency.Progress
import DRDS.Service.Runs

/-! The channels of a data service in any run: a channel with a record table has a loop that can always
empty it, so whoever waits for room in it is let on. -/
namespace DRDS.Service
open Go Concurrency Server

/-- What the loop of a record table changes: its channel, from the front, its table, at the end, and the
clock. -/
structure Drained (id : UInt16) (S T : Service) : Prop where
  frame : T = { S with server := { S.server with
    handler := { S.server.handler with dataBuffer := T.server.handler.dataBuffer }
    world := T.server.world } }
  sent : T.server.world.sent = S.server.world.sent
  queue : ∀ queue, S.server.handler.dataBuffer id = some queue →
    ∃ queue', T.server.handler.dataBuffer id = some queue' ∧ queue' <:+ queue
  queueNone : S.server.handler.dataBuffer id = none → T.server.handler.dataBuffer id = none
  queues : ∀ id' ≠ id, T.server.handler.dataBuffer id' = S.server.handler.dataBuffer id'
  rows : S.server.world.rows id <+: T.server.world.rows id
  tables : ∀ id' ≠ id, T.server.world.tables id' = S.server.world.tables id'

section Drained
variable {id : UInt16} {S T U : Service}

theorem Drained.refl (id : UInt16) (S : Service) : Drained id S S :=
  ⟨rfl, rfl, fun queue h => ⟨queue, h, List.suffix_rfl⟩, fun h => h, fun _ _ => rfl,
    List.prefix_rfl, fun _ _ => rfl⟩

theorem Drained.trans (hST : Drained id S T) (hTU : Drained id T U) : Drained id S U where
  frame := by
    rw [hTU.frame, hST.frame]
  sent := hTU.sent.trans hST.sent
  queue queue hqueue := by
    obtain ⟨queue', hqueue', hend⟩ := hST.queue queue hqueue
    obtain ⟨queue'', hqueue'', hend'⟩ := hTU.queue queue' hqueue'
    exact ⟨queue'', hqueue'', hend'.trans hend⟩
  queueNone h := hTU.queueNone (hST.queueNone h)
  queues id' hid := (hTU.queues id' hid).trans (hST.queues id' hid)
  rows := hST.rows.trans hTU.rows
  tables id' hid := (hTU.tables id' hid).trans (hST.tables id' hid)

def waiting (id : UInt16) (S : Service) : ℕ := ((S.server.handler.dataBuffer id).getD []).length

theorem Drained.waiting_le (h : Drained id S T) : waiting id T ≤ waiting id S := by
  unfold waiting
  cases hqueue : S.server.handler.dataBuffer id with
  | none => rw [h.queueNone hqueue]
  | some queue =>
    obtain ⟨queue', hqueue', hend⟩ := h.queue queue hqueue
    rw [hqueue']
    exact hend.length_le

def draining (id : UInt16) : Descent Service where
  left := waiting id
  Rel := Drained id
  refl := Drained.refl id
  trans := Drained.trans
  left_le := Drained.waiting_le

theorem Drained.of_world {w : World} (hsent : w.sent = S.server.world.sent)
    (hrows : S.server.world.rows id <+: w.rows id)
    (htables : ∀ id' ≠ id, w.tables id' = S.server.world.tables id') :
    Drained id S { S with server := { S.server with world := w } } where
  frame := rfl
  sent := hsent
  queue queue h := ⟨queue, h, List.suffix_rfl⟩
  queueNone h := h
  queues _ _ := rfl
  rows := hrows
  tables := htables

end Drained

/-! ### The loop of a record table -/

/-- The goroutines as which the loop goes on. -/
def isLoopOf (id : UInt16) (r : Goroutine) : Prop := ∃ p, r = .handleData id p

section Loop
variable {e : Env} {id : UInt16}

theorem insert_drained (columns : ℕ) (rows : List Row) (S : Service) :
    Drained id S { S with server := { S.server with
      world := (S.server.world.insert e id columns rows).2 } } := by
  refine .of_world (sent_insert id columns rows _) ?_ fun id' hid => ?_
  · rcases World.insert_rows e id columns rows S.server.world id with hsame | ⟨_, _, happend⟩
    · exact hsame.symm ▸ List.prefix_rfl
    · exact happend.symm ▸ List.prefix_append ..
  · unfold World.insert
    split
    · split_ifs
      · exact Function.update_of_ne hid _ _
      · rfl
    · rfl
    · rfl

theorem writeRange_loops (batch : List Data) :
    (writeRange e id batch).Loops (draining id) (isLoopOf id) fun _ => True := by
  refine .bind (.atomic (fun S => Drained.refl id S) fun S => ?_)
  dsimp only
  split_ifs
  · refine .bind (.atomic (fun S => .of_world rfl List.prefix_rfl fun _ _ => rfl) fun T => ?_)
    dsimp only
    split
    · exact trivial
    · exact .atomic (insert_drained _ _) fun _ => trivial
  · exact trivial

theorem handOver_loops (round : Pending × Option (List Data)) :
    (handOver e id round).Loops (draining id) (isLoopOf id) fun _ => False := by
  rcases round with ⟨p, _ | batch⟩
  · exact ⟨p, rfl⟩
  · exact .bind ((writeRange_loops batch).mono fun _ _ => ⟨p, rfl⟩)

theorem waiting_pos {S : Service} (h : 0 < waiting id S) :
    ∃ data queue, S.server.handler.dataBuffer id = some (data :: queue) := by
  unfold waiting at h
  cases hqueue : S.server.handler.dataBuffer id with
  | none => simp [hqueue] at h
  | some queue =>
    cases queue with
    | nil => simp [hqueue] at h
    | cons data queue => exact ⟨data, queue, rfl⟩

def taken (id : UInt16) (S : Service) : Service :=
  { S with server := { S.server with handler := { S.server.handler with
    dataBuffer := Function.update S.server.handler.dataBuffer id
      ((S.server.handler.dataBuffer id).map List.tail) } } }

theorem taken_drained (S : Service) : Drained id S (taken id S) where
  frame := rfl
  sent := rfl
  queue queue h := ⟨queue.tail, by simp [taken, h], List.tail_suffix queue⟩
  queueNone h := by simp [taken, h]
  queues id' hid := Function.update_of_ne hid _ _
  rows := List.prefix_rfl
  tables _ _ := rfl

theorem waiting_taken {S : Service} (h : 0 < waiting id S) : waiting id (taken id S) < waiting id S := by
  obtain ⟨data, queue, hqueue⟩ := waiting_pos h
  simp [waiting, taken, hqueue]

/-- `handleData` waits for nothing but the records of its channel. -/
theorem handleData_loops (p : Pending) :
    (handleData e id p).Loops (draining id) (isLoopOf id) fun _ => False := by
  intro n
  dsimp only
  split_ifs
  · refine .bind (.await (fun S hS => ?_) taken_drained fun S data _ now => handOver_loops _)
    obtain ⟨data, queue, hqueue⟩ := waiting_pos hS
    rw [hqueue]
    rfl
  · exact fun now => handOver_loops _

theorem handleData_uses (p : Pending) : (handleData e id p).Uses (draining id) :=
  ⟨0, fun _ hS => .inl (waiting_taken hS)⟩

end Loop

/-! ### Runs -/

section Runs
variable {g : Slice.Growth} {e : Env} {server : Server} {subs : List (UInt16 × UInt8)}
  {consumers producers : ℕ} {now : UInt16 → ℤ} {ms : List (Move Input)} {P : Pool Service Goroutine}
  {id : UInt16} {k : ℕ}

theorem launch_loopsAt (g : Slice.Growth) (e : Env) (subs : List (UInt16 × UInt8))
    (consumers producers : ℕ) (now : UInt16 → ℤ) (hk : server.handler.recordTables[k]? = some id) :
    Pool.LoopsAt (draining id) (isLoopOf id) k
      (launch g e server subs consumers producers now) := by
  have hlt : k < server.handler.recordTables.length := (List.getElem?_eq_some_iff.mp hk).1
  refine ⟨handleData e id ⟨[], now id⟩, ?_, handleData_loops ⟨[], now id⟩⟩
  simp only [launch, List.map_append, List.append_assoc, List.map_map]
  rw [List.getElem?_append_left (by rwa [List.length_map]), List.getElem?_map, hk]
  rfl

theorem setting_loops (g : Slice.Growth) (e : Env) (r : Goroutine) (hr : isLoopOf id r) :
    ((setting g e).body r).Loops (draining id) (isLoopOf id) (fun _ => False) ∧
      ((setting g e).body r).Uses (draining id) := by
  obtain ⟨p, rfl⟩ := hr
  exact ⟨handleData_loops p, handleData_uses p⟩

theorem push_step? {Q : Pool Service Goroutine} {j : ℕ} {data : Data} {cont : Unit → Code Unit}
    {queue : List Data} (hj : Q.threads[j]? = some ((push id data).bind cont))
    (hpanic : Q.panicked = false) (hqueue : Q.shared.server.handler.dataBuffer id = some queue)
    (hroom : queue.length < Utils.buffLen) : (Q.step? (setting g e) (.thread j 0)).isSome := by
  obtain ⟨S, threads, panicked⟩ := Q
  dsimp only at hj hpanic hqueue
  subst hpanic
  simp [Pool.step?, hj, push, Program.await, Program.bind, hqueue, hroom]

/-- Whatever has happened, as long as the process lives the loop of a record table can empty its channel
alone, and changes nothing but its channel, its table and the clock. Each goroutine that has waited for
room in the channel can go on then. -/
theorem channel_drains
    (hrun : (launch g e server subs consumers producers now).run? (setting g e) ms = some P)
    (hpanic : P.panicked = false) (hk : server.handler.recordTables[k]? = some id) :
    ∃ ns : List ℤ, ∃ Q, P.run? (setting g e) (ns.map (.thread k)) = some Q ∧
      (∀ queue, Q.shared.server.handler.dataBuffer id = some queue → queue = []) ∧
      Drained id P.shared Q.shared ∧ Pool.SameBut k P Q ∧
      ∀ j ≠ k, ∀ data cont, P.threads[j]? = some ((push id data).bind cont) →
        (P.shared.server.handler.dataBuffer id).isSome →
        (Q.step? (setting g e) (.thread j 0)).isSome := by
  have hloops := fun r (hr : isLoopOf id r) => (setting_loops g e r hr).1
  have hat := Pool.run?_loops hloops hrun (launch_loopsAt g e subs consumers producers now hk)
  obtain ⟨ns, Q, hQ, hpanic', hleft, hdrained, hsame⟩ :=
    Pool.reaches_zero hloops (fun r hr => (setting_loops g e r hr).2) hpanic hat
  have hempty : ∀ queue, Q.shared.server.handler.dataBuffer id = some queue → queue = [] := by
    intro queue hqueue
    change waiting id Q.shared ≤ 0 at hleft
    rw [waiting, hqueue] at hleft
    exact List.length_eq_zero_iff.mp (Nat.le_zero.mp hleft)
  refine ⟨ns, Q, hQ, hempty, hdrained, hsame, fun j hj data cont hthread hsome => ?_⟩
  obtain ⟨queue, hqueue⟩ := Option.isSome_iff_exists.mp hsome
  obtain ⟨queue', hqueue', _⟩ := hdrained.queue queue hqueue
  refine push_step? (hsame j hj _ hthread) hpanic' hqueue' ?_
  rw [hempty queue' hqueue']
  decide

/-- The channel with the record, before its loop has moved. -/
theorem channel_drains_recordRun : ∃ P Q,
    (launch .tight .reliable afterInit [(3, 2)] 1 1 fun _ => 0).run? (setting .tight .reliable)
      (recordRun.take 17) = some P ∧ waiting 3 P.shared = 1 ∧ ∃ ns : List ℤ,
      P.run? (setting .tight .reliable) (ns.map (.thread 0)) = some Q ∧
      (∀ queue, Q.shared.server.handler.dataBuffer 3 = some queue → queue = []) ∧
      Drained 3 P.shared Q.shared := by
  have hrun : ((launch .tight .reliable afterInit [(3, 2)] 1 1 fun _ => 0).run? (setting .tight .reliable)
      (recordRun.take 17)).any (fun P => waiting 3 P.shared = 1 ∧ P.panicked = false) := by
    decide +kernel
  obtain ⟨P, hP, hends⟩ := (Option.any_eq_true _ _).mp hrun
  obtain ⟨hwaiting, hpanic⟩ := of_decide_eq_true hends
  obtain ⟨ns, Q, hQ, hempty, hdrained, _⟩ := channel_drains (k := 0) hP hpanic rfl
  exact ⟨P, Q, hP, hwaiting, ns, hQ, hempty, hdrained⟩

end Runs
end DRDS.Service
