import DRDS.Concurrency.Credit
import DRDS.Service.Runs
import Mathlib.Data.FinEnum

/-! How often a record is stored: no more often than it was given, whatever the order in which the
goroutines of a data service run. -/
namespace DRDS.Service
open Go Concurrency Server

/-! ### What is given

The records that are counted are those of one id that satisfy `keep` as they are stored. -/

section Given
variable (g : Slice.Growth) (e : Env) (id : UInt16) (keep : Data → Bool)

def gives (pkt : ServicePacket (Slice UInt8)) (f : SubPacket (Slice UInt8)) : Bool :=
  f.dataID = id && (payloadBuf2Float? g f.payload).any fun rawData =>
    keep (Data.stored e ⟨pkt.simulinkTime + f.timeDiff.toUInt32, pkt.physicalTime, rawData.toList⟩)

def givenBy (bytes : List UInt8) : ℕ :=
  match fromServiceBuf? (listenBuf bytes) with
  | some pkt =>
    if pkt.service = Utils.serSend then pkt.subpackets.countP (gives g e id keep pkt) else 0
  | none => 0

def PostsTo (param : String) (body : Body) : Prop :=
  ∃ n dst values, command? param body = .ok (n, dst, values) ∧ .ofInt n = id

/-- How many such records a command may give; the clock says when it is sent. -/
def postedBy (param : String) (body : Body) : ℕ :=
  match command? param body with
  | .ok (n, _, values) => if .ofInt n = id ∧ ∃ t, keep (Data.stored e ⟨0, t, values⟩) then 1 else 0
  | .error _ => 0

/-! ### What is on its way -/

/-- How many of the records for an id are counted. -/
def among (id' : UInt16) (batch : List Data) : ℕ :=
  if id' = id then batch.countP fun data => keep (data.stored e) else 0

/-- How many such records the goroutines that a packet starts may store. The rows that are published would
count too, but no packet that has arrived gets that far. -/
def inPacket (pkt : ServicePacket (Slice UInt8)) : ℕ :=
  if pkt.service = Utils.serSend then pkt.subpackets.countP (gives g e id keep pkt)
  else if pkt.service = Utils.serPublish then
    match payloadBuf2Float? g pkt.payload with
    | none => 0
    | some _ => (pkt.subpackets.map fun f => if f.dataID = id then f.row.toNat else 0).sum
  else 0

def inBuf (buf : Slice UInt8) : ℕ :=
  match fromServiceBuf? buf with
  | some pkt => inPacket g e id keep pkt
  | none => 0

/-- How many such records are stored or wait in their channel. -/
def inServer (s : Server) : ℕ :=
  (s.world.rows id).countP (fun r => keep r.data) + among e id keep id ((s.handler.dataBuffer id).getD [])

/-- Nothing that comes in for the id is lost: the database answers, the table has room for the values, the
channel for one more record, all records in it have the shape of the table, and no command is posted for
the id. -/
structure Sound (shape : UInt8) (S : Service) : Prop where
  statement : ∀ k, e.statement k = none
  recorded : id ∈ S.server.handler.recordTables
  dataShapes : S.server.handler.dataShapes id = shape
  columns : ∃ t, S.server.world.tables id = some t ∧ shape.toNat ≤ t.columns
  room : ∃ queue, S.server.handler.dataBuffer id = some queue ∧ queue.length < Utils.buffLen
  shaped : ∀ queue, S.server.handler.dataBuffer id = some queue →
    ∀ data ∈ queue, data.value.length = shape.toNat
  buffer : ∀ buf ∈ S.buffer, ∃ bytes, buf = listenBuf bytes
  commands : ∀ command ∈ S.commands, ¬ PostsTo id command.1 command.2

/-- What a service holds of such records and what it has been given, with those of its table at the
start. -/
def account (initial : ℕ) (shape : UInt8) (strict : Prop) : Account Service Goroutine where
  held S := inServer e id keep S.server + (S.buffer.map (inBuf g e id keep)).sum +
    (S.socket.map (givenBy g e id keep)).sum
  given S := initial + (S.arrived.map (givenBy g e id keep)).sum +
    (S.commands.map fun command => postedBy e id keep command.1 command.2).sum
  credit
    | .handleData id' p => among e id keep id' p.buffer
    | .call (.send id' time physicalTime rawData) => among e id keep id' [⟨time, physicalTime, rawData⟩]
    | .call (.publish id' _ rows _ _ _ _) => if id' = id then rows.toNat else 0
    | .command param body => postedBy e id keep param body
    | _ => 0
  Ok S := strict → Sound e id shape S
  Pre
    | .handleData id' p => strict → id' = id → ∀ data ∈ p.buffer, data.value.length = shape.toNat
    | .call (.publish ..) => ¬ strict
    | .command param body => strict → ¬ PostsTo id param body
    | _ => True
  strict

end Given

section Takes
variable {g : Slice.Growth} {e : Env} {id : UInt16} {keep : Data → Bool} {initial : ℕ} {shape : UInt8}
  {strict : Prop} {α : Type} {S : Service}

@[simp] theorem among_nil (id' : UInt16) : among e id keep id' [] = 0 := by
  simp [among]

theorem among_append (id' : UInt16) (l l' : List Data) :
    among e id keep id' (l ++ l') = among e id keep id' l + among e id keep id' l' := by
  unfold among
  split_ifs
  · exact List.countP_append
  · rfl

theorem among_of_ne {id' : UInt16} (h : id' ≠ id) (l : List Data) : among e id keep id' l = 0 :=
  if_neg h

theorem postedBy_of_not {param : String} {body : Body} (h : ¬ PostsTo id param body) :
    postedBy e id keep param body = 0 := by
  unfold postedBy
  split
  · rename_i n dst values hcommand
    exact if_neg fun hid => h ⟨n, dst, values, hcommand, hid.1⟩
  · rfl

/-- A packet that has arrived gives what its datagram gives. -/
theorem inBuf_listenBuf (bytes : List UInt8) : inBuf g e id keep (listenBuf bytes) = givenBy g e id keep bytes := by
  unfold inBuf givenBy
  cases hpkt : fromServiceBuf? (listenBuf bytes) with
  | none => rfl
  | some pkt =>
    obtain ⟨hfull, hmod⟩ := payload_of_listenBuf hpkt
    dsimp only [inPacket]
    rw [payloadBuf2Float?_of_lt g pkt.payload (by omega), ite_self]

/-! ### Programs that store nothing -/

theorem onServer_takes_of {f : Server → α × Server} {c : ℕ} {R : α → Prop}
    (hf : ∀ S, (account g e id keep initial shape strict).Ok S →
      (account g e id keep initial shape strict).Leaves (inServer e id keep S.server + c)
        (inServer e id keep (f S.server).2))
    (hR : ∀ S, (account g e id keep initial shape strict).Ok S → R (f S.server).1) :
    (account g e id keep initial shape strict).Takes (onServer f) c R := by
  refine .atomic (fun S hok => ?_) hR
  obtain ⟨hle, hstrict⟩ := hf S hok
  refine ⟨?_, fun hs => ?_⟩
  · simp only [account]
    omega
  · have := hstrict hs
    simp only [account]
    omega

theorem onServer_takes {f : Server → α × Server} {R : α → Prop}
    (hf : ∀ s, (f s).2.handler = s.handler ∧ (f s).2.world.tables = s.world.tables)
    (hR : ∀ S, (account g e id keep initial shape strict).Ok S → R (f S.server).1) :
    (account g e id keep initial shape strict).Takes (onServer f) 0 R := by
  refine onServer_takes_of (fun S _ => .of_eq ?_) hR
  obtain ⟨hhandler, htables⟩ := hf S.server
  simp only [inServer, World.rows, hhandler, htables, Nat.add_zero]

theorem return_takes (a : α) : (account g e id keep initial shape strict).Takes (.done a) 0 fun _ => True :=
  .done trivial fun _ => rfl

theorem write_takes (addr : Addr) (buf : List UInt8) :
    (account g e id keep initial shape strict).Takes (write e addr buf) 0 fun _ => True := by
  refine onServer_takes (fun s => ?_) fun _ _ => trivial
  cases e.write s.world.calls addr buf <;> exact ⟨rfl, rfl⟩

theorem transmit_takes (dst : UInt8) (buf : List UInt8) :
    (account g e id keep initial shape strict).Takes (transmit e dst buf) 0 fun _ => True := by
  refine .free (onServer_takes (R := fun _ => True) (fun _ => ⟨rfl, rfl⟩) fun _ _ => trivial)
    fun dialed _ => ?_
  cases dialed with
  | error err => exact return_takes _
  | ok addr => exact write_takes addr buf

theorem sendPkt_takes (dst priority : UInt8) (synt : UInt32) (flag : UInt8) (id' : UInt16)
    (dataMap : List (List Float64)) :
    (account g e id keep initial shape strict).Takes (sendPkt e dst priority synt flag id' dataMap) 0
      fun _ => True :=
  .free (onServer_takes (R := fun _ => True) (fun _ => ⟨rfl, rfl⟩) fun _ _ => trivial)
    fun _ _ => transmit_takes _ _

theorem sendOpt_takes (dst priority : UInt8) (synt : UInt32) (service flag opt1 opt2 : UInt8) :
    (account g e id keep initial shape strict).Takes
      (sendOpt e dst priority synt service flag opt1 opt2) 0 fun _ => True := by
  refine .free (onServer_takes (R := fun _ => True) (fun _ => ⟨rfl, rfl⟩) fun _ _ => trivial)
    fun s _ => ?_
  refine .free (transmit_takes _ _) fun err _ => ?_
  cases err with
  | some err => exact return_takes _
  | none => exact onServer_takes (fun _ => ⟨rfl, rfl⟩) fun _ _ => trivial

theorem queryLastSynt_takes (id' : UInt16) :
    (account g e id keep initial shape strict).Takes (queryLastSynt e id') 0 fun _ => True :=
  onServer_takes (fun s => ⟨(queryLastSynt_silent id' s).handler, (queryLastSynt_silent id' s).tables⟩)
    fun _ _ => trivial

theorem readSynt_takes (id' : UInt16) (synt : UInt32) :
    (account g e id keep initial shape strict).Takes (readSynt e id' synt) 0 fun _ => True :=
  onServer_takes (fun s => ⟨rfl, (congrArg World.tables (s.handler.readSynt_world e id' synt s.world) :)⟩)
    fun _ _ => trivial

theorem readRange_takes (id' : UInt16) (start stop : UInt32) :
    (account g e id keep initial shape strict).Takes (readRange e id' start stop) 0 fun _ => True :=
  onServer_takes (fun s => ⟨rfl, (congrArg World.tables (s.handler.readRange_world e id' start stop s.world) :)⟩)
    fun _ _ => trivial

theorem requestAt_takes (id' : UInt16) (synt : UInt32) (dst priority : UInt8) :
    (account g e id keep initial shape strict).Takes (requestAt e id' synt dst priority) 0
      fun _ => True := by
  refine .free (readSynt_takes id' synt) fun answer _ => ?_
  obtain ⟨_, data, _ | err⟩ := answer
  · exact sendPkt_takes _ _ _ _ _ _
  · exact return_takes _

theorem requestUpTo_takes (id' : UInt16) (timeStart timeEnd : UInt32) (dst : UInt8) :
    (account g e id keep initial shape strict).Takes (requestUpTo e id' timeStart timeEnd dst) 0
      fun _ => True := by
  refine .free (readRange_takes id' timeStart timeEnd) fun answer _ => ?_
  obtain err | ⟨_, _, dataMat⟩ := answer
  · exact return_takes _
  · exact sendPkt_takes _ _ _ _ _ _

theorem requestCall_takes (pkt : ServicePacket (Slice UInt8)) (f : SubPacket (Slice UInt8)) :
    (account g e id keep initial shape strict).Takes (requestCall e pkt f) 0 fun _ => True := by
  unfold requestCall request requestRange
  split_ifs
  · exact .free (queryLastSynt_takes _) fun synt _ => requestAt_takes _ synt _ _
  · exact requestAt_takes _ _ _ _
  · exact .free (queryLastSynt_takes _) fun timeEnd _ => requestUpTo_takes _ _ timeEnd _
  · exact requestUpTo_takes _ _ _ _

theorem history_takes (id' : UInt16) (lastSynt : UInt32) (n : ℕ) (i : UInt32) :
    (account g e id keep initial shape strict).Takes (history e id' lastSynt n i) 0 fun _ => True := by
  induction n generalizing i with
  | zero => exact .await fun _ _ _ h => by cases h
  | succ n ih =>
    unfold history
    split_ifs
    · refine .free (readSynt_takes id' i) fun answer _ => ?_
      exact .free (ih (i + 1)) fun rows _ => return_takes _
    · exact return_takes _

theorem subscribe_takes (id' : UInt16) (dst : UInt8) (synt : UInt32) (rate : UInt16) :
    (account g e id keep initial shape strict).Takes (subscribe e id' dst synt rate) 0
      fun _ => True := by
  have hack : (account g e id keep initial shape strict).Takes (subscribeAck e dst synt) 0 fun _ => True :=
    sendOpt_takes _ _ _ _ _ _ _
  refine .free (onServer_takes (R := fun _ => True) (fun _ => ⟨rfl, rfl⟩) fun _ _ => trivial)
    fun registered _ => ?_
  cases registered with
  | false =>
    exact .free (onServer_takes (R := fun _ => True) (fun _ => ⟨rfl, rfl⟩) fun _ _ => trivial)
      fun _ _ => hack
  | true =>
    refine .free (queryLastSynt_takes id') fun lastSynt _ => ?_
    split_ifs
    · refine .free (history_takes id' lastSynt _ synt) fun dataMap _ => ?_
      exact .free (sendPkt_takes _ _ _ _ _ _) fun _ _ => hack
    · exact hack

theorem main_takes (subscriptions : List (UInt16 × UInt8)) :
    (account g e id keep initial shape strict).Takes (main e subscriptions) 0 fun _ => True := by
  induction subscriptions with
  | nil => exact return_takes _
  | cons x subscriptions ih => exact .free (subscribe_takes x.1 x.2 0 1000) fun _ _ => ih

/-! ### Programs that store -/

theorem inServer_push {id' : UInt16} {data : Data} {s : Server} {queue : List Data}
    (hqueue : s.handler.dataBuffer id' = some queue) (hroom : queue.length < Utils.buffLen) :
    inServer e id keep (s.writeToBuffer id' data).2 =
      inServer e id keep s + among e id keep id' [data] := by
  rw [writeToBuffer_of_room hqueue hroom]
  by_cases hid : id' = id
  · subst hid
    simp [inServer, hqueue, among_append, Nat.add_assoc]
  · simp [inServer, Function.update_of_ne (Ne.symm hid), among, hid]

theorem push_takes (id' : UInt16) (data : Data) :
    (account g e id keep initial shape strict).Takes (push id' data) (among e id keep id' [data])
      fun _ => True := by
  refine .await fun S _ _ hlook => ⟨trivial, .of_eq ?_⟩
  obtain ⟨queue, hqueue, hroom⟩ := room_of_push hlook
  simp only [account, inServer_push hqueue hroom]
  omega

/-- Without a channel, or without room in it, the record is dropped. -/
theorem writeToBuffer_takes (id' : UInt16) (data : Data) :
    (account g e id keep initial shape strict).Takes (writeToBuffer id' data)
      (among e id keep id' [data]) fun _ => True := by
  refine .free (onServer_takes (R := fun o => strict → id' = id →
    ∃ queue, o = some queue ∧ queue.length < Utils.buffLen) (fun _ => ⟨rfl, rfl⟩)
    fun S hok hs hid => hid ▸ (hok hs).room) fun o ho => ?_
  cases o with
  | none =>
    refine .done trivial fun hs => among_of_ne (fun hid => ?_) _
    obtain ⟨queue, hnone, _⟩ := ho hs hid
    cases hnone
  | some queue =>
    dsimp only
    split_ifs with hfull
    · refine .done trivial fun hs => among_of_ne (fun hid => ?_) _
      obtain ⟨_, hsome, hroom⟩ := ho hs hid
      cases hsome
      omega
    · exact .seq (d := 0) (push_takes id' data) fun _ _ => return_takes _

theorem insert_leaves (hok : (account g e id keep initial shape strict).Ok S) (id' : UInt16) {columns : ℕ}
    (hcolumns : strict → id' = id → columns = shape.toNat) (rows : List Row) :
    (account g e id keep initial shape strict).Leaves
      (inServer e id keep S.server + among e id keep id' (rows.map Row.data))
      (inServer e id keep { S.server with world := (S.server.world.insert e id' columns rows).2 }) := by
  by_cases hid : id' = id
  · subst hid
    have hstored : rows.countP (fun r => keep ({ r with values := r.values.map e.column } : Row).data) =
        among e id' keep id' (rows.map Row.data) := by
      rw [among, if_pos rfl, List.countP_map]
      rfl
    refine ⟨?_, fun hs => ?_⟩
    · rcases World.insert_rows e id' columns rows S.server.world id' with hsame | ⟨_, _, happend⟩
      · simp only [inServer, hsame]
        omega
      · simp only [inServer, happend, List.countP_append, List.countP_map, Function.comp_def, hstored]
        omega
    · obtain ⟨t, ht, hwide⟩ := (hok hs).columns
      rw [← hcolumns hs rfl] at hwide
      have hinsert : (S.server.world.insert e id' columns rows).2.rows id' = S.server.world.rows id' ++
          rows.map fun r => { r with values := r.values.map e.column } := by
        simp [World.insert, World.rows, (hok hs).statement, ht, hwide]
      simp only [inServer, hinsert, List.countP_append, List.countP_map, Function.comp_def, hstored]
      omega
  · rw [among_of_ne hid, Nat.add_zero]
    refine .of_eq ?_
    rcases World.insert_rows e id' columns rows S.server.world id with hsame | ⟨rfl, _⟩
    · simp only [inServer, hsame]
    · exact absurd rfl hid

/-- A batch is stored, or dropped as a whole. -/
theorem writeRange_takes {id' : UInt16} {batch : List Data}
    (hbatch : strict → id' = id → ∀ data ∈ batch, data.value.length = shape.toNat) :
    (account g e id keep initial shape strict).Takes (writeRange e id' batch)
      (among e id keep id' batch) fun _ => True := by
  refine .free (onServer_takes (R := fun h : Handler => strict →
    h.dataShapes id = shape ∧ id ∈ h.recordTables) (fun _ => ⟨rfl, rfl⟩)
    fun S hok hs => ⟨(hok hs).dataShapes, (hok hs).recorded⟩) fun h hh => ?_
  split_ifs with hcontains
  · refine .free (onServer_takes (R := fun _ => True) (fun _ => ⟨rfl, rfl⟩) fun _ _ => trivial)
      fun recvT _ => ?_
    cases hrows : batch.mapM (h.fillin id' recvT) with
    | error err =>
      refine .done trivial fun hs => among_of_ne (fun hid => ?_) _
      have hshaped : ∀ data ∈ batch, h.Shaped id' data := fun data hdata => by
        rw [Handler.Shaped, hid, (hh hs).1]
        exact hbatch hs hid data hdata
      rw [h.mapM_fillin id' recvT hshaped] at hrows
      cases hrows
    | ok rows =>
      refine onServer_takes_of (fun S hok => ?_) fun _ _ => trivial
      rw [← map_data_fillin hrows]
      exact insert_leaves hok id' (fun hs hid => by rw [hid, (hh hs).1]) rows
  · refine .done trivial fun hs => among_of_ne (fun hid => hcontains ?_) _
    rw [hid]
    exact (Utils.uint16Contains_iff _ _).mpr (hh hs).2

/-! ### The loop of a record table -/

theorem inServer_receive {id' : UInt16} {data : Data} {s : Server}
    (hhead : ((s.handler.dataBuffer id').getD []).head? = some data) :
    inServer e id keep { s with handler := { s.handler with
      dataBuffer := Function.update s.handler.dataBuffer id' ((s.handler.dataBuffer id').map List.tail) } } +
        among e id keep id' [data] = inServer e id keep s := by
  cases hqueue : s.handler.dataBuffer id' with
  | none => simp [hqueue] at hhead
  | some queue =>
    rw [hqueue] at hhead
    obtain ⟨queue, rfl⟩ := List.head?_eq_some_iff.mp hhead
    by_cases hid : id' = id
    · subst hid
      have hparts : among e id' keep id' (data :: queue) = _ := among_append id' [data] queue
      simp [inServer, hqueue]
      omega
    · simp [inServer, Function.update_of_ne (Ne.symm hid), among, hid]

theorem handOver_pays {id' : UInt16} {round : Pending × Option (List Data)} {Q : Unit → ℕ → Prop}
    (hround : strict → id' = id → ∀ data ∈ round.2.getD [] ++ round.1.buffer,
      data.value.length = shape.toNat) :
    (account g e id keep initial shape strict).Pays (handOver e id' round)
      (among e id keep id' (round.2.getD [] ++ round.1.buffer)) Q := by
  rw [among_append]
  have hpre : (account g e id keep initial shape strict).Pre (.handleData id' round.1) :=
    fun hs hid data hdata => hround hs hid data (List.mem_append_right _ hdata)
  rcases round with ⟨p, _ | batch⟩
  · exact ⟨hpre, .of_eq (by simp [account])⟩
  · refine (writeRange_takes fun hs hid data hdata => ?_).pays fun _ _ => ⟨hpre, .refl _⟩
    exact hround hs hid data (List.mem_append_left _ hdata)

theorem handleData_pays {id' : UInt16} {p : Pending} {Q : Unit → ℕ → Prop}
    (hp : (account g e id keep initial shape strict).Pre (.handleData id' p)) :
    (account g e id keep initial shape strict).Pays (handleData e id' p) (among e id keep id' p.buffer)
      Q := by
  have hround : ∀ ev : Select, (strict → id' = id → ∀ data ∈ ev.received, data.value.length = shape.toNat) →
      (account g e id keep initial shape strict).Pays (handOver e id' (p.handleData ev))
        (among e id keep id' (p.buffer ++ ev.received)) Q := by
    intro ev hev
    rw [← p.handleData_received ev]
    refine handOver_pays fun hs hid data hdata => ?_
    rw [p.handleData_received ev] at hdata
    exact (List.mem_append.mp hdata).elim (hp hs hid data) (hev hs hid data)
  intro n
  dsimp only
  split_ifs
  · refine .await_bind fun S data hok hhead =>
      ⟨among e id keep id' (p.buffer ++ [data]), fun now => hround (.data data now) ?_, ?_⟩
    · intro hs hid d hd
      obtain ⟨queue, hqueue, _⟩ := (hok hs).room
      rw [hid, hqueue] at hhead
      rw [List.mem_singleton.mp hd]
      exact (hok hs).shaped queue hqueue data (List.mem_of_mem_head? hhead)
    · refine .of_eq ?_
      simp only [account, ← inServer_receive hhead, among_append]
      omega
  · intro now
    have htimeout := hround (.timeout now) fun _ _ _ hd => by cases hd
    rwa [Select.received, List.append_nil] at htimeout

/-! ### Packets -/

theorem publishRows_takes (hs : ¬ strict) (id' : UInt16) (synt physicalTime : UInt32)
    (rawData : Slice Float64) (col : ℕ) (rows : List ℕ) :
    (account g e id keep initial shape strict).Takes (publishRows id' synt physicalTime rawData col rows)
      (if id' = id then rows.length else 0) fun _ => True := by
  induction rows with
  | nil => exact .done trivial fun h => absurd h hs
  | cons row rows ih =>
    unfold publishRows
    cases rawData.slice? (row * col) ((row + 1) * col) with
    | none => exact .panic
    | some value =>
      have hle : among e id keep id' [⟨synt + .ofNat row, physicalTime, value.toList⟩] +
          (if id' = id then rows.length else 0) ≤ if id' = id then (row :: rows).length else 0 := by
        unfold among
        split_ifs
        · rw [List.length_cons, Nat.add_comm]
          exact Nat.add_le_add_left List.countP_le_length _
        · exact Nat.le_refl 0
      refine Account.Takes.of_leaves (.seq (writeToBuffer_takes id' _) fun err _ => ?_)
        ⟨hle, fun h => absurd h hs⟩
      cases err with
      | some err => exact .done trivial fun h => absurd h hs
      | none => exact ih

theorem publish_takes (hs : ¬ strict) (id' : UInt16) (dst rows cols : UInt8) (synt physicalTime : UInt32)
    (rawData : Slice Float64) : (account g e id keep initial shape strict).Takes
      (publish e id' dst rows cols synt physicalTime rawData) (if id' = id then rows.toNat else 0)
      fun _ => True := by
  have hanswer : ∀ (flag : UInt8) (answer : Option String),
      (account g e id keep initial shape strict).Takes (Program.bind (sendOpt e dst Utils.priorityHight synt
        Utils.serResponse flag Utils.reserved Utils.reserved) fun _ => .done answer)
        (if id' = id then rows.toNat else 0) fun _ => True :=
    fun flag answer => .free (sendOpt_takes _ _ _ _ _ _ _) fun _ _ => .done trivial fun h => absurd h hs
  refine .free (onServer_takes (R := fun _ => True) (fun _ => ⟨rfl, rfl⟩) fun _ _ => trivial)
    fun registered _ => ?_
  cases registered with
  | true =>
    refine .free (queryLastSynt_takes id') fun lastSynt _ => ?_
    by_cases hsynt : synt < lastSynt
    · rw [if_pos hsynt]
      exact hanswer _ _
    · rw [if_neg hsynt]
      exact Account.Takes.of_leaves (publishRows_takes hs id' _ _ _ _ _)
        (.of_eq (by rw [List.length_range]))
  | false =>
    exact .free (onServer_takes (R := fun _ => True) (fun _ => ⟨rfl, rfl⟩) fun _ _ => trivial)
      fun _ _ => hanswer _ _

theorem rounds_takes {β : Type} {body : β → Code (Option (Option String))} {c : β → ℕ} {xs : List β}
    (h : ∀ x ∈ xs, (account g e id keep initial shape strict).Takes (body x) (c x)
      fun o => strict → o ≠ none → ∀ y, c y = 0) :
    (account g e id keep initial shape strict).Takes (rounds body xs) (xs.map c).sum fun _ => True := by
  induction xs with
  | nil => exact return_takes _
  | cons x xs ih =>
    rw [List.forall_mem_cons] at h
    rw [List.map_cons, List.sum_cons]
    refine .seq h.1 fun o ho => ?_
    cases o with
    | none => exact ih h.2
    | some o =>
      refine .done trivial fun hs => List.sum_eq_zero fun n hn => ?_
      obtain ⟨y, _, rfl⟩ := List.mem_map.mp hn
      exact ho hs (Option.some_ne_none o) y

theorem tryCall_takes {call : Code (Option String)}
    (h : (account g e id keep initial shape strict).Takes call 0 fun _ => True) :
    (account g e id keep initial shape strict).Takes (tryCall call) 0 fun _ => True := by
  refine .free h fun err _ => ?_
  cases err <;> exact return_takes _

/-- Forwarding starts no more than packets, and goes on. -/
theorem forward_takes (pkt : ServicePacket (Slice UInt8)) (f : SubPacket (Slice UInt8))
    (rawData : Slice Float64) :
    (account g e id keep initial shape strict).Takes (forward pkt f rawData) 0 fun o => o = none := by
  refine .free (onServer_takes (R := fun o => ∀ forwards, o = some forwards → ∀ r ∈ forwards,
    (account g e id keep initial shape strict).Pre (.call r) ∧
      (account g e id keep initial shape strict).credit (.call r) = 0) (fun _ => ⟨rfl, rfl⟩) ?_) fun o ho => ?_
  · intro S _ forwards hforwards r hr
    obtain ⟨dst, _, hpkt⟩ := exists_of_mem_mapM hforwards hr
    obtain ⟨mat, _, rfl⟩ := Option.map_eq_some_iff.mp hpkt
    exact ⟨trivial, rfl⟩
  · cases o with
    | none => exact .panic
    | some forwards =>
      have hstart : (account g e id keep initial shape strict).Takes
          (Program.startAll (forwards.map Goroutine.call)) 0 fun _ => True := by
        refine Account.Takes.of_leaves (.startAll (fun r hr => ?_) trivial) (.of_eq ?_)
        · obtain ⟨routine, hroutine, rfl⟩ := List.mem_map.mp hr
          exact (ho forwards rfl routine hroutine).1
        · refine (List.sum_eq_zero fun n hn => ?_).symm
          rw [List.map_map] at hn
          obtain ⟨routine, hroutine, rfl⟩ := List.mem_map.mp hn
          exact (ho forwards rfl routine hroutine).2
      exact .free hstart fun _ _ => .done rfl fun _ => rfl

theorem sendRound_takes (pkt : ServicePacket (Slice UInt8)) (f : SubPacket (Slice UInt8)) :
    (account g e id keep initial shape strict).Takes (sendRound g pkt f)
      (if gives g e id keep pkt f then 1 else 0) fun o => o = none := by
  unfold sendRound
  cases hraw : payloadBuf2Float? g f.payload with
  | none => exact .panic
  | some rawData =>
    refine Account.Takes.of_leaves (.start (p := forward pkt f rawData) trivial (forward_takes pkt f rawData))
      (.of_eq ?_)
    by_cases hid : f.dataID = id <;> simp [account, among, gives, hraw, hid]

theorem publishRound_takes (hs : ¬ strict) (pkt : ServicePacket (Slice UInt8)) (rawData : Slice Float64)
    (f : SubPacket (Slice UInt8)) :
    (account g e id keep initial shape strict).Takes (publishRound pkt rawData f)
      (if f.dataID = id then f.row.toNat else 0) fun _ => True := by
  have hnext : (account g e id keep initial shape strict).Takes
      (if f.length = 0 then .done (some none) else forward pkt f rawData) 0 fun _ => True := by
    split_ifs
    · exact return_takes _
    · exact (forward_takes pkt f rawData).mono fun _ _ => trivial
  exact fun n => ⟨hs, 0 + n, hnext n, .of_eq (by rw [Nat.zero_add]; rfl)⟩

theorem sum_map_ite {β : Type} (p : β → Bool) (xs : List β) :
    (xs.map fun x => if p x then 1 else 0).sum = xs.countP p := by
  induction xs with
  | nil => rfl
  | cons x xs ih => rw [List.map_cons, List.sum_cons, ih, List.countP_cons, Nat.add_comm]

theorem handlePkt_takes {pkt : ServicePacket (Slice UInt8)}
    (hpkt : strict → payloadBuf2Float? g pkt.payload = none) :
    (account g e id keep initial shape strict).Takes (handlePkt g e pkt) (inPacket g e id keep pkt)
      fun _ => True := by
  unfold handlePkt inPacket
  by_cases hsend : pkt.service = Utils.serSend
  · rw [if_pos hsend, if_pos hsend, ← sum_map_ite]
    exact rounds_takes fun f _ => (sendRound_takes pkt f).mono fun o ho _ hne => absurd ho hne
  rw [if_neg hsend, if_neg hsend]
  by_cases hpublish : pkt.service = Utils.serPublish
  · rw [if_neg (by rw [hpublish]; decide), if_pos hpublish, if_pos hpublish]
    cases hraw : payloadBuf2Float? g pkt.payload with
    | none => exact .panic
    | some rawData =>
      have hs : ¬ strict := fun hs => by
        rw [hpkt hs] at hraw
        cases hraw
      exact rounds_takes fun f _ => (publishRound_takes hs pkt rawData f).mono fun _ _ h => absurd h hs
  rw [if_neg hpublish, if_neg hpublish]
  have hcalls : ∀ call : SubPacket (Slice UInt8) → Code (Option String),
      (∀ f, (account g e id keep initial shape strict).Takes (call f) 0 fun _ => True) →
      (account g e id keep initial shape strict).Takes (rounds (fun f => tryCall (call f)) pkt.subpackets) 0
        fun _ => True := by
    intro call hcall
    refine Account.Takes.of_leaves (rounds_takes fun f _ =>
      (tryCall_takes (hcall f)).mono fun _ _ _ _ _ => rfl) (.of_eq ?_)
    simp
  split_ifs
  · exact hcalls _ fun f => requestCall_takes pkt f
  · exact hcalls _ fun f => subscribe_takes _ _ _ _
  · exact return_takes _

/-! ### Goroutines -/

theorem producer_pays {Q : Unit → ℕ → Prop} :
    (account g e id keep initial shape strict).Pays producer 0 Q := by
  refine .await_bind fun S bytes _ hhead => ⟨givenBy g e id keep bytes, ?_, .of_eq ?_⟩
  · refine Account.Takes.pays (c := givenBy g e id keep bytes) (n := 0) (R := fun _ => True)
      (.await fun T _ _ _ => ⟨trivial, .of_eq ?_⟩) fun _ _ => ⟨trivial, .refl 0⟩
    simp only [account, List.map_append, List.sum_append, List.map_singleton, List.sum_singleton,
      inBuf_listenBuf]
    omega
  · obtain ⟨socket, hsocket⟩ := List.head?_eq_some_iff.mp hhead
    simp only [account, hsocket, List.tail_cons, List.map_cons, List.sum_cons]
    omega

theorem consumer_pays {Q : Unit → ℕ → Prop} :
    (account g e id keep initial shape strict).Pays (consumer g e) 0 Q := by
  refine .await_bind fun S buf hok hhead => ⟨inBuf g e id keep buf, ?_, .of_eq ?_⟩
  · unfold inBuf
    cases hpkt : fromServiceBuf? buf with
    | none => trivial
    | some pkt =>
      refine Account.Takes.pays (n := 0) (handlePkt_takes fun hs => ?_) fun _ _ => ⟨trivial, .refl 0⟩
      obtain ⟨bytes, rfl⟩ := (hok hs).buffer buf (List.mem_of_mem_head? hhead)
      obtain ⟨hfull, hmod⟩ := payload_of_listenBuf hpkt
      exact payloadBuf2Float?_of_lt g pkt.payload (by omega)
  · obtain ⟨buffer, hbuffer⟩ := List.head?_eq_some_iff.mp hhead
    simp only [account, hbuffer, List.tail_cons, List.map_cons, List.sum_cons]
    omega

/-- A command whose packet is not sent stores nothing. -/
theorem commandProcess_takes {param : String} {body : Body}
    (hpre : (account g e id keep initial shape strict).Pre (.command param body)) :
    (account g e id keep initial shape strict).Takes (commandProcess e param body)
      (postedBy e id keep param body) fun _ => True := by
  have hposted : strict → postedBy e id keep param body = 0 := fun hs => postedBy_of_not (hpre hs)
  unfold commandProcess
  cases hcommand : command? param body with
  | error err => exact .done trivial hposted
  | ok command =>
    obtain ⟨n, dst, values⟩ := command
    refine .free (sendPkt_takes _ _ _ _ _ _) fun err _ => ?_
    cases err with
    | some err => exact .done trivial hposted
    | none =>
      refine .free (onServer_takes (R := fun _ => True) (fun _ => ⟨rfl, rfl⟩) fun _ _ => trivial)
        fun physicalTime _ => ?_
      refine (writeToBuffer_takes (.ofInt n) ⟨0, physicalTime, values⟩).of_leaves ⟨?_, fun hs => ?_⟩
      · unfold among postedBy
        rw [hcommand]
        dsimp only
        split_ifs with hid hsome hsome
        · exact List.countP_le_length
        · refine Nat.le_of_eq (List.countP_eq_zero.mpr fun data hdata hkeep =>
            hsome ⟨hid, physicalTime, ?_⟩)
          rwa [List.mem_singleton.mp hdata] at hkeep
        · exact Nat.zero_le 1
        · exact Nat.le_refl 0
      · rw [hposted hs, among_of_ne fun hid => hpre hs ⟨n, dst, values, hcommand, hid⟩]

theorem call_takes {r : Routine} (hpre : (account g e id keep initial shape strict).Pre (.call r)) :
    (account g e id keep initial shape strict).Takes (call e r)
      ((account g e id keep initial shape strict).credit (.call r)) fun _ => True := by
  cases r with
  | send id' time physicalTime rawData => exact writeToBuffer_takes id' _
  | sendPkt dst priority synt flag dataID dataMap => exact sendPkt_takes _ _ _ _ _ _
  | publish id' dst rows cols synt physicalTime rawData => exact publish_takes hpre _ _ _ _ _ _ _

/-- All goroutines pay for what they store with what they were started for. -/
theorem setting_pays (g : Slice.Growth) (e : Env) (id : UInt16) (keep : Data → Bool) (initial : ℕ)
    (shape : UInt8) (strict : Prop) :
    (account g e id keep initial shape strict).Keeps (setting g e) where
  body r hpre := by
    have hend : ∀ (p : Code (Option String)) (c : ℕ),
        (account g e id keep initial shape strict).Takes p c (fun _ => True) →
        (account g e id keep initial shape strict).Pays (Program.bind p fun _ => .done ()) c
          fun _ l => (account g e id keep initial shape strict).Leaves l 0 :=
      fun p c hp => Account.Takes.pays (n := 0) hp fun _ _ => ⟨0, .refl 0, .refl 0⟩
    cases r with
    | main subscriptions => exact (main_takes subscriptions 0).mono fun _ _ h => .of_eq h.1
    | producer => exact producer_pays
    | consumer => exact consumer_pays
    | handleData id' p => exact handleData_pays hpre
    | call r => exact hend _ _ (call_takes hpre)
    | command param body => exact hend _ _ (commandProcess_takes hpre)
  outside x S hok hok' := by
    cases x with
    | datagram bytes =>
      refine ⟨fun r hr => (List.not_mem_nil hr).elim, .of_eq ?_⟩
      simp [setting, input, account]
      omega
    | command param body =>
      refine ⟨fun r hr => ?_, .of_eq ?_⟩
      · rw [List.mem_singleton.mp hr]
        exact fun hs => (hok' hs).commands (param, body) (List.mem_append_right _ List.mem_cons_self)
      · simp [setting, input, account]
        omega

end Takes

/-! ### Runs -/

section Runs
variable {g : Slice.Growth} {e : Env} {server : Server} {subs : List (UInt16 × UInt8)}
  {consumers producers : ℕ} {now : UInt16 → ℤ} {ms : List (Move Input)} {P : Pool Service Goroutine}

theorem launch_balanced (g : Slice.Growth) (e : Env) (hfresh : server.Fresh) (subs : List (UInt16 × UInt8))
    (consumers producers : ℕ) (now : UInt16 → ℤ) (id : UInt16) (keep : Data → Bool) (shape : UInt8)
    (strict : Prop) :
    (account g e id keep ((server.world.rows id).countP fun r => keep r.data) shape strict).Balanced
      (launch g e server subs consumers producers now) := by
  -- no goroutine starts with a record
  have hstart : ∀ r ∈ server.handler.recordTables.map (fun id => Goroutine.handleData id ⟨[], now id⟩) ++
      List.replicate consumers Goroutine.consumer ++ List.replicate producers Goroutine.producer ++
      [Goroutine.main subs],
      (account g e id keep ((server.world.rows id).countP fun r => keep r.data) shape strict).Pre r ∧
        (account g e id keep ((server.world.rows id).countP fun r => keep r.data) shape strict).credit r =
          0 := by
    intro r hr
    simp only [List.mem_append, List.mem_map, List.mem_replicate, List.mem_singleton] at hr
    rcases hr with ((⟨id', _, rfl⟩ | ⟨_, rfl⟩) | ⟨_, rfl⟩) | rfl
    · exact ⟨fun _ _ _ hdata => (List.not_mem_nil hdata).elim, among_nil id'⟩
    · exact ⟨trivial, rfl⟩
    · exact ⟨trivial, rfl⟩
    · exact ⟨trivial, rfl⟩
  refine ⟨_, (setting_pays g e id keep _ shape strict).covers fun r hr => (hstart r hr).1, .of_eq ?_⟩
  have hqueue : (server.handler.dataBuffer id).getD [] = [] := by
    cases hbuffer : server.handler.dataBuffer id with
    | none => rfl
    | some queue => rw [Option.getD_some, hfresh.queues id queue hbuffer]
  rw [List.sum_eq_zero]
  · simp [account, launch, inServer, hqueue]
  · intro n hn
    obtain ⟨r, hr, rfl⟩ := List.mem_map.mp hn
    exact (hstart r hr).2

/-- No record is stored twice, whatever the schedule: for any property a table has no more records with it
than it had at the start and were given for its id since, in datagrams and commands. -/
theorem records_counted (hfresh : server.Fresh)
    (hrun : (launch g e server subs consumers producers now).run? (setting g e) ms = some P)
    (id : UInt16) (keep : Data → Bool) :
    (P.shared.server.world.rows id).countP (fun r => keep r.data) ≤
      (server.world.rows id).countP (fun r => keep r.data) +
        (P.shared.arrived.map (givenBy g e id keep)).sum +
        (P.shared.commands.map fun command => postedBy e id keep command.1 command.2).sum := by
  obtain ⟨n, _, hle, _⟩ := (setting_pays g e id keep _ 0 False).run?
    (launch_balanced g e hfresh subs consumers producers now id keep 0 False)
    (Pool.always_of_forall (fun _ h => h.elim) ms _) hrun
  simp only [account, inServer] at hle
  omega

theorem records_counted_recordRun : ∃ P,
    (launch .tight .reliable afterInit [(3, 2)] 1 1 fun _ => 0).run? (setting .tight .reliable) recordRun =
      some P ∧ (P.shared.server.world.rows 3).length = 1 ∧
      (P.shared.arrived.map (givenBy .tight .reliable 3 fun data => data.iter = 500)).sum = 1 ∧
      (P.shared.server.world.rows 3).countP (fun r => r.data.iter = 500) ≤
        (afterInit.world.rows 3).countP (fun r => r.data.iter = 500) +
          (P.shared.arrived.map (givenBy .tight .reliable 3 fun data => data.iter = 500)).sum +
          (P.shared.commands.map fun command =>
            postedBy .reliable 3 (fun data => data.iter = 500) command.1 command.2).sum := by
  have hrun : ((launch .tight .reliable afterInit [(3, 2)] 1 1 fun _ => 0).run? (setting .tight .reliable)
      recordRun).any (fun P => (P.shared.server.world.rows 3).length = 1 ∧
        (P.shared.arrived.map (givenBy .tight .reliable 3 fun data => data.iter = 500)).sum = 1) := by
    decide +kernel
  obtain ⟨P, hP, hends⟩ := (Option.any_eq_true _ _).mp hrun
  obtain ⟨hrows, harrived⟩ := of_decide_eq_true hends
  exact ⟨P, hP, hrows, harrived, records_counted afterInit_fresh hP 3 fun data => data.iter = 500⟩

end Runs
end DRDS.Service
