import DRDS.Server.Completeness
import DRDS.Service.Contract

/-! Nothing is stored or sent that was not given, and nothing is sent to a client that has not asked,
whatever the order in which the goroutines of a data service run. -/
namespace DRDS.Service
open Go Concurrency Server

section Steps
variable {g : Slice.Growth} {e : Env} {init : Start} {admits : Input → Prop} {S T : Service} {α : Type}

/-- A later server keeps the invariant if all it holds was given before. -/
theorem Inv.grow {t : Server} (hS : Inv g e init admits S) (hlater : Later S { S with server := t })
    (hqueues : ∀ id queue, t.handler.dataBuffer id = some queue → ∀ data ∈ queue, Offered g S id data)
    (hroom : ∀ id queue, t.handler.dataBuffer id = some queue → queue.length ≤ Utils.buffLen)
    (hrows : ∀ id, ∀ r ∈ t.world.rows id, Recorded g e init S id r)
    (hsubscribers : ∀ id, ∀ dst ∈ t.subscriberRegister id, Asked init S id dst)
    (hsent : ∀ x ∈ t.world.sent, Justified g e init S x) : Inv g e init admits { S with server := t } where
  arrived := hS.arrived
  commands := hS.commands
  socket := hS.socket
  buffer := hS.buffer
  bufferRoom := hS.bufferRoom
  queues id queue hqueue data hdata := (hqueues id queue hqueue data hdata).later hlater
  queueRoom := hroom
  rows id r hr := (hrows id r hr).later hlater
  subscribers id dst hdst := (hsubscribers id dst hdst).later hlater
  sent x hx := (hsent x hx).later hlater

/-- A change of no more than the clock, the sequence number and the publishers. -/
structure Silent (s t : Server) : Prop where
  handler : t.handler = s.handler
  addrs : t.allClientAddr = s.allClientAddr
  tables : t.world.tables = s.world.tables
  subscribers : t.subscriberRegister = s.subscriberRegister
  sent : t.world.sent = s.world.sent

theorem Silent.rows {s t : Server} (h : Silent s t) (id : UInt16) : t.world.rows id = s.world.rows id := by
  rw [World.rows, h.tables, World.rows]

theorem Silent.of_tick {s t : Server} (h : t = { s with world := s.world.tick }) : Silent s t :=
  h ▸ ⟨rfl, rfl, rfl, rfl, rfl⟩

theorem Silent.later {t : Server} (h : Silent S.server t) : Later S { S with server := t } where
  arrived := List.prefix_rfl
  commands := List.prefix_rfl
  addrs := h.addrs
  recordTables := congrArg Handler.recordTables h.handler
  dataShapes := congrArg Handler.dataShapes h.handler
  columns id := congrArg (fun tables => (tables id).map Table.columns) h.tables
  rows id := (h.rows id).symm ▸ List.prefix_rfl
  subscribers id := (congrFun h.subscribers id).symm ▸ List.prefix_rfl
  sent := h.sent.symm ▸ List.prefix_rfl

theorem Silent.inv {t : Server} (h : Silent S.server t) (hS : Inv g e init admits S) :
    Inv g e init admits { S with server := t } := by
  refine hS.grow h.later ?_ ?_ (fun id => ?_) ?_ ?_
  · rw [h.handler]
    exact hS.queues
  · rw [h.handler]
    exact hS.queueRoom
  · rw [h.rows]
    exact hS.rows id
  · rw [h.subscribers]
    exact hS.subscribers
  · rw [h.sent]
    exact hS.sent

theorem safe_silent {f : Server → α × Server} {Q : α → Service → Prop} (hf : ∀ s, Silent s (f s).2)
    (hQ : ∀ T U, Later S T → Inv g e init admits T → Later T U → Inv g e init admits U → Q (f T.server).1 U) :
    (contract g e init admits).Safe (onServer f) Q S :=
  .atomic fun T hST hT => ⟨(hf _).inv hT, (hf _).later,
    fun U hU hInv => hQ T U hST hT ((hf _).later.trans hU) hInv⟩

/-! ### Datagrams -/

theorem dialUDP_ok {k : ℕ} {x : Option Addr} {addr : Addr} (h : e.dialUDP k x = .ok addr) :
    x = some addr := by
  cases x with
  | none => cases h
  | some a =>
    simp only [Env.dialUDP] at h
    cases hdial : e.dial k a with
    | some err =>
      rw [hdial] at h
      cases h
    | none =>
      rw [hdial] at h
      cases h
      rfl

theorem write_safe {addr : Addr} {buf : List UInt8} (h : Justified g e init S (addr, buf)) :
    (contract g e init admits).Safe (write e addr buf) (fun _ _ => True) S := by
  refine .atomic fun T hST hT => ?_
  dsimp only
  cases hwrite : e.write T.server.world.calls addr buf with
  | some err =>
    have hsilent : Silent T.server { T.server with world := T.server.world.tick } :=
      ⟨rfl, rfl, rfl, rfl, rfl⟩
    exact ⟨hsilent.inv hT, hsilent.later, fun _ _ _ => trivial⟩
  | none =>
    have hlater : Later T { T with server := { T.server with world := { T.server.world.tick with
        sent := T.server.world.sent ++ [(addr, buf)] } } } :=
      ⟨List.prefix_rfl, List.prefix_rfl, rfl, rfl, rfl, fun _ => rfl, fun _ => List.prefix_rfl,
        fun _ => List.prefix_rfl, List.prefix_append ..⟩
    refine ⟨hT.grow hlater hT.queues hT.queueRoom hT.rows hT.subscribers fun x hx => ?_, hlater,
      fun _ _ _ => trivial⟩
    rcases List.mem_append.mp hx with hx | hx
    · exact hT.sent x hx
    · rw [List.mem_singleton.mp hx]
      exact h.later hST

theorem transmit_safe {dst : UInt8} {buf : List UInt8} (hS : Inv g e init admits S)
    (h : ∀ addr, S.server.allClientAddr dst = some addr → Justified g e init S (addr, buf)) :
    (contract g e init admits).Safe (transmit e dst buf) (fun _ _ => True) S := by
  refine Contract.Safe.bind hS
    (safe_silent (fun s => ⟨rfl, rfl, rfl, rfl, rfl⟩) fun T U hST hT hTU hU => ?_)
  dsimp only
  cases hdial : e.dialUDP T.server.world.calls (T.server.allClientAddr dst) with
  | error err => exact fun _ _ _ => trivial
  | ok addr =>
    have haddr : S.server.allClientAddr dst = some addr := hST.addrs ▸ dialUDP_ok hdial
    exact write_safe ((h addr haddr).later (hST.trans hTU))

theorem isDataWith_dataPkt (s : Server) (dst priority : UInt8) (synt : UInt32) (flag : UInt8)
    (id : UInt16) (mat : List (List Float64)) :
    IsDataWith dst id (matRow mat) (matCol mat) mat.flatten
      (toServiceBuf (dataPkt e s dst priority synt flag id mat)) :=
  ⟨dataWire e s dst priority synt flag id mat, dataFrame id mat, toServiceBuf_dataPkt .., rfl, rfl, rfl,
    subpackets_dataWire .., rfl, rfl, rfl, rfl, rfl⟩

theorem sendPkt_safe {dst : UInt8} {id : UInt16} {mat : List (List Float64)} (priority : UInt8)
    (synt : UInt32) (flag : UInt8) (hS : Inv g e init admits S) (hasked : Asked init S id dst)
    (hknown : ∀ row ∈ mat, ∀ v ∈ row, Known g e init S id v) :
    (contract g e init admits).Safe (sendPkt e dst priority synt flag id mat) (fun _ _ => True) S := by
  refine Contract.Safe.bind hS
    (safe_silent (fun s => ⟨rfl, rfl, rfl, rfl, rfl⟩) fun T U hST hT hTU hU => ?_)
  have hSU := hST.trans hTU
  refine transmit_safe hU fun addr haddr => ⟨dst, haddr, .inr ⟨id, matRow mat, matCol mat,
    mat.flatten, isDataWith_dataPkt .., hasked.later hSU, fun v hv => ?_⟩⟩
  obtain ⟨row, hrow, hv⟩ := List.mem_flatten.mp hv
  exact (hknown row hrow v hv).later hSU

theorem sendOpt_safe {dst : UInt8} (priority : UInt8) (synt : UInt32) (flag opt1 opt2 : UInt8)
    (hS : Inv g e init admits S) (hreg : Registering init S dst) :
    (contract g e init admits).Safe (sendOpt e dst priority synt Utils.serResponse flag opt1 opt2)
      (fun _ _ => True) S := by
  refine Contract.Safe.bind hS
    (safe_silent (fun s => ⟨rfl, rfl, rfl, rfl, rfl⟩) fun T U hST hT hTU hU => ?_)
  refine Contract.Safe.bind hU ((transmit_safe hU fun addr haddr => ⟨dst, haddr, .inl
    ⟨⟨_, toServiceBuf_eq_wire _, rfl, rfl, rfl, rfl⟩, hreg.later (hST.trans hTU)⟩⟩).mono fun err V _ _ _ => ?_)
  cases err with
  | some err => exact fun _ _ _ => trivial
  | none => exact safe_silent (fun s => ⟨rfl, rfl, rfl, rfl, rfl⟩) fun _ _ _ _ _ _ => trivial

/-! ### Records -/

theorem room_of_push {o : Option (List Data)} {u : Unit}
    (h : (o.bind fun queue => if queue.length < Utils.buffLen then some () else none) = some u) :
    ∃ queue, o = some queue ∧ queue.length < Utils.buffLen := by
  obtain ⟨queue, hqueue, hroom⟩ := Option.bind_eq_some_iff.mp h
  refine ⟨queue, hqueue, ?_⟩
  by_contra hfull
  rw [if_neg hfull] at hroom
  cases hroom

theorem writeToBuffer_of_room {id : UInt16} {data : Data} {s : Server} {queue : List Data}
    (hqueue : s.handler.dataBuffer id = some queue) (hroom : queue.length < Utils.buffLen) :
    (s.writeToBuffer id data).2 = { s with handler := { s.handler with
      dataBuffer := Function.update s.handler.dataBuffer id (some (queue ++ [data])) } } := by
  simp [Server.writeToBuffer, Handler.writeToBuffer, hqueue, Nat.not_le.mpr hroom]

theorem push_safe {id : UInt16} {data : Data} {Q : Unit → Service → Prop} (h : Offered g S id data)
    (hQ : ∀ T, Q () T) : (contract g e init admits).Safe (push id data) Q S := by
  refine .await fun T _ hST hT hlook => ?_
  obtain ⟨queue, hqueue, hroom⟩ := room_of_push hlook
  rw [writeToBuffer_of_room hqueue hroom]
  have hlater : Later T { T with server := { T.server with handler := { T.server.handler with
      dataBuffer := Function.update T.server.handler.dataBuffer id (some (queue ++ [data])) } } } :=
    ⟨List.prefix_rfl, List.prefix_rfl, rfl, rfl, rfl, fun _ => rfl, fun _ => List.prefix_rfl,
      fun _ => List.prefix_rfl, List.prefix_rfl⟩
  refine ⟨hT.grow hlater ?_ ?_ hT.rows hT.subscribers hT.sent, hlater, fun U _ _ => hQ U⟩
  · intro id' queue' hqueue' d hd
    by_cases hid : id' = id
    · subst hid
      obtain rfl : queue ++ [data] = queue' := by simpa using hqueue'
      rcases List.mem_append.mp hd with hd | hd
      · exact hT.queues id' queue hqueue d hd
      · rw [List.mem_singleton.mp hd]
        exact h.later hST
    · exact hT.queues id' queue' (by simpa [hid] using hqueue') d hd
  · intro id' queue' hqueue'
    by_cases hid : id' = id
    · subst hid
      obtain rfl : queue ++ [data] = queue' := by simpa using hqueue'
      rw [List.length_append, List.length_singleton]
      exact hroom
    · exact hT.queueRoom id' queue' (by simpa [hid] using hqueue')

theorem writeToBuffer_safe {id : UInt16} {data : Data} (hS : Inv g e init admits S)
    (h : Offered g S id data) :
    (contract g e init admits).Safe (writeToBuffer id data) (fun _ _ => True) S := by
  refine Contract.Safe.bind hS
    (safe_silent (fun s => ⟨rfl, rfl, rfl, rfl, rfl⟩) fun T U hST hT hTU hU => ?_)
  dsimp only
  cases T.server.handler.dataBuffer id with
  | none => exact fun _ _ _ => trivial
  | some queue =>
    dsimp only
    split_ifs
    · exact fun _ _ _ => trivial
    · exact Contract.Safe.bind hU
        (push_safe (h.later (hST.trans hTU)) fun V _ _ _ => trivial)

theorem map_data_fillin {h : Handler} {id : UInt16} {recvT : UInt64} {batch : List Data} {rows : List Row}
    (hrows : batch.mapM (h.fillin id recvT) = .ok rows) : rows.map Row.data = batch := by
  by_cases hb : ∀ d ∈ batch, h.Shaped id d
  · rw [h.mapM_fillin id recvT hb] at hrows
    cases hrows
    simp [Row.data, Function.comp_def]
  · obtain ⟨err, herr⟩ := h.mapM_fillin_error id recvT hb
    cases herr.symm.trans hrows

theorem insert_safe {id : UInt16} {columns : ℕ} {rows : List Row}
    (h : ∀ r ∈ rows, Offered g S id r.data) :
    (contract g e init admits).Safe (onServer fun s =>
      let (err, world) := s.world.insert e id columns rows
      (err, { s with world })) (fun _ _ => True) S := by
  refine .atomic fun T hST hT => ?_
  have hrows := World.insert_rows e id columns rows T.server.world
  have hsent := sent_insert (e := e) id columns rows T.server.world
  have hlater : Later T { T with server := { T.server with
      world := (T.server.world.insert e id columns rows).2 } } := by
    refine ⟨List.prefix_rfl, List.prefix_rfl, rfl, rfl, rfl, World.insert_columns e id columns rows _,
      fun id' => ?_, fun _ => List.prefix_rfl, hsent.symm ▸ List.prefix_rfl⟩
    rcases hrows id' with hsame | ⟨_, _, happend⟩
    · exact hsame.symm ▸ List.prefix_rfl
    · exact happend.symm ▸ List.prefix_append ..
  refine ⟨hT.grow hlater hT.queues hT.queueRoom (fun id' r hr => ?_) hT.subscribers
    fun x hx => hT.sent x (hsent ▸ hx), hlater, fun _ _ _ => trivial⟩
  rcases hrows id' with hsame | ⟨rfl, _, happend⟩
  · exact hT.rows id' r (hsame ▸ hr)
  · rw [happend] at hr
    rcases List.mem_append.mp hr with hr | hr
    · exact hT.rows id' r hr
    · obtain ⟨r', hr', rfl⟩ := List.mem_map.mp hr
      exact .inr ⟨r'.data, (h r' hr').later hST, rfl⟩

theorem writeRange_safe {id : UInt16} {batch : List Data} (hS : Inv g e init admits S)
    (h : ∀ data ∈ batch, Offered g S id data) :
    (contract g e init admits).Safe (writeRange e id batch) (fun _ _ => True) S := by
  refine Contract.Safe.bind hS
    (safe_silent (fun s => ⟨rfl, rfl, rfl, rfl, rfl⟩) fun T U hST hT hTU hU => ?_)
  dsimp only
  split_ifs
  · refine Contract.Safe.bind hU
      (safe_silent (fun s => ⟨rfl, rfl, rfl, rfl, rfl⟩) fun V W hUV hV hVW hW => ?_)
    dsimp only
    cases hrows : batch.mapM (T.server.handler.fillin id (e.unixMilli V.server.world.calls)) with
    | error err => exact fun _ _ _ => trivial
    | ok rows =>
      refine insert_safe fun r hr => ?_
      have hmem : r.data ∈ batch := map_data_fillin hrows ▸ List.mem_map_of_mem hr
      exact (h r.data hmem).later (hST.trans (hTU.trans (hUV.trans hVW)))
  · exact fun _ _ _ => trivial

theorem receive_safe {id : UInt16} {Q : Data → Service → Prop}
    (hQ : ∀ data T, Later S T → Inv g e init admits T → Offered g T id data → Q data T) :
    (contract g e init admits).Safe (receive id) Q S := by
  refine .await fun T data hST hT hhead => ?_
  have hlater : Later T { T with server := { T.server with handler := { T.server.handler with
      dataBuffer := Function.update T.server.handler.dataBuffer id
        ((T.server.handler.dataBuffer id).map List.tail) } } } :=
    ⟨List.prefix_rfl, List.prefix_rfl, rfl, rfl, rfl, fun _ => rfl, fun _ => List.prefix_rfl,
      fun _ => List.prefix_rfl, List.prefix_rfl⟩
  have hoffered : Offered g T id data := by
    cases hqueue : T.server.handler.dataBuffer id with
    | none => simp [hqueue] at hhead
    | some queue =>
      rw [hqueue] at hhead
      exact hT.queues id queue hqueue data (List.mem_of_mem_head? hhead)
  -- the queues after it are ends of those before
  have hends : ∀ id' queue', Function.update T.server.handler.dataBuffer id
      ((T.server.handler.dataBuffer id).map List.tail) id' = some queue' →
      ∃ queue, T.server.handler.dataBuffer id' = some queue ∧ queue' <:+ queue := by
    intro id' queue' hqueue'
    by_cases hid : id' = id
    · subst hid
      rw [Function.update_self] at hqueue'
      obtain ⟨queue, hqueue, rfl⟩ := Option.map_eq_some_iff.mp hqueue'
      exact ⟨queue, hqueue, List.tail_suffix queue⟩
    · rw [Function.update_of_ne hid] at hqueue'
      exact ⟨queue', hqueue', List.suffix_rfl⟩
  refine ⟨hT.grow hlater ?_ ?_ hT.rows hT.subscribers hT.sent, hlater, ?_⟩
  · intro id' queue' hqueue' d hd
    obtain ⟨queue, hqueue, hend⟩ := hends id' queue' hqueue'
    exact hT.queues id' queue hqueue d (hend.subset hd)
  · intro id' queue' hqueue'
    obtain ⟨queue, hqueue, hend⟩ := hends id' queue' hqueue'
    exact hend.length_le.trans (hT.queueRoom id' queue hqueue)
  · exact fun U hU hInv => hQ data U (hST.trans (hlater.trans hU)) hInv
      (hoffered.later (hlater.trans hU))

/-- What a round leaves in the buffer and what it hands over was there or was received. -/
theorem handOver_safe {id : UInt16} {p : Pending} (ev : Select) (hS : Inv g e init admits S)
    (h : ∀ data ∈ p.buffer ++ ev.received, Offered g S id data) :
    (contract g e init admits).Safe (handOver e id (p.handleData ev)) (fun _ _ => True) S := by
  have hparts := p.handleData_received ev
  rcases hround : p.handleData ev with ⟨q, _ | batch⟩
  all_goals rw [hround] at hparts
  · exact fun d hd => h d (hparts ▸ List.mem_append_right _ hd)
  · have hbatch : ∀ d ∈ batch, Offered g S id d := fun d hd => h d (hparts ▸ List.mem_append_left _ hd)
    refine Contract.Safe.bind hS ((writeRange_safe hS hbatch).mono fun _ T hST _ _ d hd => ?_)
    exact (h d (hparts ▸ List.mem_append_right _ hd)).later hST

theorem handleData_safe {id : UInt16} {p : Pending} (hS : Inv g e init admits S)
    (h : ∀ data ∈ p.buffer, Offered g S id data) :
    (contract g e init admits).Safe (handleData e id p) (fun _ _ => True) S := by
  intro n
  dsimp only
  split_ifs
  · refine Contract.Safe.bind hS (receive_safe fun data T hST hT hdata now => ?_)
    refine handOver_safe (.data data now) hT fun d hd => ?_
    rcases List.mem_append.mp hd with hd | hd
    · exact (h d hd).later hST
    · rw [List.mem_singleton.mp hd]
      exact hdata
  · intro now
    refine handOver_safe (.timeout now) hS fun d hd => ?_
    rw [Select.received, List.append_nil] at hd
    exact h d hd

/-! ### Reads -/

theorem select_known {id : UInt16} {wellFormed : Bool} {columns : ℕ} {keep : Row → Bool}
    {rows : List Row} {w : World} (hS : Inv g e init admits S)
    (hsel : S.server.world.select e id wellFormed columns keep = (.ok rows, w)) :
    ∀ r ∈ rows, ∀ v ∈ r.values, Known g e init S id v := by
  unfold World.select at hsel
  cases hanswer : e.statement S.server.world.calls with
  | some err => simp [hanswer] at hsel
  | none =>
    cases ht : S.server.world.tables id with
    | none => simp [hanswer, ht] at hsel
    | some t =>
      simp only [hanswer, ht] at hsel
      split_ifs at hsel
      · cases hsel
        intro r hr v hv
        obtain ⟨r₀, hr₀, rfl⟩ := List.mem_map.mp hr
        have hmem : r₀ ∈ S.server.world.rows id := by
          rw [World.rows_of_table ht]
          exact List.mem_of_mem_filter hr₀
        rw [List.rightpad, List.mem_append] at hv
        rcases hv with hv | hv
        · rcases hS.rows id r₀ hmem with hold | ⟨data, hdata, hstored⟩
          · exact .inr (.inl ⟨r₀, hold, List.mem_of_mem_take hv⟩)
          · have hvalues : r₀.values = data.value.map e.column := congrArg Data.value hstored
            obtain ⟨w, hw, rfl⟩ := List.mem_map.mp (hvalues ▸ List.mem_of_mem_take hv)
            exact .inr (.inr ⟨data, hdata, .inr ⟨w, hw, rfl⟩⟩)
        · exact .inl (List.eq_of_mem_replicate hv)
      · cases hsel

theorem queryLastSynt_silent (id : UInt16) (s : Server) : Silent s (s.queryLastSynt e id).2 :=
  .of_tick (congrArg (fun world => { s with world }) (queryLastSynt_world e id s.world))

/-- The values of a record read are known; there are none when there is no record. -/
theorem readSynt_safe {id : UInt16} {synt : UInt32} :
    (contract g e init admits).Safe (readSynt e id synt)
      (fun answer T => ∀ v ∈ answer.2.1, Known g e init T id v) S := by
  refine safe_silent (fun s => .of_tick (congrArg (fun world => { s with world })
    (Handler.readSynt_world e s.handler id synt s.world))) fun T U _ hT hTU _ v hv => ?_
  refine Known.later ?_ hTU
  simp only [Handler.readSynt] at hv
  split at hv
  · rename_i r rows w hsel
    split_ifs at hv
    · exact select_known hT hsel r List.mem_cons_self v hv
    · cases hv
  · cases hv

theorem readRange_safe {id : UInt16} {start stop : UInt32} :
    (contract g e init admits).Safe (readRange e id start stop)
      (fun answer T => ∀ simuVec phyVec dataMat, answer = .ok (simuVec, phyVec, dataMat) →
        ∀ row ∈ dataMat, ∀ v ∈ row, Known g e init T id v) S := by
  refine safe_silent (fun s => .of_tick (congrArg (fun world => { s with world })
    (Handler.readRange_world e s.handler id start stop s.world)))
    fun T U _ hT hTU _ simuVec phyVec dataMat hanswer row hrow v hv => ?_
  refine Known.later ?_ hTU
  simp only [Handler.readRange] at hanswer
  split at hanswer
  · cases hanswer
  · rename_i rows w hsel
    cases hanswer
    obtain ⟨scan, hscan, rfl⟩ := List.mem_map.mp hrow
    obtain ⟨r, hr, rfl⟩ := List.mem_map.mp hscan
    unfold scanRow at hv
    dsimp only at hv
    split_ifs at hv
    · exact select_known hT hsel r hr v hv
    · exact .inl (List.eq_of_mem_replicate hv)

/-! ### Services -/

theorem requestAt_safe {id : UInt16} {dst : UInt8} (synt : UInt32) (priority : UInt8)
    (hS : Inv g e init admits S) (hasked : Asked init S id dst) :
    (contract g e init admits).Safe (requestAt e id synt dst priority) (fun _ _ => True) S := by
  refine Contract.Safe.bind hS (readSynt_safe.mono fun answer T hST hT hknown => ?_)
  obtain ⟨_, data, _ | err⟩ := answer
  · refine sendPkt_safe priority synt Utils.flagSingle hT (hasked.later hST) fun row hrow v hv => ?_
    rw [List.mem_singleton.mp hrow] at hv
    exact hknown v hv
  · exact fun _ _ _ => trivial

theorem requestUpTo_safe {id : UInt16} {dst : UInt8} (timeStart timeEnd : UInt32)
    (hS : Inv g e init admits S) (hasked : Asked init S id dst) :
    (contract g e init admits).Safe (requestUpTo e id timeStart timeEnd dst) (fun _ _ => True) S := by
  refine Contract.Safe.bind hS (readRange_safe.mono fun answer T hST hT hknown => ?_)
  obtain err | ⟨simuVec, phyVec, dataMat⟩ := answer
  · exact fun _ _ _ => trivial
  · exact sendPkt_safe Utils.priorityHight timeStart Utils.flagSingle hT (hasked.later hST)
      (hknown simuVec phyVec dataMat rfl)

theorem requestCall_safe {pkt : ServicePacket (Slice UInt8)} {f : SubPacket (Slice UInt8)}
    (hS : Inv g e init admits S) (hasked : Asked init S f.dataID pkt.src) :
    (contract g e init admits).Safe (requestCall e pkt f) (fun _ _ => True) S := by
  unfold requestCall request requestRange
  split_ifs
  · exact Contract.Safe.bind hS (safe_silent (queryLastSynt_silent _) fun T U hST hT hTU hU =>
      requestAt_safe _ _ hU (hasked.later (hST.trans hTU)))
  · exact requestAt_safe _ _ hS hasked
  · exact Contract.Safe.bind hS (safe_silent (queryLastSynt_silent _) fun T U hST hT hTU hU =>
      requestUpTo_safe _ _ hU (hasked.later (hST.trans hTU)))
  · exact requestUpTo_safe _ _ hS hasked

theorem history_safe {id : UInt16} {lastSynt : UInt32} {n : ℕ} {i : UInt32} (hS : Inv g e init admits S) :
    (contract g e init admits).Safe (history e id lastSynt n i)
      (fun rows T => ∀ row ∈ rows, ∀ v ∈ row, Known g e init T id v) S := by
  induction n generalizing i S with
  | zero =>
    refine .await fun _ _ _ _ hready => ?_
    cases hready
  | succ n ih =>
    unfold history
    split_ifs
    · refine Contract.Safe.bind hS (readSynt_safe.mono fun answer T hST hT hknown => ?_)
      refine Contract.Safe.bind hT ((ih hT).mono fun rows U hTU _ hrows V hUV _ row hrow v hv => ?_)
      rcases List.mem_cons.mp hrow with rfl | hrow
      · exact (hknown v hv).later (hTU.trans hUV)
      · exact (hrows row hrow v hv).later hUV
    · exact fun _ _ _ _ hrow => absurd hrow List.not_mem_nil

theorem addClient_safe {id : UInt16} {dst : UInt8} {Q : Unit → Service → Prop}
    (hasked : Asked init S id dst) (hQ : ∀ T, Later S T → Inv g e init admits T → Q () T) :
    (contract g e init admits).Safe (onServer fun s =>
      ((), { s with subscriberRegister := addClient s.subscriberRegister id dst })) Q S := by
  refine .atomic fun T hST hT => ?_
  have hlater : Later T { T with server := { T.server with
      subscriberRegister := addClient T.server.subscriberRegister id dst } } := by
    refine ⟨List.prefix_rfl, List.prefix_rfl, rfl, rfl, rfl, fun _ => rfl, fun _ => List.prefix_rfl,
      fun id' => ?_, List.prefix_rfl⟩
    change _ <+: addClient T.server.subscriberRegister id dst id'
    rw [addClient_apply]
    split_ifs with hid
    · exact hid ▸ List.prefix_append ..
    · exact List.prefix_rfl
  refine ⟨hT.grow hlater hT.queues hT.queueRoom hT.rows (fun id' dst' hdst' => ?_) hT.sent, hlater,
    fun U hU hInv => hQ U (hST.trans (hlater.trans hU)) hInv⟩
  change dst' ∈ addClient T.server.subscriberRegister id dst id' at hdst'
  rw [addClient_apply] at hdst'
  split_ifs at hdst' with hid
  · subst hid
    rcases List.mem_append.mp hdst' with hdst' | hdst'
    · exact hT.subscribers _ dst' hdst'
    · rw [List.mem_singleton.mp hdst']
      exact hasked.later hST
  · exact hT.subscribers id' dst' hdst'

theorem subscribe_safe {id : UInt16} {dst : UInt8} (synt : UInt32) (rate : UInt16)
    (hS : Inv g e init admits S) (hasked : Asked init S id dst) (hreg : Registering init S dst) :
    (contract g e init admits).Safe (subscribe e id dst synt rate) (fun _ _ => True) S := by
  have hack : ∀ {T}, Later S T → Inv g e init admits T →
      (contract g e init admits).Safe (subscribeAck e dst synt) (fun _ _ => True) T :=
    fun hST hT => sendOpt_safe _ _ _ _ _ hT (hreg.later hST)
  refine Contract.Safe.bind hS
    (safe_silent (fun s => ⟨rfl, rfl, rfl, rfl, rfl⟩) fun T U hST _ hTU hU => ?_)
  have hSU := hST.trans hTU
  dsimp only
  split_ifs
  · refine Contract.Safe.bind hU (safe_silent (queryLastSynt_silent _) fun V W hUV _ hVW hW => ?_)
    have hSW := hSU.trans (hUV.trans hVW)
    split_ifs
    · refine Contract.Safe.bind hW ((history_safe hW).mono fun rows X hWX hX hrows => ?_)
      have hSX := hSW.trans hWX
      exact Contract.Safe.bind hX ((sendPkt_safe _ _ _ hX (hasked.later hSX) hrows).mono
        fun _ Y hXY hY _ => hack (hSX.trans hXY) hY)
    · exact hack hSW hW
  · exact Contract.Safe.bind hU (addClient_safe (hasked.later hSU) fun V hUV hV =>
      hack (hSU.trans hUV) hV)

/-! ### Dispatch -/

theorem rounds_safe {β : Type} {body : β → Code (Option (Option String))} {xs : List β}
    (hS : Inv g e init admits S) (h : ∀ x ∈ xs, ∀ T, Later S T → Inv g e init admits T →
      (contract g e init admits).Safe (body x) (fun _ _ => True) T) :
    (contract g e init admits).Safe (rounds body xs) (fun _ _ => True) S := by
  induction xs generalizing S with
  | nil => exact fun _ _ _ => trivial
  | cons x xs ih =>
    rw [List.forall_mem_cons] at h
    refine Contract.Safe.bind hS ((h.1 S (.refl S) hS).mono fun o T hST hT _ => ?_)
    cases o with
    | some o => exact fun _ _ _ => trivial
    | none => exact ih hT fun y hy U hTU => h.2 y hy U (hST.trans hTU)

theorem tryCall_safe {call : Code (Option String)} (hS : Inv g e init admits S)
    (h : (contract g e init admits).Safe call (fun _ _ => True) S) :
    (contract g e init admits).Safe (tryCall call) (fun _ _ => True) S := by
  refine Contract.Safe.bind hS (h.mono fun o T _ _ _ => ?_)
  cases o <;> exact fun _ _ _ => trivial

theorem rowsOf?_mem {rawData : Slice Float64} {row col : UInt8} {mat : List (List Float64)}
    (h : rowsOf? rawData row col = some mat) {vs : List Float64} (hvs : vs ∈ mat) :
    ∃ i < row.toNat, ∃ value, rawData.slice? (i * col.toNat) ((i + 1) * col.toNat) = some value ∧
      value.toList = vs := by
  obtain ⟨i, hi, hvalue⟩ := exists_of_mem_mapM h hvs
  exact ⟨i, List.mem_range.mp hi, Option.map_eq_some_iff.mp hvalue⟩

theorem forward_safe {pkt : ServicePacket (Slice UInt8)} {f : SubPacket (Slice UInt8)}
    {rawData : Slice Float64} (hS : Inv g e init admits S)
    (hroom : f.row.toNat * f.col.toNat ≤ rawData.cap ∨ S.Fault)
    (h : ∀ mat, rowsOf? rawData f.row f.col = some mat → ∀ row ∈ mat, ∀ v ∈ row, Known g e init S f.dataID v) :
    (contract g e init admits).Safe (forward pkt f rawData) (fun _ _ => True) S := by
  refine Contract.Safe.bind hS
    (safe_silent (fun s => ⟨rfl, rfl, rfl, rfl, rfl⟩) fun T U hST hT hTU hU => ?_)
  dsimp only
  cases hforwards : T.server.forward? pkt f rawData with
  | none =>
    refine (contract g e init admits).fault_later (hroom.resolve_left fun hle => ?_) (hST.trans hTU)
    have hsome := (forward?_isSome (s := T.server) pkt).mpr (.inr hle)
    rw [hforwards] at hsome
    cases hsome
  | some forwards =>
    refine Contract.Safe.bind hU (.startAll (fun r hr => ?_) fun _ _ _ _ _ _ => trivial)
    obtain ⟨routine, hroutine, rfl⟩ := List.mem_map.mp hr
    obtain ⟨dst, hdst, hpkt⟩ := exists_of_mem_mapM hforwards hroutine
    obtain ⟨mat, hmat, rfl⟩ := Option.map_eq_some_iff.mp hpkt
    exact ⟨(hT.subscribers _ dst hdst).later hTU,
      fun row hrow v hv => (h mat hmat row hrow v hv).later (hST.trans hTU)⟩

theorem sendRound_safe {pkt : ServicePacket (Slice UInt8)} {f : SubPacket (Slice UInt8)}
    (hS : Inv g e init admits S) (hpkt : S.Received pkt) (hservice : pkt.service = Utils.serSend)
    (hf : f ∈ pkt.subpackets) : (contract g e init admits).Safe (sendRound g pkt f) (fun _ _ => True) S := by
  obtain ⟨bytes, hbytes, hdecode⟩ := hpkt
  obtain ⟨rawData, hraw, hlen⟩ := payload_of_decoded hdecode g hf
  have hoffered := Offered.send ⟨bytes, hbytes, hdecode⟩ hservice hf rfl hraw
  unfold sendRound
  rw [hraw]
  refine Contract.Safe.bind hS ⟨hoffered, fun T hST hT => ?_⟩
  refine forward_safe hT ?_ fun mat hmat row hrow v hv => Known.later ?_ hST
  · rcases Nat.lt_or_ge (f.length.toNat % 8192) (f.row.toNat * f.col.toNat) with hcells | hcells
    · right
      refine ⟨bytes, hST.arrived.subset hbytes, fun pkt' hpkt' => ?_⟩
      cases hdecode.symm.trans hpkt'
      exact .inr ⟨hservice, f, hf, hcells⟩
    · exact .inl (hcells.trans (hlen ▸ rawData.len_le_cap))
  · obtain ⟨i, _, value, hvalue, rfl⟩ := rowsOf?_mem hmat hrow
    rcases mem_backing_payloadBuf2Float? hraw (Slice.mem_backing_of_slice? hvalue hv) with hv | hzero
    · exact .inr (.inr ⟨_, hoffered, .inl hv⟩)
    · exact .inl hzero

/-- What follows the last subframe of a packet received does not come in eights. -/
theorem payload_of_received {pkt : ServicePacket (Slice UInt8)} (h : S.Received pkt) (g : Slice.Growth) :
    payloadBuf2Float? g pkt.payload = none := by
  obtain ⟨bytes, _, hdecode⟩ := h
  obtain ⟨hfull, hmod⟩ := payload_of_listenBuf hdecode
  exact payloadBuf2Float?_of_lt g pkt.payload (by omega)

theorem handlePkt_safe {pkt : ServicePacket (Slice UInt8)} (hS : Inv g e init admits S)
    (hpkt : S.Received pkt) : (contract g e init admits).Safe (handlePkt g e pkt) (fun _ _ => True) S := by
  have hasked : (pkt.service = Utils.serRequest ∨ pkt.service = Utils.serSubscribe) →
      ∀ f ∈ pkt.subpackets, ∀ T, Later S T → Asked init T f.dataID pkt.src :=
    fun hservice f hf T hST => .inr (.inl ⟨pkt, hpkt.later hST, hservice, rfl, f, hf, rfl⟩)
  unfold handlePkt
  split_ifs with hsend hrequest hpublish hsubscribe
  · exact rounds_safe hS fun f hf T hST hT => sendRound_safe hT (hpkt.later hST) hsend hf
  · exact rounds_safe hS fun f hf T hST hT =>
      tryCall_safe hT (requestCall_safe hT (hasked (.inl hrequest) f hf T hST))
  · rw [payload_of_received hpkt g]
    obtain ⟨bytes, hbytes, hdecode⟩ := hpkt
    refine ⟨bytes, hbytes, fun pkt' hpkt' => ?_⟩
    cases hdecode.symm.trans hpkt'
    exact .inl hpublish
  · exact rounds_safe hS fun f hf T hST hT =>
      tryCall_safe hT (subscribe_safe _ _ hT (hasked (.inr hsubscribe) f hf T hST)
        (.inr ⟨pkt, hpkt.later hST, hsubscribe, rfl⟩))
  · exact fun _ _ _ => trivial

/-! ### Goroutines -/

/-- The channels of the sockets and `Buffer` are not the server's. -/
theorem Later.of_server (hserver : T.server = S.server) (harrived : S.arrived <+: T.arrived)
    (hcommands : S.commands <+: T.commands) : Later S T where
  arrived := harrived
  commands := hcommands
  addrs := hserver ▸ rfl
  recordTables := hserver ▸ rfl
  dataShapes := hserver ▸ rfl
  columns _ := hserver ▸ rfl
  rows _ := hserver ▸ List.prefix_rfl
  subscribers _ := hserver ▸ List.prefix_rfl
  sent := hserver ▸ List.prefix_rfl

theorem Inv.of_server (hS : Inv g e init admits S) (hST : Later S T) (hserver : T.server = S.server)
    (harrived : ∀ bytes ∈ T.arrived, admits (.datagram bytes))
    (hcommands : ∀ command ∈ T.commands, admits (.command command.1 command.2))
    (hsocket : ∀ bytes ∈ T.socket, bytes ∈ T.arrived)
    (hbuffer : ∀ buf ∈ T.buffer, ∃ bytes ∈ T.arrived, buf = listenBuf bytes)
    (hroom : T.buffer.length ≤ Utils.buffLen) : Inv g e init admits T where
  arrived := harrived
  commands := hcommands
  socket := hsocket
  buffer := hbuffer
  bufferRoom := hroom
  queues id queue hqueue data hdata := by
    rw [hserver] at hqueue
    exact (hS.queues id queue hqueue data hdata).later hST
  queueRoom id queue hqueue := by
    rw [hserver] at hqueue
    exact hS.queueRoom id queue hqueue
  rows id r hr := by
    rw [hserver] at hr
    exact (hS.rows id r hr).later hST
  subscribers id dst hdst := by
    rw [hserver] at hdst
    exact (hS.subscribers id dst hdst).later hST
  sent x hx := by
    rw [hserver] at hx
    exact (hS.sent x hx).later hST

theorem main_safe {subscriptions : List (UInt16 × UInt8)} (hS : Inv g e init admits S)
    (h : subscriptions ⊆ init.subscriptions) :
    (contract g e init admits).Safe (main e subscriptions) (fun _ _ => True) S := by
  induction subscriptions generalizing S with
  | nil => exact fun _ _ _ => trivial
  | cons x subscriptions ih =>
    obtain ⟨hx, hrest⟩ := List.cons_subset.mp h
    exact Contract.Safe.bind hS ((subscribe_safe 0 1000 hS (.inl hx) (.inl ⟨x.1, hx⟩)).mono
      fun _ T _ hT _ => ih hT hrest)

theorem producer_safe (hS : Inv g e init admits S) :
    (contract g e init admits).Safe producer (fun _ _ => True) S := by
  refine Contract.Safe.bind hS (.await fun T bytes hST hT hhead => ?_)
  have hTT : Later T { T with socket := T.socket.tail } :=
    .of_server rfl List.prefix_rfl List.prefix_rfl
  refine ⟨hT.of_server hTT rfl hT.arrived hT.commands (fun b hb => hT.socket b (List.mem_of_mem_tail hb))
    hT.buffer hT.bufferRoom, hTT, fun U hTU hU => ?_⟩
  have hbytes : bytes ∈ U.arrived := hTU.arrived.subset (hT.socket bytes (List.mem_of_mem_head? hhead))
  refine Contract.Safe.bind hU (.await fun V _ hUV hV hlook => ?_)
  have hVV : Later V { V with buffer := V.buffer ++ [listenBuf bytes] } :=
    .of_server rfl List.prefix_rfl List.prefix_rfl
  refine ⟨hV.of_server hVV rfl hV.arrived hV.commands hV.socket (fun buf hbuf => ?_) ?_, hVV,
    fun _ _ _ => trivial⟩
  · rcases List.mem_append.mp hbuf with hbuf | hbuf
    · exact hV.buffer buf hbuf
    · exact ⟨bytes, hUV.arrived.subset hbytes, List.mem_singleton.mp hbuf⟩
  · have hroom : V.buffer.length < Utils.buffLen := by
      by_contra hfull
      rw [if_neg hfull] at hlook
      cases hlook
    rw [List.length_append, List.length_singleton]
    exact hroom

theorem consumer_safe (hS : Inv g e init admits S) :
    (contract g e init admits).Safe (consumer g e) (fun _ _ => True) S := by
  refine Contract.Safe.bind hS (.await fun T buf hST hT hhead => ?_)
  have hTT : Later T { T with buffer := T.buffer.tail } :=
    .of_server rfl List.prefix_rfl List.prefix_rfl
  have hlen : T.buffer.tail.length ≤ T.buffer.length := (List.tail_suffix _).length_le
  refine ⟨hT.of_server hTT rfl hT.arrived hT.commands hT.socket
    (fun b hb => hT.buffer b (List.mem_of_mem_tail hb)) (hlen.trans hT.bufferRoom), hTT, fun U hTU hU => ?_⟩
  obtain ⟨bytes, hbytes, hbuf⟩ := hT.buffer buf (List.mem_of_mem_head? hhead)
  cases hpkt : fromServiceBuf? buf with
  | none =>
    refine ⟨bytes, hTU.arrived.subset hbytes, fun pkt hpkt' => ?_⟩
    rw [← hbuf, hpkt] at hpkt'
    cases hpkt'
  | some pkt =>
    have hreceived : U.Received pkt := ⟨bytes, hTU.arrived.subset hbytes, hbuf ▸ hpkt⟩
    exact Contract.Safe.bind hU ((handlePkt_safe hU hreceived).mono fun _ _ _ _ _ => trivial)

theorem commandProcess_safe {param : String} {body : Body} (hS : Inv g e init admits S)
    (hmem : (param, body) ∈ S.commands) :
    (contract g e init admits).Safe (commandProcess e param body) (fun _ _ => True) S := by
  unfold commandProcess
  cases hcommand : command? param body with
  | error err => exact fun _ _ _ => trivial
  | ok command =>
    obtain ⟨n, dst, values⟩ := command
    have hposted : S.Posted (.ofInt n) dst values := ⟨param, body, n, hmem, hcommand, rfl⟩
    have hknown : ∀ row ∈ [values], ∀ v ∈ row, Known g e init S (.ofInt n) v := fun row hrow v hv =>
      .inr (.inr ⟨_, .command 0 hposted, .inl (List.mem_singleton.mp hrow ▸ hv)⟩)
    refine Contract.Safe.bind hS
      ((sendPkt_safe _ _ _ hS (.inr (.inr ⟨values, hposted⟩)) hknown).mono fun o T hST hT _ => ?_)
    cases o with
    | some err => exact fun _ _ _ => trivial
    | none =>
      refine Contract.Safe.bind hT
        (safe_silent (fun s => ⟨rfl, rfl, rfl, rfl, rfl⟩) fun U V hTU _ hUV hV => ?_)
      exact writeToBuffer_safe hV (.command _ (hposted.later (hST.trans (hTU.trans hUV))))

theorem call_safe {r : Routine} (hS : Inv g e init admits S) (hpre : Pre g e init (.call r) S) :
    (contract g e init admits).Safe (call e r) (fun _ _ => True) S := by
  cases r with
  | send id time physicalTime rawData => exact writeToBuffer_safe hS hpre
  | sendPkt dst priority synt flag dataID dataMap => exact sendPkt_safe _ _ _ hS hpre.1 hpre.2
  | publish => cases hpre

theorem body_safe {r : Goroutine} (hS : Inv g e init admits S) (hpre : Pre g e init r S) :
    (contract g e init admits).Safe (body g e r) (fun _ _ => True) S := by
  cases r with
  | main subscriptions => exact main_safe hS hpre
  | producer => exact producer_safe hS
  | consumer => exact consumer_safe hS
  | handleData id p => exact handleData_safe hS hpre
  | call r => exact Contract.Safe.bind hS ((call_safe hS hpre).mono fun _ _ _ _ _ _ _ _ => trivial)
  | command param body =>
    exact Contract.Safe.bind hS ((commandProcess_safe hS hpre).mono fun _ _ _ _ _ _ _ _ => trivial)

/-- All goroutines keep the contract, and all that comes from outside and is admitted. -/
theorem setting_keeps (g : Slice.Growth) (e : Env) (init : Start) (admits : Input → Prop) :
    (contract g e init admits).Keeps (setting g e) admits where
  body _ _ := body_safe
  outside x S hx hS := by
    replace hS : Inv g e init admits S := hS
    cases x with
    | datagram bytes =>
      have hST : Later S (input (.datagram bytes) S).1 :=
        .of_server rfl (List.prefix_append ..) List.prefix_rfl
      refine ⟨hS.of_server hST rfl (fun b hb => ?_) hS.commands (fun b hb => ?_) (fun buf hbuf => ?_)
        hS.bufferRoom, hST, fun r hr => nomatch hr⟩
      · rcases List.mem_append.mp hb with hb | hb
        · exact hS.arrived b hb
        · rw [List.mem_singleton.mp hb]
          exact hx
      · exact List.mem_append.mpr ((List.mem_append.mp hb).imp_left (hS.socket b))
      · obtain ⟨b, hb, heq⟩ := hS.buffer buf hbuf
        exact ⟨b, List.mem_append_left _ hb, heq⟩
    | command param body =>
      have hST : Later S (input (.command param body) S).1 :=
        .of_server rfl List.prefix_rfl (List.prefix_append ..)
      refine ⟨hS.of_server hST rfl hS.arrived (fun c hc => ?_) hS.socket hS.buffer hS.bufferRoom, hST,
        fun r hr => ?_⟩
      · rcases List.mem_append.mp hc with hc | hc
        · exact hS.commands c hc
        · rw [List.mem_singleton.mp hc]
          exact hx
      · rw [List.mem_singleton.mp hr]
        exact List.mem_append_right _ List.mem_cons_self

end Steps
end DRDS.Service
