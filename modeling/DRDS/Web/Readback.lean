import DRDS.Handler.HandleData
import DRDS.Server.Requests
import DRDS.Web.Command
import DRDS.Web.HistoryPage

/-! The commands on a data id, from the web server to its table and back. -/
namespace DRDS
open Go

/-- The server, and the goroutine that empties the channel of the data id. -/
structure Station where
  server : Server
  pending : Pending

/-- Nothing the commands on the data id are stored by or read back by is changed. -/
structure LeavesAlone (id : UInt16) (s t : Server) : Prop where
  recordTables : t.handler.recordTables = s.handler.recordTables
  dataShapes : t.handler.dataShapes = s.handler.dataShapes
  channel : t.handler.dataBuffer id = s.handler.dataBuffer id
  table : t.world.tables id = s.world.tables id

namespace Station

def held (id : UInt16) (S : Station) : List Data := Pipe.held id ⟨S.server.handler, S.pending⟩

/-- A step with the values of the command it accepts, if it accepts one on the data id: a command of
the data's shape, a round of the goroutine, whose batch is written if there is one, or anything
else that leaves the data id alone. -/
inductive Step (e : Env) (id : UInt16) : Station → List (List Float64) → Station → Prop
  | command {S : Station} {t : Server} {param : String} {body : Body} {dst : UInt8}
      {values : List Float64} (hcommand : command? param body = .ok (id.toNat, dst, values))
      (hshape : values.length = (S.server.handler.dataShapes id).toNat)
      (haccepted : commandProcess e param body S.server = (none, t)) :
      Step e id S [values] ⟨t, S.pending⟩
  | round {S : Station} {ev : Event} {pipe : Pipe} {out : Option (List Data)}
      (hpush : ∀ data, ev ≠ .push data)
      (hround : Pipe.step? id ev ⟨S.server.handler, S.pending⟩ = some (pipe, out))
      (hwritten : ∀ batch, out = some batch →
        (S.server.handler.writeRange e id batch S.server.world).1 = none) :
      Step e id S [] ⟨{ S.server with
        handler := pipe.handler
        world := S.server.handler.flush e id out S.server.world }, pipe.pending⟩
  | other {S : Station} {t : Server} (h : LeavesAlone id S.server t) : Step e id S [] ⟨t, S.pending⟩

inductive Run (e : Env) (id : UInt16) (S : Station) : List (List Float64) → Station → Prop
  | start : Run e id S [] S
  | step {vs us : List (List Float64)} {T U : Station} (hrun : Run e id S vs T)
      (hstep : Step e id T us U) : Run e id S (vs ++ us) U

/-- The data id has a table and a channel, and nothing is in either or between them. -/
structure Fresh (id : UInt16) (S : Station) : Prop where
  registered : id ∈ S.server.handler.recordTables
  channel : S.server.handler.dataBuffer id = some []
  pending : S.pending.buffer = []
  records : S.server.world.records id = []

/-- What a record is read back by. -/
def stamp (data : Data) : UInt32 × List Float64 := (data.iter, data.value)

/-- All commands are in the table or on the way there, in order, all of the data's shape and all with
time 0. -/
structure Stores (e : Env) (id : UInt16) (vs : List (List Float64)) (S : Station) : Prop where
  registered : id ∈ S.server.handler.recordTables
  channel : ∃ queue, S.server.handler.dataBuffer id = some queue
  shapes : ∀ values ∈ vs, values.length = (S.server.handler.dataShapes id).toNat
  records : (S.server.world.records id).map stamp ++ (S.held id).map (stamp ∘ Data.stored e) =
    vs.map fun values => (0, values.map e.column)

end Station

/-- The commands are read back: a reply to a request for the last time has the values of the last
command, and the history page of a column an entry for each command. -/
structure ReadsBack (e : Env) (id : UInt16) (vs : List (List Float64)) (s : Server) : Prop where
  request : ∀ values, vs.getLast? = some values → ∀ dst priority,
    (s.request e id Utils.timeSimuLast dst priority).1 = none → ∃ addr buf,
      (s.request e id Utils.timeSimuLast dst priority).2.world.sent = s.world.sent ++ [(addr, buf)] ∧
        CarriesValues buf id.toNat (values.map e.column)
  history : ∀ param text, NamesColumn param id text → ∀ col : ℕ, (atoi text).1 = col →
    col = 0 ∨ col < (s.handler.dataShapes id).toNat → ∃ dlist,
      (historyProcess e s.handler param s.world).1 = some (.ok dlist) ∧
        List.Forall₂ (fun values d => d.id = columnName id text ∧
          ∀ v, (values.map e.column)[col]? = some v → d.value = v) vs dlist

/-! ### The way to the table -/

theorem World.records_eq_map (w : World) (id : UInt16) : w.records id = (w.rows id).map Row.data := by
  unfold records rows
  cases w.tables id <;> rfl

namespace Station
section Steps
variable {e : Env} {id : UInt16} {S T U : Station} {vs us : List (List Float64)}

theorem Fresh.stores (h : S.Fresh id) : S.Stores e id [] := by
  have hheld : S.held id = [] := by
    unfold held Pipe.held Pipe.queue
    rw [h.channel, h.pending]
    rfl
  exact ⟨h.registered, ⟨_, h.channel⟩, by simp, by simp [hheld, h.records]⟩

theorem Stores.shaped (h : S.Stores e id vs) {d : Data} (hd : d ∈ S.held id) :
    S.server.handler.Shaped id d := by
  have hstamp : (stamp ∘ Data.stored e) d ∈ vs.map fun values => (0, values.map e.column) :=
    h.records ▸ List.mem_append_right _ (List.mem_map_of_mem hd)
  obtain ⟨values, hvalues, heq⟩ := List.mem_map.mp hstamp
  have hlen := congrArg (fun x => x.2.length) heq
  change (values.map e.column).length = (d.value.map e.column).length at hlen
  rw [List.length_map, List.length_map] at hlen
  exact hlen.symm.trans (h.shapes values hvalues)

theorem Stores.command {t : Server} {param : String} {body : Body} {dst : UInt8}
    {values : List Float64} (h : S.Stores e id vs)
    (hcommand : command? param body = .ok (id.toNat, dst, values))
    (hshape : values.length = (S.server.handler.dataShapes id).toNat)
    (haccepted : commandProcess e param body S.server = (none, t)) :
    Stores e id (vs ++ [values]) ⟨t, S.pending⟩ := by
  obtain ⟨queue, hqueue⟩ := h.channel
  obtain ⟨sendT, hnone, hhandler, htables⟩ := commandProcess_accepted hcommand haccepted
  rw [← eq_ofInt_of_toNat_eq rfl] at hnone hhandler
  let data : Data := ⟨0, sendT, values⟩
  have hroom : queue.length < Utils.buffLen := by
    by_contra hfull
    simp [Handler.writeToBuffer, hqueue, Nat.le_of_not_lt hfull] at hnone
  let dataBuffer := Function.update S.server.handler.dataBuffer id (some (queue ++ [data]))
  have hstored : t.handler = { S.server.handler with dataBuffer } := by
    rw [hhandler]
    simp [Handler.writeToBuffer, hqueue, Nat.not_le_of_lt hroom, dataBuffer, data]
  have hheld : held id ⟨t, S.pending⟩ = S.held id ++ [data] := by
    simp [held, Pipe.held, Pipe.queue, hstored, dataBuffer, hqueue]
  have hrecords : t.world.records id = S.server.world.records id := by
    unfold World.records
    rw [htables]
  refine ⟨?_, ⟨queue ++ [data], ?_⟩, ?_, ?_⟩
  · rw [hstored]
    exact h.registered
  · rw [hstored]
    exact Function.update_self ..
  · rw [hstored]
    intro values' hmem
    rcases List.mem_append.mp hmem with hmem | hmem
    · exact h.shapes values' hmem
    · obtain rfl := List.mem_singleton.mp hmem
      exact hshape
  · rw [hheld, hrecords, List.map_append, List.map_append, ← List.append_assoc, h.records]
    rfl

theorem pushed_of_ne {ev : Event} (hpush : ∀ data, ev ≠ .push data) (s : Pipe) :
    Pipe.pushed id ev s = [] := by
  cases ev with
  | push data => exact absurd rfl (hpush data)
  | receive now => rfl
  | timeout now => rfl

theorem Stores.round {ev : Event} {pipe : Pipe} {out : Option (List Data)} (h : S.Stores e id vs)
    (hpush : ∀ data, ev ≠ .push data)
    (hround : Pipe.step? id ev ⟨S.server.handler, S.pending⟩ = some (pipe, out))
    (hwritten : ∀ batch, out = some batch →
      (S.server.handler.writeRange e id batch S.server.world).1 = none) :
    Stores e id vs ⟨{ S.server with
      handler := pipe.handler
      world := S.server.handler.flush e id out S.server.world }, pipe.pending⟩ := by
  obtain ⟨htables, hshapes⟩ := Pipe.step?_config hround
  have hconserve := Pipe.step?_conserve hround
  rw [pushed_of_ne hpush, List.append_nil] at hconserve
  change out.getD [] ++ Pipe.held id pipe = S.held id at hconserve
  have hbatch : ∀ d ∈ out.getD [], S.server.handler.Shaped id d :=
    fun d hd => h.shaped (hconserve ▸ List.mem_append_left _ hd)
  have hflush : (S.server.handler.flush e id out S.server.world).records id =
      S.server.world.records id ++ (out.getD []).map (Data.stored e) := by
    cases out with
    | none => simp [Handler.flush]
    | some batch =>
      have hrecords := Handler.writeRange_records h.registered fun _ => hwritten batch rfl
      rw [Option.getD_some] at hbatch
      rwa [if_pos hbatch] at hrecords
  refine ⟨htables ▸ h.registered, Pipe.step?_channel h.channel hround, hshapes ▸ h.shapes, ?_⟩
  dsimp only
  rw [hflush, ← h.records, ← hconserve]
  simp [held]

theorem Stores.other {t : Server} (h : S.Stores e id vs) (halone : LeavesAlone id S.server t) :
    Stores e id vs ⟨t, S.pending⟩ := by
  have hheld : held id ⟨t, S.pending⟩ = S.held id := by
    simp [held, Pipe.held, Pipe.queue, halone.channel]
  have hrecords : t.world.records id = S.server.world.records id := by
    unfold World.records
    rw [halone.table]
  refine ⟨halone.recordTables ▸ h.registered, halone.channel ▸ h.channel,
    halone.dataShapes ▸ h.shapes, ?_⟩
  rw [hheld, hrecords]
  exact h.records

theorem Stores.step (h : S.Stores e id vs) (hstep : Step e id S us T) : T.Stores e id (vs ++ us) := by
  cases hstep with
  | command hcommand hshape haccepted => exact h.command hcommand hshape haccepted
  | round hpush hround hwritten =>
    rw [List.append_nil]
    exact h.round hpush hround hwritten
  | other halone =>
    rw [List.append_nil]
    exact h.other halone

theorem Run.stores (hrun : Run e id S vs T) (hfresh : S.Fresh id) : T.Stores e id vs := by
  induction hrun with
  | start => exact hfresh.stores
  | step _ hstep ih => exact ih.step hstep

theorem Stores.records_of_flushed (h : S.Stores e id vs) (hflushed : S.held id = []) :
    (S.server.world.records id).map stamp = vs.map fun values => (0, values.map e.column) := by
  rw [← h.records, hflushed, List.map_nil, List.append_nil]

theorem Stores.iter_eq_zero (h : S.Stores e id vs) {r : Row} (hr : r ∈ S.server.world.rows id) :
    r.iter = 0 := by
  have hmem : r.data ∈ S.server.world.records id := by
    rw [World.records_eq_map]
    exact List.mem_map_of_mem hr
  have hstamp : stamp r.data ∈ vs.map fun values => (0, values.map e.column) :=
    h.records ▸ List.mem_append_left _ (List.mem_map_of_mem hmem)
  obtain ⟨values, _, heq⟩ := List.mem_map.mp hstamp
  exact (congrArg Prod.fst heq).symm

end Steps
end Station

/-! ### The way back -/

section Page
variable {e : Env} {h : Handler} {id : UInt16} {w : World}

theorem queryLastSynt_of_zero (hzero : ∀ r ∈ w.rows id, r.iter = 0) : (queryLastSynt e id w).1 = 0 := by
  rcases reached_queryLastSynt e id w with hlast | ⟨r, hr, hle⟩
  · exact hlast
  · rw [hzero r hr] at hle
    exact UInt32.le_zero_iff.mp hle

/-- Records of time 0 are outside the range up to the last of them. -/
theorem historyProcess_of_zero (hzero : ∀ r ∈ w.rows id, r.iter = 0) {param : String}
    {text : List Char} (hparam : NamesColumn param id text) {dlist : List VisualData}
    (hpage : (historyProcess e h param w).1 = some (.ok dlist)) : dlist = [] := by
  obtain ⟨idText, rest, hsplit, hid⟩ := hparam
  by_cases hrefused : RangeRefused e h id w
  · obtain ⟨err, hfails⟩ := (historyFails_iff hsplit).mpr (hid ▸ hrefused)
    cases hpage.symm.trans hfails
  · unfold RangeRefused at hrefused
    push Not at hrefused
    obtain ⟨t, ht, hanswered⟩ := hrefused
    have ht' : w.tick.tables id = some t := ht
    rcases h.readRange_answer (e := e) 0 (queryLastSynt e id w).1 ht' with
      ⟨_, _, hno⟩ | ⟨_, _, _, tVec, vMat, hok, hlen⟩
    · exact absurd hanswered hno
    · have htimes := Handler.length_phyVec_le hok
      have hrange : t.range 0 (queryLastSynt e id w).1 = [] := by
        rw [queryLastSynt_of_zero hzero]
        simp [Table.range]
      have hnil : tVec = [] := List.eq_nil_of_length_eq_zero (by simp_all)
      rw [historyProcess_of_ok hsplit (hid ▸ hok), hnil] at hpage
      cases hpage
      rfl

theorem exists_namesColumn (id : UInt16) : ∃ param, NamesColumn param id ['0'] := by
  refine ⟨.ofList (itoa id.toNat ++ '.' :: ['0']), itoa id.toNat, [], ?_, ?_⟩
  · have hdot : '.' ∉ itoa id.toNat := fun h => absurd (isDigit_of_mem_itoa h) (by decide)
    rw [String.toList_ofList, splitOn_append_cons hdot]
    rfl
  · rw [parseUint_itoa id.toNat_lt, UInt16.ofNat_toNat]

end Page

section Request
variable {e : Env} {s : Server} {id : UInt16} {t : Table} {dst priority : UInt8} {r : Row}
  {rows : List Row} (hrows : t.rows = r :: rows) (hzero : ∀ r ∈ t.rows, r.iter = 0)
include hrows hzero

/-- With all records at time 0 the last time is 0, answered or not, and the first record is read. -/
theorem lookedUp_of_zero : Server.lookedUp e s t Utils.timeSimuLast = 0 ∧ t.rowAt? 0 = some r := by
  have hfirst : r.iter = 0 := hzero r (by simp [hrows])
  obtain ⟨m, hm, hlast⟩ := t.exists_lastSynt (by simp [hrows])
  have hlast' : t.lastSynt = 0 := hlast.symm.trans (hzero m hm)
  constructor
  · unfold Server.lookedUp Server.requestedSynt
    simp [hlast']
  · simp [Table.rowAt?, hrows, hfirst]

/-- A reply to a request for the last time has the values of the first record. -/
theorem request_first (ht : s.world.tables id = some t) (hscans : s.handler.Scans id t)
    (he : e.statement (s.world.calls + 1) = none)
    (hsent : (s.request e id Utils.timeSimuLast dst priority).1 = none) : ∃ addr buf,
      (s.request e id Utils.timeSimuLast dst priority).2.world.sent = s.world.sent ++ [(addr, buf)] ∧
        CarriesValues buf id.toNat (r.read (s.handler.dataShapes id).toNat) := by
  obtain ⟨htime, hfirst⟩ := lookedUp_of_zero (e := e) (s := s) hrows hzero
  obtain ⟨values, hvalues, hrun⟩ :=
    Server.request_eq_sendPkt (e := e) Utils.timeSimuLast dst priority ht
  rw [htime] at hvalues hrun
  rw [hrun] at hsent ⊢
  cases hvalues with
  | none hno =>
    rcases hno with hnone | herr | hno
    · cases hfirst.symm.trans hnone
    · exact absurd he herr
    · exact absurd hscans hno
  | row hr =>
    obtain rfl := Option.some.inj (hfirst.symm.trans hr)
    have hlt : (r.read (s.handler.dataShapes id).toNat).length < 2 ^ 8 := by
      rw [Row.length_read]
      exact UInt8.toNat_lt _
    unfold Server.sendPkt at hsent ⊢
    rcases Server.transmit_cases e dst (Server.toServiceBuf ((s.asked
      (Server.lookups Utils.timeSimuLast + 1)).dataPkt e dst priority 0 Utils.flagSingle id
      [r.read (s.handler.dataShapes id).toNat])) (s.asked _).numbered with
      ⟨_, _, htransmit, _⟩ | ⟨addr, w, htransmit, _, _, _, hw⟩
    · rw [htransmit] at hsent
      cases hsent
    · rw [htransmit]
      exact ⟨addr, _, hw, carriesValues_dataPkt id hlt⟩

end Request

/-- A reply to a request for the last time has the values of the first command, once all is flushed. -/
theorem Station.Stores.replies_first {e : Env} {id : UInt16} {first : List Float64}
    {rest : List (List Float64)} {T : Station} {t : Table} {dst priority : UInt8}
    (h : T.Stores e id (first :: rest)) (hflushed : T.held id = [])
    (ht : T.server.world.tables id = some t) (hscans : T.server.handler.Scans id t)
    (he : e.statement (T.server.world.calls + 1) = none)
    (hsent : (T.server.request e id Utils.timeSimuLast dst priority).1 = none) : ∃ addr buf,
      (T.server.request e id Utils.timeSimuLast dst priority).2.world.sent =
        T.server.world.sent ++ [(addr, buf)] ∧
      CarriesValues buf id.toNat (first.map e.column) := by
  have hrecords := h.records_of_flushed hflushed
  rw [World.records_eq_map, World.rows_of_table ht, List.map_map, List.map_cons] at hrecords
  obtain ⟨r, rows, hrows, hfirst, _⟩ := List.map_eq_cons_iff.mp hrecords
  have hzero : ∀ r ∈ t.rows, r.iter = 0 := by
    rw [← World.rows_of_table ht]
    exact fun r => h.iter_eq_zero
  have hvalues : r.values = first.map e.column := congrArg Prod.snd hfirst
  have hread : r.read (T.server.handler.dataShapes id).toNat = first.map e.column := by
    rw [← hvalues]
    refine Row.read_of_length ?_
    rw [hvalues, List.length_map]
    exact h.shapes first (by simp)
  rw [← hread]
  exact request_first hrows hzero ht hscans he hsent

theorem Station.Stores.lists_none {e : Env} {id : UInt16} {vs : List (List Float64)} {T : Station}
    (h : T.Stores e id vs) (hvs : vs ≠ []) : ¬ ReadsBack e id vs T.server := by
  intro hreads
  obtain ⟨param, hparam⟩ := exists_namesColumn id
  have hcol : (atoi ['0']).1 = (0 : ℕ) := by decide
  obtain ⟨dlist, hpage, hentries⟩ := hreads.history param ['0'] hparam 0 hcol (.inl rfl)
  obtain rfl := historyProcess_of_zero (fun _ => h.iter_eq_zero) hparam hpage
  exact hvs (List.forall₂_nil_right_iff.mp hentries)

/-- No command is ever listed: each is stored with time 0, which is also the end of the range. -/
theorem not_readsBack (e : Env) (id : UInt16) (vs : List (List Float64)) (S T : Station)
    (hfresh : S.Fresh id) (hrun : S.Run e id vs T) (hvs : vs ≠ []) :
    ¬ ReadsBack e id vs T.server :=
  (hrun.stores hfresh).lists_none hvs

theorem setPoint_run : ∃ T, (⟨.afterInit, ⟨[], 0⟩⟩ : Station).Run .reliable 3 [[7]] T ∧
    T.held 3 = [] ∧ (T.server.world.records 3).map Station.stamp = [(0, [7])] := by
  have hcommand : command? "3" (.object (some 2) (some [7])) = .ok ((3 : UInt16).toNat, 2, [7]) := by
    decide +kernel
  have haccepted : commandProcess .reliable "3" (.object (some 2) (some [7])) .afterInit =
      (none, (commandProcess .reliable "3" (.object (some 2) (some [7])) .afterInit).2) :=
    Prod.ext (by decide +kernel) rfl
  let s := (commandProcess .reliable "3" (.object (some 2) (some [7])) .afterInit).2
  let data : Data := ⟨0, 0, [7]⟩
  let dataBuffer := Function.update s.handler.dataBuffer 3 (some [])
  let received : Pipe := ⟨{ s.handler with dataBuffer }, ⟨[data], 0⟩⟩
  let written : Pipe := ⟨{ s.handler with dataBuffer }, ⟨[], 100000002⟩⟩
  have hreceive : Pipe.step? 3 (.receive 1) ⟨s.handler, ⟨[], 0⟩⟩ = some (received, none) := rfl
  have hwrite : Pipe.step? 3 (.timeout 100000002) received = some (written, some [data]) := rfl
  have hcommanded : Station.Step .reliable 3 ⟨.afterInit, ⟨[], 0⟩⟩ [[7]] ⟨s, ⟨[], 0⟩⟩ :=
    .command hcommand rfl haccepted
  have hreceived := @Station.Step.round .reliable 3 ⟨s, ⟨[], 0⟩⟩ _ _ _ (by simp) hreceive
    (by rintro _ ⟨⟩)
  have hwritten := @Station.Step.round .reliable 3 ⟨{ s with handler := received.handler },
    received.pending⟩ _ _ _ (by simp) hwrite (by rintro _ ⟨⟩; rfl)
  exact ⟨_, .step (.step (.step .start hcommanded) hreceived) hwritten, rfl, rfl⟩

theorem setPoint_fresh : (⟨.afterInit, ⟨[], 0⟩⟩ : Station).Fresh 3 :=
  ⟨by decide, by decide, rfl, by decide⟩

theorem setPoint_not_listed : ∃ T, (⟨.afterInit, ⟨[], 0⟩⟩ : Station).Run .reliable 3 [[7]] T ∧
    T.held 3 = [] ∧ ¬ ReadsBack .reliable 3 [[7]] T.server := by
  obtain ⟨T, hrun, hflushed, _⟩ := setPoint_run
  exact ⟨T, hrun, hflushed, (hrun.stores setPoint_fresh).lists_none (by simp)⟩

theorem setPoint_not_readsBack : ∃ T, (⟨.afterInit, ⟨[], 0⟩⟩ : Station).Run .reliable 3 [[7]] T ∧
    ¬ ReadsBack .reliable 3 [[7]] T.server := by
  obtain ⟨T, hrun, _⟩ := setPoint_run
  exact ⟨T, hrun, not_readsBack .reliable 3 [[7]] ⟨.afterInit, ⟨[], 0⟩⟩ T setPoint_fresh hrun
    (by simp)⟩

end DRDS
