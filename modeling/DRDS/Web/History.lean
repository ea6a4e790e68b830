import DRDS.Go.Strconv
import DRDS.Handler.ReadRange
import DRDS.Server.Server

/-! Requests from a start time to the last record, of the data service and of the web server. -/
namespace DRDS
open Go

/-! ### The range of a request -/

def Server.rangeMat (e : Env) (id : UInt16) (timeStart : UInt32) (timeDiff : UInt16)
    (s : Server) : Except String (List (List Float64)) × Server :=
  let (timeEnd, s) := if timeDiff = Utils.paramterRequestLast then s.queryLastSynt e id
    else (timeStart + timeDiff.toUInt32, s)
  match s.handler.readRange e id timeStart timeEnd s.world with
  | (.error err, world) => (.error err, { s with world })
  | (.ok (_, _, dataMat), world) => (.ok dataMat, { s with world })

theorem Server.requestRange_eq (e : Env) (id : UInt16) (timeStart : UInt32) (timeDiff : UInt16)
    (dst priority : UInt8) (s : Server) :
    s.requestRange e id timeStart timeDiff dst priority =
      match s.rangeMat e id timeStart timeDiff with
      | (.error err, s) => (some err, s)
      | (.ok dataMat, s) =>
        s.sendPkt e dst Utils.priorityHight timeStart Utils.flagSingle id dataMat := by
  by_cases hlast : timeDiff = Utils.paramterRequestLast
  · simp only [requestRange, rangeMat, if_pos hlast]
    rcases s.queryLastSynt e id with ⟨last, s⟩
    rcases s.handler.readRange e id timeStart last s.world with ⟨_ | ⟨_, _, _⟩, _⟩ <;> rfl
  · simp only [requestRange, rangeMat, if_neg hlast]
    rcases s.handler.readRange e id timeStart (timeStart + timeDiff.toUInt32) s.world with
      ⟨_ | ⟨_, _, _⟩, _⟩ <;> rfl

/-- What the websocket clients and the history page are given: one value of one record. -/
structure VisualData where
  timestamp : UInt64
  value : Float64
  id : String
  deriving DecidableEq

/-- The name of a column of the history page, which repeats the text of the column. -/
def columnName (id : UInt16) (text : List Char) : String :=
  toString id.toNat ++ "." ++ String.ofList text

/-- The column `col` of the rows read; `none` when a row does not have it. -/
def historyList? (id : UInt16) (text : List Char) (tVec : List UInt64)
    (vMat : List (List Float64)) : Option (List VisualData) :=
  tVec.zipIdx.mapM fun (t, i) => do
    let row ← vMat[i]?
    let col := (atoi text).1
    let value ← if 0 ≤ col then row[col.toNat]? else none
    some { timestamp := t, value, id := columnName id text }

/-- The path parameter is a data id and a column; conversion errors are ignored. `none` is an
index out of range. -/
def historyProcess (e : Env) (h : Handler) (param : String) (w : World) :
    Option (Except String (List VisualData)) × World :=
  match param.toList.splitOn '.' with
  | idText :: text :: _ =>
    let id := UInt16.ofNat (parseUint 16 idText).1
    let (last, w) := queryLastSynt e id w
    match h.readRange e id 0 last w with
    | (.error err, w) => (some (.error err), w)
    | (.ok (_, tVec, vMat), w) => ((historyList? id text tVec vMat).map .ok, w)
  | _ => (none, w)

/-! ### What the range leaves out -/

/-- A range that ends at the last time or before has all rows from the start on only when
there are none. -/
theorem Table.length_range_eq_iff {t : Table} {start stop : UInt32} (hstop : stop ≤ t.lastSynt) :
    (t.range start stop).length = (t.rows.filter fun r => start ≤ r.iter).length ↔
      ∀ r ∈ t.rows, r.iter < start := by
  constructor
  · intro hlen r hr
    by_contra hstart
    have hle : start ≤ r.iter := UInt32.not_lt.mp hstart
    have hsub : (t.range start stop).Sublist (t.rows.filter fun r => start ≤ r.iter) := by
      apply List.monotone_filter_right
      intro a ha
      simp_all
    have heq := hsub.eq_of_length hlen
    obtain ⟨m, hm, hlast⟩ := t.exists_lastSynt (List.ne_nil_of_mem hr)
    have hmem : m ∈ t.rows.filter fun r => start ≤ r.iter := by
      have hm' : start ≤ m.iter := hlast ▸ UInt32.le_trans hle (t.le_lastSynt hr)
      simpa [hm] using hm'
    -- the last record is at the open end of the range
    rw [← heq] at hmem
    simp only [range, List.mem_filter, decide_eq_true_eq] at hmem
    rw [hlast] at hmem
    exact UInt32.lt_irrefl _ (UInt32.lt_of_lt_of_le hmem.2.2 hstop)
  · intro hnone
    have hrange : t.range start stop = [] := by
      simp only [range, List.filter_eq_nil_iff, decide_eq_true_eq, not_and]
      intro r hr hle
      exact absurd (hnone r hr) (UInt32.not_lt.mpr hle)
    have hfilter : (t.rows.filter fun r => decide (start ≤ r.iter)) = [] := by
      simp only [List.filter_eq_nil_iff, decide_eq_true_eq]
      intro r hr
      exact UInt32.not_le.mpr (hnone r hr)
    rw [hrange, hfilter]

/-! ### Both services -/

/-- The range SELECT, second of the two statements, is answered. -/
def RangeAnswered (e : Env) (h : Handler) (id : UInt16) (t : Table) (w : World) : Prop :=
  e.statement w.tick.calls = none ∧ h.Selects id t

/-- A request up to the last record reads the values of all records from its start time on. -/
def RequestsToLast (e : Env) (s : Server) (id : UInt16) (timeStart : UInt32) (t : Table) : Prop :=
  (s.rangeMat e id timeStart Utils.paramterRequestLast).1 =
    .ok ((t.rows.filter fun r => timeStart ≤ r.iter).map
      (Row.read (s.handler.dataShapes id).toNat))

/-- The history page of a column has an entry for each record. -/
def ListsHistory (e : Env) (h : Handler) (id : UInt16) (text : List Char) (param : String)
    (t : Table) (w : World) : Prop :=
  (historyProcess e h param w).1 = some (.ok (t.rows.map fun r =>
    { timestamp := r.recvT
      value := ((r.read (h.dataShapes id).toNat)[(atoi text).1.toNat]?).getD 0
      id := columnName id text }))

theorem queryLastSynt_le {e : Env} {id : UInt16} {w : World} {t : Table}
    (ht : w.tables id = some t) : (queryLastSynt e id w).1 ≤ t.lastSynt := by
  cases he : e.statement w.calls with
  | none =>
    rw [queryLastSynt_of_answer ht he]
    exact UInt32.le_refl _
  | some err =>
    have hzero : (queryLastSynt e id w).1 = 0 := by simp [queryLastSynt, World.select, he]
    rw [hzero]
    exact UInt32.zero_le

theorem length_of_historyList? {id : UInt16} {text : List Char} {tVec : List UInt64}
    {vMat : List (List Float64)} {dlist : List VisualData}
    (h : historyList? id text tVec vMat = some dlist) : dlist.length = tVec.length := by
  rw [← (mapM_forall₂ h).length_eq, List.length_zipIdx]

theorem Handler.length_phyVec_le {e : Env} {h : Handler} {id : UInt16} {start stop : UInt32}
    {w : World} {simuVec : List UInt32} {phyVec : List UInt64} {dataMat : List (List Float64)}
    (hok : (h.readRange e id start stop w).1 = .ok (simuVec, phyVec, dataMat)) :
    phyVec.length ≤ dataMat.length := by
  have hscan : ∀ rows : List Row,
      ((rows.map (scanRow (h.dataShapes id))).flatMap (·.2.1)).length ≤ rows.length := by
    intro rows
    induction rows with
    | nil => simp
    | cons row rows ih =>
      have hrow : (scanRow (h.dataShapes id) row).2.1.length ≤ 1 := by
        unfold scanRow
        dsimp only
        split_ifs <;> simp
      rw [List.map_cons, List.flatMap_cons, List.length_append, List.length_cons]
      omega
  unfold readRange at hok
  dsimp only at hok
  split at hok
  · cases hok
  · simp only [Except.ok.injEq, Prod.mk.injEq] at hok
    obtain ⟨_, rfl, rfl⟩ := hok
    rw [List.length_map, List.length_map]
    exact hscan _

section Page
variable {e : Env} {h : Handler} {param : String} {w : World} {idText text : List Char}
  {rest : List (List Char)}

theorem historyProcess_of_error {err : String}
    (hsplit : param.toList.splitOn '.' = idText :: text :: rest)
    (hread : (h.readRange e (.ofNat (parseUint 16 idText).1) 0
      (queryLastSynt e (.ofNat (parseUint 16 idText).1) w).1 w.tick).1 = .error err) :
    (historyProcess e h param w).1 = some (.error err) := by
  rw [← queryLastSynt_world e (.ofNat (parseUint 16 idText).1) w] at hread
  rw [historyProcess, hsplit]
  dsimp only
  split <;> simp_all

theorem historyProcess_of_ok {simuVec : List UInt32} {tVec : List UInt64}
    {vMat : List (List Float64)} (hsplit : param.toList.splitOn '.' = idText :: text :: rest)
    (hread : (h.readRange e (.ofNat (parseUint 16 idText).1) 0
      (queryLastSynt e (.ofNat (parseUint 16 idText).1) w).1 w.tick).1 = .ok (simuVec, tVec, vMat)) :
    (historyProcess e h param w).1 =
      (historyList? (.ofNat (parseUint 16 idText).1) text tVec vMat).map .ok := by
  rw [← queryLastSynt_world e (.ofNat (parseUint 16 idText).1) w] at hread
  rw [historyProcess, hsplit]
  dsimp only
  split <;> simp_all

end Page

section Last
variable (e : Env) (s : Server) (id : UInt16) (t : Table)

theorem requestsToLast_iff (timeStart : UInt32) (ht : s.world.tables id = some t) :
    RequestsToLast e s id timeStart t ↔
      RangeAnswered e s.handler id t s.world ∧ ∀ r ∈ t.rows, r.iter < timeStart := by
  have hworld : (queryLastSynt e id s.world).2 = s.world.tick := queryLastSynt_world ..
  have hstop := queryLastSynt_le (e := e) ht
  have hmat : (s.rangeMat e id timeStart Utils.paramterRequestLast).1 =
      (s.handler.readRange e id timeStart (queryLastSynt e id s.world).1 s.world.tick).1.map
        fun vecs => vecs.2.2 := by
    rw [← hworld]
    unfold Server.rangeMat
    simp only [if_true, Server.queryLastSynt]
    rcases s.handler.readRange e id timeStart (queryLastSynt e id s.world).1
      (queryLastSynt e id s.world).2 with ⟨_ | ⟨_, _, _⟩, _⟩ <;> rfl
  unfold RequestsToLast RangeAnswered
  rw [hmat]
  have ht' : s.world.tick.tables id = some t := ht
  rcases s.handler.readRange_answer (e := e) timeStart (queryLastSynt e id s.world).1 ht' with
    ⟨err, herr, hno⟩ | ⟨he, hs, _, _, mat, hok, hlen⟩
  · rw [herr]
    simp only [Except.map, reduceCtorEq, false_iff]
    exact fun hyes => hno hyes.1
  · rw [hok, ← Table.length_range_eq_iff hstop, ← hlen]
    simp only [Except.map, Except.ok.injEq, he, hs, true_and]
    constructor
    · intro heq
      rw [heq, List.length_map]
    · intro heq
      have hnone := (Table.length_range_eq_iff hstop).mp (hlen.symm.trans heq)
      have hfilter : (t.rows.filter fun r => decide (timeStart ≤ r.iter)) = [] := by
        simp only [List.filter_eq_nil_iff, decide_eq_true_eq]
        exact fun r hr => UInt32.not_le.mpr (hnone r hr)
      rw [hfilter] at heq ⊢
      exact List.eq_nil_of_length_eq_zero heq

def NamesColumn (param : String) (id : UInt16) (text : List Char) : Prop :=
  ∃ idText rest, param.toList.splitOn '.' = idText :: text :: rest ∧
    id = UInt16.ofNat (parseUint 16 idText).1

theorem listsHistory_iff (text : List Char) (param : String) (hparam : NamesColumn param id text)
    (ht : s.world.tables id = some t) :
    ListsHistory e s.handler id text param t s.world ↔
      RangeAnswered e s.handler id t s.world ∧ t.rows = [] := by
  obtain ⟨idText, rest, hsplit, hid⟩ := hparam
  have hstop := queryLastSynt_le (e := e) ht
  unfold ListsHistory RangeAnswered
  have ht' : s.world.tick.tables id = some t := ht
  rcases s.handler.readRange_answer (e := e) 0 (queryLastSynt e id s.world).1 ht' with
    ⟨err, herr, hno⟩ | ⟨he, hs, _, tVec, mat, hok, hlen⟩
  · rw [historyProcess_of_error hsplit (hid ▸ herr)]
    simp only [Option.some.injEq, reduceCtorEq, false_iff]
    exact fun hyes => hno hyes.1
  · have htimes := Handler.length_phyVec_le hok
    rw [historyProcess_of_ok hsplit (hid ▸ hok), ← hid]
    simp only [Option.map_eq_some_iff, Except.ok.injEq, exists_eq_right, he, hs, true_and]
    constructor
    · intro hlist
      have hdlist := length_of_historyList? hlist
      rw [List.length_map] at hdlist
      -- the page has an entry for each row, so the range has all rows
      have hsub : (t.range 0 (queryLastSynt e id s.world).1).length ≤ t.rows.length :=
        List.length_filter_le _ _
      have hall : (t.rows.filter fun r => decide (0 ≤ r.iter)) = t.rows := by simp
      have hlen' : (t.range 0 (queryLastSynt e id s.world).1).length =
          (t.rows.filter fun r => 0 ≤ r.iter).length := by
        rw [hall]
        omega
      have hnone := (Table.length_range_eq_iff hstop).mp hlen'
      by_contra hrows
      obtain ⟨r, hr⟩ := List.exists_mem_of_ne_nil _ hrows
      exact UInt32.not_lt_zero (hnone r hr)
    · intro hrows
      have hrange : t.range 0 (queryLastSynt e id s.world).1 = [] := by simp [Table.range, hrows]
      rw [hrange, List.length_nil] at hlen
      have hnil : tVec = [] := List.eq_nil_of_length_eq_zero (by omega)
      rw [hnil, hrows]
      rfl

/-- A request up to the last record leaves the last record out: the range ends before it. Only
when there is no record to return is the answer what it should be. -/
theorem requestsToLast_and_listsHistory_iff (timeStart : UInt32) (text : List Char) (param : String)
    (hparam : NamesColumn param id text) (ht : s.world.tables id = some t) :
    (RequestsToLast e s id timeStart t ↔
      RangeAnswered e s.handler id t s.world ∧ ∀ r ∈ t.rows, r.iter < timeStart) ∧
    (ListsHistory e s.handler id text param t s.world ↔
      RangeAnswered e s.handler id t s.world ∧ t.rows = []) :=
  ⟨requestsToLast_iff e s id t timeStart ht, listsHistory_iff e s id t text param hparam ht⟩

end Last

def oneRecord : Table := ⟨1, [⟨500, 0, 0, [7]⟩]⟩

def Server.withTable (s : Server) (t : Table) : Server :=
  { s with world := { s.world with tables := Function.update s.world.tables 3 (some t) } }

theorem oneRecord_left_out :
    ¬ RequestsToLast .reliable (Server.afterInit.withTable oneRecord) 3 0 oneRecord ∧
      ¬ ListsHistory .reliable Server.afterInit.handler 3 ['0'] "3.0" oneRecord
        (Server.afterInit.withTable oneRecord).world := by
  unfold RequestsToLast ListsHistory
  decide +kernel

/-- Records before the start time are not asked for, and left out of the history. -/
theorem requestsToLast_and_listsHistory_unordered :
    RequestsToLast .reliable (Server.afterInit.withTable unorderedTable) 3 500 unorderedTable ∧
      ¬ ListsHistory .reliable Server.afterInit.handler 3 ['0'] "3.0" unorderedTable
        (Server.afterInit.withTable unorderedTable).world ∧
      ListsHistory .reliable Server.afterInit.handler 3 ['0'] "3.0" ⟨1, []⟩
        (Server.afterInit.withTable ⟨1, []⟩).world := by
  have hrecords := requestsToLast_and_listsHistory_iff .reliable
    (Server.afterInit.withTable unorderedTable) 3 unorderedTable 500 ['0'] "3.0" ⟨['3'], [], rfl, rfl⟩ rfl
  have hempty := requestsToLast_and_listsHistory_iff .reliable
    (Server.afterInit.withTable ⟨1, []⟩) 3 ⟨1, []⟩ 500 ['0'] "3.0" ⟨['3'], [], rfl, rfl⟩ rfl
  refine ⟨hrecords.1.mpr ⟨⟨rfl, by decide, by decide⟩, by decide⟩, fun hlists => ?_,
    hempty.2.mpr ⟨⟨rfl, by decide, by decide⟩, rfl⟩⟩
  cases (hrecords.2.mp hlists).2

end DRDS
