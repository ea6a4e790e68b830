import DRDS.Service.Runs

/-! A server that is started again, over the database an earlier run has left. -/
namespace DRDS
open Go Concurrency

/-- The database with other record tables. -/
def Database.withRecords (db : Database) (tables : UInt16 → Option Table) : Database := fun name =>
  match recordId name with
  | some id => if recordName id = name then (tables id).map fun t =>
        match db name with
        | some old => { old with toTable := t }
        | none => ⟨t, none, false⟩
    else db name
  | none => db name

theorem Database.withRecords_recordName (db : Database) (tables : UInt16 → Option Table) (id : UInt16) :
    (db.withRecords tables).records id = tables id := by
  rw [records, withRecords, recordId_recordName]
  dsimp only
  rw [if_pos rfl]
  cases tables id with
  | none => rfl
  | some t => cases db (recordName id) <;> rfl

theorem Database.withRecords_infoName (db : Database) (tables : UInt16 → Option Table) (n : UInt8) :
    db.withRecords tables (infoName n) = db (infoName n) := by
  unfold withRecords
  split
  · rename_i id _
    rw [if_neg (Mysql.recordName_ne_infoName id n)]
  · rfl

def OneSize (dataList : List TableInfo) : Prop :=
  ∀ a ∈ dataList, ∀ b ∈ dataList, a.id = b.id → a.size = b.size

instance decidableOneSize : DecidablePred OneSize := fun dataList =>
  inferInstanceAs (Decidable (∀ a ∈ dataList, ∀ b ∈ dataList, a.id = b.id → a.size = b.size))

theorem Opened.init_congr {db db' : Database} (listing : List Text)
    (h : ∀ n, ((db (infoName n)).bind DbTable.info).map sizeIn =
      ((db' (infoName n)).bind DbTable.info).map sizeIn) :
    init listing db = init listing db' := by
  have hshapes : ∀ rows, assign InfoRow.scanId (fun row => some row.scanSize) (fun _ => none) rows =
      sizeIn rows := by
    intro rows
    funext id
    rw [assign_apply, sizeIn]
    cases lastWith InfoRow.scanId rows id <;> rfl
  unfold init
  cases listing.foldlM sniffTable new with
  | error opened => rfl
  | ok opened =>
    have hinfo := h opened.infoTable
    dsimp only
    cases hrows : (db (infoName opened.infoTable)).bind DbTable.info with
    | none =>
      rw [hrows, Option.map_none] at hinfo
      rw [Option.map_eq_none_iff.mp hinfo.symm]
    | some rows =>
      rw [hrows, Option.map_some] at hinfo
      obtain ⟨rows', hrows', hsame⟩ := Option.map_eq_some_iff.mp hinfo.symm
      rw [hrows']
      dsimp only
      rw [hshapes, hshapes, hsame]

namespace Mysql
variable {m : Mysql} {src : UInt8} {dataList dataList' : List TableInfo}

theorem created_congr {a b : TableInfo} (hid : a.id = b.id) (hsize : a.size = b.size) :
    m.created a = m.created b := by
  unfold created TableInfo.createAct TableInfo.table
  rw [hid, hsize]

variable (hperm : dataList'.Perm dataList) (hone : OneSize dataList)
include hperm hone

theorem lastWith_created_perm (id : UInt16) :
    (lastWith TableInfo.id dataList' id).map m.created =
      (lastWith TableInfo.id dataList id).map m.created := by
  unfold lastWith
  rw [List.findRev?_eq_find?_reverse, List.findRev?_eq_find?_reverse]
  refine find?_map_congr (fun a => ?_) fun a ha b hb hka hkb => ?_
  · rw [List.mem_reverse, List.mem_reverse, hperm.mem_iff]
  · rw [List.mem_reverse, hperm.mem_iff] at ha hb
    have hid : a.id = b.id := (of_decide_eq_true hka).trans (of_decide_eq_true hkb).symm
    exact created_congr hid (hone a ha b hb hid)

omit hone in
/-- An old table that cannot be dropped stays, and what is not created once is not created again. -/
theorem recordTable_perm_of_not_drops {id : UInt16} (hdrops : ¬ m.drops (dropAct (recordName id)))
    {first old : Option DbTable}
    (hsome : (m.recordTable dataList id first).isSome → old.isSome) :
    m.recordTable dataList' id old = old := by
  rw [recordTable, if_neg hdrops] at hsome ⊢
  cases old with
  | some t => exact Option.some_or
  | none =>
    rw [Option.none_or]
    have hnone : dataList.find? (fun info => info.id = id ∧ m.creates info.createAct) = none := by
      rw [← Option.not_isSome_iff_eq_none]
      intro h
      have hcreated := hsome (by rw [Option.isSome_or, Option.isSome_map, h, Bool.or_true])
      cases hcreated
    rw [Option.map_eq_none_iff, List.find?_eq_none]
    exact fun info hinfo => List.find?_eq_none.mp hnone info (hperm.mem_iff.mp hinfo)

/-- The shapes in a new `info0` do not tell in which order its rows were inserted. -/
theorem sizeIn_infoRows_perm (hplain : ∀ info ∈ dataList, info.Plain) (id : UInt16) :
    Opened.sizeIn (m.infoRows src dataList' true []) id =
      Opened.sizeIn (m.infoRows src dataList true []) id := by
  have hplain' : ∀ info ∈ dataList', info.Plain := fun info hinfo => hplain info (hperm.mem_iff.mp hinfo)
  have hlist := m.sizeIn_infoRows src dataList newInfo [] id
  have hlist' := m.sizeIn_infoRows src dataList' newInfo [] id
  rw [sizeOf_newInfo m src _ hplain] at hlist
  rw [sizeOf_newInfo m src _ hplain'] at hlist'
  refine hlist'.trans (Eq.trans ?_ hlist.symm)
  refine find?_map_congr (fun a => hperm.mem_iff) fun a ha b hb hka hkb => ?_
  have hid : a.id = b.id := (of_decide_eq_true hka).1.trans (of_decide_eq_true hkb).1.symm
  have hsize := hone a (hperm.mem_iff.mp ha) b (hperm.mem_iff.mp hb) hid
  rw [TableInfo.row, TableInfo.row, hid, hsize]

theorem init_withRecords (hplain : ∀ info ∈ dataList, info.Plain) (hdrop : m.drops (dropInfoAct src))
    (db : Database) (listing : List Text) (tables : UInt16 → Option Table) :
    Opened.init listing (m.databaseGenerator src dataList'
        ((m.databaseGenerator src dataList db).withRecords tables)) =
      Opened.init listing (m.databaseGenerator src dataList db) := by
  refine Opened.init_congr listing fun n => ?_
  rw [databaseGenerator_infoName, Database.withRecords_infoName, databaseGenerator_infoName]
  by_cases hn : n = 0
  · rw [if_pos hn, if_pos hn, createInfo, createInfo, Function.update_self, Function.update_self,
      renew_of_drops _ _ hdrop, renew_of_drops _ _ hdrop]
    split_ifs
    · exact congrArg some (funext (sizeIn_infoRows_perm hperm hone hplain))
    · rfl
  · simp only [hn, if_false]

/-- Of the tables of the first start those that can be dropped are made anew. -/
theorem records_withRecords {db : Database} {tables : UInt16 → Option Table}
    (htables : ∀ id, ((m.databaseGenerator src dataList db).records id).isSome → (tables id).isSome) :
    (m.databaseGenerator src dataList'
        ((m.databaseGenerator src dataList db).withRecords tables)).records = fun id =>
      if id ∈ dataList.map TableInfo.id ∧ m.drops (dropAct (recordName id)) then
        (m.databaseGenerator src dataList db).records id
      else tables id := by
  have hfirst : ∀ id, (m.databaseGenerator src dataList db).records id =
      (m.recordTable dataList id (db (recordName id))).map DbTable.toTable := fun id =>
    congrArg (Option.map DbTable.toTable) (databaseGenerator_recordName src dataList db id)
  funext id
  have hold := Database.withRecords_recordName (m.databaseGenerator src dataList db) tables id
  have hkept := htables id
  rw [hfirst, Option.isSome_map, ← hold, Database.records, Option.isSome_map] at hkept
  rw [Database.records] at hold
  rw [Database.records, databaseGenerator_recordName, hfirst]
  by_cases hdrops : m.drops (dropAct (recordName id))
  · rw [recordTable, if_pos hdrops, lastWith_created_perm hperm hone]
    cases hlast : lastWith TableInfo.id dataList id with
    | none =>
      have hnot : id ∉ dataList.map TableInfo.id := by
        intro hid
        obtain ⟨info, hinfo, hkey⟩ := List.mem_map.mp hid
        exact lastWith_eq_none.mp hlast info hinfo hkey
      rw [if_neg fun h => hnot h.1]
      exact hold
    | some info =>
      have hid : id ∈ dataList.map TableInfo.id :=
        List.mem_map.mpr ⟨info, mem_of_lastWith hlast, key_of_lastWith hlast⟩
      rw [if_pos ⟨hid, hdrops⟩, recordTable, if_pos hdrops, hlast]
      rfl
  · rw [if_neg fun h => hdrops h.2, recordTable_perm_of_not_drops hperm hdrops hkept]
    exact hold

end Mysql

namespace Server
open Service
variable {m : Mysql} {systemID systemID' : List UInt8} {resolve : String → Except String Addr}
  {listing : List Text} {db : Database} {src : UInt8} {dataList dataList' : List TableInfo} {s : Server}

/-- A start over the tables of another makes those of the configuration anew that can be dropped. -/
theorem init?_withRecords (hperm : dataList'.Perm dataList) (hone : OneSize dataList)
    (hplain : ∀ info ∈ dataList, info.Plain) (hdrop : m.drops (dropInfoAct src))
    (tables : UInt16 → Option Table)
    (hinit : init? systemID resolve listing (m.databaseGenerator src dataList db) src = some s)
    (htables : ∀ id, (s.world.tables id).isSome → (tables id).isSome) :
    init? systemID resolve listing (m.databaseGenerator src dataList'
        ((m.databaseGenerator src dataList db).withRecords tables)) src =
      some { s with world := ⟨0, fun id =>
        if id ∈ dataList.map TableInfo.id ∧ m.drops (dropAct (recordName id)) then s.world.tables id
        else tables id, []⟩ } := by
  have hshapes := Mysql.init_withRecords hperm hone hplain hdrop db listing tables
  have hfirst : s.world.tables = (m.databaseGenerator src dataList db).records := by
    rw [init?_world hinit]
  have hrecords := Mysql.records_withRecords hperm hone (hfirst ▸ htables)
  rw [hfirst, ← hrecords]
  unfold init? at hinit ⊢
  rw [hshapes]
  split at hinit
  · cases hinit
    rfl
  · cases hinit

/-- After any run the server can be started again, with the maps of systems and of entries in any order:
it is the server of the first start, with the tables of the configuration that MySQL drops empty again,
and all that is stored in other tables still there. -/
theorem restart_renews {g : Slice.Growth} {e : Env} {subs : List (UInt16 × UInt8)}
    {consumers producers : ℕ} {now : UInt16 → ℤ} {ms : List (Move Input)} {P : Pool Service Goroutine}
    (hsystem : systemID.Perm Utils.systemID) (hsystem' : systemID'.Perm Utils.systemID)
    (hperm : dataList'.Perm dataList) (hone : OneSize dataList) (hplain : ∀ info ∈ dataList, info.Plain)
    (hdrop : m.drops (dropInfoAct src))
    (hinit : init? systemID resolve listing (m.databaseGenerator src dataList db) src = some s)
    (hrun : (launch g e s subs consumers producers now).run? (setting g e) ms = some P) :
    ∃ t, init? systemID' resolve listing (m.databaseGenerator src dataList'
        ((m.databaseGenerator src dataList db).withRecords P.shared.server.world.tables)) src = some t ∧
      t = { s with world := t.world } ∧
      (∀ id ∈ dataList.map TableInfo.id, m.drops (dropAct (recordName id)) →
        t.world.tables id = s.world.tables id ∧ t.world.rows id = []) ∧
      ∀ id, (id ∈ dataList.map TableInfo.id → ¬ m.drops (dropAct (recordName id))) →
        t.world.tables id = P.shared.server.world.tables id ∧ s.world.rows id <+: t.world.rows id := by
  have hnone : (launch g e s subs consumers producers now).run? (setting g e) [] =
      some (launch g e s subs consumers producers now) := rfl
  have hlater := run_later (init?_fresh hinit) hnone hrun
  have htables : ∀ id, (s.world.tables id).isSome → (P.shared.server.world.tables id).isSome := by
    intro id hsome
    have hcolumns := congrArg Option.isSome (hlater.columns id)
    rw [Option.isSome_map, Option.isSome_map] at hcolumns
    exact hcolumns.trans hsome
  have hrestart := init?_withRecords hperm hone hplain hdrop _ hinit htables
  rw [← init?_perm hsystem hsystem'] at hrestart
  refine ⟨_, hrestart, rfl, fun id hid hdrops => ?_, fun id hid => ?_⟩
  · obtain ⟨info, hinfo, rfl⟩ := List.mem_map.mp hid
    have hempty : s.world.rows info.id = [] := by
      rw [init?_world hinit]
      exact (rows_databaseGenerator m hinfo).trans (if_pos hdrops)
    refine ⟨if_pos ⟨hid, hdrops⟩, ?_⟩
    rw [← hempty, World.rows, World.rows]
    dsimp only
    rw [if_pos ⟨hid, hdrops⟩]
  · have hkept : ¬ (id ∈ dataList.map TableInfo.id ∧ m.drops (dropAct (recordName id))) :=
      fun h => hid h.1 h.2
    refine ⟨if_neg hkept, ?_⟩
    rw [World.rows, World.rows]
    dsimp only
    rw [if_neg hkept]
    exact hlater.rows id

/-- `recordRun` beside the loop of one more record table. -/
def recordRunBeside : List (Move Input) :=
  recordRun.map fun move =>
    match move with
    | .thread (i + 1) n => .thread (i + 2) n
    | move => move

/-- A record of data id 3 is forwarded and stored, and lost with the restart; that of data id 4, whose
table cannot be dropped, is still there. -/
theorem restart_renews_twoTables : ∃ s P t,
    init? Utils.systemID (fun _ => .ok ⟨0x7f000001, 20001⟩) twoTables ((Mysql.keeping
      (recordName 4)).databaseGenerator 1 [valueEntry 3, valueEntry 4] earlierTables) 1 = some s ∧
    (launch .tight .reliable s [(3, 2)] 1 1 fun _ => 0).run? (setting .tight .reliable) recordRunBeside =
      some P ∧
    P.shared.server.world.sent.length = 2 ∧ (P.shared.server.world.rows 3).length = 1 ∧
    (s.world.rows 4).length = 1 ∧
    init? Utils.systemID.reverse (fun _ => .ok ⟨0x7f000001, 20001⟩) twoTables ((Mysql.keeping
      (recordName 4)).databaseGenerator 1 [valueEntry 4, valueEntry 3]
        (((Mysql.keeping (recordName 4)).databaseGenerator 1 [valueEntry 3, valueEntry 4]
          earlierTables).withRecords P.shared.server.world.tables)) 1 = some t ∧
    t = { s with world := t.world } ∧ t.world.rows 3 = [] ∧
    t.world.tables 4 = P.shared.server.world.tables 4 ∧ s.world.rows 4 <+: t.world.rows 4 := by
  have hstart : (init? Utils.systemID (fun _ => .ok ⟨0x7f000001, 20001⟩) twoTables
      ((Mysql.keeping (recordName 4)).databaseGenerator 1 [valueEntry 3, valueEntry 4]
        earlierTables) 1).any fun s =>
        ((launch .tight .reliable s [(3, 2)] 1 1 fun _ => 0).run? (setting .tight .reliable)
          recordRunBeside).any fun P => P.shared.server.world.sent.length = 2 ∧
            (P.shared.server.world.rows 3).length = 1 ∧ (s.world.rows 4).length = 1 := by
    decide +kernel
  obtain ⟨s, hinit, hstart⟩ := (Option.any_eq_true _ _).mp hstart
  obtain ⟨P, hrun, hends⟩ := (Option.any_eq_true _ _).mp hstart
  have hends := of_decide_eq_true hends
  obtain ⟨t, ht, hsame, hempty, hkept⟩ := restart_renews (.refl _) (List.reverse_perm _)
    (List.Perm.swap (valueEntry 3) (valueEntry 4) []) (by decide) (by decide) (by decide) hinit hrun
  refine ⟨s, P, t, hinit, hrun, hends.1, hends.2.1, hends.2.2, ht, hsame, ?_, hkept 4 fun _ => by decide⟩
  exact (hempty 3 (by decide) (by decide)).2

end Server
end DRDS
