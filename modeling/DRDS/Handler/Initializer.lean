import DRDS.Go.Keyed
import DRDS.Go.Strconv
import DRDS.Handler.Handler

/-! The tables `DatabaseGenerator` makes of a configuration file. -/
namespace DRDS
open Go

abbrev Text := List Char

/-- An entry of the file, with the fields the statements use. -/
structure TableInfo where
  id : UInt16
  name : Text
  type : UInt16
  subtype1 : UInt16
  subtype2 : UInt16
  rate : UInt16
  size : UInt16

/-- A row of an information table: the numbers its cells read as, if they read as numbers. -/
structure InfoRow where
  dataId : Option ℕ
  dataSize : Option ℕ
  deriving DecidableEq

/-- A table of the database, with its information rows if it has `data_id` and `data_size`. -/
structure DbTable extends Table where
  info : Option (List InfoRow)
  /-- It has the columns of the CREATE TABLE of `info0`, and `data_id` for its key. -/
  keyed : Bool

abbrev Database := Text → Option DbTable

def infoName (infoTable : UInt8) : Text := "info".toList ++ itoa infoTable.toNat

def recordName (id : UInt16) : Text := "record".toList ++ itoa id.toNat

def Database.records (db : Database) (id : UInt16) : Option Table :=
  (db (recordName id)).map DbTable.toTable

/-- Ground for GCC, else the habitat: no other system comes with a database. -/
def dbName (src : UInt8) : Text := if src = 0 then "ground".toList else "habitat".toList

/-- A table that there is not is no error. -/
def dropAct (tableName : Text) : Text := "DROP TABLE IF EXISTS ".toList ++ tableName

def dropInfoAct (src : UInt8) : Text := dropAct (dbName src ++ ".".toList ++ infoName 0)

/-- The CREATE TABLE of `info0`. -/
def createInfoAct (src : UInt8) : Text :=
  "CREATE TABLE ".toList ++ dbName src ++ ".".toList ++ infoName 0 ++ " (\n".toList ++
    "            data_id INT(16) UNSIGNED NOT NULL,\n".toList ++
    "            data_name VARCHAR(128) NULL,\n".toList ++
    "            data_type INT(8) UNSIGNED NOT NULL,\n".toList ++
    "            data_subtype1 INT(8) UNSIGNED NULL,\n".toList ++
    "            data_subtype2 INT(8) UNSIGNED NULL,\n".toList ++
    "            data_rate INT(16) UNSIGNED NULL,\n".toList ++
    "            data_size INT(16) UNSIGNED NULL,\n".toList ++
    "            data_unit VARCHAR(45) NULL,\n".toList ++
    "            data_notes VARCHAR(128) NULL,\n".toList ++
    "            PRIMARY KEY (data_id),\n".toList ++
    "            UNIQUE INDEX data_id_UNIQUE (data_id ASC) VISIBLE);".toList

/-- What the CREATE TABLE of `info0` is meant for. -/
def newInfo : DbTable := ⟨⟨0, []⟩, some [], true⟩

namespace TableInfo

def quoted (text : Text) : Text := '"' :: text ++ ['"']

/-- The INSERT of an entry. The name goes into it as it is. -/
def insertAct (src : UInt8) (info : TableInfo) : Text :=
  "INSERT INTO ".toList ++ dbName src ++ ".".toList ++ infoName 0 ++
    " (data_id, data_name, data_type, data_subtype1, data_subtype2, data_rate, ".toList ++
    "data_size) VALUES\n\t\t\t\t(".toList ++
    quoted (itoa info.id.toNat) ++ ", ".toList ++ quoted info.name ++ ", ".toList ++
    quoted (itoa info.type.toNat) ++ ", ".toList ++ quoted (itoa info.subtype1.toNat) ++
    ",".toList ++ quoted (itoa info.subtype2.toNat) ++ ",".toList ++
    quoted (itoa info.rate.toNat) ++ ", ".toList ++ quoted (itoa info.size.toNat) ++ ");".toList

/-- The CREATE TABLE of an entry, with a value column for each number below its size. -/
def createAct (info : TableInfo) : Text :=
  let act := "create table `".toList ++ recordName info.id ++ "` (".toList ++
    "iter int unsigned NOT NULL,".toList ++ "send_t bigint unsigned NOT NULL,".toList ++
    "recv_t bigint unsigned NOT NULL,".toList
  let act := (List.range info.size.toNat).foldl
    (fun act i => act ++ "v".toList ++ itoa i ++ " float,".toList) act
  act.dropLast ++ ")ENGINE=InnoDB".toList

/-- The row the INSERT is meant for. -/
def row (info : TableInfo) : InfoRow := ⟨some info.id.toNat, some info.size.toNat⟩

/-- The table the CREATE TABLE is meant for. -/
def table (info : TableInfo) : DbTable := ⟨⟨info.size.toNat, []⟩, none, false⟩

/-- Nothing in the name ends the text it is quoted in, and it fits its column. -/
def Plain (info : TableInfo) : Prop :=
  (∀ c ∈ info.name, 32 ≤ c.toNat ∧ c.toNat < 127 ∧ c ≠ '"' ∧ c ≠ '\\') ∧ info.name.length ≤ 128

instance decidablePlain : DecidablePred Plain := fun _ =>
  @instDecidableAnd _ _ (List.decidableBAll _ _) (Nat.decLe _ _)

end TableInfo

/-- The database server: what it makes of the statements. -/
structure Mysql where
  /-- It takes a DROP TABLE. -/
  drops : Text → Bool
  /-- It takes a CREATE TABLE, of a table there is not. -/
  creates : Text → Bool
  /-- It takes an INSERT of values that fit. -/
  inserts : Text → Bool
  /-- The rows of `info0` after an INSERT, into the table of its CREATE TABLE or another. -/
  insertInfo : Bool → Text → List InfoRow → List InfoRow
  insertInfo_plain : ∀ src (info : TableInfo) rows, info.Plain →
    insertInfo true (info.insertAct src) rows =
      if inserts (info.insertAct src) then insertNew InfoRow.dataId rows info.row else rows

namespace Mysql
variable (m : Mysql)

/-- A DROP TABLE and a CREATE TABLE of one table, `old` what there is of it. A refused statement is
printed at most; a table that is still there is not created. -/
def renew (dropAct createAct : Text) (table : DbTable) (old : Option DbTable) : Option DbTable :=
  match if m.drops dropAct then none else old with
  | none => if m.creates createAct then some table else none
  | some kept => some kept

def createInfo (src : UInt8) (db : Database) : Database :=
  Function.update db (infoName 0)
    (m.renew (dropInfoAct src) (createInfoAct src) newInfo (db (infoName 0)))

/-- A refused statement is printed and changes nothing. -/
def insertEntry (src : UInt8) (db : Database) (info : TableInfo) : Database :=
  match db (infoName 0) with
  | some ⟨table, some rows, keyed⟩ => Function.update db (infoName 0)
      (some ⟨table, some (m.insertInfo keyed (info.insertAct src) rows), keyed⟩)
  | _ => db

def createEntry (db : Database) (info : TableInfo) : Database :=
  Function.update db (recordName info.id) (m.renew (dropAct (recordName info.id)) info.createAct
    info.table (db (recordName info.id)))

/-- The entries come in the order the file's map is read in. -/
def databaseGenerator (src : UInt8) (dataList : List TableInfo) (db : Database) : Database :=
  dataList.foldl m.createEntry (dataList.foldl (m.insertEntry src) (m.createInfo src db))

/-! ### The tables that are left -/

def infoRows (src : UInt8) (dataList : List TableInfo) (keyed : Bool) (rows : List InfoRow) :
    List InfoRow :=
  dataList.foldl (fun rows info => m.insertInfo keyed (info.insertAct src) rows) rows

def filled (src : UInt8) (dataList : List TableInfo) (table : DbTable) : DbTable :=
  { table with info := table.info.map (m.infoRows src dataList table.keyed) }

def created (info : TableInfo) : Option DbTable :=
  if m.creates info.createAct then some info.table else none

/-- The last entry decides when the old table can be dropped. Else it stays, and when there is none the
first entry that is taken decides. -/
def recordTable (dataList : List TableInfo) (id : UInt16) (old : Option DbTable) : Option DbTable :=
  if m.drops (dropAct (recordName id)) then
    ((lastWith TableInfo.id dataList id).map m.created).getD old
  else old.or ((dataList.find? fun info => info.id = id ∧ m.creates info.createAct).map TableInfo.table)

theorem recordName_injective : Function.Injective recordName := by
  intro id id' h
  have hdigits : itoa id.toNat = itoa id'.toNat := List.append_cancel_left h
  exact UInt16.toNat_inj.mp (itoa_injective hdigits)

theorem infoName_injective : Function.Injective infoName := by
  intro n n' h
  have hdigits : itoa n.toNat = itoa n'.toNat := List.append_cancel_left h
  exact UInt8.toNat_inj.mp (itoa_injective hdigits)

theorem recordName_ne_infoName (id : UInt16) (n : UInt8) : recordName id ≠ infoName n := by
  intro h
  have hhead : (recordName id).head? = (infoName n).head? := congrArg List.head? h
  revert hhead
  change some 'r' ≠ some 'i'
  decide

variable {m}

section Renew
variable {dropAct createAct : Text} (table : DbTable) (old : Option DbTable)

theorem renew_of_drops (h : m.drops dropAct) :
    m.renew dropAct createAct table old = if m.creates createAct then some table else none := by
  rw [renew, if_pos h]

theorem renew_of_not_drops (h : ¬ m.drops dropAct) : m.renew dropAct createAct table old =
    old.or (if m.creates createAct then some table else none) := by
  rw [renew, if_neg h]
  cases old with
  | none => rfl
  | some kept => rfl

end Renew

theorem insertEntry_infoName (src : UInt8) (db : Database) (info : TableInfo) :
    m.insertEntry src db info =
      Function.update db (infoName 0) ((db (infoName 0)).map (m.filled src [info])) := by
  rw [insertEntry]
  match hdb : db (infoName 0) with
  | none =>
    change db = Function.update db (infoName 0) none
    rw [← hdb, Function.update_eq_self]
  | some ⟨table, none, keyed⟩ =>
    change db = Function.update db (infoName 0) (some ⟨table, none, keyed⟩)
    rw [← hdb, Function.update_eq_self]
  | some ⟨table, some rows, keyed⟩ => rfl

theorem filled_cons (src : UInt8) (info : TableInfo) (dataList : List TableInfo) (table : DbTable) :
    m.filled src (info :: dataList) table = m.filled src dataList (m.filled src [info] table) := by
  obtain ⟨table, rows, keyed⟩ := table
  cases rows with
  | none => rfl
  | some rows => rfl

theorem foldl_insertEntry (src : UInt8) (dataList : List TableInfo) (db : Database) :
    dataList.foldl (m.insertEntry src) db =
      Function.update db (infoName 0) ((db (infoName 0)).map (m.filled src dataList)) := by
  induction dataList generalizing db with
  | nil =>
    have hfilled : m.filled src [] = id := by
      funext table
      obtain ⟨table, rows, keyed⟩ := table
      cases rows with
      | none => rfl
      | some rows => rfl
    rw [List.foldl_nil, hfilled, Option.map_id, id, Function.update_eq_self]
  | cons info dataList ih =>
    rw [List.foldl_cons, ih, insertEntry_infoName, Function.update_self, Function.update_idem,
      Option.map_map]
    congr 2
    funext table
    exact (filled_cons src info dataList table).symm

theorem foldl_createEntry_of_ne {dataList : List TableInfo} {name : Text}
    (hname : ∀ info ∈ dataList, recordName info.id ≠ name) (db : Database) :
    dataList.foldl m.createEntry db name = db name := by
  induction dataList generalizing db with
  | nil => rfl
  | cons info dataList ih =>
    rw [List.forall_mem_cons] at hname
    rw [List.foldl_cons, ih hname.2, createEntry, Function.update_of_ne hname.1.symm]

theorem recordTable_cons (info : TableInfo) (dataList : List TableInfo) (id : UInt16)
    (old : Option DbTable) : m.recordTable (info :: dataList) id old =
      m.recordTable dataList id (if info.id = id then
        m.renew (dropAct (recordName info.id)) info.createAct info.table old else old) := by
  unfold recordTable
  by_cases hid : info.id = id
  · subst hid
    rw [if_pos rfl]
    by_cases hdrops : m.drops (dropAct (recordName info.id))
    · rw [if_pos hdrops, if_pos hdrops, renew_of_drops _ _ hdrops, lastWith_cons, if_pos rfl]
      cases lastWith TableInfo.id dataList info.id with
      | none => rfl
      | some last => rfl
    · rw [if_neg hdrops, if_neg hdrops, renew_of_not_drops _ _ hdrops, Option.or_assoc,
        List.find?_cons]
      by_cases hcreates : m.creates info.createAct <;> simp [hcreates]
  · simp [lastWith_cons, hid]

theorem foldl_createEntry_recordName (dataList : List TableInfo) (db : Database) (id : UInt16) :
    dataList.foldl m.createEntry db (recordName id) =
      m.recordTable dataList id (db (recordName id)) := by
  induction dataList generalizing db with
  | nil => simp [recordTable]
  | cons info dataList ih =>
    rw [List.foldl_cons, ih, recordTable_cons, createEntry, Function.update_apply]
    simp only [recordName_injective.eq_iff, eq_comm (a := id)]
    by_cases hid : info.id = id
    · rw [if_pos hid, if_pos hid, hid]
    · rw [if_neg hid, if_neg hid]

theorem databaseGenerator_recordName (src : UInt8) (dataList : List TableInfo) (db : Database)
    (id : UInt16) : m.databaseGenerator src dataList db (recordName id) =
      m.recordTable dataList id (db (recordName id)) := by
  have hne : recordName id ≠ infoName 0 := recordName_ne_infoName id 0
  rw [databaseGenerator, foldl_createEntry_recordName, foldl_insertEntry, createInfo,
    Function.update_of_ne hne, Function.update_of_ne hne]

theorem databaseGenerator_infoName (src : UInt8) (dataList : List TableInfo) (db : Database)
    (n : UInt8) : m.databaseGenerator src dataList db (infoName n) =
      if n = 0 then (m.createInfo src db (infoName 0)).map (m.filled src dataList)
      else db (infoName n) := by
  rw [databaseGenerator, foldl_createEntry_of_ne fun info _ => recordName_ne_infoName info.id n,
    foldl_insertEntry, Function.update_apply]
  simp only [infoName_injective.eq_iff]
  split_ifs with hn
  · rfl
  · rw [createInfo, Function.update_of_ne (infoName_injective.ne hn)]

theorem infoRows_plain (src : UInt8) {dataList : List TableInfo}
    (hplain : ∀ info ∈ dataList, info.Plain) (rows : List InfoRow) :
    m.infoRows src dataList true rows =
      ((dataList.filter fun info => m.inserts (info.insertAct src)).map TableInfo.row).foldl
        (insertNew InfoRow.dataId) rows := by
  unfold infoRows
  induction dataList generalizing rows with
  | nil => rfl
  | cons info dataList ih =>
    rw [List.forall_mem_cons] at hplain
    rw [List.foldl_cons, m.insertInfo_plain src info rows hplain.1, ih hplain.2, List.filter_cons]
    split_ifs
    · rfl
    · rfl

end Mysql

/-! ### A server that reads the values between the quotes -/

theorem quote_not_mem_itoa (n : ℕ) : '"' ∉ itoa n := by
  intro h
  have hdigit := isDigit_of_mem_itoa h
  exact absurd hdigit (by decide)

/-- The first and the last of the seven values of an INSERT. -/
def insertValues (act : Text) : Option (Text × Text) :=
  match act.splitOn '"' with
  | [_, id, _, _, _, _, _, _, _, _, _, _, _, size, _] => some (id, size)
  | _ => none

theorem insertValues_insertAct (src : UInt8) {info : TableInfo} (h : '"' ∉ info.name) :
    insertValues (info.insertAct src) = some (itoa info.id.toNat, itoa info.size.toNat) := by
  have hhead : '"' ∉ "INSERT INTO ".toList ++ dbName src ++ ".".toList ++ infoName 0 ++
      " (data_id, data_name, data_type, data_subtype1, data_subtype2, data_rate, ".toList ++
      "data_size) VALUES\n\t\t\t\t(".toList := by
    unfold dbName
    split_ifs <;> decide
  have hcomma : '"' ∉ ", ".toList := by decide
  have hcomma' : '"' ∉ ",".toList := by decide
  unfold insertValues TableInfo.insertAct TableInfo.quoted
  generalize "INSERT INTO ".toList ++ dbName src ++ ".".toList ++ infoName 0 ++
      " (data_id, data_name, data_type, data_subtype1, data_subtype2, data_rate, ".toList ++
      "data_size) VALUES\n\t\t\t\t(".toList = head at *
  generalize ", ".toList = comma at *
  generalize ",".toList = comma' at *
  simp only [List.append_assoc, List.cons_append, List.nil_append]
  simp only [splitOn_append_cons, hhead, h, hcomma, hcomma', quote_not_mem_itoa, not_false_eq_true]
  rfl

/-- It refuses an INSERT that is not of seven values and takes all other statements. -/
def Mysql.literal : Mysql where
  drops _ := true
  creates _ := true
  inserts _ := true
  insertInfo _ act rows :=
    match insertValues act with
    | some (id, size) => insertNew InfoRow.dataId rows
        ⟨some (Nat.ofDigitChars 10 id 0), some (Nat.ofDigitChars 10 size 0)⟩
    | none => rows
  insertInfo_plain src info rows h := by
    have hquote : '"' ∉ info.name := fun hmem => (h.1 _ hmem).2.2.1 rfl
    rw [insertValues_insertAct src hquote]
    simp only [ofDigitChars_itoa]
    rfl

/-- The same server when it refuses the DROP of one table. -/
def Mysql.keeping (tableName : Text) : Mysql :=
  { Mysql.literal with drops := fun act => act ≠ dropAct tableName }

end DRDS
