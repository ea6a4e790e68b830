import DRDS.Handler.Initializer
import Mathlib.Data.List.TakeWhile

/-! `Handler.Init`: the tables are found by their names, the shapes of the records read from an
information table. -/
namespace DRDS
open Go

/-- The error comes with -1. -/
def Utils.stringToInt (s : Text) : ℤ × Bool :=
  let (i, err) := atoi s
  if err then (-1, true) else (i, false)

/-- The digits of the first match of a word with at least one digit behind it. -/
def sniff (word : Text) : Text → Option Text
  | [] => none
  | c :: cs =>
    let digits := ((c :: cs).drop word.length).takeWhile Char.isDigit
    if word <+: c :: cs ∧ digits ≠ [] then some digits else sniff word cs

def sniffId (word tableName : Text) : Option (ℤ × Bool) :=
  (sniff word tableName).map Utils.stringToInt

/-- The fields of a handler that `Init` sets. A nil map has no keys. -/
structure Opened where
  tables : List Text
  inteTable : UInt8
  relaTable : UInt8
  infoTable : UInt8
  recordTables : List UInt16
  dataShapes : UInt16 → Option UInt8
  dataBuffer : UInt16 → Option (List Data)

namespace Opened

def new : Opened := ⟨[], 0, 0, 0, [], fun _ => none, fun _ => none⟩

def handler (h : Opened) : Handler where
  recordTables := h.recordTables
  dataShapes id := (h.dataShapes id).getD 0
  dataBuffer := h.dataBuffer

/-- The number behind one of the first three words goes into a field of one byte. An error
ends `Init` with the handler as it is. -/
def sniffField (word : Text) (set : Opened → UInt8 → Opened) (tableName : Text) (h : Opened) :
    Except Opened Opened :=
  match sniffId word tableName with
  | none => .ok h
  | some (_, true) => .error h
  | some (temp, false) => .ok (set h (UInt8.ofInt temp))

/-- The number behind `record` goes into two bytes, with its error printed only. -/
def sniffRecord (tableName : Text) (h : Opened) : Opened :=
  match sniffId "record".toList tableName with
  | none => h
  | some (temp, _) => { h with recordTables := h.recordTables ++ [UInt16.ofInt temp] }

def sniffTable (h : Opened) (tableName : Text) : Except Opened Opened := do
  let h ← sniffField "rela".toList (fun h n => { h with relaTable := n }) tableName h
  let h ← sniffField "link".toList (fun h n => { h with inteTable := n }) tableName h
  let h ← sniffField "info".toList (fun h n => { h with infoTable := n }) tableName h
  let h := sniffRecord tableName h
  pure { h with tables := h.tables ++ [tableName] }

end Opened

namespace InfoRow

/-- A cell that does not scan leaves the variable at 0; an id that does not, the size too. -/
def scanId (row : InfoRow) : UInt16 :=
  match row.dataId with
  | some n => if n < 65536 then .ofNat n else 0
  | none => 0

def scanSize (row : InfoRow) : UInt8 :=
  match row.dataId, row.dataSize with
  | some n, some k => if n < 65536 ∧ k < 256 then .ofNat k else 0
  | _, _ => 0

end InfoRow

/-- What `SHOW TABLES` answers: every table once, in any order. -/
def Database.Lists (db : Database) (listing : List Text) : Prop :=
  listing.Nodup ∧ ∀ tableName, tableName ∈ listing ↔ (db tableName).isSome

/-- `listing` answers `SHOW TABLES`. The second component tells of an error. -/
def Opened.init (listing : List Text) (db : Database) : Opened × Bool :=
  match listing.foldlM sniffTable new with
  | .error h => (h, true)
  | .ok h =>
    match (db (infoName h.infoTable)).bind DbTable.info with
    | none => (h, true)
    | some rows => ({ h with
        dataShapes := assign InfoRow.scanId (fun row => some row.scanSize) (fun _ => none) rows
        dataBuffer := fun id => if id ∈ h.recordTables then some [] else none }, false)

/-! ### What is found -/

/-- No number in the name ends `Init`. -/
def Readable (tableName : Text) : Prop :=
  ∀ word ∈ ["rela".toList, "link".toList, "info".toList], (sniffId word tableName).all (!·.2)

instance decidableReadable : DecidablePred Readable := fun _ => List.decidableBAll _ _

def recordId (tableName : Text) : Option UInt16 :=
  (sniffId "record".toList tableName).map fun temp => UInt16.ofInt temp.1

namespace Opened

def sizeIn (rows : List InfoRow) (id : UInt16) : Option UInt8 :=
  (lastWith InfoRow.scanId rows id).map InfoRow.scanSize

end Opened

/-! ### The names of the generated tables -/

theorem sniff_word {c : Char} {word digits : Text} (hdigits : ∀ d ∈ digits, d.isDigit = true)
    (hne : digits ≠ []) : sniff (c :: word) (c :: word ++ digits) = some digits := by
  have hpre : c :: word <+: c :: (word ++ digits) := List.prefix_append (c :: word) digits
  have htake : ((c :: (word ++ digits)).drop (c :: word).length).takeWhile Char.isDigit = digits := by
    simp [List.takeWhile_eq_self_iff.mpr hdigits]
  rw [List.cons_append, sniff, htake]
  simp [hpre, hne]

theorem sniffId_recordName (id : UInt16) :
    sniffId "record".toList (recordName id) = some ((id.toNat : ℤ), false) := by
  have hlt : id.toNat < 65536 := id.toNat_lt
  have hread : Utils.stringToInt (itoa id.toNat) = ((id.toNat : ℤ), false) := by
    rw [Utils.stringToInt, atoi_itoa (by omega)]
    rfl
  have hsniff : sniff "record".toList (recordName id) = some (itoa id.toNat) :=
    sniff_word (fun _ => isDigit_of_mem_itoa) (itoa_ne_nil _)
  rw [sniffId, hsniff, Option.map_some, hread]

theorem recordId_recordName (id : UInt16) : recordId (recordName id) = some id := by
  have hread : UInt16.ofInt (id.toNat : ℤ) = id := by
    apply UInt16.toNat_inj.mp
    rw [UInt16.ofInt, UInt16.toNat_ofNat']
    have hlt : id.toNat < 65536 := id.toNat_lt
    omega
  rw [recordId, sniffId_recordName, Option.map_some, hread]

end DRDS
