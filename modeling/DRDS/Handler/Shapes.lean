import DRDS.Handler.HandleData
import DRDS.Handler.Init
import Mathlib.Data.List.Find

/-! The shapes `Init` caches against the columns of the record tables. A size comes to the columns
from the last entry of its id, to the shape from the first, in a byte. -/
namespace DRDS
open Go

namespace Opened

end Opened

namespace Mysql
variable (m : Mysql) (src : UInt8) (dataList : List TableInfo) (earlier : Database)
  (listing : List Text)

/-- The size of an id in `info0`. With plain names it is that of the first entry with the id that is
taken, unless a row has the id before; in any other case the database decides. -/
def sizeOf (table : DbTable) (rows : List InfoRow) (id : UInt16) : Option UInt8 :=
  if table.keyed ∧ ∀ info ∈ dataList, info.Plain then
    ((if ∃ row ∈ rows, row.dataId = some id.toNat then none
      else dataList.find? fun info => info.id = id ∧ m.inserts (info.insertAct src)).map
        fun info => info.row.scanSize).or (Opened.sizeIn rows id)
  else Opened.sizeIn (m.infoRows src dataList table.keyed rows) id

theorem scanId_row (info : TableInfo) : info.row.scanId = info.id := by
  have hlt : info.id.toNat < 65536 := info.id.toNat_lt
  simp [InfoRow.scanId, TableInfo.row, hlt]

theorem sizeIn_infoRows (table : DbTable) (rows : List InfoRow) (id : UInt16) :
    Opened.sizeIn (m.infoRows src dataList table.keyed rows) id =
      m.sizeOf src dataList table rows id := by
  rw [sizeOf]
  by_cases hplain : table.keyed ∧ ∀ info ∈ dataList, info.Plain
  · have hkey : ∀ row ∈ (dataList.filter fun info => m.inserts (info.insertAct src)).map
        TableInfo.row, row.scanId = id ↔ row.dataId = some id.toNat := by
      intro row hrow
      obtain ⟨info, -, rfl⟩ := List.mem_map.mp hrow
      rw [scanId_row, ← UInt16.toNat_inj]
      exact Option.some_inj.symm
    have hfind : ((dataList.filter fun info => m.inserts (info.insertAct src)).map TableInfo.row).find?
        (fun row => row.dataId = some id.toNat) = (dataList.find? fun info =>
          info.id = id ∧ m.inserts (info.insertAct src)).map TableInfo.row := by
      rw [List.find?_map, List.find?_filter]
      congr 2
      funext info
      simp [TableInfo.row, UInt16.toNat_inj, Bool.and_comm]
    rw [if_pos hplain, hplain.1, infoRows_plain src hplain.2, Opened.sizeIn,
      lastWith_foldl_insertNew hkey, hfind, Option.map_or]
    congr 1
    split_ifs
    · rfl
    · exact Option.map_map ..
  · rw [if_neg hplain]

theorem sizeOf_newInfo (hplain : ∀ info ∈ dataList, info.Plain) (id : UInt16) :
    m.sizeOf src dataList newInfo [] id =
      (dataList.find? fun info => info.id = id ∧ m.inserts (info.insertAct src)).map
        fun info => info.row.scanSize := by
  rw [sizeOf, if_pos ⟨rfl, hplain⟩, if_neg (by simp)]
  exact Option.or_none

variable {m src dataList earlier listing}

end Mysql

/-! ### An empty database and plain names -/

namespace Mysql

/-- The server takes the statements about `info0` and the DROPs. -/
structure Takes (m : Mysql) (src : UInt8) (dataList : List TableInfo) : Prop where
  createInfo : m.creates (createInfoAct src)
  insert : ∀ info ∈ dataList, m.inserts (info.insertAct src)
  drop : ∀ info ∈ dataList, m.drops (dropAct (recordName info.id))

variable {m : Mysql} {src : UInt8} {dataList : List TableInfo} {listing : List Text}
  (htakes : m.Takes src dataList)
include htakes

section Listed
variable (hlist : (m.databaseGenerator src dataList fun _ => none).Lists listing)
include hlist

end Listed
end Mysql

end DRDS
