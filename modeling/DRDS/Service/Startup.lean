import DRDS.Handler.Reads
import DRDS.Handler.Shapes
import DRDS.Server.Server

/-! The start of a server: its clients and their addresses, its database and its empty registers. -/
namespace DRDS
open Go

def Database.rows (db : Database) (id : UInt16) : List Row := ((db.records id).map Table.rows).getD []

namespace Server

/-- `Type`, which names the environment variables of a server. -/
def typeOf (src : UInt8) : String := if src = 1 then "HABITAT" else if src = 0 then "GROUND" else ""

/-- `AllClientSystemID`. The map `SYSTEM_ID` is gone through in any order. -/
def initID (systemID : List UInt8) (src : UInt8) : List UInt8 := systemID.filter (· ≠ src)

/-- `AllLocalAddr` and `AllClientAddr`, with what `net.ResolveUDPAddr` makes of each variable. The first
that does not resolve ends it. -/
def initAddr (resolve : String → Except String Addr) (src : UInt8) (allClientSystemID : List UInt8) :
    Except String (List Addr × (UInt8 → Option Addr)) :=
  let type := typeOf src
  match resolve ("DS_LOCAL_ADDR_" ++ type), resolve ("DS_LOCAL_LOOP_" ++ type),
    resolve ("DS_REMOTE_ADDR_" ++ type), resolve ("DS_REMOTE_LOOP_" ++ type) with
  | .error _, _, _, _ => .error s!"unable to resolve local address for {type}"
  | .ok _, .error _, _, _ => .error "unable to resolve local loop"
  | .ok _, .ok _, .error _, _ => .error s!"unable to resolve remote address for {type}"
  | .ok _, .ok _, .ok _, .error _ => .error "unable to resolve remote loop"
  | .ok localAddrNet, .ok localAddrLoop, .ok remoteAddr, .ok remoteAddrLoop =>
    let allClientAddr := assign id (fun _ => some remoteAddr) (fun _ => none) allClientSystemID
    .ok ([localAddrNet, localAddrLoop], Function.update allClientAddr src (some remoteAddrLoop))

/-- `Init`; `none` is an error of its parts. `listing` answers `SHOW TABLES`. -/
def init? (systemID : List UInt8) (resolve : String → Except String Addr) (listing : List Text)
    (db : Database) (src : UInt8) : Option Server :=
  match initAddr resolve src (initID systemID src), Opened.init listing db with
  | .ok (_, allClientAddr), (opened, false) => some {
      handler := opened.handler
      localSystemID := src
      allClientAddr
      sequence := 0
      publisherRegister := fun _ => []
      subscriberRegister := fun _ => []
      world := ⟨0, db.records, []⟩ }
  | _, _ => none

/-- No records are queued, no client has come and nothing is sent. -/
structure Fresh (s : Server) : Prop where
  queues : ∀ id queue, s.handler.dataBuffer id = some queue → queue = []
  subscribers : ∀ id, s.subscriberRegister id = []
  sent : s.world.sent = []

section Init
variable {systemID : List UInt8} {resolve : String → Except String Addr} {listing : List Text}
  {db : Database} {src : UInt8} {s : Server}

theorem mem_initID (hsystem : systemID.Perm Utils.systemID) (dst : UInt8) :
    dst ∈ initID systemID src ↔ Utils.isValidSystemID dst ∧ dst ≠ src := by
  rw [initID, List.mem_filter, hsystem.mem_iff, Utils.isValidSystemID, List.any_eq_true]
  simp

theorem assign_const {κ ν : Type} [DecidableEq κ] (v : ν) (keys : List κ) (k : κ) :
    assign id (fun _ => some v) (fun _ => none) keys k = if k ∈ keys then some v else none := by
  rw [assign_apply]
  cases hlast : lastWith id keys k with
  | none =>
    have hnot : k ∉ keys := fun hk => lastWith_eq_none.mp hlast k hk rfl
    rw [if_neg hnot]
    rfl
  | some a =>
    have hk : k ∈ keys := by
      by_contra hnot
      have hnone : lastWith id keys k = none := lastWith_eq_none.mpr fun b hb hbk => hnot (hbk ▸ hb)
      cases hnone.symm.trans hlast
    rw [if_pos hk]
    rfl

theorem initAddr_congr {clients clients' : List UInt8} (h : ∀ dst, dst ∈ clients ↔ dst ∈ clients') :
    initAddr resolve src clients = initAddr resolve src clients' := by
  have hassign : ∀ remote : Addr, assign id (fun _ => some remote) (fun _ => none) clients =
      assign id (fun _ => some remote) (fun _ => none) clients' := by
    intro remote
    funext dst
    rw [assign_const, assign_const]
    exact if_congr (h dst) rfl rfl
  unfold initAddr
  simp only [hassign]

theorem init_dataBuffer {opened : Opened} (h : Opened.init listing db = (opened, false)) (id : UInt16)
    {queue : List Data} (hqueue : opened.dataBuffer id = some queue) : queue = [] := by
  unfold Opened.init at h
  split at h
  · cases h
  · split at h
    · cases h
    · cases h
      dsimp only at hqueue
      split_ifs at hqueue
      cases hqueue
      rfl

/-- A table of the configuration holds nothing when the old one can be dropped, else what it held. -/
theorem rows_databaseGenerator (m : Mysql) {dataList : List TableInfo} {info : TableInfo}
    (hinfo : info ∈ dataList) :
    (m.databaseGenerator src dataList db).rows info.id =
      if m.drops (dropAct (recordName info.id)) then [] else db.rows info.id := by
  rw [Database.rows, Database.records, Mysql.databaseGenerator_recordName, Mysql.recordTable,
    Database.rows, Database.records]
  split_ifs with hdrops
  · cases hlast : lastWith TableInfo.id dataList info.id with
    | none => exact absurd rfl (lastWith_eq_none.mp hlast info hinfo)
    | some last =>
      rw [Option.map_some, Option.getD_some, Mysql.created]
      split_ifs
      · rfl
      · rfl
  · cases db (recordName info.id) with
    | some old => rfl
    | none =>
      rw [Option.none_or]
      cases dataList.find? _ with
      | none => rfl
      | some first => rfl

theorem init?_world (hinit : init? systemID resolve listing db src = some s) :
    s.world = ⟨0, db.records, []⟩ := by
  unfold init? at hinit
  split at hinit
  · cases hinit
    rfl
  · cases hinit

theorem init?_fresh (hinit : init? systemID resolve listing db src = some s) : s.Fresh := by
  unfold init? at hinit
  split at hinit
  · rename_i _ _ _ opened _ hopened
    cases hinit
    exact ⟨fun id queue => init_dataBuffer hopened id, fun _ => rfl, rfl⟩
  · cases hinit

/-- The order of the map of systems makes no difference. -/
theorem init?_perm {systemID' : List UInt8} (hsystem : systemID.Perm Utils.systemID)
    (hsystem' : systemID'.Perm Utils.systemID) :
    init? systemID' resolve listing db src = init? systemID resolve listing db src := by
  rw [init?, init?, initAddr_congr fun dst =>
    (mem_initID hsystem' dst).trans (mem_initID hsystem dst).symm]

end Init

def valueEntry (id : UInt16) : TableInfo := ⟨id, "valve".toList, 1, 0, 0, 1, 1⟩

def twoTables : List Text := [infoName 0, recordName 3, recordName 4]

/-- What an earlier start has left: a record each of the data ids 3 and 4. -/
def earlierTables : Database := fun tableName =>
  if tableName = recordName 3 ∨ tableName = recordName 4 then
    some ⟨⟨1, [⟨500, 0, 0, [7]⟩]⟩, none, false⟩
  else none

end Server
end DRDS
