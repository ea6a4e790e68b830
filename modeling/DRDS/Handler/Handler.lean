import DRDS.Env
import DRDS.Utils

/-! The data handler: record tables behind write buffers, and the reads the services use. -/
namespace DRDS
open Go

structure Data where
  iter : UInt32
  sendT : UInt32
  value : List Float64
  deriving DecidableEq

/-- The fields `Init` sets and the channels. A key missing from `DataShapes` reads as 0, one
missing from `DataBuffer` as a nil channel. -/
structure Handler where
  recordTables : List UInt16
  dataShapes : UInt16 → UInt8
  dataBuffer : UInt16 → Option (List Data)

/-! ### Writes -/

def Handler.Shaped (h : Handler) (id : UInt16) (data : Data) : Prop :=
  data.value.length = (h.dataShapes id).toNat

instance (h : Handler) (id : UInt16) : DecidablePred (h.Shaped id) := fun _ =>
  inferInstanceAs (Decidable (_ = _))

/-- One tuple of the statement `WriteRange` builds. -/
def Handler.fillin (h : Handler) (id : UInt16) (recvT : UInt64) (data : Data) :
    Except String Row :=
  if h.Shaped id data then .ok ⟨data.iter, data.sendT, recvT, data.value⟩
  else
    let got := data.value.length
    let shape := (h.dataShapes id).toNat
    .error s!"[!] Data #{id} has inconsistent data shape {got} rather than {shape}"

/-- The first record of another shape ends the call, before any statement is issued. -/
def Handler.writeRange (e : Env) (h : Handler) (id : UInt16) (dataVec : List Data) (w : World) :
    Option String × World :=
  if Utils.uint16Contains h.recordTables id then
    match dataVec.mapM (h.fillin id (e.unixMilli w.calls)) with
    | .error err => (some err, w.tick)
    | .ok rows => w.tick.insert e id (h.dataShapes id).toNat rows
  else (none, w)

def Handler.writeToBuffer (h : Handler) (id : UInt16) (data : Data) : Option String × Handler :=
  match h.dataBuffer id with
  | none => (none, h)
  | some queue =>
    if Utils.buffLen ≤ queue.length then (some "buffer is full", h)
    else (none, { h with dataBuffer := Function.update h.dataBuffer id (some (queue ++ [data])) })

/-! ### Reads -/

/-- The number of scan targets for `n` columns, counted in a byte. -/
def scanTargets (columnSize : UInt8) (n : UInt8) : ℕ := (columnSize + n).toNat

/-- A row that cannot be scanned counts as no row. -/
def Handler.readSynt (e : Env) (h : Handler) (id : UInt16) (synt : UInt32) (w : World) :
    (UInt64 × List Float64 × Option String) × World :=
  let columnSize := h.dataShapes id
  match w.select e id (0 < columnSize) columnSize.toNat (·.iter = synt) with
  | (.ok (row :: _), w) =>
    if scanTargets columnSize 1 = columnSize.toNat + 1 then ((row.recvT, row.values, none), w)
    else ((0, [], none), w)
  | (_, w) => ((0, [], none), w)

/-- What one row of a range read adds to the three vectors. Targets that do not match the
columns are left unset, and unset targets parse to zero. -/
def scanRow (dataSize : UInt8) (row : Row) : List UInt32 × List UInt64 × List Float64 :=
  let targets := scanTargets dataSize 2
  if targets = dataSize.toNat + 2 then ([row.iter], [row.recvT], row.values)
  else (.replicate (min 1 (targets - 1)) 0, .replicate (min 1 targets) 0,
    .replicate (targets - 2) 0)

def Handler.readRange (e : Env) (h : Handler) (id : UInt16) (start stop : UInt32) (w : World) :
    Except String (List UInt32 × List UInt64 × List (List Float64)) × World :=
  let dataSize := h.dataShapes id
  match w.select e id (0 < dataSize) dataSize.toNat (fun r => start ≤ r.iter ∧ r.iter < stop) with
  | (.error err, w) => (.error err, w)
  | (.ok rows, w) =>
    let scans := rows.map (scanRow dataSize)
    (.ok (scans.flatMap (·.1), scans.flatMap (·.2.1), scans.map (·.2.2)), w)

/-- `ORDER BY iter DESC LIMIT 1`; no answer counts as time 0. -/
def queryLastSynt (e : Env) (id : UInt16) (w : World) : UInt32 × World :=
  match w.select e id true 0 (fun _ => true) with
  | (.ok rows, w) => (((rows.map Row.iter).max?).getD 0, w)
  | (.error _, w) => (0, w)

end DRDS
