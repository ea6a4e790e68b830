import DRDS.Web.History

/-! The `Subscribe` goroutine of the web server, which polls one record table for one client. -/
namespace DRDS
open Go

/-- The values `writeBufferOutput` sends for one record, one for each column. -/
def writeBufferOutput (dataID : UInt16) (timestamp : UInt64) (data : List Float64) :
    List VisualData :=
  data.zipIdx.map fun (col, i) =>
    { timestamp, value := col, id := toString dataID.toNat ++ "." ++ toString i }

/-- Where the goroutine stands: before its first query, at the head of the loop, before each of
the two queries of a poll, before the values it has yet to send, and after its end. -/
inductive Subscribe.Stage where
  | begin
  | check
  | query
  | read
  | write (items : List VisualData)
  | returned (err : Option String)
  deriving DecidableEq

structure Subscribe where
  id : UInt16
  lastTime : UInt32
  currentTime : UInt32
  stage : Subscribe.Stage

namespace Subscribe

def start (id : UInt16) : Subscribe := ⟨id, 0, 0, .begin⟩

/-- What the loop sends for the vectors of a range read. There are never more times than rows
(`Handler.length_phyVec_le`), so no index is out of range. -/
def items (id : UInt16) (timeVec : List UInt64) (dataMat : List (List Float64)) :
    List VisualData :=
  (timeVec.zip dataMat).flatMap fun (t, data) => writeBufferOutput id t data

/-- A step of the goroutine, with what it sends to the channel; `none` after its end. -/
def step? (e : Env) (h : Handler) (closeSig : Bool) (s : Subscribe) (w : World) :
    Option (Option VisualData × Subscribe × World) :=
  match s.stage with
  | .begin =>
    let (lastTime, w) := queryLastSynt e s.id w
    some (none, { s with lastTime, stage := .check }, w)
  | .check => some (none, { s with stage := if closeSig then .returned none else .query }, w)
  | .query =>
    let (currentTime, w) := queryLastSynt e s.id w
    some (none, { s with currentTime, stage := .read }, w)
  | .read =>
    match h.readRange e s.id s.lastTime s.currentTime w with
    | (.error err, w) => some (none, { s with stage := .returned (some err) }, w)
    | (.ok (_, timeVec, dataMat), w) =>
      some (none, { s with stage := .write (items s.id timeVec dataMat) }, w)
  | .write (item :: rest) => some (some item, { s with stage := .write rest }, w)
  | .write [] => some (none, { s with lastTime := s.currentTime, stage := .check }, w)
  | .returned _ => none

def pending (s : Subscribe) : List VisualData :=
  match s.stage with
  | .write items => items
  | _ => []

/-- The upper bound of the ranges that have been read. -/
def bound (s : Subscribe) : UInt32 :=
  match s.stage with
  | .write _ | .returned (some _) => s.currentTime
  | _ => s.lastTime

theorem stage_of_step? {e : Env} {h : Handler} {closeSig : Bool} {s s' : Subscribe} {w w' : World}
    {item : VisualData} (hstep : s.step? e h closeSig w = some (some item, s', w')) :
    ∃ items, s.stage = .write (item :: items) := by
  unfold step? at hstep
  cases hstage : s.stage with
  | write items =>
    cases items with
    | nil => simp [hstage] at hstep
    | cons first rest =>
      simp only [hstage, Option.some.injEq, Prod.mk.injEq] at hstep
      exact ⟨rest, by rw [hstep.1]⟩
  | read =>
    simp only [hstage] at hstep
    split at hstep <;> cases hstep
  | begin | check | query | returned err => simp [hstage] at hstep

end Subscribe
end DRDS
