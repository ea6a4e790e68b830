import DRDS.Go.LittleEndian
import Mathlib.Logic.Function.Basic

/-! The world outside the process: the clock, the network and the database. What it does is
fixed by the number of questions it has been asked, so an `Env` is one course of events. -/
namespace DRDS
open Go

structure Addr where
  ip : UInt32
  port : UInt16
  deriving DecidableEq

structure Env where
  /-- `time.Now().UnixMilli()` -/
  unixMilli : ℕ → UInt64
  dial : ℕ → Addr → Option String
  write : ℕ → Addr → List UInt8 → Option String
  /-- The system refuses what does not fit in a datagram. -/
  write_le : ∀ k addr buf, write k addr buf = none → buf.length ≤ 65507
  /-- Why a statement fails, if not for its table or its columns. -/
  statement : ℕ → Option String
  /-- What a `float` column answers for a value inserted as `%f`. -/
  column : Float64 → Float64

/-- Whether a datagram that fits is taken does not depend on what is in it. -/
def Env.IgnoresBytes (e : Env) : Prop :=
  ∀ k addr buf buf', buf.length ≤ 65507 → buf'.length ≤ 65507 →
    e.write k addr buf = none → e.write k addr buf' = none

/-- An outside on which everything succeeds that can. -/
def Env.reliable : Env where
  unixMilli _ := 0
  dial _ _ := none
  write _ _ buf := if buf.length ≤ 65507 then none else some "message too long"
  write_le _ _ buf h := by
    by_contra hlen
    simp [hlen] at h
  statement _ := none
  column v := v

theorem Env.reliable_ignoresBytes : Env.reliable.IgnoresBytes := by
  intro k addr buf buf' _ hfit _
  simp [reliable, hfit]

/-- `net.DialUDP("udp", nil, addr)`, which refuses a nil address. -/
def Env.dialUDP (e : Env) (k : ℕ) : Option Addr → Except String Addr
  | none => .error "dial udp: missing address"
  | some addr =>
    match e.dial k addr with
    | some err => .error err
    | none => .ok addr

structure Row where
  iter : UInt32
  sendT : UInt32
  recvT : UInt64
  values : List Float64
  deriving DecidableEq

/-- A record table: its value columns `v0, v1, ..` and its rows, oldest first. -/
structure Table where
  columns : ℕ
  rows : List Row

/-- `tables id` is the table `record<id>`, and `sent` lists the datagrams that went out. -/
structure World where
  calls : ℕ
  tables : UInt16 → Option Table
  sent : List (Addr × List UInt8)

namespace World

def tick (w : World) : World := { w with calls := w.calls + 1 }

@[simp] theorem tick_tables (w : World) : w.tick.tables = w.tables := rfl

@[simp] theorem tick_sent (w : World) : w.tick.sent = w.sent := rfl

/-- `INSERT INTO record<id> (iter,send_t,recv_t,v0,..) VALUES ..`, with so many value columns. -/
def insert (e : Env) (id : UInt16) (columns : ℕ) (rows : List Row) (w : World) :
    Option String × World :=
  match e.statement w.calls, w.tables id with
  | none, some t =>
    if columns ≤ t.columns then
      let stored := rows.map fun r => { r with values := r.values.map e.column }
      (none, { w.tick with
        tables := Function.update w.tables id (some { t with rows := t.rows ++ stored }) })
    else (some "unknown column", w.tick)
  | none, none => (some "unknown table", w.tick)
  | some err, _ => (some err, w.tick)

/-- `SELECT .. FROM record<id> WHERE ..` with value columns below `columns`; a column without
a value reads as zero. A statement that is not `wellFormed` is refused. -/
def select (e : Env) (id : UInt16) (wellFormed : Bool) (columns : ℕ) (keep : Row → Bool)
    (w : World) : Except String (List Row) × World :=
  match e.statement w.calls, w.tables id with
  | none, some t =>
    if wellFormed ∧ columns ≤ t.columns then
      (.ok ((t.rows.filter keep).map fun r =>
        { r with values := (r.values.take columns).rightpad columns 0 }), w.tick)
    else (.error "syntax error or unknown column", w.tick)
  | none, none => (.error "unknown table", w.tick)
  | some err, _ => (.error err, w.tick)

end World
end DRDS
