import DRDS.Go.Strconv
import DRDS.Server.SendPkt

/-! The set-point commands of the web server, which are forwarded to their destination and stored. -/
namespace DRDS
open Go

/-- The body of a request: it cannot be read, it is not the JSON of a command, or it has a number and
numbers, or lacks them. -/
inductive Body where
  | unreadable (err : String)
  | malformed (err : String)
  | object (dst : Option ℤ) (values : Option (List Float64))

/-- `Dst` and `Values` of the message, which are zero without the fields. -/
def Body.message : Body → Except String (UInt8 × List Float64)
  | .unreadable err => .error err
  | .malformed err => .error err
  | .object dst values =>
    let dst := dst.getD 0
    if 0 ≤ dst ∧ dst < 2 ^ 8 then .ok (.ofInt dst, values.getD [])
    else .error s!"json: cannot unmarshal number {dst} into Go struct field .dst of type uint8"

/-- The checks before anything is done. -/
def command? (param : String) (body : Body) : Except String (ℤ × UInt8 × List Float64) :=
  match atoi param.toList with
  | (_, true) => .error s!"strconv.Atoi: parsing {param}"
  | (id, false) =>
    match body.message with
    | .error err => .error err
    | .ok (dst, values) =>
      if Utils.isValidSystemID dst then .ok (id, dst, values)
      else .error s!"invalid destination: {dst}"

/-- `none` is the answer that the command was received and forwarded. -/
def commandProcess (e : Env) (param : String) (body : Body) (s : Server) : Option String × Server :=
  match command? param body with
  | .error err => (some err, s)
  | .ok (id, dst, values) =>
    match s.sendPkt e dst Utils.priorityNormal Utils.reserved.toUInt32 Utils.flagSingle (.ofInt id)
      [values] with
    | (some err, s) => (some err, s)
    | (none, s) =>
      let physicalTime := (e.unixMilli s.world.calls / 1000).toUInt32
      { s with world := s.world.tick }.send (.ofInt id) Utils.reserved.toUInt32 physicalTime values

/-! ### All or nothing -/

def CarriesValues (buf : List UInt8) (n : ℤ) (values : List Float64) : Prop :=
  ∃ p f, Server.fromServiceBuf? (.ofList buf) = some p ∧ p.subpackets = [f] ∧
    f.dataID.toNat = n ∧ f.payload.toList = Server.payloadFloat2Buf values

/-- One datagram is sent to the destination and one record enqueued, both of the number. -/
structure CommandDone (n : ℤ) (dst : UInt8) (values : List Float64) (s t : Server) : Prop where
  sent : ∃ addr buf, s.allClientAddr dst = some addr ∧
    t.world.sent = s.world.sent ++ [(addr, buf)] ∧ CarriesValues buf n values
  enqueued : ∃ (id : UInt16) (queue : List Data) (data : Data), id.toNat = n ∧
    s.handler.dataBuffer id = some queue ∧ data.value = values ∧
      t.handler.dataBuffer = Function.update s.handler.dataBuffer id (some (queue ++ [data]))

structure CommandUndone (s t : Server) : Prop where
  sent : t.world.sent = s.world.sent
  dataBuffer : t.handler.dataBuffer = s.handler.dataBuffer

def AllOrNothing (e : Env) (param : String) (body : Body) (s : Server) : Prop :=
  match commandProcess e param body s with
  | (some _, t) => CommandUndone s t
  | (none, t) => ∃ n dst values, command? param body = .ok (n, dst, values) ∧
    CommandDone n dst values s t

/-- A command that goes out is of a data id in range with a channel that has room, and a byte counts
its values. -/
def CommandServed (e : Env) (param : String) (body : Body) (s : Server) : Prop :=
  ∀ n dst values, command? param body = .ok (n, dst, values) →
    Server.Reached e s dst (s.world.calls + 1) → 30 + 8 * values.length ≤ 65507 →
      0 ≤ n ∧ n < 2 ^ 16 ∧ values.length < 2 ^ 8 ∧
        ∃ queue, s.handler.dataBuffer (.ofInt n) = some queue ∧ queue.length < Utils.buffLen

theorem toNat_ofInt_iff {n : ℤ} : (UInt16.ofInt n).toNat = n ↔ 0 ≤ n ∧ n < 2 ^ 16 := by
  rw [UInt16.ofInt, UInt16.toNat_ofNat']
  omega

theorem eq_ofInt_of_toNat_eq {id : UInt16} {n : ℤ} (h : id.toNat = n) : id = .ofInt n := by
  have hlt := id.toNat_lt
  have hn : ((UInt16.ofInt n).toNat : ℤ) = n := toNat_ofInt_iff.mpr (by omega)
  exact UInt16.toNat_inj.mp (by omega)

section Sent
variable {e : Env} {s : Server} {dst priority : UInt8} {synt : UInt32} {flag : UInt8} {n : ℤ}
  {values : List Float64}

theorem carriesValues_dataPkt_iff :
    CarriesValues (Server.toServiceBuf (s.dataPkt e dst priority synt flag (.ofInt n) [values])) n
      values ↔ (0 ≤ n ∧ n < 2 ^ 16) ∧ values.length < 2 ^ 8 := by
  obtain ⟨p, f, hp, hsubs, hid, hpayload⟩ :=
    Server.decodes_row e s dst priority synt flag (.ofInt n) values
  have hlen := Server.length_payloadFloat2Buf values
  constructor
  · rintro ⟨p', f', hp', hsubs', hn, hvalues⟩
    obtain rfl := Option.some.inj (hp.symm.trans hp')
    obtain rfl := List.singleton_inj.mp (hsubs.symm.trans hsubs')
    refine ⟨toNat_ofInt_iff.mp (hid ▸ hn), ?_⟩
    have htake := congrArg List.length (hpayload.symm.trans hvalues)
    rw [List.length_take, hlen] at htake
    omega
  · rintro ⟨hn, hlt⟩
    refine ⟨p, f, hp, hsubs, hid ▸ toNat_ofInt_iff.mpr hn, ?_⟩
    rw [hpayload, List.take_of_length_le]
    omega

theorem carriesValues_dataPkt (id : UInt16) (hlt : values.length < 2 ^ 8) :
    CarriesValues (Server.toServiceBuf (s.dataPkt e dst priority synt flag id [values])) id.toNat
      values := by
  have hid : id = .ofInt id.toNat := eq_ofInt_of_toNat_eq rfl
  have hrange : (0 : ℤ) ≤ id.toNat ∧ (id.toNat : ℤ) < 2 ^ 16 := toNat_ofInt_iff.mp (by rw [← hid])
  have hcarries : CarriesValues (Server.toServiceBuf (s.dataPkt e dst priority synt flag
      (.ofInt id.toNat) [values])) id.toNat values := carriesValues_dataPkt_iff.mpr ⟨hrange, hlt⟩
  rwa [← hid] at hcarries

end Sent

section Process
variable {e : Env} {param : String} {body : Body} {s t : Server} {n : ℤ} {dst : UInt8}
  {values : List Float64} (hcommand : command? param body = .ok (n, dst, values))
include hcommand

theorem commandProcess_refused {err : String} (hsend : s.sendPkt e dst Utils.priorityNormal
    Utils.reserved.toUInt32 Utils.flagSingle (.ofInt n) [values] = (some err, t)) :
    commandProcess e param body s = (some err, t) := by
  rw [commandProcess, hcommand]
  dsimp only
  rw [hsend]

/-- The record of a command that went out has time 0. -/
theorem commandProcess_sent (hsend : s.sendPkt e dst Utils.priorityNormal
    Utils.reserved.toUInt32 Utils.flagSingle (.ofInt n) [values] = (none, t)) :
    commandProcess e param body s = { t with world := t.world.tick }.writeToBuffer (.ofInt n)
      ⟨0, (e.unixMilli t.world.calls / 1000).toUInt32, values⟩ := by
  rw [commandProcess, hcommand]
  dsimp only
  rw [hsend]
  rfl

theorem commandProcess_accepted (haccepted : commandProcess e param body s = (none, t)) :
    ∃ sendT : UInt32, (s.handler.writeToBuffer (.ofInt n) ⟨0, sendT, values⟩).1 = none ∧
      t.handler = (s.handler.writeToBuffer (.ofInt n) ⟨0, sendT, values⟩).2 ∧
      t.world.tables = s.world.tables := by
  rcases Server.transmit_cases e dst (Server.toServiceBuf (s.dataPkt e dst Utils.priorityNormal
    Utils.reserved.toUInt32 Utils.flagSingle (.ofInt n) [values])) s.numbered with
    ⟨err, w, hsend, _⟩ | ⟨addr, w, hsend, htables, _⟩
  · cases haccepted.symm.trans (commandProcess_refused hcommand hsend)
  · have hstored := haccepted.symm.trans (commandProcess_sent hcommand hsend)
    exact ⟨_, (congrArg Prod.fst hstored).symm, congrArg (fun r => r.2.handler) hstored,
      (congrArg (fun r => r.2.world.tables) hstored).trans htables⟩

section Sent
variable {addr : Addr} {w : World} {queue : List Data}
  (hsend : s.sendPkt e dst Utils.priorityNormal Utils.reserved.toUInt32 Utils.flagSingle (.ofInt n)
    [values] = (none, { s.numbered with world := w }))
  (hsent : w.sent = s.world.sent ++ [(addr, Server.toServiceBuf (s.dataPkt e dst
    Utils.priorityNormal Utils.reserved.toUInt32 Utils.flagSingle (.ofInt n) [values]))])
include hsend

/-- Without a channel the record is dropped and there is no error. -/
theorem not_allOrNothing_of_none (hqueue : s.handler.dataBuffer (.ofInt n) = none) :
    ¬ AllOrNothing e param body s := by
  rw [AllOrNothing, commandProcess_sent hcommand hsend, Server.writeToBuffer, Handler.writeToBuffer]
  dsimp only [Server.numbered]
  rw [hqueue]
  rintro ⟨_, _, _, heq, _, id, queue, _, hid, hsome, _⟩
  cases hcommand.symm.trans heq
  rw [eq_ofInt_of_toNat_eq hid, hqueue] at hsome
  cases hsome

include hsent

/-- The error of a full channel comes after the datagram. -/
theorem not_allOrNothing_of_full (hqueue : s.handler.dataBuffer (.ofInt n) = some queue)
    (hfull : Utils.buffLen ≤ queue.length) : ¬ AllOrNothing e param body s := by
  have hdatagram : w.sent ≠ s.world.sent := by simp [hsent]
  rw [AllOrNothing, commandProcess_sent hcommand hsend, Server.writeToBuffer, Handler.writeToBuffer]
  dsimp only [Server.numbered]
  rw [hqueue]
  dsimp only
  rw [if_pos hfull]
  exact fun hundone => hdatagram hundone.sent

theorem allOrNothing_of_room_iff (haddr : s.allClientAddr dst = some addr)
    (hqueue : s.handler.dataBuffer (.ofInt n) = some queue)
    (hroom : queue.length < Utils.buffLen) :
    AllOrNothing e param body s ↔ (0 ≤ n ∧ n < 2 ^ 16) ∧ values.length < 2 ^ 8 := by
  rw [AllOrNothing, commandProcess_sent hcommand hsend, Server.writeToBuffer, Handler.writeToBuffer]
  dsimp only [Server.numbered]
  rw [hqueue]
  dsimp only
  rw [if_neg (Nat.not_le_of_lt hroom)]
  constructor
  · rintro ⟨_, _, _, heq, ⟨addr', buf, _, hsent', hcarries⟩, _⟩
    cases hcommand.symm.trans heq
    cases List.append_cancel_left (hsent.symm.trans hsent')
    exact carriesValues_dataPkt_iff.mp hcarries
  · rintro ⟨hrange, hlen⟩
    exact ⟨n, dst, values, hcommand,
      ⟨addr, _, haddr, hsent, carriesValues_dataPkt_iff.mpr ⟨hrange, hlen⟩⟩,
      .ofInt n, queue, _, toNat_ofInt_iff.mpr hrange, hqueue, rfl, rfl⟩

end Sent

/-- Of a command that goes out nothing can be taken back. -/
theorem allOrNothing_sent_iff (he : e.IgnoresBytes)
    (hreach : Server.Reached e s dst (s.world.calls + 1)) (hfit : 30 + 8 * values.length ≤ 65507) :
    AllOrNothing e param body s ↔ 0 ≤ n ∧ n < 2 ^ 16 ∧ values.length < 2 ^ 8 ∧
      ∃ queue, s.handler.dataBuffer (.ofInt n) = some queue ∧ queue.length < Utils.buffLen := by
  rcases Server.sendPkt_cases he Utils.priorityNormal Utils.reserved.toUInt32 Utils.flagSingle
    (.ofInt n) [values] with ⟨_, _, _, _, _, hno⟩ | ⟨addr, w, hsend, _, haddr, hsent, _⟩
  · exact absurd ⟨hreach, by rwa [List.flatten_singleton]⟩ hno
  cases hqueue : s.handler.dataBuffer (.ofInt n) with
  | none => simp [not_allOrNothing_of_none hcommand hsend hqueue]
  | some queue =>
    rcases Nat.lt_or_ge queue.length Utils.buffLen with hroom | hfull
    · rw [allOrNothing_of_room_iff hcommand hsend hsent haddr hqueue hroom]
      simp [hroom, and_assoc]
    · simp [not_allOrNothing_of_full hcommand hsend hsent hqueue hfull, Nat.not_lt.mpr hfull]

/-- A command that does not go out is an error and leaves everything else as it is. -/
theorem allOrNothing_of_not_sent (he : e.IgnoresBytes) (hout : ¬ (Server.Reached e s dst
    (s.world.calls + 1) ∧ 30 + 8 * values.length ≤ 65507)) : AllOrNothing e param body s := by
  rcases Server.sendPkt_cases he Utils.priorityNormal Utils.reserved.toUInt32 Utils.flagSingle
    (.ofInt n) [values] with ⟨err, w, hsend, _, hsent, _⟩ | ⟨_, _, _, _, _, _, hreach, hfit⟩
  · rw [AllOrNothing, commandProcess_refused hcommand hsend]
    exact ⟨hsent, rfl⟩
  · rw [List.flatten_singleton] at hfit
    exact absurd ⟨hreach, hfit⟩ hout

end Process

/-- The number in the path and the count of the values are narrowed unchecked, and a record that
is dropped or refused is not taken back from the wire. -/
theorem allOrNothing_iff (e : Env) (he : e.IgnoresBytes) (param : String) (body : Body) (s : Server) :
    AllOrNothing e param body s ↔ CommandServed e param body s := by
  unfold CommandServed
  cases hcommand : command? param body with
  | error err =>
    have hprocess : commandProcess e param body s = (some err, s) := by rw [commandProcess, hcommand]
    rw [AllOrNothing, hprocess]
    simp only [reduceCtorEq, false_implies, implies_true, iff_true]
    exact ⟨rfl, rfl⟩
  | ok command =>
    obtain ⟨n, dst, values⟩ := command
    constructor
    · intro hall _ _ _ heq hreach hfit
      cases heq
      exact (allOrNothing_sent_iff hcommand he hreach hfit).mp hall
    · intro hserved
      by_cases hout : Server.Reached e s dst (s.world.calls + 1) ∧ 30 + 8 * values.length ≤ 65507
      · exact (allOrNothing_sent_iff hcommand he hout.1 hout.2).mpr
          (hserved n dst values rfl hout.1 hout.2)
      · exact allOrNothing_of_not_sent hcommand he hout

theorem narrowed_not_allOrNothing :
    ¬ AllOrNothing .reliable "65539" (.object (some 2) (some [7])) Server.afterInit := by
  have hcommand : command? "65539" (.object (some 2) (some [7])) = .ok (65539, 2, [7]) := by
    decide +kernel
  rintro ⟨n, dst, values, heq, ⟨_, _, _, _, p, f, _, _, hn, _⟩, _⟩
  cases hcommand.symm.trans heq
  have hlt := f.dataID.toNat_lt
  omega

theorem setPoint_allOrNothing :
    AllOrNothing .reliable "3" (.object (some 2) (some [7])) Server.afterInit ↔
      CommandServed .reliable "3" (.object (some 2) (some [7])) Server.afterInit :=
  allOrNothing_iff .reliable Env.reliable_ignoresBytes "3" (.object (some 2) (some [7]))
    Server.afterInit

end DRDS
