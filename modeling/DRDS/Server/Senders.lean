import DRDS.Concurrency.Tickets
import DRDS.Server.SendPkt

/-! Goroutines that send at once, step by step: a call takes its sequence number in one critical
section and writes its datagram later, and `sendOpt` then advances the number once more. -/
namespace DRDS.Server
open Go Concurrency

/-- The call a goroutine makes. -/
inductive Job where
  | send (id : UInt16) (time physicalTime : UInt32) (rawData : List Float64)
  | sendPkt (dst priority : UInt8) (synt : UInt32) (flag : UInt8) (dataID : UInt16)
      (dataMap : List (List Float64))
  | sendOpt (dst priority : UInt8) (synt : UInt32) (service flag opt1 opt2 : UInt8)

/-- The client and the datagram of a call that takes its number now. -/
def Job.datagram? (e : Env) (s : Server) : Job → Option (UInt8 × List UInt8)
  | .send .. => none
  | .sendPkt dst priority synt flag dataID dataMap =>
    some (dst, toServiceBuf (dataPkt e s dst priority synt flag dataID dataMap))
  | .sendOpt dst priority synt service flag opt1 opt2 =>
    some (dst, toServiceBuf (optPkt e s dst priority synt service flag opt1 opt2))

/-- The call as the code runs it when nothing comes between. -/
def Job.run (e : Env) : Job → Server → Option String × Server
  | .send id time physicalTime rawData, s => s.send id time physicalTime rawData
  | .sendPkt dst priority synt flag dataID dataMap, s =>
    s.sendPkt e dst priority synt flag dataID dataMap
  | .sendOpt dst priority synt service flag opt1 opt2, s =>
    s.sendOpt e dst priority synt service flag opt1 opt2

def Job.isOpt : Job → Bool
  | .sendOpt .. => true
  | _ => false

/-- Where a call stands, with the datagram it has put on the wire. -/
inductive Phase where
  | called
  | numbered (dst : UInt8) (buf : List UInt8)
  | written (datagram : Option (Addr × List UInt8))
  | ended (datagram : Option (Addr × List UInt8))

def Phase.datagram? : Phase → Option (Addr × List UInt8)
  | .written datagram | .ended datagram => datagram
  | _ => none

/-- The server and its goroutines. Three fields only observe: the goroutines in the order they
took their numbers, how often `sendOpt` has advanced the number after its write, and for each
goroutine how far the number had come when it took its own. -/
structure Senders where
  server : Server
  phase : ℕ → Phase
  order : List ℕ
  skips : ℕ
  taken : ℕ → ℕ × ℕ

def Senders.init (s : Server) : Senders := ⟨s, fun _ => .called, [], 0, fun _ => (0, 0)⟩

/-- A call that sends nothing runs in one step. -/
def Senders.call (e : Env) (jobs : ℕ → Job) (t : ℕ) (S : Senders) : Senders :=
  { S with
    server := ((jobs t).run e S.server).2
    phase := Function.update S.phase t (.ended none) }

def Senders.number (t : ℕ) (dst : UInt8) (buf : List UInt8) (S : Senders) : Senders where
  server := S.server.numbered
  phase := Function.update S.phase t (.numbered dst buf)
  order := S.order ++ [t]
  skips := S.skips
  taken := Function.update S.taken t (S.order.length + S.skips, S.skips)

/-- A call writes its datagram; `sendOpt` has one more step when that succeeds. -/
def Senders.write (e : Env) (jobs : ℕ → Job) (t : ℕ) (dst : UInt8) (buf : List UInt8)
    (S : Senders) : Senders :=
  match S.server.transmit e dst buf with
  | (some _, server) => { S with server, phase := Function.update S.phase t (.ended none) }
  | (none, server) =>
    let datagram := (S.server.allClientAddr dst).map (·, buf)
    let next := if (jobs t).isOpt then .written datagram else .ended datagram
    { S with server, phase := Function.update S.phase t next }

/-- `sendOpt` advances the number again. -/
def Senders.advance (t : ℕ) (datagram : Option (Addr × List UInt8)) (S : Senders) : Senders :=
  { S with
    server := { S.server with sequence := S.server.sequence + 1 }
    phase := Function.update S.phase t (.ended datagram)
    skips := S.skips + 1 }

def Senders.step? (e : Env) (jobs : ℕ → Job) (t : ℕ) (S : Senders) : Option Senders :=
  match S.phase t, (jobs t).datagram? e S.server with
  | .called, none => some (S.call e jobs t)
  | .called, some (dst, buf) => some (S.number t dst buf)
  | .numbered dst buf, _ => some (S.write e jobs t dst buf)
  | .written datagram, _ => some (S.advance t datagram)
  | .ended _, _ => none

def Senders.run? (e : Env) (jobs : ℕ → Job) : List ℕ → Senders → Option Senders
  | [], S => some S
  | t :: ts, S => (S.step? e jobs t).bind (run? e jobs ts)

/-! ### A call left alone -/

section Steps
variable {e : Env} {jobs : ℕ → Job} {t : ℕ} {dst : UInt8} {buf : List UInt8} {S : Senders}

theorem Senders.write_of_error {err : String} {server : Server}
    (h : S.server.transmit e dst buf = (some err, server)) : S.write e jobs t dst buf =
      { S with server := server, phase := Function.update S.phase t (.ended none) } := by
  rw [write, h]

theorem Senders.write_of_sent {server : Server}
    (h : S.server.transmit e dst buf = (none, server)) : S.write e jobs t dst buf =
      { S with
        server := server
        phase := Function.update S.phase t
          (if (jobs t).isOpt then .written ((S.server.allClientAddr dst).map (·, buf))
            else .ended ((S.server.allClientAddr dst).map (·, buf))) } := by
  rw [write, h]

theorem Job.run_of_datagram {j : Job} {s : Server} (h : j.datagram? e s = some (dst, buf)) :
    j.run e s = match s.numbered.transmit e dst buf with
      | (some err, s) => (some err, s)
      | (none, s) => (none, if j.isOpt then { s with sequence := s.sequence + 1 } else s) := by
  cases j with
  | send => cases h
  | sendPkt dst priority synt flag dataID dataMap =>
    cases h
    rw [run, Server.sendPkt]
    rcases htr : s.numbered.transmit e dst
      (toServiceBuf (s.dataPkt e dst priority synt flag dataID dataMap)) with ⟨_ | _, _⟩ <;> rfl
  | sendOpt dst priority synt service flag opt1 opt2 =>
    cases h
    rfl

theorem Senders.run?_replicate_succ {n : ℕ} {T U : Senders} (hS : S.step? e jobs t = some T)
    (hT : Senders.run? e jobs (.replicate n t) T = some U) :
    Senders.run? e jobs (.replicate (n + 1) t) S = some U := by
  rw [List.replicate_succ, run?, hS]
  exact hT

/-- A call that is left alone does what the code's function does. -/
theorem Senders.run?_alone (h : S.phase t = .called) :
    ∃ n T, Senders.run? e jobs (.replicate n t) S = some T ∧ (∃ d, T.phase t = .ended d) ∧
      T.server = ((jobs t).run e S.server).2 := by
  cases hd : (jobs t).datagram? e S.server with
  | none =>
    have hcall : S.step? e jobs t = some (S.call e jobs t) := by simp [step?, h, hd]
    exact ⟨1, _, run?_replicate_succ (n := 0) hcall rfl, ⟨none, Function.update_self ..⟩, rfl⟩
  | some d =>
    obtain ⟨dst, buf⟩ := d
    let N := S.number t dst buf
    have hnumber : S.step? e jobs t = some N := by simp [step?, h, hd, N]
    have hwrite : N.step? e jobs t = some (N.write e jobs t dst buf) := by
      simp [step?, number, N]
    rw [Job.run_of_datagram hd]
    rcases htr : S.server.numbered.transmit e dst buf with ⟨_ | err, server⟩
    · rw [show N.write e jobs t dst buf = _ from write_of_sent htr] at hwrite
      cases hopt : (jobs t).isOpt with
      | false =>
        refine ⟨2, _, run?_replicate_succ (n := 1) hnumber (run?_replicate_succ (n := 0) hwrite rfl),
          ⟨(N.server.allClientAddr dst).map (·, buf), ?_⟩, rfl⟩
        simp [hopt]
      | true =>
        let datagram := (N.server.allClientAddr dst).map (·, buf)
        let W : Senders := { N with server, phase := Function.update N.phase t (.written datagram) }
        have hW : N.step? e jobs t = some W := by
          rw [hwrite, hopt]
          rfl
        have hadvance : W.step? e jobs t = some (W.advance t datagram) := by
          simp [step?, W]
        exact ⟨3, _, run?_replicate_succ (n := 2) hnumber (run?_replicate_succ (n := 1) hW
          (run?_replicate_succ (n := 0) hadvance rfl)), ⟨_, Function.update_self ..⟩, rfl⟩
    · rw [show N.write e jobs t dst buf = _ from write_of_error htr] at hwrite
      exact ⟨2, _, run?_replicate_succ (n := 1) hnumber (run?_replicate_succ (n := 0) hwrite rfl),
        ⟨none, Function.update_self ..⟩, rfl⟩

/-! ### What a step can do -/

/-- A step of goroutine `t`, by where it stands. -/
inductive Senders.Step (e : Env) (jobs : ℕ → Job) (t : ℕ) (S : Senders) : Senders → Prop
  | call (hphase : S.phase t = .called) (hjob : (jobs t).datagram? e S.server = none) :
      Step e jobs t S (S.call e jobs t)
  | number {c b} (hphase : S.phase t = .called)
      (hjob : (jobs t).datagram? e S.server = some (c, b)) :
      Step e jobs t S (S.number t c b)
  | fail {c b err w} (hphase : S.phase t = .numbered c b)
      (herr : (S.server.transmit e c b).1 = some err) (hsent : w.sent = S.server.world.sent) :
      Step e jobs t S { S with
        server := { S.server with world := w }
        phase := Function.update S.phase t (.ended none) }
  | write {c b addr w next} (hphase : S.phase t = .numbered c b)
      (haddr : S.server.allClientAddr c = some addr)
      (hsent : w.sent = S.server.world.sent ++ [(addr, b)])
      (hnext : next = .written (some (addr, b)) ∨ next = .ended (some (addr, b))) :
      Step e jobs t S { S with
        server := { S.server with world := w }
        phase := Function.update S.phase t next }
  | advance {datagram} (hphase : S.phase t = .written datagram) :
      Step e jobs t S (S.advance t datagram)

theorem Senders.step?_step {T : Senders} (h : S.step? e jobs t = some T) : S.Step e jobs t T := by
  unfold step? at h
  split at h
  · rename_i hphase hjob
    cases h
    exact .call hphase hjob
  · rename_i hphase hjob
    cases h
    exact .number hphase hjob
  · rename_i c b hphase
    cases h
    rcases transmit_cases e c b S.server with
      ⟨err, w, htr, _, hw⟩ | ⟨addr, w, htr, _, haddr, _, hw⟩
    · rw [write_of_error htr]
      exact .fail hphase (congrArg Prod.fst htr) hw
    · rw [write_of_sent htr, haddr]
      apply Step.write hphase haddr hw
      cases (jobs t).isOpt <;> simp
  · rename_i hphase
    cases h
    exact .advance hphase
  · cases h

end Steps
end DRDS.Server
