import DRDS.Server.Forward
import DRDS.Server.Sequence
import DRDS.Server.Sequential
import Mathlib.Data.List.Perm.Basic

/-! The datagrams a `SER_SEND` packet leads to: one for each subframe and subscriber, in whatever
order its goroutines run. -/
namespace DRDS.Server
open Go Wire

/-! ### The rows of a subframe -/

/-- A subframe has rows, as many values as cells, and not too many for the offset behind it. -/
structure SubPacket.Shaped (f : SubPacket (Slice UInt8)) : Prop where
  row : 1 ≤ f.row.toNat
  cells : f.row.toNat * f.col.toNat = f.length.toNat
  short : f.length.toNat < 8191

theorem length_le_of_decoded {buf : Slice UInt8} {p : ServicePacket (Slice UInt8)}
    (h : fromServiceBuf? buf = some p) {f : SubPacket (Slice UInt8)} (hf : f ∈ p.subpackets) :
    30 + f.payload.len ≤ buf.len := by
  have hbytes := congrArg List.length (fromServiceBuf?_sound h).2
  obtain ⟨l₁, l₂, hsplit⟩ := List.append_of_mem (List.mem_map_of_mem (f := SubPacket.visible) hf)
  change p.visible.subpackets = _ at hsplit
  rw [Slice.length_toList, wire, hsplit] at hbytes
  simp [SubPacket.visible, SubPacket.map] at hbytes
  omega

section Rows
variable {g : Slice.Growth} {buf : Slice UInt8} {p : ServicePacket (Slice UInt8)}
  {f : SubPacket (Slice UInt8)}

/-- What a forward of a subframe carries. -/
structure MatrixOf (f : SubPacket (Slice UInt8)) (mat : List (List Float64)) : Prop where
  rows : mat.length = f.row.toNat
  rectangular : ∀ r ∈ mat, r.length = f.col.toNat
  bytes : payloadFloat2Buf mat.flatten = f.payload.toList

theorem exists_matrixOf (g : Slice.Growth) (h : fromServiceBuf? buf = some p)
    (hf : f ∈ p.subpackets) (hshape : f.Shaped) :
    ∃ rawData mat, payloadBuf2Float? g f.payload = some rawData ∧
      rowsOf? rawData f.row f.col = some mat ∧ MatrixOf f mat := by
  obtain ⟨_, hcells, hshort⟩ := hshape
  obtain ⟨rawData, hraw, hrlen⟩ := payload_of_decoded h g hf
  have hlen := payload_len_of_decoded h hf
  have hrows : f.row.toNat * f.col.toNat = rawData.len := by omega
  obtain ⟨mat, hmat, hflat⟩ := rowsOf?_of_le hrows.le
  obtain ⟨hmlen, hrect⟩ := rowsOf?_some hmat
  refine ⟨rawData, mat, hraw, hmat, hmlen, hrect, ?_⟩
  rw [hflat, hrows, ← rawData.length_toList, List.take_length]
  exact payloadFloat2Buf_of_payloadBuf2Float? hraw (by omega)

end Rows

/-! ### One copy -/

/-- A datagram is addressed to the client, fits its receive buffer, and is accepted there with
what the subframe said. -/
structure CopyFor (s : Server) (p : ServicePacket (Slice UInt8))
    (x : SubPacket (Slice UInt8) × UInt8) (d : Addr × List UInt8) : Prop where
  addressed : s.allClientAddr x.2 = some d.1
  fits : d.2.length ≤ Utils.pktLen
  decodes : ∃ q f, fromServiceBuf? (listenBuf d.2) = some q ∧ q.subpackets = [f] ∧
    q.dst = x.2 ∧ q.simulinkTime = p.simulinkTime ∧ q.priority = p.priority ∧ q.flag = p.flag ∧
    f.dataID = x.1.dataID ∧ f.row = x.1.row ∧ f.col = x.1.col ∧ f.length = x.1.length ∧
    f.payload.toList = x.1.payload.toList

theorem priority_dataWire (e : Env) (s : Server) (dst : UInt8) {priority : UInt8}
    (synt : UInt32) (flag : UInt8) (dataID : UInt16) (mat : List (List Float64))
    (h : priority.toNat < 16) :
    (dataWire e s dst priority synt flag dataID mat).priority = priority := by
  have hn : (dataPkt e s dst priority synt flag dataID mat).visible.toPacket.Nibbles := by
    have hconst : Utils.msgOuter.toNat < 16 ∧ Utils.versionV0.toNat < 16 ∧
        Utils.reserved.toNat < 16 := by decide
    exact ⟨hconst.1, h, hconst.2.1, hconst.2.2⟩
  exact (nibbles_pack hn).2.1

theorem copyFor_dataPkt {buf : Slice UInt8} {p : ServicePacket (Slice UInt8)}
    {f : SubPacket (Slice UInt8)} {mat : List (List Float64)} {s : Server} {addr : Addr}
    {dst : UInt8} (e : Env) (t : Server) (hbuf : buf.len = 4500) (h : fromServiceBuf? buf = some p)
    (hf : f ∈ p.subpackets) (hshape : f.Shaped) (hmat : MatrixOf f mat)
    (haddr : s.allClientAddr dst = some addr) :
    CopyFor s p (f, dst)
      (addr, toServiceBuf (dataPkt e t dst p.priority p.simulinkTime p.flag f.dataID mat)) := by
  obtain ⟨hrows, hrect, hbytes⟩ := hmat
  obtain ⟨hrow, hcells, hshort⟩ := hshape
  have hne : mat ≠ [] := List.ne_nil_of_length_pos (hrows ▸ hrow)
  have hlt : mat.length < 256 ∧ f.col.toNat < 256 := ⟨hrows ▸ f.row.toNat_lt, f.col.toNat_lt⟩
  obtain ⟨hmrow, hmcol, hword⟩ := dimensions_of_lt hrect hne hlt
  rw [hrows] at hmrow
  rw [hrows, hcells] at hword
  have hfit : 30 + 8 * f.length.toNat ≤ 4500 := by
    have hle := length_le_of_decoded h hf
    have hlen := payload_len_of_decoded h hf
    omega
  have hlen : (toServiceBuf (dataPkt e t dst p.priority p.simulinkTime p.flag f.dataID mat)).length =
      30 + 8 * f.length.toNat := by
    rw [length_toServiceBuf_dataPkt, length_flatten_of_rectangular hrect, hrows, hcells]
  have hvalid : (dataWire e t dst p.priority p.simulinkTime p.flag f.dataID mat).Valid16 :=
    dataWire_valid16 hrect hne hlt (by rw [hrows, hcells]; exact hshort)
  obtain ⟨q, hq, hv⟩ := listenBuf_decodes hvalid
    (by rw [← toServiceBuf_dataPkt, hlen]; exact hfit)
  have hsubs : q.subpackets.map SubPacket.visible = [dataFrame f.dataID mat] := by
    rw [← subpackets_dataWire e t dst p.priority p.simulinkTime p.flag]
    exact congrArg ServicePacket.subpackets hv
  obtain ⟨k, hk, hframe⟩ := List.map_eq_singleton_iff.mp hsubs
  have hpriority : p.priority.toNat < 16 := (fromServiceBuf?_sound h).1.nibbles.priority
  refine ⟨haddr, hlen.trans_le hfit, q, k, ?_, hk, ?_, ?_, ?_, ?_, ?_, ?_, ?_, ?_, ?_⟩
  · rw [toServiceBuf_dataPkt]
    exact hq
  · exact congrArg (fun v => v.dst) hv
  · exact congrArg (fun v => v.simulinkTime) hv
  · exact (congrArg (fun v => v.priority) hv).trans (priority_dataWire e t dst _ _ _ _ hpriority)
  · exact congrArg (fun v => v.flag) hv
  · exact congrArg (fun v => v.dataID) hframe
  · exact (congrArg SubPacket.row hframe).trans (UInt8.toNat_inj.mp hmrow)
  · exact (congrArg SubPacket.col hframe).trans (UInt8.toNat_inj.mp hmcol)
  · exact (congrArg SubPacket.length hframe).trans (UInt16.toNat_inj.mp hword)
  · exact (congrArg SubPacket.payload hframe).trans hbytes

/-! ### The goroutines of a packet -/

def Routine.job? : Routine → Option Job
  | .send id time physicalTime rawData => some (.send id time physicalTime rawData)
  | .sendPkt dst priority synt flag dataID dataMap =>
    some (.sendPkt dst priority synt flag dataID dataMap)
  | .publish .. => none

/-- Goroutine `t` makes the call that was started as the `t`-th. -/
def jobsOf (rs : List Routine) (t : ℕ) : Job := ((rs[t]?).bind Routine.job?).getD (.send 0 0 0 [])

def Phase.isEnded : Phase → Bool
  | .ended _ => true
  | _ => false

structure RunsAll (e : Env) (rs : List Routine) (s : Server) (schedule : List ℕ) (S : Senders) :
    Prop where
  run : (Senders.init s).run? e (jobsOf rs) schedule = some S
  started : ∀ t ∈ schedule, t < rs.length
  ended : ∀ t < rs.length, (S.phase t).isEnded

/-- The client has an address, and what is sent there goes out unless it is too large. -/
def Answers (e : Env) (s : Server) (dst : UInt8) : Prop :=
  ∃ addr, s.allClientAddr dst = some addr ∧ ∀ k, e.dial k addr = none ∧
    ∀ buf, buf.length ≤ 65507 → e.write k addr buf = none

theorem transmit_of_answers {e : Env} {s : Server} {dst : UInt8} {buf : List UInt8}
    (h : Answers e s dst) (hlen : buf.length ≤ 65507) : (s.transmit e dst buf).1 = none := by
  obtain ⟨addr, haddr, hnet⟩ := h
  obtain ⟨hdial, _⟩ := hnet s.world.calls
  obtain ⟨_, hwrite⟩ := hnet s.world.tick.calls
  simp [transmit, haddr, Env.dialUDP, hdial, hwrite buf hlen]

/-- The datagram of a call that starts in a state with the addresses of `s`. -/
def BuiltIn (e : Env) (s : Server) (j : Job) (dst : UInt8) (buf : List UInt8) : Prop :=
  ∃ t : Server, t.allClientAddr = s.allClientAddr ∧ j.datagram? e t = some (dst, buf)

theorem Job.datagram?_eq_none {e : Env} {j : Job} {s : Server} (h : j.datagram? e s = none)
    (t : Server) : j.datagram? e t = none := by
  cases j with
  | send => rfl
  | sendPkt => cases h
  | sendOpt => cases h

/-- The first `n` goroutines have sent what they built, and nothing else has been sent. -/
structure Delivers (e : Env) (jobs : ℕ → Job) (s : Server) (n : ℕ) (S : Senders) : Prop where
  addr : S.server.allClientAddr = s.allClientAddr
  registers : registers S.server = registers s
  sent : ∃ ds, S.server.world.sent = s.world.sent ++ ds ∧
    ds.Perm ((List.range n).filterMap S.datagram?)
  numbered : ∀ t dst buf, S.phase t = .numbered dst buf → BuiltIn e s (jobs t) dst buf
  delivered : ∀ t d, S.datagram? t = some d →
    ∃ dst, BuiltIn e s (jobs t) dst d.2 ∧ s.allClientAddr dst = some d.1
  silent : ∀ t, S.phase t = .written none ∨ S.phase t = .ended none →
    ∀ u, (jobs t).datagram? e u = none

section Runs
variable {e : Env} {jobs : ℕ → Job} {s : Server} {n t : ℕ} {S T : Senders}

theorem Delivers.init (e : Env) (jobs : ℕ → Job) (s : Server) (n : ℕ) :
    Delivers e jobs s n (Senders.init s) where
  addr := rfl
  registers := rfl
  sent := by
    refine ⟨[], (List.append_nil _).symm, ?_⟩
    have hnone : (Senders.init s).datagram? = fun _ => none := rfl
    rw [hnone, List.filterMap_none]
  numbered t dst buf h := by simp [Senders.init] at h
  delivered t d h := by simp [Senders.datagram?, Phase.datagram?, Senders.init] at h
  silent t h := by simp [Senders.init] at h

theorem Delivers.move (h : Delivers e jobs s n S) {next : Phase}
    (hphase : T.phase = Function.update S.phase t next)
    (haddr : T.server.allClientAddr = S.server.allClientAddr)
    (hreg : Server.registers T.server = Server.registers S.server)
    (hsent : T.server.world.sent = S.server.world.sent) (hd : next.datagram? = S.datagram? t)
    (hnumbered : ∀ dst buf, next = .numbered dst buf → BuiltIn e s (jobs t) dst buf)
    (hsilent : next = .written none ∨ next = .ended none → ∀ u, (jobs t).datagram? e u = none) :
    Delivers e jobs s n T := by
  have hsame : T.datagram? = S.datagram? := Senders.datagram?_eq_of_update hphase hd
  constructor
  · exact haddr.trans h.addr
  · exact hreg.trans h.registers
  · rw [hsent, hsame]
    exact h.sent
  · intro u dst buf hu
    rw [hphase, Function.update_apply] at hu
    split_ifs at hu with hut
    · subst hut
      exact hnumbered dst buf hu
    · exact h.numbered u dst buf hu
  · rw [hsame]
    exact h.delivered
  · intro u hu
    rw [hphase, Function.update_apply] at hu
    split_ifs at hu with hut
    · subst hut
      exact hsilent hu
    · exact h.silent u hu

theorem Delivers.write (h : Delivers e jobs s n S) (ht : t < n) {dst : UInt8} {buf : List UInt8}
    {addr : Addr} {next : Phase} (hnow : S.phase t = .numbered dst buf)
    (hphase : T.phase = Function.update S.phase t next)
    (haddr : T.server.allClientAddr = S.server.allClientAddr)
    (hreg : Server.registers T.server = Server.registers S.server)
    (hdst : S.server.allClientAddr dst = some addr)
    (hsent : T.server.world.sent = S.server.world.sent ++ [(addr, buf)])
    (hnext : next = .written (some (addr, buf)) ∨ next = .ended (some (addr, buf))) :
    Delivers e jobs s n T := by
  have hnone : S.datagram? t = none := Senders.datagram?_of_phase hnow
  have hdata : T.datagram? = Function.update S.datagram? t (some (addr, buf)) := by
    rw [Senders.datagram?_of_update hphase]
    rcases hnext with rfl | rfl <;> rfl
  constructor
  · exact haddr.trans h.addr
  · exact hreg.trans h.registers
  · obtain ⟨ds, hds, hperm⟩ := h.sent
    refine ⟨ds ++ [(addr, buf)], by rw [hsent, hds, List.append_assoc], ?_⟩
    rw [hdata]
    have hupdate := Senders.filterMap_update_perm (b := (addr, buf)) List.nodup_range
      (List.mem_range.mpr ht) hnone
    exact (hperm.append_right _).trans hupdate.symm
  · intro u c b hu
    rw [hphase] at hu
    exact h.numbered u c b (Senders.phase_of_update hu (by rcases hnext with rfl | rfl <;> simp))
  · intro u d hu
    rw [hdata, Function.update_apply] at hu
    split_ifs at hu with hut
    · subst hut
      cases hu
      exact ⟨dst, h.numbered u dst buf hnow, h.addr ▸ hdst⟩
    · exact h.delivered u d hu
  · intro u hu
    rw [hphase, Function.update_apply] at hu
    split_ifs at hu with hut
    · rcases hnext with rfl | rfl <;> simp at hu
    · exact h.silent u hu

theorem Delivers.step (h : Delivers e jobs s n S) (ht : t < n)
    (hnet : ∀ dst buf, BuiltIn e s (jobs t) dst buf → Answers e s dst ∧ buf.length ≤ 65507)
    (hstep : S.step? e jobs t = some T) : Delivers e jobs s n T := by
  cases Senders.step?_step hstep with
  | call hphase hjob =>
    obtain ⟨handler, hrun⟩ := Senders.Job.run_of_none hjob
    have hnext : (S.call e jobs t).phase = Function.update S.phase t (.ended none) := rfl
    have hserver : (S.call e jobs t).server = { S.server with handler } := hrun
    apply h.move hnext
    · rw [hserver]
    · rw [hserver]
      rfl
    · rw [hserver]
    · exact (Senders.datagram?_of_phase hphase).symm
    · intro dst buf heq
      cases heq
    · intro _ u
      exact Job.datagram?_eq_none hjob u
  | number hphase hjob =>
    rename_i dst buf
    have hnext : (S.number t dst buf).phase = Function.update S.phase t (.numbered dst buf) := rfl
    apply h.move hnext
    · rfl
    · rfl
    · rfl
    · exact (Senders.datagram?_of_phase hphase).symm
    · intro c b heq
      cases heq
      exact ⟨S.server, h.addr, hjob⟩
    · rintro (heq | heq) <;> cases heq
  | fail hphase herr hsent =>
    rename_i dst buf err w
    obtain ⟨⟨addr, haddr, hcalls⟩, hlen⟩ := hnet dst buf (h.numbered t dst buf hphase)
    have hanswers : Answers e S.server dst := ⟨addr, h.addr ▸ haddr, hcalls⟩
    rw [transmit_of_answers hanswers hlen] at herr
    cases herr
  | write hphase haddr hsent hnext => exact h.write ht hphase rfl rfl rfl haddr hsent hnext
  | advance hphase =>
    rename_i datagram
    have hnext : (S.advance t datagram).phase = Function.update S.phase t (.ended datagram) := rfl
    apply h.move hnext
    · rfl
    · rfl
    · rfl
    · exact (Senders.datagram?_of_phase hphase).symm
    · intro dst buf heq
      cases heq
    · rintro (heq | heq)
      · cases heq
      · cases heq
        exact h.silent t (.inl hphase)

theorem Delivers.run (h : Delivers e jobs s n S) {schedule : List ℕ}
    (hstart : ∀ t ∈ schedule, t < n)
    (hnet : ∀ t < n, ∀ dst buf, BuiltIn e s (jobs t) dst buf →
      Answers e s dst ∧ buf.length ≤ 65507)
    (hrun : S.run? e jobs schedule = some T) : Delivers e jobs s n T := by
  induction schedule generalizing S with
  | nil =>
    cases hrun
    exact h
  | cons t ts ih =>
    rw [List.forall_mem_cons] at hstart
    obtain ⟨U, hU, hrest⟩ := Option.bind_eq_some_iff.mp hrun
    exact ih (h.step hstart.1 (hnet t hstart.1) hU) hstart.2 hrest

end Runs

/-! ### Subframes and subscribers -/

def fanOut (s : Server) (p : ServicePacket (Slice UInt8)) : List (SubPacket (Slice UInt8) × UInt8) :=
  p.subpackets.flatMap fun f => (s.subscriberRegister f.dataID).map fun dst => (f, dst)

/-- What a routine of the packet is for: to store a subframe, or to forward it to a client. -/
inductive Stands (s : Server) (p : ServicePacket (Slice UInt8)) :
    Routine → Option (SubPacket (Slice UInt8) × UInt8) → Prop
  | store (id : UInt16) (time physicalTime : UInt32) (rawData : List Float64) :
      Stands s p (.send id time physicalTime rawData) none
  | forward {f dst mat} (hmem : (f, dst) ∈ s.fanOut p) (hmat : MatrixOf f mat) :
      Stands s p (.sendPkt dst p.priority p.simulinkTime p.flag f.dataID mat) (some (f, dst))

theorem mem_fanOut {s : Server} {p : ServicePacket (Slice UInt8)} {f : SubPacket (Slice UInt8)}
    {dst : UInt8} :
    (f, dst) ∈ s.fanOut p ↔ f ∈ p.subpackets ∧ dst ∈ s.subscriberRegister f.dataID := by
  simp only [fanOut, List.mem_flatMap, List.mem_map, Prod.mk.injEq]
  constructor
  · rintro ⟨k, hk, d, hd, rfl, rfl⟩
    exact ⟨hk, hd⟩
  · rintro ⟨hf, hdst⟩
    exact ⟨f, hf, dst, hdst, rfl, rfl⟩

section Packet
variable {g : Slice.Growth} {e : Env} {s : Server} {buf : Slice UInt8}
  {p : ServicePacket (Slice UInt8)}

theorem handlePkt_send_of_rounds (hsend : p.service = Utils.serSend)
    (hrounds : ∀ f ∈ p.subpackets, (sendRound g s p f).2 = none) :
    handlePkt g e p s =
      ⟨.returned none, p.subpackets.flatMap fun f => (sendRound g s p f).1, s⟩ := by
  rw [handlePkt, if_pos hsend]
  dsimp only
  rw [rangeLoop_fst, rangeLoop_snd hrounds, reached_eq_self hrounds]

theorem sendRound_stands (h : fromServiceBuf? buf = some p) {f : SubPacket (Slice UInt8)}
    (hf : f ∈ p.subpackets) (hshape : f.Shaped) :
    (sendRound g s p f).2 = none ∧ List.Forall₂ (Stands s p) (sendRound g s p f).1
      (none :: (s.subscriberRegister f.dataID).map fun dst => some (f, dst)) := by
  obtain ⟨rawData, mat, hraw, hrows, hmat⟩ := exists_matrixOf g h hf hshape
  rw [sendRound_of_rows hraw hrows]
  refine ⟨rfl, .cons (.store ..) ?_⟩
  rw [List.forall₂_map_left_iff, List.forall₂_map_right_iff, List.forall₂_same]
  intro dst hdst
  exact .forward (mem_fanOut.mpr ⟨hf, hdst⟩) hmat

/-- Every routine of the packet stands for a pair or for a record. -/
theorem spawned_stands (e : Env) (h : fromServiceBuf? buf = some p)
    (hsend : p.service = Utils.serSend) (hshape : ∀ f ∈ p.subpackets, f.Shaped) :
    ∃ spawned marks, handlePkt g e p s = ⟨.returned none, spawned, s⟩ ∧
      List.Forall₂ (Stands s p) spawned marks ∧ marks.filterMap id = s.fanOut p := by
  have hrounds := fun f hf => sendRound_stands (g := g) (s := s) h hf (hshape f hf)
  refine ⟨_, p.subpackets.flatMap fun f =>
    none :: (s.subscriberRegister f.dataID).map fun dst => some (f, dst),
    handlePkt_send_of_rounds hsend fun f hf => (hrounds f hf).1, ?_, ?_⟩
  · have hflat : ∀ fs : List (SubPacket (Slice UInt8)), fs ⊆ p.subpackets →
        List.Forall₂ (Stands s p) (fs.flatMap fun f => (sendRound g s p f).1)
          (fs.flatMap fun f =>
            none :: (s.subscriberRegister f.dataID).map fun dst => some (f, dst)) := by
      intro fs hfs
      induction fs with
      | nil => exact .nil
      | cons f fs ih =>
        rw [List.cons_subset] at hfs
        exact List.rel_append (hrounds f hfs.1).2 (ih hfs.2)
    exact hflat p.subpackets (List.Subset.refl _)
  · unfold fanOut
    rw [List.filterMap_flatMap]
    simp

theorem forall₂_filterMap_id {α β : Type} {R : α → β → Prop} {xs : List (Option α)}
    {ys : List (Option β)} (h : List.Forall₂ (Option.Rel R) xs ys) :
    List.Forall₂ R (xs.filterMap id) (ys.filterMap id) := by
  induction h with
  | nil => exact .nil
  | cons hxy _ ih =>
    cases hxy with
    | none => exact ih
    | some hr => exact .cons hr ih

theorem jobsOf_of_get {rs : List Routine} {t : ℕ} (ht : t < rs.length) {j : Job}
    (hj : rs[t].job? = some j) : jobsOf rs t = j := by
  rw [jobsOf, List.getElem?_eq_getElem ht, Option.bind_some, hj]
  rfl

theorem copyFor_of_builtIn (hbuf : buf.len = 4500) (h : fromServiceBuf? buf = some p)
    (hshape : ∀ f ∈ p.subpackets, f.Shaped) (hnet : ∀ x ∈ s.fanOut p, Answers e s x.2)
    {r : Routine} {mark : Option (SubPacket (Slice UInt8) × UInt8)} (hr : Stands s p r mark)
    {j : Job} (hj : r.job? = some j) {dst : UInt8} {b : List UInt8} (hb : BuiltIn e s j dst b) :
    ∃ x, mark = some x ∧ x.2 = dst ∧ Answers e s dst ∧
      ∀ addr, s.allClientAddr dst = some addr → CopyFor s p x (addr, b) := by
  obtain ⟨t, _, hdatagram⟩ := hb
  cases hr with
  | store =>
    cases hj
    cases hdatagram
  | forward hmem hmat =>
    cases hj
    cases hdatagram
    have hf := (mem_fanOut.mp hmem).1
    exact ⟨_, rfl, rfl, hnet _ hmem, fun addr haddr =>
      copyFor_dataPkt e t hbuf h hf (hshape _ hf) hmat haddr⟩

theorem Stands.exists_job {r : Routine} {mark : Option (SubPacket (Slice UInt8) × UInt8)}
    (h : Stands s p r mark) : ∃ j, r.job? = some j := by
  cases h <;> exact ⟨_, rfl⟩

/-- A goroutine that has ended has sent the copy it stands for, or nothing when it stores. -/
theorem Delivers.copy {rs : List Routine} {S : Senders} (hS : Delivers e (jobsOf rs) s rs.length S)
    (hbuf : buf.len = 4500) (h : fromServiceBuf? buf = some p)
    (hshape : ∀ f ∈ p.subpackets, f.Shaped) (hnet : ∀ x ∈ s.fanOut p, Answers e s x.2)
    {t : ℕ} (ht : t < rs.length) {mark : Option (SubPacket (Slice UInt8) × UInt8)}
    (hr : Stands s p rs[t] mark) (hend : (S.phase t).isEnded) :
    Option.Rel (CopyFor s p) mark (S.datagram? t) := by
  obtain ⟨j, hj⟩ := hr.exists_job
  have hjob := jobsOf_of_get ht hj
  generalize rs[t] = r at hr hj
  cases hd : S.datagram? t with
  | some d =>
    obtain ⟨dst, hbuilt, haddr⟩ := hS.delivered t d hd
    rw [hjob] at hbuilt
    obtain ⟨x, rfl, rfl, _, hcopy⟩ := copyFor_of_builtIn hbuf h hshape hnet hr hj hbuilt
    exact .some (hcopy d.1 haddr)
  | none =>
    have hsilent : S.phase t = .ended none := by
      rw [Senders.datagram?] at hd
      cases hphase : S.phase t with
      | ended datagram =>
        rw [hphase] at hd
        obtain rfl : datagram = none := hd
        rfl
      | _ => simp [hphase, Phase.isEnded] at hend
    have hnothing := hS.silent t (.inr hsilent) s
    rw [hjob] at hnothing
    cases hr with
    | store => exact .none
    | forward =>
      cases hj
      cases hnothing

end Packet

/-- Every schedule of the goroutines of a well-shaped `SER_SEND` packet sends one datagram for
each subframe and subscriber, and each is a copy of the subframe for the subscriber. -/
theorem sendPacket_fansOut (g : Slice.Growth) (e : Env) (s₀ s : Server) (buf : Slice UInt8)
    (p : ServicePacket (Slice UInt8)) (schedule : List ℕ) (S : Senders)
    (hs₀ : s₀.NoSubscribers) (hreach : Reaches g e s₀ s) (hbuf : buf.len = 4500)
    (h : fromServiceBuf? buf = some p) (hsend : p.service = Utils.serSend)
    (hshape : ∀ f ∈ p.subpackets, f.Shaped) (hnet : ∀ x ∈ s.fanOut p, Answers e s x.2)
    (hrun : RunsAll e (handlePkt g e p s).spawned (handlePkt g e p s).server schedule S) :
    (handlePkt g e p s).outcome = .returned none ∧ registers S.server = registers s ∧
      (∀ id, (s.subscriberRegister id).Nodup) ∧
      ∃ ds pairs, S.server.world.sent = s.world.sent ++ ds ∧ pairs.Perm (s.fanOut p) ∧
        List.Forall₂ (CopyFor s p) pairs ds := by
  obtain ⟨spawned, marks, heq, hstands, hmarks⟩ := spawned_stands (g := g) (s := s) e h hsend hshape
  rw [heq] at hrun ⊢
  have hS : Delivers e (jobsOf spawned) s spawned.length S := by
    refine (Delivers.init e (jobsOf spawned) s spawned.length).run hrun.started ?_ hrun.run
    intro t ht dst b hb
    have hr := hstands.get ht (hstands.length_eq ▸ ht)
    rw [List.get_eq_getElem] at hr
    obtain ⟨j, hj⟩ := hr.exists_job
    rw [jobsOf_of_get ht hj] at hb
    obtain ⟨x, _, _, hanswers, hcopy⟩ := copyFor_of_builtIn hbuf h hshape hnet hr hj hb
    refine ⟨hanswers, ?_⟩
    obtain ⟨addr, haddr, _⟩ := hanswers
    have hfits : b.length ≤ 4500 := (hcopy addr haddr).fits
    omega
  have houts : List.Forall₂ (Option.Rel (CopyFor s p)) marks
      ((List.range spawned.length).map S.datagram?) := by
    rw [List.forall₂_iff_get]
    refine ⟨by rw [← hstands.length_eq, List.length_map, List.length_range], fun t ht ht' => ?_⟩
    have hlt : t < spawned.length := hstands.length_eq ▸ ht
    have hr := hstands.get hlt ht
    simpa using hS.copy hbuf h hshape hnet hlt hr (hrun.ended t hlt)
  have hcopies := forall₂_filterMap_id houts
  rw [hmarks, List.filterMap_map, Function.id_comp] at hcopies
  obtain ⟨ds, hsent, hperm⟩ := hS.sent
  obtain ⟨pairs, hpairs, hpairsPerm⟩ := List.perm_comp_forall₂ hperm hcopies.flip
  exact ⟨rfl, hS.registers, hreach.nodup hs₀, ds, pairs, hsent, hpairsPerm, hpairs.flip⟩

def valuePacket : ServicePacket (List UInt8) :=
  clientPacket Utils.serSend [⟨3, 0, 1, 1, 1, [0, 0, 0, 0, 0, 0, 0xf0, 0x3f]⟩] []

theorem valuePacket_valid16 : valuePacket.Valid16 :=
  clientPacket_valid16 (by decide) (by simp [SubPacket.Valid16])

def bothSubscribed : Server :=
  (handlePkt .tight .reliable { clientPacket Utils.serSubscribe [⟨3, 1, 0, 0, 0, .ofList []⟩,
    ⟨4, 1, 0, 0, 0, .ofList []⟩] (.ofList []) with src := 3 } subscribed).server

def twoFramesPacket : ServicePacket (List UInt8) :=
  clientPacket Utils.serSend [⟨3, 0, 1, 1, 1, [0, 0, 0, 0, 0, 0, 0xf0, 0x3f]⟩,
    ⟨4, 0, 2, 1, 2, [0, 0, 0, 0, 0, 0, 0xf0, 0x3f, 0, 0, 0, 0, 0, 0, 0, 0x40]⟩] []

theorem twoFramesPacket_valid16 : twoFramesPacket.Valid16 :=
  clientPacket_valid16 (by decide) (by simp [SubPacket.Valid16])

theorem reaches_bothSubscribed : Reaches .tight .reliable afterInit bothSubscribed :=
  .tail (.single (.packet _)) (.packet _)

theorem bothSubscribed_answers {dst : UInt8} (hdst : dst = 2 ∨ dst = 3) :
    Answers .reliable bothSubscribed dst := by
  refine ⟨⟨0x7f000001, 20001⟩, ?_, fun k => ⟨rfl, fun buf hbuf => by simp [Env.reliable, hbuf]⟩⟩
  rcases hdst with rfl | rfl <;> decide +kernel

/-- The records are stored and three datagrams go out, all at once. -/
theorem twoFramesPacket_fansOut : ∃ p S, fromServiceBuf? (listenBuf (wire twoFramesPacket)) = some p ∧
    RunsAll .reliable (handlePkt .tight .reliable p bothSubscribed).spawned
      (handlePkt .tight .reliable p bothSubscribed).server [2, 1, 0, 4, 1, 2, 3, 4] S ∧
    (bothSubscribed.fanOut p).map (fun x => (x.1.dataID, x.2)) = [(3, 2), (3, 3), (4, 3)] ∧
    (handlePkt .tight .reliable p bothSubscribed).outcome = .returned none ∧
      registers S.server = registers bothSubscribed ∧
      (∀ id, (bothSubscribed.subscriberRegister id).Nodup) ∧
      ∃ ds pairs, S.server.world.sent = bothSubscribed.world.sent ++ ds ∧
        pairs.Perm (bothSubscribed.fanOut p) ∧ List.Forall₂ (CopyFor bothSubscribed p) pairs ds := by
  obtain ⟨p, hp, hv⟩ := listenBuf_decodes twoFramesPacket_valid16 (by decide)
  have hall : ((fromServiceBuf? (listenBuf (wire twoFramesPacket))).any fun p =>
      (handlePkt .tight .reliable p bothSubscribed).spawned.length = 5 ∧
      ((Senders.init (handlePkt .tight .reliable p bothSubscribed).server).run? .reliable
        (jobsOf (handlePkt .tight .reliable p bothSubscribed).spawned) [2, 1, 0, 4, 1, 2, 3, 4]).any
          fun S => ∀ t < 5, (S.phase t).isEnded) = true := by decide +kernel
  rw [hp, Option.any_some, decide_eq_true_eq, Option.any_eq_true] at hall
  obtain ⟨hlen, S, hS, hends⟩ := hall
  rw [decide_eq_true_eq] at hends
  have hrun : RunsAll .reliable (handlePkt .tight .reliable p bothSubscribed).spawned
      (handlePkt .tight .reliable p bothSubscribed).server [2, 1, 0, 4, 1, 2, 3, 4] S :=
    ⟨hS, by rw [hlen]; decide, fun t ht => hends t (hlen ▸ ht)⟩
  obtain ⟨f, k, hpf, hf, hk⟩ : ∃ f k, p.subpackets = [f, k] ∧
      f.visible = ⟨3, 0, 1, 1, 1, [0, 0, 0, 0, 0, 0, 0xf0, 0x3f]⟩ ∧
      k.visible = ⟨4, 0, 2, 1, 2, [0, 0, 0, 0, 0, 0, 0xf0, 0x3f, 0, 0, 0, 0, 0, 0, 0, 0x40]⟩ := by
    obtain ⟨f, fs, hpf, hf, hfs⟩ := List.map_eq_cons_iff.mp (congrArg ServicePacket.subpackets hv)
    obtain ⟨k, rfl, hk⟩ := List.map_eq_singleton_iff.mp hfs
    exact ⟨f, k, hpf, hf, hk⟩
  obtain ⟨q, rfl⟩ : ∃ q, f = ⟨3, 0, 1, 1, 1, q⟩ := ⟨f.payload, SubPacket.eq_of_visible hf⟩
  obtain ⟨q', rfl⟩ : ∃ q, k = ⟨4, 0, 2, 1, 2, q⟩ := ⟨k.payload, SubPacket.eq_of_visible hk⟩
  have hthree : bothSubscribed.subscriberRegister 3 = [2, 3] := by decide +kernel
  have hfour : bothSubscribed.subscriberRegister 4 = [3] := by decide +kernel
  have hfanOut : bothSubscribed.fanOut p = [(⟨3, 0, 1, 1, 1, q⟩, 2), (⟨3, 0, 1, 1, 1, q⟩, 3),
      (⟨4, 0, 2, 1, 2, q'⟩, 3)] := by
    simp [fanOut, hpf, hthree, hfour]
  have hshape : SubPacket.Shaped ⟨3, 0, 1, 1, 1, q⟩ :=
    ⟨Nat.le_refl 1, rfl, show 1 < 8191 by decide⟩
  have hshape' : SubPacket.Shaped ⟨4, 0, 2, 1, 2, q'⟩ :=
    ⟨show 1 ≤ 2 by decide, rfl, show 2 < 8191 by decide⟩
  refine ⟨p, S, hp, hrun, by rw [hfanOut]; rfl, sendPacket_fansOut .tight .reliable afterInit
    bothSubscribed _ p _ S (fun _ => rfl) reaches_bothSubscribed (len_listenBuf _) hp
    (congrArg ServicePacket.service hv) (fun f hf => ?_) (fun x hx => ?_) hrun⟩
  · rw [hpf] at hf
    rcases List.mem_pair.mp hf with rfl | rfl
    · exact hshape
    · exact hshape'
  · apply bothSubscribed_answers
    rw [hfanOut] at hx
    simp only [List.mem_cons, List.not_mem_nil, or_false] at hx
    rcases hx with rfl | rfl | rfl <;> simp

end DRDS.Server
