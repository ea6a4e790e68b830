import DRDS.Server.PacketFormat
import DRDS.Server.Payload
import DRDS.Server.Server

/-! The datagrams the server sends: what reaches the wire and what a receiver makes of it. -/
namespace DRDS.Server
open Go

theorem transmit_cases (e : Env) (dst : UInt8) (buf : List UInt8) (s : Server) :
    (∃ err w, s.transmit e dst buf = (some err, { s with world := w }) ∧
      w.tables = s.world.tables ∧ w.sent = s.world.sent) ∨
    (∃ addr w, s.transmit e dst buf = (none, { s with world := w }) ∧
      w.tables = s.world.tables ∧ s.allClientAddr dst = some addr ∧ buf.length ≤ 65507 ∧
      w.sent = s.world.sent ++ [(addr, buf)]) := by
  unfold transmit
  cases haddr : s.allClientAddr dst with
  | none => exact .inl ⟨_, _, rfl, rfl, rfl⟩
  | some addr =>
    cases hdial : e.dial s.world.calls addr with
    | some err =>
      simp only [Env.dialUDP, hdial]
      exact .inl ⟨_, _, rfl, rfl, rfl⟩
    | none =>
      simp only [Env.dialUDP, hdial]
      cases hwrite : e.write s.world.tick.calls addr buf with
      | some err => exact .inl ⟨_, _, rfl, rfl, rfl⟩
      | none => exact .inr ⟨addr, _, rfl, rfl, rfl, e.write_le _ _ _ hwrite, rfl⟩

/-- Nothing but an unknown client or the size of the datagram stops a reliable network. -/
theorem transmit_reliable {dst : UInt8} {buf : List UInt8} {s : Server} {addr : Addr}
    (haddr : s.allClientAddr dst = some addr) (hfit : buf.length ≤ 65507) :
    s.transmit .reliable dst buf = (none, { s with
      world := { s.world.tick.tick with sent := s.world.sent ++ [(addr, buf)] } }) := by
  simp [transmit, haddr, Env.dialUDP, Env.reliable, hfit]

/-- A transmission that starts at the `k`-th question reaches the client, whatever it sends. -/
def Reached (e : Env) (s : Server) (dst : UInt8) (k : ℕ) : Prop :=
  ∃ addr, s.allClientAddr dst = some addr ∧ e.dial k addr = none ∧ e.write (k + 1) addr [] = none

theorem transmit_of_reached {e : Env} (he : e.IgnoresBytes) {s : Server} {dst : UInt8}
    {buf : List UInt8} (h : Reached e s dst s.world.calls) (hfit : buf.length ≤ 65507) :
    ∃ addr w, s.transmit e dst buf = (none, { s with world := w }) ∧
      s.allClientAddr dst = some addr ∧ w.sent = s.world.sent ++ [(addr, buf)] := by
  obtain ⟨addr, haddr, hdial, hwrite⟩ := h
  have htaken : e.write s.world.tick.calls addr buf = none :=
    he _ addr [] buf (Nat.zero_le _) hfit hwrite
  refine ⟨addr, { s.world.tick.tick with sent := s.world.sent ++ [(addr, buf)] }, ?_, haddr, rfl⟩
  rw [transmit, haddr]
  simp only [Env.dialUDP, hdial, htaken]

theorem transmit_of_not_reached {e : Env} (he : e.IgnoresBytes) {s : Server} {dst : UInt8}
    (h : ¬ Reached e s dst s.world.calls) (buf : List UInt8) :
    ∃ err w, s.transmit e dst buf = (some err, { s with world := w }) ∧ w.sent = s.world.sent := by
  unfold transmit
  cases haddr : s.allClientAddr dst with
  | none => exact ⟨_, _, rfl, rfl⟩
  | some addr =>
    cases hdial : e.dial s.world.calls addr with
    | some err =>
      simp only [Env.dialUDP, hdial]
      exact ⟨_, _, rfl, rfl⟩
    | none =>
      simp only [Env.dialUDP, hdial]
      cases hwrite : e.write s.world.tick.calls addr buf with
      | some err => exact ⟨_, _, rfl, rfl⟩
      | none =>
        exact absurd ⟨addr, haddr, hdial, he _ addr buf [] (e.write_le _ _ _ hwrite) (Nat.zero_le _)
          hwrite⟩ h

theorem length_flatten_of_rectangular {α : Type} {mat : List (List α)} {C : ℕ}
    (h : ∀ row ∈ mat, row.length = C) : mat.flatten.length = mat.length * C := by
  induction mat with
  | nil => simp
  | cons row mat ih =>
    rw [List.forall_mem_cons] at h
    rw [List.flatten_cons, List.length_append, h.1, ih h.2, List.length_cons, Nat.succ_mul,
      Nat.add_comm]

/-- The time a subscriber takes a data packet to be of: header time and first subframe's offset. -/
def readTime? (buf : List UInt8) : Option UInt32 := do
  let synt ← uint32At? (.ofList buf) 8 12
  let timeDiff ← uint16At? (.ofList buf) 24 26
  some (synt + timeDiff.toUInt32)

theorem readTime?_wire {v : ServicePacket (List UInt8)} {f : SubPacket (List UInt8)}
    (h : v.subpackets = [f]) : readTime? (wire v) = some (v.simulinkTime + f.timeDiff.toUInt32) := by
  have hsynt : uint32At? (.ofList (wire v)) 8 12 = some v.simulinkTime :=
    uint32At_append (p := [v.src, v.dst] ++ leBytes 2 (nibbles v.toPacket).toNat ++
      leBytes 4 v.physicalTime.toNat) (q := leBytes 2 v.sequence.toNat ++ (leBytes 2 v.length.toNat ++
      ([v.service, v.flag, v.option1, v.option2] ++ (leBytes 2 v.subframeNum.toNat ++
        v.subpackets.flatMap subBuf))))
      (by simp [wire, serviceHeader, bufExt, headerBuf]) (by simp) rfl
  have hdiff : uint16At? (.ofList (wire v)) 24 26 = some f.timeDiff :=
    uint16At_append (p := serviceHeader v ++ leBytes 2 f.dataID.toNat)
      (q := [f.row, f.col] ++ (leBytes 2 f.length.toNat ++ f.payload))
      (by simp [wire, h, subBuf, subHeader]) (by simp) rfl
  rw [readTime?, hsynt, hdiff]
  rfl

section Data
variable (e : Env) (s : Server) (dst priority : UInt8) (synt : UInt32) (flag : UInt8)
  (dataID : UInt16) (mat : List (List Float64))

/-- The packet as a receiver sees it. -/
def dataWire : ServicePacket (List UInt8) :=
  let pkt := (dataPkt e s dst priority synt flag dataID mat).visible
  { pkt with toPacket := pkt.toPacket.repack }

theorem toServiceBuf_dataPkt :
    toServiceBuf (dataPkt e s dst priority synt flag dataID mat) =
      wire (dataWire e s dst priority synt flag dataID mat) := by
  rw [toServiceBuf_eq_wire, wire, wire, serviceHeader, serviceHeader, bufExt, bufExt, dataWire,
    headerBuf_repack]

theorem simulinkTime_dataWire :
    (dataWire e s dst priority synt flag dataID mat).simulinkTime = synt := rfl

def dataFrame (dataID : UInt16) (mat : List (List Float64)) : SubPacket (List UInt8) where
  dataID := dataID
  timeDiff := 0
  row := matRow mat
  col := matCol mat
  length := (matRow mat).toUInt16 * (matCol mat).toUInt16
  payload := payloadFloat2Buf mat.flatten

theorem subpackets_dataWire :
    (dataWire e s dst priority synt flag dataID mat).subpackets = [dataFrame dataID mat] := by
  simp [dataWire, dataPkt, ServicePacket.visible, ServicePacket.map, SubPacket.map, dataFrame,
    Utils.reserved]

@[simp] theorem length_toServiceBuf_dataPkt :
    (toServiceBuf (dataPkt e s dst priority synt flag dataID mat)).length =
      30 + 8 * mat.flatten.length := by
  simp [toServiceBuf, bufExt, headerBuf, dataPkt, subBuf, subHeader, SubPacket.visible,
    SubPacket.map]
  omega

theorem readTime?_dataPkt :
    readTime? (toServiceBuf (dataPkt e s dst priority synt flag dataID mat)) = some synt := by
  rw [toServiceBuf_dataPkt, readTime?_wire (subpackets_dataWire e s dst priority synt flag dataID mat),
    simulinkTime_dataWire]
  simp [dataFrame]

end Data

section Reached
variable {e : Env} (he : e.IgnoresBytes) {s : Server} {dst : UInt8} (priority : UInt8)
  (synt : UInt32) (flag : UInt8) (dataID : UInt16) {mat : List (List Float64)}
include he

theorem sendPkt_of_reached (h : Reached e s dst (s.world.calls + 1))
    (hfit : 30 + 8 * mat.flatten.length ≤ 65507) : ∃ addr, s.allClientAddr dst = some addr ∧
      (s.sendPkt e dst priority synt flag dataID mat).1 = none ∧
      (s.sendPkt e dst priority synt flag dataID mat).2.world.sent = s.world.sent ++
        [(addr, toServiceBuf (dataPkt e s dst priority synt flag dataID mat))] := by
  have hreach : Reached e s.numbered dst s.numbered.world.calls := h
  have hlen : (toServiceBuf (dataPkt e s dst priority synt flag dataID mat)).length ≤ 65507 := by
    rwa [length_toServiceBuf_dataPkt]
  obtain ⟨addr, w, ht, haddr, hw⟩ := transmit_of_reached he hreach hlen
  refine ⟨addr, haddr, ?_, ?_⟩
  · rw [sendPkt, ht]
  · rw [sendPkt, ht]
    exact hw

theorem sendPkt_of_not_reached (mat : List (List Float64))
    (h : ¬ Reached e s dst (s.world.calls + 1)) :
    (s.sendPkt e dst priority synt flag dataID mat).1 ≠ none ∧
      (s.sendPkt e dst priority synt flag dataID mat).2.world.sent = s.world.sent := by
  have hreach : ¬ Reached e s.numbered dst s.numbered.world.calls := h
  obtain ⟨err, w, ht, hw⟩ := transmit_of_not_reached he hreach
    (toServiceBuf (dataPkt e s dst priority synt flag dataID mat))
  rw [sendPkt, ht]
  exact ⟨Option.some_ne_none _, hw⟩

/-- A data packet goes out exactly when it fits and the client is reached. -/
theorem sendPkt_cases (mat : List (List Float64)) :
    (∃ err w, s.sendPkt e dst priority synt flag dataID mat =
        (some err, { s.numbered with world := w }) ∧
      w.tables = s.world.tables ∧ w.sent = s.world.sent ∧
      ¬ (Reached e s dst (s.world.calls + 1) ∧ 30 + 8 * mat.flatten.length ≤ 65507)) ∨
    ∃ addr w, s.sendPkt e dst priority synt flag dataID mat = (none, { s.numbered with world := w }) ∧
      w.tables = s.world.tables ∧ s.allClientAddr dst = some addr ∧
      w.sent = s.world.sent ++
        [(addr, toServiceBuf (dataPkt e s dst priority synt flag dataID mat))] ∧
      Reached e s dst (s.world.calls + 1) ∧ 30 + 8 * mat.flatten.length ≤ 65507 := by
  have hlen := length_toServiceBuf_dataPkt e s dst priority synt flag dataID mat
  unfold sendPkt
  rcases transmit_cases e dst (toServiceBuf (dataPkt e s dst priority synt flag dataID mat))
    s.numbered with ⟨err, w, ht, htab, hw⟩ | ⟨addr, w, ht, htab, haddr, hfit, hw⟩
  · refine .inl ⟨err, w, ht, htab, hw, fun ⟨hreach, hfit⟩ => ?_⟩
    have hreach' : Reached e s.numbered dst s.numbered.world.calls := hreach
    obtain ⟨_, _, hnone, _⟩ := transmit_of_reached he hreach' (hlen.trans_le hfit)
    cases ht.symm.trans hnone
  · refine .inr ⟨addr, w, ht, htab, haddr, hw, ?_, hlen ▸ hfit⟩
    by_contra hreach
    have hreach' : ¬ Reached e s.numbered dst s.numbered.world.calls := hreach
    obtain ⟨_, _, herr, _⟩ := transmit_of_not_reached he hreach'
      (toServiceBuf (dataPkt e s dst priority synt flag dataID mat))
    cases ht.symm.trans herr

end Reached

/-- A datagram is one subframe with the whole matrix, and its header says how long it is. -/
def Carries (buf : List UInt8) (dataID : UInt16) (R C : ℕ) (mat : List (List Float64)) : Prop :=
  ∃ p f, fromServiceBuf? (.ofList buf) = some p ∧ p.subpackets = [f] ∧ f.dataID = dataID ∧
    f.row.toNat = R ∧ f.col.toNat = C ∧ f.length.toNat = R * C ∧
    f.payload.toList = payloadFloat2Buf mat.flatten ∧ buf.length = 16 + p.length.toNat

def SendsWhole (s t : Server) (dataID : UInt16) (C : ℕ) (mat : List (List Float64)) : Prop :=
  ∃ addr buf, t.world.sent = s.world.sent ++ [(addr, buf)] ∧
    Carries buf dataID mat.length C mat

section Whole
variable {e : Env} {s : Server} {dst priority : UInt8} {synt : UInt32} {flag : UInt8}
  {dataID : UInt16} {mat : List (List Float64)} {C : ℕ}

theorem matCol_toNat (hC : ∀ row ∈ mat, row.length = C) (hR : mat ≠ []) :
    (matCol mat).toNat = C % 256 := by
  obtain ⟨row, rest, rfl⟩ := List.exists_cons_of_ne_nil hR
  rw [matCol, List.headD_cons, hC row (by simp), UInt8.toNat_ofNat']

theorem dimensions_of_lt (hC : ∀ row ∈ mat, row.length = C) (hR : mat ≠ [])
    (hlt : mat.length < 256 ∧ C < 256) :
    (matRow mat).toNat = mat.length ∧ (matCol mat).toNat = C ∧
      ((matRow mat).toUInt16 * (matCol mat).toUInt16).toNat = mat.length * C := by
  have hrow : (matRow mat).toNat = mat.length := by
    rw [matRow, UInt8.toNat_ofNat', Nat.mod_eq_of_lt hlt.1]
  have hcol : (matCol mat).toNat = C := by rw [matCol_toNat hC hR, Nat.mod_eq_of_lt hlt.2]
  refine ⟨hrow, hcol, ?_⟩
  have hprod : mat.length * C ≤ 255 * 255 :=
    Nat.mul_le_mul (Nat.le_of_lt_succ hlt.1) (Nat.le_of_lt_succ hlt.2)
  rw [UInt16.toNat_mul, UInt8.toNat_toUInt16, UInt8.toNat_toUInt16, hrow, hcol]
  omega

theorem dataWire_valid16 (hC : ∀ row ∈ mat, row.length = C) (hR : mat ≠ [])
    (hlt : mat.length < 256 ∧ C < 256) (hfit : mat.length * C < 8191) :
    (dataWire e s dst priority synt flag dataID mat).Valid16 := by
  have hn := (dataPkt e s dst priority synt flag dataID mat).visible.toPacket.nibbles_repack.1
  refine ⟨⟨hn.1, hn.2, hn.3, hn.4⟩, rfl, ?_⟩
  rw [subpackets_dataWire]
  intro f hf
  obtain rfl := List.mem_singleton.mp hf
  have hlen : (dataFrame dataID mat).length.toNat = mat.length * C :=
    (dimensions_of_lt hC hR hlt).2.2
  apply SubPacket.valid16_of_lt
  · rw [hlen, ← length_flatten_of_rectangular hC]
    exact length_payloadFloat2Buf _
  · omega

variable (e s dst priority synt flag dataID) in
/-- Nothing is lost in the encoding. -/
theorem decodes_dataPkt (hC : ∀ row ∈ mat, row.length = C) (hR : mat ≠ [])
    (hlt : mat.length < 256 ∧ C < 256) (hfit : mat.length * C < 8191) :
    ∃ p, fromServiceBuf? (.ofList (toServiceBuf (dataPkt e s dst priority synt flag dataID mat))) =
      some p ∧ p.visible = dataWire e s dst priority synt flag dataID mat :=
  fromServiceBuf?_complete (z := []) (dataWire_valid16 hC hR hlt hfit)
    (by rw [Slice.toList_ofList, toServiceBuf_dataPkt, List.append_nil])

variable (e s dst priority synt flag dataID) in
/-- Of a single row a receiver decodes as many values as the low byte of their count says. -/
theorem decodes_row (values : List Float64) :
    ∃ p f, fromServiceBuf? (.ofList (toServiceBuf
        (dataPkt e s dst priority synt flag dataID [values]))) = some p ∧ p.subpackets = [f] ∧
      f.dataID = dataID ∧
      f.payload.toList = (payloadFloat2Buf values).take (8 * (values.length % 256)) := by
  let frame := dataFrame dataID [values]
  let taken := frame.payload.take (8 * (values.length % 256))
  let v := { dataWire e s dst priority synt flag dataID [values] with
    subpackets := [{ frame with payload := taken }] }
  have hpayload : frame.payload = payloadFloat2Buf values := by simp [frame, dataFrame]
  have hword : frame.length.toNat = values.length % 256 := by
    change ((matRow [values]).toUInt16 * (matCol [values]).toUInt16).toNat = _
    have hcol : (matCol [values]).toNat = values.length % 256 := UInt8.toNat_ofNat'
    rw [UInt16.toNat_mul, UInt8.toNat_toUInt16, UInt8.toNat_toUInt16, hcol]
    change 1 * (values.length % 256) % 65536 = _
    omega
  have htaken : taken.length = 8 * frame.length.toNat := by
    rw [List.length_take, hpayload, length_payloadFloat2Buf, hword]
    omega
  have hvalid : v.Valid16 := by
    have hn := (dataPkt e s dst priority synt flag dataID [values]).visible.toPacket.nibbles_repack.1
    refine ⟨⟨hn.1, hn.2, hn.3, hn.4⟩, rfl, fun f hf => ?_⟩
    obtain rfl := List.mem_singleton.mp hf
    have hlt : frame.length.toNat < 8191 := by omega
    exact SubPacket.valid16_of_lt htaken hlt
  have hbuf : toServiceBuf (dataPkt e s dst priority synt flag dataID [values]) =
      wire v ++ frame.payload.drop (8 * (values.length % 256)) := by
    rw [toServiceBuf_dataPkt, wire, wire, subpackets_dataWire, List.flatMap_singleton,
      List.flatMap_singleton, subBuf, subBuf, List.append_assoc, List.append_assoc,
      List.take_append_drop]
    rfl
  obtain ⟨p, hp, hvisible⟩ := fromServiceBuf?_complete hvalid
    ((Slice.toList_ofList _).trans hbuf)
  have hsubs : p.subpackets.map SubPacket.visible = v.subpackets :=
    congrArg ServicePacket.subpackets hvisible
  obtain ⟨f, hf, hframe⟩ := List.map_eq_singleton_iff.mp hsubs
  have htake := congrArg SubPacket.payload hframe
  exact ⟨p, f, hp, hf, congrArg SubPacket.dataID hframe, hpayload ▸ htake⟩

theorem carries_of_lt (hC : ∀ row ∈ mat, row.length = C) (hR : mat ≠ [])
    (hlt : mat.length < 256 ∧ C < 256) (hfit : 30 + 8 * (mat.length * C) ≤ 65507) :
    Carries (toServiceBuf (dataPkt e s dst priority synt flag dataID mat)) dataID mat.length C
      mat := by
  obtain ⟨hrow, hcol, hword⟩ := dimensions_of_lt hC hR hlt
  have hflat := length_flatten_of_rectangular hC
  obtain ⟨p, hp, hv⟩ := decodes_dataPkt e s dst priority synt flag dataID hC hR hlt (by omega)
  have hsubs : p.subpackets.map SubPacket.visible = [dataFrame dataID mat] := by
    rw [← subpackets_dataWire e s dst priority synt flag]
    exact congrArg ServicePacket.subpackets hv
  obtain ⟨f, hpf, hf⟩ := List.map_eq_singleton_iff.mp hsubs
  have hplen : p.length.toNat = 14 + 8 * (mat.length * C) := by
    have h : p.length = 6 + 8 + (matRow mat).toUInt16 * (matCol mat).toUInt16 * 8 :=
      congrArg (fun v => v.length) hv
    rw [h, UInt16.toNat_add, UInt16.toNat_mul, hword]
    change (14 + mat.length * C * 8 % 65536) % 65536 = _
    omega
  refine ⟨p, f, hp, hpf, congrArg SubPacket.dataID hf, ?_, ?_, ?_, congrArg SubPacket.payload hf, ?_⟩
  · exact (congrArg (fun f => f.row.toNat) hf).trans hrow
  · exact (congrArg (fun f => f.col.toNat) hf).trans hcol
  · exact (congrArg (fun f => f.length.toNat) hf).trans hword
  · rw [length_toServiceBuf_dataPkt, hflat, hplen]
    omega

/-- A data reply that goes out carries its whole matrix exactly when rows and columns each
fit in a byte. -/
theorem sendPkt_sendsWhole_iff (hC : ∀ row ∈ mat, row.length = C) (hR : 1 ≤ mat.length)
    (hsent : (s.sendPkt e dst priority synt flag dataID mat).1 = none) :
    SendsWhole s (s.sendPkt e dst priority synt flag dataID mat).2 dataID C mat ↔
      mat.length < 256 ∧ C < 256 := by
  constructor
  · rintro ⟨_, _, _, p, f, _, _, _, hrow, hcol, _⟩
    rw [← hrow, ← hcol]
    exact ⟨f.row.toNat_lt, f.col.toNat_lt⟩
  · intro hlt
    have hne : mat ≠ [] := List.ne_nil_of_length_pos hR
    rcases transmit_cases e dst (toServiceBuf (dataPkt e s dst priority synt flag dataID mat))
      s.numbered with ⟨err, w, ht, _, _⟩ | ⟨addr, w, ht, _, _, hfit, hw⟩
    · rw [sendPkt, ht] at hsent
      cases hsent
    · rw [length_toServiceBuf_dataPkt, length_flatten_of_rectangular hC] at hfit
      exact ⟨addr, _, by rw [sendPkt, ht]; exact hw, carries_of_lt hC hne hlt hfit⟩

end Whole

theorem sendPkt_scalar_sendsWhole_iff :
    SendsWhole afterInit (sendPkt .reliable 2 7 500 0 3 [[9]] afterInit).2 3 1 [[9]] ↔
      [[9]].length < 256 ∧ 1 < 256 :=
  sendPkt_sendsWhole_iff (by simp) (by decide) rfl

/-- A history of 256 rows goes out with `ROW = 0` and `LENGTH = 0`. -/
theorem sendPkt_history_not_sendsWhole :
    (sendPkt .reliable 2 7 500 0 3 (.replicate 256 [9]) afterInit).1 = none ∧
      ¬ SendsWhole afterInit (sendPkt .reliable 2 7 500 0 3 (.replicate 256 [9]) afterInit).2 3 1
        (.replicate 256 [9]) := by
  refine ⟨by decide +kernel, ?_⟩
  rintro ⟨_, _, _, p, f, _, _, _, hrow, _⟩
  have h := f.row.toNat_lt
  rw [hrow, List.length_replicate] at h
  omega

end DRDS.Server
