import DRDS.PyApi.Replies
import DRDS.Server.HistoryLoop
import DRDS.Server.Requests

/-! The history a subscriber is sent, as the client reads it: the rows of the first subframe are
cut by `ROW`, `COL` and `LENGTH`. -/
namespace DRDS
open Go

/-! ### The first subframe -/

namespace PyApi
open Server (wire subBuf subHeader payloadFloat2Buf length_payloadFloat2Buf)

/-- The rows of a subframe, one after the other in its payload. -/
def SubPacket.rows (q : SubPacket) : List (List Float64) :=
  (List.range q.header.row.toNat).map fun i =>
    (q.payload.drop (i * q.header.col.toNat)).take q.header.col.toNat

def rowsOfBuf? (buf : List UInt8) : Option (List (List Float64)) := do
  let pkt ← Packet.buf2Pkt? buf
  let q ← pkt.subpackets.head?
  some q.rows

theorem chunks_flatten {α : Type} {mat : List (List α)} {C : ℕ} (h : ∀ row ∈ mat, row.length = C) :
    (List.range mat.length).map (fun i => (mat.flatten.drop (i * C)).take C) = mat := by
  induction mat with
  | nil => rfl
  | cons row mat ih =>
    rw [List.forall_mem_cons] at h
    rw [List.length_cons, List.range_succ_eq_map, List.map_cons, List.map_map, List.flatten_cons,
      Nat.zero_mul, List.drop_zero, List.take_left' h.1]
    congr 1
    conv_rhs => rw [← ih h.2]
    apply List.map_congr_left
    intro i _
    rw [Function.comp_apply, Nat.succ_mul, Nat.add_comm, ← List.drop_drop, List.drop_left' h.1]

theorem SubPacket.buf2Pkt?_of_doubles {f : Server.SubPacket (List UInt8)} {vals : List Float64}
    (hf : f.payload = payloadFloat2Buf vals) : SubPacket.buf2Pkt? (subBuf f) =
      if f.length.toNat ≤ vals.length then
        some (⟨⟨f.dataID, f.timeDiff, f.row, f.col, f.length⟩, vals.take f.length.toNat⟩,
          8 + 8 * f.length.toNat)
      else none := by
  let h : SubHeader := ⟨f.dataID, f.timeDiff, f.row, f.col, f.length⟩
  have hbytes : subBuf f = h.bytes ++ payloadFloat2Buf vals := by
    rw [subBuf, hf]
    rfl
  split_ifs with hle
  · have hcut : payloadFloat2Buf vals =
        payloadFloat2Buf (vals.take h.length.toNat) ++ payloadFloat2Buf (vals.drop h.length.toNat) := by
      conv_lhs => rw [← List.take_append_drop h.length.toNat vals]
      exact List.flatMap_append ..
    rw [hbytes, hcut, buf2Pkt?_append (List.length_take_of_le hle)]
  · have hbody : ((subBuf f).drop 8).take (8 * h.length.toNat) = payloadFloat2Buf vals := by
      rw [hbytes, List.drop_left' h.length_bytes, List.take_of_length_le]
      rw [length_payloadFloat2Buf]
      exact Nat.mul_le_mul_left 8 (Nat.le_of_not_le hle)
    have hshort : ¬ (payloadFloat2Buf vals).length = 8 * h.length.toNat := by
      rw [length_payloadFloat2Buf]
      change ¬ vals.length ≥ h.length.toNat at hle
      omega
    have hheader : SubHeader.fromBuffer? (subBuf f) = some h := by
      rw [hbytes, h.fromBuffer?_append]
    simp only [buf2Pkt?, hheader, hbody, if_neg hshort, Option.bind_eq_bind, Option.bind_some]

theorem rowsOfBuf?_wire {v : Server.ServicePacket (List UInt8)} {f : Server.SubPacket (List UInt8)}
    {vals : List Float64} (hsub : v.subpackets = [f]) (hnum : v.subframeNum = 1)
    (hf : f.payload = payloadFloat2Buf vals) : rowsOfBuf? (wire v) =
      if f.length.toNat ≤ vals.length then
        some (SubPacket.rows ⟨⟨f.dataID, f.timeDiff, f.row, f.col, f.length⟩,
          vals.take f.length.toNat⟩)
      else none := by
  have hlen : 22 ≤ (wire v).length := by
    rw [wire, List.length_append, Server.length_serviceHeader]
    omega
  obtain ⟨header, hheader⟩ : ∃ header, Header.fromBuffer? (wire v) = some header := by
    rw [Header.fromBuffer?, if_pos hlen]
    exact ⟨_, rfl⟩
  have hone : header.subframeNum = 1 := (Header.fromBuffer?_wire hheader).2.trans hnum
  have hrange : List.range (1 : UInt16).toNat = [0] := by decide
  simp only [rowsOfBuf?, Packet.buf2Pkt?, hheader, hone, hrange, List.foldlM_cons, List.foldlM_nil,
    drop_wire_of_single hsub, SubPacket.buf2Pkt?_of_doubles hf, Option.bind_eq_bind, Option.bind_some]
  split_ifs
  · rfl
  · rfl

/-- A data packet is cut into as many rows as the low byte of their number says, each as long as
the low byte of the length of the first. -/
theorem rowsOfBuf?_dataPkt (e : Env) (s : Server) (dst priority : UInt8) (synt : UInt32)
    (flag : UInt8) (id : UInt16) {mat : List (List Float64)} {R C : ℕ} (hR : mat.length % 256 = R)
    (hC : (mat.headD []).length % 256 = C) :
    rowsOfBuf? (Server.toServiceBuf (Server.dataPkt e s dst priority synt flag id mat)) =
      if R * C ≤ mat.flatten.length then
        some ((List.range R).map fun i => (mat.flatten.drop (i * C)).take C)
      else none := by
  have hrow : (Server.matRow mat).toNat = R := by rw [Server.matRow, UInt8.toNat_ofNat', ← hR]
  have hcol : (Server.matCol mat).toNat = C := by rw [Server.matCol, UInt8.toNat_ofNat', ← hC]
  have hlength : (Server.dataFrame id mat).length.toNat = R * C := by
    have hprod : R * C ≤ 255 * 255 := Nat.mul_le_mul (by omega) (by omega)
    rw [Server.dataFrame, UInt16.toNat_mul, UInt8.toNat_toUInt16, UInt8.toNat_toUInt16, hrow, hcol]
    omega
  rw [Server.toServiceBuf_dataPkt, rowsOfBuf?_wire (Server.subpackets_dataWire ..) rfl rfl, hlength]
  split_ifs with hle
  · rw [SubPacket.rows]
    dsimp only [Server.dataFrame]
    rw [hrow, hcol]
    congr 1
    apply List.map_congr_left
    intro i hi
    have hend : i * C + C ≤ R * C := by
      rw [← Nat.succ_mul]
      exact Nat.mul_le_mul_right C (List.mem_range.mp hi)
    rw [List.drop_take, List.take_take, Nat.min_eq_left (by omega)]
  · rfl

end PyApi

/-! ### The history packet -/

namespace Server
variable {e : Env} {s : Server} {id : UInt16} {t : Table}

/-- The history is read time by time, from the start to the last time. -/
theorem history?_readsTimes {last i : UInt32} {n : ℕ} {rows : List (List Float64)} {u : Server}
    (ht : s.world.tables id = some t) (h : s.history? e id last n i = some (rows, u)) :
    last.toNat < 2 ^ 32 - 1 ∧ rows.length = last.toNat + 1 - i.toNat ∧
      s.handler.ReadsTimes e id t i s.world.calls rows := by
  have hlast : last.toNat < 2 ^ 32 - 1 := by
    have hlt := last.toNat_lt
    by_contra hge
    rw [history?_of_max e s id (by omega)] at h
    cases h
  refine ⟨hlast, ?_⟩
  induction n generalizing i s rows with
  | zero => cases h
  | succ n ih =>
    unfold history? at h
    split_ifs at h with hle
    · obtain ⟨recvT, values, hread, hvalues⟩ := s.handler.readSynt_values (e := e) i ht
      rw [hread] at h
      dsimp only at h
      split at h
      · cases h
      · rename_i rest u' hrest
        cases h
        have hnext : (i + 1).toNat = i.toNat + 1 := by
          rw [UInt32.le_iff_toNat_le] at hle
          exact toNat_add_one (by omega)
        obtain ⟨hlen, hrows⟩ := ih (s := { s with world := s.world.tick }) ht hrest
        rw [UInt32.le_iff_toNat_le] at hle
        exact ⟨by rw [List.length_cons, hlen, hnext]; omega, .cons hvalues hrows⟩
    · cases h
      rw [UInt32.le_iff_toNat_le] at hle
      exact ⟨by rw [List.length_nil]; omega, .nil⟩

theorem service_toServiceBuf (pkt : ServicePacket (Slice UInt8)) :
    (toServiceBuf pkt)[16]? = some pkt.service := by
  have hbytes : toServiceBuf pkt = headerBuf pkt.toPacket ++ pkt.service ::
      (toServiceBuf pkt).drop 17 := by
    simp [toServiceBuf, bufExt, headerBuf, leBytes]
  rw [hbytes, List.getElem?_append_right (by simp)]
  simp

theorem transmit_sent (e : Env) (dst : UInt8) (buf : List UInt8) (s : Server) :
    (s.transmit e dst buf).2.world.sent = s.world.sent ∨
      ∃ addr, (s.transmit e dst buf).2.world.sent = s.world.sent ++ [(addr, buf)] := by
  rcases transmit_cases e dst buf s with ⟨err, w, ht, _, hw⟩ | ⟨addr, w, ht, _, _, _, hw⟩
  · rw [ht]
    exact .inl hw
  · rw [ht]
    exact .inr ⟨addr, hw⟩

theorem subscribeAck_sent (e : Env) (dst : UInt8) (synt : UInt32) (s : Server) :
    ∃ ds, (s.subscribeAck e dst synt).2.world.sent = s.world.sent ++ ds ∧
      ∀ d ∈ ds, d.2[16]? = some Utils.serResponse := by
  have hsame : (s.subscribeAck e dst synt).2.world.sent = (s.numbered.transmit e dst (toServiceBuf
      (optPkt e s dst Utils.priorityHight synt Utils.serResponse Utils.flagSingle Utils.reserved
        Utils.reserved))).2.world.sent := by
    unfold subscribeAck sendOpt
    dsimp only
    split
    all_goals
      rename_i heq
      rw [heq]
  rw [hsame]
  rcases transmit_sent e dst (toServiceBuf (optPkt e s dst Utils.priorityHight synt
    Utils.serResponse Utils.flagSingle Utils.reserved Utils.reserved)) s.numbered with
    hnone | ⟨addr, hone⟩
  · exact ⟨[], by rw [hnone, List.append_nil]; rfl, by simp⟩
  · refine ⟨_, hone, ?_⟩
    intro d hd
    rw [List.mem_singleton.mp hd]
    exact service_toServiceBuf _

/-- A data packet that `Subscribe` adds to those sent is the history from the start it was given
to the last time. -/
theorem history_of_sent {dst : UInt8} {synt : UInt32} {rate : UInt16} {addr : Addr}
    {buf : List UInt8}
    (hsent : (addr, buf) ∈ (s.subscribe e id dst synt rate).2.world.sent.drop s.world.sent.length)
    (hdata : buf[16]? = some Utils.serSend) :
    synt ≤ (s.queryLastSynt e id).1 ∧ ∃ rows u,
      (s.queryLastSynt e id).2.history? e id (s.queryLastSynt e id).1 historyRounds synt =
        some (rows, u) ∧
      buf = toServiceBuf (dataPkt e u dst Utils.priorityMedium synt Utils.flagSingle id rows) := by
  have hack : ∀ v : Server, v.world.sent = s.world.sent →
      (addr, buf) ∉ (v.subscribeAck e dst synt).2.world.sent.drop s.world.sent.length := by
    intro v hv hmem
    obtain ⟨ds, hds, hservice⟩ := subscribeAck_sent e dst synt v
    rw [hds, hv, List.drop_left] at hmem
    have hresponse := hservice _ hmem
    rw [hdata] at hresponse
    exact absurd (Option.some.inj hresponse) (by decide)
  have hquery : (s.queryLastSynt e id).2.world.sent = s.world.sent := by
    change (DRDS.queryLastSynt e id s.world).2.sent = s.world.sent
    rw [queryLastSynt_world]
    rfl
  unfold subscribe subscribeFrom at hsent
  split_ifs at hsent
  · dsimp only at hsent
    split_ifs at hsent with hle
    · refine ⟨hle, ?_⟩
      split at hsent
      · rw [hquery, List.drop_length] at hsent
        cases hsent
      · rename_i rows u hhist
        refine ⟨rows, u, hhist, ?_⟩
        obtain ⟨calls, hu⟩ := history?_besides hhist
        have husent : u.world.sent = s.world.sent := by
          rw [hu]
          exact hquery
        rcases transmit_sent e dst (toServiceBuf (dataPkt e u dst Utils.priorityMedium synt
          Utils.flagSingle id rows)) u.numbered with hnone | ⟨addr', hone⟩
        · exact absurd hsent (hack _ (hnone.trans husent))
        · obtain ⟨ds, hds, hservice⟩ := subscribeAck_sent e dst synt
            (u.sendPkt e dst Utils.priorityMedium synt Utils.flagSingle id rows).2
          have hsend : (u.sendPkt e dst Utils.priorityMedium synt Utils.flagSingle id
              rows).2.world.sent = u.numbered.world.sent ++ [(addr', toServiceBuf (dataPkt e u dst
                Utils.priorityMedium synt Utils.flagSingle id rows))] := hone
          have hnumbered : u.numbered.world.sent = s.world.sent := husent
          rw [hds, hsend, hnumbered, List.append_assoc, List.drop_left] at hsent
          rcases List.mem_cons.mp hsent with heq | hmem
          · exact congrArg Prod.snd heq
          · have hresponse := hservice _ hmem
            rw [hdata] at hresponse
            exact absurd (Option.some.inj hresponse) (by decide)
    · exact absurd hsent (hack _ hquery)
  · exact absurd hsent (hack _ rfl)

/-- The receiver of a history packet has the values of the records from the start to the last
time, in order of time. -/
def ReceivesHistory (h : Handler) (id : UInt16) (t : Table) (synt last : UInt32)
    (buf : List UInt8) : Prop :=
  ∃ listed, InOrder (t.between synt last) listed ∧
    PyApi.rowsOfBuf? buf = some (listed.map (Row.read (h.dataShapes id).toNat))

/-- As many records as times, counted in a byte. Unless records have no values there is a record
at the start, and of every time at most one, which is read. -/
structure FitsHistory (e : Env) (s : Server) (id : UInt16) (t : Table) (synt last : UInt32) :
    Prop where
  count : (t.between synt last).length = (last.toNat - synt.toNat + 1) % 256
  rows : s.handler.dataShapes id = 0 ∨ s.handler.Scans id t ∧ (∃ r ∈ t.rows, r.iter = synt) ∧
    ∀ j ≤ last.toNat - synt.toNat, t.Single e (synt.toNat + j) (s.world.calls + 1 + j)

theorem lastRecord_or_zero (ht : s.world.tables id = some t) :
    (∃ r ∈ t.rows, r.iter = (s.queryLastSynt e id).1) ∨ (s.queryLastSynt e id).1 = 0 := by
  by_cases he : e.statement s.world.calls = none
  · have hlast : (s.queryLastSynt e id).1 = t.lastSynt := by
      rw [queryLastSynt, queryLastSynt_of_answer ht he]
    rw [hlast]
    by_cases hrows : t.rows = []
    · right
      rw [Table.lastSynt, hrows]
      rfl
    · exact .inl (t.exists_lastSynt hrows)
  · right
    rw [queryLastSynt, queryLastSynt_of_error e id s.world he]

section Received
variable {h : Handler} {synt last : UInt32} {k : ℕ} {rows : List (List Float64)}

theorem head_of_readsTimes (hr : h.ReadsTimes e id t synt k rows) (hne : rows ≠ []) :
    h.SyntValues e id t synt k (rows.headD []) := by
  cases hr with
  | nil => exact absurd rfl hne
  | cons hv => exact hv

theorem between_ne_nil (hle : synt ≤ last) (hlast : (∃ r ∈ t.rows, r.iter = last) ∨ last = 0)
    (hcount : (t.between synt last).length = (last.toNat - synt.toNat + 1) % 256) :
    t.between synt last ≠ [] := by
  rcases hlast with ⟨r, hr, rfl⟩ | rfl
  · apply List.ne_nil_of_mem (a := r)
    rw [Table.between, List.mem_filter]
    exact ⟨hr, decide_eq_true ⟨hle, UInt32.le_refl _⟩⟩
  · intro hnil
    rw [hnil] at hcount
    simp at hcount

theorem add_length_lt (hle : synt ≤ last) (hlt : last.toNat < 2 ^ 32 - 1)
    (hlen : rows.length = last.toNat - synt.toNat + 1) : synt.toNat + rows.length < 2 ^ 32 := by
  have hle' := UInt32.le_iff_toNat_le.mp hle
  omega

theorem rows_of_received (hr : h.ReadsTimes e id t synt k rows) (hle : synt ≤ last)
    (hlt : last.toNat < 2 ^ 32 - 1) (hlen : rows.length = last.toNat - synt.toNat + 1)
    (hlast : (∃ r ∈ t.rows, r.iter = last) ∨ last = 0) {listed : List Row} {C : ℕ}
    (hC : (rows.headD []).length % 256 = C) (hlisted : InOrder (t.between synt last) listed)
    (hfit : rows.length % 256 * C ≤ rows.flatten.length)
    (hcut : (List.range (rows.length % 256)).map (fun i => (rows.flatten.drop (i * C)).take C) =
      listed.map (Row.read (h.dataShapes id).toNat)) :
    (t.between synt last).length = rows.length % 256 ∧ (h.dataShapes id = 0 ∨ h.Scans id t ∧
      (∃ r ∈ t.rows, r.iter = synt) ∧ ∀ j < rows.length, t.Single e (synt.toNat + j) (k + j)) := by
  have hcount : (t.between synt last).length = rows.length % 256 := by
    have hlength := congrArg List.length hcut
    rw [List.length_map, List.length_map, List.length_range] at hlength
    rw [← hlisted.perm.length_eq, ← hlength]
  refine ⟨hcount, ?_⟩
  by_cases hzero : h.dataShapes id = 0
  · exact .inl hzero
  · right
    have hpos : 0 < (h.dataShapes id).toNat :=
      Nat.pos_of_ne_zero fun heq => hzero (UInt8.toNat_inj.mp heq)
    have hne := between_ne_nil hle hlast (hcount.trans (by rw [hlen]))
    have hR : 0 < rows.length % 256 := hcount ▸ List.length_pos_iff.mpr hne
    have hshape : (h.dataShapes id).toNat ≤ C := by
      have hfirst := congrArg List.head? hcut
      obtain ⟨n, hn⟩ := Nat.exists_eq_succ_of_ne_zero hR.ne'
      rw [hn, List.range_succ_eq_map, List.map_cons, List.head?_cons, List.head?_map] at hfirst
      obtain ⟨r, _, hread⟩ := Option.map_eq_some_iff.mp hfirst.symm
      have hwidth := congrArg List.length hread
      rw [Row.length_read, List.length_take] at hwidth
      omega
    have hhead := head_of_readsTimes hr (List.ne_nil_of_length_pos (by omega))
    have hsum := add_length_lt hle hlt hlen
    have hfrom : (t.fromTime synt.toNat rows.length).length = rows.length % 256 := by
      rw [hlen, (t.inOrder_fromTime hle).perm.length_eq, hcount, hlen]
    have hall : (h.dataShapes id).toNat * (t.fromTime synt.toNat rows.length).length ≤
        rows.flatten.length := by
      rw [hfrom, Nat.mul_comm]
      exact (Nat.mul_le_mul_left _ hshape).trans hfit
    have hsingle := hr.single hsum hpos hall
    generalize hv : rows.headD [] = values at hhead hC
    cases hhead with
    | row hrow _ hscans =>
      obtain ⟨hmem, htime⟩ := Table.mem_of_rowAt? hrow
      exact ⟨hscans, ⟨_, hmem, htime⟩, hsingle⟩
    | none =>
      rw [List.length_nil] at hC
      omega

theorem received_of_rows (hr : h.ReadsTimes e id t synt k rows) (hle : synt ≤ last)
    (hlt : last.toNat < 2 ^ 32 - 1) (hlen : rows.length = last.toNat - synt.toNat + 1) {C : ℕ}
    (hC : (rows.headD []).length % 256 = C)
    (hcount : (t.between synt last).length = rows.length % 256)
    (hrows : h.dataShapes id = 0 ∨ h.Scans id t ∧ (∃ r ∈ t.rows, r.iter = synt) ∧
      ∀ j < rows.length, t.Single e (synt.toNat + j) (k + j)) :
    rows.length % 256 * C ≤ rows.flatten.length ∧
      (List.range (rows.length % 256)).map (fun i => (rows.flatten.drop (i * C)).take C) =
        (t.fromTime synt.toNat rows.length).map (Row.read (h.dataShapes id).toNat) := by
  have hsum := add_length_lt hle hlt hlen
  have hfrom : (t.fromTime synt.toNat rows.length).length = rows.length % 256 := by
    rw [← hcount, hlen, (t.inOrder_fromTime hle).perm.length_eq]
  have hhead := head_of_readsTimes hr (List.ne_nil_of_length_pos (by omega))
  have hflat := hr.length_le hsum
  rcases hrows with hzero | ⟨hscans, ⟨r, hmem, htime⟩, hsingle⟩
  · -- no columns: every row is empty on either side
    have hshape : (h.dataShapes id).toNat = 0 := by
      rw [hzero]
      rfl
    have hCzero : C = 0 := by
      have hwidth := hhead.length_le
      rw [hshape, Nat.zero_mul] at hwidth
      omega
    have hread : Row.read 0 = fun _ => [] :=
      funext fun r => List.eq_nil_of_length_eq_zero (r.length_read 0)
    refine ⟨by rw [hCzero]; exact Nat.zero_le _, ?_⟩
    simp only [hCzero, hshape, hread, List.take_zero, List.map_const', List.length_range, hfrom]
  · have hvalues := hhead.eq_of_single hscans (hsingle 0 (by omega))
    have hat : t.atTime synt.toNat ≠ [] := by
      apply List.ne_nil_of_mem (a := r)
      rw [Table.atTime, List.mem_filter]
      exact ⟨hmem, decide_eq_true (congrArg _ htime)⟩
    have hCshape : C = (h.dataShapes id).toNat := by
      rcases hsingle 0 (by omega) with hnone | ⟨r', hone, _⟩
      · exact absurd hnone hat
      · change t.atTime synt.toNat = [r'] at hone
        rw [hone, List.map_singleton, List.flatten_singleton] at hvalues
        rw [hvalues, Row.length_read] at hC
        rw [← hC]
        exact Nat.mod_eq_of_lt (UInt8.toNat_lt _)
    have hrect : ∀ row ∈ (t.fromTime synt.toNat rows.length).map (Row.read (h.dataShapes id).toNat),
        row.length = C := by
      intro row hrow
      obtain ⟨r', _, rfl⟩ := List.mem_map.mp hrow
      rw [Row.length_read, hCshape]
    have hchunks := PyApi.chunks_flatten hrect
    rw [List.length_map, hfrom] at hchunks
    rw [hr.flatten_eq hsum hscans hsingle]
    refine ⟨?_, hchunks⟩
    rw [length_flatten_of_rectangular hrect, List.length_map, hfrom]

end Received

/-- The receiver of a history packet has the values of the interval exactly when there are as many
records as times, as a byte counts them, and each record was read, or records have no values. -/
theorem receivesHistory_iff (e : Env) (s : Server) (id : UInt16) (t : Table) (dst : UInt8)
    (synt : UInt32) (rate : UInt16) (addr : Addr) (buf : List UInt8)
    (ht : s.world.tables id = some t)
    (hsent : (addr, buf) ∈ (s.subscribe e id dst synt rate).2.world.sent.drop s.world.sent.length)
    (hdata : buf[16]? = some Utils.serSend) :
    ReceivesHistory s.handler id t synt (s.queryLastSynt e id).1 buf ↔
      FitsHistory e s id t synt (s.queryLastSynt e id).1 := by
  obtain ⟨hle, rows, u, hhist, hbuf⟩ := history_of_sent hsent hdata
  have hlastRecord := lastRecord_or_zero (e := e) ht
  have hworld : (s.queryLastSynt e id).2.world = s.world.tick := queryLastSynt_world e id s.world
  obtain ⟨hlt, hlen, hr⟩ := history?_readsTimes (by rw [hworld]; exact ht) hhist
  rw [hworld] at hr
  change s.handler.ReadsTimes e id t synt (s.world.calls + 1) rows at hr
  generalize hlast : (s.queryLastSynt e id).1 = last at *
  have hnat := UInt32.le_iff_toNat_le.mp hle
  have hlen' : rows.length = last.toNat - synt.toNat + 1 := by omega
  have hreceived := PyApi.rowsOfBuf?_dataPkt e u dst Utils.priorityMedium synt Utils.flagSingle id
    (Eq.refl (rows.length % 256)) rfl
  rw [← hbuf] at hreceived
  constructor
  · rintro ⟨listed, hlisted, hrows⟩
    rw [hreceived] at hrows
    split_ifs at hrows with hfit
    obtain ⟨hcount, hread⟩ := rows_of_received hr hle hlt hlen' hlastRecord rfl hlisted hfit
      (Option.some.inj hrows)
    rw [hlen'] at hcount hread
    exact ⟨hcount, hread.imp_right fun ⟨hscans, hrecord, hsingle⟩ =>
      ⟨hscans, hrecord, fun j hj => hsingle j (Nat.lt_succ_of_le hj)⟩⟩
  · rintro ⟨hcount, hread⟩
    rw [← hlen'] at hcount
    obtain ⟨hfit, hcut⟩ := received_of_rows hr hle hlt hlen' rfl hcount
      (hread.imp_right fun ⟨hscans, hrecord, hsingle⟩ =>
        ⟨hscans, hrecord, fun j hj => hsingle j (by omega)⟩)
    refine ⟨t.fromTime synt.toNat rows.length, hlen' ▸ t.inOrder_fromTime hle, ?_⟩
    rw [hreceived, if_pos hfit, hcut]

/-- Client 2 has subscribed to data id 3, and there are records of the times 7 and 10. -/
def subscribedAfterGap : Server := { holding orderedTable with subscriberRegister := fun _ => [2] }

def historyBuf (synt : UInt32) : List UInt8 :=
  ((subscribedAfterGap.subscribe .reliable 3 2 synt 0).2.world.sent.map Prod.snd).headD []

/-- Four rows are announced for the times 7 to 10, and the values of two are sent. -/
theorem gap_not_receivesHistory :
    ∃ addr, (addr, historyBuf 7) ∈ (subscribedAfterGap.subscribe .reliable 3 2 7 0).2.world.sent.drop
        subscribedAfterGap.world.sent.length ∧
      (historyBuf 7)[16]? = some Utils.serSend ∧
      ¬ ReceivesHistory subscribedAfterGap.handler 3 orderedTable 7
        (subscribedAfterGap.queryLastSynt .reliable 3).1 (historyBuf 7) := by
  refine ⟨⟨0x7f000001, 20001⟩, by decide +kernel, by decide +kernel, ?_⟩
  rintro ⟨listed, _, hrows⟩
  have hraises : PyApi.rowsOfBuf? (historyBuf 7) = none := by decide +kernel
  rw [hraises] at hrows
  cases hrows

theorem last_receivesHistory_iff :
    ReceivesHistory subscribedAfterGap.handler 3 orderedTable 10
        (subscribedAfterGap.queryLastSynt .reliable 3).1 (historyBuf 10) ↔
      FitsHistory .reliable subscribedAfterGap 3 orderedTable 10
        (subscribedAfterGap.queryLastSynt .reliable 3).1 :=
  receivesHistory_iff .reliable subscribedAfterGap 3 orderedTable 2 10 0 ⟨0x7f000001, 20001⟩
    (historyBuf 10) rfl (by decide +kernel) (by decide +kernel)

end Server
end DRDS
