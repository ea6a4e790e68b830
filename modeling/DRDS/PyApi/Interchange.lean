import DRDS.PyApi.ClientDRDS
import DRDS.PyApi.History
import DRDS.PyApi.Send
import DRDS.Server.FanOut

/-! What either side writes, the other reads: the packets of the Python client and of the server, and
the way of a value from one client through the server to another. -/
namespace DRDS.PyApi
open Go
open Server (wire subBuf subHeader serviceHeader headerBuf bufExt nibbles fromServiceBuf? listenBuf
  payloadFloat2Buf length_payloadFloat2Buf payloadBuf2Float? rowsOf? handlePkt toServiceBuf dataPkt)

/-! ### Packets -/

def SubPacket.toGo (q : SubPacket) : Server.SubPacket (List UInt8) where
  dataID := q.header.dataID
  timeDiff := q.header.timeDiff
  row := q.header.row
  col := q.header.col
  length := q.header.length
  payload := payloadFloat2Buf q.payload

/-- The packet the server sees in the bytes of a Python packet. The byte that is to hold type and
priority lies where the server looks for version and reserved, and the other way round. -/
def Packet.toGo (p : Packet) : Server.ServicePacket (List UInt8) where
  src := p.header.src
  dst := p.header.dst
  messageType := p.header.verRes / 16
  priority := p.header.verRes % 16
  version := p.header.typePrio / 16
  reserved := p.header.typePrio % 16
  physicalTime := p.header.physicalTime
  simulinkTime := p.header.simulinkTime
  sequence := p.header.sequence
  length := p.header.length
  payload := []
  service := p.header.service
  flag := p.header.flag
  option1 := p.header.option1
  option2 := p.header.option2
  subframeNum := p.header.subframeNum
  subpackets := p.subpackets.map SubPacket.toGo

theorem Packet.toGo_nibbles (p : Packet) : p.toGo.toPacket.Nibbles := by
  have hdiv : ∀ b : UInt8, (b / 16).toNat < 16 := fun b => by
    rw [UInt8.toNat_div]
    have hlt := b.toNat_lt
    change b.toNat / 16 < 16
    omega
  have hmod : ∀ b : UInt8, (b % 16).toNat < 16 := fun b => by
    rw [UInt8.toNat_mod]
    exact Nat.mod_lt _ (by decide)
  exact ⟨hdiv _, hmod _, hdiv _, hmod _⟩

theorem Packet.leBytes_nibbles (p : Packet) :
    leBytes 2 (nibbles p.toGo.toPacket).toNat = [p.header.typePrio, p.header.verRes] := by
  rw [Server.toNat_nibbles p.toGo_nibbles]
  have hv := p.header.verRes.toNat_lt
  have ht := p.header.typePrio.toNat_lt
  change leBytes 2 (4096 * (p.header.verRes / 16).toNat + 256 * (p.header.verRes % 16).toNat +
    16 * (p.header.typePrio / 16).toNat + (p.header.typePrio % 16).toNat) = _
  rw [UInt8.toNat_div, UInt8.toNat_mod, UInt8.toNat_div, UInt8.toNat_mod]
  change leBytes 2 (4096 * (p.header.verRes.toNat / 16) + 256 * (p.header.verRes.toNat % 16) +
    16 * (p.header.typePrio.toNat / 16) + p.header.typePrio.toNat % 16) = _
  have hword : 4096 * (p.header.verRes.toNat / 16) + 256 * (p.header.verRes.toNat % 16) +
      16 * (p.header.typePrio.toNat / 16) + p.header.typePrio.toNat % 16 =
        256 * p.header.verRes.toNat + p.header.typePrio.toNat := by omega
  rw [hword]
  simp only [leBytes, List.cons.injEq, and_true, ← UInt8.toNat_inj, UInt8.toNat_ofNat']
  omega

theorem Packet.wire_toGo (p : Packet) : wire p.toGo = p.bytes := by
  have hframes : p.toGo.subpackets.flatMap subBuf = p.subpackets.flatMap SubPacket.bytes := by
    rw [toGo, List.flatMap_map]
    rfl
  rw [wire, serviceHeader, bufExt, headerBuf, hframes, p.leBytes_nibbles, bytes, Header.bytes]
  simp [toGo]

theorem Packet.toGo_valid16 {p : Packet} (hp : p.Counted)
    (hshort : ∀ q ∈ p.subpackets, q.header.length.toNat < 8191) : p.toGo.Valid16 := by
  refine ⟨p.toGo_nibbles, (List.length_map ..).trans hp.subframes, fun f hf => ?_⟩
  obtain ⟨q, hq, rfl⟩ := List.mem_map.mp hf
  refine Server.SubPacket.valid16_of_lt ?_ (hshort q hq)
  change (payloadFloat2Buf q.payload).length = 8 * q.header.length.toNat
  rw [length_payloadFloat2Buf, hp.doubles q hq]

theorem Packet.length_lt_of_bytes {p : Packet} (hp : p.Counted) (hlen : p.bytes.length ≤ 4500)
    {q : SubPacket} (hq : q ∈ p.subpackets) : q.header.length.toNat < 8191 := by
  obtain ⟨l₁, l₂, hsplit⟩ := List.append_of_mem hq
  have hcount : q.payload.length = q.header.length.toNat := hp.doubles q hq
  rw [bytes, hsplit] at hlen
  simp [SubPacket.bytes, length_payloadFloat2Buf] at hlen
  omega

/-- The doubles a client reads out of a payload. -/
def SubPacket.ofGo (f : Server.SubPacket (List UInt8)) : SubPacket where
  header := ⟨f.dataID, f.timeDiff, f.row, f.col, f.length⟩
  payload := ((payloadBuf2Float? .tight (.ofList f.payload)).map Slice.toList).getD []

def Packet.ofGo (v : Server.ServicePacket (List UInt8)) : Packet where
  header := {
    src := v.src
    dst := v.dst
    typePrio := 16 * v.version + v.reserved
    verRes := 16 * v.messageType + v.priority
    physicalTime := v.physicalTime
    simulinkTime := v.simulinkTime
    sequence := v.sequence
    length := v.length
    service := v.service
    flag := v.flag
    option1 := v.option1
    option2 := v.option2
    subframeNum := v.subframeNum }
  subpackets := v.subpackets.map SubPacket.ofGo

theorem SubPacket.ofGo_of_valid16 {f : Server.SubPacket (List UInt8)} (hf : f.Valid16)
    (hshort : f.length.toNat < 8191) : (ofGo f).Counted ∧ (ofGo f).toGo = f := by
  have hlen : f.payload.length = 8 * f.length.toNat := by
    rw [Server.SubPacket.Valid16, Server.toNat_offset] at hf
    change f.payload.length + 8 = (8 + 8 * f.length.toNat) % 65536 at hf
    omega
  let buf : Slice UInt8 := .ofList f.payload
  obtain ⟨rawData, hraw, hrlen⟩ := Server.payloadBuf2Float?_of_le .tight buf (by
    change 8 * ((f.payload.length + 7) / 8) ≤ f.payload.length
    omega)
  have hbytes := Server.payloadFloat2Buf_of_payloadBuf2Float? hraw (by
    change f.payload.length % 8 = 0
    omega)
  rw [Slice.toList_ofList] at hbytes
  have hvals : (ofGo f).payload = rawData.toList := by
    change ((payloadBuf2Float? .tight buf).map Slice.toList).getD [] = _
    rw [hraw]
    rfl
  constructor
  · rw [Counted, hvals, rawData.length_toList, hrlen]
    change (f.payload.length + 7) / 8 = f.length.toNat
    omega
  · rw [toGo, hvals, hbytes]
    rfl

theorem toNat_pack {a b : UInt8} (ha : a.toNat < 16) (hb : b.toNat < 16) :
    (16 * a + b) / 16 = a ∧ (16 * a + b) % 16 = b := by
  have hsum : (16 * a + b).toNat = 16 * a.toNat + b.toNat := by
    rw [UInt8.toNat_add, UInt8.toNat_mul]
    change (16 * a.toNat % 256 + b.toNat) % 256 = _
    omega
  constructor
  · rw [← UInt8.toNat_inj, UInt8.toNat_div, hsum]
    change (16 * a.toNat + b.toNat) / 16 = a.toNat
    omega
  · rw [← UInt8.toNat_inj, UInt8.toNat_mod, hsum]
    change (16 * a.toNat + b.toNat) % 16 = b.toNat
    omega

theorem Packet.ofGo_of_valid16 {v : Server.ServicePacket (List UInt8)} (hv : v.Valid16)
    (hshort : ∀ f ∈ v.subpackets, f.length.toNat < 8191) :
    (ofGo v).Counted ∧ (ofGo v).toGo = { v with payload := [] } := by
  have hframes : ∀ f ∈ v.subpackets, (SubPacket.ofGo f).Counted ∧ (SubPacket.ofGo f).toGo = f :=
    fun f hf => SubPacket.ofGo_of_valid16 (hv.frames f hf) (hshort f hf)
  constructor
  · refine ⟨(List.length_map ..).trans hv.count, fun q hq => ?_⟩
    obtain ⟨f, hf, rfl⟩ := List.mem_map.mp hq
    exact (hframes f hf).1
  · have hsubs : (ofGo v).subpackets.map SubPacket.toGo = v.subpackets := by
      rw [ofGo, List.map_map]
      conv_rhs => rw [← List.map_id v.subpackets]
      exact List.map_congr_left fun f hf => (hframes f hf).2
    obtain ⟨htype, hprio⟩ := toNat_pack hv.nibbles.messageType hv.nibbles.priority
    obtain ⟨hversion, hreserved⟩ := toNat_pack hv.nibbles.version hv.nibbles.reserved
    rw [toGo, hsubs]
    simp only [ofGo, htype, hprio, hversion, hreserved]

/-- The server reads the packet of a client field by field, in any receive buffer that holds it. -/
theorem Packet.listenBuf_bytes {p : Packet} (hp : p.Counted) (hlen : p.bytes.length ≤ 4500) :
    ∃ q, fromServiceBuf? (listenBuf p.bytes) = some q ∧
      q.visible = { p.toGo with payload := .replicate (4500 - p.bytes.length) 0 } := by
  have hvalid := Packet.toGo_valid16 hp fun q hq => Packet.length_lt_of_bytes hp hlen hq
  obtain ⟨q, hq, hv⟩ := Server.listenBuf_decodes hvalid (by rwa [p.wire_toGo])
  rw [p.wire_toGo] at hq hv
  exact ⟨q, hq, hv⟩

/-- A client reads the packet of the server field by field, whatever comes after it. -/
theorem Packet.buf2PktIndex?_wire {v : Server.ServicePacket (List UInt8)} (hv : v.Valid16)
    (hshort : ∀ f ∈ v.subpackets, f.length.toNat < 8191) (z : List UInt8) :
    ∃ p, Packet.buf2PktIndex? (wire v ++ z) = some (p, (wire v).length) ∧
      p.toGo = { v with payload := [] } := by
  obtain ⟨hcounted, htoGo⟩ := Packet.ofGo_of_valid16 hv hshort
  have hbytes : (Packet.ofGo v).bytes = wire v := by
    rw [← Packet.wire_toGo, htoGo]
    rfl
  refine ⟨Packet.ofGo v, ?_, htoGo⟩
  rw [← hbytes]
  exact Packet.buf2PktIndex?_bytes hcounted z

/-- What a client writes the server reads, and what the server writes a client reads: only the two bytes
of nibbles are exchanged. -/
theorem packets_interchange :
    (∀ p : Packet, p.Counted → p.bytes.length ≤ 4500 →
      p.pkt2Buf? = some p.bytes ∧ ∃ q, fromServiceBuf? (listenBuf p.bytes) = some q ∧
        q.visible = { p.toGo with payload := .replicate (4500 - p.bytes.length) 0 }) ∧
    ∀ (v : Server.ServicePacket (List UInt8)) (z : List UInt8), v.Valid16 →
      (∀ f ∈ v.subpackets, f.length.toNat < 8191) →
      ∃ p, Packet.buf2PktIndex? (wire v ++ z) = some (p, (wire v).length) ∧
        p.toGo = { v with payload := [] } :=
  ⟨fun _ hp hlen => ⟨Packet.pkt2Buf?_of_counted hp, Packet.listenBuf_bytes hp hlen⟩,
    fun _ z hv hshort => Packet.buf2PktIndex?_wire hv hshort z⟩

theorem packets_interchange_examples :
    (∃ q, fromServiceBuf? (listenBuf twoFrames.bytes) = some q ∧
      q.visible = { twoFrames.toGo with payload := .replicate (4500 - twoFrames.bytes.length) 0 }) ∧
    ∃ p, Packet.buf2PktIndex? (wire Server.valuePacket ++ [9]) =
        some (p, (wire Server.valuePacket).length) ∧
      p.toGo = { Server.valuePacket with payload := [] } :=
  ⟨(packets_interchange.1 twoFrames ⟨by decide, by decide⟩ (by decide)).2,
    packets_interchange.2 Server.valuePacket [9] Server.valuePacket_valid16 (by decide)⟩

/-! ### A value from client to client -/

theorem eq_of_flatten_eq {α : Type} {mat mat' : List (List α)} {C : ℕ} (h : ∀ row ∈ mat, row.length = C)
    (h' : ∀ row ∈ mat', row.length = C) (hlen : mat.length = mat'.length)
    (hflat : mat.flatten = mat'.flatten) : mat = mat' := by
  rw [← chunks_flatten h, ← chunks_flatten h', hlen, hflat]

section Delivery
variable {api : API} {physicalTime id synt priority : ℕ} {value : Value} {buf : List UInt8} {C : ℕ}

theorem API.send?_bytes (h : api.send? physicalTime id synt value priority = some buf)
    (hC : ∀ row ∈ value.rows, row.length = C) (hsmall : value.rows.length < 256 ∧ C < 256) :
    1 ≤ value.rows.length ∧ value.payload.length = value.rows.length * C ∧
    ∃ p : Packet, p.Counted ∧ p.bytes = buf ∧
      p = api.sendPkt physicalTime id synt priority value.rows.length C (value.rows.length * C)
        value.payload := by
  simp only [send?, Option.bind_eq_bind, Option.bind_eq_some_iff] at h
  obtain ⟨⟨row, col, length⟩, hshape, hbuf⟩ := h
  obtain ⟨hpos, rfl, rfl, rfl, hcount⟩ := Value.shape?_of_rectangular hC hshape
  have hprod : value.rows.length * col ≤ 255 * 255 := Nat.mul_le_mul (by omega) (by omega)
  have hword : (UInt16.ofNat (value.rows.length * col)).toNat = value.rows.length * col :=
    UInt16.toNat_ofNat_of_lt' (by change _ < 65536; omega)
  have hcounted : (api.sendPkt physicalTime id synt priority value.rows.length col
      (value.rows.length * col) value.payload).Counted := by
    refine ⟨rfl, fun q hq => ?_⟩
    obtain rfl := List.mem_singleton.mp hq
    exact hcount.trans hword.symm
  have hbytes := Packet.pkt2Buf?_of_counted hcounted
  dsimp only at hbuf
  rw [hbytes] at hbuf
  exact ⟨hpos, hcount, _, hcounted, Option.some.inj hbuf, rfl⟩

/-- A subframe with the shape and the values of a matrix has its rows. -/
theorem rowsOf?_of_payload (g : Slice.Growth) {f : Server.SubPacket (Slice UInt8)}
    (hpayload : f.payload.toList = payloadFloat2Buf value.payload)
    (hrow : f.row.toNat = value.rows.length) (hcol : f.col.toNat = C)
    (hC : ∀ row ∈ value.rows, row.length = C) (hcount : value.payload.length = value.rows.length * C) :
    ∃ rawData, payloadBuf2Float? g f.payload = some rawData ∧ rawData.toList = value.payload ∧
      Server.rowsOf? rawData f.row f.col = some value.rows := by
  obtain ⟨rawData, hraw, hvalues⟩ := Server.payloadBuf2Float?_of_payloadFloat2Buf g hpayload
  have hcells : f.row.toNat * f.col.toNat = rawData.len := by
    rw [hrow, hcol, ← rawData.length_toList, hvalues, hcount]
  obtain ⟨mat, hmat, hflat⟩ := Server.rowsOf?_of_le hcells.le
  obtain ⟨hmlen, hmrect⟩ := Server.rowsOf?_some hmat
  have hrows : mat = value.rows := by
    refine eq_of_flatten_eq (fun row hr => (hmrect row hr).trans hcol) hC (hmlen.trans hrow) ?_
    rw [hflat, hcells, ← rawData.length_toList, List.take_length, hvalues, value.payload_eq_flatten]
  exact ⟨rawData, hraw, hvalues, hrows ▸ hmat⟩

theorem entries_of_dataPkt (e : Env) (t : Server) (dst priority : UInt8) (synt : UInt32) (flag : UInt8)
    (id : UInt16) {mat : List (List Float64)} (hC : ∀ row ∈ mat, row.length = C) (hne : mat ≠ [])
    (hsmall : mat.length < 256 ∧ C < 256) (hfit : mat.length * C < 8191) :
    ∃ pkt, Packet.buf2Pkt? (toServiceBuf (dataPkt e t dst priority synt flag id mat)) = some pkt ∧
      ClientDRDS.Receiving.entries pkt = [(id.toNat, synt.toNat, mat.flatten)] := by
  have hvalid : (Server.dataWire e t dst priority synt flag id mat).Valid16 :=
    Server.dataWire_valid16 hC hne hsmall hfit
  have hsubs := Server.subpackets_dataWire e t dst priority synt flag id mat
  have hshort : ∀ f ∈ (Server.dataWire e t dst priority synt flag id mat).subpackets,
      f.length.toNat < 8191 := by
    rw [hsubs]
    intro f hf
    rw [List.mem_singleton.mp hf]
    exact (Server.dimensions_of_lt hC hne hsmall).2.2.trans_lt hfit
  obtain ⟨pkt, hpkt, htoGo⟩ := Packet.buf2PktIndex?_wire hvalid hshort []
  rw [List.append_nil] at hpkt
  refine ⟨pkt, ?_, ?_⟩
  · rw [Server.toServiceBuf_dataPkt, Packet.buf2Pkt?_eq_index, hpkt]
    rfl
  · obtain ⟨k, hk, hframe⟩ := List.map_eq_singleton_iff.mp
      ((congrArg Server.ServicePacket.subpackets htoGo).trans hsubs)
    have hid : k.header.dataID = id := congrArg Server.SubPacket.dataID hframe
    have htime : pkt.header.simulinkTime = synt := congrArg (fun v => v.simulinkTime) htoGo
    have hvalues : k.payload = mat.flatten :=
      Server.payloadFloat2Buf_injective (congrArg Server.SubPacket.payload hframe)
    rw [ClientDRDS.Receiving.entries, hk, ← hid, ← htime, ← hvalues]
    rfl

/-- A record goes to the end of its channel, if there is one with room. -/
theorem dataBuffer_send (e : Env) (id : UInt16) (time physicalTime : UInt32) (rawData : List Float64)
    (t : Server) : ((Server.Routine.send id time physicalTime rawData).run e t).2.handler.dataBuffer =
      Function.update t.handler.dataBuffer id ((t.handler.dataBuffer id).map fun queue =>
        if queue.length < Utils.buffLen then queue ++ [⟨time, physicalTime, rawData⟩] else queue) := by
  change (t.handler.writeToBuffer id ⟨time, physicalTime, rawData⟩).2.dataBuffer = _
  unfold Handler.writeToBuffer
  cases hqueue : t.handler.dataBuffer id with
  | none =>
    change t.handler.dataBuffer = Function.update t.handler.dataBuffer id none
    rw [← hqueue, Function.update_eq_self]
  | some queue =>
    dsimp only
    by_cases hfull : Utils.buffLen ≤ queue.length
    · rw [if_pos hfull, Option.map_some, if_neg (Nat.not_lt.mpr hfull), ← hqueue,
        Function.update_eq_self]
    · rw [if_neg hfull, Option.map_some, if_pos (Nat.lt_of_not_le hfull)]

/-- For a value a client sends one `Send` is started, which puts the record on its channel, and for each
subscriber one `sendPkt`, whose datagram has that client take the same time and values. -/
theorem send_delivered (g : Slice.Growth) (e : Env) (s : Server) (api : API)
    (physicalTime id synt priority : ℕ) (value : Value) (buf : List UInt8)
    (h : api.send? physicalTime id synt value priority = some buf) (hlen : buf.length ≤ 4500)
    (hC : ∀ row ∈ value.rows, row.length = C) (hsmall : value.rows.length < 256 ∧ C < 256) :
    ∃ p, fromServiceBuf? (listenBuf buf) = some p ∧
      handlePkt g e p s = ⟨.returned none,
        .send (.ofNat id) (.ofNat synt) (.ofNat physicalTime) value.payload ::
          (s.subscriberRegister (.ofNat id)).map (fun dst =>
            .sendPkt dst p.priority (.ofNat synt) 0 (.ofNat id) value.rows), s⟩ ∧
      (∀ t : Server, ((Server.Routine.send (.ofNat id) (.ofNat synt) (.ofNat physicalTime)
          value.payload).run e t).2.handler.dataBuffer =
        Function.update t.handler.dataBuffer (.ofNat id) ((t.handler.dataBuffer (.ofNat id)).map
          fun queue => if queue.length < Utils.buffLen then
            queue ++ [⟨.ofNat synt, .ofNat physicalTime, value.payload⟩] else queue)) ∧
      ∀ (t : Server) (dst : UInt8), ∃ datagram pkt,
        t.sendPkt e dst p.priority (.ofNat synt) 0 (.ofNat id) value.rows =
          t.numbered.transmit e dst datagram ∧
        Packet.buf2Pkt? datagram = some pkt ∧
        ClientDRDS.Receiving.entries pkt = [(id % 2 ^ 16, synt % 2 ^ 32, value.payload)] := by
  obtain ⟨hR, hcount, p, hcounted, rfl, hp⟩ := API.send?_bytes h hC hsmall
  obtain ⟨q, hq, hv⟩ := Packet.listenBuf_bytes hcounted hlen
  have hfit : value.rows.length * C < 8191 := by
    rw [hp, API.sendPkt, Packet.init, Packet.length_bytes_single] at hlen
    change 30 + 8 * value.payload.length ≤ 4500 at hlen
    omega
  subst hp
  -- the subframe as the server has it
  obtain ⟨f, hf, hframe⟩ :=
    List.map_eq_singleton_iff.mp (congrArg Server.ServicePacket.subpackets hv)
  have hid : f.dataID = .ofNat id := congrArg Server.SubPacket.dataID hframe
  have htime : f.timeDiff = 0 := congrArg Server.SubPacket.timeDiff hframe
  have hrow : f.row.toNat = value.rows.length :=
    (congrArg (fun f => f.row.toNat) hframe).trans (UInt8.toNat_ofNat_of_lt' hsmall.1)
  have hcol : f.col.toNat = C :=
    (congrArg (fun f => f.col.toNat) hframe).trans (UInt8.toNat_ofNat_of_lt' hsmall.2)
  obtain ⟨rawData, hraw, hvalues, hmat⟩ :=
    rowsOf?_of_payload g (congrArg Server.SubPacket.payload hframe) hrow hcol hC hcount
  refine ⟨q, hq, ?_, dataBuffer_send e _ _ _ _, fun t dst => ?_⟩
  · have hservice : q.service = Utils.serSend := congrArg Server.ServicePacket.service hv
    have hsynt : q.simulinkTime = .ofNat synt := congrArg (fun v => v.simulinkTime) hv
    have hphysical : q.physicalTime = .ofNat physicalTime := congrArg (fun v => v.physicalTime) hv
    have hflag : q.flag = 0 := congrArg (fun v => v.flag) hv
    have hsum : UInt32.ofNat synt + (0 : UInt16).toUInt32 = .ofNat synt := UInt32.add_zero _
    have hround := Server.sendRound_of_rows (s := s) (p := q) hraw hmat
    rw [hid, htime, hsynt, hphysical, hflag, hvalues, hsum] at hround
    rw [handlePkt, if_pos hservice, hf]
    simp only [rangeLoop, hround, List.append_nil]
  · have hne : value.rows ≠ [] := List.ne_nil_of_length_pos hR
    have hentries := entries_of_dataPkt e t dst q.priority (.ofNat synt) 0 (.ofNat id) hC hne hsmall hfit
    rw [UInt16.toNat_ofNat', UInt32.toNat_ofNat', ← value.payload_eq_flatten] at hentries
    obtain ⟨pkt, hpkt, hentries⟩ := hentries
    exact ⟨_, pkt, rfl, hpkt, hentries⟩

/-- The record of the value waits in the channel, and the structure agent, subscribed to the data id,
takes the value at time 500. -/
theorem send_delivered_subscribed : ∃ buf p,
    exampleApi.send? 1650000000 3 500 (.vector [0x3ff0000000000000]) 7 = some buf ∧
    fromServiceBuf? (listenBuf buf) = some p ∧
    (handlePkt .tight .reliable p Server.subscribed).spawned =
      [.send 3 500 1650000000 [0x3ff0000000000000],
        .sendPkt 2 p.priority 500 0 3 [[0x3ff0000000000000]]] ∧
    ((Server.Routine.send 3 500 1650000000 [0x3ff0000000000000]).run .reliable
        Server.subscribed).2.handler.dataBuffer 3 = some [⟨500, 1650000000, [0x3ff0000000000000]⟩] ∧
    ∃ datagram pkt, Server.subscribed.sendPkt .reliable 2 p.priority 500 0 3 [[0x3ff0000000000000]] =
        Server.subscribed.numbered.transmit .reliable 2 datagram ∧
      Packet.buf2Pkt? datagram = some pkt ∧
      ClientDRDS.Receiving.entries pkt = [(3, 500, [0x3ff0000000000000])] := by
  obtain ⟨buf, hsend, hlen⟩ : ∃ buf,
      exampleApi.send? 1650000000 3 500 (.vector [0x3ff0000000000000]) 7 = some buf ∧
        buf.length ≤ 4500 := ⟨_, rfl, by decide⟩
  obtain ⟨p, hp, hhandled, hpushed, hread⟩ := send_delivered .tight .reliable Server.subscribed exampleApi
    1650000000 3 500 7 (.vector [0x3ff0000000000000]) buf hsend hlen (C := 1)
    (by simp [Value.rows]) (by decide)
  refine ⟨buf, p, hsend, hp, ?_, ?_, hread Server.subscribed 2⟩
  · rw [hhandled]
    rfl
  · exact (congrFun (hpushed Server.subscribed) 3).trans rfl

end Delivery
end DRDS.PyApi
