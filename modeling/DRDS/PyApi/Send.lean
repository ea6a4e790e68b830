import DRDS.PyApi.Api
import DRDS.PyApi.Codec
import DRDS.Server.SendPkt

/-! The data packets of `API.send`: what their one subframe and their header say of the values. -/
namespace DRDS.PyApi
open Go Wire
open Server (payloadFloat2Buf length_payloadFloat2Buf)

/-- What `send` is given: a vector, or a matrix as the list of its rows. -/
inductive Value where
  | vector (values : List Float64)
  | matrix (rows : List (List Float64))

namespace Value

def payload : Value → List Float64
  | .vector values => values
  | .matrix rows => rows.flatten

/-- `_row`, `_col` and what `_length` holds in the end. An empty value has no first element, by
which the branches are told apart. -/
def shape? : Value → Option (ℕ × ℕ × ℕ)
  | .vector [] => none
  | .matrix [] => none
  | .vector values => some (1, values.length, values.length)
  | .matrix (row :: rows) =>
    some ((row :: rows).length, row.length, (row :: rows).length * row.length)

def rows : Value → List (List Float64)
  | .vector values => [values]
  | .matrix rows => rows

theorem payload_eq_flatten (value : Value) : value.payload = value.rows.flatten := by
  cases value <;> simp [payload, rows]

end Value

/-- `_length` is given to the packet and to the subframe. The length of the packet, which it held
first, is overwritten. -/
def API.sendPkt (api : API) (physicalTime id synt priority row col length : ℕ)
    (payload : List Float64) : Packet :=
  .init api.idClient api.idServer 1 priority 0 0 physicalTime synt 0 length 0 0 0 0 1
    [.init id 0 row col length payload]

def API.send? (api : API) (physicalTime id synt : ℕ) (value : Value) (priority : ℕ) :
    Option (List UInt8) := do
  let (row, col, length) ← value.shape?
  (api.sendPkt physicalTime id synt priority row col length value.payload).pkt2Buf?

/-- The subframe is alone, `ROW` times `COL` and `LENGTH` are the number of values, and its payload
is the values. -/
def FrameHolds (pkt : Packet) (values : List Float64) : Prop :=
  ∃ q, pkt.subpackets = [q] ∧ q.header.row.toNat * q.header.col.toNat = q.header.length.toNat ∧
    q.header.length.toNat = values.length ∧ q.payload = values

/-- A datagram is a packet of these values whose `LEN` counts the bytes after its packet header. -/
def Holds (buf : List UInt8) (values : List Float64) : Prop :=
  ∃ pkt, Packet.buf2PktIndex? buf = some (pkt, buf.length) ∧ FrameHolds pkt values ∧
    pkt.header.length.toNat + 16 = buf.length

section Sent
variable {api : API} {physicalTime id synt priority : ℕ} {value : Value} {buf : List UInt8}

theorem Packet.pkt2Buf?_single {header : Header} {q : SubPacket}
    (h : (Packet.mk header [q]).pkt2Buf? = some buf) :
    q.payload.length ≤ q.header.length.toNat ∧
      buf = Packet.bytes ⟨header, [⟨q.header, q.payload.rightpad q.header.length.toNat 0⟩]⟩ := by
  by_cases hle : q.payload.length ≤ q.header.length.toNat
  · have hq : q.pkt2Buf? =
        some (SubPacket.bytes ⟨q.header, q.payload.rightpad q.header.length.toNat 0⟩) := if_pos hle
    rw [pkt2Buf?, List.foldlM_cons, hq] at h
    refine ⟨hle, ?_⟩
    rw [← Option.some.inj h, bytes, List.flatMap_singleton]
  · have hq : q.pkt2Buf? = none := if_neg hle
    rw [pkt2Buf?, List.foldlM_cons, hq] at h
    cases h

theorem Packet.length_bytes_single (header : Header) (q : SubPacket) :
    (Packet.bytes ⟨header, [q]⟩).length = 30 + 8 * q.payload.length := by
  rw [bytes, List.flatMap_singleton, SubPacket.bytes, List.length_append, List.length_append,
    Header.length_bytes, SubHeader.length_bytes, length_payloadFloat2Buf]
  omega

/-- What a datagram that was sent decodes to. -/
theorem API.send?_some (h : api.send? physicalTime id synt value priority = some buf) :
    ∃ row col length, value.shape? = some (row, col, length) ∧
      value.payload.length ≤ length % 2 ^ 16 ∧ buf.length = 30 + 8 * (length % 2 ^ 16) ∧
      Packet.buf2PktIndex? buf = some (api.sendPkt physicalTime id synt priority row col length
        (value.payload.rightpad (length % 2 ^ 16) 0), buf.length) := by
  simp only [send?, Option.bind_eq_bind, Option.bind_eq_some_iff] at h
  obtain ⟨⟨row, col, length⟩, hshape, hbuf⟩ := h
  have hword : (UInt16.ofNat length).toNat = length % 2 ^ 16 := UInt16.toNat_ofNat'
  obtain ⟨hle, heq⟩ := Packet.pkt2Buf?_single hbuf
  change value.payload.length ≤ (UInt16.ofNat length).toNat at hle
  rw [hword] at hle
  have hpad : (value.payload.rightpad (length % 2 ^ 16) 0).length = length % 2 ^ 16 := by
    rw [List.length_rightpad, Nat.max_eq_left hle]
  let p := api.sendPkt physicalTime id synt priority row col length
    (value.payload.rightpad (length % 2 ^ 16) 0)
  have hbuf' : buf = p.bytes := by
    rw [heq]
    dsimp only [p, sendPkt, SubPacket.init, Packet.init]
    rw [hword]
  have hcounted : p.Counted := by
    refine ⟨rfl, fun q hq => ?_⟩
    obtain rfl := List.mem_singleton.mp hq
    exact hpad.trans hword.symm
  have hdecoded := Packet.buf2PktIndex?_bytes hcounted []
  rw [List.append_nil, ← hbuf'] at hdecoded
  refine ⟨row, col, length, hshape, hle, ?_, hdecoded⟩
  have hlen : p.bytes.length = 30 + 8 * (value.payload.rightpad (length % 2 ^ 16) 0).length :=
    Packet.length_bytes_single ..
  rw [hbuf', hlen, hpad]

/-- `LEN` is the count of the values, which is never the count of the bytes. -/
theorem length_ne_of_send? (h : api.send? physicalTime id synt value priority = some buf) {pkt : Packet}
    (hpkt : Packet.buf2PktIndex? buf = some (pkt, buf.length)) :
    pkt.header.length.toNat + 16 ≠ buf.length := by
  obtain ⟨row, col, length, _, _, hbuf, hdecoded⟩ := API.send?_some h
  obtain rfl := (Prod.mk.inj (Option.some.inj (hpkt.symm.trans hdecoded))).1
  have hlength : (UInt16.ofNat length).toNat = length % 2 ^ 16 := UInt16.toNat_ofNat'
  change (UInt16.ofNat length).toNat + 16 ≠ buf.length
  omega

theorem low_mul_low_iff {R C : ℕ} (hR : 1 ≤ R) :
    R % 256 * (C % 256) = R * C ↔ C = 0 ∨ R < 256 ∧ C < 256 := by
  have hRle : R % 256 ≤ R := Nat.mod_le ..
  have hCle : C % 256 ≤ C := Nat.mod_le ..
  constructor
  · intro hprod
    by_contra! hbig
    obtain ⟨hpos, hbig⟩ := hbig
    by_cases hRbig : R < 256
    · have hC : C % 256 < C := Nat.lt_of_lt_of_le (Nat.mod_lt _ (by decide)) (hbig hRbig)
      have hlt : R % 256 * (C % 256) < R * C :=
        Nat.mul_lt_mul_of_le_of_lt hRle hC hR
      omega
    · have hRlt : R % 256 < R := Nat.lt_of_lt_of_le (Nat.mod_lt _ (by decide)) (Nat.le_of_not_lt hRbig)
      have hlt : R % 256 * (C % 256) < R * C :=
        Nat.mul_lt_mul_of_lt_of_le hRlt hCle (Nat.pos_of_ne_zero hpos)
      omega
  · rintro (rfl | ⟨hRlt, hClt⟩)
    · simp
    · rw [Nat.mod_eq_of_lt hRlt, Nat.mod_eq_of_lt hClt]

theorem Value.shape?_of_rectangular {C : ℕ} (hC : ∀ row ∈ value.rows, row.length = C)
    {row col length : ℕ} (h : value.shape? = some (row, col, length)) :
    1 ≤ row ∧ row = value.rows.length ∧ col = C ∧ length = row * C ∧
      value.payload.length = row * C := by
  rw [payload_eq_flatten, Server.length_flatten_of_rectangular hC]
  cases value with
  | vector values =>
    cases values with
    | nil => cases h
    | cons v values =>
      cases h
      have hlen : (v :: values).length = C := hC _ (by simp [rows])
      simp [rows, hlen]
  | matrix rows =>
    cases rows with
    | nil => cases h
    | cons row rows =>
      cases h
      have hlen : row.length = C := hC _ (by simp [Value.rows])
      simp [Value.rows, hlen]

/-- The subframe of a rectangular value is right exactly when rows and columns each fit in a byte, or
there are no columns: the fields are cut to their widths without a word. -/
theorem frameHolds_of_send? {C : ℕ} (h : api.send? physicalTime id synt value priority = some buf)
    (hC : ∀ row ∈ value.rows, row.length = C) {pkt : Packet}
    (hpkt : Packet.buf2PktIndex? buf = some (pkt, buf.length)) :
    FrameHolds pkt value.payload ↔ C = 0 ∨ value.rows.length < 256 ∧ C < 256 := by
  obtain ⟨row, col, length, hshape, hle, _, hdecoded⟩ := API.send?_some h
  obtain rfl := (Prod.mk.inj (Option.some.inj (hpkt.symm.trans hdecoded))).1
  obtain ⟨hpos, rfl, rfl, rfl, hcount⟩ := Value.shape?_of_rectangular hC hshape
  have hword : value.rows.length * col % 2 ^ 16 = value.rows.length * col := by
    have hmod := Nat.mod_le (value.rows.length * col) (2 ^ 16)
    omega
  have hpad : value.payload.rightpad (value.rows.length * col % 2 ^ 16) 0 = value.payload := by
    rw [hword, ← hcount, List.rightpad, Nat.sub_self, List.replicate_zero, List.append_nil]
  have hlength : (UInt16.ofNat (value.rows.length * col)).toNat = value.rows.length * col :=
    UInt16.toNat_ofNat'.trans hword
  have hlow := low_mul_low_iff (C := col) hpos
  rw [← hlow, hpad]
  constructor
  · rintro ⟨q, hq, hprod, _, _⟩
    obtain rfl := List.singleton_inj.mp hq
    change (UInt8.ofNat value.rows.length).toNat * (UInt8.ofNat col).toNat =
      (UInt16.ofNat (value.rows.length * col)).toNat at hprod
    rwa [UInt8.toNat_ofNat', UInt8.toNat_ofNat', hlength] at hprod
  · intro hprod
    refine ⟨_, rfl, ?_, hlength.trans hcount.symm, rfl⟩
    change (UInt8.ofNat value.rows.length).toNat * (UInt8.ofNat col).toNat =
      (UInt16.ofNat (value.rows.length * col)).toNat
    rwa [UInt8.toNat_ofNat', UInt8.toNat_ofNat', hlength]

end Sent

/-- Whatever is sent, the length in the header is wrong: `_length` first holds the length of the
packet and then the count of the values, and the packet is given the count. -/
theorem API.send_not_holds (api : API) (physicalTime id synt priority : ℕ) (value : Value)
    (buf : List UInt8) (h : api.send? physicalTime id synt value priority = some buf) :
    ¬ Holds buf value.payload := by
  rintro ⟨pkt, hpkt, _, hlen⟩
  exact length_ne_of_send? h hpkt hlen

def exampleApi : API := ⟨1, 0, ⟨0x7f000001, 65533⟩⟩

/-- One value: `LEN` is 1, and 22 bytes follow the packet header. -/
theorem one_value_not_holds : ∃ buf,
    exampleApi.send? 1650000000 3 500 (.vector [0x3ff0000000000000]) 7 = some buf ∧
      buf.length = 38 ∧ ¬ Holds buf [0x3ff0000000000000] := by
  let value : Value := .vector [0x3ff0000000000000]
  obtain ⟨buf, hsend, hlen⟩ : ∃ buf, exampleApi.send? 1650000000 3 500 value 7 = some buf ∧
      buf.length = 38 := ⟨_, rfl, rfl⟩
  refine ⟨buf, hsend, hlen, ?_⟩
  rintro ⟨pkt, hpkt, _, hcount⟩
  exact length_ne_of_send? hsend hpkt hcount

theorem column_not_holds : ∃ buf,
    exampleApi.send? 1650000000 3 500 (.matrix [[0x3ff0000000000000], [0x4000000000000000]]) 7 =
      some buf ∧ ¬ Holds buf (Value.matrix [[0x3ff0000000000000], [0x4000000000000000]]).payload :=
  ⟨_, rfl, exampleApi.send_not_holds 1650000000 3 500 7 _ _ rfl⟩

end DRDS.PyApi
