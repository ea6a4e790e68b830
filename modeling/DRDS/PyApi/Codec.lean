import DRDS.PyApi.Utils
import DRDS.Server.Payload

/-! The packets of the Python client there and back. -/
namespace DRDS.PyApi
open Go Wire
open Server (payloadFloat2Buf length_payloadFloat2Buf)

/-! ### Packed structures -/

/-- The bytes of packed fields, each a width and a value. -/
def packed (fields : List (ℕ × ℕ)) : List UInt8 := fields.flatMap fun f => leBytes f.1 f.2

theorem field_append {a : List UInt8} {i w n : ℕ} (ha : a.length = i) (b : List UInt8) :
    field (a ++ (leBytes w n ++ b)) i w = n % 256 ^ w := by
  rw [field, ← ha, List.drop_left, List.take_left' (length_leBytes w n), leNat_leBytes]

theorem leBytes_one (b : UInt8) : leBytes 1 b.toNat = [b] := by simp [leBytes]

theorem field_packed {fields : List (ℕ × ℕ)} {i w n : ℕ} (k : ℕ) (hk : fields[k]? = some (w, n))
    (hi : ((fields.take k).map Prod.fst).sum = i) (z : List UInt8) :
    field (packed fields ++ z) i w = n % 256 ^ w := by
  obtain ⟨hlt, hget⟩ := List.getElem?_eq_some_iff.mp hk
  have hsplit : fields = fields.take k ++ (w, n) :: fields.drop (k + 1) := by
    rw [← hget, List.getElem_cons_drop, List.take_append_drop]
  have hbytes : packed fields ++ z = packed (fields.take k) ++
      (leBytes w n ++ (packed (fields.drop (k + 1)) ++ z)) := by
    have hpacked : packed fields = packed (fields.take k) ++
        (leBytes w n ++ packed (fields.drop (k + 1))) := by
      conv_lhs => rw [hsplit]
      exact List.flatMap_append ..
    rw [hpacked, List.append_assoc, List.append_assoc]
  have hlen : (packed (fields.take k)).length = i := by
    rw [← hi]
    simp [packed, List.length_flatMap]
  rw [hbytes, field_append hlen]

@[simp] theorem Header.length_bytes (h : Header) : h.bytes.length = 22 := by simp [bytes]

@[simp] theorem SubHeader.length_bytes (h : SubHeader) : h.bytes.length = 8 := by simp [bytes]

def SubHeader.fields (h : SubHeader) : List (ℕ × ℕ) :=
  [(2, h.dataID.toNat), (2, h.timeDiff.toNat), (1, h.row.toNat), (1, h.col.toNat),
    (2, h.length.toNat)]

theorem SubHeader.bytes_eq_packed (h : SubHeader) : h.bytes = packed h.fields := by
  simp [bytes, fields, packed, leBytes_one]

theorem SubHeader.fromBuffer?_append (h : SubHeader) (z : List UInt8) :
    fromBuffer? (h.bytes ++ z) = some h := by
  have hid : field (packed h.fields ++ z) 0 2 = h.dataID.toNat % 256 ^ 2 :=
    field_packed 0 rfl (by simp [fields]) z
  have hdiff : field (packed h.fields ++ z) 2 2 = h.timeDiff.toNat % 256 ^ 2 :=
    field_packed 1 rfl (by simp [fields]) z
  have hrow : field (packed h.fields ++ z) 4 1 = h.row.toNat % 256 ^ 1 :=
    field_packed 2 rfl (by simp [fields]) z
  have hcol : field (packed h.fields ++ z) 5 1 = h.col.toNat % 256 ^ 1 :=
    field_packed 3 rfl (by simp [fields]) z
  have hlength : field (packed h.fields ++ z) 6 2 = h.length.toNat % 256 ^ 2 :=
    field_packed 4 rfl (by simp [fields]) z
  have hlen : 8 ≤ (packed h.fields ++ z).length := by
    rw [← h.bytes_eq_packed]
    simp
  rw [h.bytes_eq_packed, fromBuffer?, if_pos hlen, hid, hdiff, hrow, hcol, hlength]
  simp

def Header.fields (h : Header) : List (ℕ × ℕ) :=
  [(1, h.src.toNat), (1, h.dst.toNat), (1, h.typePrio.toNat), (1, h.verRes.toNat),
    (4, h.physicalTime.toNat), (4, h.simulinkTime.toNat), (2, h.sequence.toNat),
    (2, h.length.toNat), (1, h.service.toNat), (1, h.flag.toNat), (1, h.option1.toNat),
    (1, h.option2.toNat), (2, h.subframeNum.toNat)]

theorem Header.bytes_eq_packed (h : Header) : h.bytes = packed h.fields := by
  simp [bytes, fields, packed, leBytes_one]

theorem Header.fromBuffer?_append (h : Header) (z : List UInt8) :
    fromBuffer? (h.bytes ++ z) = some h := by
  have hsrc : field (packed h.fields ++ z) 0 1 = h.src.toNat % 256 ^ 1 :=
    field_packed 0 rfl (by simp [fields]) z
  have hdst : field (packed h.fields ++ z) 1 1 = h.dst.toNat % 256 ^ 1 :=
    field_packed 1 rfl (by simp [fields]) z
  have htype : field (packed h.fields ++ z) 2 1 = h.typePrio.toNat % 256 ^ 1 :=
    field_packed 2 rfl (by simp [fields]) z
  have hversion : field (packed h.fields ++ z) 3 1 = h.verRes.toNat % 256 ^ 1 :=
    field_packed 3 rfl (by simp [fields]) z
  have hphysical : field (packed h.fields ++ z) 4 4 = h.physicalTime.toNat % 256 ^ 4 :=
    field_packed 4 rfl (by simp [fields]) z
  have hsimulink : field (packed h.fields ++ z) 8 4 = h.simulinkTime.toNat % 256 ^ 4 :=
    field_packed 5 rfl (by simp [fields]) z
  have hsequence : field (packed h.fields ++ z) 12 2 = h.sequence.toNat % 256 ^ 2 :=
    field_packed 6 rfl (by simp [fields]) z
  have hlength : field (packed h.fields ++ z) 14 2 = h.length.toNat % 256 ^ 2 :=
    field_packed 7 rfl (by simp [fields]) z
  have hservice : field (packed h.fields ++ z) 16 1 = h.service.toNat % 256 ^ 1 :=
    field_packed 8 rfl (by simp [fields]) z
  have hflag : field (packed h.fields ++ z) 17 1 = h.flag.toNat % 256 ^ 1 :=
    field_packed 9 rfl (by simp [fields]) z
  have hoption1 : field (packed h.fields ++ z) 18 1 = h.option1.toNat % 256 ^ 1 :=
    field_packed 10 rfl (by simp [fields]) z
  have hoption2 : field (packed h.fields ++ z) 19 1 = h.option2.toNat % 256 ^ 1 :=
    field_packed 11 rfl (by simp [fields]) z
  have hnum : field (packed h.fields ++ z) 20 2 = h.subframeNum.toNat % 256 ^ 2 :=
    field_packed 12 rfl (by simp [fields]) z
  have hlen : 22 ≤ (packed h.fields ++ z).length := by
    rw [← h.bytes_eq_packed]
    simp
  rw [h.bytes_eq_packed, fromBuffer?, if_pos hlen, hsrc, hdst, htype, hversion, hphysical,
    hsimulink, hsequence, hlength, hservice, hflag, hoption1, hoption2, hnum]
  simp

/-! ### Subframes -/

theorem field_payloadFloat2Buf {vals : List Float64} {i : ℕ} (hi : i < vals.length) :
    field (payloadFloat2Buf vals) (8 * i) 8 = vals[i].toNat := by
  have hpacked : payloadFloat2Buf vals = packed (vals.map fun v => (8, v.toNat)) := by
    rw [payloadFloat2Buf, packed, List.flatMap_map]
  have hwidths : (((vals.map fun v => (8, v.toNat)).take i).map Prod.fst).sum = 8 * i := by
    rw [← List.map_take, List.map_map, Function.comp_def, List.map_const', List.sum_replicate_nat,
      List.length_take, Nat.min_eq_left hi.le, Nat.mul_comm]
  have hget : (vals.map fun v => (8, v.toNat))[i]? = some (8, vals[i].toNat) := by
    rw [List.getElem?_map, List.getElem?_eq_getElem hi, Option.map_some]
  have hread := field_packed i hget hwidths []
  rw [List.append_nil, ← hpacked] at hread
  exact hread.trans (Nat.mod_eq_of_lt vals[i].toNat_lt)

/-- As many doubles as the header says are read, whatever follows. -/
theorem SubPacket.buf2Pkt?_append {h : SubHeader} {vals : List Float64}
    (hlen : vals.length = h.length.toNat) (z : List UInt8) :
    buf2Pkt? (h.bytes ++ (payloadFloat2Buf vals ++ z)) =
      some (⟨h, vals⟩, 8 + 8 * h.length.toNat) := by
  have hbytes : (payloadFloat2Buf vals).length = 8 * h.length.toNat := by
    rw [length_payloadFloat2Buf, hlen]
  have hbody : ((h.bytes ++ (payloadFloat2Buf vals ++ z)).drop 8).take (8 * h.length.toNat) =
      payloadFloat2Buf vals := by
    rw [List.drop_left' h.length_bytes, List.take_left' hbytes]
  have hvals : (List.range h.length.toNat).map
      (fun i => (UInt64.ofNat (field (payloadFloat2Buf vals) (8 * i) 8))) = vals := by
    apply List.ext_getElem
    · rw [List.length_map, List.length_range, hlen]
    · intro i _ hi
      rw [List.getElem_map, List.getElem_range, field_payloadFloat2Buf hi, UInt64.ofNat_toNat]
  simp only [buf2Pkt?, h.fromBuffer?_append, hbody, hvals, if_pos hbytes, Option.bind_eq_bind,
    Option.bind_some]

def SubPacket.Counted (q : SubPacket) : Prop := q.payload.length = q.header.length.toNat

instance decidableCounted : DecidablePred SubPacket.Counted := fun _ =>
  inferInstanceAs (Decidable (_ = _))

def SubPacket.bytes (q : SubPacket) : List UInt8 := q.header.bytes ++ payloadFloat2Buf q.payload

theorem SubPacket.pkt2Buf?_of_counted {q : SubPacket} (hq : q.Counted) :
    q.pkt2Buf? = some q.bytes := by
  have hpad : q.payload.rightpad q.header.length.toNat 0 = q.payload := by
    have hnone : q.header.length.toNat - q.payload.length = 0 := Nat.sub_eq_zero_of_le hq.ge
    rw [List.rightpad, hnone, List.replicate_zero, List.append_nil]
  rw [pkt2Buf?, if_pos (Nat.le_of_eq hq), hpad]
  rfl

theorem SubPacket.buf2Pkt?_bytes (q : SubPacket) (z : List UInt8) (hq : q.Counted) :
    buf2Pkt? (q.bytes ++ z) = some (q, q.bytes.length) := by
  have hlen : q.bytes.length = 8 + 8 * q.header.length.toNat := by
    rw [bytes, List.length_append, SubHeader.length_bytes, length_payloadFloat2Buf, hq]
  rw [hlen, bytes, List.append_assoc, buf2Pkt?_append hq]

/-! ### Packets -/

/-- `buf2Pkt` with the index it returns. -/
def Packet.buf2PktIndex? (buffer : List UInt8) : Option (Packet × ℕ) := do
  let header ← Header.fromBuffer? buffer
  let (index, subpackets) ← repeatAt? SubPacket.buf2Pkt? header.subframeNum.toNat buffer 22
  some (⟨header, subpackets⟩, index)

theorem Packet.buf2Pkt?_eq_index (buffer : List UInt8) :
    buf2Pkt? buffer = (buf2PktIndex? buffer).map Prod.fst := by
  unfold buf2Pkt? buf2PktIndex? repeatAt?
  cases Header.fromBuffer? buffer with
  | none => rfl
  | some header =>
    simp only [Option.bind_eq_bind, Option.bind_some, Option.map_bind, Option.map_some,
      Function.comp_def]

/-- The header counts the subframes, and theirs the doubles. -/
structure Packet.Counted (p : Packet) : Prop where
  subframes : p.subpackets.length = p.header.subframeNum.toNat
  doubles : ∀ q ∈ p.subpackets, q.Counted

def Packet.bytes (p : Packet) : List UInt8 :=
  p.header.bytes ++ p.subpackets.flatMap SubPacket.bytes

/-- The subframes come out one after the other. -/
theorem Packet.pkt2Buf?_of_counted {p : Packet} (hp : p.Counted) : p.pkt2Buf? = some p.bytes := by
  have hfold : ∀ (qs : List SubPacket) (buf : List UInt8), (∀ q ∈ qs, q.Counted) →
      qs.foldlM (fun buf subpkt => do
        let b ← subpkt.pkt2Buf?
        some (buf ++ b)) buf = some (buf ++ qs.flatMap SubPacket.bytes) := by
    intro qs buf hqs
    induction qs generalizing buf with
    | nil => simp
    | cons q qs ih =>
      rw [List.forall_mem_cons] at hqs
      rw [List.foldlM_cons, SubPacket.pkt2Buf?_of_counted hqs.1]
      exact (ih _ hqs.2).trans (by simp)
  exact hfold p.subpackets p.header.bytes hp.doubles

theorem Packet.buf2PktIndex?_bytes {p : Packet} (hp : p.Counted) (z : List UInt8) :
    buf2PktIndex? (p.bytes ++ z) = some (p, p.bytes.length) := by
  have hloop := repeatAt?_complete SubPacket.buf2Pkt?_bytes hp.doubles
    (List.append_assoc p.header.bytes (p.subpackets.flatMap SubPacket.bytes) z)
  rw [p.header.length_bytes, hp.subframes] at hloop
  rw [buf2PktIndex?, bytes, List.append_assoc, p.header.fromBuffer?_append, ← List.append_assoc,
    Option.bind_eq_bind, Option.bind_some, hloop]
  rfl

/-- A packet is decoded as it was encoded, whatever follows it, and the index returned is where its
bytes end. -/
theorem Packet.buf2Pkt_pkt2Buf (p : Packet) (hp : p.Counted) (z : List UInt8) :
    ∃ buf, p.pkt2Buf? = some buf ∧ buf2PktIndex? (buf ++ z) = some (p, buf.length) :=
  ⟨p.bytes, pkt2Buf?_of_counted hp, buf2PktIndex?_bytes hp z⟩

def twoFrames : Packet :=
  .init 0 1 0 4 0 0 123456 654312 0 15 0 0 0 0 2
    [.init 150 0 3 1 3 [0x3ff0000000000000, 0x4000000000000000, 0x4008000000000000],
      .init 151 0 1 1 1 [0x7ff8000000000001]]

theorem twoFrames_roundTrip : ∃ buf, twoFrames.pkt2Buf? = some buf ∧
    Packet.buf2PktIndex? (buf ++ [9, 9]) = some (twoFrames, buf.length) :=
  Packet.buf2Pkt_pkt2Buf twoFrames ⟨by decide, by decide⟩ [9, 9]

end DRDS.PyApi
