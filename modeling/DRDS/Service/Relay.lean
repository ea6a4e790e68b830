import DRDS.Server.Payload
import DRDS.Service.Runs

/-! What a data service reads out of a datagram of another. A frame with fewer values than it says is
filled up with the zeros of the buffer, and one that goes beyond the buffer is not decoded. -/
namespace DRDS
open Go Server

namespace Server

/-! ### Payloads in the receive buffer -/

theorem take_listenBuf (datagram : List UInt8) {n : ℕ} (hn : n ≤ 4500) :
    (listenBuf datagram).toList.take n = (datagram ++ .replicate n 0).take n := by
  rw [listenBuf, Slice.toList_ofList, Utils.pktLen, List.rightpad, List.take_append, List.take_append,
    List.take_take, List.take_replicate, List.take_replicate, List.length_take, Nat.min_eq_left hn]
  congr 2
  omega

theorem take_payloadFloat2Buf (vs : List Float64) (k : ℕ) :
    (payloadFloat2Buf vs).take (8 * k) = payloadFloat2Buf (vs.take k) := by
  conv_lhs => rw [← List.take_append_drop k vs, payloadFloat2Buf, List.flatMap_append]
  change (payloadFloat2Buf (vs.take k) ++ payloadFloat2Buf (vs.drop k)).take (8 * k) = _
  rcases Nat.le_total k vs.length with hle | hle
  · exact List.take_left' (by rw [length_payloadFloat2Buf, List.length_take_of_le hle])
  · have hlen : (payloadFloat2Buf vs).length ≤ 8 * k := by
      rw [length_payloadFloat2Buf]
      exact Nat.mul_le_mul_left 8 hle
    rw [List.drop_eq_nil_of_le hle, List.take_of_length_le hle]
    exact (congrArg (List.take (8 * k)) (List.append_nil _)).trans (List.take_of_length_le hlen)

theorem payloadFloat2Buf_zeros (k : ℕ) :
    payloadFloat2Buf (.replicate k 0) = .replicate (8 * k) 0 := by
  rw [payloadFloat2Buf, List.flatMap_replicate]
  change (List.replicate k (List.replicate 8 (0 : UInt8))).flatten = _
  rw [List.flatten_replicate_replicate, Nat.mul_comm]

/-- The `k` values that are read where there are these. -/
def readValues (vs : List Float64) (k : ℕ) : List Float64 := (vs ++ .replicate k 0).take k

theorem mem_readValues {vs : List Float64} {k : ℕ} {v : Float64} (hv : v ∈ readValues vs k) :
    v ∈ vs ∨ v = 0 :=
  (List.mem_append.mp (List.mem_of_mem_take hv)).imp_right List.eq_of_mem_replicate

theorem length_readValues (vs : List Float64) (k : ℕ) : (readValues vs k).length = k := by
  rw [readValues, List.length_take, List.length_append, List.length_replicate]
  omega

theorem take_payload_zeros (vs : List Float64) {k n : ℕ} (hn : 8 * k ≤ n) :
    (payloadFloat2Buf vs ++ .replicate n 0).take (8 * k) = payloadFloat2Buf (readValues vs k) := by
  have hzeros : List.replicate n (0 : UInt8) = payloadFloat2Buf (.replicate k 0) ++
      .replicate (n - 8 * k) 0 := by
    rw [payloadFloat2Buf_zeros, List.replicate_append_replicate, Nat.add_sub_cancel' hn]
  rw [hzeros, ← List.append_assoc, List.take_append_of_le_length]
  · rw [readValues, ← take_payloadFloat2Buf, payloadFloat2Buf, payloadFloat2Buf, payloadFloat2Buf,
      List.flatMap_append]
  · rw [List.length_append, length_payloadFloat2Buf, length_payloadFloat2Buf, List.length_replicate]
    omega

/-! ### One frame -/

theorem serviceHeader_repack {β : Type} (v : ServicePacket β) :
    serviceHeader { v with toPacket := v.toPacket.repack } = serviceHeader v := by
  rw [serviceHeader, serviceHeader, bufExt, bufExt, headerBuf_repack]

theorem size_of_fits {bs : List UInt8} (h : wireFraming.Fits 1 bs) :
    8 ≤ (8 + 8 * leNat ((bs.take 8).drop 6)) % 65536 ∧
      (8 + 8 * leNat ((bs.take 8).drop 6)) % 65536 ≤ bs.length :=
  ⟨h.1, h.2.1⟩

section Frame
variable {v : ServicePacket (List UInt8)} {f : SubPacket (List UInt8)} {vs : List Float64}
  (hsub : v.subpackets = [f]) (hpayload : f.payload = payloadFloat2Buf vs)
include hsub hpayload

theorem take_listenBuf_frame {k : ℕ} (hk : 30 + 8 * k ≤ 4500) :
    (listenBuf (wire v)).toList.take (30 + 8 * k) =
      serviceHeader v ++ (subHeader f ++ payloadFloat2Buf (readValues vs k)) := by
  have hwire : wire v = (serviceHeader v ++ subHeader f) ++ payloadFloat2Buf vs := by
    rw [wire, hsub, List.flatMap_singleton, subBuf, hpayload, List.append_assoc]
  have hlen : (serviceHeader v ++ subHeader f).length = 30 := by
    rw [List.length_append, length_serviceHeader, length_subHeader]
  rw [take_listenBuf _ hk, hwire, List.append_assoc, List.take_append, hlen, Nat.add_sub_cancel_left,
    List.take_of_length_le (by omega), take_payload_zeros vs (Nat.le_add_left ..), List.append_assoc]

/-- The frame is read with as many values as it says, reduced to the 16 bits of its size. -/
theorem decode_frame (hnum : v.subframeNum = 1) (hroom : 30 + 8 * (f.length.toNat % 8192) ≤ 4500) :
    ∃ p q, fromServiceBuf? (listenBuf (wire v)) = some p ∧ p.service = v.service ∧
      p.subpackets = [q] ∧ q.dataID = f.dataID ∧ q.row = f.row ∧ q.col = f.col ∧ q.length = f.length ∧
      q.payload.toList = payloadFloat2Buf (readValues vs (f.length.toNat % 8192)) := by
  let f' : SubPacket (List UInt8) :=
    { f with payload := payloadFloat2Buf (readValues vs (f.length.toNat % 8192)) }
  let v' : ServicePacket (List UInt8) := { v with toPacket := v.toPacket.repack, subpackets := [f'] }
  have hvalid : v'.Valid16 := by
    refine ⟨v.toPacket.nibbles_repack.1, (congrArg UInt16.toNat hnum).symm, fun x hx => ?_⟩
    rw [List.mem_singleton.mp hx, SubPacket.Valid16, toNat_offset, length_payloadFloat2Buf,
      length_readValues]
    change 8 * (f.length.toNat % 8192) + 8 = (8 + 8 * f.length.toNat) % 65536
    omega
  have hwire : wire v' = (listenBuf (wire v)).toList.take (30 + 8 * (f.length.toNat % 8192)) := by
    rw [take_listenBuf_frame hsub hpayload hroom, ← serviceHeader_repack]
    exact congrArg (serviceHeader v' ++ ·) (List.flatMap_singleton subBuf f')
  have hbytes : (listenBuf (wire v)).toList =
      wire v' ++ (listenBuf (wire v)).toList.drop (30 + 8 * (f.length.toNat % 8192)) := by
    rw [hwire, List.take_append_drop]
  obtain ⟨p, hp, hvisible⟩ := fromServiceBuf?_complete hvalid hbytes
  have hframes : p.subpackets.map SubPacket.visible = [f'] := congrArg ServicePacket.subpackets hvisible
  obtain ⟨q, hq, hqf⟩ := List.map_eq_singleton_iff.mp hframes
  exact ⟨p, q, hp, congrArg ServicePacket.service hvisible, hq, congrArg SubPacket.dataID hqf,
    congrArg SubPacket.row hqf, congrArg SubPacket.col hqf, congrArg SubPacket.length hqf,
    congrArg SubPacket.payload hqf⟩

theorem decode_frame_none (hnum : v.subframeNum = 1)
    (hroom : 4500 < 30 + 8 * (f.length.toNat % 8192)) : fromServiceBuf? (listenBuf (wire v)) = none := by
  have hhead : (listenBuf (wire v)).toList.take 30 = serviceHeader v ++ subHeader f := by
    have h := take_listenBuf_frame hsub hpayload (k := 0) (by omega)
    rwa [readValues, List.take_zero] at h
  have hcount : subframeNumOf (listenBuf (wire v)).toList = 1 := by
    have htake : ((listenBuf (wire v)).toList.drop 20).take 2 =
        (((listenBuf (wire v)).toList.take 30).drop 20).take 2 := by
      rw [List.drop_take, List.take_take]
      rfl
    rw [subframeNumOf, htake, hhead, serviceHeader, List.append_assoc,
      List.drop_left' (by simp [bufExt]), List.take_left' (by simp), hnum]
    rfl
  have hsize : leNat ((((listenBuf (wire v)).toList.drop 22).take 8).drop 6) = f.length.toNat := by
    have htake : ((listenBuf (wire v)).toList.drop 22).take 8 =
        ((listenBuf (wire v)).toList.take 30).drop 22 := by
      rw [List.drop_take]
    rw [htake, hhead, List.drop_left' (length_serviceHeader v), lengthOf_subHeader]
  rw [← Option.not_isSome_iff_eq_none, listenBuf_decodes_iff, hcount]
  intro hfits
  obtain ⟨hheader, hend⟩ := size_of_fits hfits
  rw [hsize] at hheader hend
  rw [List.length_drop, Slice.length_toList, len_listenBuf] at hend
  omega

end Frame
end Server

/-! ### What services send -/

namespace Service
variable {g : Slice.Growth} {dst : UInt8} {id : UInt16} {row col : UInt8} {vs : List Float64}
  {buf : List UInt8}

theorem toNat_cells (row col : UInt8) : (row.toUInt16 * col.toUInt16).toNat = row.toNat * col.toNat := by
  have hle : row.toNat * col.toNat ≤ 255 * 255 :=
    Nat.mul_le_mul (Nat.le_of_lt_succ row.toNat_lt) (Nat.le_of_lt_succ col.toNat_lt)
  rw [UInt16.toNat_mul, UInt8.toNat_toUInt16, UInt8.toNat_toUInt16]
  omega

/-- What is read out of data that a service has sent is of its id, and among its numbers or zero. -/
theorem IsDataWith.values (h : IsDataWith dst id row col vs buf) {pkt : ServicePacket (Slice UInt8)}
    (hdecode : fromServiceBuf? (listenBuf buf) = some pkt) {f : SubPacket (Slice UInt8)}
    (hf : f ∈ pkt.subpackets) {rawData : Slice Float64}
    (hraw : payloadBuf2Float? g f.payload = some rawData) :
    f.dataID = id ∧ ∀ v ∈ rawData.toList, v ∈ vs ∨ v = 0 := by
  obtain ⟨v, x, rfl, _, _, hnum, hsub, rfl, _, _, _, hpayload⟩ := h
  rcases Nat.lt_or_ge 4500 (30 + 8 * (x.length.toNat % 8192)) with hroom | hroom
  · rw [decode_frame_none hsub hpayload hnum hroom] at hdecode
    cases hdecode
  · obtain ⟨p, q, hp, _, hq, hid, _, _, _, hread⟩ := decode_frame hsub hpayload hnum hroom
    cases hp.symm.trans hdecode
    rw [hq, List.mem_singleton] at hf
    subst hf
    obtain ⟨raw, hraw', hlist⟩ := payloadBuf2Float?_of_payloadFloat2Buf g hread
    cases hraw.symm.trans hraw'
    exact ⟨hid, fun v hv => mem_readValues (hlist ▸ hv)⟩

/-- Data that a service has sent is faulty exactly when it says to be of more values than the receive
buffer has room for. -/
theorem IsDataWith.faulty_iff (h : IsDataWith dst id row col vs buf) :
    Faulty buf ↔ 558 < row.toNat * col.toNat := by
  obtain ⟨v, x, rfl, _, hservice, hnum, hsub, _, rfl, rfl, hlength, hpayload⟩ := h
  have hcells : x.length.toNat = x.row.toNat * x.col.toNat := hlength ▸ toNat_cells x.row x.col
  rcases Nat.lt_or_ge 4500 (30 + 8 * (x.length.toNat % 8192)) with hroom | hroom
  · refine iff_of_true (fun pkt hpkt => ?_) (by omega)
    rw [decode_frame_none hsub hpayload hnum hroom] at hpkt
    cases hpkt
  · obtain ⟨p, q, hp, hps, hq, _, hqrow, hqcol, hqlength, _⟩ := decode_frame hsub hpayload hnum hroom
    constructor
    · intro hfaulty
      rcases hfaulty p hp with hpublish | ⟨_, f, hf, hlt⟩
      · rw [hps, hservice] at hpublish
        cases hpublish
      · rw [hq, List.mem_singleton] at hf
        subst hf
        rw [hqlength, hqrow, hqcol, ← hcells] at hlt
        omega
    · intro hmany pkt hpkt
      cases hp.symm.trans hpkt
      refine .inr ⟨hps.trans hservice, q, hq ▸ List.mem_singleton_self q, ?_⟩
      rw [hqlength, hqrow, hqcol, ← hcells]
      omega

/-- An acknowledgement is decoded, and is of no service that is handled. -/
theorem IsResponseTo.decoded (h : IsResponseTo dst buf) : ∃ pkt,
    fromServiceBuf? (listenBuf buf) = some pkt ∧ pkt.service = Utils.serResponse := by
  obtain ⟨v, rfl, _, hservice, hnum, hsub⟩ := h
  let v' : ServicePacket (List UInt8) := { v with toPacket := v.toPacket.repack }
  have hvalid : v'.Valid16 := by
    refine ⟨v.toPacket.nibbles_repack.1, ?_, fun f hf => ?_⟩
    · change v.subpackets.length = v.subframeNum.toNat
      rw [hsub, hnum]
      rfl
    · replace hf : f ∈ v.subpackets := hf
      rw [hsub] at hf
      cases hf
  have hwire : wire v' = wire v := congrArg (· ++ _) (serviceHeader_repack v)
  have hlen : (wire v').length ≤ 4500 := by
    rw [hwire, wire, hsub, List.flatMap_nil, List.append_nil, length_serviceHeader]
    omega
  obtain ⟨q, hq, hvisible⟩ := listenBuf_decodes hvalid hlen
  exact ⟨q, hwire ▸ hq, (congrArg ServicePacket.service hvisible).trans hservice⟩

theorem IsResponseTo.not_faulty (h : IsResponseTo dst buf) : ¬ Faulty buf := by
  obtain ⟨pkt, hpkt, hservice⟩ := h.decoded
  intro hfaulty
  rcases hfaulty pkt hpkt with hpublish | ⟨hsend, _⟩
  · rw [hservice] at hpublish
    cases hpublish
  · rw [hservice] at hsend
    cases hsend

end Service
end DRDS
