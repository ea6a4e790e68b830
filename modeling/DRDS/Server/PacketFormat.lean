import DRDS.Server.PacketCodec
import DRDS.Utils

/-! Which byte strings the decoder accepts, and how that compares with the documented
format. -/
namespace DRDS.Server
open Go Wire

def subframeNumOf (bs : List UInt8) : ℕ := leNat ((bs.drop 20).take 2)

/-- Subframes as the README lays them out: `LENGTH` doubles after eight header bytes. -/
def docFraming : Framing UInt8 where
  header := 8
  lengthOf h := leNat (h.drop 6)
  size length := 8 + 8 * length

/-- Subframes as the decoder steps over them: the size is reduced to 16 bits. -/
def wireFraming : Framing UInt8 where
  header := 8
  lengthOf h := leNat (h.drop 6)
  size length := (8 + 8 * length) % 2 ^ 16

theorem toNat_offset (length : UInt16) :
    (8 + 8 * length).toNat = wireFraming.size length.toNat := by
  simp [wireFraming]

theorem lengthOf_subHeader {β : Type} (f : SubPacket β) :
    leNat ((subHeader f).drop 6) = f.length.toNat := by
  rw [subHeader, List.drop_left' (by simp), leNat_leBytes_of_lt (by simpa using f.length.toNat_lt)]

theorem lengthOf_subBuf (f : SubPacket (List UInt8)) (z : List UInt8) :
    leNat (((subBuf f ++ z).take 8).drop 6) = f.length.toNat := by
  rw [subBuf, List.append_assoc, List.take_left' (length_subHeader f), lengthOf_subHeader]

theorem subframe?_of_fits {s : Slice UInt8} (h8 : 8 ≤ wireFraming.size (leNat ((s.toList.take 8).drop 6)))
    (hle : wireFraming.size (leNat ((s.toList.take 8).drop 6)) ≤ s.len) :
    (subframe? s).isSome := by
  obtain ⟨dataID, hid⟩ := uint16At_of_le (s := s) (i := 0) (j := 2) rfl (by omega)
  obtain ⟨timeDiff, htd⟩ := uint16At_of_le (s := s) (i := 2) (j := 4) rfl (by omega)
  obtain ⟨row, hrow⟩ := index?_of_lt (s := s) (i := 4) (by omega)
  obtain ⟨col, hcol⟩ := index?_of_lt (s := s) (i := 5) (by omega)
  obtain ⟨length, hlength⟩ := uint16At_of_le (s := s) (i := 6) (j := 8) rfl (by omega)
  have hL : leNat ((s.toList.take 8).drop 6) = length.toNat := by
    rw [List.drop_take, uint16At_drop rfl (by omega) hlength, List.take_left' (by simp),
      leNat_leBytes_of_lt (by simpa using length.toNat_lt)]
  rw [hL, ← toNat_offset] at h8 hle
  obtain ⟨body, hbody, _⟩ := Slice.slice?_of_le h8 hle
  obtain ⟨rest, hrest⟩ := Slice.sliceFrom?_of_le hle
  simp only [subframe?, hid, htd, hrow, hcol, hlength, hbody, hrest, Option.bind_eq_bind,
    Option.bind_some, Option.isSome_some]

theorem wireFraming_reads : wireFraming.Reads subframe? Slice.toList where
  accepts s := by
    constructor
    · intro h
      obtain ⟨⟨f, s'⟩, hf⟩ := Option.isSome_iff_exists.mp h
      obtain ⟨hv, hs⟩ := subframe?_sound hf
      have hL : wireFraming.lengthOf (s.toList.take 8) = f.visible.length.toNat := by
        rw [hs]
        exact lengthOf_subBuf _ _
      change 8 ≤ wireFraming.size (wireFraming.lengthOf (s.toList.take 8)) ∧
        wireFraming.size (wireFraming.lengthOf (s.toList.take 8)) ≤ _
      rw [hL, ← toNat_offset, ← hv, hs, List.length_append, length_subBuf]
      omega
    · rintro ⟨h8, hle⟩
      exact subframe?_of_fits h8 (by rw [← s.length_toList]; exact hle)
  rest {s f s'} hf := by
    obtain ⟨hv, hs⟩ := subframe?_sound hf
    have hL : wireFraming.lengthOf (s.toList.take 8) = f.visible.length.toNat := by
      rw [hs]
      exact lengthOf_subBuf _ _
    change _ = s.toList.drop (wireFraming.size (wireFraming.lengthOf (s.toList.take 8)))
    rw [hL, ← toNat_offset, ← hv, hs, List.drop_left' (by rw [length_subBuf]; omega)]

theorem fromServiceBuf?_of_header {s : Slice UInt8} (h : 22 ≤ s.len) :
    ∃ body : Slice UInt8, body.toList = s.toList.drop 22 ∧
      (fromServiceBuf? s).isSome = (repeat? subframe? (subframeNumOf s.toList) body).isSome := by
  obtain ⟨pkt, hpkt⟩ : ∃ pkt, fromBuf? s = some pkt := by
    obtain ⟨src, hsrc⟩ := index?_of_lt (s := s) (i := 0) (by omega)
    obtain ⟨dst, hdst⟩ := index?_of_lt (s := s) (i := 1) (by omega)
    obtain ⟨temp, htemp⟩ := uint16At_of_le (s := s) (i := 2) (j := 4) rfl (by omega)
    obtain ⟨phys, hphys⟩ := uint32At_of_le (s := s) (i := 4) (j := 8) rfl (by omega)
    obtain ⟨sim, hsim⟩ := uint32At_of_le (s := s) (i := 8) (j := 12) rfl (by omega)
    obtain ⟨seq, hseq⟩ := uint16At_of_le (s := s) (i := 12) (j := 14) rfl (by omega)
    obtain ⟨length, hlength⟩ := uint16At_of_le (s := s) (i := 14) (j := 16) rfl (by omega)
    obtain ⟨payload, hpayload⟩ := Slice.sliceFrom?_of_le (s := s) (i := 16) (by omega)
    simp [fromBuf?, hsrc, hdst, htemp, hphys, hsim, hseq, hlength, hpayload]
  obtain ⟨_, hbytes, _⟩ := fromBuf?_sound hpkt
  have hd16 : s.toList.drop 16 = pkt.payload.toList := by
    rw [hbytes, List.drop_left' (length_headerBuf pkt)]
  have hlen : 6 ≤ pkt.payload.len := by
    rw [← Slice.length_toList, ← hd16, List.length_drop, Slice.length_toList]
    omega
  obtain ⟨service, hservice⟩ := index?_of_lt (s := pkt.payload) (i := 0) (by omega)
  obtain ⟨flag, hflag⟩ := index?_of_lt (s := pkt.payload) (i := 1) (by omega)
  obtain ⟨option1, hopt1⟩ := index?_of_lt (s := pkt.payload) (i := 2) (by omega)
  obtain ⟨option2, hopt2⟩ := index?_of_lt (s := pkt.payload) (i := 3) (by omega)
  obtain ⟨num, hnum⟩ := uint16At_of_le (s := pkt.payload) (i := 4) (j := 6) rfl hlen
  obtain ⟨body, hbody⟩ := Slice.sliceFrom?_of_le hlen
  have hN : subframeNumOf s.toList = num.toNat := by
    rw [subframeNumOf, show 20 = 16 + 4 from rfl, ← List.drop_drop, hd16,
      uint16At_drop rfl hlen hnum, List.take_left' (by simp),
      leNat_leBytes_of_lt (by simpa using num.toNat_lt)]
  refine ⟨body, ?_, ?_⟩
  · rw [(Slice.sliceFrom?_some hbody).2.1, ← hd16, List.drop_drop]
  · rw [hN]
    cases hr : repeat? subframe? num.toNat body with
    | none => simp [fromServiceBuf?, hpkt, hservice, hflag, hopt1, hopt2, hnum, hbody, hr]
    | some r => simp [fromServiceBuf?, hpkt, hservice, hflag, hopt1, hopt2, hnum, hbody, hr]

/-- The decoder comes to a normal end exactly when the announced subframes lie in the
buffer, each stepped over by its size modulo 2^16. -/
theorem fromServiceBuf?_isSome (s : Slice UInt8) :
    (fromServiceBuf? s).isSome ↔
      22 ≤ s.len ∧ wireFraming.Fits (subframeNumOf s.toList) (s.toList.drop 22) := by
  by_cases h : 22 ≤ s.len
  · obtain ⟨body, hbody, heq⟩ := fromServiceBuf?_of_header h
    rw [heq, wireFraming_reads.repeat?_isSome, hbody]
    simp [h]
  · simp only [h, false_and, iff_false]
    intro hs
    obtain ⟨p, hp⟩ := Option.isSome_iff_exists.mp hs
    have hlen := congrArg List.length (fromServiceBuf?_sound hp).2
    rw [s.length_toList, List.length_append, wire, List.length_append, length_serviceHeader] at hlen
    omega

/-! ### Encode, then decode -/

theorem SubPacket.valid16_of_lt {f : SubPacket (List UInt8)} (hp : f.payload.length = 8 * f.length.toNat)
    (hl : f.length.toNat < 8191) : f.Valid16 := by
  rw [SubPacket.Valid16, toNat_offset, hp]
  change _ = (8 + 8 * f.length.toNat) % 65536
  omega

/-- Decoding undoes encoding, whatever bytes follow the packet. -/
theorem fromServiceBuf?_toServiceBuf (p : ServicePacket (Slice UInt8)) (z : List UInt8)
    (buf : Slice UInt8) (hbuf : buf.toList = toServiceBuf p ++ z) (hn : p.toPacket.Nibbles)
    (hc : p.subframeNum.toNat = p.subpackets.length)
    (hf : ∀ f ∈ p.subpackets, f.payload.len = 8 * f.length.toNat ∧ f.length.toNat < 8191) :
    ∃ q, fromServiceBuf? buf = some q ∧ q.visible = { p.visible with payload := z } := by
  rw [toServiceBuf_eq_wire] at hbuf
  refine fromServiceBuf?_complete ⟨⟨hn.1, hn.2, hn.3, hn.4⟩, ?_, ?_⟩ hbuf
  · simpa [ServicePacket.visible, ServicePacket.map] using hc.symm
  · intro f hmem
    obtain ⟨g, hg, rfl⟩ := List.mem_map.mp hmem
    obtain ⟨hp, hl⟩ := hf g hg
    exact SubPacket.valid16_of_lt (by simpa [SubPacket.map] using hp) hl

def onePacket : ServicePacket (Slice UInt8) where
  src := 1
  dst := 2
  messageType := 1
  priority := 7
  version := 0
  reserved := 0
  physicalTime := 1650000000
  simulinkTime := 500
  sequence := 3
  length := 22
  payload := .ofList []
  service := 0
  flag := 0
  option1 := 0
  option2 := 0
  subframeNum := 1
  subpackets := [⟨3, 4, 1, 1, 1, .ofList [0, 0, 0, 0, 0, 0, 0xf0, 0x3f]⟩]

theorem fromServiceBuf?_onePacket :
    ∃ q, fromServiceBuf? (.ofList (toServiceBuf onePacket ++ [9, 9])) = some q ∧
      q.visible = { onePacket.visible with payload := [9, 9] } :=
  fromServiceBuf?_toServiceBuf onePacket [9, 9] _ (Slice.toList_ofList _)
    ⟨by decide, by decide, by decide, by decide⟩ rfl (by decide)

/-! ### Decode, then encode -/

/-- Encoding undoes decoding: with the bytes after the last subframe it gives back the whole
buffer, also where an offset has wrapped in its 16 bits. -/
theorem toServiceBuf_append_payload (buf : Slice UInt8) (p : ServicePacket (Slice UInt8))
    (h : fromServiceBuf? buf = some p) : toServiceBuf p ++ p.payload.toList = buf.toList := by
  rw [toServiceBuf_eq_wire]
  exact (fromServiceBuf?_sound h).2.symm

/-! ### The documented format -/

/-- The README's layout: the 22-byte header, `SUBFRAME_NUM` subframes of eight header
bytes and `8 * LENGTH` payload bytes, one right after the other, and the remainder. -/
structure Documented (bs : List UInt8) (v : ServicePacket (List UInt8)) : Prop where
  layout : bs = serviceHeader v ++ (v.subpackets.flatMap subBuf ++ v.payload)
  count : v.subpackets.length = v.subframeNum.toNat
  payload : ∀ f ∈ v.subpackets, f.payload.length = 8 * f.length.toNat

/-- Where the decoder and the document first disagree on a size, a length of 8192 or
more is announced. -/
theorem payload_iff_lengths_lt (fs : List (SubPacket (List UInt8))) (z : List UInt8)
    (hv : ∀ f ∈ fs, f.Valid16) :
    (∀ f ∈ fs, f.payload.length = 8 * f.length.toNat) ↔
      ∀ L ∈ docFraming.lengths fs.length (fs.flatMap subBuf ++ z), L < 8192 := by
  induction fs with
  | nil => simp [Framing.lengths]
  | cons f fs ih =>
    have hvf : f.payload.length + 8 = (8 + 8 * f.length.toNat) % 65536 := by
      have h := hv f (by simp)
      rwa [SubPacket.Valid16, toNat_offset] at h
    have hhead : docFraming.header ≤ ((f :: fs).flatMap subBuf ++ z).length := by
      change 8 ≤ _
      simp
      omega
    have hL : docFraming.lengthOf (((f :: fs).flatMap subBuf ++ z).take docFraming.header) =
        f.length.toNat := by
      rw [List.flatMap_cons, List.append_assoc]
      exact lengthOf_subBuf f _
    rw [List.length_cons, Framing.lengths, if_pos hhead, hL, List.forall_mem_cons,
      List.forall_mem_cons]
    by_cases hlt : f.length.toNat < 8192
    · have hp : f.payload.length = 8 * f.length.toNat := by omega
      have hdrop : ((f :: fs).flatMap subBuf ++ z).drop (docFraming.size f.length.toNat) =
          fs.flatMap subBuf ++ z := by
        rw [List.flatMap_cons, List.append_assoc, List.drop_left']
        rw [length_subBuf, hp]
        rfl
      rw [hdrop, ih (fun g hg => hv g (by simp [hg]))]
      simp [hp, hlt]
    · have hp : f.payload.length ≠ 8 * f.length.toNat := by omega
      simp [hp, hlt]

/-- What the decoder accepts has the documented format exactly when no subframe of that
format announces 8192 doubles or more: from there on the 16-bit offset falls short. -/
theorem documented_iff_lengths_lt (s : Slice UInt8) (p : ServicePacket (Slice UInt8))
    (h : fromServiceBuf? s = some p) :
    Documented s.toList p.visible ↔
      ∀ L ∈ docFraming.lengths (subframeNumOf s.toList) (s.toList.drop 22), L < 8192 := by
  obtain ⟨⟨_, hcount, hframes⟩, hbytes⟩ := fromServiceBuf?_sound h
  have hs : s.toList = serviceHeader p.visible ++ (p.visible.subpackets.flatMap subBuf ++
      p.visible.payload) := by
    rw [hbytes, wire, List.append_assoc]
    rfl
  have hN : subframeNumOf s.toList = p.visible.subpackets.length := by
    rw [subframeNumOf, hs, serviceHeader, List.append_assoc, List.drop_left' (by simp [bufExt]),
      List.take_left' (by simp), leNat_leBytes_of_lt (by simpa using UInt16.toNat_lt _), hcount]
  have hdrop : s.toList.drop 22 = p.visible.subpackets.flatMap subBuf ++ p.visible.payload := by
    rw [hs, List.drop_left' (length_serviceHeader _)]
  rw [hN, hdrop, ← payload_iff_lengths_lt _ _ hframes]
  exact ⟨fun hd => hd.payload, fun hp => ⟨hs, hcount, hp⟩⟩

/-- A subframe that announces 8192 doubles: its offset wraps to 8. -/
def wrapPacket : ServicePacket (List UInt8) where
  src := 1
  dst := 2
  messageType := 1
  priority := 7
  version := 0
  reserved := 0
  physicalTime := 1650000000
  simulinkTime := 500
  sequence := 3
  length := 14
  payload := []
  service := 0
  flag := 0
  option1 := 0
  option2 := 0
  subframeNum := 1
  subpackets := [⟨3, 0, 128, 64, 8192, []⟩]

theorem wrapPacket_valid16 : wrapPacket.Valid16 :=
  ⟨⟨by decide, by decide, by decide, by decide⟩, rfl, by simp [wrapPacket, SubPacket.Valid16]⟩

/-- Thirty bytes that the decoder accepts and the document does not. -/
theorem wrapPacket_not_documented :
    ∃ p, fromServiceBuf? (.ofList (wire wrapPacket)) = some p ∧
      ¬ Documented (wire wrapPacket) p.visible := by
  obtain ⟨p, hp, hv⟩ := fromServiceBuf?_complete (s := .ofList (wire wrapPacket)) (z := [])
    wrapPacket_valid16 (by simp)
  refine ⟨p, hp, fun hd => ?_⟩
  rw [hv] at hd
  have h := hd.payload ⟨3, 0, 128, 64, 8192, []⟩ (by simp [wrapPacket])
  simp at h

/-- The subframe whose offset wraps, and two more bytes. -/
theorem toServiceBuf_append_payload_wrap :
    ∃ p, fromServiceBuf? (.ofList (wire wrapPacket ++ [9, 9])) = some p ∧
      toServiceBuf p ++ p.payload.toList = (Slice.ofList (wire wrapPacket ++ [9, 9])).toList := by
  obtain ⟨p, hp, _⟩ := fromServiceBuf?_complete (s := .ofList (wire wrapPacket ++ [9, 9]))
    (z := [9, 9]) wrapPacket_valid16 (Slice.toList_ofList _)
  exact ⟨p, hp, toServiceBuf_append_payload _ p hp⟩

theorem wrapPacket_documented_iff :
    ∃ p, fromServiceBuf? (.ofList (wire wrapPacket)) = some p ∧
      (Documented (Slice.ofList (wire wrapPacket)).toList p.visible ↔
        ∀ L ∈ docFraming.lengths (subframeNumOf (Slice.ofList (wire wrapPacket)).toList)
          ((Slice.ofList (wire wrapPacket)).toList.drop 22), L < 8192) := by
  obtain ⟨p, hp, _⟩ := fromServiceBuf?_complete (s := .ofList (wire wrapPacket)) (z := [])
    wrapPacket_valid16 (by simp)
  exact ⟨p, hp, documented_iff_lengths_lt _ p hp⟩

/-! ### The receive buffer -/

/-- What the producer of `listen` puts on the queue: the array is zeroed, and a datagram
is cut at its end. -/
def listenBuf (datagram : List UInt8) : Slice UInt8 :=
  .ofList ((datagram.take Utils.pktLen).rightpad Utils.pktLen 0)

@[simp] theorem len_listenBuf (datagram : List UInt8) : (listenBuf datagram).len = 4500 := by
  rw [listenBuf, Slice.len_ofList, List.length_rightpad, List.length_take]
  exact max_eq_left (min_le_left _ _)

theorem toList_listenBuf {datagram : List UInt8} (h : datagram.length ≤ 4500) :
    (listenBuf datagram).toList = datagram ++ .replicate (4500 - datagram.length) 0 := by
  rw [listenBuf, Slice.toList_ofList, Utils.pktLen, List.take_of_length_le h, List.rightpad]

/-- The consumer decodes a datagram without a run-time panic exactly when each announced
subframe, taken with its size modulo 2^16, has its header and ends inside the buffer. -/
theorem listenBuf_decodes_iff (datagram : List UInt8) :
    (fromServiceBuf? (listenBuf datagram)).isSome ↔
      wireFraming.Fits (subframeNumOf (listenBuf datagram).toList)
        ((listenBuf datagram).toList.drop 22) := by
  rw [fromServiceBuf?_isSome, len_listenBuf]
  simp

/-- One subframe that announces 8191 doubles: the slice expression is `Payload[8:0]`. -/
theorem listenBuf_wrap_panics :
    fromServiceBuf? (listenBuf (List.replicate 20 0 ++ [1, 0] ++ List.replicate 6 0 ++
      [0xff, 0x1f])) = none := by
  rw [← Option.not_isSome_iff_eq_none, fromServiceBuf?_isSome]
  decide +kernel

end DRDS.Server
