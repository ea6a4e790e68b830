import DRDS.Server.Packet
import DRDS.Wire.Framing
import Mathlib.Tactic.SplitIfs

/-! The decoder against the encoder: what `fromServiceBuf?` accepts, byte for byte. -/
namespace DRDS.Server
open Go Wire

/-! ### Subframes -/

/-- The payload is as long as the 16-bit offset arithmetic of the decoder makes it. -/
def SubPacket.Valid16 (f : SubPacket (List UInt8)) : Prop :=
  f.payload.length + 8 = (8 + 8 * f.length).toNat

theorem SubPacket.eq_of_visible {f : SubPacket (Slice UInt8)} {v : SubPacket (List UInt8)}
    (h : f.visible = v) : f = { v with payload := f.payload } := by
  cases h
  rfl

@[simp] theorem length_subHeader {β : Type} (f : SubPacket β) : (subHeader f).length = 8 := by
  simp [subHeader]

@[simp] theorem length_subBuf (f : SubPacket (List UInt8)) :
    (subBuf f).length = 8 + f.payload.length := by
  simp [subBuf]

theorem subframe?_sound {s s' : Slice UInt8} {f : SubPacket (Slice UInt8)}
    (h : subframe? s = some (f, s')) :
    f.visible.Valid16 ∧ s.toList = subBuf f.visible ++ s'.toList := by
  simp only [subframe?, Option.bind_eq_bind, Option.bind_eq_some_iff] at h
  obtain ⟨dataID, hid, timeDiff, htd, row, hrow, col, hcol, length, hlength, body, hbody,
    rest, hrest, heq⟩ := h
  cases Option.some.inj heq
  obtain ⟨hoff, _, hlen, _⟩ := Slice.slice?_some hbody
  obtain ⟨hle, hdrop, _⟩ := Slice.sliceFrom?_some hrest
  constructor
  · simp only [SubPacket.Valid16, SubPacket.visible, SubPacket.map, Slice.length_toList]
    omega
  · calc s.toList
        = s.toList.drop 0 := List.drop_zero.symm
      _ = _ := by
        rw [uint16At_drop rfl (by omega) hid, uint16At_drop rfl (by omega) htd, index?_drop hrow,
          index?_drop hcol, uint16At_drop rfl (by omega) hlength, Slice.slice?_drop hbody hle,
          ← hdrop]
        simp [subBuf, subHeader, SubPacket.visible, SubPacket.map]

theorem subframe?_complete {f : SubPacket (List UInt8)} {s : Slice UInt8} {z : List UInt8}
    (hf : f.Valid16) (hs : s.toList = subBuf f ++ z) :
    ∃ g s', subframe? s = some (g, s') ∧ g.visible = f ∧ s'.toList = z := by
  have hlen : s.len = 8 + f.payload.length + z.length := by
    rw [← s.length_toList, hs, List.length_append, length_subBuf]
  unfold SubPacket.Valid16 at hf
  have hd8 : s.toList.drop 8 = f.payload ++ z := by
    rw [hs, subBuf, List.append_assoc, List.drop_left' (length_subHeader f)]
  simp only [subBuf, subHeader, List.append_assoc, List.cons_append, List.nil_append] at hs
  obtain ⟨body, hbody, _, hbl⟩ := Slice.slice?_of_le (s := s) (i := 8)
    (j := (8 + 8 * f.length).toNat) (by omega) (by omega)
  obtain ⟨rest, hrest⟩ := Slice.sliceFrom?_of_le (s := s) (i := (8 + 8 * f.length).toNat)
    (by omega)
  have hid : uint16At? s 0 2 = some f.dataID := uint16At_append (p := []) hs rfl rfl
  have htd : uint16At? s 2 4 = some f.timeDiff :=
    uint16At_append (p := leBytes 2 f.dataID.toNat) hs (by simp) rfl
  have hrow : s.index? 4 = some f.row :=
    index?_append (p := leBytes 2 f.dataID.toNat ++ leBytes 2 f.timeDiff.toNat)
      (by simpa using hs) (by simp)
  have hcol : s.index? 5 = some f.col :=
    index?_append (p := leBytes 2 f.dataID.toNat ++ leBytes 2 f.timeDiff.toNat ++ [f.row])
      (by simpa using hs) (by simp)
  have hlength : uint16At? s 6 8 = some f.length :=
    uint16At_append (p := leBytes 2 f.dataID.toNat ++ leBytes 2 f.timeDiff.toNat ++
      [f.row, f.col]) (by simpa using hs) (by simp) rfl
  refine ⟨⟨f.dataID, f.timeDiff, f.row, f.col, f.length, body⟩, rest, ?_, ?_, ?_⟩
  · simp only [subframe?, hid, htd, hrow, hcol, hlength, hbody, hrest, Option.bind_eq_bind,
      Option.bind_some]
  · have hb : body.toList = f.payload := by
      rw [hbl, hd8, ← hf]
      simp
    simp [SubPacket.visible, SubPacket.map, hb]
  · have hd : s.toList.drop (f.payload.length + 8) = z := by
      rw [Nat.add_comm, ← List.drop_drop, hd8, List.drop_left]
    rw [(Slice.sliceFrom?_some hrest).2.1, ← hf, hd]

/-- The body of the subframe loop as a prefix decoder. -/
def subframeDecoder : PrefixDecoder (Slice UInt8) (SubPacket (Slice UInt8))
    (SubPacket (List UInt8)) UInt8 where
  decode? := subframe?
  bytes := Slice.toList
  view := SubPacket.visible
  encode := subBuf
  Valid := SubPacket.Valid16
  sound := subframe?_sound
  complete := subframe?_complete

/-! ### The packet header -/

/-- Type, priority, version and reserved fit the four bits the format gives them. -/
structure Packet.Nibbles {β : Type} (p : Packet β) : Prop where
  messageType : p.messageType.toNat < 16
  priority : p.priority.toNat < 16
  version : p.version.toNat < 16
  reserved : p.reserved.toNat < 16

theorem toNat_nibbles {β : Type} {p : Packet β} (h : p.Nibbles) :
    (nibbles p).toNat = 4096 * p.messageType.toNat + 256 * p.priority.toNat +
      16 * p.version.toNat + p.reserved.toNat := by
  obtain ⟨h1, h2, h3, h4⟩ := h
  simp [nibbles, Nat.shiftLeft_eq]
  omega

private theorem and_fifteen (n : ℕ) : n &&& 15 = n % 16 := Nat.and_two_pow_sub_one_eq_mod n 4

theorem toNat_typeOf (temp : UInt16) : (temp >>> 12).toUInt8.toNat = temp.toNat / 4096 := by
  have h := temp.toNat_lt
  simp [Nat.shiftRight_eq_div_pow]
  omega

theorem toNat_nibbleOf (temp k : UInt16) (hk : k.toNat < 16) :
    (temp >>> k &&& 0x0f).toUInt8.toNat = temp.toNat / 2 ^ k.toNat % 16 := by
  simp [Nat.shiftRight_eq_div_pow, Nat.mod_eq_of_lt hk, and_fifteen]

theorem toNat_reservedOf (temp : UInt16) : (temp &&& 0x0f).toUInt8.toNat = temp.toNat % 16 := by
  simp [and_fifteen]

theorem nibbles_unpack {β : Type} {p : Packet β} (temp : UInt16)
    (ht : p.messageType = (temp >>> 12).toUInt8)
    (hp : p.priority = (temp >>> 8 &&& 0x0f).toUInt8)
    (hv : p.version = (temp >>> 4 &&& 0x0f).toUInt8)
    (hr : p.reserved = (temp &&& 0x0f).toUInt8) : p.Nibbles ∧ nibbles p = temp := by
  have hlt := temp.toNat_lt
  have ht' : p.messageType.toNat = temp.toNat / 4096 := ht ▸ toNat_typeOf temp
  have hp' : p.priority.toNat = temp.toNat / 256 % 16 := hp ▸ toNat_nibbleOf temp 8 (by decide)
  have hv' : p.version.toNat = temp.toNat / 16 % 16 := hv ▸ toNat_nibbleOf temp 4 (by decide)
  have hr' : p.reserved.toNat = temp.toNat % 16 := hr ▸ toNat_reservedOf temp
  have hn : p.Nibbles := ⟨by omega, by omega, by omega, by omega⟩
  refine ⟨hn, UInt16.toNat_inj.mp ?_⟩
  rw [toNat_nibbles hn]
  omega

theorem nibbles_pack {β : Type} {p : Packet β} (h : p.Nibbles) :
    (nibbles p >>> 12).toUInt8 = p.messageType ∧
      (nibbles p >>> 8 &&& 0x0f).toUInt8 = p.priority ∧
      (nibbles p >>> 4 &&& 0x0f).toUInt8 = p.version ∧
      (nibbles p &&& 0x0f).toUInt8 = p.reserved := by
  have hw := toNat_nibbles h
  obtain ⟨h1, h2, h3, h4⟩ := h
  refine ⟨?_, ?_, ?_, ?_⟩ <;> apply UInt8.toNat_inj.mp
  · rw [toNat_typeOf]
    omega
  · rw [toNat_nibbleOf _ 8 (by decide)]
    change (nibbles p).toNat / 256 % 16 = _
    omega
  · rw [toNat_nibbleOf _ 4 (by decide)]
    change (nibbles p).toNat / 16 % 16 = _
    omega
  · rw [toNat_reservedOf]
    omega

def Packet.repack {β : Type} (p : Packet β) : Packet β :=
  { p with
    messageType := (nibbles p >>> 12).toUInt8
    priority := (nibbles p >>> 8 &&& 0x0f).toUInt8
    version := (nibbles p >>> 4 &&& 0x0f).toUInt8
    reserved := (nibbles p &&& 0x0f).toUInt8 }

theorem Packet.nibbles_repack {β : Type} (p : Packet β) :
    p.repack.Nibbles ∧ Server.nibbles p.repack = Server.nibbles p :=
  nibbles_unpack (Server.nibbles p) rfl rfl rfl rfl

theorem headerBuf_repack {β : Type} (p : Packet β) : headerBuf p.repack = headerBuf p := by
  rw [headerBuf, p.nibbles_repack.2]
  rfl

@[simp] theorem length_headerBuf {β : Type} (p : Packet β) : (headerBuf p).length = 16 := by
  simp [headerBuf]

theorem fromBuf?_sound {s : Slice UInt8} {p : Packet (Slice UInt8)} (h : fromBuf? s = some p) :
    p.Nibbles ∧ s.toList = headerBuf p ++ p.payload.toList ∧ p.payload.cap = s.cap - 16 := by
  simp only [fromBuf?, Option.bind_eq_bind, Option.bind_eq_some_iff] at h
  obtain ⟨src, hsrc, dst, hdst, temp, htemp, phys, hphys, sim, hsim, seq, hseq, length, hlength,
    payload, hpayload, heq⟩ := h
  obtain ⟨hle, hdrop, hcap⟩ := Slice.sliceFrom?_some hpayload
  have hp := (Option.some.inj heq).symm
  obtain ⟨hnib, hword⟩ := nibbles_unpack (p := p) temp (by rw [hp]) (by rw [hp])
    (by rw [hp]) (by rw [hp])
  refine ⟨hnib, ?_, by rw [hp]; exact hcap⟩
  calc s.toList
      = s.toList.drop 0 := List.drop_zero.symm
    _ = headerBuf p ++ p.payload.toList := by
      rw [index?_drop hsrc, index?_drop hdst, uint16At_drop rfl (by omega) htemp,
        uint32At_drop rfl (by omega) hphys, uint32At_drop rfl (by omega) hsim,
        uint16At_drop rfl (by omega) hseq, uint16At_drop rfl (by omega) hlength, ← hdrop,
        headerBuf, hword, hp]
      simp

theorem fromBuf?_complete {β : Type} {p : Packet β} {s : Slice UInt8} {z : List UInt8}
    (hp : p.Nibbles) (hs : s.toList = headerBuf p ++ z) :
    ∃ t, fromBuf? s = some { p with payload := t } ∧ t.toList = z := by
  have hlen : s.len = 16 + z.length := by
    rw [← s.length_toList, hs, List.length_append, length_headerBuf]
  have hd : s.toList.drop 16 = z := by rw [hs, List.drop_left' (length_headerBuf p)]
  obtain ⟨t, ht⟩ := Slice.sliceFrom?_of_le (s := s) (i := 16) (by omega)
  obtain ⟨hmt, hpr, hve, hre⟩ := nibbles_pack hp
  simp only [headerBuf, List.append_assoc, List.cons_append, List.nil_append] at hs
  have hsrc : s.index? 0 = some p.src := index?_append (p := []) hs rfl
  have hdst : s.index? 1 = some p.dst := index?_append (p := [p.src]) hs rfl
  have htemp : uint16At? s 2 4 = some (nibbles p) :=
    uint16At_append (p := [p.src, p.dst]) hs rfl rfl
  have hphys : uint32At? s 4 8 = some p.physicalTime :=
    uint32At_append (p := [p.src, p.dst] ++ leBytes 2 (nibbles p).toNat) (by simpa using hs)
      (by simp) rfl
  have hsim : uint32At? s 8 12 = some p.simulinkTime :=
    uint32At_append (p := [p.src, p.dst] ++ leBytes 2 (nibbles p).toNat ++
      leBytes 4 p.physicalTime.toNat) (by simpa using hs) (by simp) rfl
  have hseq : uint16At? s 12 14 = some p.sequence :=
    uint16At_append (p := [p.src, p.dst] ++ leBytes 2 (nibbles p).toNat ++
      leBytes 4 p.physicalTime.toNat ++ leBytes 4 p.simulinkTime.toNat) (by simpa using hs)
      (by simp) rfl
  have hlength : uint16At? s 14 16 = some p.length :=
    uint16At_append (p := [p.src, p.dst] ++ leBytes 2 (nibbles p).toNat ++
      leBytes 4 p.physicalTime.toNat ++ leBytes 4 p.simulinkTime.toNat ++
      leBytes 2 p.sequence.toNat) (by simpa using hs) (by simp) rfl
  refine ⟨t, ?_, by rw [(Slice.sliceFrom?_some ht).2.1, hd]⟩
  simp only [fromBuf?, hsrc, hdst, htemp, hphys, hsim, hseq, hlength, ht, hmt, hpr, hve, hre,
    Option.bind_eq_bind, Option.bind_some]

/-- What is decoded is encoded to the same bytes, and what is encoded decodes to what it was. -/
theorem toBuf_fromBuf? : (∀ (s : Slice UInt8) p, fromBuf? s = some p → toBuf p = s.toList) ∧
    ∀ p : Packet (Slice UInt8), p.Nibbles → ∃ t, fromBuf? (.ofList (toBuf p)) =
      some { p with payload := t } ∧ t.toList = p.payload.toList :=
  ⟨fun _ _ h => (fromBuf?_sound h).2.1.symm,
    fun _ hp => fromBuf?_complete hp (Slice.toList_ofList _)⟩

/-! ### Service packets -/

/-- The packets `fromServiceBuf?` builds. -/
structure ServicePacket.Valid16 (v : ServicePacket (List UInt8)) : Prop where
  nibbles : v.toPacket.Nibbles
  count : v.subpackets.length = v.subframeNum.toNat
  frames : ∀ f ∈ v.subpackets, f.Valid16

def serviceHeader {β : Type} (v : ServicePacket β) : List UInt8 :=
  bufExt v ++ leBytes 2 v.subframeNum.toNat

@[simp] theorem length_serviceHeader {β : Type} (v : ServicePacket β) :
    (serviceHeader v).length = 22 := by
  simp [serviceHeader, bufExt]

/-- The datagram a packet is written as. -/
def wire (v : ServicePacket (List UInt8)) : List UInt8 :=
  serviceHeader v ++ v.subpackets.flatMap subBuf

theorem toServiceBuf_eq_wire (p : ServicePacket (Slice UInt8)) : toServiceBuf p = wire p.visible := by
  simp [toServiceBuf, wire, serviceHeader, bufExt, headerBuf, nibbles, ServicePacket.visible,
    ServicePacket.map, SubPacket.visible, List.flatMap_map]

theorem fromServiceBuf?_sound {s : Slice UInt8} {p : ServicePacket (Slice UInt8)}
    (h : fromServiceBuf? s = some p) :
    p.visible.Valid16 ∧ s.toList = wire p.visible ++ p.payload.toList := by
  simp only [fromServiceBuf?, Option.bind_eq_bind, Option.bind_eq_some_iff, Prod.exists] at h
  obtain ⟨pkt, hpkt, service, hservice, flag, hflag, option1, hopt1, option2, hopt2, num, hnum,
    body, hbody, subs, rest, hsubs, heq⟩ := h
  cases Option.some.inj heq
  obtain ⟨hnib, hbytes, _⟩ := fromBuf?_sound hpkt
  obtain ⟨hle, hdrop, _⟩ := Slice.sliceFrom?_some hbody
  obtain ⟨⟨hcount, hframes⟩, hsubBytes⟩ := (subframeDecoder.repeated _).sound hsubs
  refine ⟨⟨⟨hnib.1, hnib.2, hnib.3, hnib.4⟩, hcount, hframes⟩, ?_⟩
  have htail : pkt.payload.toList = service :: flag :: option1 :: option2 ::
      (leBytes 2 num.toNat ++ body.toList) := by
    rw [← pkt.payload.toList.drop_zero, index?_drop hservice, index?_drop hflag, index?_drop hopt1,
      index?_drop hopt2, uint16At_drop rfl (by omega) hnum, hdrop]
  rw [hbytes, htail]
  change body.toList = (subs.map SubPacket.visible).flatMap subBuf ++ rest.toList at hsubBytes
  rw [hsubBytes]
  simp [wire, serviceHeader, bufExt, headerBuf, nibbles, ServicePacket.visible, ServicePacket.map,
    SubPacket.visible]

theorem fromServiceBuf?_complete {v : ServicePacket (List UInt8)} {s : Slice UInt8}
    {z : List UInt8} (hv : v.Valid16) (hs : s.toList = wire v ++ z) :
    ∃ p, fromServiceBuf? s = some p ∧ p.visible = { v with payload := z } := by
  obtain ⟨hnib, hcount, hframes⟩ := hv
  simp only [wire, serviceHeader, bufExt, List.append_assoc] at hs
  obtain ⟨t, hpkt, ht⟩ := fromBuf?_complete hnib hs
  have hlen : t.len = 6 + (v.subpackets.flatMap subBuf ++ z).length := by
    rw [← t.length_toList, ht]
    simp
    omega
  simp only [List.cons_append, List.nil_append] at ht
  have hservice : t.index? 0 = some v.service := index?_append (p := []) ht rfl
  have hflag : t.index? 1 = some v.flag := index?_append (p := [v.service]) ht rfl
  have hopt1 : t.index? 2 = some v.option1 := index?_append (p := [v.service, v.flag]) ht rfl
  have hopt2 : t.index? 3 = some v.option2 :=
    index?_append (p := [v.service, v.flag, v.option1]) ht rfl
  have hnum : uint16At? t 4 6 = some v.subframeNum :=
    uint16At_append (p := [v.service, v.flag, v.option1, v.option2]) ht rfl rfl
  obtain ⟨body, hbody⟩ := Slice.sliceFrom?_of_le (s := t) (i := 6) (by omega)
  have hbytes : body.toList = v.subpackets.flatMap subBuf ++ z := by
    rw [(Slice.sliceFrom?_some hbody).2.1, ht]
    rfl
  obtain ⟨subs, rest, hsubs, hview, hrest⟩ :=
    (subframeDecoder.repeated v.subpackets.length).complete ⟨rfl, hframes⟩ hbytes
  change repeat? subframe? v.subpackets.length body = _ at hsubs
  refine ⟨{ v with toPacket := { v.toPacket with payload := rest }, subpackets := subs }, ?_, ?_⟩
  · simp only [fromServiceBuf?, hpkt, hservice, hflag, hopt1, hopt2, hnum, hbody, ← hcount, hsubs,
      Option.bind_eq_bind, Option.bind_some]
  · change rest.toList = z at hrest
    change subs.map SubPacket.visible = _ at hview
    simp only [ServicePacket.visible, ServicePacket.map, hrest]
    rw [← hview]
    rfl

end DRDS.Server
