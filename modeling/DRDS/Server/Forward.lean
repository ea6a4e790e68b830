import DRDS.Server.Payload
import DRDS.Server.SendPkt

/-! Forwarding a `SER_SEND` packet: which rows the loop slices, and what time the copies
carry. -/
namespace DRDS.Server
open Go

/-! ### Rows -/

theorem rowsOf?_isSome {rawData : Slice Float64} {row col : UInt8} :
    (rowsOf? rawData row col).isSome ↔ row.toNat * col.toNat ≤ rawData.cap := by
  rw [rowsOf?, mapM_isSome]
  constructor
  · intro h
    by_cases hrow : row.toNat = 0
    · simp [hrow]
    · -- the last row ends where the matrix does
      have hlast := h (row.toNat - 1) (by simp; omega)
      rw [Option.isSome_map, ← Option.ne_none_iff_isSome, Ne, Slice.slice?_eq_none, not_not,
        Nat.sub_add_cancel (by omega)] at hlast
      exact hlast.2
  · intro h i hi
    rw [List.mem_range] at hi
    rw [Option.isSome_map, ← Option.ne_none_iff_isSome, Ne, Slice.slice?_eq_none, not_not]
    exact ⟨Nat.mul_le_mul_right _ (Nat.le_succ i), (Nat.mul_le_mul_right _ hi).trans h⟩

theorem rowsOf?_some {rawData : Slice Float64} {row col : UInt8} {mat : List (List Float64)}
    (h : rowsOf? rawData row col = some mat) :
    mat.length = row.toNat ∧ ∀ r ∈ mat, r.length = col.toNat := by
  have hf := mapM_forall₂ h
  refine ⟨by rw [← hf.length_eq, List.length_range], fun r hr => ?_⟩
  obtain ⟨i, hi, hri⟩ := List.getElem_of_mem hr
  have hrow := hf.get (i := i) (by rw [hf.length_eq]; exact hi) hi
  obtain ⟨t, ht, htr⟩ := Option.map_eq_some_iff.mp hrow
  have hlen := (Slice.slice?_some ht).2.2.1
  calc r.length
      = t.len := by rw [← hri, ← t.length_toList, htr, List.get_eq_getElem]
    _ = col.toNat := by
      rw [hlen, Nat.succ_mul]
      omega

theorem flatMap_rows {α : Type} (l : List α) (col n : ℕ) :
    ((List.range n).flatMap fun i => (l.drop (i * col)).take col) = l.take (n * col) := by
  induction n with
  | zero => simp
  | succ n ih =>
    rw [List.range_succ, List.flatMap_append, ih, List.flatMap_singleton, Nat.succ_mul,
      List.take_add]

theorem rowsOf?_of_le {rawData : Slice Float64} {row col : UInt8}
    (h : row.toNat * col.toNat ≤ rawData.len) :
    ∃ mat, rowsOf? rawData row col = some mat ∧
      mat.flatten = rawData.toList.take (row.toNat * col.toNat) := by
  refine ⟨_, mapM_of_forall (g := fun i => (rawData.toList.drop (i * col.toNat)).take col.toNat) ?_, ?_⟩
  · intro i hi
    obtain ⟨t, ht, _, htl⟩ := Slice.slice?_of_le (s := rawData) (i := i * col.toNat)
      (j := (i + 1) * col.toNat) (Nat.mul_le_mul_right _ (Nat.le_succ i))
      ((Nat.mul_le_mul_right _ (List.mem_range.mp hi)).trans h)
    rw [ht, Option.map_some, htl, Nat.succ_mul, Nat.add_sub_cancel_left]
  · rw [← List.flatMap_def, flatMap_rows]

theorem forward?_isSome {s : Server} (pkt : ServicePacket (Slice UInt8))
    {subpkt : SubPacket (Slice UInt8)} {rawData : Slice Float64} :
    (s.forward? pkt subpkt rawData).isSome ↔ s.subscriberRegister subpkt.dataID = [] ∨
      subpkt.row.toNat * subpkt.col.toNat ≤ rawData.cap := by
  rw [forward?, mapM_isSome, ← rowsOf?_isSome]
  constructor
  · intro h
    by_cases hs : s.subscriberRegister subpkt.dataID = []
    · exact .inl hs
    · obtain ⟨dst, hdst⟩ := List.exists_mem_of_ne_nil _ hs
      exact .inr (by simpa using h dst hdst)
  · rintro (hs | hrows) dst hdst
    · rw [hs] at hdst
      cases hdst
    · simpa using hrows

theorem sendRound_of_rows {g : Slice.Growth} {s : Server} {p : ServicePacket (Slice UInt8)}
    {f : SubPacket (Slice UInt8)} {rawData : Slice Float64} {mat : List (List Float64)}
    (hraw : payloadBuf2Float? g f.payload = some rawData)
    (hmat : rowsOf? rawData f.row f.col = some mat) :
    sendRound g s p f =
      (.send f.dataID (p.simulinkTime + f.timeDiff.toUInt32) p.physicalTime rawData.toList ::
        (s.subscriberRegister f.dataID).map fun dst =>
          .sendPkt dst p.priority p.simulinkTime p.flag f.dataID mat, none) := by
  have hforward : s.forward? p f rawData = some ((s.subscriberRegister f.dataID).map fun dst =>
      .sendPkt dst p.priority p.simulinkTime p.flag f.dataID mat) := by
    rw [forward?, hmat]
    exact List.mapM_pure
  rw [sendRound, hraw]
  dsimp only
  rw [hforward]

theorem handlePkt_send_spawned (g : Slice.Growth) (e : Env) (s : Server)
    (p : ServicePacket (Slice UInt8)) (h : p.service = Utils.serSend) :
    (handlePkt g e p s).spawned =
      (reached (sendRound g s p) p.subpackets).flatMap fun f => (sendRound g s p f).1 := by
  rw [handlePkt, if_pos h, ← rangeLoop_fst (.returned none)]

/-! ### The payload of a decoded subframe -/

/-- The offset behind a decoded subframe is computed in 16 bits. -/
theorem payload_len_of_decoded {buf : Slice UInt8} {p : ServicePacket (Slice UInt8)}
    (h : fromServiceBuf? buf = some p) {f : SubPacket (Slice UInt8)} (hf : f ∈ p.subpackets) :
    f.payload.len + 8 = (8 + 8 * f.length.toNat) % 65536 := by
  have hv : f.visible.Valid16 := (fromServiceBuf?_sound h).1.frames _ (List.mem_map_of_mem hf)
  rw [SubPacket.Valid16, toNat_offset] at hv
  simpa [SubPacket.visible, SubPacket.map, wireFraming] using hv

/-- A decoded subframe has its length modulo 8192 of values, in a payload of that many doubles. -/
theorem payload_of_decoded {buf : Slice UInt8} {p : ServicePacket (Slice UInt8)}
    (h : fromServiceBuf? buf = some p) (g : Slice.Growth) {f : SubPacket (Slice UInt8)}
    (hf : f ∈ p.subpackets) :
    ∃ rawData, payloadBuf2Float? g f.payload = some rawData ∧
      rawData.len = f.length.toNat % 8192 := by
  have hlen := payload_len_of_decoded h hf
  have hcap := f.payload.len_le_cap
  obtain ⟨rawData, hraw, hrlen⟩ := payloadBuf2Float?_of_le g f.payload (by omega)
  exact ⟨rawData, hraw, by omega⟩

/-! ### Slicing -/

def RowsInside (g : Slice.Growth) (f : SubPacket (Slice UInt8)) : Prop :=
  ∃ rawData, payloadBuf2Float? g f.payload = some rawData ∧
    ∀ i < f.row.toNat, (i + 1) * f.col.toNat ≤ rawData.len

/-- The forwarding loop stays in range: the packet is handled without a panic, and what is
sliced of a subframe with subscribers is its own payload. -/
def ForwardsInside (g : Slice.Growth) (e : Env) (s : Server) (p : ServicePacket (Slice UInt8)) :
    Prop :=
  (handlePkt g e p s).outcome ≠ .panicked ∧
    ∀ f ∈ p.subpackets, s.subscriberRegister f.dataID ≠ [] → RowsInside g f

theorem sendRound_snd {g : Slice.Growth} {s : Server} {p : ServicePacket (Slice UInt8)}
    {f : SubPacket (Slice UInt8)} {rawData : Slice Float64}
    (h : payloadBuf2Float? g f.payload = some rawData) :
    (sendRound g s p f).2 = none ↔ s.subscriberRegister f.dataID = [] ∨
      f.row.toNat * f.col.toNat ≤ rawData.cap := by
  rw [← forward?_isSome p, sendRound, h]
  dsimp only
  cases s.forward? p f rawData <;> simp

/-- A `SER_SEND` packet is forwarded within range exactly when no subframe with a subscriber
has more cells than its payload has values. -/
theorem forwardsInside_iff (g : Slice.Growth) (e : Env) (s : Server) (buf : Slice UInt8)
    (p : ServicePacket (Slice UInt8)) (h : fromServiceBuf? buf = some p)
    (hsend : p.service = Utils.serSend) :
    ForwardsInside g e s p ↔ ∀ f ∈ p.subpackets, s.subscriberRegister f.dataID ≠ [] →
      f.row.toNat * f.col.toNat ≤ f.length.toNat % 8192 := by
  constructor
  · rintro ⟨_, hrows⟩ f hf hs
    obtain ⟨rawData, hraw, hinside⟩ := hrows f hf hs
    obtain ⟨rawData', hraw', hlen⟩ := payload_of_decoded h g hf
    cases hraw.symm.trans hraw'
    by_cases hrow : f.row.toNat = 0
    · simp [hrow]
    · have hlast := hinside (f.row.toNat - 1) (by omega)
      rwa [Nat.sub_add_cancel (by omega), hlen] at hlast
  · intro hfit
    constructor
    · have hrounds : ∀ f ∈ p.subpackets, (sendRound g s p f).2 = none := by
        intro f hf
        obtain ⟨rawData, hraw, hlen⟩ := payload_of_decoded h g hf
        rw [sendRound_snd hraw]
        by_cases hs : s.subscriberRegister f.dataID = []
        · exact .inl hs
        · exact .inr ((hfit f hf hs).trans (hlen ▸ rawData.len_le_cap))
      rw [handlePkt, if_pos hsend]
      dsimp only
      rw [rangeLoop_snd hrounds]
      simp
    · intro f hf hs
      obtain ⟨rawData, hraw, hlen⟩ := payload_of_decoded h g hf
      refine ⟨rawData, hraw, fun i hi => ?_⟩
      rw [hlen]
      exact (Nat.mul_le_mul_right _ hi).trans (hfit f hf hs)

theorem clientPacket_valid16 {service : UInt8} {subpackets : List (SubPacket (List UInt8))}
    {payload : List UInt8} (hlen : subpackets.length < 2 ^ 16)
    (hf : ∀ f ∈ subpackets, f.Valid16) : (clientPacket service subpackets payload).Valid16 := by
  constructor
  · have hconst : Utils.msgOuter.toNat < 16 ∧ Utils.priorityHight.toNat < 16 ∧
        Utils.versionV0.toNat < 16 ∧ Utils.reserved.toNat < 16 := by decide
    exact ⟨hconst.1, hconst.2.1, hconst.2.2.1, hconst.2.2.2⟩
  · exact (UInt16.toNat_ofNat_of_lt' hlen).symm
  · exact hf

/-- The server after client 2 has subscribed to data id 3. -/
def subscribed : Server :=
  (handlePkt .tight .reliable (clientPacket Utils.serSubscribe [⟨3, 1, 0, 0, 0, .ofList []⟩]
    (.ofList [])) afterInit).server

/-- A subframe that announces a row of one value and brings no value. -/
def overrunPacket : ServicePacket (List UInt8) := clientPacket Utils.serSend [⟨3, 0, 1, 1, 0, []⟩] []

theorem listenBuf_decodes {v : ServicePacket (List UInt8)} (hv : v.Valid16)
    (hlen : (wire v).length ≤ 4500) :
    ∃ p, fromServiceBuf? (listenBuf (wire v)) = some p ∧
      p.visible = { v with payload := .replicate (4500 - (wire v).length) 0 } :=
  fromServiceBuf?_complete hv (toList_listenBuf hlen)

theorem overrunPacket_panics :
    ∃ p, fromServiceBuf? (listenBuf (wire overrunPacket)) = some p ∧ p.service = Utils.serSend ∧
      (handlePkt .tight .reliable p subscribed).outcome = .panicked ∧
      ¬ ForwardsInside .tight .reliable subscribed p := by
  have h : ((fromServiceBuf? (listenBuf (wire overrunPacket))).map fun p =>
      (p.service, (handlePkt .tight .reliable p subscribed).outcome)) =
      some (Utils.serSend, .panicked) := by decide +kernel
  obtain ⟨p, hp, heq⟩ := Option.map_eq_some_iff.mp h
  obtain ⟨hservice, hout⟩ := Prod.mk.inj heq
  exact ⟨p, hp, hservice, hout, fun hin => hin.1 hout⟩

theorem overrunPacket_forwardsInside_iff :
    ∃ p, fromServiceBuf? (listenBuf (wire overrunPacket)) = some p ∧
      (ForwardsInside .tight .reliable subscribed p ↔ ∀ f ∈ p.subpackets,
        subscribed.subscriberRegister f.dataID ≠ [] →
          f.row.toNat * f.col.toNat ≤ f.length.toNat % 8192) := by
  have hvalid : overrunPacket.Valid16 :=
    clientPacket_valid16 (by decide) (by simp [SubPacket.Valid16])
  obtain ⟨p, hp, hv⟩ := listenBuf_decodes hvalid (by decide)
  exact ⟨p, hp, forwardsInside_iff _ _ _ _ p hp (congrArg ServicePacket.service hv)⟩

end DRDS.Server
