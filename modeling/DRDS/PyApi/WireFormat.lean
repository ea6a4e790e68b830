import DRDS.PyApi.Utils
import DRDS.Server.PacketCodec

/-! The Python encoder against the Go encoder, on the same field values. -/
namespace DRDS.PyApi
open Go
open Server (serviceHeader subHeader subBuf nibbles)

/-- A subframe as the format has it: a 16-bit length and that many doubles. -/
structure Subframe where
  dataID : UInt16
  timeDiff : UInt16
  row : UInt8
  col : UInt8
  values : List Float64
  values_lt : values.length < 2 ^ 16

/-- Header fields in their documented widths, and the subframes. -/
structure Fields where
  src : UInt8
  dst : UInt8
  type : Fin 16
  prio : Fin 16
  version : Fin 16
  reserved : Fin 16
  physicalTime : UInt32
  simulinkTime : UInt32
  sequence : UInt16
  length : UInt16
  service : UInt8
  flag : UInt8
  option1 : UInt8
  option2 : UInt8
  subframes : List Subframe
  subframes_lt : subframes.length < 2 ^ 16

def Subframe.toPy (s : Subframe) : SubPacket :=
  .init s.dataID.toNat s.timeDiff.toNat s.row.toNat s.col.toNat s.values.length s.values

def Subframe.toGo (s : Subframe) : Server.SubPacket (Slice UInt8) where
  dataID := s.dataID
  timeDiff := s.timeDiff
  row := s.row
  col := s.col
  length := .ofNat s.values.length
  payload := .ofList (Server.payloadFloat2Buf s.values)

def Fields.toPy (a : Fields) : Packet :=
  .init a.src.toNat a.dst.toNat a.type a.prio a.version a.reserved a.physicalTime.toNat
    a.simulinkTime.toNat a.sequence.toNat a.length.toNat a.service.toNat a.flag.toNat
    a.option1.toNat a.option2.toNat a.subframes.length (a.subframes.map Subframe.toPy)

def Fields.toGo (a : Fields) : Server.ServicePacket (Slice UInt8) where
  src := a.src
  dst := a.dst
  messageType := .ofNat a.type
  priority := .ofNat a.prio
  version := .ofNat a.version
  reserved := .ofNat a.reserved
  physicalTime := a.physicalTime
  simulinkTime := a.simulinkTime
  sequence := a.sequence
  length := a.length
  payload := .ofList []
  service := a.service
  flag := a.flag
  option1 := a.option1
  option2 := a.option2
  subframeNum := .ofNat a.subframes.length
  subpackets := a.subframes.map Subframe.toGo

theorem Subframe.pkt2Buf?_toPy (s : Subframe) : s.toPy.pkt2Buf? = some (subBuf s.toGo.visible) := by
  have hlen : (UInt16.ofNat s.values.length).toNat = s.values.length :=
    UInt16.toNat_ofNat_of_lt' s.values_lt
  simp [toPy, toGo, SubPacket.pkt2Buf?, SubPacket.init, SubHeader.bytes, subBuf, subHeader,
    Server.SubPacket.visible, Server.SubPacket.map, Server.payloadFloat2Buf, List.rightpad, hlen]

theorem Fields.pkt2Buf?_toPy (a : Fields) :
    a.toPy.pkt2Buf? = some (a.toPy.header.bytes ++
      a.subframes.flatMap (fun s => subBuf s.toGo.visible)) := by
  have hfold : ∀ (l : List Subframe) (buf : List UInt8),
      (l.map Subframe.toPy).foldlM (fun buf subpkt => do
        let b ← subpkt.pkt2Buf?
        some (buf ++ b)) buf = some (buf ++ l.flatMap (fun s => subBuf s.toGo.visible)) := by
    intro l
    induction l with
    | nil => simp
    | cons s l ih =>
      intro buf
      rw [List.map_cons, List.foldlM_cons, s.pkt2Buf?_toPy]
      exact (ih _).trans (by simp)
  exact hfold a.subframes a.toPy.header.bytes

theorem Fields.nibbles_toGo (a : Fields) : a.toGo.toPacket.Nibbles := by
  have ht := a.type.isLt
  have hp := a.prio.isLt
  have hv := a.version.isLt
  have hr := a.reserved.isLt
  constructor <;> simp only [toGo, UInt8.toNat_ofNat'] <;> omega

theorem Fields.toNat_nibbles_toGo (a : Fields) :
    (nibbles a.toGo.toPacket).toNat =
      4096 * a.type.val + 256 * a.prio.val + 16 * a.version.val + a.reserved.val := by
  have ht := a.type.isLt
  have hp := a.prio.isLt
  have hv := a.version.isLt
  have hr := a.reserved.isLt
  rw [Server.toNat_nibbles a.nibbles_toGo]
  simp only [toGo, UInt8.toNat_ofNat']
  omega

/-- The Go encoder writes the word of the nibbles low byte first; the two Python bytes are
shifted by four and by the other nibble. -/
theorem Fields.header_eq_iff (a : Fields) :
    a.toPy.header.bytes = serviceHeader a.toGo ↔
      a.type.val * 2 ^ (4 + a.prio.val) % 256 = 16 * a.version.val + a.reserved.val ∧
      a.version.val * 2 ^ (4 + a.reserved.val) % 256 = 16 * a.type.val + a.prio.val := by
  have ht := a.type.isLt
  have hp := a.prio.isLt
  have hv := a.version.isLt
  have hr := a.reserved.isLt
  have hw : leBytes 2 (nibbles a.toGo.toPacket).toNat =
      [.ofNat (16 * a.version.val + a.reserved.val), .ofNat (16 * a.type.val + a.prio.val)] := by
    rw [a.toNat_nibbles_toGo]
    simp only [leBytes, List.cons.injEq, and_true, ← UInt8.toNat_inj, UInt8.toNat_ofNat']
    omega
  have hcons : ∀ u v x y : UInt8, ∀ l : List UInt8,
      ([a.src, a.dst, u, v] ++ l = [a.src, a.dst, x, y] ++ l ↔
        u.toNat = x.toNat ∧ v.toNat = y.toNat) := by
    simp [UInt8.toNat_inj]
  have hgo : serviceHeader a.toGo =
      [a.src, a.dst, .ofNat (16 * a.version.val + a.reserved.val),
        .ofNat (16 * a.type.val + a.prio.val)] ++ a.toPy.header.bytes.drop 4 := by
    rw [serviceHeader, Server.bufExt, Server.headerBuf, hw]
    simp [toPy, toGo, Packet.init, Header.bytes]
  have hpy : a.toPy.header.bytes =
      [a.src, a.dst, .ofNat (a.type.val * 2 ^ (4 + a.prio.val)),
        .ofNat (a.version.val * 2 ^ (4 + a.reserved.val))] ++ a.toPy.header.bytes.drop 4 := by
    simp [toPy, Packet.init, Header.bytes, Nat.shiftLeft_eq]
  rw [hgo]
  nth_rewrite 1 [hpy]
  rw [hcons]
  simp only [UInt8.toNat_ofNat']
  omega

/-- Sixteen times a multiple of the type fills the byte of version and reserved only where
the nibbles below the shift are empty. -/
theorem shifted_nibbles_iff {t p v r : ℕ} (ht : t < 16) (hp : p < 16) (hv : v < 16)
    (hr : r < 16) :
    (t * 2 ^ (4 + p) % 256 = 16 * v + r ∧ v * 2 ^ (4 + r) % 256 = 16 * t + p) ↔
      t = v ∧ p = 0 ∧ r = 0 := by
  have hsplit : ∀ n k : ℕ, n * 2 ^ (4 + k) = 16 * (n * 2 ^ k) := by
    intro n k
    rw [pow_add]
    ring
  rw [hsplit, hsplit]
  constructor
  · rintro ⟨h₁, h₂⟩
    -- both sides are multiples of sixteen
    have hr0 : r = 0 := by omega
    have hp0 : p = 0 := by omega
    subst hr0 hp0
    simp only [pow_zero, mul_one] at h₁ h₂
    omega
  · rintro ⟨rfl, rfl, rfl⟩
    simp only [pow_zero, mul_one]
    omega

/-- The Python bytes are the Go bytes exactly when type and version agree and neither
priority nor reserved is set: `+` binds before `<<` in `_type << 4 + _prio`, and the word the
Go encoder packs has version and reserved in its low byte. -/
theorem pkt2Buf?_eq_toServiceBuf_iff (a : Fields) :
    a.toPy.pkt2Buf? = some (Server.toServiceBuf a.toGo) ↔
      a.type = a.version ∧ a.prio = 0 ∧ a.reserved = 0 := by
  have hgo : Server.toServiceBuf a.toGo = serviceHeader a.toGo ++
      a.subframes.flatMap (fun s => subBuf s.toGo.visible) := by
    rw [Server.toServiceBuf, serviceHeader, List.append_assoc, Fields.toGo, List.flatMap_map]
  rw [a.pkt2Buf?_toPy, hgo, Option.some_inj, List.append_cancel_right_eq, a.header_eq_iff,
    shifted_nibbles_iff a.type.isLt a.prio.isLt a.version.isLt a.reserved.isLt]
  rw [Fin.val_inj, Fin.val_eq_zero_iff, Fin.val_eq_zero_iff]

/-- The header a client sends by default, with one subframe. -/
def clientFields : Fields where
  src := 2
  dst := 1
  type := 1
  prio := 7
  version := 0
  reserved := 0
  physicalTime := 1650000000
  simulinkTime := 500
  sequence := 0
  length := 22
  service := 0
  flag := 0
  option1 := 0
  option2 := 0
  subframes := [⟨3, 0, 1, 1, [0x3ff0000000000000], by decide⟩]
  subframes_lt := by decide

theorem clientFields_encoders_differ :
    clientFields.toPy.pkt2Buf? ≠ some (Server.toServiceBuf clientFields.toGo) := by
  decide +kernel

end DRDS.PyApi
