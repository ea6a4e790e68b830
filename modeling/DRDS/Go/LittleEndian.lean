import DRDS.Go.Slice
import Mathlib.Data.Nat.Digits.Defs

/-! Little-endian words: the bytes of a natural number, and the reads of
`encoding/binary` on a slice. -/
namespace DRDS.Go

/-- A `float64` as its 64-bit pattern: the code stores and moves values, it never
computes with them. -/
abbrev Float64 := UInt64

/-- The number a byte string spells, least significant byte first. -/
def leNat (bs : List UInt8) : ℕ := Nat.ofDigits 256 (bs.map UInt8.toNat)

def leBytes : ℕ → ℕ → List UInt8
  | 0, _ => []
  | w + 1, v => UInt8.ofNat v :: leBytes w (v / 256)

@[simp] theorem length_leBytes (w v : ℕ) : (leBytes w v).length = w := by
  induction w generalizing v with
  | zero => rfl
  | succ w ih => simp [leBytes, ih]

@[simp] theorem leNat_nil : leNat [] = 0 := rfl

theorem leNat_cons (b : UInt8) (bs : List UInt8) : leNat (b :: bs) = b.toNat + 256 * leNat bs := by
  simp [leNat, Nat.ofDigits_cons]

theorem leNat_lt (bs : List UInt8) : leNat bs < 256 ^ bs.length := by
  have h := Nat.ofDigits_lt_base_pow_length (b := 256) (l := bs.map UInt8.toNat) (by decide)
    (fun x hx => by
      obtain ⟨b, _, rfl⟩ := List.mem_map.mp hx
      exact b.toNat_lt)
  simpa [leNat] using h

theorem leNat_leBytes (w v : ℕ) : leNat (leBytes w v) = v % 256 ^ w := by
  induction w generalizing v with
  | zero => simp [leBytes, Nat.mod_one]
  | succ w ih =>
    rw [leBytes, leNat_cons, ih, Nat.pow_succ', Nat.mod_mul]
    simp

theorem leNat_leBytes_of_lt {w v : ℕ} (h : v < 256 ^ w) : leNat (leBytes w v) = v := by
  rw [leNat_leBytes, Nat.mod_eq_of_lt h]

/-- Reading is canonical: a byte string is the encoding of the number it spells. -/
theorem leBytes_leNat {bs : List UInt8} {w : ℕ} (h : bs.length = w) :
    leBytes w (leNat bs) = bs := by
  subst h
  induction bs with
  | nil => rfl
  | cons b bs ih =>
    have hb := b.toNat_lt
    have hd : (b.toNat + 256 * leNat bs) / 256 = leNat bs := by omega
    rw [List.length_cons, leBytes, leNat_cons, hd, ih]
    congr 1
    apply UInt8.toNat_inj.mp
    simp only [UInt8.toNat_ofNat']
    omega

def uint? (w : ℕ) (s : Slice UInt8) : Option ℕ :=
  if w ≤ s.len then some (leNat (s.toList.take w)) else none

def uint16? (s : Slice UInt8) : Option UInt16 := (uint? 2 s).map UInt16.ofNat

def uint32? (s : Slice UInt8) : Option UInt32 := (uint? 4 s).map UInt32.ofNat

def uint64? (s : Slice UInt8) : Option UInt64 := (uint? 8 s).map UInt64.ofNat

/-- `binary.LittleEndian.Uint16(s[i:j])` -/
def uint16At? (s : Slice UInt8) (i j : ℕ) : Option UInt16 := (s.slice? i j).bind uint16?

/-- `binary.LittleEndian.Uint32(s[i:j])` -/
def uint32At? (s : Slice UInt8) (i j : ℕ) : Option UInt32 := (s.slice? i j).bind uint32?

/-! ### Reads at an offset

A read is stated both ways: what it consumes when it succeeds, and that it succeeds on
the encoding of a word. -/

theorem index?_drop {s : Slice UInt8} {i : ℕ} {b : UInt8} (h : s.index? i = some b) :
    s.toList.drop i = b :: s.toList.drop (i + 1) := by
  rw [Slice.index?_eq] at h
  obtain ⟨j, rfl⟩ := List.getElem?_eq_some_iff.mp h
  exact List.drop_eq_getElem_cons j

theorem index?_append {s : Slice UInt8} {p q : List UInt8} {b : UInt8} {i : ℕ}
    (hs : s.toList = p ++ (b :: q)) (j : p.length = i) : s.index? i = some b := by
  rw [Slice.index?_eq, hs, ← j]
  simp

theorem readAt_drop {s : Slice UInt8} {i j w v : ℕ} (hw : j = i + w) (hle : j ≤ s.len)
    (h : (s.slice? i j).bind (uint? w) = some v) :
    s.toList.drop i = leBytes w v ++ s.toList.drop j ∧ v < 256 ^ w := by
  obtain ⟨t, ht, htlen, htl⟩ := Slice.slice?_of_le (s := s) (i := i) (j := j) (by omega) hle
  have hlen : ((s.toList.drop i).take w).length = w := by
    rw [List.length_take, List.length_drop, s.length_toList]
    omega
  rw [ht, Option.bind_some, uint?, if_pos (by omega), htl, List.take_take] at h
  have hv : leNat ((s.toList.drop i).take w) = v := by
    rw [← Option.some.inj h]
    congr 2
    omega
  constructor
  · calc s.toList.drop i
        = (s.toList.drop i).take w ++ (s.toList.drop i).drop w := (List.take_append_drop ..).symm
      _ = leBytes w v ++ s.toList.drop j := by
        rw [List.drop_drop, ← hw, ← hv, leBytes_leNat hlen]
  · simpa only [hv, hlen] using leNat_lt ((s.toList.drop i).take w)

theorem index?_of_lt {s : Slice UInt8} {i : ℕ} (h : i < s.len) : ∃ b, s.index? i = some b := by
  rw [Slice.index?_eq]
  exact ⟨_, List.getElem?_eq_getElem (by simpa using h)⟩

theorem readAt_append {s : Slice UInt8} {p q : List UInt8} {i j w v : ℕ}
    (hs : s.toList = p ++ (leBytes w v ++ q)) (hi : p.length = i) (hw : j = i + w)
    (hv : v < 256 ^ w) : (s.slice? i j).bind (uint? w) = some v := by
  have hlen : s.len = i + (w + q.length) := by
    rw [← s.length_toList, hs, List.length_append, List.length_append, hi, length_leBytes]
  obtain ⟨t, ht, htlen, htl⟩ := Slice.slice?_of_le (s := s) (i := i) (j := j)
    (by omega) (by omega)
  have htake : t.toList.take w = leBytes w v := by
    rw [htl, hs, List.drop_left' hi, hw, Nat.add_sub_cancel_left, List.take_take, min_self,
      List.take_left' (length_leBytes w v)]
  rw [ht, Option.bind_some, uint?, if_pos (by omega), htake, leNat_leBytes_of_lt hv]

private theorem bind_map {α β γ : Type} (x : Option α) (f : α → Option β) (g : β → γ) :
    (x.bind fun a => (f a).map g) = (x.bind f).map g := by
  cases x <;> rfl

theorem uint16At_drop {s : Slice UInt8} {i j : ℕ} {v : UInt16} (hw : j = i + 2)
    (hle : j ≤ s.len) (h : uint16At? s i j = some v) :
    s.toList.drop i = leBytes 2 v.toNat ++ s.toList.drop j := by
  unfold uint16At? uint16? at h
  rw [bind_map] at h
  obtain ⟨n, hn, rfl⟩ := Option.map_eq_some_iff.mp h
  obtain ⟨hd, hlt⟩ := readAt_drop hw hle hn
  rw [hd, UInt16.toNat_ofNat_of_lt' (by simpa using hlt)]

theorem uint16At_of_le {s : Slice UInt8} {i j : ℕ} (hw : j = i + 2) (hle : j ≤ s.len) :
    ∃ v, uint16At? s i j = some v := by
  obtain ⟨t, ht, htlen, _⟩ := Slice.slice?_of_le (s := s) (i := i) (j := j) (by omega) hle
  exact ⟨_, by rw [uint16At?, ht, Option.bind_some, uint16?, uint?, if_pos (by omega)]; rfl⟩

theorem uint32At_of_le {s : Slice UInt8} {i j : ℕ} (hw : j = i + 4) (hle : j ≤ s.len) :
    ∃ v, uint32At? s i j = some v := by
  obtain ⟨t, ht, htlen, _⟩ := Slice.slice?_of_le (s := s) (i := i) (j := j) (by omega) hle
  exact ⟨_, by rw [uint32At?, ht, Option.bind_some, uint32?, uint?, if_pos (by omega)]; rfl⟩

theorem uint32At_drop {s : Slice UInt8} {i j : ℕ} {v : UInt32} (hw : j = i + 4)
    (hle : j ≤ s.len) (h : uint32At? s i j = some v) :
    s.toList.drop i = leBytes 4 v.toNat ++ s.toList.drop j := by
  unfold uint32At? uint32? at h
  rw [bind_map] at h
  obtain ⟨n, hn, rfl⟩ := Option.map_eq_some_iff.mp h
  obtain ⟨hd, hlt⟩ := readAt_drop hw hle hn
  rw [hd, UInt32.toNat_ofNat_of_lt' (by simpa using hlt)]

theorem uint16At_append {s : Slice UInt8} {p q : List UInt8} {i j : ℕ} {v : UInt16}
    (hs : s.toList = p ++ (leBytes 2 v.toNat ++ q)) (hi : p.length = i)
    (hw : j = i + 2) : uint16At? s i j = some v := by
  unfold uint16At? uint16?
  rw [bind_map, readAt_append hs hi hw (by simpa using v.toNat_lt), Option.map_some,
    UInt16.ofNat_toNat]

theorem uint32At_append {s : Slice UInt8} {p q : List UInt8} {i j : ℕ} {v : UInt32}
    (hs : s.toList = p ++ (leBytes 4 v.toNat ++ q)) (hi : p.length = i)
    (hw : j = i + 4) : uint32At? s i j = some v := by
  unfold uint32At? uint32?
  rw [bind_map, readAt_append hs hi hw (by simpa using v.toNat_lt), Option.map_some,
    UInt32.ofNat_toNat]

end DRDS.Go
