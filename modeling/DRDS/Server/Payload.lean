import DRDS.Server.Packet

/-! The decoder of payloads: it takes eight bytes at every eighth index, whether or not that
many are left. -/
namespace DRDS.Server
open Go

theorem float64frombytes?_isSome {s : Slice UInt8} (h : s.len = 8) :
    (float64frombytes? s).isSome := by
  rw [float64frombytes?, uint64?, uint?, if_pos h.ge]
  rfl

/-- What the rounds below `n` decode: a value for each block of eight begun, as long as the
last block lies within the capacity. -/
theorem payloadRound?_foldlM (buf : Slice UInt8) (n : ℕ) :
    ((8 * ((n + 7) / 8) ≤ buf.cap ∧ ∃ data64,
      (List.range n).foldlM (payloadRound? buf) [] = some data64 ∧
        data64.length = (n + 7) / 8) ∨
    (buf.cap < 8 * ((n + 7) / 8) ∧ (List.range n).foldlM (payloadRound? buf) [] = none)) := by
  induction n with
  | zero => exact .inl ⟨by simp, [], rfl, rfl⟩
  | succ n ih =>
    rw [List.range_succ, List.foldlM_append]
    rcases ih with ⟨hcap, data64, hfold, hlen⟩ | ⟨hcap, hfold⟩
    · rw [hfold]
      by_cases hn : n % 8 = 0
      · by_cases hle : n + 8 ≤ buf.cap
        · left
          obtain ⟨t, ht⟩ : ∃ t, buf.slice? n (n + 8) = some t := ⟨_, dif_pos ⟨by omega, hle⟩⟩
          have htlen : t.len = 8 := by
            rw [(Slice.slice?_some ht).2.2.1]
            omega
          obtain ⟨v, hv⟩ := Option.isSome_iff_exists.mp (float64frombytes?_isSome htlen)
          refine ⟨by omega, data64 ++ [v], ?_, ?_⟩
          · simp [payloadRound?, hn, ht, hv]
          · rw [List.length_append, hlen, List.length_singleton]
            omega
        · right
          have hnone : buf.slice? n (n + 8) = none := Slice.slice?_eq_none.mpr (by omega)
          refine ⟨by omega, ?_⟩
          simp [payloadRound?, hn, hnone]
      · left
        refine ⟨by omega, data64, ?_, by omega⟩
        simp [payloadRound?, hn]
    · right
      refine ⟨by omega, ?_⟩
      rw [hfold]
      rfl

/-- A payload whose last block of eight lies within its capacity decodes. -/
theorem payloadBuf2Float?_of_le (g : Slice.Growth) (buf : Slice UInt8)
    (h : 8 * ((buf.len + 7) / 8) ≤ buf.cap) :
    ∃ rawData, payloadBuf2Float? g buf = some rawData ∧ rawData.len = (buf.len + 7) / 8 := by
  rcases payloadRound?_foldlM buf buf.len with ⟨_, data64, hfold, hlen⟩ | ⟨hcap, _⟩
  · refine ⟨.grown data64 (.replicate (g.spare data64.length) 0), ?_, hlen⟩
    rw [payloadBuf2Float?, hfold]
    rfl
  · omega

theorem payloadRound?_foldlM_encodes (buf : Slice UInt8) (n : ℕ) (h : 8 * ((n + 7) / 8) ≤ buf.len) :
    ∃ data64, (List.range n).foldlM (payloadRound? buf) [] = some data64 ∧
      payloadFloat2Buf data64 = buf.toList.take (8 * ((n + 7) / 8)) := by
  induction n with
  | zero => exact ⟨[], rfl, rfl⟩
  | succ n ih =>
    obtain ⟨data64, hfold, hbytes⟩ := ih (by omega)
    rw [List.range_succ, List.foldlM_append, hfold]
    by_cases hn : n % 8 = 0
    · have hblocks : 8 * ((n + 7) / 8) = n := by omega
      have hnext : 8 * ((n + 1 + 7) / 8) = n + 8 := by omega
      rw [hnext] at h ⊢
      rw [hblocks] at hbytes
      obtain ⟨t, ht, htlen, htl⟩ := Slice.slice?_of_le (s := buf) (i := n) (j := n + 8)
        (by omega) h
      rw [Nat.add_sub_cancel_left] at htlen htl
      have hlen : t.toList.length = 8 := by rw [Slice.length_toList, htlen]
      have hlt : leNat t.toList < 2 ^ 64 := by simpa [hlen] using leNat_lt t.toList
      have hv : float64frombytes? t = some (.ofNat (leNat t.toList)) := by
        rw [float64frombytes?, uint64?, uint?, if_pos (by omega), List.take_of_length_le hlen.le]
        rfl
      refine ⟨data64 ++ [.ofNat (leNat t.toList)], by simp [payloadRound?, hn, ht, hv], ?_⟩
      have happend : payloadFloat2Buf (data64 ++ [.ofNat (leNat t.toList)]) =
          payloadFloat2Buf data64 ++ leBytes 8 (UInt64.ofNat (leNat t.toList)).toNat := by
        simp [payloadFloat2Buf]
      rw [happend, hbytes, UInt64.toNat_ofNat_of_lt' hlt, leBytes_leNat hlen, htl, List.take_add]
    · have hsame : 8 * ((n + 1 + 7) / 8) = 8 * ((n + 7) / 8) := by omega
      refine ⟨data64, by simp [payloadRound?, hn], ?_⟩
      rw [hsame, hbytes]

/-- Beyond the decoded values the array holds zeros. -/
theorem mem_backing_payloadBuf2Float? {g : Slice.Growth} {buf : Slice UInt8} {rawData : Slice Float64}
    (h : payloadBuf2Float? g buf = some rawData) {v : Float64} (hv : v ∈ rawData.backing) :
    v ∈ rawData.toList ∨ v = 0 := by
  obtain ⟨data64, _, hgrown⟩ := Option.bind_eq_some_iff.mp h
  cases hgrown
  rw [Slice.toList_grown]
  exact (List.mem_append.mp hv).imp_right List.eq_of_mem_replicate

/-- Encoding undoes decoding, for a payload that comes in eights. -/
theorem payloadFloat2Buf_of_payloadBuf2Float? {g : Slice.Growth} {buf : Slice UInt8}
    {rawData : Slice Float64} (h : payloadBuf2Float? g buf = some rawData)
    (hlen : buf.len % 8 = 0) : payloadFloat2Buf rawData.toList = buf.toList := by
  have hblocks : 8 * ((buf.len + 7) / 8) = buf.len := by omega
  obtain ⟨data64, hfold, hbytes⟩ := payloadRound?_foldlM_encodes buf buf.len hblocks.le
  rw [payloadBuf2Float?, hfold] at h
  obtain rfl := Option.some.inj h
  rw [Slice.toList_grown, hbytes, hblocks, ← buf.length_toList, List.take_length]

@[simp] theorem length_payloadFloat2Buf (payload : List Float64) :
    (payloadFloat2Buf payload).length = 8 * payload.length := by
  induction payload with
  | nil => rfl
  | cons v payload ih =>
    rw [payloadFloat2Buf, List.flatMap_cons, List.length_append, length_leBytes, List.length_cons]
    rw [payloadFloat2Buf] at ih
    omega

theorem payloadFloat2Buf_injective : Function.Injective payloadFloat2Buf := by
  intro xs ys h
  induction xs generalizing ys with
  | nil =>
    have hlen := congrArg List.length h
    rw [length_payloadFloat2Buf, length_payloadFloat2Buf, List.length_nil] at hlen
    exact (List.eq_nil_of_length_eq_zero (by omega)).symm
  | cons x xs ih =>
    cases ys with
    | nil =>
      have hlen := congrArg List.length h
      rw [length_payloadFloat2Buf, length_payloadFloat2Buf, List.length_nil, List.length_cons] at hlen
      omega
    | cons y ys =>
      simp only [payloadFloat2Buf, List.flatMap_cons] at h
      obtain ⟨hhead, htail⟩ := List.append_inj h (by simp)
      have hnat : x.toNat = y.toNat := by
        have hx := leNat_leBytes_of_lt (w := 8) (v := x.toNat) (by simpa using x.toNat_lt)
        have hy := leNat_leBytes_of_lt (w := 8) (v := y.toNat) (by simpa using y.toNat_lt)
        rw [← hx, hhead, hy]
      rw [UInt64.toNat_inj.mp hnat, ih htail]

/-- Decoding undoes encoding, whatever capacity the buffer was left with. -/
theorem payloadBuf2Float?_of_payloadFloat2Buf (g : Slice.Growth) {ws : List Float64}
    {buf : Slice UInt8} (hbuf : buf.toList = payloadFloat2Buf ws) :
    ∃ rawData, payloadBuf2Float? g buf = some rawData ∧ rawData.toList = ws := by
  have hlen : buf.len = 8 * ws.length := by
    rw [← buf.length_toList, hbuf, length_payloadFloat2Buf]
  have hcap : 8 * ((buf.len + 7) / 8) ≤ buf.cap := by
    have hle := buf.len_le_cap
    omega
  obtain ⟨rawData, hsome, _⟩ := payloadBuf2Float?_of_le g buf hcap
  have hencoded := payloadFloat2Buf_of_payloadBuf2Float? hsome (by omega)
  exact ⟨rawData, hsome, payloadFloat2Buf_injective (hencoded.trans hbuf)⟩

/-- On whole words the two conversions are each other's inverse. -/
theorem payload_conversions_inverse (g : Slice.Growth) :
    (∀ (ws : List Float64) (buf : Slice UInt8), buf.toList = payloadFloat2Buf ws →
      ∃ rawData, payloadBuf2Float? g buf = some rawData ∧ rawData.toList = ws) ∧
    ∀ b : Slice UInt8, b.len % 8 = 0 →
      ∃ rawData, payloadBuf2Float? g b = some rawData ∧ payloadFloat2Buf rawData.toList = b.toList := by
  constructor
  · intro ws buf hbuf
    exact payloadBuf2Float?_of_payloadFloat2Buf g hbuf
  · intro b hlen
    have hcap : 8 * ((b.len + 7) / 8) ≤ b.cap := by
      have hle := b.len_le_cap
      omega
    obtain ⟨rawData, hsome, _⟩ := payloadBuf2Float?_of_le g b hcap
    exact ⟨rawData, hsome, payloadFloat2Buf_of_payloadBuf2Float? hsome hlen⟩

theorem payload_conversions_two :
    (∃ rawData, payloadBuf2Float? .tight (.ofList (payloadFloat2Buf [1, 0x7ff8000000000001])) =
      some rawData ∧ rawData.toList = [1, 0x7ff8000000000001]) ∧
    ∃ rawData, payloadBuf2Float? .tight (.ofList (.replicate 16 255)) = some rawData ∧
      payloadFloat2Buf rawData.toList = (Slice.ofList (.replicate 16 255)).toList :=
  ⟨(payload_conversions_inverse .tight).1 [1, 0x7ff8000000000001] _ (Slice.toList_ofList _),
    (payload_conversions_inverse .tight).2 (.ofList (.replicate 16 255)) rfl⟩

/-- A payload whose last block of eight does not is sliced out of range. -/
theorem payloadBuf2Float?_of_lt (g : Slice.Growth) (buf : Slice UInt8)
    (h : buf.cap < 8 * ((buf.len + 7) / 8)) : payloadBuf2Float? g buf = none := by
  rcases payloadRound?_foldlM buf buf.len with ⟨hcap, _⟩ | ⟨_, hfold⟩
  · omega
  · rw [payloadBuf2Float?, hfold]
    rfl

end DRDS.Server
