import DRDS.PyApi.ClientDRDS

/-! `get_latest_all` on the lists `time` and `record` of each data id, which are looked up and
popped side by side. `none` is a raised exception. -/
namespace DRDS.PyApi.ClientDRDS
open Go

structure Lists where
  time : List ℕ
  record : List (List Float64)
  deriving DecidableEq

abbrev Buffer := List (ℕ × Lists)

namespace Buffer

/-- The `for` loop of a round: the records at the first occurrence of the time. It breaks at the
first data id that does not have the time. -/
def latestAt? (buffer : Buffer) (time : ℕ) : List ℕ → Option (Option (List (List Float64)))
  | [] => some (some [])
  | id :: ids => do
    let lists ← buffer.lookup id
    if time ∈ lists.time then
      let record ← lists.record[lists.time.idxOf time]?
      let latestAll ← latestAt? buffer time ids
      some (latestAll.map (record :: ·))
    else some none

/-- The `while` loop. A round that breaks has counted the time down by one. -/
def search? (buffer : Buffer) (ids : List ℕ) : ℕ → Option (Option (ℕ × List (List Float64)))
  | 0 => some none
  | time + 1 => do
    match ← buffer.latestAt? (time + 1) ids with
    | none => search? buffer ids time
    | some latestAll => some (some (time + 1, latestAll))

/-- Both lists are popped while the first time is before the given one. -/
def popBefore? (time : ℕ) : List ℕ → List (List Float64) → Option Lists
  | [], record => some ⟨[], record⟩
  | t :: ts, record =>
    if t < time then
      match record with
      | [] => none
      | _ :: record => popBefore? time ts record
    else some ⟨t :: ts, record⟩

/-- All data ids of the buffer are cleaned, also those not asked for. -/
def cleanBufferBeforeTime? (time : ℕ) (buffer : Buffer) : Option Buffer :=
  buffer.mapM fun (id, lists) => (popBefore? time lists.time lists.record).map fun lists => (id, lists)

/-- The result is `none` for `(None, -1)`. -/
def getLatestAll? (ids : List ℕ) (buffer : Buffer) (currentSimulinkTime : ℕ) :
    Option (Option (ℕ × List (List Float64)) × Buffer) := do
  match ← buffer.search? ids currentSimulinkTime with
  | none => some (none, buffer)
  | some (time, latestAll) => do
    let buffer ← buffer.cleanBufferBeforeTime? time
    some (some (time, latestAll), buffer)

def InStep (buffer : Buffer) : Prop := ∀ entry ∈ buffer, entry.2.time.length = entry.2.record.length

def times (buffer : Buffer) (ids : List ℕ) (currentSimulinkTime : ℕ) : Set ℕ :=
  {time | 1 ≤ time ∧ time ≤ currentSimulinkTime ∧
    ∀ id ∈ ids, ∃ lists, buffer.lookup id = some lists ∧ time ∈ lists.time}

def FirstAt (buffer : Buffer) (time id : ℕ) (record : List Float64) : Prop :=
  ∃ (lists : Lists) (i : ℕ), buffer.lookup id = some lists ∧ lists.time[i]? = some time ∧
    (∀ j < i, lists.time[j]? ≠ some time) ∧ lists.record[i]? = some record

/-- Both lists have lost the longest prefix of times before the given one. -/
structure Cleaned (time : ℕ) (lists cleaned : Lists) : Prop where
  prefix_lost : ∃ n ≤ lists.time.length, cleaned.time = lists.time.drop n ∧
    cleaned.record = lists.record.drop n ∧ (∀ t ∈ lists.time.take n, t < time) ∧
    ∀ t, cleaned.time.head? = some t → time ≤ t
  inStep : cleaned.time.length = cleaned.record.length

/-! ### The lists entry by entry -/

/-- The entries of the two lists of a data id, as the client's model has them. -/
def view (buffer : Buffer) : ℕ → Option Series :=
  fun id => (buffer.lookup id).map fun lists => lists.time.zip lists.record

theorem find?_zip (time : ℕ) {ts : List ℕ} {rs : List (List Float64)} (h : ts.length = rs.length) :
    (ts.zip rs).find? (·.1 = time) =
      if time ∈ ts then rs[ts.idxOf time]?.map fun record => (time, record) else none := by
  induction ts generalizing rs with
  | nil => simp
  | cons t ts ih =>
    cases rs with
    | nil => cases h
    | cons r rs =>
      rw [List.zip_cons_cons]
      by_cases ht : t = time
      · subst ht
        simp
      · rw [List.find?_cons_of_neg (by simpa using ht), ih (Nat.succ.inj h),
          List.idxOf_cons_ne ts ht, List.getElem?_cons_succ]
        simp [Ne.symm ht]

theorem mem_of_lookup {buffer : Buffer} {id : ℕ} {lists : Lists}
    (h : buffer.lookup id = some lists) : (id, lists) ∈ buffer := by
  obtain ⟨before, after, rfl, _⟩ := List.lookup_eq_some_iff.mp h
  simp

theorem ne_of_lt_idxOf {ts : List ℕ} {time j : ℕ} (hj : j < ts.idxOf time) :
    ts[j]? ≠ some time := by
  intro hat
  obtain ⟨hlt, hget⟩ := List.getElem?_eq_some_iff.mp hat
  have hne := List.not_of_lt_findIdx hj
  simp [hget] at hne

theorem record_of_mem {lists : Lists} (hlen : lists.time.length = lists.record.length) {time : ℕ}
    (hmem : time ∈ lists.time) : ∃ record, lists.record[lists.time.idxOf time]? = some record := by
  have hlt : lists.time.idxOf time < lists.record.length :=
    hlen ▸ List.idxOf_lt_length_of_mem hmem
  exact ⟨_, List.getElem?_eq_getElem hlt⟩

section Search
variable {buffer : Buffer} (hstep : buffer.InStep) {ids : List ℕ} {time n : ℕ}
  {latestAll : List (List Float64)}
include hstep

theorem latestAt?_eq_view (time : ℕ) (ids : List ℕ) :
    buffer.latestAt? time ids = ClientDRDS.latestAt? buffer.view time ids := by
  induction ids with
  | nil => rfl
  | cons id ids ih =>
    rw [latestAt?, ClientDRDS.latestAt?, view]
    cases hlookup : buffer.lookup id with
    | none => rfl
    | some lists =>
      have hlen := hstep _ (mem_of_lookup hlookup)
      simp only [Option.map_some, Option.bind_eq_bind, Option.bind_some, find?_zip time hlen, ih]
      split_ifs with hmem
      · obtain ⟨record, hrecord⟩ := record_of_mem hlen hmem
        simp only [hrecord, Option.map_some, Option.bind_some]
      · rfl

theorem search?_eq_view (ids : List ℕ) (n : ℕ) :
    buffer.search? ids n = ClientDRDS.search? buffer.view ids n := by
  induction n with
  | zero => rfl
  | succ n ih =>
    rw [search?, latestAt?_eq_view hstep, ih]
    rfl

end Search

theorem popBefore?_zip {time : ℕ} {ts : List ℕ} {rs : List (List Float64)} {cleaned : Lists}
    (h : popBefore? time ts rs = some cleaned) :
    cleaned.time.zip cleaned.record = (ts.zip rs).dropWhile (·.1 < time) := by
  induction ts generalizing rs with
  | nil =>
    cases h
    rfl
  | cons t ts ih =>
    cases rs with
    | nil =>
      rw [popBefore?] at h
      split_ifs at h
      cases h
      rfl
    | cons r rs =>
      rw [popBefore?] at h
      rw [List.zip_cons_cons, List.dropWhile_cons]
      split_ifs at h with ht
      · rw [if_pos (by simpa using ht)]
        exact ih h
      · cases h
        rw [if_neg (by simpa using ht), List.zip_cons_cons]

theorem cleanBufferBeforeTime?_view {time : ℕ} {buffer cleaned : Buffer}
    (h : buffer.cleanBufferBeforeTime? time = some cleaned) :
    cleaned.view = cleanBufferBeforeTime time buffer.view := by
  funext id
  induction buffer generalizing cleaned with
  | nil =>
    cases h
    rfl
  | cons entry buffer ih =>
    unfold cleanBufferBeforeTime? at h ih
    rw [List.mapM_cons] at h
    simp only [Option.bind_eq_bind, Option.bind_eq_some_iff, Option.map_eq_some_iff] at h
    obtain ⟨_, ⟨lists, hpop, rfl⟩, rest, hrest, hcons⟩ := h
    cases hcons
    have hrest' := ih hrest
    unfold view cleanBufferBeforeTime at hrest' ⊢
    dsimp only at hrest' ⊢
    rw [List.lookup_cons, List.lookup_cons]
    cases id == entry.1 with
    | true => simp [popBefore?_zip hpop]
    | false => exact hrest'

theorem latestAt?_cases {buffer : Buffer} (hstep : buffer.InStep) {ids : List ℕ}
    (hkeys : ∀ id ∈ ids, ∃ lists, buffer.lookup id = some lists) (time : ℕ) :
    (buffer.latestAt? time ids = some none ∧
      ¬ ∀ id ∈ ids, ∃ lists, buffer.lookup id = some lists ∧ time ∈ lists.time) ∨
    ∃ latestAll, buffer.latestAt? time ids = some (some latestAll) ∧
      (∀ id ∈ ids, ∃ lists, buffer.lookup id = some lists ∧ time ∈ lists.time) ∧
      List.Forall₂ (buffer.FirstAt time) ids latestAll := by
  induction ids with
  | nil => exact .inr ⟨[], rfl, by simp, .nil⟩
  | cons id ids ih =>
    rw [List.forall_mem_cons] at hkeys
    obtain ⟨⟨lists, hlookup⟩, hids⟩ := hkeys
    rw [latestAt?, hlookup]
    simp only [Option.bind_eq_bind, Option.bind_some, List.forall_mem_cons]
    by_cases hmem : time ∈ lists.time
    · obtain ⟨record, hrecord⟩ := record_of_mem (hstep _ (mem_of_lookup hlookup)) hmem
      rw [if_pos hmem, hrecord]
      rcases ih hids with ⟨hnone, hno⟩ | ⟨latestAll, hsome, hall, hfirst⟩
      · exact .inl ⟨by rw [hnone]; rfl, fun h => hno h.2⟩
      · right
        have hid : buffer.FirstAt time id record :=
          ⟨lists, _, hlookup, List.getElem?_idxOf hmem, fun j hj => ne_of_lt_idxOf hj, hrecord⟩
        exact ⟨record :: latestAll, by rw [hsome]; rfl, ⟨⟨lists, hlookup, hmem⟩, hall⟩,
          .cons hid hfirst⟩
    · left
      rw [if_neg hmem]
      refine ⟨rfl, fun h => ?_⟩
      obtain ⟨lists', hlookup', hmem'⟩ := h.1
      obtain rfl := Option.some.inj (hlookup.symm.trans hlookup')
      exact hmem hmem'

/-- The search returns the greatest of the times, or there is none. -/
theorem search?_cases {buffer : Buffer} (hstep : buffer.InStep) {ids : List ℕ}
    (hkeys : ∀ id ∈ ids, ∃ lists, buffer.lookup id = some lists) (n : ℕ) :
    (buffer.search? ids n = some none ∧ buffer.times ids n = ∅) ∨
    ∃ time latestAll, buffer.search? ids n = some (some (time, latestAll)) ∧
      IsGreatest (buffer.times ids n) time ∧ List.Forall₂ (buffer.FirstAt time) ids latestAll := by
  induction n with
  | zero =>
    left
    refine ⟨rfl, Set.eq_empty_iff_forall_notMem.mpr fun time htime => ?_⟩
    obtain ⟨hpos, hle, _⟩ := htime
    omega
  | succ n ih =>
    rw [search?]
    rcases latestAt?_cases hstep hkeys (n + 1) with ⟨hnone, hno⟩ | ⟨latestAll, hsome, hall, hfirst⟩
    · have htimes : buffer.times ids (n + 1) = buffer.times ids n := by
        ext time
        constructor
        · rintro ⟨hpos, hle, hall⟩
          rcases Nat.lt_or_eq_of_le hle with hlt | rfl
          · exact ⟨hpos, Nat.le_of_lt_succ hlt, hall⟩
          · exact absurd hall hno
        · rintro ⟨hpos, hle, hall⟩
          exact ⟨hpos, Nat.le_succ_of_le hle, hall⟩
      rw [htimes, hnone]
      exact ih
    · right
      have hmem : n + 1 ∈ buffer.times ids (n + 1) := ⟨Nat.succ_pos n, Nat.le_refl _, hall⟩
      have hupper : n + 1 ∈ upperBounds (buffer.times ids (n + 1)) := fun _ htime => htime.2.1
      exact ⟨n + 1, latestAll, by rw [hsome]; rfl, ⟨hmem, hupper⟩, hfirst⟩

/-! ### Cleaning -/

theorem popBefore?_cleaned (time : ℕ) {ts : List ℕ} {rs : List (List Float64)}
    (h : ts.length = rs.length) :
    ∃ cleaned, popBefore? time ts rs = some cleaned ∧ Cleaned time ⟨ts, rs⟩ cleaned := by
  induction ts generalizing rs with
  | nil =>
    refine ⟨⟨[], rs⟩, rfl, ⟨0, Nat.le_refl _, rfl, rfl, by simp, by simp⟩, h⟩
  | cons t ts ih =>
    cases rs with
    | nil => cases h
    | cons r rs =>
      rw [popBefore?]
      split_ifs with ht
      · obtain ⟨cleaned, hpop, ⟨n, hn, htime, hrecord, hlost, hhead⟩, hlen⟩ := ih (Nat.succ.inj h)
        refine ⟨cleaned, hpop, ⟨n + 1, Nat.succ_le_succ hn, htime, hrecord, ?_, hhead⟩, hlen⟩
        intro u hu
        rcases List.mem_cons.mp hu with rfl | hmem
        · exact ht
        · exact hlost u hmem
      · refine ⟨_, rfl, ⟨0, Nat.zero_le _, rfl, rfl, by simp, ?_⟩, h⟩
        intro u hu
        obtain rfl := Option.some.inj hu
        exact Nat.le_of_not_lt ht

theorem cleanBufferBeforeTime?_cleaned (time : ℕ) {buffer : Buffer} (hstep : buffer.InStep) :
    ∃ cleaned, buffer.cleanBufferBeforeTime? time = some cleaned ∧
      List.Forall₂ (fun p q => p.1 = q.1 ∧ Cleaned time p.2 q.2) buffer cleaned := by
  induction buffer with
  | nil => exact ⟨[], rfl, .nil⟩
  | cons entry buffer ih =>
    have hall := List.forall_mem_cons.mp hstep
    obtain ⟨lists, hpop, hcleaned⟩ := popBefore?_cleaned time hall.1
    obtain ⟨rest, hrest, hforall⟩ := ih hall.2
    refine ⟨(entry.1, lists) :: rest, ?_, .cons ⟨rfl, hcleaned⟩ hforall⟩
    unfold cleanBufferBeforeTime? at hrest ⊢
    rw [List.mapM_cons]
    dsimp only
    rw [hpop, hrest]
    rfl

end Buffer

/-- The call on the two lists is the call on their entries. -/
theorem Buffer.getLatestAll?_view {buffer : Buffer} (hstep : buffer.InStep) (ids : List ℕ) (n : ℕ) :
    (buffer.getLatestAll? ids n).map (fun (found, left) => (found, (⟨left.view, n⟩ : ClientDRDS))) =
      ClientDRDS.getLatestAll? ids ⟨buffer.view, n⟩ := by
  unfold Buffer.getLatestAll? ClientDRDS.getLatestAll?
  rw [search?_eq_view hstep]
  cases ClientDRDS.search? buffer.view ids n with
  | none => rfl
  | some found =>
    cases found with
    | none => rfl
    | some found =>
      obtain ⟨cleaned, hclean, _⟩ := cleanBufferBeforeTime?_cleaned found.1 hstep
      simp only [Option.bind_eq_bind, Option.bind_some, hclean, Option.map_some,
        cleanBufferBeforeTime?_view hclean]

/-- The call returns: of the times in reach that every data id has the greatest, with the records
at its first occurrences, leaving all lists without the entries before it; or nothing, leaving the
buffer as it is. -/
theorem getLatestAll?_greatest (buffer : Buffer) (ids : List ℕ) (currentSimulinkTime : ℕ)
    (hstep : buffer.InStep) (hkeys : ∀ id ∈ ids, ∃ lists, buffer.lookup id = some lists) :
    ((buffer.times ids currentSimulinkTime).Nonempty → ∃ time latestAll cleaned,
      buffer.getLatestAll? ids currentSimulinkTime = some (some (time, latestAll), cleaned) ∧
      IsGreatest (buffer.times ids currentSimulinkTime) time ∧
      List.Forall₂ (buffer.FirstAt time) ids latestAll ∧
      List.Forall₂ (fun p q => p.1 = q.1 ∧ Buffer.Cleaned time p.2 q.2) buffer cleaned) ∧
    (buffer.times ids currentSimulinkTime = ∅ →
      buffer.getLatestAll? ids currentSimulinkTime = some (none, buffer)) := by
  unfold Buffer.getLatestAll?
  rcases Buffer.search?_cases hstep hkeys currentSimulinkTime with
    ⟨hnone, hempty⟩ | ⟨time, latestAll, hsome, hgreatest, hfirst⟩
  · refine ⟨fun hnonempty => absurd hempty hnonempty.ne_empty, fun _ => ?_⟩
    rw [hnone]
    rfl
  · obtain ⟨cleaned, hclean, hcleaned⟩ := Buffer.cleanBufferBeforeTime?_cleaned time hstep
    refine ⟨fun _ => ⟨time, latestAll, cleaned, ?_, hgreatest, hfirst, hcleaned⟩, fun hempty => ?_⟩
    · rw [hsome]
      simp only [Option.bind_eq_bind, Option.bind_some, hclean]
    · have hnonempty : (buffer.times ids currentSimulinkTime).Nonempty := ⟨time, hgreatest.1⟩
      exact absurd hempty hnonempty.ne_empty

theorem getLatestAll?_greatest_unsorted :
    let buffer : Buffer := [(1, ⟨[2, 5, 3, 5], [[0], [1], [2], [3]]⟩), (2, ⟨[5, 1], [[4], [5]]⟩),
      (9, ⟨[1, 7], [[6], [7]]⟩)]
    buffer.InStep ∧ 5 ∈ buffer.times [2, 1] 6 ∧ ∃ time latestAll cleaned,
      buffer.getLatestAll? [2, 1] 6 = some (some (time, latestAll), cleaned) ∧
      IsGreatest (buffer.times [2, 1] 6) time := by
  intro buffer
  have hstep : buffer.InStep := by simp [Buffer.InStep, buffer]
  have htime : 5 ∈ buffer.times [2, 1] 6 := by
    refine ⟨by decide, by decide, ?_⟩
    simp [buffer, List.lookup_cons]
  have hkeys : ∀ id ∈ [2, 1], ∃ lists, buffer.lookup id = some lists := by
    simp [buffer, List.lookup_cons]
  obtain ⟨time, latestAll, cleaned, hcall, hgreatest, _⟩ :=
    (getLatestAll?_greatest buffer [2, 1] 6 hstep hkeys).1 ⟨5, htime⟩
  exact ⟨hstep, htime, time, latestAll, cleaned, hcall, hgreatest⟩

end DRDS.PyApi.ClientDRDS
