import DRDS.PyApi.Utils
import Mathlib.Data.Set.Finite.Lattice
import Mathlib.Order.Lattice.Nat

/-! The client of `last_all_same_time.py`, which collects subscribed data and looks for the latest
time at which all of it is there. `none` is a raised exception. -/
namespace DRDS.PyApi
open Go

/-- The lists `time` and `record` of a data id, entry by entry. -/
abbrev Series := List (ℕ × List Float64)

structure ClientDRDS where
  buffer : ℕ → Option Series
  currentSimulinkTime : ℕ

namespace ClientDRDS

def initBuffer (allSubscribedData : List ℕ) : ℕ → Option Series :=
  fun id => if id ∈ allSubscribedData then some [] else none

/-- A data id that is not subscribed raises a `KeyError`. -/
def appendData? (data : Packet) (c : ClientDRDS) : Option ClientDRDS :=
  match data.subpackets with
  | [] => some c
  | subpacket :: _ => do
    let id := subpacket.header.dataID.toNat
    let series ← c.buffer id
    let entry := (data.header.simulinkTime.toNat, subpacket.payload)
    some { c with buffer := Function.update c.buffer id (some (series ++ [entry])) }

/-- A round of the search: the records of a time, unless some data id has none. -/
def latestAt? (buffer : ℕ → Option Series) (time : ℕ) :
    List ℕ → Option (Option (List (List Float64)))
  | [] => some (some [])
  | id :: ids => do
    let series ← buffer id
    match series.find? (·.1 = time) with
    | none => some none
    | some entry =>
      let latestAll ← latestAt? buffer time ids
      some (latestAll.map (entry.2 :: ·))

/-- The search goes down to time 1. -/
def search? (buffer : ℕ → Option Series) (ids : List ℕ) :
    ℕ → Option (Option (ℕ × List (List Float64)))
  | 0 => some none
  | time + 1 => do
    match ← latestAt? buffer (time + 1) ids with
    | none => search? buffer ids time
    | some latestAll => some (some (time + 1, latestAll))

/-- Entries are popped from the front while they are before the time. -/
def cleanBufferBeforeTime (time : ℕ) (buffer : ℕ → Option Series) : ℕ → Option Series :=
  fun id => (buffer id).map (List.dropWhile (·.1 < time))

def getLatestAll? (ids : List ℕ) (c : ClientDRDS) :
    Option (Option (ℕ × List (List Float64)) × ClientDRDS) := do
  match ← search? c.buffer ids c.currentSimulinkTime with
  | none => some (none, c)
  | some (time, latestAll) =>
    some (some (time, latestAll), { c with buffer := cleanBufferBeforeTime time c.buffer })

/-! ### Runs -/

/-- The client and the packet its thread has appended but not yet taken the time of. Recorded with
them are the entries received so far, and the time returned last, 0 before the first. -/
structure Receiving where
  client : ClientDRDS
  data : Option Packet
  received : List (ℕ × ℕ × List Float64)
  last : ℕ

inductive Action where
  | append (data : Packet)
  | setTime
  | getLatestAll (ids : List ℕ)

namespace Receiving

def start (allSubscribedData : List ℕ) : Receiving :=
  ⟨⟨initBuffer allSubscribedData, 0⟩, none, [], 0⟩

def entries (data : Packet) : List (ℕ × ℕ × List Float64) :=
  data.subpackets.head?.toList.map fun subpacket =>
    (subpacket.header.dataID.toNat, data.header.simulinkTime.toNat, subpacket.payload)

/-- A call that raises or finds nothing changes nothing. -/
def step? : Action → Receiving → Option Receiving
  | .append data, S =>
    if S.data = none then do
      let client ← S.client.appendData? data
      some { S with client, data := some data, received := S.received ++ entries data }
    else none
  | .setTime, S => do
    let data ← S.data
    let client := { S.client with currentSimulinkTime := data.header.simulinkTime.toNat }
    some { S with client, data := none }
  | .getLatestAll ids, S =>
    match S.client.getLatestAll? ids with
    | some (some (time, _), client) => some { S with client, last := time }
    | _ => some S

/-- Something holds whenever `get_latest_all` is called in a run. -/
def AtCalls (P : Receiving → List ℕ → Prop) : List Action → Receiving → Prop
  | [], _ => True
  | a :: as, S =>
    (∀ ids, a = .getLatestAll ids → P S ids) ∧ ∀ T, S.step? a = some T → AtCalls P as T

def complete (S : Receiving) (ids : List ℕ) : Set ℕ :=
  {time | 1 ≤ time ∧ ∀ id ∈ ids, ∃ record, (id, time, record) ∈ S.received}

/-- The call returns the greatest of these times, if there is one, with records received then, and
no time before the one returned last. -/
structure ReturnsLatest (S : Receiving) (ids : List ℕ) : Prop where
  greatest : ∀ time, IsGreatest (S.complete ids) time → ∃ latestAll client,
    S.client.getLatestAll? ids = some (some (time, latestAll), client) ∧
      List.Forall₂ (fun id record => (id, time, record) ∈ S.received) ids latestAll
  ascending : ∀ time latestAll client,
    S.client.getLatestAll? ids = some (some (time, latestAll), client) → S.last ≤ time

/-- The greatest of these times is neither after the time of the packet taken in last nor before
the time returned last. Without a data id asked for, the first is not before the second. -/
structure InReach (S : Receiving) (ids : List ℕ) : Prop where
  current : ∀ time, IsGreatest (S.complete ids) time →
    S.last ≤ time ∧ time ≤ S.client.currentSimulinkTime
  unasked : ids = [] → S.client.currentSimulinkTime = 0 ∨ S.last ≤ S.client.currentSimulinkTime

/-- The buffers hold nothing but what was received, and all of it that is not before the time
returned last. -/
structure Keeps (S : Receiving) : Prop where
  received : ∀ id series, S.client.buffer id = some series → ∀ time record,
    (time, record) ∈ series → (id, time, record) ∈ S.received
  kept : ∀ id time record, (id, time, record) ∈ S.received → S.last ≤ time →
    ∃ series, S.client.buffer id = some series ∧ (time, record) ∈ series

end Receiving

/-! ### The search -/

section Search
variable {buffer : ℕ → Option Series} {ids : List ℕ} {time n : ℕ}
  {latestAll : List (List Float64)}

theorem latestAt?_found (h : latestAt? buffer time ids = some (some latestAll)) :
    List.Forall₂ (fun id record => ∃ series, buffer id = some series ∧ (time, record) ∈ series)
      ids latestAll := by
  induction ids generalizing latestAll with
  | nil =>
    cases h
    exact .nil
  | cons id ids ih =>
    simp only [latestAt?, Option.bind_eq_bind, Option.bind_eq_some_iff] at h
    obtain ⟨series, hseries, h⟩ := h
    cases hfind : series.find? (·.1 = time) with
    | none => simp [hfind] at h
    | some entry =>
      simp only [hfind, Option.bind_eq_some_iff, Option.some.injEq, Option.map_eq_some_iff] at h
      obtain ⟨rest, hrest, records, rfl, rfl⟩ := h
      have htime : entry.1 = time := by simpa using List.find?_some hfind
      have hmem : (time, entry.2) ∈ series := htime ▸ List.mem_of_find?_eq_some hfind
      exact .cons ⟨series, hseries, hmem⟩ (ih hrest)

theorem latestAt?_known (h : ∀ id ∈ ids, ∃ series, buffer id = some series) :
    latestAt? buffer time ids = some none ∨
      ∃ latestAll, latestAt? buffer time ids = some (some latestAll) := by
  induction ids with
  | nil => exact .inr ⟨[], rfl⟩
  | cons id ids ih =>
    rw [List.forall_mem_cons] at h
    obtain ⟨⟨series, hseries⟩, hids⟩ := h
    rw [latestAt?, hseries]
    cases hfind : series.find? (·.1 = time) with
    | none => exact .inl (by simp [hfind])
    | some entry =>
      rcases ih hids with hmissing | ⟨rest, hrest⟩
      · exact .inl (by simp [hfind, hmissing])
      · exact .inr ⟨entry.2 :: rest, by simp [hfind, hrest]⟩

theorem latestAt?_of_all
    (h : ∀ id ∈ ids, ∃ series, buffer id = some series ∧ ∃ record, (time, record) ∈ series) :
    ∃ latestAll, latestAt? buffer time ids = some (some latestAll) := by
  induction ids with
  | nil => exact ⟨[], rfl⟩
  | cons id ids ih =>
    rw [List.forall_mem_cons] at h
    obtain ⟨⟨series, hseries, record, hrecord⟩, hids⟩ := h
    obtain ⟨rest, hrest⟩ := ih hids
    rw [latestAt?, hseries]
    cases hfind : series.find? (·.1 = time) with
    | none =>
      have hnone := List.find?_eq_none.mp hfind _ hrecord
      simp at hnone
    | some entry => exact ⟨entry.2 :: rest, by simp [hfind, hrest]⟩

theorem search?_found (h : search? buffer ids n = some (some (time, latestAll))) :
    1 ≤ time ∧ time ≤ n ∧ latestAt? buffer time ids = some (some latestAll) := by
  induction n with
  | zero => cases h
  | succ n ih =>
    simp only [search?, Option.bind_eq_bind, Option.bind_eq_some_iff] at h
    obtain ⟨round, hround, h⟩ := h
    cases round with
    | none =>
      obtain ⟨hpos, hle, hfound⟩ := ih h
      exact ⟨hpos, Nat.le_succ_of_le hle, hfound⟩
    | some records =>
      cases h
      exact ⟨Nat.succ_pos n, Nat.le_refl _, hround⟩

theorem search?_eq (hpos : 1 ≤ time) (hle : time ≤ n)
    (hfound : latestAt? buffer time ids = some (some latestAll))
    (hmissing : ∀ u, time < u → u ≤ n → latestAt? buffer u ids = some none) :
    search? buffer ids n = some (some (time, latestAll)) := by
  induction n with
  | zero => omega
  | succ n ih =>
    rw [search?]
    rcases Nat.lt_or_eq_of_le hle with hlt | rfl
    · rw [hmissing (n + 1) hlt (Nat.le_refl _)]
      exact ih (by omega) fun u hu hun => hmissing u hu (by omega)
    · rw [hfound]
      rfl

theorem mem_cleanBuffer {series : Series} {entry : ℕ × List Float64} (h : entry ∈ series)
    (hle : time ≤ entry.1) : entry ∈ series.dropWhile (·.1 < time) := by
  induction series with
  | nil => cases h
  | cons first rest ih =>
    rw [List.dropWhile_cons]
    split_ifs with hfirst
    · rcases List.mem_cons.mp h with rfl | hrest
      · have hlt : entry.1 < time := of_decide_eq_true hfirst
        omega
      · exact ih hrest
    · exact h

end Search

/-! ### Calls -/

namespace Receiving
section Call
variable {S : Receiving} {ids : List ℕ} {time : ℕ}

theorem getLatestAll?_some {c client : ClientDRDS} {latestAll : List (List Float64)} :
    c.getLatestAll? ids = some (some (time, latestAll), client) ↔
      search? c.buffer ids c.currentSimulinkTime = some (some (time, latestAll)) ∧
        client = { c with buffer := cleanBufferBeforeTime time c.buffer } := by
  unfold getLatestAll?
  cases search? c.buffer ids c.currentSimulinkTime with
  | none => simp
  | some found =>
    cases found with
    | none => simp
    | some found =>
      obtain ⟨u, records⟩ := found
      simp only [Option.bind_eq_bind, Option.bind_some, Option.some.injEq, Prod.mk.injEq]
      constructor
      · rintro ⟨⟨rfl, rfl⟩, rfl⟩
        exact ⟨⟨rfl, rfl⟩, rfl⟩
      · rintro ⟨⟨rfl, rfl⟩, rfl⟩
        exact ⟨⟨rfl, rfl⟩, rfl⟩

theorem Keeps.complete_of_found (h : S.Keeps) {latestAll : List (List Float64)}
    (hfound : latestAt? S.client.buffer time ids = some (some latestAll)) :
    List.Forall₂ (fun id record => (id, time, record) ∈ S.received) ids latestAll :=
  (latestAt?_found hfound).imp fun id _ ⟨series, hseries, hmem⟩ =>
    h.received id series hseries time _ hmem

theorem Keeps.found_mem_complete (h : S.Keeps) {latestAll : List (List Float64)}
    (hpos : 1 ≤ time) (hfound : latestAt? S.client.buffer time ids = some (some latestAll)) :
    time ∈ S.complete ids := by
  refine ⟨hpos, fun id hid => ?_⟩
  obtain ⟨i, hi, rfl⟩ := List.getElem_of_mem hid
  have hall := h.complete_of_found hfound
  have hi' : i < latestAll.length := hall.length_eq ▸ hi
  exact ⟨latestAll[i], hall.get hi hi'⟩

/-- Above the last time returned, a greatest time is found from any time that is no less. -/
theorem Keeps.search?_greatest (h : S.Keeps) (hgreatest : IsGreatest (S.complete ids) time)
    (hlast : S.last ≤ time) (hle : time ≤ S.client.currentSimulinkTime) : ∃ latestAll,
      search? S.client.buffer ids S.client.currentSimulinkTime = some (some (time, latestAll)) := by
  have hkept : ∀ id ∈ ids, ∃ series, S.client.buffer id = some series ∧
      ∃ record, (time, record) ∈ series := by
    intro id hid
    obtain ⟨record, hrecord⟩ := hgreatest.1.2 id hid
    obtain ⟨series, hseries, hmem⟩ := h.kept id time record hrecord hlast
    exact ⟨series, hseries, record, hmem⟩
  obtain ⟨latestAll, hfound⟩ := latestAt?_of_all hkept
  refine ⟨latestAll, search?_eq hgreatest.1.1 hle hfound fun u hu _ => ?_⟩
  have hknown : ∀ id ∈ ids, ∃ series, S.client.buffer id = some series :=
    fun id hid => (hkept id hid).imp fun _ hseries => hseries.1
  have hround : latestAt? S.client.buffer u ids = some none ∨
      ∃ records, latestAt? S.client.buffer u ids = some (some records) := latestAt?_known hknown
  rcases hround with hmissing | ⟨records, hrecords⟩
  · exact hmissing
  · have hlater := hgreatest.2 (h.found_mem_complete (by omega) hrecords)
    omega

theorem exists_isGreatest (hids : ids ≠ []) (hsome : time ∈ S.complete ids) :
    ∃ greatest, IsGreatest (S.complete ids) greatest := by
  obtain ⟨id, rest, rfl⟩ := List.exists_cons_of_ne_nil hids
  have hbounded : BddAbove (S.complete (id :: rest)) := by
    refine (List.finite_toSet (S.received.map (·.2.1))).bddAbove.mono fun u hu => ?_
    obtain ⟨record, hrecord⟩ := hu.2 id List.mem_cons_self
    exact List.mem_map.mpr ⟨_, hrecord, rfl⟩
  exact ⟨_, Nat.sSup_mem ⟨time, hsome⟩ hbounded, fun u hu => le_csSup hbounded hu⟩

/-- A call returns the latest time exactly when it is in reach. -/
theorem Keeps.returnsLatest_iff (h : S.Keeps) : S.ReturnsLatest ids ↔ S.InReach ids := by
  constructor
  · intro hreturns
    constructor
    · intro time hgreatest
      obtain ⟨latestAll, client, hcall, _⟩ := hreturns.greatest time hgreatest
      have hsearch := (getLatestAll?_some.mp hcall).1
      exact ⟨hreturns.ascending time latestAll client hcall, (search?_found hsearch).2.1⟩
    · rintro rfl
      rcases Nat.eq_zero_or_pos S.client.currentSimulinkTime with hzero | hpos
      · exact .inl hzero
      · have hsearch : search? S.client.buffer [] S.client.currentSimulinkTime =
            some (some (S.client.currentSimulinkTime, [])) :=
          search?_eq hpos (Nat.le_refl _) rfl fun u _ _ => by omega
        exact .inr (hreturns.ascending _ _ _ (getLatestAll?_some.mpr ⟨hsearch, rfl⟩))
  · intro hreach
    have hgreatest : ∀ time, IsGreatest (S.complete ids) time → ∃ latestAll client,
        S.client.getLatestAll? ids = some (some (time, latestAll), client) := by
      intro time htime
      obtain ⟨hlast, hle⟩ := hreach.current time htime
      obtain ⟨latestAll, hsearch⟩ := h.search?_greatest htime hlast hle
      exact ⟨latestAll, _, getLatestAll?_some.mpr ⟨hsearch, rfl⟩⟩
    constructor
    · intro time htime
      obtain ⟨latestAll, client, hcall⟩ := hgreatest time htime
      have hfound := (search?_found (getLatestAll?_some.mp hcall).1).2.2
      exact ⟨latestAll, client, hcall, h.complete_of_found hfound⟩
    · intro time latestAll client hcall
      have hsearch := (getLatestAll?_some.mp hcall).1
      obtain ⟨hpos, hle, hfound⟩ := search?_found hsearch
      by_cases hids : ids = []
      · subst hids
        have hcurrent : search? S.client.buffer [] S.client.currentSimulinkTime =
            some (some (S.client.currentSimulinkTime, [])) :=
          search?_eq (by omega) (Nat.le_refl _) rfl fun u _ _ => by omega
        cases hsearch.symm.trans hcurrent
        exact (hreach.unasked rfl).resolve_left (by omega)
      · obtain ⟨greatest, hg⟩ := exists_isGreatest hids (h.found_mem_complete hpos hfound)
        obtain ⟨_, _, hcall'⟩ := hgreatest greatest hg
        cases hcall.symm.trans hcall'
        exact (hreach.current time hg).1

end Call
section Run
variable {S T : Receiving}

theorem start_keeps (ids : List ℕ) : (start ids).Keeps := by
  constructor
  · intro id series hseries time record hmem
    unfold start initBuffer at hseries
    dsimp only at hseries
    split_ifs at hseries
    cases hseries
    cases hmem
  · intro id time record hmem
    cases hmem

theorem Keeps.append {data : Packet} (h : S.Keeps) (hstep : S.step? (.append data) = some T) :
    T.Keeps := by
  rw [step?] at hstep
  split_ifs at hstep
  obtain ⟨client, hclient, hT⟩ := Option.bind_eq_some_iff.mp hstep
  cases hT
  cases hsubs : data.subpackets with
  | nil =>
    simp only [appendData?, hsubs, Option.some.injEq] at hclient
    subst hclient
    have hentries : entries data = [] := by simp [entries, hsubs]
    rw [hentries, List.append_nil]
    exact ⟨h.received, h.kept⟩
  | cons subpacket rest =>
    simp only [appendData?, hsubs, Option.bind_eq_bind, Option.bind_eq_some_iff,
      Option.some.injEq] at hclient
    obtain ⟨series, hseries, rfl⟩ := hclient
    have hentries : entries data = [(subpacket.header.dataID.toNat,
        data.header.simulinkTime.toNat, subpacket.payload)] := by simp [entries, hsubs]
    rw [hentries]
    constructor
    · intro id series' hseries' time record hmem
      by_cases hid : id = subpacket.header.dataID.toNat
      · subst hid
        simp only [Function.update_self, Option.some.injEq] at hseries'
        subst hseries'
        rcases List.mem_append.mp hmem with hmem | hmem
        · exact List.mem_append_left _ (h.received _ series hseries time record hmem)
        · cases List.mem_singleton.mp hmem
          exact List.mem_append_right _ (List.mem_singleton_self _)
      · simp only [Function.update_of_ne hid] at hseries'
        exact List.mem_append_left _ (h.received id series' hseries' time record hmem)
    · intro id time record hmem hlast
      by_cases hid : id = subpacket.header.dataID.toNat
      · subst hid
        refine ⟨_, Function.update_self .., ?_⟩
        rcases List.mem_append.mp hmem with hmem | hmem
        · obtain ⟨series', hseries', hmem'⟩ := h.kept _ time record hmem hlast
          cases hseries.symm.trans hseries'
          exact List.mem_append_left _ hmem'
        · cases List.mem_singleton.mp hmem
          exact List.mem_append_right _ (List.mem_singleton_self _)
      · rcases List.mem_append.mp hmem with hmem | hmem
        · obtain ⟨series', hseries', hmem'⟩ := h.kept id time record hmem hlast
          exact ⟨series', (Function.update_of_ne hid ..).trans hseries', hmem'⟩
        · cases List.mem_singleton.mp hmem
          exact absurd rfl hid

theorem Keeps.getLatestAll {ids : List ℕ} (h : S.Keeps) (hreturns : S.ReturnsLatest ids)
    (hstep : S.step? (.getLatestAll ids) = some T) : T.Keeps := by
  rw [step?] at hstep
  split at hstep
  · rename_i time latestAll client hcall
    cases hstep
    have hlast := hreturns.ascending time latestAll client hcall
    obtain ⟨_, rfl⟩ := getLatestAll?_some.mp hcall
    constructor
    · intro id series hseries u record hmem
      obtain ⟨series', hseries', rfl⟩ := Option.map_eq_some_iff.mp hseries
      exact h.received id series' hseries' u record ((List.dropWhile_sublist _).subset hmem)
    · intro id u record hmem hle
      obtain ⟨series, hseries, hkept⟩ := h.kept id u record hmem (hlast.trans hle)
      exact ⟨_, Option.map_eq_some_iff.mpr ⟨series, hseries, rfl⟩, mem_cleanBuffer hkept hle⟩
  · cases hstep
    exact h

theorem Keeps.step {a : Action} (h : S.Keeps)
    (hreturns : ∀ ids, a = .getLatestAll ids → S.ReturnsLatest ids) (hstep : S.step? a = some T) :
    T.Keeps := by
  cases a with
  | append data => exact h.append hstep
  | setTime =>
    obtain ⟨data, _, hT⟩ := Option.bind_eq_some_iff.mp hstep
    cases hT
    exact ⟨h.received, h.kept⟩
  | getLatestAll ids => exact h.getLatestAll (hreturns ids rfl) hstep

theorem Keeps.atCalls_iff {as : List Action} (h : S.Keeps) :
    AtCalls ReturnsLatest as S ↔ AtCalls InReach as S := by
  induction as generalizing S with
  | nil => exact Iff.rfl
  | cons a as ih =>
    constructor
    · rintro ⟨hnow, hlater⟩
      refine ⟨fun ids ha => h.returnsLatest_iff.mp (hnow ids ha), fun T hT => ?_⟩
      exact (ih (h.step hnow hT)).mp (hlater T hT)
    · rintro ⟨hnow, hlater⟩
      have hreturns : ∀ ids, a = .getLatestAll ids → S.ReturnsLatest ids :=
        fun ids ha => h.returnsLatest_iff.mpr (hnow ids ha)
      exact ⟨hreturns, fun T hT => (ih (h.step hreturns hT)).mpr (hlater T hT)⟩

end Run

/-! ### One list throughout -/

/-- The greatest time is not after the time of the packet taken in last. -/
def NotAhead (S : Receiving) (ids : List ℕ) : Prop :=
  ∀ time, IsGreatest (S.complete ids) time → time ≤ S.client.currentSimulinkTime

section OneList
variable {S T : Receiving} {ids : List ℕ}

theorem inReach_iff_notAhead (hids : ids ≠ []) (hlast : S.last = 0 ∨ S.last ∈ S.complete ids) :
    S.InReach ids ↔ S.NotAhead ids := by
  constructor
  · intro hreach time htime
    exact (hreach.current time htime).2
  · intro hahead
    refine ⟨fun time htime => ⟨?_, hahead time htime⟩, fun hnil => absurd hnil hids⟩
    rcases hlast with hzero | hmem
    · omega
    · exact htime.2 hmem

/-- A list asked for before stays complete at the time returned for it. -/
theorem Keeps.last_complete {a : Action} (h : S.Keeps)
    (hlast : S.last = 0 ∨ S.last ∈ S.complete ids)
    (hone : ∀ ids', a = .getLatestAll ids' → ids' = ids) (hstep : S.step? a = some T) :
    T.last = 0 ∨ T.last ∈ T.complete ids := by
  cases a with
  | append data =>
    rw [step?] at hstep
    split_ifs at hstep
    obtain ⟨client, _, hT⟩ := Option.bind_eq_some_iff.mp hstep
    cases hT
    refine hlast.imp_right fun hmem => ⟨hmem.1, fun id hid => ?_⟩
    obtain ⟨record, hrecord⟩ := hmem.2 id hid
    exact ⟨record, List.mem_append_left _ hrecord⟩
  | setTime =>
    obtain ⟨data, _, hT⟩ := Option.bind_eq_some_iff.mp hstep
    cases hT
    exact hlast
  | getLatestAll ids' =>
    obtain rfl := hone ids' rfl
    rw [step?] at hstep
    split at hstep
    · rename_i time latestAll client hcall
      cases hstep
      obtain ⟨hpos, _, hfound⟩ := search?_found (getLatestAll?_some.mp hcall).1
      exact .inr (h.found_mem_complete hpos hfound)
    · cases hstep
      exact hlast

/-- If every call asks for the same data ids, only packets that arrive late put a time out of
reach. -/
theorem Keeps.atCalls_notAhead_iff {as : List Action} (h : S.Keeps) (hids : ids ≠ [])
    (hlast : S.last = 0 ∨ S.last ∈ S.complete ids)
    (hone : ∀ ids', .getLatestAll ids' ∈ as → ids' = ids) :
    AtCalls InReach as S ↔ AtCalls NotAhead as S := by
  induction as generalizing S with
  | nil => exact Iff.rfl
  | cons a as ih =>
    have hnow : ∀ ids', a = .getLatestAll ids' → (S.InReach ids' ↔ S.NotAhead ids') := by
      intro ids' ha
      obtain rfl := hone ids' (ha ▸ List.mem_cons_self)
      exact inReach_iff_notAhead hids hlast
    have hrest : (∀ ids', a = .getLatestAll ids' → S.InReach ids') → ∀ T, S.step? a = some T →
        (AtCalls InReach as T ↔ AtCalls NotAhead as T) := by
      intro hreach T hstep
      refine ih (h.step (fun ids' ha => h.returnsLatest_iff.mpr (hreach ids' ha)) hstep) ?_ ?_
      · exact h.last_complete hlast (fun ids' ha => hone ids' (ha ▸ List.mem_cons_self)) hstep
      · exact fun ids' hmem => hone ids' (List.mem_cons_of_mem _ hmem)
    constructor
    · rintro ⟨hreach, hlater⟩
      exact ⟨fun ids' ha => (hnow ids' ha).mp (hreach ids' ha),
        fun T hT => (hrest hreach T hT).mp (hlater T hT)⟩
    · rintro ⟨hahead, hlater⟩
      have hreach : ∀ ids', a = .getLatestAll ids' → S.InReach ids' :=
        fun ids' ha => (hnow ids' ha).mpr (hahead ids' ha)
      exact ⟨hreach, fun T hT => (hrest hreach T hT).mpr (hlater T hT)⟩

end OneList
end Receiving

open Receiving

/-- Every call of a run returns the latest time at which all that it asks for is there, and no time
before the one returned last, exactly when each time is in reach. -/
theorem getLatestAll_returnsLatest_iff (allSubscribedData : List ℕ) (as : List Action) :
    AtCalls ReturnsLatest as (start allSubscribedData) ↔
      AtCalls InReach as (start allSubscribedData) :=
  (start_keeps allSubscribedData).atCalls_iff

def valueAt (simulinkTime : ℕ) : Packet :=
  .init 1 1 0 7 0 0 0 simulinkTime 0 1 0 0 0 0 1 [.init 1 0 1 1 1 [1]]

def lateArrival : List Action :=
  [.append (valueAt 5), .setTime, .getLatestAll [1], .append (valueAt 3), .setTime,
    .getLatestAll [1]]

/-- The first call returns time 5 and the second time 3. -/
theorem lateArrival_not_returnsLatest : ¬ AtCalls ReturnsLatest lateArrival (start [1]) := by
  intro h
  have hsecond := (((((h.2 _ rfl).2 _ rfl).2 _ rfl).2 _ rfl).2 _ rfl).1 [1] rfl
  have hlast := hsecond.ascending 3 [[1]] _ rfl
  exact absurd hlast (by decide)

end ClientDRDS
end DRDS.PyApi
