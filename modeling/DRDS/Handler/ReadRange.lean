import DRDS.Handler.Reads
import Mathlib.Data.List.Perm.Basic

/-! Range reads: which rows the three vectors list, and in which order. -/
namespace DRDS
open Go

/-- A listing has each of the rows once, and no row before an earlier one. -/
structure InOrder (rows listed : List Row) : Prop where
  perm : listed.Perm rows
  byTime : listed.Pairwise fun r r' => r.iter ≤ r'.iter

theorem InOrder.nil : InOrder [] [] := ⟨.refl _, .nil⟩

/-- The three vectors of a range read list the rows of the interval in order of time, each with
the values of all columns. -/
structure Handler.ListsRange (h : Handler) (id : UInt16) (t : Table) (start stop : UInt32)
    (vecs : List UInt32 × List UInt64 × List (List Float64)) : Prop where
  lists : ∃ listed, InOrder (t.range start stop) listed ∧
    vecs = (listed.map Row.iter, listed.map Row.recvT,
      listed.map (Row.read (h.dataShapes id).toNat))
  lengths : vecs.1.length = vecs.2.2.length ∧ vecs.2.1.length = vecs.2.2.length
  shaped : ∀ row ∈ vecs.2.2, row.length = (h.dataShapes id).toNat

theorem Handler.ListsRange.of_inOrder {h : Handler} {id : UInt16} {t : Table} {start stop : UInt32}
    {listed : List Row} (hl : InOrder (t.range start stop) listed) :
    h.ListsRange id t start stop (listed.map Row.iter, listed.map Row.recvT,
      listed.map (Row.read (h.dataShapes id).toNat)) := by
  refine ⟨⟨listed, hl, rfl⟩, by simp, ?_⟩
  intro row hrow
  obtain ⟨r, _, rfl⟩ := List.mem_map.mp hrow
  exact r.length_read _

theorem Handler.readRange_scanned {e : Env} {h : Handler} {id : UInt16} {t : Table} {w : World}
    (start stop : UInt32) (ht : w.tables id = some t) (he : e.statement w.calls = none)
    (hs : h.Selects id t) : ∃ rows : List Row, rows.length = (t.range start stop).length ∧
      (h.readRange e id start stop w).1 = .ok (
        rows.flatMap fun r => (scanRow (h.dataShapes id) r).1,
        rows.flatMap fun r => (scanRow (h.dataShapes id) r).2.1,
        rows.map fun r => (scanRow (h.dataShapes id) r).2.2) := by
  refine ⟨(t.range start stop).map fun r => { r with values := r.read (h.dataShapes id).toNat },
    List.length_map _, ?_⟩
  unfold readRange World.select
  simp only [he, ht, hs.1, hs.2, decide_true, and_self, if_true]
  simp only [List.flatMap_map, List.map_map, Function.comp_def]
  rfl

/-- With two targets more than a byte counts neither a time nor values are read. -/
theorem scanRow_of_le {dataSize : UInt8} (h : 254 ≤ dataSize) (r : Row) :
    (scanRow dataSize r).1 = [] ∧ (scanRow dataSize r).2.2 = [] := by
  have hlt := dataSize.toNat_lt
  have hle : 254 ≤ dataSize.toNat := UInt8.le_iff_toNat_le.mp h
  have htargets : scanTargets dataSize 2 = dataSize.toNat - 254 := by
    rw [scanTargets, UInt8.toNat_add]
    change (dataSize.toNat + 2) % 256 = _
    omega
  have hne : dataSize.toNat - 254 ≠ dataSize.toNat + 2 := by omega
  have hone : min 1 (dataSize.toNat - 254 - 1) = 0 := by omega
  have htwo : dataSize.toNat - 254 - 2 = 0 := by omega
  simp only [scanRow, htargets, if_neg hne, hone, htwo, List.replicate_zero, and_self]

section Answered
variable {e : Env} {h : Handler} {id : UInt16} {t : Table} {w : World} {start stop : UInt32}

/-- Rows that are read whole are listed as they were inserted. -/
theorem Handler.listsRange_iff_of_lt (ht : w.tables id = some t) (he : e.statement w.calls = none)
    (hs : h.Selects id t) (hsize : h.dataShapes id < 254) :
    (∃ vecs, (h.readRange e id start stop w).1 = .ok vecs ∧ h.ListsRange id t start stop vecs) ↔
      (t.range start stop).Pairwise fun r r' => r.iter ≤ r'.iter := by
  rw [h.readRange_of_answer ht he hs hsize]
  constructor
  · rintro ⟨vecs, hok, ⟨listed, hlisted, rfl⟩, _, _⟩
    have htimes : (t.range start stop).map Row.iter = listed.map Row.iter :=
      congrArg Prod.fst (Except.ok.inj hok)
    have hsorted : (listed.map Row.iter).Pairwise (· ≤ ·) :=
      List.pairwise_map.mpr hlisted.byTime
    rwa [← htimes, List.pairwise_map] at hsorted
  · intro hsorted
    exact ⟨_, rfl, .of_inOrder ⟨.refl _, hsorted⟩⟩

/-- Of rows with too many columns no time is listed, so there must be none. -/
theorem Handler.listsRange_iff_of_le (ht : w.tables id = some t) (he : e.statement w.calls = none)
    (hs : h.Selects id t) (hsize : 254 ≤ h.dataShapes id) :
    (∃ vecs, (h.readRange e id start stop w).1 = .ok vecs ∧ h.ListsRange id t start stop vecs) ↔
      t.range start stop = [] := by
  obtain ⟨rows, hlen, hok⟩ := h.readRange_scanned start stop ht he hs
  have hnotimes : (rows.flatMap fun r => (scanRow (h.dataShapes id) r).1) = [] := by
    rw [List.flatMap_eq_nil_iff]
    exact fun r _ => (scanRow_of_le hsize r).1
  rw [hok, hnotimes]
  constructor
  · rintro ⟨vecs, hok', ⟨listed, hlisted, rfl⟩, _, _⟩
    have htimes := congrArg Prod.fst (Except.ok.inj hok')
    obtain rfl : listed = [] := List.map_eq_nil_iff.mp htimes.symm
    exact hlisted.perm.nil_eq.symm
  · intro hnil
    rw [hnil] at hlen
    obtain rfl := List.eq_nil_of_length_eq_zero hlen
    have hnone : InOrder (t.range start stop) [] := hnil ▸ InOrder.nil
    exact ⟨_, rfl, .of_inOrder hnone⟩

end Answered

/-- A range read lists the rows of the interval exactly when its statement is answered, and there
is none of them or they were inserted in order of time and a byte counts the scan targets. -/
theorem Handler.readRange_listsRange_iff (e : Env) (h : Handler) (id : UInt16) (t : Table)
    (start stop : UInt32) (w : World) (ht : w.tables id = some t)
    (hpos : 1 ≤ h.dataShapes id) (hcolumns : (h.dataShapes id).toNat = t.columns) :
    (∃ vecs, (h.readRange e id start stop w).1 = .ok vecs ∧ h.ListsRange id t start stop vecs) ↔
      e.statement w.calls = none ∧ (t.range start stop = [] ∨
        h.dataShapes id < 254 ∧ (t.range start stop).Pairwise fun r r' => r.iter ≤ r'.iter) := by
  have hs : h.Selects id t :=
    ⟨UInt8.lt_iff_toNat_lt.mpr (UInt8.le_iff_toNat_le.mp hpos), hcolumns.le⟩
  cases he : e.statement w.calls with
  | some err =>
    rcases h.readRange_answer (e := e) start stop ht with ⟨err', herr, _⟩ | ⟨hnone, _⟩
    · simp [herr]
    · rw [he] at hnone
      cases hnone
  | none =>
    rw [eq_self_iff_true, true_and]
    by_cases hsize : h.dataShapes id < 254
    · rw [listsRange_iff_of_lt ht he hs hsize, and_iff_right hsize]
      refine ⟨.inr, fun hlists => hlists.elim (fun hnil => ?_) fun hsorted => hsorted⟩
      rw [hnil]
      exact .nil
    · rw [listsRange_iff_of_le ht he hs (UInt8.not_lt.mp hsize)]
      exact ⟨.inl, fun hlists => hlists.resolve_right fun hwide => hsize hwide.1⟩

def unorderedTable : Table := ⟨1, [⟨10, 0, 0, [7]⟩, ⟨7, 0, 0, [8]⟩]⟩

def wideTable : Table := ⟨254, [⟨10, 0, 0, .replicate 254 7⟩]⟩

def Table.handler (t : Table) : Handler where
  recordTables := [3]
  dataShapes := fun id => if id = 3 then .ofNat t.columns else 0
  dataBuffer := fun id => if id = 3 then some [] else none

def Table.world (t : Table) : World := ⟨0, fun id => if id = 3 then some t else none, []⟩

/-- The rows are listed as they were inserted, and of a record of 254 values no time is read. -/
theorem unorderedTable_and_wideTable_not_listed :
    (¬ ∃ vecs, (unorderedTable.handler.readRange .reliable 3 0 20 unorderedTable.world).1 = .ok vecs ∧
      unorderedTable.handler.ListsRange 3 unorderedTable 0 20 vecs) ∧
    ¬ ∃ vecs, (wideTable.handler.readRange .reliable 3 0 20 wideTable.world).1 = .ok vecs ∧
      wideTable.handler.ListsRange 3 wideTable 0 20 vecs := by
  constructor
  · rintro ⟨vecs, hok, ⟨listed, hlisted, rfl⟩, _, _⟩
    have hread : (unorderedTable.handler.readRange .reliable 3 0 20 unorderedTable.world).1 =
        .ok ([10, 7], [0, 0], [[7], [8]]) := by decide
    rw [hread] at hok
    have htimes : [10, 7] = listed.map Row.iter := congrArg Prod.fst (Except.ok.inj hok)
    have hsorted : (listed.map Row.iter).Pairwise (· ≤ ·) := List.pairwise_map.mpr hlisted.byTime
    rw [← htimes] at hsorted
    exact absurd (List.rel_of_pairwise_cons hsorted List.mem_cons_self) (by decide)
  · rintro ⟨vecs, hok, _, hlengths, _⟩
    have hread : (wideTable.handler.readRange .reliable 3 0 20 wideTable.world).1 =
        .ok ([], [], [[]]) := by decide +kernel
    rw [hread] at hok
    obtain rfl := Except.ok.inj hok
    exact absurd hlengths.1 (by decide)

def orderedTable : Table := ⟨1, [⟨7, 0, 0, [8]⟩, ⟨10, 0, 0, [7]⟩]⟩

theorem orderedTable_listed_iff :
    (∃ vecs, (orderedTable.handler.readRange .reliable 3 0 20 orderedTable.world).1 = .ok vecs ∧
      orderedTable.handler.ListsRange 3 orderedTable 0 20 vecs) ↔
    Env.reliable.statement orderedTable.world.calls = none ∧ (orderedTable.range 0 20 = [] ∨
      orderedTable.handler.dataShapes 3 < 254 ∧
        (orderedTable.range 0 20).Pairwise fun r r' => r.iter ≤ r'.iter) :=
  Handler.readRange_listsRange_iff _ _ _ _ _ _ _ rfl (by decide) rfl

end DRDS
