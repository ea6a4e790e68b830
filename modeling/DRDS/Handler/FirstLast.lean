import DRDS.Handler.Init
import DRDS.Handler.ReadRange

/-! `QueryFirstSynt`, `QueryLastSynt` and the range between them. -/
namespace DRDS
open Go

instance lawfulOrderMin_uint32 : Std.LawfulOrderMin UInt32 where
  min_eq_or a b := by
    change (if a ≤ b then a else b) = a ∨ (if a ≤ b then a else b) = b
    split_ifs
    · exact .inl rfl
    · exact .inr rfl
  le_min_iff a b c := by
    change a ≤ (if b ≤ c then b else c) ↔ a ≤ b ∧ a ≤ c
    split_ifs with h
    · exact ⟨fun hb => ⟨hb, UInt32.le_trans hb h⟩, fun hbc => hbc.1⟩
    · have hcb : c ≤ b := (UInt32.le_total b c).resolve_left h
      exact ⟨fun hc => ⟨UInt32.le_trans hc hcb, hc⟩, fun hbc => hbc.2⟩

/-- `ORDER BY iter LIMIT 1`; without an answer the empty text is read as a number. -/
def queryFirstSynt (e : Env) (id : UInt16) (w : World) : UInt32 × World :=
  let noTime := UInt32.ofInt (Utils.stringToInt []).1
  match w.select e id true 0 (fun _ => true) with
  | (.ok rows, w) => (((rows.map Row.iter).min?).getD noTime, w)
  | (.error _, w) => (noTime, w)

/-- The least time in a table, the greatest number when it is empty. -/
def Table.firstSynt (t : Table) : UInt32 := ((t.rows.map Row.iter).min?).getD 0xFFFFFFFF

theorem Table.firstSynt_le {t : Table} {r : Row} (hr : r ∈ t.rows) : t.firstSynt ≤ r.iter := by
  have hmem : r.iter ∈ t.rows.map Row.iter := List.mem_map_of_mem hr
  unfold firstSynt
  cases hmin : (t.rows.map Row.iter).min? with
  | none =>
    rw [List.min?_eq_none_iff] at hmin
    simp [hmin] at hmem
  | some first => exact (List.min?_eq_some_iff.mp hmin).2 _ hmem

theorem Table.firstSynt_le_lastSynt (t : Table) : t.firstSynt ≤ t.lastSynt ↔ t.rows ≠ [] := by
  constructor
  · intro hle hrows
    rw [firstSynt, lastSynt, hrows] at hle
    exact absurd hle (by decide)
  · intro hrows
    obtain ⟨r, hr, _⟩ := exists_lastSynt hrows
    exact UInt32.le_trans (firstSynt_le hr) (le_lastSynt hr)

/-- The range from the first time to the last lacks the rows of the last time. -/
theorem Table.range_first_last (t : Table) :
    t.range t.firstSynt t.lastSynt = t.rows.filter fun r => r.iter ≠ t.lastSynt := by
  refine List.filter_congr fun r hr => ?_
  rw [decide_eq_decide]
  constructor
  · exact fun h => UInt32.ne_of_lt h.2
  · exact fun h => ⟨firstSynt_le hr, UInt32.lt_of_le_of_ne (le_lastSynt hr) h⟩

theorem Table.range_first_next (t : Table) :
    t.range t.firstSynt (t.lastSynt + 1) = t.rows ↔ ∀ r ∈ t.rows, r.iter ≠ 0xFFFFFFFF := by
  rw [range, List.filter_eq_self]
  simp only [decide_eq_true_eq]
  constructor
  · intro hall r hr hmax
    have hlast : t.lastSynt = 0xFFFFFFFF := by
      have hle := UInt32.le_iff_toNat_le.mp (le_lastSynt hr)
      have hlt := t.lastSynt.toNat_lt
      rw [hmax] at hle
      change 4294967295 ≤ t.lastSynt.toNat at hle
      apply UInt32.toNat_inj.mp
      change t.lastSynt.toNat = 4294967295
      omega
    have hlt := (hall r hr).2
    rw [hlast, hmax] at hlt
    exact absurd hlt (by decide)
  · intro hall r hr
    obtain ⟨last, hmem, hlast⟩ := exists_lastSynt (List.ne_nil_of_mem hr)
    have hne : t.lastSynt.toNat ≠ 4294967295 := fun h =>
      hall last hmem (hlast.trans (UInt32.toNat_inj.mp h))
    have hnext : (t.lastSynt + 1).toNat = t.lastSynt.toNat + 1 := by
      have hlt := t.lastSynt.toNat_lt
      rw [UInt32.toNat_add]
      change (t.lastSynt.toNat + 1) % 4294967296 = _
      omega
    refine ⟨firstSynt_le hr, UInt32.lt_iff_toNat_lt.mpr ?_⟩
    rw [hnext]
    exact Nat.lt_succ_of_le (UInt32.le_iff_toNat_le.mp (le_lastSynt hr))

section Extent
variable {e : Env} {h : Handler} {id : UInt16} {t : Table} {w : World}

theorem queryFirstSynt_of_answer (ht : w.tables id = some t) (he : e.statement w.calls = none) :
    queryFirstSynt e id w = (t.firstSynt, w.tick) := by
  have hnone : UInt32.ofInt (Utils.stringToInt []).1 = 0xFFFFFFFF := by decide
  simp [queryFirstSynt, World.select, ht, he, Table.firstSynt, Function.comp_def, hnone]

def Handler.vectors (h : Handler) (id : UInt16) (rows : List Row) :
    List UInt32 × List UInt64 × List (List Float64) :=
  (rows.map Row.iter, rows.map Row.recvT, rows.map (Row.read (h.dataShapes id).toNat))

/-- All records lie between the times of the two queries, which are the wrong way round exactly for an empty
table. In a table of fewer than 254 columns the range between them lists the records but those of the last
time, and a range that goes one further lists all, as long as no record has the greatest number for its
time. -/
theorem queried_range (ht : w.tables id = some t) (he : ∀ k, e.statement k = none) (hs : h.Selects id t)
    (hsize : h.dataShapes id < 254) :
    let first := (queryFirstSynt e id w).1
    let last := (queryLastSynt e id w).1
    (∀ r ∈ t.rows, first ≤ r.iter ∧ r.iter ≤ last) ∧ (first ≤ last ↔ t.rows ≠ []) ∧
    (h.readRange e id first last w).1 = .ok (h.vectors id (t.rows.filter fun r => r.iter ≠ last)) ∧
    ((h.readRange e id first (last + 1) w).1 = .ok (h.vectors id t.rows) ↔
      ∀ r ∈ t.rows, r.iter ≠ 0xFFFFFFFF) := by
  rw [queryFirstSynt_of_answer ht (he _), queryLastSynt_of_answer ht (he _)]
  refine ⟨fun r hr => ⟨Table.firstSynt_le hr, Table.le_lastSynt hr⟩, t.firstSynt_le_lastSynt, ?_, ?_⟩
  · rw [h.readRange_of_answer ht (he _) hs hsize, t.range_first_last]
    rfl
  · rw [h.readRange_of_answer ht (he _) hs hsize, ← t.range_first_next]
    constructor
    · intro hlists
      -- a range with as many rows as the table is the table
      have hlen : (t.range t.firstSynt (t.lastSynt + 1)).length = t.rows.length := by
        have htimes : (t.range t.firstSynt (t.lastSynt + 1)).map Row.iter = t.rows.map Row.iter :=
          congrArg Prod.fst (Except.ok.inj hlists)
        simpa only [List.length_map] using congrArg List.length htimes
      exact List.filter_sublist.eq_of_length hlen
    · intro hall
      rw [hall]
      rfl

end Extent

/-- Times 10 and 7, of which the range between them lists 7. -/
theorem queried_range_unordered :
    (queryFirstSynt .reliable 3 unorderedTable.world).1 = 7 ∧
    (queryLastSynt .reliable 3 unorderedTable.world).1 = 10 ∧
    (unorderedTable.handler.readRange .reliable 3 7 10 unorderedTable.world).1 =
      .ok (unorderedTable.handler.vectors 3 [⟨7, 0, 0, [8]⟩]) := by
  have hs : unorderedTable.handler.Selects 3 unorderedTable := ⟨by decide, by decide⟩
  have hsize : unorderedTable.handler.dataShapes 3 < 254 := by decide
  have ht : unorderedTable.world.tables 3 = some unorderedTable := rfl
  exact ⟨rfl, rfl, (queried_range (e := .reliable) ht (fun _ => rfl) hs hsize).2.2.1⟩

end DRDS
