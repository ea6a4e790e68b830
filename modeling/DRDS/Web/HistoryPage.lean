import DRDS.Handler.ReadRange
import DRDS.Web.History

/-! What the history page answers to any path parameter, well formed or not. -/
namespace DRDS
open Go

/-- The data id, the column and its text, when the parameter has both and the data has such a
column. -/
def Handler.asked? (h : Handler) (param : String) : Option (UInt16 × ℕ × List Char) :=
  match param.toList.splitOn '.' with
  | idText :: text :: _ =>
    let id := UInt16.ofNat (parseUint 16 idText).1
    let col := (atoi text).1
    if (parseUint 16 idText).2 = false ∧ (atoi text).2 = false ∧ 0 ≤ col ∧
        col < (h.dataShapes id).toNat then some (id, col.toNat, text)
    else none
  | _ => none

/-- The records a page reads: those before the last one, if the query for its time is answered. -/
def rowsRead (e : Env) (id : UInt16) (w : World) : List Row :=
  (w.rows id).filter fun r => e.statement w.calls = none ∧ ∃ last ∈ w.rows id, r.iter < last.iter

structure HistoryEntry (h : Handler) (id : UInt16) (col : ℕ) (text : List Char) (r : Row)
    (d : VisualData) : Prop where
  timestamp : d.timestamp = r.recvT
  value : (r.read (h.dataShapes id).toNat)[col]? = some d.value
  id : d.id = columnName id text

def HistoryFails (e : Env) (h : Handler) (param : String) (w : World) : Prop :=
  ∃ err, (historyProcess e h param w).1 = some (.error err)

/-- A parameter that asks for nothing is an error. Otherwise the page has an entry for each record
read, if the read does not fail. -/
def HistoryMeets (e : Env) (h : Handler) (param : String) (w : World) : Prop :=
  match h.asked? param with
  | none => HistoryFails e h param w
  | some (id, col, text) => HistoryFails e h param w ∨ ∃ dlist,
    (historyProcess e h param w).1 = some (.ok dlist) ∧
      List.Forall₂ (HistoryEntry h id col text) (rowsRead e id w) dlist

/-- There is no table of the data id, or it does not answer the range SELECT. -/
def RangeRefused (e : Env) (h : Handler) (id : UInt16) (w : World) : Prop :=
  ∀ t, w.tables id = some t → ¬ RangeAnswered e h id t w

/-- The parameter asks for data whose scan targets a byte counts, or of which there is nothing to
read; or it has two parts at least, and a refused read makes it an error. -/
def HistoryServed (e : Env) (h : Handler) (param : String) (w : World) : Prop :=
  match h.asked? param with
  | none => ∃ idText text rest, param.toList.splitOn '.' = idText :: text :: rest ∧
    RangeRefused e h (.ofNat (parseUint 16 idText).1) w
  | some (id, _, _) => RangeRefused e h id w ∨ rowsRead e id w = [] ∨ h.dataShapes id < 254

section Page
variable {e : Env} {h : Handler} {param : String} {w : World} {id : UInt16} {col : ℕ}
  {idText text : List Char} {rest : List (List Char)}

theorem Handler.asked?_some (hasked : h.asked? param = some (id, col, text)) : ∃ idText rest,
    param.toList.splitOn '.' = idText :: text :: rest ∧ id = .ofNat (parseUint 16 idText).1 ∧
      (atoi text).1 = col ∧ col < (h.dataShapes id).toNat := by
  unfold asked? at hasked
  split at hasked
  · rename_i idText text' rest hsplit
    dsimp only at hasked
    split_ifs at hasked with hcol
    cases hasked
    obtain ⟨_, _, hpos, hlt⟩ := hcol
    exact ⟨idText, rest, hsplit, rfl, (Int.toNat_of_nonneg hpos).symm, by omega⟩
  · cases hasked

theorem rowsRead_of_table {t : Table} (ht : w.tables id = some t) :
    rowsRead e id w = t.range 0 (queryLastSynt e id w).1 := by
  unfold rowsRead Table.range
  rw [World.rows_of_table ht]
  apply List.filter_congr
  intro r hr
  by_cases he : e.statement w.calls = none
  · have hlast : (∃ last ∈ t.rows, r.iter < last.iter) ↔ r.iter < t.lastSynt := by
      constructor
      · rintro ⟨last, hmem, hlt⟩
        exact UInt32.lt_of_lt_of_le hlt (t.le_lastSynt hmem)
      · intro hlt
        obtain ⟨last, hmem, hlast⟩ := t.exists_lastSynt (List.ne_nil_of_mem hr)
        exact ⟨last, hmem, hlast ▸ hlt⟩
    simp [queryLastSynt_of_answer ht he, he, hlast]
  · simp [queryLastSynt_of_error e id w he, he]

theorem Handler.readRange_refused (hrefused : RangeRefused e h id w) (start stop : UInt32) :
    ∃ err, (h.readRange e id start stop w.tick).1 = .error err := by
  cases ht : w.tables id with
  | none =>
    have hnone : w.tick.tables id = none := ht
    unfold readRange World.select
    rw [hnone]
    cases e.statement w.tick.calls with
    | none => exact ⟨_, rfl⟩
    | some err => exact ⟨err, rfl⟩
  | some t =>
    have ht' : w.tick.tables id = some t := ht
    rcases h.readRange_answer (e := e) start stop ht' with ⟨err, herr, _⟩ | ⟨he, hs, _⟩
    · exact ⟨err, herr⟩
    · exact absurd ⟨he, hs⟩ (hrefused t ht)

theorem historyFails_iff (hsplit : param.toList.splitOn '.' = idText :: text :: rest) :
    HistoryFails e h param w ↔ RangeRefused e h (.ofNat (parseUint 16 idText).1) w := by
  constructor
  · rintro ⟨err, hfails⟩ t ht ⟨he, hs⟩
    have ht' : w.tick.tables (.ofNat (parseUint 16 idText).1) = some t := ht
    obtain ⟨rows, _, hok⟩ := h.readRange_scanned 0
      (queryLastSynt e (.ofNat (parseUint 16 idText).1) w).1 ht' he hs
    rw [historyProcess_of_ok hsplit hok] at hfails
    simp at hfails
  · intro hrefused
    obtain ⟨err, herr⟩ := h.readRange_refused hrefused 0
      (queryLastSynt e (.ofNat (parseUint 16 idText).1) w).1
    exact ⟨err, historyProcess_of_error hsplit herr⟩

theorem historyList?_rows (hcol : (atoi text).1 = col) (hlt : col < (h.dataShapes id).toNat)
    (rows : List Row) : ∃ dlist, historyList? id text (rows.map Row.recvT)
      (rows.map (Row.read (h.dataShapes id).toNat)) = some dlist ∧
        List.Forall₂ (HistoryEntry h id col text) rows dlist := by
  let entry : Row → VisualData := fun r =>
    { timestamp := r.recvT
      value := ((r.read (h.dataShapes id).toNat)[col]?).getD 0
      id := columnName id text }
  have hvalue : ∀ r : Row,
      (r.read (h.dataShapes id).toNat)[col]? = some (entry r).value := by
    intro r
    have hlt' : col < (r.read (h.dataShapes id).toNat).length := by rwa [Row.length_read]
    change _ = some (((r.read (h.dataShapes id).toNat)[col]?).getD 0)
    rw [List.getElem?_eq_getElem hlt', Option.getD_some]
  refine ⟨rows.map entry, mapM_of_forall₂ (List.forall₂_iff_get.mpr ⟨by simp, ?_⟩), ?_⟩
  · intro i hi hi'
    have hrow : i < rows.length := by rwa [List.length_map] at hi'
    have hmat : (rows.map (Row.read (h.dataShapes id).toNat))[i]? =
        some (rows[i].read (h.dataShapes id).toNat) := by
      rw [List.getElem?_map, List.getElem?_eq_getElem hrow, Option.map_some]
    simp only [List.get_eq_getElem, List.getElem_zipIdx, List.getElem_map, Nat.zero_add, hmat, hcol,
      Int.natCast_nonneg, if_true, Int.toNat_natCast, hvalue rows[i], Option.bind_eq_bind,
      Option.bind_some]
    rfl
  · rw [List.forall₂_map_right_iff]
    exact List.forall₂_same.mpr fun r _ => ⟨rfl, hvalue r, rfl⟩

theorem historyList?_nil {tVec : List UInt64} {vMat : List (List Float64)} {dlist : List VisualData}
    (hrows : ∀ row ∈ vMat, row = []) (h : historyList? id text tVec vMat = some dlist) :
    dlist = [] := by
  have hentries := mapM_forall₂ h
  cases dlist with
  | nil => rfl
  | cons d ds =>
    obtain ⟨_, _, hentry, _⟩ := List.forall₂_cons_right_iff.mp hentries
    obtain ⟨row, hrow, hvalue⟩ := Option.bind_eq_some_iff.mp hentry
    obtain rfl := hrows row (List.mem_of_getElem? hrow)
    simp at hvalue

/-- The entries are those of the records read exactly when there is none or they are read whole. -/
theorem historyProcess_entries_iff (hsplit : param.toList.splitOn '.' = idText :: text :: rest)
    (hid : id = .ofNat (parseUint 16 idText).1) (hcol : (atoi text).1 = col)
    (hlt : col < (h.dataShapes id).toNat) (hanswered : ¬ RangeRefused e h id w) :
    (∃ dlist, (historyProcess e h param w).1 = some (.ok dlist) ∧
      List.Forall₂ (HistoryEntry h id col text) (rowsRead e id w) dlist) ↔
    rowsRead e id w = [] ∨ h.dataShapes id < 254 := by
  unfold RangeRefused at hanswered
  push Not at hanswered
  obtain ⟨t, ht, he, hs⟩ := hanswered
  have ht' : w.tick.tables id = some t := ht
  rw [rowsRead_of_table ht]
  by_cases hsize : h.dataShapes id < 254
  · have hread : h.readRange e id 0 (queryLastSynt e id w).1 w.tick = (.ok (
        (t.range 0 (queryLastSynt e id w).1).map Row.iter,
        (t.range 0 (queryLastSynt e id w).1).map Row.recvT,
        (t.range 0 (queryLastSynt e id w).1).map (Row.read (h.dataShapes id).toNat)), w.tick.tick) :=
      h.readRange_of_answer ht' he hs hsize
    obtain ⟨dlist, hlist, hentries⟩ :=
      historyList?_rows hcol hlt (t.range 0 (queryLastSynt e id w).1)
    have hpage := historyProcess_of_ok (h := h) hsplit (hid ▸ congrArg Prod.fst hread)
    rw [← hid, hlist] at hpage
    exact iff_of_true ⟨dlist, hpage, hentries⟩ (.inr hsize)
  · -- every row is read without a value
    obtain ⟨rows, hlen, hok⟩ := h.readRange_scanned 0 (queryLastSynt e id w).1 ht' he hs
    rw [historyProcess_of_ok hsplit (hid ▸ hok), ← hid]
    simp only [Option.map_eq_some_iff, Except.ok.injEq, exists_eq_right, hsize, or_false]
    constructor
    · rintro ⟨dlist, hlist, hentries⟩
      have hnil : dlist = [] := by
        refine historyList?_nil (fun row hrow => ?_) hlist
        obtain ⟨r, _, rfl⟩ := List.mem_map.mp hrow
        exact (scanRow_of_le (UInt8.not_lt.mp hsize) r).2
      rw [hnil] at hentries
      exact List.forall₂_nil_right_iff.mp hentries
    · intro hnone
      rw [hnone, List.length_nil] at hlen
      obtain rfl := List.eq_nil_of_length_eq_zero hlen
      rw [hnone]
      exact ⟨[], rfl, .nil⟩

end Page

/-- Conversion errors and the shape go unchecked, so a malformed parameter is an error only by a
refused read; and a shape whose scan targets overflow a byte has no entries. -/
theorem historyMeets_iff_served (e : Env) (h : Handler) (param : String) (w : World) :
    HistoryMeets e h param w ↔ HistoryServed e h param w := by
  unfold HistoryMeets HistoryServed
  cases hasked : h.asked? param with
  | none =>
    dsimp only
    cases hsplit : param.toList.splitOn '.' with
    | nil => exact absurd hsplit (List.splitOn_ne_nil _ _)
    | cons idText parts =>
      cases parts with
      | nil =>
        have hpanic : (historyProcess e h param w).1 = none := by rw [historyProcess, hsplit]
        simp [HistoryFails, hpanic]
      | cons text rest =>
        rw [historyFails_iff hsplit]
        simp
  | some asked =>
    obtain ⟨id, col, text⟩ := asked
    obtain ⟨idText, rest, hsplit, hid, hcol, hlt⟩ := Handler.asked?_some hasked
    dsimp only
    rw [historyFails_iff hsplit, ← hid]
    by_cases hrefused : RangeRefused e h id w
    · simp only [hrefused, true_or]
    · rw [historyProcess_entries_iff hsplit hid hcol hlt hrefused]

/-- Without a dot there is no second part to index. -/
theorem no_dot_not_meets : ¬ HistoryMeets .reliable Server.afterInit.handler "3"
    (Server.afterInit.withTable oneRecord).world := by
  rintro ⟨err, hfails⟩
  cases hfails

end DRDS
