import DRDS.Handler.HandleData
import DRDS.Handler.Reads

/-! `WriteSynt`, which writes one record with one statement, against `WriteRange`. -/
namespace DRDS
open Go Batch

/-- The time is read before the record is looked at. -/
def Handler.writeSynt (e : Env) (h : Handler) (id : UInt16) (data : Data) (w : World) :
    Option String × World :=
  if Utils.uint16Contains h.recordTables id then
    match h.fillin id (e.unixMilli w.calls) data with
    | .error err => (some err, w.tick)
    | .ok row => w.tick.insert e id (h.dataShapes id).toNat [row]
  else (none, w)

/-- The table has a column for each value of a record. -/
def Handler.Fits (h : Handler) (id : UInt16) (w : World) : Prop :=
  ∃ t, w.tables id = some t ∧ (h.dataShapes id).toNat ≤ t.columns

section Writes
variable {e : Env} {h : Handler} {id : UInt16} {w : World}

theorem Handler.Fits.of_columns {w' : World} (hw : h.Fits id w)
    (hcolumns : (w'.tables id).map Table.columns = (w.tables id).map Table.columns) : h.Fits id w' := by
  obtain ⟨t, ht, hle⟩ := hw
  rw [ht, Option.map_some] at hcolumns
  obtain ⟨t', ht', hsame⟩ := Option.map_eq_some_iff.mp hcolumns
  exact ⟨t', ht', hsame ▸ hle⟩

theorem World.insert_of_fits (he : ∀ k, e.statement k = none) (hw : h.Fits id w) (rows : List Row) :
    (w.insert e id (h.dataShapes id).toNat rows).1 = none ∧
      (w.insert e id (h.dataShapes id).toNat rows).2.records id =
        w.records id ++ rows.map fun r => r.data.stored e := by
  obtain ⟨t, ht, hle⟩ := hw
  rw [insert, he, ht]
  dsimp only
  rw [if_pos hle]
  refine ⟨rfl, ?_⟩
  simp [records, ht, Row.data, Data.stored, Function.comp_def]

theorem Handler.writeRange_fits (hw : h.Fits id w) (b : List Data) :
    h.Fits id (h.writeRange e id b w).2 := by
  unfold writeRange
  split_ifs
  · cases b.mapM (h.fillin id (e.unixMilli w.calls)) with
    | error err => exact hw
    | ok rows => exact hw.of_columns (World.insert_columns e id _ rows w.tick id)
  · exact hw

theorem Handler.writeSynt_fits (hw : h.Fits id w) (data : Data) :
    h.Fits id (h.writeSynt e id data w).2 := by
  unfold writeSynt
  split_ifs
  · cases h.fillin id (e.unixMilli w.calls) data with
    | error err => exact hw
    | ok row => exact hw.of_columns (World.insert_columns e id _ [row] w.tick id)
  · exact hw

variable (he : ∀ k, e.statement k = none) (hid : id ∈ h.recordTables)
include he hid

theorem Handler.writeSynt_records (hw : h.Fits id w) (data : Data) :
    (h.writeSynt e id data w).2.records id =
      w.records id ++ if h.Shaped id data then [data.stored e] else [] := by
  have hknown : Utils.uint16Contains h.recordTables id = true := (Utils.uint16Contains_iff _ _).mpr hid
  rw [writeSynt, if_pos hknown, fillin]
  split_ifs
  · have hfits : h.Fits id w.tick := hw
    exact (World.insert_of_fits he hfits _).2
  · exact (List.append_nil _).symm

theorem Handler.writeSynts_records (ds : List Data) (hw : h.Fits id w) :
    (ds.foldl (fun w data => (h.writeSynt e id data w).2) w).records id =
      w.records id ++ (ds.filter (h.Shaped id ·)).map (Data.stored e) := by
  induction ds generalizing w with
  | nil => exact (List.append_nil _).symm
  | cons data ds ih =>
    rw [List.foldl_cons, ih (writeSynt_fits hw data), writeSynt_records he hid hw, List.append_assoc,
      List.filter_cons]
    by_cases hdata : h.Shaped id data <;> simp [hdata]

theorem Handler.writeRanges_records (bs : List (List Data)) (hw : h.Fits id w) :
    (bs.foldl (fun w b => (h.writeRange e id b w).2) w).records id =
      w.records id ++ (kept (h.Shaped id) bs).map (Data.stored e) := by
  induction bs generalizing w with
  | nil => exact (List.append_nil _).symm
  | cons b bs ih =>
    have hok : (∀ d ∈ b, h.Shaped id d) → (h.writeRange e id b w).1 = none := by
      intro hb
      have hknown : Utils.uint16Contains h.recordTables id = true :=
        (Utils.uint16Contains_iff _ _).mpr hid
      have hfits : h.Fits id w.tick := hw
      rw [writeRange, if_pos hknown, h.mapM_fillin id _ hb]
      exact (World.insert_of_fits he hfits _).1
    rw [List.foldl_cons, ih (writeRange_fits hw b), writeRange_records hid hok, List.append_assoc,
      kept_cons, List.map_append, apply_ite (List.map _), List.map_nil]

/-- However the records are cut into batches, the batches store what the records would one by one,
exactly when each batch is all of the right shape or all of others. The times of receipt, which differ,
are no part of what is compared. -/
theorem Handler.writeRanges_eq_writeSynts_iff (hw : h.Fits id w) (bs : List (List Data)) :
    (bs.foldl (fun w b => (h.writeRange e id b w).2) w).records id =
      (bs.flatten.foldl (fun w data => (h.writeSynt e id data w).2) w).records id ↔
    ∀ b ∈ bs, Uniform (h.Shaped id) b := by
  rw [writeRanges_records he hid bs hw, writeSynts_records he hid bs.flatten hw, List.append_cancel_left_eq]
  exact map_kept_eq_iff (h.Shaped id) (Data.stored e) bs

end Writes

/-- The second batch loses a record that would be stored by itself. -/
theorem Handler.writeRanges_eq_writeSynts_iff_mixed :
    ([[⟨1, 0, [7]⟩], [⟨2, 0, [8]⟩, ⟨3, 0, []⟩]].foldl
      (fun w b => (scalarPipe.handler.writeRange .reliable 3 b w).2) scalarWorld).records 3 =
      ([⟨1, 0, [7]⟩, ⟨2, 0, [8]⟩, ⟨3, 0, []⟩].foldl
        (fun w data => (scalarPipe.handler.writeSynt .reliable 3 data w).2) scalarWorld).records 3 ↔
    ∀ b ∈ [[(⟨1, 0, [7]⟩ : Data)], [⟨2, 0, [8]⟩, ⟨3, 0, []⟩]],
      Uniform (scalarPipe.handler.Shaped 3) b :=
  Handler.writeRanges_eq_writeSynts_iff (fun _ => rfl) (by decide) ⟨⟨1, []⟩, rfl, by decide⟩
    [[⟨1, 0, [7]⟩], [⟨2, 0, [8]⟩, ⟨3, 0, []⟩]]

end DRDS
