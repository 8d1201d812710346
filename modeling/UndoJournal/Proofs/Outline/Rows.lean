import Mathlib.Data.List.Nodup
import UndoJournal.Proofs.Timeline.Cut
import UndoJournal.Proofs.Timeline.Places
import UndoJournal.Outline.Basic

/-!
# Rows and their keys

The rows of an outline are the sentinel and one row for each entry of the timeline that it shows,
in order (`getElem?_rows_succ`). Where identities rise along that timeline, **no two rows share a
key** (`nodup_keys`), so the key that an outline keeps as its selection speaks about one row
(`row?_key`), and about one place among the rows that can be seen (`visibleIndex?_key`).
-/

namespace UndoJournal

namespace Outline

variable {o : Outline} {r : Row}

/-! ### The rows of a timeline -/

/-- The row behind the sentinel and `i` others is that of the entry at index `i`. -/
theorem getElem?_rows_succ (o : Outline) (i : Nat) :
    o.rows[i + 1]? = o.shown.placed[i]?.map fun p => Row.ofPlaced p (i + 1) := by
  simp only [rows, rowsOf, List.getElem?_cons_succ, List.getElem?_map, List.getElem?_zipIdx,
    Option.map_map, Nat.add_comm 1 i]
  rfl

theorem length_rows (o : Outline) : o.rows.length = o.shown.size + 1 := by
  simp [rows, rowsOf, Timeline.length_placed]

/-- A row is the sentinel or that of a place. -/
theorem cases_of_mem_rows (h : r ∈ o.rows) :
    r = o.sentinel ∨ ∃ p ∈ o.shown.placed, ∃ n, r = Row.ofPlaced p n := by
  obtain ⟨i, hi⟩ := List.getElem?_of_mem h
  cases i with
  | zero => exact .inl (by simpa [rows, eq_comm] using hi)
  | succ i =>
    rw [getElem?_rows_succ] at hi
    obtain ⟨p, hp, rfl⟩ := Option.map_eq_some_iff.mp hi
    exact .inr ⟨p, List.mem_of_getElem? hp, i + 1, rfl⟩

/-- An outline has no row for a position that the timeline which it shows does not have. -/
theorem contains_of_mem_rows (h : r ∈ o.rows) : o.shown.contains r.position = true := by
  obtain rfl | ⟨p, hp, n, rfl⟩ := cases_of_mem_rows h
  · rfl
  · exact Timeline.contains_of_mem_placed hp

/-- An outline has a row for every node of the timeline that it shows. -/
theorem exists_rowAt? {a : Address} (h : o.shown.contains (.on a) = true) :
    ∃ r, o.rowAt? (.on a) = some r := by
  obtain ⟨p, hp, rfl⟩ := Timeline.exists_placed_of_contains h
  obtain ⟨i, hi⟩ := List.getElem?_of_mem hp
  refine Option.isSome_iff_exists.mp (List.find?_isSome.mpr ⟨Row.ofPlaced p (i + 1), ?_, ?_⟩)
  · refine List.mem_of_getElem? (i := i + 1) ?_
    rw [getElem?_rows_succ, hi]
    rfl
  · exact beq_self_eq_true _

/-- The run of a row's address is there. -/
theorem exists_head_of_mem_rows {a : Address} (h : r ∈ o.rows) (ha : r.position = .on a) :
    ∃ e, o.shown.head? a.group = some e := by
  obtain rfl | ⟨p, hp, n, rfl⟩ := cases_of_mem_rows h
  · cases ha
  · cases ha
    exact Timeline.exists_head_of_mem_placed hp

/-! ### Keys -/

theorem map_key_rows (o : Outline) :
    o.rows.map Row.key = .sentinel :: o.shown.toList.map fun e => .entry e.id := by
  have h : (fun p : Placed × Nat => (Row.ofPlaced p.1 p.2).key) =
      (fun p : Placed => RowKey.entry p.entry.id) ∘ Prod.fst := rfl
  rw [rows, rowsOf, List.map_cons, List.map_map, ← Timeline.map_entry_placed, List.map_map]
  change o.sentinel.key :: List.map (fun p : Placed × Nat => (Row.ofPlaced p.1 p.2).key) _ = _
  rw [h, ← List.map_map, List.zipIdx_map_fst]
  rfl

/-- **No two rows share a key.** -/
theorem nodup_keys (h : o.shown.Numbered) : (o.rows.map Row.key).Nodup := by
  rw [map_key_rows, List.nodup_cons]
  refine ⟨by simp, ?_⟩
  -- behind the sentinel the keys are the identities, which rise
  have hinj : Function.Injective RowKey.entry := fun _ _ => RowKey.entry.inj
  rw [show (fun e : Entry => RowKey.entry e.id) = RowKey.entry ∘ Entry.id from rfl, ← List.map_map]
  exact h.nodup_ids.map hinj

/-- Rows with one key are one row. -/
theorem eq_of_key_eq (h : o.shown.Numbered) {r r' : Row} (hr : r ∈ o.rows) (hr' : r' ∈ o.rows)
    (hkey : r.key = r'.key) : r = r' :=
  List.inj_on_of_nodup_map (nodup_keys h) hr hr' hkey

/-- The row that a key stands for. -/
theorem row?_key (h : o.shown.Numbered) (hr : r ∈ o.rows) : o.row? r.key = some r := by
  rcases hfind : o.row? r.key with _ | r'
  · have hnone := List.find?_eq_none.mp hfind r hr
    simp at hnone
  · have hkey : r'.key = r.key := by simpa using List.find?_some hfind
    rw [eq_of_key_eq h (List.mem_of_find?_eq_some hfind) hr hkey]

/-- A row that was looked up by its position is one of the rows, at that position. -/
theorem of_rowAt?_eq_some {p : Position} (h : o.rowAt? p = some r) :
    r ∈ o.rows ∧ r.position = p :=
  ⟨List.mem_of_find?_eq_some h, by simpa using List.find?_some h⟩

/-- A row that can be seen has a place among those that can, and it alone has it. -/
theorem visibleIndex?_key (h : o.shown.Numbered) (hr : r ∈ o.rows) (hv : o.isVisible r = true) :
    ∃ i, o.visibleIndex? r.key = some i ∧ o.visible[i]? = some r := by
  rcases hfind : o.visibleIndex? r.key with _ | i
  · have hnone := List.findIdx?_eq_none_iff.mp hfind r (List.mem_filter.mpr ⟨hr, hv⟩)
    simp at hnone
  · obtain ⟨hlt, hkey, -⟩ := List.findIdx?_eq_some_iff_getElem.mp hfind
    have hmem : o.visible[i] ∈ o.rows := (List.mem_filter.mp (List.getElem_mem hlt)).1
    have heq : o.visible[i] = r := eq_of_key_eq h hmem hr (by simpa using hkey)
    exact ⟨i, rfl, by rw [List.getElem?_eq_getElem hlt, heq]⟩

end Outline

end UndoJournal
