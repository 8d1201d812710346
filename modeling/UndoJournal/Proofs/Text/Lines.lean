import UndoJournal.Proofs.Text.Blank
import UndoJournal.Text

/-!
# What the lines of a text hold

A line holds no line feed, and text put together from such lines falls into them again: all that can
change is a carriage return at the end of a line, which is a blank, and an empty line at the very
end, which is lost.
-/

namespace UndoJournal.Text

variable {cs l : List Char}

private theorem dropReturn_eq_or (cs : List Char) :
    dropReturn cs = cs ∨ cs = dropReturn cs ++ ['\r'] := by
  unfold dropReturn
  split
  next h =>
    right
    obtain ⟨hne, hlast⟩ := List.getLast?_eq_some_iff.mp h
    rw [hlast, List.dropLast_concat]
  next => exact .inl rfl

theorem dropReturn_of_getLast?_ne (h : cs.getLast? ≠ some '\r') : dropReturn cs = cs := if_neg h

private theorem trim_dropReturn (cs : List Char) : trim (dropReturn cs) = trim cs := by
  rcases dropReturn_eq_or cs with h | h
  · rw [h]
  · obtain ⟨before, behind, hb, he, hcs⟩ := exists_trim (dropReturn cs)
    have hblank : AllBlank (behind ++ ['\r']) := by
      intro c hc
      rcases List.mem_append.mp hc with hc | hc
      · exact he c hc
      · exact List.mem_singleton.mp hc ▸ isBlank_return
    refine (trim_eq_iff.mpr ⟨trimmed_trim _, before, behind ++ ['\r'], hb, hblank, ?_⟩).symm
    rw [← List.append_assoc, ← hcs, ← h]

private theorem not_mem_dropReturn (h : '\n' ∉ cs) : '\n' ∉ dropReturn cs := by
  rcases dropReturn_eq_or cs with hd | hd
  · rwa [hd]
  · rw [hd] at h
    exact fun hc => h (List.mem_append_left _ hc)

private theorem not_mem_of_mem_linesFrom {held : List Char} (hheld : '\n' ∉ held)
    (hl : l ∈ linesFrom held cs) : '\n' ∉ l := by
  induction cs generalizing held with
  | nil =>
    cases held with
    | nil => simp [linesFrom] at hl
    | cons c held =>
      have hrev : l = (c :: held).reverse := by simpa [linesFrom] using hl
      rwa [hrev, List.mem_reverse]
  | cons c cs ih =>
    rw [linesFrom] at hl
    split at hl
    next =>
      rcases List.mem_cons.mp hl with rfl | hl
      · exact not_mem_dropReturn (by rwa [List.mem_reverse])
      · exact ih List.not_mem_nil hl
    next hc => exact ih (by simp [hheld, Ne.symm hc]) hl

/-- A line of a text holds no line feed. -/
theorem not_mem_of_mem_lines (hl : l ∈ lines cs) : '\n' ∉ l :=
  not_mem_of_mem_linesFrom List.not_mem_nil hl

/-- What stands in front of a line feed is one line. -/
private theorem linesFrom_append_feed (held cs : List Char) (h : '\n' ∉ l) :
    linesFrom held (l ++ '\n' :: cs) = dropReturn (held.reverse ++ l) :: lines cs := by
  induction l generalizing held with
  | nil => simp [linesFrom, lines]
  | cons c l ih =>
    obtain ⟨hc, hl⟩ := not_or.mp (mt List.mem_cons.mpr h)
    rw [List.cons_append, linesFrom, if_neg (Ne.symm hc), ih (c :: held) hl]
    simp

/-- What stands behind the last line feed is one line if it is anything. -/
private theorem linesFrom_of_not_mem (held : List Char) (h : '\n' ∉ l) :
    linesFrom held l = if held.reverse ++ l = [] then [] else [held.reverse ++ l] := by
  induction l generalizing held with
  | nil => cases held <;> simp [linesFrom]
  | cons c l ih =>
    obtain ⟨hc, hl⟩ := not_or.mp (mt List.mem_cons.mpr h)
    rw [linesFrom, if_neg (Ne.symm hc), ih (c :: held) hl]
    simp

/-- Lines with a line feed behind each make a text that falls into them again. -/
theorem lines_flatMap_feed {ls : List (List Char)} (h : ∀ l ∈ ls, '\n' ∉ l) :
    lines (ls.flatMap (· ++ ['\n'])) = ls.map dropReturn := by
  induction ls with
  | nil => rfl
  | cons l ls ih =>
    obtain ⟨hl, hls⟩ := List.forall_mem_cons.mp h
    rw [List.flatMap_cons, List.append_assoc, List.singleton_append, lines,
      linesFrom_append_feed [] _ hl, ih hls]
    rfl

/-- A line feed behind a text put together from lines stands behind the last of them. -/
theorem intercalate_append_feed {ls : List (List Char)} (h : ls ≠ []) :
    ['\n'].intercalate ls ++ ['\n'] = ls.flatMap (· ++ ['\n']) := by
  induction ls with
  | nil => exact absurd rfl h
  | cons l ls ih =>
    cases ls with
    | nil => simp
    | cons l' ls =>
      rw [List.intercalate_cons_cons, List.append_assoc, ih (List.cons_ne_nil l' ls)]
      rfl

/-- Without their blanks at the ends, the lines of a text that was put together from lines are those
lines, up to an empty one at the end. -/
theorem map_trim_lines {ls : List (List Char)} (h : ∀ l ∈ ls, '\n' ∉ l) :
    ∃ rest, (∀ l ∈ rest, l = []) ∧
      ls.map trim = (lines (['\n'].intercalate ls)).map trim ++ rest := by
  induction ls with
  | nil => exact ⟨[], by simp, rfl⟩
  | cons l ls ih =>
    have hl := h l List.mem_cons_self
    obtain ⟨rest, hrest, heq⟩ := ih fun l' hl' => h l' (List.mem_cons_of_mem l hl')
    -- only the last line has no line feed behind it
    cases ls with
    | nil =>
      have hlast := linesFrom_of_not_mem [] hl
      rw [List.reverse_nil, List.nil_append] at hlast
      rw [List.intercalate_singleton, lines, hlast]
      split
      next hempty => exact ⟨[[]], by simp, by rw [hempty]; rfl⟩
      next => exact ⟨[], by simp, rfl⟩
    | cons l' ls =>
      have hfirst := linesFrom_append_feed [] (['\n'].intercalate (l' :: ls)) hl
      rw [List.reverse_nil, List.nil_append] at hfirst
      refine ⟨rest, hrest, ?_⟩
      rw [List.intercalate_cons_cons, List.append_assoc, List.singleton_append, lines, hfirst,
        List.map_cons, heq, List.map_cons, trim_dropReturn, List.cons_append]

end UndoJournal.Text
