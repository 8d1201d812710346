import UndoJournal.Proofs.Outline.Reached
import UndoJournal.Proofs.Text.Natural
import UndoJournal.Proofs.Timeline.Sequence
import UndoJournal.Outline.Picture

/-!
# The picture of an outline

What is written of an outline is one line for each row that can be seen, in order, and one marker.
The marker and the icons are decided by hidden numbers that also count the entries of collapsed
runs, while the lines are numbered by what can be seen. **The picture says what the outline is**
nevertheless (`Outline.pictured_of_reached`): the marker is behind the current row
(`Outline.MarkedBehind`), the entries at or before the selected one are those shown as applied, and
an expander is open exactly if the rest of its run is listed below it (`Outline.Led`).
-/

namespace UndoJournal

/-! ### Lines -/

/-- A number is set flush right: there is a digit at the last place of the width. -/
private theorem Text.exists_digit_padded (width n : Nat) (rest : String) (h : 0 < width) :
    ∃ c, (padded width n ++ rest).toList[width - 1]? = some c ∧ c.isDigit = true := by
  have htext : (toString n).toList = Nat.toDigits 10 n := Nat.toList_repr
  have hpos : 0 < (Nat.toDigits 10 n).length := List.length_pos_iff.mpr Nat.toDigits_ne_nil
  have hlen : (toString n).length = (Nat.toDigits 10 n).length := by
    rw [← String.length_toList, htext]
  have hlt : width - 1 - (width - (Nat.toDigits 10 n).length) < (Nat.toDigits 10 n).length := by
    omega
  refine ⟨(Nat.toDigits 10 n)[width - 1 - (width - (Nat.toDigits 10 n).length)], ?_,
    Nat.isDigit_of_mem_toDigits (by decide) (by decide) (List.getElem_mem hlt)⟩
  simp only [padded, String.toList_append, String.toList_ofList, htext, hlen, List.append_assoc]
  rw [List.getElem?_append_right (by rw [List.length_replicate]; omega), List.length_replicate,
    List.getElem?_append_left hlt, List.getElem?_eq_getElem hlt]

/-- The text of the marker, whatever the style. -/
def PictureLine.markerText : String := "    ─── current ───"

/-- **No row looks like the marker.** -/
theorem PictureLine.text_ne_markerText (guides : Guides) {line : PictureLine} (h : line ≠ .marker) :
    line.text guides ≠ markerText := by
  intro heq
  have hblank : markerText.toList[2]? = some ' ' := by decide
  have hdigit : ∃ c, (line.text guides).toList[2]? = some c ∧ c.isDigit = true := by
    cases line with
    | marker => exact absurd rfl h
    | sentinel index label =>
      rw [text, String.append_assoc]
      exact Text.exists_digit_padded 3 index _ (by decide)
    | entry index applied lead label =>
      simp only [text, String.append_assoc]
      exact Text.exists_digit_padded 3 index _ (by decide)
  obtain ⟨c, hc, hisDigit⟩ := hdigit
  rw [heq, hblank] at hc
  obtain rfl := Option.some.inj hc
  cases hisDigit

namespace Outline

variable {o : Outline} {row row' : Row} {index group : Nat} {a : Address}

/-! ### What a picture says -/

/-- An entry counts as applied: it stands at or before the selected one. -/
def Applies (o : Outline) (a : Address) : Prop :=
  ∃ b m n, o.selectedPosition? = some (.on b) ∧ o.shown.ordinal (.on a) = .ok m ∧
    o.shown.ordinal (.on b) = .ok n ∧ m ≤ n

/-- What stands in front of the label of an entry's row is what the run looks like. -/
structure Led (o : Outline) (index : Nat) (a : Address) (run : Run) (lead : Lead) : Prop where
  /-- An entry behind the head is connected with it, and the last one ends the line. -/
  child : ∀ i, a.child = some i → lead = .guide (i + 1 = run.rest.length)
  /-- A head has an expander exactly if there are entries behind it. -/
  bare : a.child = none → run.rest = [] → lead = .bare
  /-- The expander is open exactly if those entries are listed below it. -/
  expander : a.child = none → run.rest ≠ [] → ∃ isOpen, lead = .expander isOpen ∧
    (isOpen = true ↔ ∀ i < run.rest.length,
      o.visible[index + 1 + i]?.map Row.position = some (.on (.ofChild a.group i))) ∧
    (isOpen = false ↔ ∀ row ∈ o.visible, ∀ i, row.position ≠ .on (.ofChild a.group i))

/-- The line of a row that can be seen. -/
structure Drawn (o : Outline) (index : Nat) (row : Row) (text : String) : Prop where
  sentinel : row.position = .start → text = Text.padded 3 index ++ "   " ++ o.unchangedLabel
  entry : ∀ a, row.position = .on a → ∃ applied lead run,
    text = Text.padded 3 index ++ " " ++ (if applied then "↶" else "↷") ++ " " ++
      lead.text o.guides ++ row.label ∧
    (applied = true ↔ o.Applies a) ∧ o.shown.runs[a.group]? = some run ∧ o.Led index a run lead

/-- The marker is behind that many rows: behind the current one, or in front if that is the
sentinel, which cannot be seen. -/
def MarkedBehind (o : Outline) : Nat → Prop
  | 0 => o.marked = .start ∧ o.showSentinel = false
  | index + 1 => o.visible[index]?.map Row.position = some o.marked

/-- The picture says what the outline is. -/
structure Pictured (o : Outline) : Prop where
  length : o.renderLines.length = o.visible.length + 1
  once : o.renderLines.count PictureLine.markerText = 1
  lines : ∃ above below, o.renderLines = above ++ PictureLine.markerText :: below ∧
    o.MarkedBehind above.length ∧ ∀ index row, o.visible[index]? = some row →
      ∃ text, (above ++ below)[index]? = some text ∧ o.Drawn index row text

/-! ### Hidden numbers -/

/-- The number of a row is that of its position. -/
private theorem ordinal_of_mem_rows (h : row ∈ o.rows) :
    o.shown.ordinal row.position = .ok row.ordinal := by
  obtain ⟨i, hi⟩ := List.getElem?_of_mem h
  cases i with
  | zero =>
    obtain rfl : o.sentinel = row := by simpa [rows] using hi
    rfl
  | succ i =>
    rw [getElem?_rows_succ] at hi
    obtain ⟨p, hp, rfl⟩ := Option.map_eq_some_iff.mp hi
    exact Timeline.positionAt?_eq_some_iff.mp (Timeline.lists_of_getElem? hp).position

/-- The current number is that of the marked position. -/
private theorem ordinal_marked (o : Outline) : o.shown.ordinal o.marked = .ok o.currentOrdinal := by
  unfold marked selectedPosition? currentOrdinal
  rcases hfind : o.selected.bind o.row? with _ | row
  · rfl
  · obtain ⟨key, -, hrow⟩ := Option.bind_eq_some_iff.mp hfind
    exact ordinal_of_mem_rows (List.mem_of_find?_eq_some hrow)

/-- A row has the current number exactly if it is at the marked position. -/
private theorem ordinal_eq_currentOrdinal_iff (h : row ∈ o.rows) :
    row.ordinal = o.currentOrdinal ↔ row.position = o.marked := by
  have hrow := ordinal_of_mem_rows h
  constructor
  · intro heq
    rw [heq] at hrow
    exact Timeline.eq_of_ordinal_eq hrow o.ordinal_marked
  · intro heq
    rw [heq, o.ordinal_marked] at hrow
    exact (Except.ok.inj hrow).symm

/-- **The icon of an entry** is decided by its number. -/
theorem ordinal_le_currentOrdinal_iff (h : row ∈ o.rows) (hposition : row.position = .on a) :
    row.ordinal ≤ o.currentOrdinal ↔ o.Applies a := by
  have hrow := ordinal_of_mem_rows h
  have hmarked := o.ordinal_marked
  rw [hposition] at hrow
  constructor
  · intro hle
    rcases hb : o.marked with _ | b
    · -- nothing is at or before the start
      rw [hb] at hmarked
      obtain ⟨-, -, -, hpos⟩ := Timeline.ordinal_on_eq_ok_iff.mp hrow
      have hzero : 0 = o.currentOrdinal := Except.ok.inj hmarked
      have hreach := a.reach_pos
      omega
    · exact ⟨b, _, _, selectedPosition?_of_marked hb, hrow, hb ▸ hmarked, hle⟩
  · rintro ⟨b, m, n, hselected, hm, hn, hle⟩
    have hb : o.marked = .on b := by rw [marked, hselected]; rfl
    rw [hb, hn] at hmarked
    obtain rfl : m = row.ordinal := Except.ok.inj (hm.symm.trans hrow)
    obtain rfl : n = o.currentOrdinal := Except.ok.inj hmarked
    exact hle

/-! ### Expanders -/

/-- No two rows that can be seen share a position. -/
private theorem nodup_map_position_visible (hn : o.shown.Numbered) :
    (o.visible.map Row.position).Nodup := by
  have hkeys : (o.visible.map Row.key).Nodup := (nodup_keys hn).sublist (List.filter_sublist.map _)
  refine (List.nodup_map_iff_inj_on hkeys.of_map).mpr fun row hrow row' hrow' hposition => ?_
  have hmem := (List.mem_filter.mp hrow).1
  have hmem' := (List.mem_filter.mp hrow').1
  exact eq_of_key_eq hn hmem hmem' (key_eq_of_position_eq hmem hmem' hposition)

/-- The numbered list in front of an element, the element, and what is behind it. -/
private theorem zipIdx_eq_of_getElem? {α : Type} {l : List α} {x : α} {i : Nat}
    (h : l[i]? = some x) :
    l.zipIdx = (l.take i).zipIdx ++ (x, i) :: (l.drop (i + 1)).zipIdx (i + 1) := by
  obtain ⟨hlt, hget⟩ := List.getElem?_eq_some_iff.mp h
  conv => lhs; rw [← List.take_append_drop i l, ← List.getElem_cons_drop hlt, hget]
  rw [List.zipIdx_append, List.zipIdx_cons, Nat.zero_add, List.length_take_of_le hlt.le]

/-- Of each run the head is laid out, and right below it the rest while the run is expanded. -/
private theorem exists_layout_eq {run : Run} (hrun : o.shown.runs[group]? = some run) :
    ∃ above below, o.layout = above ++ .on (.ofHead group) :: ((if o.isExpanded group then
      (List.range run.rest.length).map fun i => .on (.ofChild group i) else []) ++ below) := by
  rw [layout, zipIdx_eq_of_getElem? hrun, List.flatMap_append, List.flatMap_cons,
    ← List.append_assoc]
  exact ⟨_, _, rfl⟩

/-- **The entries behind a head are listed right below it while its run is expanded.** -/
theorem position_below_head (hn : o.shown.Numbered) {run : Run}
    (hrun : o.shown.runs[group]? = some run) (hexp : o.isExpanded group = true)
    (hhead : o.visible[index]?.map Row.position = some (.on (.ofHead group))) {i : Nat}
    (hi : i < run.rest.length) :
    o.visible[index + 1 + i]?.map Row.position = some (.on (.ofChild group i)) := by
  obtain ⟨above, below, hlayout⟩ := exists_layout_eq hrun
  rw [hexp, if_pos rfl] at hlayout
  have hnodup := nodup_map_position_visible hn
  rw [← List.getElem?_map, map_position_visible, hlayout] at hhead ⊢
  rw [map_position_visible, hlayout] at hnodup
  -- the head is laid out once, so it is behind what is above it
  have hplace : index = above.length := by
    refine (List.getElem?_inj (List.getElem?_eq_some_iff.mp hhead).1 hnodup).mp (hhead.trans ?_)
    rw [List.getElem?_append_right (Nat.le_refl _), Nat.sub_self]
    rfl
  rw [hplace, List.getElem?_append_right (by omega),
    show above.length + 1 + i - above.length = i + 1 by omega, List.getElem?_cons_succ,
    List.getElem?_append_left (by simpa using hi), List.getElem?_map, List.getElem?_range hi]
  rfl

/-- A run is expanded exactly if the entries behind its head are listed right below it. -/
private theorem isExpanded_eq_true_iff (hn : o.shown.Numbered) {run : Run}
    (hrun : o.shown.runs[group]? = some run) (hlen : 0 < run.rest.length)
    (hhead : o.visible[index]?.map Row.position = some (.on (.ofHead group))) :
    o.isExpanded group = true ↔ ∀ i < run.rest.length,
      o.visible[index + 1 + i]?.map Row.position = some (.on (.ofChild group i)) := by
  constructor
  · exact fun hexp i hi => position_below_head hn hrun hexp hhead hi
  · intro hall
    obtain ⟨row, hrow, hposition⟩ := Option.map_eq_some_iff.mp (hall 0 hlen)
    exact isExpanded_of_mem_visible (List.mem_of_getElem? hrow) hposition

/-- A run is collapsed exactly if none of the entries behind its head is listed at all. -/
private theorem isExpanded_eq_false_iff {run : Run} (hrun : o.shown.runs[group]? = some run)
    (hlen : 0 < run.rest.length) :
    o.isExpanded group = false ↔
      ∀ row ∈ o.visible, ∀ i, row.position ≠ .on (.ofChild group i) := by
  constructor
  · intro hexp row hrow i hi
    exact Bool.false_ne_true (hexp.symm.trans (isExpanded_of_mem_visible hrow hi))
  · intro hnone
    by_contra hexp
    obtain ⟨row, hrow, hposition⟩ :=
      exists_visible_of_isExpanded hrun (Bool.eq_true_of_not_eq_false hexp) hlen
    exact hnone row hrow 0 hposition

/-- **What stands in front of a label** is what the run looks like. -/
theorem led_leadOf (hn : o.shown.Numbered) (hrow : o.visible[index]? = some row)
    (hposition : row.position = .on a) :
    ∃ run, o.shown.runs[a.group]? = some run ∧ o.Led index a run (o.leadOf row) := by
  have hlead : o.leadOf row = if a.isChild then .guide row.endsRun else
      if row.childCount = 0 then .bare else .expander (o.isExpanded a.group) := by
    rw [leadOf, hposition]
  obtain rfl | ⟨p, hp, n, rfl⟩ :=
    cases_of_mem_rows (List.mem_filter.mp (List.mem_of_getElem? hrow)).1
  · cases hposition
  have haddress : p.address = a := Position.on.inj hposition
  obtain ⟨run, hrun, hcount⟩ := Timeline.childCount_of_mem_placed hp
  have hends := Timeline.endsRun_iff_of_mem_placed hp
  rw [haddress] at hrun hcount hends
  rw [hlead]
  -- a head shows whether its run is open, and any other entry whether it ends the run
  obtain ⟨group, _ | i⟩ := a
  · have hhead : (Address.mk group none).isChild = false := rfl
    have hcount : (Row.ofPlaced p n).childCount = run.rest.length := hcount
    rw [hhead, if_neg Bool.false_ne_true, hcount]
    refine ⟨run, hrun, nofun, fun _ hrest => by rw [hrest]; rfl, fun _ hrest => ?_⟩
    have hlen : 0 < run.rest.length := List.length_pos_iff.mpr hrest
    rw [if_neg (Nat.ne_of_gt hlen)]
    refine ⟨_, rfl, isExpanded_eq_true_iff hn hrun hlen ?_, isExpanded_eq_false_iff hrun hlen⟩
    rw [hrow, Option.map_some, hposition]
    rfl
  · refine ⟨run, hrun, fun j hj => ?_, nofun, nofun⟩
    obtain rfl : i = j := Option.some.inj hj
    refine congrArg Lead.guide (Bool.eq_iff_iff.mpr (hends.trans ?_))
    rw [decide_eq_true_iff]
    constructor
    · rintro ⟨run', hrun', -, hreach⟩
      obtain rfl : run = run' := Option.some.inj (hrun.symm.trans hrun')
      exact Nat.succ.inj hreach
    · exact fun hlast => ⟨run, hrun, rfl, congrArg Nat.succ hlast⟩

/-! ### Lines -/

/-- The lines of rows, without the marker. -/
def lines (o : Outline) : List PictureLine := o.visible.zipIdx.map fun q => o.lineOf q.1 q.2

/-- Where no row is the current one, there is no marker. -/
private theorem flatMap_unmarked {q : List (Row × Nat)}
    (h : ∀ row index, (row, index) ∈ q → row.ordinal ≠ o.currentOrdinal) :
    (q.flatMap fun (r, index) =>
      o.lineOf r index :: if r.ordinal = o.currentOrdinal then [PictureLine.marker] else []) =
      q.map fun r => o.lineOf r.1 r.2 := by
  rw [List.map_eq_flatMap]
  refine List.flatMap_congr fun ⟨row, index⟩ hmem => ?_
  dsimp only
  rw [if_neg (h row index hmem)]

/-- What is selected can be seen, or it is the sentinel. -/
def InPicture (o : Outline) : Prop := o.selected = some .sentinel ∨ o.InSight

/-- Where the start is marked, the sentinel can be seen or it is not wanted. -/
private theorem exists_visible_start (h : o.marked = .start) :
    (∃ (index : Nat) (row : Row), o.visible[index]? = some row ∧ row.position = o.marked) ∨
      o.marked = .start ∧ o.showSentinel = false := by
  rcases hsentinel : o.showSentinel with _ | _
  · exact .inr ⟨h, rfl⟩
  · have hmem : o.sentinel ∈ o.visible := List.mem_filter.mpr ⟨List.mem_cons_self, hsentinel⟩
    obtain ⟨index, hindex⟩ := List.getElem?_of_mem hmem
    exact .inl ⟨index, _, hindex, h.symm⟩

/-- The marked position has a row that can be seen, or it is that of the sentinel. -/
private theorem InPicture.marked (h : o.InPicture) (hn : o.shown.Numbered) :
    (∃ (index : Nat) (row : Row), o.visible[index]? = some row ∧ row.position = o.marked) ∨
      o.marked = .start ∧ o.showSentinel = false := by
  rcases hselected : o.selected with _ | _ | id
  · exact exists_visible_start (by rw [Outline.marked, selectedPosition?, hselected]; rfl)
  · have hmem : o.sentinel ∈ o.rows := List.mem_cons_self
    have hposition := (selectedPosition?_eq_iff hn hmem).mpr hselected
    exact exists_visible_start (by rw [Outline.marked, hposition]; rfl)
  · obtain hsentinel | hsight := h
    · cases hselected.symm.trans hsentinel
    · obtain ⟨row, hrow, hkey⟩ := hsight _ hselected
      obtain ⟨index, hindex⟩ := List.getElem?_of_mem hrow
      have hposition := (selectedPosition?_eq_iff hn (List.mem_filter.mp hrow).1).mpr
        (hselected.trans (congrArg some hkey.symm))
      exact .inl ⟨index, row, hindex, by rw [Outline.marked, hposition]; rfl⟩

/-- Only the sentinel is at the start, and it can be seen if it is wanted. -/
private theorem showSentinel_of_mem_visible (h : row ∈ o.visible)
    (hposition : row.position = .start) :
    o.showSentinel = true := by
  obtain ⟨hmem, hvisible⟩ := List.mem_filter.mp h
  obtain rfl | ⟨p, -, n, rfl⟩ := cases_of_mem_rows hmem
  · exact hvisible
  · cases hposition

/-- A row that can be seen has the current number exactly if it is at the marked position. -/
private theorem current_iff_of_visible (hrow : o.visible[index]? = some row) :
    row.ordinal = o.currentOrdinal ↔ row.position = o.marked :=
  ordinal_eq_currentOrdinal_iff (List.mem_filter.mp (List.mem_of_getElem? hrow)).1

/-- There is one current row at most. -/
private theorem index_unique_of_current (hn : o.shown.Numbered) {index' : Nat}
    (hrow : o.visible[index]? = some row) (hrow' : o.visible[index']? = some row')
    (h : row.ordinal = o.currentOrdinal) (h' : row'.ordinal = o.currentOrdinal) :
    index' = index := by
  refine (List.getElem?_inj ?_ (nodup_map_position_visible hn)).mp ?_
  · rw [List.length_map]
    exact (List.getElem?_eq_some_iff.mp hrow').1
  · rw [List.getElem?_map, List.getElem?_map, hrow, hrow', Option.map_some, Option.map_some,
      (current_iff_of_visible hrow).mp h, (current_iff_of_visible hrow').mp h']

/-- **The marker is right behind the current row** where that can be seen. -/
theorem picture_of_current (hn : o.shown.Numbered) (hrow : o.visible[index]? = some row)
    (hposition : row.position = o.marked) :
    ∃ above below, o.picture = above ++ .marker :: below ∧ above ++ below = o.lines ∧
      above.length = index + 1 := by
  have hcurrent := (current_iff_of_visible hrow).mpr hposition
  have hnone : ¬ (o.currentOrdinal = 0 ∧ (!o.showSentinel) = true) := by
    rintro ⟨hzero, hhidden⟩
    have hstart : o.marked = .start :=
      Timeline.eq_of_ordinal_eq (hzero ▸ o.ordinal_marked) rfl
    have hshow := showSentinel_of_mem_visible (List.mem_of_getElem? hrow) (hposition.trans hstart)
    rw [hshow] at hhidden
    cases hhidden
  have hsplit := zipIdx_eq_of_getElem? hrow
  -- the rows above and below the current one have other places, so they get no marker
  have hother : ∀ row' index', (row', index') ∈ o.visible.zipIdx → index' ≠ index →
      row'.ordinal ≠ o.currentOrdinal := fun row' index' hmem hne heq =>
    hne (index_unique_of_current hn hrow (List.mk_mem_zipIdx_iff_getElem?.mp hmem) hcurrent heq)
  have habove := flatMap_unmarked (o := o) (q := (o.visible.take index).zipIdx)
    fun row' index' hmem => hother row' index'
      (hsplit ▸ List.mem_append_left _ hmem)
      (Nat.ne_of_lt (by have := List.snd_lt_of_mem_zipIdx hmem; simp at this; omega))
  have hbelow := flatMap_unmarked (o := o) (q := (o.visible.drop (index + 1)).zipIdx (index + 1))
    fun row' index' hmem => hother row' index'
      (hsplit ▸ List.mem_append_right _ (List.mem_cons_of_mem _ hmem))
      (Nat.ne_of_gt (List.le_snd_of_mem_zipIdx hmem))
  refine ⟨(o.visible.take index).zipIdx.map (fun r => o.lineOf r.1 r.2) ++ [o.lineOf row index],
    ((o.visible.drop (index + 1)).zipIdx (index + 1)).map fun r => o.lineOf r.1 r.2, ?_, ?_, ?_⟩
  · rw [picture, if_neg hnone, hsplit, List.flatMap_append, List.flatMap_cons, habove, hbelow]
    dsimp only
    rw [if_pos hcurrent]
    simp
  · rw [lines, hsplit]
    simp
  · have hlen : index ≤ o.visible.length := (List.getElem?_eq_some_iff.mp hrow).1.le
    rw [List.length_append, List.length_map, List.length_zipIdx, List.length_take_of_le hlen]
    rfl

/-- **The marker is in front** where it belongs behind a sentinel that cannot be seen. -/
theorem picture_of_hidden (hmarked : o.marked = .start) (hhidden : o.showSentinel = false) :
    o.picture = .marker :: o.lines := by
  have hzero : 0 = o.currentOrdinal := by
    have hordinal := o.ordinal_marked
    rw [hmarked] at hordinal
    exact Except.ok.inj hordinal
  rw [picture, if_pos ⟨hzero.symm, by rw [hhidden]; rfl⟩, flatMap_unmarked]
  · rfl
  · intro row index hmem hcurrent
    have hrow := List.mk_mem_zipIdx_iff_getElem?.mp hmem
    have hseen := showSentinel_of_mem_visible (List.mem_of_getElem? hrow)
      (((current_iff_of_visible hrow).mp hcurrent).trans hmarked)
    cases hhidden.symm.trans hseen

/-- The picture has one marker, which stands where it belongs. -/
private theorem exists_picture_eq (hn : o.shown.Numbered) (h : o.InPicture) :
    ∃ above below, o.picture = above ++ .marker :: below ∧ above ++ below = o.lines ∧
      o.MarkedBehind above.length := by
  obtain ⟨index, row, hrow, hposition⟩ | ⟨hmarked, hhidden⟩ := h.marked hn
  · obtain ⟨above, below, hpicture, hlines, hlength⟩ := picture_of_current hn hrow hposition
    refine ⟨above, below, hpicture, hlines, ?_⟩
    rw [hlength]
    exact (congrArg (Option.map Row.position) hrow).trans (congrArg some hposition)
  · exact ⟨[], o.lines, picture_of_hidden hmarked hhidden, rfl, hmarked, hhidden⟩

/-- A row that can be seen is drawn as what it is. -/
private theorem drawn_lineOf (hn : o.shown.Numbered) (hrow : o.visible[index]? = some row) :
    o.Drawn index row ((o.lineOf row index).text o.guides) := by
  have hmem : row ∈ o.rows := (List.mem_filter.mp (List.mem_of_getElem? hrow)).1
  obtain rfl | ⟨p, hp, n, rfl⟩ := cases_of_mem_rows hmem
  · exact ⟨fun _ => rfl, nofun⟩
  · refine ⟨nofun, fun a hposition => ?_⟩
    obtain ⟨run, hrun, hled⟩ := led_leadOf hn hrow hposition
    refine ⟨_, _, run, rfl, ?_, hrun, hled⟩
    rw [decide_eq_true_iff]
    exact ordinal_le_currentOrdinal_iff hmem hposition

private theorem lineOf_ne_marker (o : Outline) (row : Row) (index : Nat) :
    o.lineOf row index ≠ .marker := by
  unfold lineOf
  split <;> nofun

/-- **The picture says what the outline is**, while the selection is empty or can be seen; the
sentinel may be selected out of sight as well. -/
theorem pictured_of_reached (h : o.Reached) (hseen : o.InPicture) : o.Pictured := by
  have hn : o.shown.Numbered := h.grounded.numbered
  obtain ⟨above, below, hpicture, hlines, hmarked⟩ := exists_picture_eq hn hseen
  have hrender : o.renderLines = above.map (PictureLine.text o.guides) ++
      PictureLine.markerText :: below.map (PictureLine.text o.guides) := by
    rw [renderLines, hpicture, List.map_append, List.map_cons]
    rfl
  have hlength : above.length + below.length = o.visible.length := by
    rw [← List.length_append, hlines, lines, List.length_map, List.length_zipIdx]
  have hrows : ∀ part : List PictureLine, (∀ line ∈ part, line ∈ o.lines) →
      PictureLine.markerText ∉ part.map (PictureLine.text o.guides) := by
    intro part hsub hmem
    obtain ⟨line, hline, htext⟩ := List.mem_map.mp hmem
    obtain ⟨q, -, rfl⟩ := List.mem_map.mp (hsub line hline)
    exact PictureLine.text_ne_markerText o.guides (o.lineOf_ne_marker q.1 q.2) htext
  refine ⟨?_, ?_, above.map (PictureLine.text o.guides), below.map (PictureLine.text o.guides),
    hrender, by rwa [List.length_map], fun index row hrow => ⟨_, ?_, drawn_lineOf hn hrow⟩⟩
  · rw [hrender, List.length_append, List.length_cons, List.length_map, List.length_map, ← hlength]
    rfl
  · rw [hrender, List.count_append, List.count_cons_self,
      List.count_eq_zero.mpr (hrows above fun _ hline => hlines ▸ List.mem_append_left _ hline),
      List.count_eq_zero.mpr (hrows below fun _ hline => hlines ▸ List.mem_append_right _ hline)]
  · rw [← List.map_append, hlines, lines, List.getElem?_map, List.getElem?_map,
      List.getElem?_zipIdx, hrow]
    simp

/-- Two strokes and an erasure, of which the user opened the strokes and selected the first: the
second stroke and the erasure can be redone, and so they can while the strokes are closed again. -/
theorem pictured_of_reached_strokes :
    let t := ((((Timeline.empty true).append ⟨⟨0⟩, "stroke", "one"⟩).2.append
      ⟨⟨1⟩, "stroke", "two"⟩).2.append ⟨⟨2⟩, "erasure", "gone"⟩).2
    let o := ((empty {} .rounded 0).rebuild t).outline
    ∃ r r' r'', o.respond (.expand 1) = .ok (true, r) ∧
      r.outline.respond (.click 1) = .ok (false, r') ∧
      r'.outline.respond (.collapse 1) = .ok (true, r'') ∧
      r'.outline.Pictured ∧ r''.outline.Pictured ∧
      r'.outline.renderLines = ["  0   [Unchanged]", "  1 ↶ ▾ one", "    ─── current ───",
        "  2 ↷   ╰── two", "  3 ↷ gone"] ∧
      r''.outline.renderLines = ["  0   [Unchanged]", "  1 ↶ ▸ one", "    ─── current ───",
        "  2 ↷ gone"] := by
  intro t o
  have hnone : Timeline.Made true [] (.empty true) := .empty
  have hmade := ((hnone.append ⟨⟨0⟩, "stroke", "one"⟩).append ⟨⟨1⟩, "stroke", "two"⟩).append
    ⟨⟨2⟩, "erasure", "gone"⟩
  have hreached : o.Reached := .rebuild (.empty {} .rounded 0) hmade
  have hsight : o.InSight := nofun
  have hstep : ∀ {o : Outline} {g changed r}, o.Reached ∧ o.InSight →
      o.respond g = .ok (changed, r) → r.outline.Reached ∧ r.outline.InSight := fun h hr =>
    ⟨.respond h.1 hr, (h.2.of_respond h.1.grounded.numbered hr).1⟩
  refine ⟨_, _, _, rfl, rfl, rfl, ?_, ?_, by decide +kernel, by decide +kernel⟩
  · have h := hstep (hstep ⟨hreached, hsight⟩ (g := .expand 1) rfl) (g := .click 1) rfl
    exact pictured_of_reached h.1 (.inr h.2)
  · have h := hstep (hstep (hstep ⟨hreached, hsight⟩ (g := .expand 1) rfl) (g := .click 1) rfl)
      (g := .collapse 1) rfl
    exact pictured_of_reached h.1 (.inr h.2)

end Outline

end UndoJournal
