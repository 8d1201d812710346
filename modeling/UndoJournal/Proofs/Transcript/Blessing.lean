import UndoJournal.Proofs.Files.Persistence
import UndoJournal.Proofs.Text.Lines
import UndoJournal.Transcript

/-!
# Checks after a blessing

A check that blesses writes lines which a later check reads and compares. The lines that are read
are the lines that were written if none of them holds a line feed, ends with a carriage return or is
a comment (`Transcript.Plain`), with **one exception: of no lines at all an empty line is
remembered**, since a line feed ends the last line also where there is none
(`Transcript.remembered`).

Hence a check agrees with what was blessed (`Transcript.Finding.Agrees`) for every transcript,
unless no lines at all were blessed: then the empty transcript fails, and the one of an empty line
passes. What is remembered is never empty, so that it plays no part whether a missing golden
transcript is to fail.
-/

namespace UndoJournal.Transcript

/-- A line that is read again as it was written. -/
structure Plain (line : String) : Prop where
  /-- It is one line. -/
  noFeed : '\n' ∉ line.toList
  /-- It does not end with what belongs to a line end. -/
  noReturn : line.toList.getLast? ≠ some '\r'
  /-- It is no comment. -/
  noHash : line.toList.head? ≠ some '#'

instance : DecidablePred Plain := fun line =>
  decidable_of_iff
    ('\n' ∉ line.toList ∧ line.toList.getLast? ≠ some '\r' ∧ line.toList.head? ≠ some '#')
    ⟨fun h => ⟨h.1, h.2.1, h.2.2⟩, fun h => ⟨h.noFeed, h.noReturn, h.noHash⟩⟩

/-- The lines that a golden transcript keeps of those that were blessed. -/
def remembered (lines : List String) : List String := if lines = [] then [""] else lines

variable {lines actual expected xs ys : List String} {base scenario : String}
  {files written : Files} {found : Finding} {mode : Mode} {enforce : Bool} {i : Nat}

private theorem remembered_of_ne_nil (h : lines ≠ []) : remembered lines = lines := if_neg h

private theorem remembered_ne_nil (lines : List String) : remembered lines ≠ [] := by
  unfold remembered
  split
  next => exact List.cons_ne_nil "" []
  next h => exact h

private theorem plain_of_mem_remembered (h : ∀ line ∈ lines, Plain line) :
    ∀ line ∈ remembered lines, Plain line := by
  rcases eq_or_ne lines [] with rfl | hne
  · decide
  · rwa [remembered_of_ne_nil hne]

/-! ### Writing and reading the file -/

/-- In the text of a golden transcript a line feed stands behind the comment line and behind each
line that it keeps. -/
private theorem toList_encode (lines : List String) :
    (encode lines).toList =
      ((header :: remembered lines).map String.toList).flatMap (· ++ ['\n']) := by
  have hfeed : "\n".toList = ['\n'] := rfl
  have hlines : (Text.joinLines lines).toList ++ ['\n'] =
      ((remembered lines).map String.toList).flatMap (· ++ ['\n']) := by
    rw [Text.joinLines, String.toList_intercalate, hfeed]
    rcases eq_or_ne lines [] with rfl | hne
    · rfl
    · rw [remembered_of_ne_nil hne, Text.intercalate_append_feed (by simpa using hne)]
  rw [encode, String.toList_append, String.toList_append, String.toList_append, hfeed,
    List.append_assoc, hlines, List.map_cons, List.flatMap_cons]

private theorem map_dropReturn (h : ∀ line ∈ lines, Plain line) :
    (lines.map String.toList).map Text.dropReturn = lines.map String.toList := by
  rw [List.map_map]
  refine List.map_congr_left fun line hline => ?_
  exact Text.dropReturn_of_getLast?_ne (h line hline).noReturn

private theorem filter_hash (h : ∀ line ∈ lines, Plain line) :
    (lines.map String.toList).filter (fun line => line.head? != some '#') =
      lines.map String.toList := by
  refine List.filter_eq_self.mpr fun cs hcs => ?_
  obtain ⟨line, hline, rfl⟩ := List.mem_map.mp hcs
  exact bne_iff_ne.mpr (h line hline).noHash

/-- What is read of a golden transcript is what it keeps of the lines that were blessed. -/
private theorem decode_encode (h : ∀ line ∈ lines, Plain line) :
    decode (encode lines) = remembered lines := by
  have hplain := plain_of_mem_remembered h
  have hfeed : ∀ cs ∈ (header :: remembered lines).map String.toList, '\n' ∉ cs := by
    rw [List.map_cons, List.forall_mem_cons]
    refine ⟨by decide, fun cs hcs => ?_⟩
    obtain ⟨line, hline, rfl⟩ := List.mem_map.mp hcs
    exact (hplain line hline).noFeed
  -- the comment line is dropped, and nothing else
  have hheader : (Text.dropReturn header.toList).head? = some '#' := by decide
  rw [decode, toList_encode, Text.lines_flatMap_feed hfeed, List.map_cons, List.map_cons,
    map_dropReturn hplain, List.filter_cons_of_neg (by simp [hheader]), filter_hash hplain,
    List.map_map]
  simp [Function.comp_def]

private theorem load_of_write (h : ∀ line ∈ lines, Plain line)
    (hwrite : files.write (path base scenario) (encode lines) = (.ok (), written)) :
    load written (path base scenario) = .ok (remembered lines) := by
  simp only [load, Files.read_of_write hwrite, decode_encode h]

/-! ### Comparing -/

/-- Two lists are alike up to a place and differ there; where only one of them has ended, they
differ. -/
structure DivergesAt (xs ys : List String) (i : Nat) : Prop where
  /-- Before that place they are alike. -/
  before : ∀ j < i, xs[j]? = ys[j]?
  /-- There they differ. -/
  differs : xs[i]? ≠ ys[i]?

private theorem divergesAt_zero {x y : String} : DivergesAt (x :: xs) (y :: ys) 0 ↔ x ≠ y := by
  constructor
  · intro h heq
    exact h.differs (by simp [heq])
  · intro hne
    exact ⟨fun j hj => absurd hj (Nat.not_lt_zero j), by simpa using hne⟩

private theorem divergesAt_succ {x y : String} :
    DivergesAt (x :: xs) (y :: ys) (i + 1) ↔ x = y ∧ DivergesAt xs ys i := by
  constructor
  · intro h
    exact ⟨by simpa using h.before 0 (Nat.succ_pos i),
      fun j hj => by simpa using h.before (j + 1) (Nat.succ_lt_succ hj), by simpa using h.differs⟩
  · rintro ⟨rfl, h⟩
    refine ⟨fun j hj => ?_, by simpa using h.differs⟩
    cases j with
    | zero => rfl
    | succ j => simpa using h.before j (Nat.lt_of_succ_lt_succ hj)

private theorem firstDifference?_eq_some_iff :
    firstDifference? xs ys = some i ↔ DivergesAt xs ys i ∧ i < xs.length ∧ i < ys.length := by
  -- at the front the two differ, or the rest of both decides
  induction xs generalizing ys i with
  | nil => simp [firstDifference?]
  | cons x xs ih =>
    cases ys with
    | nil => simp [firstDifference?]
    | cons y ys =>
      rw [firstDifference?]
      split
      next heq =>
        cases i with
        | zero => simp [divergesAt_zero, heq]
        | succ i => simp [divergesAt_succ, heq, ih]
      next hne =>
        cases i with
        | zero => simp [divergesAt_zero, hne]
        | succ i => simp [divergesAt_succ, hne]

/-- Lists of one length without a place at which they differ are the same. -/
private theorem eq_iff_firstDifference?_eq_none :
    xs = ys ↔ firstDifference? xs ys = none ∧ xs.length = ys.length := by
  induction xs generalizing ys with
  | nil => cases ys <;> simp [firstDifference?]
  | cons x xs ih =>
    cases ys with
    | nil => simp [firstDifference?]
    | cons y ys =>
      rw [firstDifference?]
      split
      next heq => simp [heq, ih]
      next hne => simp [hne]

/-- Against lines that are there, what passes is what is the same. -/
private theorem compare_of_ne_nil (h : expected ≠ []) :
    compare mode actual expected =
      (if actual = expected then .pass else .fail, firstDifference? actual expected) := by
  unfold compare
  rw [if_neg (by simpa using h)]
  cases hfirst : firstDifference? actual expected with
  | some index => simp [eq_iff_firstDifference?_eq_none, hfirst]
  | none => simp [eq_iff_firstDifference?_eq_none, hfirst]

namespace Finding

/-- A finding tells how a transcript compares with the lines that were expected. -/
structure Compares (f : Finding) (scenario : String) (actual expected : List String) :
    Prop where
  /-- It is about that scenario. -/
  scenario_eq : f.scenario = scenario
  /-- It is about that transcript. -/
  actual_eq : f.actual = actual
  /-- It is about those lines. -/
  expected_eq : f.expected = expected
  /-- Passing is being the same. -/
  verdict_eq : f.verdict = if actual = expected then .pass else .fail
  /-- A mismatch is told exactly if the two differ before either has ended, and it is the first
  such place. -/
  mismatch_iff : ∀ i, f.mismatch = some i ↔
    DivergesAt actual expected i ∧ i < actual.length ∧ i < expected.length

/-- A finding is right about whether and where a transcript differs from the lines that were
blessed. -/
structure Agrees (f : Finding) (blessed : List String) : Prop where
  /-- It passes exactly the lines that were blessed. -/
  isPass_iff : f.isPass = true ↔ f.actual = blessed
  /-- A mismatch is told of a transcript that fails, and is the first place at which the two
  differ. -/
  divergesAt : ∀ i, f.mismatch = some i → f.isPass = false ∧ DivergesAt f.actual blessed i

variable {f : Finding}

private theorem compares_judge (h : expected ≠ []) :
    (judge mode scenario actual expected).Compares scenario actual expected := by
  rw [judge, compare_of_ne_nil h]
  exact ⟨rfl, rfl, rfl, rfl, fun _ => firstDifference?_eq_some_iff⟩

private theorem Compares.isPass_iff (h : f.Compares scenario actual expected) :
    f.isPass = true ↔ actual = expected := by
  rw [isPass, h.verdict_eq]
  split
  next heq => simp [heq]
  next hne => simp [hne]

private theorem Compares.isPass_eq_false (h : f.Compares scenario actual expected)
    (hi : f.mismatch = some i) : f.isPass = false := by
  obtain ⟨hdiverges, -⟩ := (h.mismatch_iff i).mp hi
  rw [← Bool.not_eq_true, h.isPass_iff]
  rintro rfl
  exact hdiverges.differs rfl

private theorem Compares.agrees (h : f.Compares scenario actual expected) : f.Agrees expected := by
  refine ⟨by rw [h.isPass_iff, h.actual_eq], fun i hi => ⟨h.isPass_eq_false hi, ?_⟩⟩
  rw [h.actual_eq]
  exact ((h.mismatch_iff i).mp hi).1

/-- What is told of a transcript that is compared with an empty line is right about no lines, but
for the two transcripts that are one of these. -/
private theorem Compares.agrees_nil_iff (h : f.Compares scenario actual [""]) :
    f.Agrees [] ↔ actual ≠ [] ∧ actual ≠ [""] := by
  constructor
  · intro hagrees
    have hiff : actual = [""] ↔ actual = [] := by
      rw [← h.isPass_iff, hagrees.isPass_iff, h.actual_eq]
    constructor
    · intro hnil
      exact absurd (hiff.mpr hnil) (by simp [hnil])
    · intro hempty
      exact absurd (hiff.mp hempty) (by simp [hempty])
  · rintro ⟨hnil, hempty⟩
    refine ⟨by simp [h.isPass_iff, h.actual_eq, hnil, hempty],
      fun i hi => ⟨h.isPass_eq_false hi, ?_⟩⟩
    -- the only place that can be told is the first, which no lines at all do not have
    obtain ⟨-, -, hone⟩ := (h.mismatch_iff i).mp hi
    obtain rfl : i = 0 := by simpa using hone
    rw [h.actual_eq]
    exact ⟨fun j hj => absurd hj (Nat.not_lt_zero j), by simpa using hnil⟩

end Finding

/-! ### Blessing and checking -/

private theorem write_of_check
    (h : check { bless := true, enforce } base scenario lines files = (.ok found, written)) :
    files.write (path base scenario) (encode lines) = (.ok (), written) := by
  rw [check, if_pos rfl] at h
  cases hwrite : files.write (path base scenario) (encode lines) with
  | mk result made =>
    rw [hwrite] at h
    obtain ⟨hfound, rfl⟩ := Prod.mk.inj h
    cases result with
    | ok => rfl
    | error e => cases hfound

/-- Where nothing is in the way, a blessing succeeds under every path that is made of names. -/
private theorem exists_check_blessed {components : List String} {name : String}
    (hcomponents : Files.components (path base scenario) = .ok (components ++ [name]))
    (hnames : ∀ c ∈ components ++ [name], Files.IsName c) (lines : List String) :
    ∃ written, check { bless := true, enforce } base scenario lines .empty =
      (.ok ⟨scenario, .blessed, lines, lines, none⟩, written) := by
  obtain ⟨written, hwrite⟩ := Files.exists_write_empty hcomponents hnames (encode lines)
  refine ⟨written, ?_⟩
  rw [check, if_pos rfl, hwrite]
  rfl

private theorem check_of_load (h : load files (path base scenario) = .ok expected) :
    check { bless := false, enforce } base scenario actual files =
      (.ok (judge { bless := false, enforce } scenario actual expected), files) := by
  rw [check, if_neg Bool.false_ne_true, h]
  rfl

private theorem components_path_demo :
    Files.components (path "base" "demo") = .ok (["base", "tests", "golden"] ++ ["demo.txt"]) := by
  have hpath : path "base" "demo" = "base/tests/golden/demo.txt" := by decide
  rw [hpath, Files.components, if_neg (by decide), if_neg (by decide), if_neg (by decide),
    Path.components_eq]
  decide

/-- **A check after a blessing compares with the lines that were blessed, and with an empty line if
there were none.** So it agrees with them exactly unless there were none and the transcript is empty
or an empty line. -/
theorem check_agrees_iff (hplain : ∀ line ∈ lines, Plain line)
    (hbless : check { bless := true, enforce } base scenario lines files = (.ok found, written))
    (enforce' : Bool) (actual : List String) :
    ∃ f, check { bless := false, enforce := enforce' } base scenario actual written =
        (.ok f, written) ∧
      f.Compares scenario actual (remembered lines) ∧
      (f.Agrees lines ↔ (lines = [] → actual ≠ [] ∧ actual ≠ [""])) := by
  have hload := load_of_write hplain (write_of_check hbless)
  have hcompares : (judge { bless := false, enforce := enforce' } scenario actual
      (remembered lines)).Compares scenario actual (remembered lines) :=
    Finding.compares_judge (remembered_ne_nil lines)
  refine ⟨_, check_of_load hload, hcompares, ?_⟩
  rcases eq_or_ne lines [] with rfl | hne
  · rw [forall_prop_of_true rfl]
    exact hcompares.agrees_nil_iff
  · rw [remembered_of_ne_nil hne] at hcompares ⊢
    exact iff_of_true hcompares.agrees fun hnil => absurd hnil hne

theorem check_agrees_iff_last_line_empty :
    (∀ line ∈ ["one", "two", ""], Plain line) ∧
      ∃ found written,
        check { bless := true } "base" "demo" ["one", "two", ""] .empty = (.ok found, written) ∧
        ∃ f, check {} "base" "demo" ["one", "2", ""] written = (.ok f, written) ∧
          f.Compares "demo" ["one", "2", ""] ["one", "two", ""] ∧ f.Agrees ["one", "two", ""] := by
  have hplain : ∀ line ∈ ["one", "two", ""], Plain line := by decide
  obtain ⟨written, hbless⟩ :=
    exists_check_blessed components_path_demo (by decide) ["one", "two", ""]
  obtain ⟨f, hcheck, hcompares, hagrees⟩ :=
    check_agrees_iff hplain hbless false ["one", "2", ""]
  exact ⟨hplain, _, written, hbless, f, hcheck, hcompares, hagrees.mpr (by simp)⟩

/-- Blessed without any line, a golden transcript fails the empty transcript and passes an empty
line. -/
theorem blessed_nothing_expects_line :
    ∃ written,
      check { bless := true } "base" "demo" [] .empty =
        (.ok ⟨"demo", .blessed, [], [], none⟩, written) ∧
      check {} "base" "demo" [] written = (.ok ⟨"demo", .fail, [""], [], none⟩, written) ∧
      check {} "base" "demo" [""] written = (.ok ⟨"demo", .pass, [""], [""], none⟩, written) := by
  obtain ⟨written, hbless⟩ := exists_check_blessed components_path_demo (by decide) []
  have hload := load_of_write (List.forall_mem_nil Plain) (write_of_check hbless)
  exact ⟨written, hbless, check_of_load hload, check_of_load hload⟩

end UndoJournal.Transcript
