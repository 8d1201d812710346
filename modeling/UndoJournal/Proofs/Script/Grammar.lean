import UndoJournal.Proofs.Text.Natural
import UndoJournal.Script.Reader

/-!
# The grammar of commands

`Command.Written` says which lines are a command, without saying how they are read: a word that
stands alone, a word and the numeral of a row, or `commit` with a kind and a description, where any
blanks separate the parts. A line without blanks around it is read as a command **exactly if it is
written so**, and the text of a command that can be printed at all is one of its written forms.
-/

namespace UndoJournal

namespace Command

open Text

/-- The commands that are one word. -/
def bareWords : List (String × Command) :=
  [("undo", .undo), ("redo", .redo), ("clear-undo", .clearUndo), ("clear-redo", .clearRedo),
    ("show", .snapshot)]

/-- The words of the commands about a row. -/
def rowWords : List (String × (Nat → Command)) :=
  [("click", .click), ("collapse", .collapse), ("expand", .expand)]

/-- A line without blanks around it is a command. -/
inductive Written (line : List Char) : Command → Prop
  /-- The line is one word. -/
  | bare (word : String) {c : Command} (mem : (word, c) ∈ bareWords)
    (line_eq : line = word.toList) : Written line c
  /-- Behind the word stands the numeral of a row. -/
  | aboutRow {word : String} {make : Nat → Command} {numeral : List Char} {row : Nat}
    (mem : (word, make) ∈ rowWords) (parts : Parts line word.toList numeral)
    (value : Numeral numeral row) : Written line (make row)
  /-- Behind the word stand a kind, which is a word, and a description. -/
  | commit {rest kind description : List Char} (parts : Parts line "commit".toList rest)
    (rest_parts : Parts rest kind description) :
    Written line (.commit (String.ofList kind) (String.ofList description))

/-- A command that has a text of its own. A row is a number of 64 bits. -/
def Printable : Command → Prop
  | commit kind description =>
    kind.toList ≠ [] ∧ NoBlank kind.toList ∧ description.toList ≠ [] ∧
      Trimmed description.toList ∧ '\n' ∉ description.toList
  | click row | collapse row | expand row => row ≤ largestNatural
  | undo | redo | clearUndo | clearRedo | snapshot => True

variable {line word rest : List Char} {c : Command}

/-! ### Words and what stands behind them -/

private theorem wordOf_of_parts (h : Parts line word rest) : wordOf line = (word, rest) := by
  obtain ⟨behind, hsplit, htrim⟩ := h.split
  simp only [wordOf, hsplit, htrim]

private theorem wordOf_of_split_none (h : splitAtBlank? line = none) :
    wordOf line = (line, []) := by
  simp only [wordOf, h]

private theorem bare_eq_ok_iff {c' : Command} : bare word rest c' = .ok c ↔ rest = [] ∧ c = c' := by
  unfold bare
  split
  next h => simp [List.isEmpty_iff.mp h, eq_comm]
  next h => simp [mt List.isEmpty_iff.mpr h]

private theorem aboutRow_eq_ok_iff {make : Nat → Command} :
    aboutRow word rest make = .ok c ↔ ∃ row, Numeral rest row ∧ c = make row := by
  unfold aboutRow
  split
  next row h =>
    have hrow := natural?_eq_some_iff.mp h
    constructor
    · intro heq
      exact ⟨row, hrow, (Except.ok.inj heq).symm⟩
    · rintro ⟨row', hrow', rfl⟩
      rw [natural?_eq_some_iff.mpr hrow', Option.some.injEq] at h
      rw [h]
  next h =>
    constructor
    · intro heq
      cases heq
    · rintro ⟨row, hrow, -⟩
      rw [natural?_eq_some_iff.mpr hrow] at h
      cases h

private theorem ofCommit_of_parts {kind description : List Char} (h : Parts rest kind description) :
    ofCommit rest = .ok (.commit (String.ofList kind) (String.ofList description)) := by
  obtain ⟨behind, hsplit, htrim⟩ := h.split
  simp only [ofCommit, hsplit, htrim, List.isEmpty_iff, if_neg h.rest_ne]

private theorem exists_parts_of_ofCommit (hrest : Trimmed rest) (h : ofCommit rest = .ok c) :
    ∃ kind description, Parts rest kind description ∧
      c = .commit (String.ofList kind) (String.ofList description) := by
  obtain ⟨-, hnone⟩ | ⟨kind, description, hparts⟩ := hrest.noBlank_or_parts
  · rw [ofCommit, hnone] at h
    cases h
  · rw [ofCommit_of_parts hparts] at h
    exact ⟨kind, description, hparts, (Except.ok.inj h).symm⟩

/-- What a line is read as, by its first word. -/
private theorem ofLine_eq_ok_iff_word (h : wordOf line = (word, rest)) :
    ofLine line = .ok c ↔
      (word = "commit".toList ∧ ofCommit rest = .ok c) ∨
        (rest = [] ∧ ∃ w, (w, c) ∈ bareWords ∧ word = w.toList) ∨
          ∃ w make row, (w, make) ∈ rowWords ∧ word = w.toList ∧
              Numeral rest row ∧ c = make row := by
  have hword : ∀ w : String, word = w.toList ↔ String.ofList word = w := by
    intro w
    rw [← String.toList_inj, String.toList_ofList]
  simp only [ofLine, h, hword, bareWords, rowWords]
  generalize String.ofList word = w
  split
  case h_10 => simp_all
  all_goals simp [bare_eq_ok_iff, aboutRow_eq_ok_iff]

/-! ### Lines that are commands -/

private theorem noBlank_of_mem_bareWords {w : String} (h : (w, c) ∈ bareWords) :
    NoBlank w.toList := by
  simp only [bareWords, List.mem_cons, Prod.mk.injEq, List.not_mem_nil, or_false] at h
  rcases h with ⟨rfl, -⟩ | ⟨rfl, -⟩ | ⟨rfl, -⟩ | ⟨rfl, -⟩ | ⟨rfl, -⟩ <;> decide

/-- **The grammar.** A line without blanks around it is read as a command exactly if it is written
so. -/
theorem ofLine_eq_ok_iff (hline : Trimmed line) : ofLine line = .ok c ↔ Written line c := by
  constructor
  · intro h
    obtain ⟨-, hnone⟩ | ⟨word, rest, hparts⟩ := hline.noBlank_or_parts
    · -- one word alone: neither a commit nor a command about a row is complete
      rw [ofLine_eq_ok_iff_word (wordOf_of_split_none hnone)] at h
      obtain ⟨-, h⟩ | ⟨-, w, hw, hline⟩ | ⟨w, make, row, -, -, hrow, -⟩ := h
      · cases h
      · exact .bare w hw hline
      · exact absurd rfl hrow.ne_nil
    · rw [ofLine_eq_ok_iff_word (wordOf_of_parts hparts)] at h
      obtain ⟨rfl, h⟩ | ⟨hrest, -⟩ | ⟨w, make, row, hw, rfl, hrow, rfl⟩ := h
      · obtain ⟨kind, description, hrest, rfl⟩ := exists_parts_of_ofCommit hparts.trimmed h
        exact .commit hparts hrest
      · exact absurd hrest hparts.rest_ne
      · exact .aboutRow hw hparts hrow
  · intro h
    cases h with
    | @bare word _ hw hword =>
      have hnone := splitAtBlank?_of_noBlank (hword ▸ noBlank_of_mem_bareWords hw)
      rw [ofLine_eq_ok_iff_word (wordOf_of_split_none hnone)]
      exact .inr (.inl ⟨rfl, word, hw, hword⟩)
    | aboutRow hw hparts hrow =>
      rw [ofLine_eq_ok_iff_word (wordOf_of_parts hparts)]
      exact .inr (.inr ⟨_, _, _, hw, rfl, hrow, rfl⟩)
    | commit hparts hrest =>
      rw [ofLine_eq_ok_iff_word (wordOf_of_parts hparts)]
      exact .inl ⟨rfl, ofCommit_of_parts hrest⟩

theorem Written.trimmed (h : Written line c) : Trimmed line := by
  cases h with
  | bare word hw hword => exact hword ▸ (noBlank_of_mem_bareWords hw).trimmed
  | aboutRow _ hparts => exact hparts.text_trimmed
  | commit hparts => exact hparts.text_trimmed

/-- A written command is neither empty nor behind a hash sign. -/
theorem Written.isSkipped_eq_false (h : Written line c) : Script.isSkipped line = false := by
  have hword : ∀ w ∈ "commit" :: bareWords.map Prod.fst ++ rowWords.map Prod.fst,
      ∀ rest, Script.isSkipped (w.toList ++ rest) = false := by
    simp [bareWords, rowWords, Script.isSkipped]
  cases h with
  | @bare word _ hw hline =>
    have hmem : word ∈ bareWords.map Prod.fst := List.mem_map_of_mem hw
    simpa [hline] using hword word (by simp [hmem]) []
  | @aboutRow word make _ _ hw hparts =>
    have hmem : word ∈ rowWords.map Prod.fst := List.mem_map_of_mem hw
    obtain ⟨gap, -, rfl⟩ := hparts.gap
    simpa using hword word (by simp [hmem]) (gap ++ _)
  | commit hparts =>
    obtain ⟨gap, -, rfl⟩ := hparts.gap
    simpa using hword "commit" (by simp) (gap ++ _)

/-! ### Printed commands -/

/-- A word, one space and what belongs to the word. -/
private theorem parts_of_space {word rest text : String} (hword : word.toList ≠ [])
    (hblank : NoBlank word.toList) (hrest : rest.toList ≠ []) (htrim : Trimmed rest.toList)
    (htext : text = word ++ " " ++ rest) : Parts text.toList word.toList rest.toList := by
  refine ⟨hword, hblank, hrest, htrim, [' '], gap_space, ?_⟩
  rw [htext, String.toList_append, String.toList_append]
  rfl

private theorem written_row (word : String) {text : String} {make : Nat → Command} {row : Nat}
    (hmem : (word, make) ∈ rowWords) (hrow : row ≤ largestNatural)
    (htext : text = word ++ " " ++ toString row) : Written text.toList (make row) := by
  have hword : word.toList ≠ [] ∧ NoBlank word.toList := by
    simp only [rowWords, List.mem_cons, Prod.mk.injEq, List.not_mem_nil, or_false] at hmem
    rcases hmem with ⟨rfl, -⟩ | ⟨rfl, -⟩ | ⟨rfl, -⟩ <;> decide
  have hnumeral := numeral_toString hrow
  exact .aboutRow hmem
    (parts_of_space hword.1 hword.2 hnumeral.ne_nil hnumeral.noBlank.trimmed htext) hnumeral

private theorem written_commit {kind description : String} (hkind : kind.toList ≠ [])
    (hblank : NoBlank kind.toList) (hdescription : description.toList ≠ [])
    (htrim : Trimmed description.toList) :
    Written (text (.commit kind description)).toList (.commit kind description) := by
  have hrest : Parts (kind ++ " " ++ description).toList kind.toList description.toList :=
    parts_of_space hkind hblank hdescription htrim rfl
  have htext : text (.commit kind description) =
      "commit" ++ " " ++ (kind ++ " " ++ description) := by
    have hword : "commit " = "commit" ++ " " := by decide
    rw [text, hword]
    simp only [String.append_assoc]
  have hparts := parts_of_space (by decide) (by decide) (by simp)
    hrest.text_trimmed htext
  have hwritten := Written.commit hparts hrest
  rwa [String.ofList_toList, String.ofList_toList] at hwritten

/-- The text of a command that can be printed is one of its written forms. -/
theorem Printable.written (hc : c.Printable) : Written c.text.toList c := by
  have hspace : "click " = "click" ++ " " ∧ "collapse " = "collapse" ++ " " ∧
      "expand " = "expand" ++ " " := by decide
  cases c with
  | undo => exact .bare "undo" (by simp [bareWords]) rfl
  | redo => exact .bare "redo" (by simp [bareWords]) rfl
  | clearUndo => exact .bare "clear-undo" (by simp [bareWords]) rfl
  | clearRedo => exact .bare "clear-redo" (by simp [bareWords]) rfl
  | snapshot => exact .bare "show" (by simp [bareWords]) rfl
  | click row =>
    exact written_row "click" (by simp [rowWords]) hc (by rw [text, hspace.1])
  | collapse row =>
    exact written_row "collapse" (by simp [rowWords]) hc (by rw [text, hspace.2.1])
  | expand row =>
    exact written_row "expand" (by simp [rowWords]) hc (by rw [text, hspace.2.2])
  | commit kind description =>
    obtain ⟨hkind, hblank, hdescription, htrim, -⟩ := hc
    exact written_commit hkind hblank hdescription htrim

/-- The text of a command that can be printed is one line. -/
theorem Printable.not_mem_text (hc : c.Printable) : '\n' ∉ c.text.toList := by
  have hrow : ∀ row : Nat, '\n' ∉ (toString row).toList := by
    intro row hfeed
    exact absurd (Nat.isDigit_of_mem_toDigits (by decide) (by decide) (Nat.toList_repr ▸ hfeed))
      (by decide)
  cases c with
  | undo | redo | clearUndo | clearRedo | snapshot => rw [text]; decide
  | click row | collapse row | expand row => simpa [text] using hrow row
  | commit kind description =>
    obtain ⟨-, hblank, -, -, hfeed⟩ := hc
    have hkind : '\n' ∉ kind.toList := by
      intro hmem
      have hfalse := hblank '\n' hmem
      rw [isBlank_feed] at hfalse
      cases hfalse
    simpa [text, hfeed] using hkind

/-- A command that stands on a line can be printed. -/
theorem Written.printable (h : Written line c) (hfeed : '\n' ∉ line) : c.Printable := by
  cases h with
  | bare word hw =>
    simp only [bareWords, List.mem_cons, Prod.mk.injEq, List.not_mem_nil, or_false] at hw
    rcases hw with ⟨-, rfl⟩ | ⟨-, rfl⟩ | ⟨-, rfl⟩ | ⟨-, rfl⟩ | ⟨-, rfl⟩ <;> trivial
  | aboutRow hw _ hrow =>
    simp only [rowWords, List.mem_cons, Prod.mk.injEq, List.not_mem_nil, or_false] at hw
    rcases hw with ⟨-, rfl⟩ | ⟨-, rfl⟩ | ⟨-, rfl⟩ <;> exact hrow.le
  | @commit rest kind description hparts hrest =>
    obtain ⟨gap, -, rfl⟩ := hparts.gap
    obtain ⟨gap', -, rfl⟩ := hrest.gap
    have hdescription : '\n' ∉ description := fun hc => hfeed (by simp [hc])
    simpa [Printable] using
      ⟨hrest.word_ne, hrest.noBlank, hrest.rest_ne, hrest.trimmed, hdescription⟩

end Command

end UndoJournal
