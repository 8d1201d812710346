import Mathlib.Data.List.Forall2
import UndoJournal.Proofs.Script.Grammar
import UndoJournal.Proofs.Text.Lines

/-!
# Reading and printing scripts

A line holds a command if it is written so between its blanks, and it holds nothing if it is blank
or a remark. **A text is read exactly if each of its lines holds a command or nothing**, and what is
read is what the lines hold, with their numbers; otherwise the first line that holds neither is
blamed, whatever stands behind it. Since a printed command is one of its own written forms, reading
inverts printing for every layout, and printing what was read is read as the same commands.
-/

namespace UndoJournal

namespace Script

open Text

/-- A line, without the blanks around it, holds a command or, being empty or a remark, nothing. -/
def Holds (content : List Char) : Option Command → Prop
  | none => content = [] ∨ ∃ remark, content = '#' :: remark
  | some c => Command.Written content c

/-- The commands that lines hold, each with the number of its line, where the first line has that
number. -/
def numbered (number : Nat) (held : List (Option Command)) : List ScriptStep :=
  (held.zipIdx number).filterMap fun (c, line) => c.map (ScriptStep.mk line)

/-- A line prints a command or, being blank or a remark, nothing. -/
inductive Prints : String → Option Command → Prop
  /-- The text of the command, with blanks around it or none. -/
  | command {before behind : List Char} {c : Command} (printable : c.Printable)
    (before_blank : AllBlank before) (behind_blank : AllBlank behind) :
    Prints (String.ofList before ++ c.text ++ String.ofList behind) (some c)
  /-- Blanks or no character at all. -/
  | blank {cs : List Char} (blank : AllBlank cs) : Prints (String.ofList cs) none
  /-- Anything behind a hash sign, with blanks in front of it or none. -/
  | remark {before cs : List Char} (before_blank : AllBlank before) :
    Prints (String.ofList (before ++ '#' :: cs)) none

variable {content raw : List Char} {ls : List (List Char)} {n : Nat} {c : Command}
  {c? : Option Command} {held : List (Option Command)} {steps : List ScriptStep} {e : ScriptError}

/-! ### What a line holds -/

private theorem isSkipped_iff : isSkipped content = true ↔ Holds content none := by
  cases content with
  | nil => simp [isSkipped, Holds]
  | cons c content => simp [isSkipped, Holds]

private theorem holds_none_or_exists (h : Holds content c?) :
    (Holds content none ∧ c? = none) ∨
      ∃ c, isSkipped content = false ∧ Command.Written content c ∧ c? = some c := by
  cases c? with
  | none => exact .inl ⟨h, rfl⟩
  | some c => exact .inr ⟨c, Command.Written.isSkipped_eq_false h, h, rfl⟩

private theorem holds_nil : Holds [] none := Or.inl rfl

/-- A line holds at most one thing. -/
private theorem Holds.unique {d? : Option Command} (hc : Holds content c?) (hd : Holds content d?) :
    c? = d? := by
  obtain ⟨hskip, rfl⟩ | ⟨c, hskip, hwritten, rfl⟩ := holds_none_or_exists hc
  · obtain ⟨-, rfl⟩ | ⟨d, hskip', -, -⟩ := holds_none_or_exists hd
    · rfl
    · rw [isSkipped_iff.mpr hskip] at hskip'
      cases hskip'
  · obtain ⟨hskip', -⟩ | ⟨d, -, hwritten', rfl⟩ := holds_none_or_exists hd
    · rw [isSkipped_iff.mpr hskip'] at hskip
      cases hskip
    · have hread := (Command.ofLine_eq_ok_iff hwritten.trimmed).mpr hwritten
      rw [(Command.ofLine_eq_ok_iff hwritten.trimmed).mpr hwritten'] at hread
      rw [Except.ok.inj hread]

/-- A line that holds neither a command nor nothing is read as a problem. -/
private theorem exists_problem (htrim : Trimmed content) (h : ∀ c?, ¬ Holds content c?) :
    isSkipped content = false ∧ ∃ problem, Command.ofLine content = .error problem := by
  refine ⟨Bool.not_eq_true _ ▸ mt isSkipped_iff.mp (h none), ?_⟩
  cases hread : Command.ofLine content with
  | ok c => exact absurd ((Command.ofLine_eq_ok_iff htrim).mp hread) (h (some c))
  | error problem => exact ⟨problem, rfl⟩

private theorem Prints.holds {line : String} (h : Prints line c?) :
    Holds (trim line.toList) c? := by
  cases h with
  | command hc hbefore hbehind =>
    have hwritten := hc.written
    have htrim := trim_of_surrounded hbefore hbehind hwritten.trimmed
    simpa only [String.toList_append, String.toList_ofList, htrim, Holds] using hwritten
  | blank hblank =>
    rw [String.toList_ofList, trim_eq_nil hblank]
    exact .inl rfl
  | remark hbefore =>
    rw [String.toList_ofList]
    exact .inr (exists_trim_append_cons hbefore (by decide))

/-! ### What lines hold -/

private theorem numbered_cons (n : Nat) (c? : Option Command) (held : List (Option Command)) :
    numbered n (c? :: held) = c?.toList.map (ScriptStep.mk n) ++ numbered (n + 1) held := by
  cases c? <;> rfl

private theorem mem_numbered_iff {s : ScriptStep} :
    s ∈ numbered n held ↔ ∃ i, held[i]? = some (some s.command) ∧ s.line = n + i := by
  induction held generalizing n with
  | nil => simp [numbered]
  | cons c? held ih =>
    rw [numbered_cons, List.mem_append, ih]
    constructor
    · rintro (hs | ⟨i, hi, hline⟩)
      · obtain ⟨c, hc, rfl⟩ := List.mem_map.mp hs
        exact ⟨0, by simpa using hc, rfl⟩
      · exact ⟨i + 1, by simpa using hi, by omega⟩
    · rintro ⟨i, hi, hline⟩
      cases i with
      | zero =>
        have hc : c? = some s.command := by simpa using hi
        exact .inl (List.mem_map.mpr ⟨s.command, by simp [hc], by rw [← Nat.add_zero n, ← hline]⟩)
      | succ i => exact .inr ⟨i, by simpa using hi, by omega⟩

private theorem pairwise_numbered (n : Nat) (held : List (Option Command)) :
    (numbered n held).Pairwise (·.line < ·.line) := by
  induction held generalizing n with
  | nil => exact List.Pairwise.nil
  | cons c? held ih =>
    rw [numbered_cons, List.pairwise_append]
    refine ⟨?_, ih (n + 1), ?_⟩
    · cases c? <;> simp
    · intro s hs s' hs'
      obtain ⟨c, -, rfl⟩ := List.mem_map.mp hs
      obtain ⟨i, -, hi⟩ := mem_numbered_iff.mp hs'
      rw [hi]
      show n < n + 1 + i
      omega

private theorem numbered_of_forall_nil {rest : List (List Char)} (hrest : ∀ l ∈ rest, l = [])
    (h : List.Forall₂ Holds rest held) : numbered n held = [] := by
  induction h generalizing n with
  | nil => rfl
  | cons hl _ ih =>
    rw [hrest _ List.mem_cons_self] at hl
    rw [numbered_cons, ← holds_nil.unique hl]
    exact ih fun l hl => hrest l (List.mem_cons_of_mem _ hl)

/-- Empty lines at the end change nothing. -/
private theorem exists_held_of_append {front rest : List (List Char)} (hrest : ∀ l ∈ rest, l = [])
    (h : List.Forall₂ Holds (front ++ rest) held) :
    ∃ held', List.Forall₂ Holds front held' ∧ numbered n held' = numbered n held := by
  induction front generalizing n held with
  | nil => exact ⟨[], .nil, (numbered_of_forall_nil hrest h).symm⟩
  | cons l front ih =>
    rw [List.cons_append] at h
    cases h with
    | cons hl hfront =>
      obtain ⟨held', hheld', hnumbered⟩ := ih (n := n + 1) hfront
      exact ⟨_ :: held', .cons hl hheld', by rw [numbered_cons, hnumbered, numbered_cons]⟩

/-! ### Reading lines -/

/-- A line that holds something is read as that, and reading goes on behind it. -/
private theorem readFrom_cons_of_holds (h : Holds (trim raw) c?) :
    readFrom n (raw :: ls) =
      (readFrom (n + 1) ls).map (c?.toList.map (ScriptStep.mk n) ++ ·) := by
  rw [readFrom]
  obtain ⟨hskip, rfl⟩ | ⟨c, hskip, hwritten, rfl⟩ := holds_none_or_exists h
  · simp only [isSkipped_iff.mpr hskip, if_true]
    cases readFrom (n + 1) ls <;> rfl
  · simp only [hskip, Bool.false_eq_true, if_false,
      (Command.ofLine_eq_ok_iff hwritten.trimmed).mpr hwritten]
    cases readFrom (n + 1) ls <;> rfl

private theorem readFrom_of_holds (h : List.Forall₂ Holds (ls.map trim) held) :
    readFrom n ls = .ok (numbered n held) := by
  induction ls generalizing n held with
  | nil =>
    cases h
    rfl
  | cons raw ls ih =>
    rw [List.map_cons] at h
    cases h with
    | cons hraw hls =>
      rw [readFrom_cons_of_holds hraw, ih hls, numbered_cons]
      rfl

/-- The first line that holds neither a command nor nothing is blamed, whatever stands behind it. -/
private theorem readFrom_of_not_holds {front : List (List Char)}
    (hfront : List.Forall₂ Holds (front.map trim) held) (hraw : ∀ c?, ¬ Holds (trim raw) c?) :
    ∃ problem, ∀ behind,
      readFrom n (front ++ raw :: behind) = .error ⟨n + front.length, problem⟩ := by
  obtain ⟨hskip, problem, hproblem⟩ := exists_problem (trimmed_trim raw) hraw
  refine ⟨problem, fun behind => ?_⟩
  -- the lines in front are read, each with the number of its place
  induction front generalizing n held with
  | nil => simp [readFrom, hskip, hproblem]
  | cons line front ih =>
    rw [List.map_cons] at hfront
    cases hfront with
    | cons hline hfront =>
      rw [List.cons_append, readFrom_cons_of_holds hline, ih hfront, List.length_cons,
        Nat.add_right_comm, Nat.add_assoc]
      rfl

/-- Either every line holds a command or nothing, or there is a first one that does not. -/
private theorem holds_or_exists_first (ls : List (List Char)) :
    (∃ held, List.Forall₂ Holds (ls.map trim) held) ∨
      ∃ front raw behind held, ls = front ++ raw :: behind ∧
        List.Forall₂ Holds (front.map trim) held ∧ ∀ c?, ¬ Holds (trim raw) c? := by
  induction ls with
  | nil => exact .inl ⟨[], .nil⟩
  | cons line ls ih =>
    by_cases hline : ∃ c?, Holds (trim line) c?
    · obtain ⟨c?, hline⟩ := hline
      obtain ⟨held, hheld⟩ | ⟨front, raw, behind, held, rfl, hheld, hraw⟩ := ih
      · exact .inl ⟨c? :: held, .cons hline hheld⟩
      · exact .inr ⟨line :: front, raw, behind, c? :: held, rfl, .cons hline hheld, hraw⟩
    · exact .inr ⟨[], line, ls, [], rfl, .nil, not_exists.mp hline⟩

/-- What was read is what the lines hold. -/
private theorem exists_held_of_readFrom (h : readFrom n ls = .ok steps) :
    ∃ held, List.Forall₂ Holds (ls.map trim) held ∧ steps = numbered n held := by
  obtain ⟨held, hheld⟩ | ⟨front, raw, behind, held, rfl, hheld, hraw⟩ := holds_or_exists_first ls
  · rw [readFrom_of_holds hheld] at h
    exact ⟨held, hheld, (Except.ok.inj h).symm⟩
  · obtain ⟨problem, herror⟩ := readFrom_of_not_holds hheld hraw
    rw [herror behind] at h
    cases h

/-- What is blamed is the first line that holds neither a command nor nothing. -/
private theorem exists_first_of_readFrom (h : readFrom n ls = .error e) :
    ∃ front raw held, front ++ [raw] <+: ls ∧ List.Forall₂ Holds (front.map trim) held ∧
      (∀ c?, ¬ Holds (trim raw) c?) ∧ e.line = n + front.length ∧
        ∀ behind, readFrom n (front ++ raw :: behind) = .error e := by
  obtain ⟨held, hheld⟩ | ⟨front, raw, behind, held, rfl, hheld, hraw⟩ := holds_or_exists_first ls
  · rw [readFrom_of_holds hheld] at h
    cases h
  · obtain ⟨problem, herror⟩ := readFrom_of_not_holds (n := n) hheld hraw
    rw [herror behind] at h
    obtain rfl := Except.error.inj h
    exact ⟨front, raw, held, ⟨behind, by simp⟩, hheld, hraw, rfl, herror⟩

/-! ### Whole scripts -/

private theorem exists_held_of_getElem? {i : Nat} (h : List.Forall₂ Holds (ls.map trim) held)
    (hi : ls[i]? = some raw) : ∃ c?, held[i]? = some c? ∧ Holds (trim raw) c? := by
  induction ls generalizing held i with
  | nil => cases hi
  | cons l ls ih =>
    obtain ⟨c?, held', hl, hls, rfl⟩ := List.forall₂_cons_left_iff.mp h
    cases i with
    | zero => exact ⟨c?, rfl, Option.some.inj hi ▸ hl⟩
    | succ i => exact ih (i := i) hls hi

private theorem exists_getElem?_of_held {i : Nat} (h : List.Forall₂ Holds (ls.map trim) held)
    (hi : held[i]? = some c?) : ∃ raw, ls[i]? = some raw ∧ Holds (trim raw) c? := by
  have hlength : i < ls.length := by
    have hle := h.length_eq
    have hlt := (List.getElem?_eq_some_iff.mp hi).1
    rw [List.length_map] at hle
    omega
  obtain ⟨d?, hd, hholds⟩ := exists_held_of_getElem? h (List.getElem?_eq_getElem hlength)
  rw [hi] at hd
  exact ⟨_, List.getElem?_eq_getElem hlength, Option.some.inj hd ▸ hholds⟩

/-- Text put together from lines that hold something is read as what they hold. -/
private theorem read_joinLines {layout : List (String × Option Command)}
    (h : ∀ p ∈ layout, Holds (trim p.1.toList) p.2 ∧ '\n' ∉ p.1.toList) :
    read (joinLines (layout.map Prod.fst)) = .ok (numbered 1 (layout.map Prod.snd)) := by
  have hfeeds : ∀ l ∈ layout.map (String.toList ∘ Prod.fst), '\n' ∉ l := by
    intro l hl
    obtain ⟨p, hp, rfl⟩ := List.mem_map.mp hl
    exact (h p hp).2
  have hheld : List.Forall₂ Holds ((layout.map (String.toList ∘ Prod.fst)).map trim)
      (layout.map Prod.snd) := by
    rw [List.map_map, List.forall₂_map_left_iff, List.forall₂_map_right_iff, List.forall₂_same]
    exact fun p hp => (h p hp).1
  -- an empty line at the end is lost, and it holds nothing
  obtain ⟨rest, hrest, hlines⟩ := map_trim_lines hfeeds
  rw [hlines] at hheld
  obtain ⟨held, hfront, hnumbered⟩ := exists_held_of_append (n := 1) hrest hheld
  rw [read, joinLines, String.toList_intercalate, List.map_map, ← hnumbered]
  exact readFrom_of_holds hfront

/-- What is known of the steps that were read from a text. -/
structure ReadsBack (text : String) (steps : List ScriptStep) : Prop where
  /-- Each of the commands can be printed. -/
  printable : ∀ s ∈ steps, s.command.Printable
  /-- The numbers of the lines increase. -/
  increasing : steps.Pairwise (·.line < ·.line)
  /-- Each step stands on its line, counted from one. -/
  stands : ∀ s ∈ steps, ∃ i raw, s.line = i + 1 ∧ (lines text.toList)[i]? = some raw ∧
    Command.Written (trim raw) s.command
  /-- Every other line is blank or a remark. -/
  complete : ∀ i raw, (lines text.toList)[i]? = some raw →
    Holds (trim raw) none ∨ ∃ s ∈ steps, s.line = i + 1
  /-- Printing the commands, one a line, gives a text that is read as the same commands. -/
  reprinted : ∃ again, read (joinLines (steps.map (·.command.text))) = .ok again ∧
    again.map (·.command) = steps.map (·.command)

/-- What is known of the line that is blamed for a text that is not read. -/
structure Blames (text : String) (e : ScriptError) : Prop where
  /-- It is a line of the text that is neither blank nor a remark nor a command. -/
  bad : ∃ i raw, e.line = i + 1 ∧ (lines text.toList)[i]? = some raw ∧
    ∀ c?, ¬ Holds (trim raw) c?
  /-- Every line in front of it is blank or a remark or a command. -/
  first : ∀ i raw, i + 1 < e.line → (lines text.toList)[i]? = some raw →
    ∃ c?, Holds (trim raw) c?
  /-- What stands behind it does not matter. -/
  whatever : ∀ other : String,
    (lines other.toList).take e.line = (lines text.toList).take e.line → read other = .error e

private theorem map_command_numbered (n : Nat) (cs : List Command) :
    (numbered n (cs.map some)).map (·.command) = cs := by
  induction cs generalizing n with
  | nil => rfl
  | cons c cs ih => rw [List.map_cons, numbered_cons, List.map_append, ih]; rfl

private theorem readsBack_of_read {text : String} (h : read text = .ok steps) :
    ReadsBack text steps := by
  obtain ⟨held, hheld, rfl⟩ := exists_held_of_readFrom h
  have hstands : ∀ s ∈ numbered 1 held, ∃ i raw, s.line = i + 1 ∧
      (lines text.toList)[i]? = some raw ∧ Command.Written (trim raw) s.command := by
    intro s hs
    obtain ⟨i, hi, hline⟩ := mem_numbered_iff.mp hs
    obtain ⟨raw, hraw, hwritten⟩ := exists_getElem?_of_held hheld hi
    exact ⟨i, raw, by omega, hraw, hwritten⟩
  have hprintable : ∀ s ∈ numbered 1 held, s.command.Printable := by
    intro s hs
    obtain ⟨i, raw, -, hraw, hwritten⟩ := hstands s hs
    have hfeed := not_mem_of_mem_lines (List.mem_of_getElem? hraw)
    exact hwritten.printable fun hc => hfeed (mem_of_mem_trim hc)
  have hcomplete : ∀ i raw, (lines text.toList)[i]? = some raw →
      Holds (trim raw) none ∨ ∃ s ∈ numbered 1 held, s.line = i + 1 := by
    intro i raw hraw
    obtain ⟨c?, hi, hholds⟩ := exists_held_of_getElem? hheld hraw
    cases c? with
    | none => exact .inl hholds
    | some c => exact .inr ⟨⟨i + 1, c⟩, mem_numbered_iff.mpr ⟨i, hi, Nat.add_comm i 1⟩, rfl⟩
  refine ⟨hprintable, pairwise_numbered 1 held, hstands, hcomplete, ?_⟩
  -- what is printed reads back, since each command is printable
  set printed := (numbered 1 held).map fun s => (s.command.text, some s.command) with hprinted
  have hread : read (joinLines (printed.map Prod.fst)) =
      .ok (numbered 1 (printed.map Prod.snd)) := by
    refine read_joinLines fun p hp => ?_
    obtain ⟨s, hs, rfl⟩ := List.mem_map.mp hp
    have hwritten := (hprintable s hs).written
    exact ⟨hwritten.trimmed.trim_eq.symm ▸ hwritten, (hprintable s hs).not_mem_text⟩
  refine ⟨_, ?_, map_command_numbered 1 ((numbered 1 held).map (·.command))⟩
  rw [hprinted, List.map_map, List.map_map] at hread
  rw [List.map_map]
  exact hread

private theorem blames_of_read {text : String} (h : read text = .error e) : Blames text e := by
  obtain ⟨front, raw, held, ⟨behind, hlines⟩, hheld, hraw, hline, hwhatever⟩ :=
    exists_first_of_readFrom h
  rw [List.append_assoc, List.singleton_append] at hlines
  refine ⟨⟨front.length, raw, by omega, by simp [← hlines], hraw⟩, ?_, ?_⟩
  · intro i raw' hi hraw'
    rw [← hlines, List.getElem?_append_left (by omega)] at hraw'
    obtain ⟨c?, -, hholds⟩ := exists_held_of_getElem? hheld hraw'
    exact ⟨c?, hholds⟩
  · intro other hother
    have htake : (lines other.toList).take e.line = front ++ [raw] := by
      rw [hother, ← hlines, hline, Nat.add_comm, List.take_length_add_append]
      rfl
    have hother : lines other.toList = front ++ raw :: (lines other.toList).drop e.line := by
      rw [← List.singleton_append, ← List.append_assoc, ← htake, List.take_append_drop]
    rw [read, hother]
    exact hwhatever _

/-- **Reading inverts printing, and what is read can be printed.** Commands that were printed, one a
line, between blank lines and remarks are read with the numbers of their lines. Conversely the steps
that are read from any text can be printed, stand on their lines, and are read again from what they
print; and a text that is not read is blamed on its first line that is neither blank nor a remark
nor a command. -/
theorem reading_inverts_printing :
    (∀ layout : List (String × Option Command),
      (∀ p ∈ layout, Prints p.1 p.2 ∧ '\n' ∉ p.1.toList) →
        read (joinLines (layout.map Prod.fst)) = .ok (numbered 1 (layout.map Prod.snd))) ∧
      (∀ text steps, read text = .ok steps → ReadsBack text steps) ∧
        ∀ text e, read text = .error e → Blames text e := by
  refine ⟨?_, fun _ _ => readsBack_of_read, fun _ _ => blames_of_read⟩
  intro layout h
  exact read_joinLines fun p hp => ⟨(h p hp).1.holds, (h p hp).2⟩

/-- A remark, an indented command and an empty line at the end. -/
theorem reading_inverts_printing_indented :
    read "# start\n  commit move Move A\n" = .ok [⟨2, .commit "move" "Move A"⟩] := by
  have hcommit : Command.Printable (.commit "move" "Move A") :=
    ⟨by decide, by decide, by decide, by decide, by decide⟩
  have hblank : AllBlank [' ', ' '] := by decide
  have hread := reading_inverts_printing.1
    [("# start", none), ("  commit move Move A", some (.commit "move" "Move A")), ("", none)] ?_
  · exact hread
  · simp only [List.forall_mem_cons]
    refine ⟨⟨?_, by decide⟩, ⟨?_, by decide⟩, ⟨?_, by decide⟩, by simp⟩
    · exact @Prints.remark [] " start".toList allBlank_nil
    · exact Prints.command hcommit hblank allBlank_nil
    · exact Prints.blank allBlank_nil

end Script

end UndoJournal
