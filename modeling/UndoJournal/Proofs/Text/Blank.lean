import Mathlib.Data.List.DropRight
import UndoJournal.Text

/-!
# What trimming and splitting at blanks keep

A text is its trimmed text with blanks around it, and **trimming is the only way to take blanks off
both ends until none is left there**. Splitting a text finds the first blank, whatever stands around
it.
-/

namespace UndoJournal.Text

/-- All characters of a text are blank. -/
def AllBlank (cs : List Char) : Prop := ∀ c ∈ cs, isBlank c = true

/-- No character of a text is blank. -/
def NoBlank (cs : List Char) : Prop := ∀ c ∈ cs, isBlank c = false

/-- A text has no blank at either end. -/
structure Trimmed (cs : List Char) : Prop where
  /-- It does not begin with a blank. -/
  head : ∀ c ∈ cs.head?, isBlank c = false
  /-- It does not end with a blank. -/
  last : ∀ c ∈ cs.getLast?, isBlank c = false

-- named, since over all characters another instance would be found, which goes through them all
instance : DecidablePred AllBlank := List.decidableBAll _

instance : DecidablePred NoBlank := List.decidableBAll _

instance : DecidablePred Trimmed := fun cs =>
  have := Option.decidableForallMem (p := fun c => isBlank c = false)
  decidable_of_iff ((∀ c ∈ cs.head?, isBlank c = false) ∧ ∀ c ∈ cs.getLast?, isBlank c = false)
    ⟨fun h => ⟨h.1, h.2⟩, fun h => ⟨h.head, h.last⟩⟩

/-- Blanks that stand between two words. -/
structure Gap (cs : List Char) : Prop where
  /-- There is at least one. -/
  ne_nil : cs ≠ []
  /-- There is nothing else. -/
  blank : AllBlank cs

/-- A text falls into its first word and the rest, with a gap between them. -/
structure Parts (cs word rest : List Char) : Prop where
  /-- The word is not empty. -/
  word_ne : word ≠ []
  /-- The word holds no blank. -/
  noBlank : NoBlank word
  /-- The rest is not empty. -/
  rest_ne : rest ≠ []
  /-- The rest has no blank at either end. -/
  trimmed : Trimmed rest
  /-- Between them are blanks only. -/
  gap : ∃ gap, Gap gap ∧ cs = word ++ gap ++ rest

variable {cs ds before behind : List Char} {c : Char}

theorem isBlank_feed : isBlank '\n' = true := by decide

theorem isBlank_return : isBlank '\r' = true := by decide

private theorem isBlank_space : isBlank ' ' = true := by decide

@[simp]
theorem allBlank_nil : AllBlank [] := fun _ hc => absurd hc List.not_mem_nil

@[simp]
theorem allBlank_cons : AllBlank (c :: cs) ↔ isBlank c = true ∧ AllBlank cs := by
  simp [AllBlank]

@[simp]
theorem noBlank_nil : NoBlank [] := fun _ hc => absurd hc List.not_mem_nil

@[simp]
theorem noBlank_cons : NoBlank (c :: cs) ↔ isBlank c = false ∧ NoBlank cs := by
  simp [NoBlank]

theorem gap_space : Gap [' '] := ⟨by simp, by simp [isBlank_space]⟩

theorem not_isBlank_of_isDigit (hc : c.isDigit = true) : isBlank c = false := by
  simp only [Char.isDigit, Bool.and_eq_true, decide_eq_true_eq] at hc
  have h₁ : 48 ≤ c.toNat := hc.1
  have h₂ : c.toNat ≤ 57 := hc.2
  simp only [isBlank, blankRanges, List.any_cons, List.any_nil, Bool.or_false, Bool.or_eq_false_iff,
    Bool.and_eq_false_iff, decide_eq_false_iff_not]
  omega

private theorem trimmed_nil : Trimmed [] := ⟨by simp, by simp⟩

theorem NoBlank.trimmed (h : NoBlank cs) : Trimmed cs :=
  ⟨fun c hc => h c (List.mem_of_mem_head? hc), fun c hc => h c (List.mem_of_mem_getLast? hc)⟩

/-- What stands between two texts without blanks at their outer ends has no say in the ends. -/
private theorem Trimmed.join {middle : List Char} (h₁ : Trimmed cs) (h₂ : Trimmed ds)
    (hcs : cs ≠ [])
    (hds : ds ≠ []) : Trimmed (cs ++ middle ++ ds) := by
  constructor
  · intro c hc
    rw [List.append_assoc, List.head?_append_of_ne_nil _ hcs] at hc
    exact h₁.head c hc
  · intro c hc
    rw [List.getLast?_append_of_ne_nil _ hds] at hc
    exact h₂.last c hc

/-- Blanks do not end a text that has no blank at its end. -/
private theorem Trimmed.not_allBlank_of_append (h : Trimmed (cs ++ ds)) (hds : ds ≠ []) :
    ¬ AllBlank ds := by
  intro hblank
  have hlast : (cs ++ ds).getLast? = some (ds.getLast hds) := by
    rw [List.getLast?_append_of_ne_nil _ hds, List.getLast?_eq_some_getLast]
  have hfalse := h.last _ hlast
  rw [hblank _ (List.getLast_mem hds)] at hfalse
  cases hfalse

/-! ### Trimming -/

private theorem trimStart_append_of_blank (h : AllBlank before) :
    trimStart (before ++ cs) = trimStart cs := by
  unfold trimStart
  exact List.dropWhile_append_of_pos h

private theorem trimStart_eq_self (h : ∀ c ∈ cs.head?, isBlank c = false) : trimStart cs = cs := by
  cases cs with
  | nil => rfl
  | cons c cs => exact List.dropWhile_cons_of_neg (by simp [h c rfl])

private theorem exists_append_trimStart (cs : List Char) :
    ∃ before, AllBlank before ∧ cs = before ++ trimStart cs :=
  ⟨cs.takeWhile isBlank, fun _ hc => List.mem_takeWhile_imp hc,
    (List.takeWhile_append_dropWhile).symm⟩

private theorem head?_trimStart (cs : List Char) :
    ∀ c ∈ (trimStart cs).head?, isBlank c = false := by
  intro c hc
  have h := List.head?_dropWhile_not isBlank cs
  unfold trimStart at hc
  rw [Option.mem_def] at hc
  rw [hc] at h
  simpa using h

/-- What trimming the end takes off a text that was trimmed at its beginning. -/
private theorem exists_trim_append (cs : List Char) :
    ∃ behind, AllBlank behind ∧ trimStart cs = trim cs ++ behind := by
  obtain ⟨behind, hb, hrev⟩ := exists_append_trimStart (trimStart cs).reverse
  refine ⟨behind.reverse, fun c hc => hb c (List.mem_reverse.mp hc), ?_⟩
  rw [← List.reverse_reverse (trimStart cs), hrev, List.reverse_append]
  rfl

theorem exists_trim (cs : List Char) :
    ∃ before behind, AllBlank before ∧ AllBlank behind ∧ cs = before ++ trim cs ++ behind := by
  obtain ⟨before, hb, hcs⟩ := exists_append_trimStart cs
  obtain ⟨behind, he, hstart⟩ := exists_trim_append cs
  refine ⟨before, behind, hb, he, ?_⟩
  rw [List.append_assoc, ← hstart]
  exact hcs

theorem trimmed_trim (cs : List Char) : Trimmed (trim cs) := by
  constructor
  · -- dropping blanks at the end leaves the beginning, unless nothing is left
    intro c hc
    obtain ⟨behind, -, hstart⟩ := exists_trim_append cs
    refine head?_trimStart cs c ?_
    rw [hstart, List.head?_append, Option.mem_def.mp hc]
    rfl
  · intro c hc
    refine head?_trimStart (trimStart cs).reverse c ?_
    rwa [trim, trimEnd, List.getLast?_reverse] at hc

/-- Trimming takes off all that is blank around a text that has no blank at either end. -/
theorem trim_of_surrounded (hb : AllBlank before) (he : AllBlank behind) (h : Trimmed cs) :
    trim (before ++ cs ++ behind) = cs := by
  rcases eq_or_ne cs [] with rfl | hne
  · have hall : AllBlank (before ++ behind) := by
      intro c hc
      exact (List.mem_append.mp hc).elim (hb c) (he c)
    have hstart : trimStart (before ++ behind) = [] := by
      rw [← List.append_nil (before ++ behind), trimStart_append_of_blank hall]
      rfl
    rw [trim, trimEnd, List.append_nil, hstart]
    rfl
  · have hstart : trimStart (before ++ cs ++ behind) = cs ++ behind := by
      rw [List.append_assoc, trimStart_append_of_blank hb]
      refine trimStart_eq_self fun c hc => ?_
      rw [List.head?_append_of_ne_nil _ hne] at hc
      exact h.head c hc
    have hrev : AllBlank behind.reverse := fun c hc => he c (List.mem_reverse.mp hc)
    rw [trim, trimEnd, hstart, List.reverse_append, trimStart_append_of_blank hrev,
      trimStart_eq_self, List.reverse_reverse]
    intro c hc
    rw [List.head?_reverse] at hc
    exact h.last c hc

theorem Trimmed.trim_eq (h : Trimmed cs) : trim cs = cs := by
  simpa using trim_of_surrounded allBlank_nil allBlank_nil h

theorem trim_eq_iff :
    trim cs = ds ↔
      Trimmed ds ∧
        ∃ before behind, AllBlank before ∧ AllBlank behind ∧ cs = before ++ ds ++ behind := by
  constructor
  · rintro rfl
    exact ⟨trimmed_trim cs, exists_trim cs⟩
  · rintro ⟨hds, before, behind, hb, he, rfl⟩
    exact trim_of_surrounded hb he hds

theorem trim_eq_nil (h : AllBlank cs) : trim cs = [] :=
  trim_eq_iff.mpr ⟨trimmed_nil, cs, [], h, allBlank_nil, by simp⟩

/-- Trimming keeps everything from the first character on that is not blank, but for blanks at the
end. -/
theorem exists_trim_append_cons (hb : AllBlank before) (hc : isBlank c = false) :
    ∃ ds, trim (before ++ c :: cs) = c :: ds := by
  have hstart : trimStart (before ++ c :: cs) = c :: cs := by
    rw [trimStart_append_of_blank hb]
    exact trimStart_eq_self fun d hd => Option.some.inj hd ▸ hc
  obtain ⟨behind, hbehind, htrim⟩ := exists_trim_append (before ++ c :: cs)
  rw [hstart] at htrim
  cases hds : trim (before ++ c :: cs) with
  | nil =>
    rw [hds, List.nil_append] at htrim
    have hblank := hbehind c (htrim ▸ List.mem_cons_self)
    rw [hc] at hblank
    cases hblank
  | cons d ds =>
    rw [hds, List.cons_append] at htrim
    exact ⟨ds, by rw [(List.cons.inj htrim).1]⟩

theorem mem_of_mem_trim (hc : c ∈ trim cs) : c ∈ cs := by
  obtain ⟨before, behind, -, -, hcs⟩ := exists_trim cs
  rw [hcs]
  simp [hc]

/-! ### Splitting -/

theorem splitAtBlank?_of_noBlank (h : NoBlank cs) : splitAtBlank? cs = none := by
  induction cs with
  | nil => rfl
  | cons c cs ih =>
    obtain ⟨hc, hcs⟩ := noBlank_cons.mp h
    simp [splitAtBlank?, hc, ih hcs]

private theorem splitAtBlank?_append (h : NoBlank cs) (hc : isBlank c = true) :
    splitAtBlank? (cs ++ c :: ds) = some (cs, ds) := by
  induction cs with
  | nil => simp [splitAtBlank?, hc]
  | cons d cs ih =>
    obtain ⟨hd, hcs⟩ := noBlank_cons.mp h
    simp [splitAtBlank?, hd, ih hcs]

private theorem splitAtBlank?_cases (cs : List Char) :
    (splitAtBlank? cs = none ∧ NoBlank cs) ∨
      ∃ a c b, splitAtBlank? cs = some (a, b) ∧ NoBlank a ∧ isBlank c = true ∧
        cs = a ++ c :: b := by
  induction cs with
  | nil => exact .inl ⟨rfl, noBlank_nil⟩
  | cons c cs ih =>
    cases hc : isBlank c with
    | true => exact .inr ⟨[], c, cs, by simp [splitAtBlank?, hc], noBlank_nil, hc, rfl⟩
    | false =>
      obtain ⟨hnone, hcs⟩ | ⟨a, d, b, hsome, ha, hd, rfl⟩ := ih
      · exact .inl ⟨by simp [splitAtBlank?, hc, hnone], noBlank_cons.mpr ⟨hc, hcs⟩⟩
      · exact .inr ⟨c :: a, d, b, by simp [splitAtBlank?, hc, hsome], noBlank_cons.mpr ⟨hc, ha⟩, hd,
          rfl⟩

variable {word rest : List Char}

theorem Parts.text_trimmed (h : Parts cs word rest) : Trimmed cs := by
  obtain ⟨gap, -, rfl⟩ := h.gap
  exact h.noBlank.trimmed.join h.trimmed h.word_ne h.rest_ne

/-- Splitting at the first blank and trimming what stands behind finds the two parts. -/
theorem Parts.split (h : Parts cs word rest) :
    ∃ behind, splitAtBlank? cs = some (word, behind) ∧ trim behind = rest := by
  obtain ⟨gap, hgap, rfl⟩ := h.gap
  cases gap with
  | nil => exact absurd rfl hgap.ne_nil
  | cons c gap =>
    obtain ⟨hc, hblank⟩ := allBlank_cons.mp hgap.blank
    refine ⟨gap ++ rest, ?_, ?_⟩
    · rw [List.append_assoc]
      exact splitAtBlank?_append h.noBlank hc
    · simpa using trim_of_surrounded hblank allBlank_nil h.trimmed

/-- A text without blanks at its ends is one word, or it falls into two parts. -/
theorem Trimmed.noBlank_or_parts (h : Trimmed cs) :
    (NoBlank cs ∧ splitAtBlank? cs = none) ∨ ∃ word rest, Parts cs word rest := by
  obtain ⟨hnone, hcs⟩ | ⟨word, c, behind, -, hword, hc, rfl⟩ := splitAtBlank?_cases cs
  · exact .inl ⟨hcs, hnone⟩
  obtain ⟨before, after, hb, ha, hbehind⟩ := exists_trim behind
  refine .inr ⟨word, trim behind, ?_, hword, ?_, trimmed_trim behind, c :: before, ?_, ?_⟩
  · rintro rfl
    exact absurd hc (by simp [h.head c rfl])
  · intro hnil
    rw [hnil, List.append_nil] at hbehind
    refine h.not_allBlank_of_append (by simp) ?_
    intro d hd
    rw [hbehind, List.mem_cons, List.mem_append] at hd
    rcases hd with rfl | hd | hd
    · exact hc
    · exact hb d hd
    · exact ha d hd
  · exact ⟨by simp, allBlank_cons.mpr ⟨hc, hb⟩⟩
  · have hafter : after = [] := by
      by_contra hne
      have htext : word ++ c :: behind = word ++ c :: (before ++ trim behind) ++ after := by
        rw [List.append_assoc, List.cons_append, ← hbehind]
      exact (htext ▸ h).not_allBlank_of_append hne ha
    rw [hafter, List.append_nil] at hbehind
    rw [List.append_assoc, List.cons_append, ← hbehind]

end UndoJournal.Text
