import UndoJournal.Proofs.Outline.Commands

/-!
# Outlines that differ in the selection

What is selected decides nothing but what is selected: **outlines that differ in nothing else do so
after any commands, and are equal once a command has said what is selected**
(`Outline.Beside.performAll`).
-/

namespace UndoJournal

/-- Whether a command says what is selected. -/
def ViewCommand.selects : ViewCommand → Bool
  | .select _ | .clearSelection => true
  | .rebuild _ | .expandTo _ | .collapseGroup _ | .scrollTo _ => false

namespace Outline

variable {o o' : Outline} {c : ViewCommand} {r r' : Response}

/-- The outlines differ in nothing but what is selected. -/
def Beside (o o' : Outline) : Prop := o' = { o with selected := o'.selected }

theorem beside_of_eq (h : o' = o) : o.Beside o' := by rw [h]; rfl

/-! ### One command -/

theorem beside_rebuild (o : Outline) (selected : Option RowKey) (t : Timeline) :
    (o.rebuild t).outline.Beside (rebuild { o with selected := selected } t).outline := by
  simp only [rebuild]
  split <;> split <;> (try split) <;> (try split) <;> rfl

/-- Expanding a run does not look at the selection. -/
private theorem expand_selecting (o : Outline) (selected : Option RowKey) (group : Nat) :
    expand { o with selected := selected } group =
      ((o.expand group).1, { (o.expand group).2 with selected := selected }) := by
  simp only [expand]
  split
  · rfl
  · split <;> rfl

private theorem beside_collapse (o : Outline) (selected : Option RowKey) (group : Nat)
    (source : String) :
    (o.collapse group source).2.outline.Beside
      (collapse { o with selected := selected } group source).2.outline := by
  have hshut : shut { o with selected := selected } group =
      ((o.shut group).1, { (o.shut group).2 with selected := selected }) := by
    simp only [shut]
    split <;> rfl
  simp only [collapse, hshut]
  split
  · rfl
  · split
    · split <;> split <;> rfl
    · rfl

/-- **After the same command, the outlines still differ in the selection at most**, and do not if
the command says what is selected. -/
theorem Beside.perform (h : o.Beside o') (hr : o.perform c = .ok r) (hr' : o'.perform c = .ok r') :
    r.outline.Beside r'.outline ∧ (c.selects = true → r'.outline = r.outline) := by
  obtain ⟨k, rfl⟩ : ∃ k, o' = { o with selected := k } := ⟨_, h⟩
  cases c with
  | rebuild t =>
    cases hr
    cases hr'
    exact ⟨beside_rebuild o k t, fun h => by cases h⟩
  | select a =>
    obtain ⟨row, hrow, heq⟩ := select_eq_ok hr
    obtain ⟨row', hrow', heq'⟩ := select_eq_ok hr'
    obtain rfl : row = row' := Option.some.inj (hrow.symm.trans hrow')
    have hsame : r'.outline = r.outline := heq'.trans heq.symm
    exact ⟨beside_of_eq hsame, fun _ => hsame⟩
  | clearSelection =>
    cases hr
    cases hr'
    exact ⟨rfl, fun _ => rfl⟩
  | expandTo a =>
    refine ⟨?_, fun h => by cases h⟩
    rw [outline_of_expandTo hr, outline_of_expandTo hr', expand_selecting o k]
    split <;> rfl
  | collapseGroup group =>
    refine ⟨?_, fun h => by cases h⟩
    simp only [Outline.perform, collapseGroup] at hr hr'
    rcases hhead : o.shown.head? group with _ | e <;> rw [hhead] at hr hr' <;> cases hr
    cases hr'
    exact beside_collapse o k group "sync"
  | scrollTo a =>
    refine ⟨?_, fun h => by cases h⟩
    obtain ⟨row, hrow, hplace⟩ := scrollTo_eq_ok hr
    obtain ⟨row', hrow', hplace'⟩ := scrollTo_eq_ok hr'
    obtain rfl : row = row' := Option.some.inj (hrow.symm.trans hrow')
    -- where a row is placed does not depend on the selection
    change (o.placeOrHead? a row.key = none ∧ _) ∨ _ at hplace'
    obtain ⟨hnone, heq⟩ | ⟨i, hi, heq⟩ := hplace <;>
      obtain ⟨hnone', heq'⟩ | ⟨i', hi', heq'⟩ := hplace'
    · rw [heq, heq']
      rfl
    · cases hnone.symm.trans hi'
    · cases hi.symm.trans hnone'
    · obtain rfl : i = i' := Option.some.inj (hi.symm.trans hi')
      rw [heq, heq']
      rfl

/-! ### Any commands -/

/-- **Outlines that differ in the selection are equal once a command has said what is selected.** -/
theorem Beside.performAll {o₁ o₁' : Outline} {cs : List ViewCommand} (h : o.Beside o')
    (hr : o.performAll cs = .ok o₁) (hr' : o'.performAll cs = .ok o₁') :
    o₁.Beside o₁' ∧ ((∃ c ∈ cs, c.selects = true) → o₁' = o₁) := by
  induction cs generalizing o o' with
  | nil =>
    cases hr
    cases hr'
    exact ⟨h, by simp⟩
  | cons c cs ih =>
    obtain ⟨r, hc, hrest⟩ := performAll_cons_eq_ok.mp hr
    obtain ⟨r', hc', hrest'⟩ := performAll_cons_eq_ok.mp hr'
    obtain ⟨hbeside, hsame⟩ := h.perform hc hc'
    obtain ⟨hend, hselected⟩ := ih hbeside hrest hrest'
    refine ⟨hend, fun hex => ?_⟩
    obtain hselects | hlater : c.selects = true ∨ ∃ c ∈ cs, c.selects = true := by simpa using hex
    · -- from here on, both do the same to the same outline
      rw [hsame hselects, hrest] at hrest'
      exact (Except.ok.inj hrest').symm
    · exact hselected hlater

end Outline

end UndoJournal
