import UndoJournal.Bench.Widget
import UndoJournal.Proofs.Action.Outcome
import UndoJournal.Proofs.Outline.Acts
import UndoJournal.Proofs.Screen.Gestures

/-!
# A user at the bench

The listeners of a `WidgetBench` write down what they hear and do nothing else, so a gesture comes
to what the outline makes of it, and each of its signals is heard by every listener for its kind
that is not blocked (`WidgetBench.told`).

**Whatever a user does to a widget that was shown a timeline**, what can be seen fits together, and
what is done next is told exactly if it changes something (`WidgetBench.acted_of_after`): a click
that selects another row, an expander that opens or closes a run. A place without a row is refused,
and a row without an expander does nothing when that is used.
-/

namespace UndoJournal

namespace WidgetBench

/-! ### What listeners hear -/

/-- The bench after listeners wrote down what they heard. -/
def noting (b : WidgetBench) (hs : List Heard) : WidgetBench := { b with heard := b.heard ++ hs }

@[simp] theorem noting_nil (b : WidgetBench) : b.noting [] = b := by simp [noting]

@[simp] theorem noting_noting (b : WidgetBench) (hs hs' : List Heard) :
    (b.noting hs).noting hs' = b.noting (hs ++ hs') := by simp [noting]

/-- What a listener writes down about a signal. -/
def hearing (b : WidgetBench) (signal : Signal) (listener : Nat) : Heard :=
  ⟨listener, signal, b.widget.outline.selectedPosition?, b.widget.outline.visible.length⟩

/-- What is heard when signals are fired one after another: each by all listeners for its kind that
are not blocked, in order of registration. -/
def deliveries (b : WidgetBench) (signals : List Signal) : List Heard :=
  signals.flatMap fun signal => (b.widget.hub.receivers signal).map (b.hearing signal)

/-- The bench after the outline was replaced and signals were fired. -/
def told (b : WidgetBench) (r : Response) : WidgetBench :=
  let b' := { b with widget := { b.widget with outline := r.outline } }
  b'.noting (b'.deliveries r.signals)

variable {b : WidgetBench}

/-- A response that changes nothing and fires nothing leaves the bench as it is. -/
private theorem told_eq_self {r : Response} (houtline : r.outline = b.widget.outline)
    (hsignals : r.signals = []) : b.told r = b := by
  simp [told, houtline, hsignals, deliveries]

/-- Calling listeners makes them write down what they hear. -/
private theorem gives_each_call (signal : Signal) (listeners : List Nat) (b : WidgetBench) :
    (Action.each (fun listener => wiring.call listener signal) listeners).Gives b fun _ b' =>
      b' = b.noting (listeners.map (b.hearing signal)) := by
  induction listeners generalizing b with
  | nil => simp
  | cons listener listeners ih =>
    rw [Action.each_cons, Action.gives_bind]
    refine (Action.gives_modify _).mpr ((ih _).mono ?_)
    rintro _ _ rfl
    exact b.noting_noting [b.hearing signal listener] (listeners.map (b.hearing signal))

/-- Firing signals makes those who are to hear of them write that down. -/
private theorem gives_each_emit (signals : List Signal) (b : WidgetBench) :
    (Action.each (Hub.emit (wiring.widget.comp Widget.hubLens) wiring.call) signals).Gives b
      fun _ b' => b' = b.noting (b.deliveries signals) := by
  induction signals generalizing b with
  | nil => simp [deliveries]
  | cons signal signals ih =>
    rw [Action.each_cons, Action.gives_bind]
    simp only [Hub.emit, Action.gives_bind, Action.gives_get, Action.gives_note]
    refine (gives_each_call signal _ b).mono ?_
    rintro _ _ rfl
    refine (ih _).mono ?_
    rintro _ _ rfl
    rw [noting_noting]
    rfl

theorem gives_enact (r : Response) (b : WidgetBench) :
    (wiring.enact r).Gives b fun _ b' => b' = b.told r := by
  simp only [Wiring.enact, Action.gives_bind, Action.gives_modify, Action.gives_report]
  exact gives_each_emit r.signals _

/-! ### Gestures -/

/-- Make a gesture; whether an expander changed something comes along. -/
def make (g : Gesture) : Action WidgetBench (Except ViewError Bool) := wiring.make g

/-- The bench after some gestures. -/
def after (b : WidgetBench) (gs : List Gesture) : WidgetBench :=
  gs.foldl (fun b g => ((make g).run b).state) b

/-- A bench answers with the result of the outline, and takes on and tells a response. -/
def Follows (b : WidgetBench) (result : Except ViewError (Bool × Response))
    (answer : Except ViewError Bool) (b' : WidgetBench) : Prop :=
  match result with
  | .error e => answer = .error e ∧ b' = b
  | .ok (changed, r) => answer = .ok changed ∧ b' = b.told r

/-- **A gesture comes to what the outline makes of it.** -/
theorem gives_make (g : Gesture) (b : WidgetBench) :
    (make g).Gives b (b.Follows (b.widget.outline.respond g)) := by
  have hlook : (wiring.widget.get b).outline = b.widget.outline := rfl
  rw [make, Wiring.make_eq_use]
  simp only [Wiring.use, Wiring.outline, Action.gives_bind, Action.gives_get, Action.gives_pure]
  rw [hlook]
  rcases b.widget.outline.respond g with e | ⟨changed, r⟩
  · exact (Action.gives_pure _).mpr ⟨rfl, rfl⟩
  · rw [Action.gives_bind]
    refine (gives_enact r b).mono ?_
    rintro _ _ rfl
    exact (Action.gives_pure _).mpr ⟨rfl, rfl⟩

/-- A gesture was made on a bench: the answer, and the bench afterwards, by what was at its row. -/
structure Acted (b : WidgetBench) (g : Gesture) (answer : Except ViewError Bool)
    (b' : WidgetBench) : Prop where
  /-- Where there is no row, nothing happens. -/
  missing : b.widget.outline.visible.length ≤ g.index →
    answer = .error (.noVisibleRow g.index) ∧ b' = b
  /-- A row that is clicked is selected, which is told if another one was. -/
  clicked : g.usesExpander = false → ∀ row, b.widget.outline.visible[g.index]? = some row →
    answer = .ok false ∧ ∃ r, b.widget.outline.Clicked row r ∧ b' = b.told r
  /-- A row without an expander does nothing. -/
  leaf : g.usesExpander = true → ∀ row, b.widget.outline.visible[g.index]? = some row →
    (row.isChild = true ∨ row.childCount = 0) → answer = .ok false ∧ b' = b
  /-- An expander turns its run as was wanted, which is answered and told if it changes anything. -/
  turned : g.usesExpander = true → ∀ row, b.widget.outline.visible[g.index]? = some row →
    row.isChild = false → row.childCount ≠ 0 →
    ∃ group changed r, row.position = .on (.ofHead group) ∧ answer = .ok changed ∧
      b.widget.outline.Turned group (g.wants (b.widget.outline.isExpanded group)) changed r ∧
      b' = b.told r ∧ (changed = false → b' = b)

private theorem acted_of_acts {b b' : WidgetBench} {g : Gesture}
    {result : Except ViewError (Bool × Response)} {answer : Except ViewError Bool}
    (h : b.widget.outline.Acts g result) (hb : b.Follows result answer b') :
    b.Acted g answer b' := by
  cases h with
  | missing hlen =>
    have hnone : b.widget.outline.visible[g.index]? = none := List.getElem?_eq_none hlen
    have hnot : ∀ row, b.widget.outline.visible[g.index]? ≠ some row := by simp [hnone]
    exact ⟨fun _ => hb, fun _ row hrow => absurd hrow (hnot row),
      fun _ row hrow => absurd hrow (hnot row), fun _ row hrow => absurd hrow (hnot row)⟩
  | click hrow hclicked =>
    obtain ⟨rfl, rfl⟩ := hb
    refine ⟨fun hlen => ?_, fun _ row' hrow' => ?_, nofun, nofun⟩
    · exact absurd (List.getElem?_eq_some_iff.mp hrow).1 (Nat.not_lt.mpr hlen)
    · obtain rfl := Option.some.inj (hrow.symm.trans hrow')
      exact ⟨rfl, _, hclicked, rfl⟩
  | leaf hg hrow hleaf houtline hsignals =>
    obtain ⟨rfl, rfl⟩ := hb
    rw [told_eq_self houtline hsignals]
    refine ⟨fun hlen => ?_, fun hg' => (nomatch hg.symm.trans hg'), fun _ _ _ _ => ⟨rfl, rfl⟩,
      fun _ row' hrow' hchild hcount => ?_⟩
    · exact absurd (List.getElem?_eq_some_iff.mp hrow).1 (Nat.not_lt.mpr hlen)
    · obtain rfl := Option.some.inj (hrow.symm.trans hrow')
      obtain hchild' | hcount' := hleaf
      · cases hchild.symm.trans hchild'
      · exact absurd hcount' hcount
  | turn hg hrow hcount hposition hturned =>
    obtain ⟨rfl, rfl⟩ := hb
    have hidle := fun hchanged => told_eq_self (hturned.idle hchanged).1 (hturned.idle hchanged).2
    refine ⟨fun hlen => ?_, fun hg' => (nomatch hg.symm.trans hg'), fun _ row' hrow' hleaf => ?_,
      fun _ row' hrow' _ _ => ?_⟩
    · exact absurd (List.getElem?_eq_some_iff.mp hrow).1 (Nat.not_lt.mpr hlen)
    · obtain rfl := Option.some.inj (hrow.symm.trans hrow')
      obtain hchild | hcount' := hleaf
      · simp [Row.isChild, hposition, Address.ofHead, Address.isChild] at hchild
      · exact absurd hcount' hcount
    · obtain rfl := Option.some.inj (hrow.symm.trans hrow')
      exact ⟨_, _, _, hposition, rfl, hturned, rfl, hidle⟩

/-! ### Any gestures -/

/-- The bench shows the timeline, and a selected row can be seen. -/
structure Sound (t : Timeline) (b : WidgetBench) : Prop where
  shown : b.widget.outline.shown = t
  inSight : b.widget.outline.InSight

/-- **A gesture shows no other timeline and hides no selected row.** -/
theorem Sound.gives_make {t : Timeline} (h : b.Sound t) (hn : t.Numbered) (g : Gesture) :
    (make g).Gives b fun _ b' => b'.Sound t := by
  refine (WidgetBench.gives_make g b).mono fun answer b' hb => ?_
  rcases hr : b.widget.outline.respond g with e | ⟨changed, r⟩ <;> rw [hr] at hb <;>
    obtain ⟨-, rfl⟩ := hb
  · exact h
  · obtain ⟨hsight, hshown⟩ := h.inSight.of_respond (h.shown.symm ▸ hn) hr
    exact ⟨hshown.trans h.shown, hsight⟩

private theorem Sound.after {t : Timeline} (h : b.Sound t) (hn : t.Numbered) (gs : List Gesture) :
    (b.after gs).Sound t := by
  induction gs generalizing b with
  | nil => exact h
  | cons g gs ih =>
    have hstep : (make g).Leaves b fun _ b' => b'.Sound t :=
      (h.gives_make hn g).leaves fun _ _ h' => h'
    exact ih hstep

/-- A widget that was shown a timeline and nothing else, beside that timeline, with any
listeners. -/
def showing (settings : Settings) (guides : Guides) (viewport : Nat) (t : Timeline) (hub : Hub Nat)
    (handles : List Connection) : WidgetBench :=
  ⟨t, ⟨((Outline.empty settings guides viewport).rebuild t).outline, hub⟩, handles, []⟩

private theorem sound_showing (settings : Settings) (guides : Guides) (viewport : Nat)
    (t : Timeline)
    (hub : Hub Nat) (handles : List Connection) :
    (showing settings guides viewport t hub handles).Sound t := ⟨rfl, nofun⟩

/-- **What a user can see fits together, and what is told is what changed**, whatever the timeline,
the settings and the listeners, and whatever the user did before. -/
theorem acted_of_after {grouping : Bool} {given : List Entry} {t : Timeline}
    (h : Timeline.Made grouping given t) (settings : Settings) (guides : Guides) (viewport : Nat)
    (hub : Hub Nat) (handles : List Connection) (gs : List Gesture) :
    let b := (showing settings guides viewport t hub handles).after gs
    b.widget.outline.shown = t ∧ b.widget.outline.Coherent ∧
      ∀ g, (make g).Gives b (b.Acted g) := by
  intro b
  have hn : t.Numbered := h.sound.numbered
  have hsound : b.Sound t := (sound_showing settings guides viewport t hub handles).after hn gs
  have hn' : b.widget.outline.shown.Numbered := hsound.shown.symm ▸ hn
  refine ⟨hsound.shown, hsound.inSight.coherent hn', fun g => ?_⟩
  exact (gives_make g b).mono fun _ _ hb => acted_of_acts (Outline.acts_respond hn' g) hb

/-- Two strokes and an erasure. -/
def strokes : Timeline :=
  ((((Timeline.empty true).append ⟨⟨0⟩, "stroke", ""⟩).2.append ⟨⟨1⟩, "stroke", ""⟩).2.append
    ⟨⟨2⟩, "erasure", ""⟩).2

/-- One listener for each kind of signals. -/
def attended : Hub Nat :=
  (((Hub.empty.connect .selectionChanged 0).2.connect .rowExpanded 1).2.connect .rowCollapsed 2).2

/-- The user opens the strokes and selects the second one; closing them again moves the selection to
the first one before it is told that they are closed. -/
theorem acted_of_after_strokes :
    let b := (showing {} .unicode 0 strokes attended []).after [.expand 1, .click 2]
    (b.widget.outline.shown = strokes ∧ b.widget.outline.Coherent ∧
        ∀ g, (make g).Gives b (b.Acted g)) ∧
      b.widget.outline.selectedPosition? = some (.on (.ofChild 0 0)) ∧
      ((make (.collapse 1)).run b).state.heard =
        [⟨1, .rowExpanded 0, none, 4⟩,
          ⟨0, .selectionChanged (some (.on (.ofChild 0 0))), some (.on (.ofChild 0 0)), 4⟩,
          ⟨0, .selectionChanged (some (.on (.ofHead 0))), some (.on (.ofHead 0)), 3⟩,
          ⟨2, .rowCollapsed 0, some (.on (.ofHead 0)), 3⟩] := by
  have hempty : Timeline.Made true [] (.empty true) := .empty
  have hstrokes := ((hempty.append ⟨⟨0⟩, "stroke", ""⟩).append ⟨⟨1⟩, "stroke", ""⟩).append
    ⟨⟨2⟩, "erasure", ""⟩
  exact ⟨acted_of_after hstrokes {} .unicode 0 attended [] [.expand 1, .click 2],
    by decide +kernel, by decide +kernel⟩

end WidgetBench

end UndoJournal
