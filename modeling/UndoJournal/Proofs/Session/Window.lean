import UndoJournal.Proofs.Screen.Scrolling
import UndoJournal.Proofs.Session.Gestures

/-!
# The screen of a session as a window on the rows

The screen of a session shows the rows from an offset on. `Session.Windowed` says what is true of
that between deeds: the screen has room, the sentinel is wanted, and above the first entry there is
the sentinel at most, as long as the cursor is on that entry. This is what keeps the window from
getting empty when the cursor goes on to the start, which is not scrolled to.

`Session.Scrolled` says what a deed makes of the window. There are three ways to get there: nothing
is scrolled (`Windowed.scrolled_still`), the screen is told where the cursor is
(`Windowed.scrolled_of_aims`), or the cursor is walked to another ordinal
(`Windowed.scrolled_of_roams`), on whose way `Screen.Roams` is carried along from one ordinal to the
next.
-/

namespace UndoJournal

namespace Screen

variable {s₀ s s' : Screen} {m k : Nat}

/-- What becomes of a screen while the cursor walks from ordinal `m` and is at ordinal `k`. -/
structure Roams (s₀ : Screen) (m k : Nat) (s : Screen) : Prop where
  settings : s.link.settings = s₀.link.settings
  frame : s₀.widget.outline.SameFrame s.widget.outline
  /-- Only a step to a node scrolls. -/
  still : s₀.link.settings.scrollToCurrent = false ∨ k = m ∨ (k = 0 ∧ m = 1) →
    s.widget.outline.scrollOffset = s₀.widget.outline.scrollOffset
  inRange : s₀.link.settings.scrollToCurrent = true → k ≠ m → 0 < k → s.widget.outline.InRange
  /-- A walk to the start comes past the first entry. -/
  near : s₀.link.settings.scrollToCurrent = true → k ≠ m → k ≤ 1 → m ≠ 1 →
    s.widget.outline.scrollOffset ≤ 1

/-- Where a walk begins, nothing has been scrolled. -/
theorem Roams.start (hsettings : s.link.settings = s₀.link.settings)
    (h : s₀.widget.outline.Still s.widget.outline) (m : Nat) : s₀.Roams m m s :=
  ⟨hsettings, h.toSameFrame, fun _ => h.scrollOffset, fun _ hne => absurd rfl hne,
    fun _ hne => absurd rfl hne⟩

/-- **What is said of a walk is carried along** from one ordinal to the next. -/
theorem Roams.step (h : s₀.Roams m k s) {t : Timeline} {p : Position} {k' : Nat}
    (hp : t.ordinal p = .ok k') (ha : s.Aims p s') (hroom : 0 < s₀.widget.outline.viewport)
    (hsentinel : s₀.widget.outline.showSentinel = true) (hk' : k' ≠ m) (hback : k' = 0 → k = 1) :
    s₀.Roams m k' s' := by
  have hroom' : 0 < s.widget.outline.viewport := h.frame.viewport ▸ hroom
  have hsentinel' := h.frame.showSentinel.trans hsentinel
  have hstart : k' = 0 → p = .start := fun h0 => Timeline.eq_of_ordinal_eq (h0 ▸ hp) rfl
  refine ⟨ha.settings.trans h.settings, h.frame.trans ha.toSameFrame, ?_, ?_, ?_⟩
  · rintro (hoff | rfl | ⟨h0, h1⟩)
    · exact (ha.still (.inl (h.settings ▸ hoff))).trans (h.still (.inl hoff))
    · exact absurd rfl hk'
    · -- from the first entry, where the walk began, to the start
      exact (ha.still (.inr (hstart h0))).trans (h.still (.inr (.inl ((hback h0).trans h1.symm))))
  · intro hon _ hpos
    refine ha.inRange (h.settings ▸ hon) ?_ hroom'
    rintro rfl
    exact absurd (Except.ok.inj hp) (Nat.ne_of_lt hpos)
  · intro hon _ hle hm
    obtain h0 | rfl : k' = 0 ∨ k' = 1 := by omega
    · obtain rfl := hback h0
      rw [ha.still (.inr (hstart h0))]
      exact h.near hon (Ne.symm hm) (Nat.le_refl _) hm
    · exact ha.near (h.settings ▸ hon) ((Timeline.eq_first_iff hp).mpr rfl) hroom' hsentinel'

end Screen

namespace Session

/-- Whether the view scrolls to the cursor. -/
def scrolling (s : Session) : Bool := s.desk.around.screen.link.settings.scrollToCurrent

/-- The screen is a window on the rows: it has room, the sentinel is wanted, and above the first
entry there is the sentinel at most, as long as the cursor is on it. -/
structure Windowed (s : Session) : Prop where
  room : 0 < s.outline.viewport
  sentinel : s.outline.showSentinel = true
  unscrolled : s.scrolling = false → s.outline.scrollOffset = 0
  near : s.desk.journal.cursor = .on (.ofHead 0) → s.outline.scrollOffset ≤ 1

/-- After a deed that scrolls, the window is in range; otherwise it stands still, and stays in range
unless rows went away. -/
structure Scrolled (s : Session) (scrolls shrinks : Prop) (s' : Session) : Prop where
  windowed : s'.Windowed
  inRange : scrolls → s'.outline.InRange
  still : ¬ scrolls → s'.outline.scrollOffset = s.outline.scrollOffset
  kept : ¬ shrinks → s.outline.InRange → s'.outline.InRange

variable {s s' s₀ : Session} {m n q : Nat} {scrolls shrinks : Prop}

/-! ### Three ways to get on -/

/-- A view that does not scroll is at its top, where there is the sentinel. -/
private theorem Windowed.inRange_of_unscrolled (h : s.Windowed) (hoff : s.scrolling = false) :
    s.outline.InRange := by
  rw [Outline.InRange, h.unscrolled hoff]
  exact Outline.visible_pos h.sentinel

/-- Where nothing is scrolled, the window stays one. -/
private theorem Windowed.of_still (h : s.Windowed)
    (hsettings : s'.desk.around.screen.link.settings = s.desk.around.screen.link.settings)
    (hstill : s.outline.Still s'.outline)
    (hcursor : s'.desk.journal.cursor = .on (.ofHead 0) →
      s.desk.journal.cursor = .on (.ofHead 0)) : s'.Windowed where
  room := hstill.viewport.symm ▸ h.room
  sentinel := hstill.showSentinel.trans h.sentinel
  unscrolled hoff := hstill.scrollOffset.trans
    (h.unscrolled ((congrArg ViewSettings.scrollToCurrent hsettings).symm.trans hoff))
  near hat := hstill.scrollOffset ▸ h.near (hcursor hat)

/-- A deed that leaves the window where it was, and hides no row unless it may. -/
theorem Windowed.scrolled_still (h : s.Windowed)
    (hsettings : s'.desk.around.screen.link.settings = s.desk.around.screen.link.settings)
    (hstill : s.outline.Still s'.outline)
    (hcursor : s'.desk.journal.cursor = .on (.ofHead 0) →
      s.desk.journal.cursor = .on (.ofHead 0)) (hnot : ¬ scrolls)
    (hle : ¬ shrinks → s.outline.visible.length ≤ s'.outline.visible.length) :
    s.Scrolled scrolls shrinks s' where
  windowed := h.of_still hsettings hstill hcursor
  inRange hscrolls := absurd hscrolls hnot
  still _ := hstill.scrollOffset
  kept hshrinks hin := by
    rw [Outline.InRange, hstill.scrollOffset]
    exact Nat.lt_of_lt_of_le hin (hle hshrinks)

/-- A deed that leaves the session as it was. -/
theorem Windowed.scrolled_unmoved (h : s.Windowed) (hnot : ¬ scrolls) :
    s.Scrolled scrolls shrinks s :=
  h.scrolled_still rfl (.refl _) id hnot fun _ => Nat.le_refl _

/-- The screen was told where the cursor is. -/
theorem Windowed.scrolled_of_aims (h : s.Windowed) {screen : Screen}
    (hsettings : screen.link.settings = s.desk.around.screen.link.settings)
    (hstill : s.outline.Still screen.widget.outline)
    (ha : screen.Aims s'.desk.journal.cursor s'.desk.around.screen)
    (hscrolls : scrolls ↔ s.scrolling = true ∧ s'.desk.journal.cursor ≠ .start)
    (hshrinks : s'.desk.journal.cursor = .start → shrinks) : s.Scrolled scrolls shrinks s' := by
  have hroom : 0 < screen.widget.outline.viewport := hstill.viewport.symm ▸ h.room
  have hsentinel := hstill.showSentinel.trans h.sentinel
  have hoff : s.scrolling = false → s'.outline.scrollOffset = 0 := fun hoff =>
    ((ha.still (.inl (hsettings ▸ hoff))).trans hstill.scrollOffset).trans (h.unscrolled hoff)
  have hsame : s'.scrolling = s.scrolling :=
    congrArg ViewSettings.scrollToCurrent (ha.settings.trans hsettings)
  -- without scrolling the offset never moves, and with it the push has just aimed it
  have hwindowed : s'.Windowed :=
    { room := ha.viewport.symm ▸ hroom
      sentinel := ha.showSentinel.trans hsentinel
      unscrolled := fun h' => hoff (hsame ▸ h')
      near := fun hat => by
        rcases hs : s.scrolling with _ | _
        · exact hoff hs ▸ Nat.zero_le _
        · exact ha.near (hsettings ▸ hs) hat hroom hsentinel }
  have hin : s.scrolling = true → s'.desk.journal.cursor ≠ .start → s'.outline.InRange :=
    fun hs hnot => ha.inRange (hsettings ▸ hs) hnot hroom
  refine ⟨hwindowed, fun hyes => hin (hscrolls.mp hyes).1 (hscrolls.mp hyes).2, fun hno => ?_,
    fun hno _ => ?_⟩
  · refine (ha.still ?_).trans hstill.scrollOffset
    rw [hscrolls, not_and, not_not] at hno
    rcases hs : s.scrolling with _ | _
    · exact .inl (hsettings ▸ hs)
    · exact .inr (hno hs)
  · rcases hs : s.scrolling with _ | _
    · exact hwindowed.inRange_of_unscrolled (hsame.trans hs)
    · exact hin hs fun hstart => hno (hshrinks hstart)

/-- The cursor was walked to another ordinal. -/
theorem Windowed.scrolled_of_roams (h₀ : s₀.Windowed) (hrest : s₀.AtRest)
    (h : Walked s₀ q q false s') (hr : s₀.desk.around.screen.Roams m q s'.desk.around.screen)
    (hm : s₀.document.applied.length = m) (hq : q ≠ m)
    (hscrolls : scrolls ↔ s₀.scrolling = true ∧ (q = 0 → m ≠ 1)) :
    s₀.Scrolled scrolls shrinks s' := by
  subst hm
  have hcursor₀ := hrest.ordinal_cursor
  have hcursor := h.traces.cursor
  have hsame : s'.scrolling = s₀.scrolling := congrArg ViewSettings.scrollToCurrent hr.settings
  have hsentinel : s'.outline.showSentinel = true := hr.frame.showSentinel.trans h₀.sentinel
  have hoff : s₀.scrolling = false → s'.outline.scrollOffset = 0 := fun hoff =>
    (hr.still (.inl hoff)).trans (h₀.unscrolled hoff)
  have hwindowed : s'.Windowed :=
    { room := hr.frame.viewport.symm ▸ h₀.room
      sentinel := hsentinel
      unscrolled := fun h' => hoff (hsame ▸ h')
      near := fun hat => by
        rcases hs : s₀.scrolling with _ | _
        · exact hoff hs ▸ Nat.zero_le _
        · obtain rfl : q = 1 := (Timeline.eq_first_iff hcursor).mp hat
          exact hr.near hs hq (Nat.le_refl _) (Ne.symm hq) }
  have hin : s'.outline.InRange := by
    rcases hs : s₀.scrolling with _ | _
    · exact hwindowed.inRange_of_unscrolled (hsame.trans hs)
    · obtain rfl | hpos := Nat.eq_zero_or_pos q
      · -- the walk came past the first entry, or began there
        have hnear : s'.outline.scrollOffset ≤ 1 := by
          by_cases hone : s₀.document.applied.length = 1
          · rw [hr.still (.inr (.inr ⟨rfl, hone⟩))]
            exact h₀.near ((Timeline.eq_first_iff hcursor₀).mpr hone)
          · exact hr.near hs hq (Nat.zero_le _) hone
        have hshown : s'.outline.shown = s₀.desk.journal.timeline :=
          (hrest.moored.abreast.since h.holds.good).shown
        have hruns : s'.outline.shown.runs ≠ [] :=
          hshown ▸ Timeline.runs_ne_nil_of_ordinal hcursor₀ (Nat.pos_of_ne_zero (Ne.symm hq))
        exact Nat.lt_of_le_of_lt hnear (Outline.one_lt_length_visible hsentinel hruns)
      · exact hr.inRange hs hq hpos
  refine ⟨hwindowed, fun _ => hin, fun hno => hr.still ?_, fun _ _ => hin⟩
  rw [hscrolls, not_and, Classical.not_imp, not_not] at hno
  rcases hs : s₀.scrolling with _ | _
  · exact .inl hs
  · exact .inr (.inr (hno hs))

/-- Afterwards, nothing of the screen was touched. -/
theorem Scrolled.of_outline (h : s.Scrolled scrolls shrinks s₀)
    (hsettings : s'.desk.around.screen.link.settings = s₀.desk.around.screen.link.settings)
    (houtline : s'.outline = s₀.outline)
    (hcursor : s'.desk.journal.cursor = .on (.ofHead 0) →
      s₀.desk.journal.cursor = .on (.ofHead 0)) : s.Scrolled scrolls shrinks s' where
  windowed := h.windowed.of_still hsettings (houtline ▸ .refl _) hcursor
  inRange hyes := houtline ▸ h.inRange hyes
  still hno := houtline ▸ h.still hno
  kept hno hin := houtline ▸ h.kept hno hin

end Session

end UndoJournal
