import UndoJournal.Proofs.Session.Rest

/-!
# How a session at rest attends to a gesture

In a session at rest nothing keeps the screen from attending to its user, so a gesture is the new
outline and, signal by signal, what the navigator makes of the act that the signal tells of
(`Session.gives_attend`). A selection is a walk, of which one may know what it does to the screen
(`Session.gives_attend_walk`) or to the outline alone (`Session.gives_attend_select`); a run that is
closed is stepped through or not, and the screen is told nothing
(`Session.gives_attend_collapse_untold`, `Session.gives_attend_collapse`); for a run that is opened
the view is told where the cursor is, or nothing (`Session.gives_attend_expand_told`), which marks
the cursor (`Session.gives_attend_expand`).

The navigator never meets an error on the way, so **the user is answered what the outline answers**
(`AtRest.gives_click_of`, `AtRest.gives_used`).
-/

namespace UndoJournal

/-- Where the cursor moves from one ordinal to another, what is said of the outline for the one is
carried over to the other. -/
def Outline.Carries (t : Timeline) (J : Nat → Outline → Prop) (m n : Nat) : Prop :=
  ∀ o p o', t.ordinal p = .ok n → Outline.Follows o p o' → J m o → J n o'

/-- What is said is carried along all the way from one ordinal to another. -/
def Outline.CarriesAlong (t : Timeline) (J : Nat → Outline → Prop) (m n : Nat) : Prop :=
  (∀ k, n ≤ k → k < m → Carries t J (k + 1) k) ∧ ∀ k, m ≤ k → k < n → Carries t J k (k + 1)

/-- **A navigator that is idle acts**, and has no error to keep in mind if that goes well. -/
theorem Navigator.gives_handle {σ : Type} {l : Lens σ Navigator} {c : Controls σ} {act : UserAct}
    {s : σ} {post : Unit → σ → Prop} (hidle : (l.get s).presence = .idle)
    (h : (c.act act).Gives (l.modify (fun n => { n with presence := .busy }) s) fun answer s' =>
      answer = .ok () ∧ post () (l.modify (fun n => { n with presence := .idle }) s')) :
    (handle l c act).Gives s post := by
  simp only [handle, acting, hidle, Action.gives_bind, Action.gives_get, Action.gives_bracket]
  refine h.mono ?_
  rintro _ s' ⟨rfl, hs'⟩
  exact (Action.gives_pure _).mpr hs'

namespace Session

variable {s s₀ : Session} {n m q : Nat} {J : Nat → Outline → Prop}

/-- On a screen that is abreast, the updates of a walk carry along what is said of the outline. -/
private theorem Moored.carriesAlong (h : s₀.Moored)
    (hcarry : Outline.CarriesAlong s₀.desk.journal.timeline J m n) :
    CarriesAlong s₀ (fun k screen => J k screen.widget.outline) m n := by
  have hstep : ∀ k k', Outline.Carries s₀.desk.journal.timeline J k k' →
      Carries s₀ (fun k screen => J k screen.widget.outline) k k' := by
    intro k k' hcarries screen u hs hu hJ
    have habreast := h.abreast.since hs
    have hcontains := Timeline.contains_iff_exists_ordinal.mpr ⟨k', hu.current⟩
    exact (habreast.follows h.numbered hcontains hu.left).mono fun _ screen' hfollows =>
      hcarries _ _ _ hu.current hfollows hJ
  exact ⟨fun k hle hlt => hstep _ _ (hcarry.1 k hle hlt),
    fun k hle hlt => hstep _ _ (hcarry.2 k hle hlt)⟩

/-! ### Signals -/

/-- The session when the navigator is told of a signal: the signal is written down, and the act is
counted. -/
def telling (s : Session) (signal : Signal) : Session :=
  aroundLens.modify Surroundings.probe
    (screenLens.modify (Stage.onTraffic fun t => t.write (.fired signal false)) s)

/-- The session while the navigator acts on a signal. -/
def acting (s : Session) (signal : Signal) : Session :=
  navigatorLens.set ⟨.busy, none⟩ (s.telling signal)

/-- A navigator that is fresh is one that has acted. -/
private theorem set_fresh (h : s.desk.around.navigator = .fresh) :
    navigatorLens.set .fresh s = s := by
  rw [← h]
  rfl

/-- Starting to act walks nowhere. -/
theorem Walked.acting (h : Walked s₀ n n false s) (signal : Signal) :
    Walked (navigatorLens.set ⟨.busy, none⟩ s₀) n n false (s.acting signal) := by
  have hwritten := h.holds.good.onTraffic (f := fun t => t.write (.fired signal false))
    fun _ => rfl
  exact ⟨⟨⟨h.holds.linked.attached, h.holds.linked.observed⟩, h.holds.timeline, hwritten⟩,
    h.traces, h.events, h.applied, rfl⟩

/-- The navigator has acted. -/
private theorem Walked.acted (h₀ : s₀.desk.around.navigator = .fresh)
    (h : Walked (navigatorLens.set ⟨.busy, none⟩ s₀) n n false s) :
    Walked s₀ n n false (navigatorLens.set .fresh s) := by
  have hfresh := h.withNavigator .fresh
  change Walked (navigatorLens.set .fresh s₀) n n false _ at hfresh
  rwa [set_fresh h₀] at hfresh

/-- **A signal is attended to**: the navigator acts, and is free again. -/
theorem gives_attend (h₀ : s₀.desk.around.navigator = .fresh) (h : Walked s₀ n n false s)
    {signal : Signal} (act : UserAct) (hact : signal.userAct? = some act)
    {post : Session → Prop}
    (hpost : (controls.act act).Gives (s.acting signal) fun answer s' => answer = .ok () ∧
      ∃ n', Walked (navigatorLens.set ⟨.busy, none⟩ s₀) n' n' false s' ∧
        post (navigatorLens.set .fresh s')) :
    (stage.attend (.full {}) signal).Gives s fun _ s' => post s' := by
  have hhears : (Attention.full {}).hears signal = true := by
    cases signal <;> rfl
  have hnavigator : s.desk.around.navigator = .fresh := h.navigator.trans h₀
  have hpresence : (navigatorLens.get (s.telling signal)).presence = .idle :=
    congrArg Navigator.presence hnavigator
  have hbusy : navigatorLens.modify (fun n => { n with presence := .busy }) (s.telling signal) =
      s.acting signal := by
    change navigatorLens.set { s.desk.around.navigator with presence := .busy } _ = _
    rw [hnavigator]
    rfl
  simp only [Stage.attend, Stage.heed, Stage.answer, Stage.change, hhears, hact, if_true,
    Action.gives_bind, Action.gives_note, Action.gives_modify]
  rw [if_pos (show (Attention.full {}).guards = 0 from rfl)]
  simp only [stage, Action.gives_bind, Action.gives_zoom, Action.gives_modify]
  refine Navigator.gives_handle hpresence ?_
  change (controls.act act).Gives (navigatorLens.modify _ (s.telling signal)) _
  rw [hbusy]
  refine hpost.mono ?_
  rintro _ s' ⟨rfl, n', h', hs'⟩
  refine ⟨rfl, ?_⟩
  change post (navigatorLens.set { s'.desk.around.navigator with presence := .idle } s')
  rw [h'.navigator]
  exact hs'

/-- **A selection walks the session to the position**, with something to be said of the screen on
the way. -/
theorem gives_attend_walk {K : Nat → Screen → Prop} (h₀ : s₀.AtRest) (h : Walked s₀ m m false s)
    {p : Position} (hp : s₀.desk.journal.timeline.ordinal p = .ok q)
    (hK : K m (s.acting (.selectionChanged (some p))).desk.around.screen)
    (hcarry : CarriesAlong (navigatorLens.set ⟨.busy, none⟩ s₀) K m q) :
    (stage.attend (.full {}) (.selectionChanged (some p))).Gives s fun _ s' =>
      Walked s₀ q q false s' ∧ K q s'.desk.around.screen := by
  have hfresh := h₀.step.navigator
  have hguided : Guided (navigatorLens.set ⟨.busy, none⟩ s₀) K m m false
      (s.acting (.selectionChanged (some p))) := ⟨h.acting _, hK⟩
  refine gives_attend hfresh h (.select p) rfl ?_
  simp only [Controls.act, Action.gives_bind, Action.gives_pure]
  refine (gives_select hguided p fun q' hq' => ?_).mono ?_
  · obtain rfl : q = q' := Except.ok.inj (hp.symm.trans hq')
    exact hcarry
  · rintro _ s' (⟨hc, -⟩ | ⟨q', hq', ⟨walk, rfl⟩, h'⟩)
    · have hcontains := Timeline.contains_iff_exists_ordinal.mpr ⟨q, hp⟩
      cases hcontains.symm.trans hc
    · obtain rfl : q = q' := Except.ok.inj (hp.symm.trans hq')
      exact ⟨rfl, q, h'.toWalked, h'.toWalked.acted hfresh, h'.guide⟩

/-- A selection walks the session to the position, with something to be said of the outline. -/
theorem gives_attend_select (h₀ : s₀.AtRest) (h : Walked s₀ m m false s) {p : Position}
    (hp : s₀.desk.journal.timeline.ordinal p = .ok q) (hJ : J m s.outline)
    (hcarry : Outline.CarriesAlong s₀.desk.journal.timeline J m q) :
    (stage.attend (.full {}) (.selectionChanged (some p))).Gives s fun _ s' =>
      Walked s₀ q q false s' ∧ J q s'.outline := by
  have hbusy : (navigatorLens.set ⟨.busy, none⟩ s₀).Moored := h₀.moored.aside ⟨rfl, rfl⟩
  exact gives_attend_walk (K := fun k screen => J k screen.widget.outline) h₀ h hp hJ
    (hbusy.carriesAlong hcarry)

/-- Closing a run steps through it if the cursor is on its head, and the screen is told nothing. -/
theorem gives_attend_collapse_untold (h₀ : s₀.AtRest) (h : Walked s₀ n n false s) {group : Nat}
    {run : Run} (hrun : s₀.desk.journal.timeline.runs[group]? = some run) {n' : Nat}
    (hn' : n' = if s.desk.journal.cursor = .on (.ofHead group) then n + run.rest.length else n) :
    (stage.attend (.full {}) (.rowCollapsed group)).Gives s fun _ s' =>
      Walked s₀ n' n' false s' ∧
        s'.desk.around.screen = (s.acting (.rowCollapsed group)).desk.around.screen := by
  have hfresh := h₀.step.navigator
  refine gives_attend hfresh h (.collapse group) rfl ?_
  simp only [Controls.act, Action.gives_bind, Action.gives_pure]
  refine (gives_collapse (h.acting (.rowCollapsed group)) group).mono ?_
  rintro _ s' ⟨⟨b, rfl⟩, hscreen, k, h', hk⟩
  obtain rfl : k = n' := (hk run hrun).trans hn'.symm
  exact ⟨rfl, k, h', h'.acted hfresh, hscreen⟩

/-- Closing a run steps through it if the cursor is on its head, and the view is told nothing. -/
theorem gives_attend_collapse (h₀ : s₀.AtRest) (h : Walked s₀ n n false s) {group : Nat} {run : Run}
    (hrun : s₀.desk.journal.timeline.runs[group]? = some run) {n' : Nat}
    (hn' : n' = if s.desk.journal.cursor = .on (.ofHead group) then n + run.rest.length else n) :
    (stage.attend (.full {}) (.rowCollapsed group)).Gives s fun _ s' =>
      Walked s₀ n' n' false s' ∧ s'.outline = s.outline :=
  (gives_attend_collapse_untold h₀ h hrun hn').mono fun _ _ h' =>
    ⟨h'.1, congrArg (fun screen => screen.widget.outline) h'.2⟩

/-- Opening a run has the view told where the cursor is if that is in the run, and that is all. -/
theorem gives_attend_expand_told (h₀ : s₀.AtRest) (h : Walked s₀ n n false s) (group : Nat) :
    (stage.attend (.full {}) (.rowExpanded group)).Gives s fun _ s' =>
      Walked s₀ n n false s' ∧ s'.desk.journal = s.desk.journal ∧ s'.document = s.document ∧
        s'.desk.around.screen = if s.desk.journal.cursor.group? = some group then
          (s.acting (.rowExpanded group)).desk.around.screen.told s.desk.journal.timeline
            (s.desk.journal.standing .resync)
        else (s.acting (.rowExpanded group)).desk.around.screen := by
  have hfresh := h₀.step.navigator
  refine gives_attend hfresh h (.expand group) rfl ?_
  simp only [Controls.act, Action.gives_bind, Action.gives_pure]
  refine (gives_expand (h.acting (.rowExpanded group)) group).mono ?_
  rintro _ s' ⟨⟨b, rfl⟩, h', hs'⟩
  exact ⟨rfl, n, h', h'.acted hfresh, by rw [hs']; rfl, by rw [hs']; rfl, by rw [hs']; rfl⟩

/-- Opening a run has the view mark the cursor if that is in the run, and that is all. -/
theorem gives_attend_expand (h₀ : s₀.AtRest) (h : Walked s₀ n n false s) (group : Nat) :
    (stage.attend (.full {}) (.rowExpanded group)).Gives s fun _ s' =>
      Walked s₀ n n false s' ∧ s'.desk.journal = s.desk.journal ∧ s'.document = s.document ∧
        (if s.desk.journal.cursor.group? = some group then
          s.outline.Follows s.desk.journal.cursor s'.outline else s'.outline = s.outline) := by
  have habreast := h₀.moored.abreast.since (h.acting (.rowExpanded group)).holds.good
  refine (gives_attend_expand_told h₀ h group).mono ?_
  rintro _ s' ⟨h', hjournal, hdocument, hscreen⟩
  refine ⟨h', hjournal, hdocument, ?_⟩
  have houtline : s'.outline = s'.desk.around.screen.widget.outline := rfl
  let u : CursorUpdate := s.desk.journal.standing .resync
  by_cases hin : s.desk.journal.cursor.group? = some group
  · rw [if_pos hin] at hscreen ⊢
    rw [houtline, hscreen]
    have hcontains : s₀.desk.journal.timeline.contains u.current = true :=
      h.holds.timeline ▸ h.traces.contains_cursor
    have hfollows := habreast.follows (u := u) h₀.moored.numbered hcontains
      fun _ h => by cases h
    rw [h.holds.timeline]
    exact hfollows
  · rw [if_neg hin] at hscreen ⊢
    rw [houtline, hscreen]
    rfl

/-! ### Gestures -/

/-- The session with another outline. -/
def withOutline (s : Session) (o : Outline) : Session :=
  (stage.wiring.widget.comp Widget.outlineLens).set o s

/-- An outline that shows the same timeline is no matter of the walk. -/
theorem Walked.withOutline (h : Walked s₀ n n false s) {o : Outline}
    (ho : o.shown = s.outline.shown) : Walked s₀ n n false (s.withOutline o) :=
  ⟨⟨⟨h.holds.linked.attached, h.holds.linked.observed⟩, h.holds.timeline,
    h.holds.good.outline ho⟩, h.traces, h.events, h.applied, h.navigator⟩

/-- The navigator met no error, so that of the view is answered. -/
private theorem gives_attempt_of_fresh {α : Type} {x : Action Session (Except ViewError α)}
    {post : Except SessionError α → Session → Prop}
    (h : x.Gives s fun answer s' => s'.desk.around.navigator = .fresh ∧
      post (answer.mapError .view) s') : (attempt x).Gives s post := by
  rw [attempt, Action.gives_bind]
  refine h.mono ?_
  rintro (e | a) s' ⟨hfresh, hs'⟩
  · exact (Action.gives_pure _).mpr hs'
  · have hnone : (navigatorLens.get s').lastError = none := congrArg Navigator.lastError hfresh
    have hsame : navigatorLens.modify (fun n => { n with lastError := none }) s' = s' := by
      change navigatorLens.set { s'.desk.around.navigator with lastError := none } s' = s'
      rw [hfresh]
      exact set_fresh hfresh
    simp only [Navigator.takeError, Action.gives_bind, Action.gives_get, Action.gives_modify,
      Action.gives_pure, hnone, hsame]
    exact hs'

/-- **What is fired by a gesture is attended to**, signal by signal. -/
theorem AtRest.gives_enact (h : s.AtRest) {r : Response} {post : Session → Prop}
    (hpost : (Action.each (stage.attend (.full {})) r.signals).Gives (s.withOutline r.outline)
      fun _ s' => post s') : (stage.wiring.enact r).Gives s fun _ s' => post s' := by
  obtain ⟨signals, k, hattentive⟩ := h.calm
  have hrun := hattentive.exact.attends r
  have hattend : (stage.attendAll (.full {}) r).Gives s fun _ s' => post s' := by
    simp only [Stage.attendAll, Action.gives_bind, Action.gives_modify, Action.gives_report]
    exact hpost
  rw [Action.Gives, Action.Leaves, hrun]
  exact hattend

theorem AtRest.gives_click_of (h : s.AtRest) {row : Nat}
    {post : Except SessionError Unit → Session → Prop}
    (herror : ∀ e, s.outline.click row = .error e → post (.error (.view e)) s)
    (hok : ∀ r, s.outline.click row = .ok r →
      (Action.each (stage.attend (.full {})) r.signals).Gives (s.withOutline r.outline)
        fun _ s' => s'.desk.around.navigator = .fresh ∧ post (.ok ()) s') :
    (click row).Gives s post := by
  refine gives_attempt_of_fresh ?_
  simp only [Wiring.click, Wiring.outline, Action.gives_bind, Action.gives_get, Action.gives_pure]
  split
  · rename_i e he
    exact (Action.gives_pure _).mpr ⟨h.step.navigator, herror e he⟩
  · rename_i r hr
    rw [Action.gives_bind]
    exact (h.gives_enact (hok r hr)).mono fun _ s' hs' => (Action.gives_pure _).mpr hs'

theorem AtRest.gives_use_of (h : s.AtRest) {gesture : Outline → Except ViewError (Bool × Response)}
    {post : Except SessionError Bool → Session → Prop}
    (herror : ∀ e, gesture s.outline = .error e → post (.error (.view e)) s)
    (hok : ∀ changed r, gesture s.outline = .ok (changed, r) →
      (Action.each (stage.attend (.full {})) r.signals).Gives (s.withOutline r.outline)
        fun _ s' => s'.desk.around.navigator = .fresh ∧ post (.ok changed) s') :
    (attempt (stage.wiring.use gesture)).Gives s post := by
  refine gives_attempt_of_fresh ?_
  simp only [Wiring.use, Wiring.outline, Action.gives_bind, Action.gives_get, Action.gives_pure]
  split
  · rename_i e he
    exact (Action.gives_pure _).mpr ⟨h.step.navigator, herror e he⟩
  · rename_i changed r hr
    rw [Action.gives_bind]
    exact (h.gives_enact (hok changed r hr)).mono fun _ s' hs' => (Action.gives_pure _).mpr hs'

/-- What a gesture with the expander of a row comes to: there is no such row, nothing is done, or
the run that the row heads has changed in a way. -/
def Used (s : Session) (row : Nat) (changed : Nat → Run → Session → Prop)
    (answer : Except SessionError Bool) (s' : Session) : Prop :=
  (s.outline.visible.length ≤ row ∧ answer = .error (.view (.noVisibleRow row)) ∧ s' = s) ∨
    (row < s.outline.visible.length ∧ ((answer = .ok false ∧ s' = s) ∨
      ∃ group run, s.outline.Heads row group run ∧ answer = .ok true ∧ changed group run s'))

/-- Only the signals of an expander that has changed something need be attended to. -/
theorem AtRest.gives_used (h : s.AtRest) {row : Nat}
    {gesture : Outline → Except ViewError (Bool × Response)}
    {became : Nat → Run → Response → Prop} {changed : Nat → Run → Session → Prop}
    (hused : s.outline.Used row (gesture s.outline) became)
    (hchanged : ∀ group run r, s.outline.Heads row group run → became group run r →
      (Action.each (stage.attend (.full {})) r.signals).Gives (s.withOutline r.outline)
        fun _ s' => s'.desk.around.navigator = .fresh ∧ changed group run s') :
    (attempt (stage.wiring.use gesture)).Gives s (s.Used row changed) := by
  refine h.gives_use_of (fun e he => ?_) fun did r hr => ?_
  · obtain ⟨hlen, hresult⟩ | ⟨-, ⟨r, hresult, -⟩ | ⟨group, run, r, -, hresult, -⟩⟩ := hused
    · obtain rfl : e = .noVisibleRow row := Except.error.inj (he.symm.trans hresult)
      exact .inl ⟨hlen, rfl, rfl⟩
    · exact nomatch he.symm.trans hresult
    · exact nomatch he.symm.trans hresult
  · obtain ⟨-, hresult⟩ | ⟨hlt, ⟨r', hresult, houtline, hsignals⟩ |
      ⟨group, run, r', hheads, hresult, hbecame⟩⟩ := hused
    · exact nomatch hr.symm.trans hresult
    · obtain ⟨rfl, rfl⟩ : did = false ∧ r = r' := by
        simpa using hr.symm.trans hresult
      rw [hsignals, houtline]
      exact (Action.gives_pure _).mpr ⟨h.step.navigator, .inr ⟨hlt, .inl ⟨rfl, rfl⟩⟩⟩
    · obtain ⟨rfl, rfl⟩ : did = true ∧ r = r' := by
        simpa using hr.symm.trans hresult
      refine (hchanged group run r hheads hbecame).mono fun _ s' hs' => ⟨hs'.1, .inr ⟨hlt, .inr ?_⟩⟩
      exact ⟨group, run, hheads, rfl, hs'.2⟩

end Session

end UndoJournal
