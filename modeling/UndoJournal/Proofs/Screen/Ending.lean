import UndoJournal.Proofs.Screen.Company

/-!
# A link that ended stays so

However a link ends, and whatever else is done with it, before and afterwards, in whatever order
(`Company.lasting_after`): **no act of the user is handled any more**, every update is refused and
leaves the screen as it was, while the journal goes on as before, and the hub lost the link's own
listeners and is what others make of it otherwise. Ends may overlap: a second one changes nothing.

**Detaching is no end.** The follower is handed back as it is; attached again, it is told the whole
state by one push, and follows the cursor as before.

The invariant that carries this (`Company.Sound`) is that of a company in order, and that a screen
that is attached, with a link neither stale nor disconnected, shows the timeline of the journal.
-/

namespace UndoJournal

namespace Company

/-! ### The invariant -/

/-- Journal and screen go together; while the screen is attached, an update that does not show the
rows anew finds them right. -/
structure Ready (d : Desk Plug Company) (reshaped : Bool) : Prop where
  traces : ∃ stack, d.journal.Traces stack
  numbered : d.journal.timeline.Numbered
  orderly : d.around.Orderly
  rows : d.attached = some .screen → reshaped = false →
    d.around.screen.link.disconnected = false → d.around.screen.link.stale = false →
      d.around.screen.widget.outline.shown = d.journal.timeline

/-- Between updates a screen that is attached, with a link neither stale nor disconnected, shows the
timeline of the journal. -/
abbrev Sound (d : Desk Plug Company) : Prop := Ready d false

/-- The link of the screen has not ended. -/
def Linked (d : Desk Plug Company) : Prop := d.around.screen.link.disconnected = false

/-- What telling an update comes to: there is nobody to be told, or a recorder writes it down, or
the screen follows it. -/
inductive Tells (d : Desk Plug Company) (u : CursorUpdate) : Desk Plug Company → Prop where
  | nobody (h : d.attached = none) : Tells d u d
  | recorder (r : Recorder) (memos : List Memo) (h : d.attached = some (.recorder r)) :
    Tells d u { d with around := { d.around with memos := memos } }
  | screen (e : Episode) (c : Company) (h : d.attached = some .screen)
    (told : Told d.journal.timeline u d.around e c) : Tells d u { d with around := c }

/-- What letting go of a follower comes to: a recorder writes it down, and the link of a screen is
ended, and once more. -/
def LetsGo (c c' : Company) : Option Plug → Prop
  | none => c' = c
  | some (.recorder _) => ∃ memos, c' = { c with memos := memos }
  | some .screen => ∃ after, c.screen.Ends after ∧
      c' = { c with screen := after, log := .ended after after :: .ended c.screen after :: c.log }

variable {c c' : Company} {d d' : Desk Plug Company} {u : CursorUpdate} {t : Timeline}

private theorem Ready.mono (h : Sound d) (reshaped : Bool) : Ready d reshaped :=
  ⟨h.traces, h.numbered, h.orderly, fun ha _ => h.rows ha rfl⟩

/-- What leaves the presence of a link, its staleness and its slots as they were, and a hub that the
link is gone from. -/
structure Spared (s s' : Screen) : Prop where
  sturdy : s.Sturdy → s'.Sturdy
  lodges : s.Lodges → s'.Lodges
  gone : s'.link.disconnected = s.link.disconnected
  stale : s'.link.stale = s.link.stale
  hub : s.Lodges → s.link.disconnected = true → s'.widget.hub = s.widget.hub

/-- Where only the screen is another, and its link is spared. -/
private theorem Ready.spared (h : Sound d) {s : Screen} (hs : Spared d.around.screen s)
    (hrows : d.attached = some .screen →
      s.widget.outline.shown = d.around.screen.widget.outline.shown) :
    Sound { d with around := { d.around with screen := s } } where
  traces := h.traces
  numbered := h.numbered
  orderly := h.orderly.silent rfl (hs.sturdy h.orderly.sturdy) (hs.lodges h.orderly.lodges)
    fun hd => ⟨hs.gone.trans hd, hs.hub h.orderly.lodges hd⟩
  rows ha _ hd hstale := (hrows ha).trans (h.rows ha rfl (hs.gone ▸ hd) (hs.stale ▸ hstale))

/-! ### Telling -/

/-- **Telling keeps the invariant.** -/
theorem gives_tell (h : Ready d u.reshaped) :
    (Desk.tell following u).Gives d fun _ d' => Sound d' ∧ Tells d u d' := by
  rcases hatt : d.attached with _ | _ | r
  · refine (Desk.run_tell_of_none hatt u).mono ?_
    rintro _ _ rfl
    exact ⟨⟨h.traces, h.numbered, h.orderly, fun ha => by cases hatt.symm.trans ha⟩, .nobody hatt⟩
  · rw [Desk.gives_tell_of_some hatt]
    refine (h.orderly.gives_follow d.journal.timeline u).mono ?_
    rintro _ c' ⟨horderly, e, htold⟩
    refine ⟨⟨h.traces, h.numbered, horderly, fun ha _ => ?_⟩, .screen e c' hatt htold⟩
    obtain ⟨ht, hu, hbefore, hfollows, rfl⟩ := htold
    have hfound : e.update.reshaped = false → e.before.link.disconnected = false →
        e.before.link.stale = false → e.before.widget.outline.shown = e.timeline := by
      rw [ht, hu, hbefore]
      exact h.rows ha
    have hrows : (Stage.alone.follow e.timeline e.update).Leaves e.before fun _ s =>
        s.link.disconnected = false → s.link.stale = false →
          s.widget.outline.shown = e.timeline :=
      (Screen.gives_follow_rows (hbefore ▸ h.orderly.sturdy) hfound).leaves fun _ _ h' => h'
    rw [← ht]
    exact hfollows.of_leaves hrows
  · rw [Desk.gives_tell_of_some hatt]
    simp only [following, Action.gives_zoom, Recorder.follow, Recorder.write, Action.gives_bind,
      Action.gives_modify, Action.gives_pure]
    exact ⟨⟨h.traces, h.numbered, h.orderly.silent rfl h.orderly.sturdy h.orderly.lodges
      fun hd => ⟨hd, rfl⟩, fun ha => by cases hatt.symm.trans ha⟩, .recorder r _ hatt⟩

/-- Telling changes neither the journal nor who is attached. -/
private theorem Tells.journal (h : Tells d u d') :
    d'.journal = d.journal ∧ d'.attached = d.attached := by
  cases h <;> exact ⟨rfl, rfl⟩

/-- A link that is gone leaves the screen as it was. -/
private theorem Tells.screen_eq (h : Tells d u d') (hd : d.around.screen.link.disconnected = true) :
    d'.around.screen = d.around.screen := by
  cases h with
  | nobody | recorder => rfl
  | screen e c _ htold =>
    obtain ⟨-, -, hbefore, hfollows, rfl⟩ := htold
    have hsame := hfollows.of_leaves (Screen.leaves_follow_of_disconnected (hbefore ▸ hd))
    exact hsame.2.trans hbefore

/-- **A notice is heard**, and told if it comes to something. -/
theorem gives_hear (h : Sound d) (notice : Notice) :
    ∃ r, d.journal.hear notice = .ok r ∧ r.journal.timeline.contains r.journal.cursor = true ∧
      r.Announces d.journal ∧ (Desk.hear following notice).Gives d fun _ d' => Sound d' ∧
        (r.update = none → d' = d) ∧
        ∀ u, r.update = some u → Ready { d with journal := r.journal } u.reshaped ∧
          Tells { d with journal := r.journal } u d' := by
  obtain ⟨stack, htraces⟩ := h.traces
  obtain ⟨r, hr, htraces'⟩ := htraces.hear notice
  have hann := Journal.announces_hear hr
  refine ⟨r, hr, htraces'.contains_cursor, hann, ?_⟩
  simp only [Desk.hear, Action.gives_bind, Action.gives_get, hr, Desk.gives_enact]
  rcases hu : r.update with _ | u
  · have hsame : { d with journal := r.journal } = d := by rw [hann.silent hu]
    refine ⟨?_, fun _ => hsame, (fun u heq => by cases heq)⟩
    rw [hsame]
    exact h
  · -- an update that does not speak of a change comes with the timeline that was shown
    have hready : Ready { d with journal := r.journal } u.reshaped := by
      refine ⟨⟨_, htraces'⟩, hann.numbered h.numbered, h.orderly, fun ha hre => ?_⟩
      rw [hann.reshaped u hu hre]
      exact h.rows ha rfl
    refine (gives_tell hready).mono fun _ d' h' =>
      ⟨h'.1, (fun heq => by cases heq), fun u' hu' => ?_⟩
    obtain rfl := Option.some.inj hu'
    exact ⟨hready, h'.2⟩

/-! ### Letting go -/

/-- Who lets go of a screen ends its link. -/
private theorem Orderly.gives_letGo (h : c.Orderly) (plug : Plug) :
    (following.detached plug >>= fun _ => following.dropped plug).Gives c fun _ c' =>
      c'.Orderly ∧ LetsGo c c' (some plug) := by
  rw [Action.gives_bind]
  cases plug with
  | screen =>
    refine h.gives_finish.mono ?_
    rintro _ _ ⟨h₁, after, hends, rfl⟩
    refine h₁.gives_finish.mono ?_
    rintro _ _ ⟨h₂, after', hends', rfl⟩
    -- the second end finds the link gone
    obtain rfl : after' = after := hends'.again (by rw [hends.link])
    exact ⟨h₂, after', hends, rfl⟩
  | recorder r =>
    simp only [following, Recorder.following, Recorder.write, Action.gives_zoom,
      Action.gives_modify, Action.gives_pure]
    exact ⟨h.silent rfl h.sturdy h.lodges fun hd => ⟨hd, rfl⟩, _, rfl⟩

/-- **Attaching lets go of who was there**, and tells the whole state. -/
theorem gives_attach (h : Sound d) (plug : Plug) :
    (Desk.attach following plug).Gives d fun _ d' => Sound d' ∧ ∃ c, c.Orderly ∧
      LetsGo d.around c d.attached ∧
        Tells { d with attached := some plug, around := c } (d.journal.standing .attach) d' := by
  have htell : ∀ c : Company, c.Orderly → LetsGo d.around c d.attached →
      (Desk.tell following (d.journal.standing .attach)).Gives
        { d with attached := some plug, around := c } fun _ d' => Sound d' ∧ ∃ c, c.Orderly ∧
          LetsGo d.around c d.attached ∧
          Tells { d with attached := some plug, around := c } (d.journal.standing .attach) d' := by
    intro c hc hgo
    have hready : Ready { d with attached := some plug, around := c } true :=
      ⟨h.traces, h.numbered, hc, fun _ hre => by cases hre⟩
    exact (gives_tell (u := d.journal.standing .attach) hready).mono fun _ d' h' =>
      ⟨h'.1, c, hc, hgo, h'.2⟩
  simp only [Desk.attach, Action.gives_bind, Action.gives_get, Action.gives_modify]
  rcases hatt : d.attached with _ | old
  · simp only [Action.gives_bind, Action.gives_note]
    rw [hatt] at htell
    exact htell d.around h.orderly rfl
  · simp only [Action.gives_bind, Action.gives_note, Desk.letGo, Action.gives_zoom]
    rw [hatt] at htell
    have hgo := h.orderly.gives_letGo old
    rw [Action.gives_bind] at hgo
    exact hgo.mono fun _ c' h' => h'.mono fun _ c'' h'' => htell c'' h''.1 h''.2

/-- A journal that goes away lets go of its follower. -/
private theorem gives_renew (h : Sound d) : (Desk.renew following).Gives d fun _ d' => Sound d' ∧
    ∃ c, LetsGo d.around c d.attached ∧ d' = ⟨.empty d.journal.settings, none, c⟩ := by
  have hsound : ∀ c : Company, c.Orderly → Sound ⟨.empty d.journal.settings, none, c⟩ :=
    fun c hc => ⟨⟨_, Journal.traces_empty _⟩, .empty _, hc, nofun⟩
  simp only [Desk.renew, Action.gives_bind, Action.gives_get, Action.gives_modify]
  rcases d.attached with _ | old
  · exact (Action.gives_pure _).mpr ⟨hsound _ h.orderly, _, rfl, rfl⟩
  · simp only [Desk.letGo, Action.gives_zoom]
    exact (h.orderly.gives_letGo old).mono fun _ c h' => ⟨hsound c h'.1, c, h'.2, rfl⟩

/-! ### Moves -/

/-- What is done to a link without ending it spares it. -/
private theorem spared_use (k : Control) (s : Screen) : Spared s (k.use s) := by
  have hgone : (k.use s).link.disconnected = s.link.disconnected := by rw [k.link_use]
  have hconn : (k.use s).link.connections = s.link.connections := by rw [k.link_use]
  refine ⟨k.sturdy_use, fun h => ?_, hgone, by rw [k.link_use], fun h hd => ?_⟩
  · cases k with
    | block blocked => exact h.blockListeners blocked
    | _ => exact h.of_eq rfl hconn hgone
  · cases k with
    | block blocked => simp only [Control.use, Screen.blockListeners, h.free hd, List.foldl_nil]
    | _ => rfl

variable {heed : UserAct → Action (Desk Plug Company) Unit}

/-- A stage calls the link only while that is there. -/
private theorem serves (hheed : ∀ act d, Sound d → Linked d →
    (heed act).Leaves d fun _ d' => Sound d') : (stage heed).Serves Sound Linked where
  receivers signal d h := h.orderly.lodges.receivers signal
  overhear signal d h hd := by
    have hkept := (Screen.sameButRecord_overhear signal d.around.screen).kept
    exact ⟨h.spared ⟨hkept.plans.sturdy, fun h => h.of_eq rfl rfl rfl, rfl, rfl, fun _ _ => rfl⟩
      fun _ => rfl, hd⟩
  respond := hheed

/-- An outline that shows the same rows, or is not the journal's. -/
private theorem Ready.outline (h : Sound d) {o : Outline}
    (ho : d.attached = some .screen → o.shown = d.around.screen.widget.outline.shown) :
    Sound (((stage heed).wiring.widget.comp Widget.outlineLens).set o d) :=
  h.spared ⟨id, fun h => h.of_eq rfl rfl rfl, rfl, rfl, fun _ _ => rfl⟩ ho

/-- An action keeps the invariant if it does so while the screen is not attached. -/
private theorem keeps_aside {x : Action (Desk Plug Company) Unit}
    (hx : ∀ d, Sound d → d.attached ≠ some .screen → x.Leaves d fun _ d' => Sound d') :
    Action.Keeps Sound (aside x) := by
  refine Action.Keeps.get_bind fun d h => ?_
  split
  · exact h
  · exact hx d h ‹_›

/-- Ending the link keeps the invariant, and is written down. -/
private theorem gives_finish (h : Sound d) :
    (Action.zoom Desk.aroundLens finish).Gives d fun _ d' =>
    Sound d' ∧ ∃ after, d'.around.log = .ended d.around.screen after :: d.around.log := by
  rw [Action.gives_zoom]
  refine h.orderly.gives_finish.mono ?_
  rintro _ c ⟨hc, after, hends, rfl⟩
  refine ⟨⟨h.traces, h.numbered, hc, fun _ _ hd => ?_⟩, after, rfl⟩
  have hgone := congrArg Link.disconnected hends.link
  cases hd.symm.trans hgone

/-- **What is asked of the journal keeps the invariant.** -/
theorem keeps_ask (r : Desk.Request Plug) : Action.Keeps Sound (Desk.ask following r) := by
  intro d h
  cases r with
  | hear notice =>
    obtain ⟨r, -, -, -, hgives⟩ := gives_hear h notice
    exact hgives.leaves fun _ _ h' => h'.1
  | mute muted =>
    obtain ⟨stack, htraces⟩ := h.traces
    exact ⟨⟨_, htraces.mute muted⟩, h.numbered, h.orderly, h.rows⟩
  | place p =>
    obtain ⟨stack, htraces⟩ := h.traces
    refine (Desk.leaves_place htraces p).mono ?_
    rintro _ _ ⟨j, stack', rfl, htraces', hj⟩
    refine ⟨⟨stack', htraces'⟩, ?_, h.orderly, fun ha hre hd hs => ?_⟩
    · rw [hj]
      exact h.numbered
    · rw [hj]
      exact h.rows ha hre hd hs
  | attach plug => exact (gives_attach h plug).leaves fun _ _ h' => h'.1
  | detach =>
    simp only [Desk.ask, Action.leaves_bind, Action.leaves_pure]
    refine (Desk.gives_detach d).leaves ?_
    rintro _ _ ⟨-, rfl⟩
    exact ⟨h.traces, h.numbered, h.orderly, fun ha => by cases ha⟩
  | resync =>
    simp only [Desk.ask, Desk.resync, Action.leaves_bind, Action.leaves_get]
    exact (gives_tell (h.mono _)).leaves fun _ _ h' => h'.1

/-- **One move keeps the invariant**, if responding to the user does while the link is there. -/
theorem keeps_make (hheed : ∀ act d, Sound d → Linked d →
    (heed act).Leaves d fun _ d' => Sound d') (m : Move) : Action.Keeps Sound (make heed m) := by
  intro d h
  cases m with
  | ask r => exact keeps_ask r d h
  | close => exact (gives_renew h).leaves fun _ _ h' => h'.1
  | drop | disconnect => exact (gives_finish h).leaves fun _ _ h' => h'.1
  | control k =>
    exact h.spared (spared_use k _) fun _ => congrArg Outline.shown (k.outline_use _)
  | push t u =>
    refine keeps_aside (fun d h hfree => ?_) d h
    simp only [Action.leaves_bind, Action.leaves_zoom]
    refine (h.orderly.gives_follow t u).leaves fun _ c h' => ?_
    exact ⟨h.traces, h.numbered, h'.1, fun ha => absurd ha hfree⟩
  | drive command =>
    refine keeps_aside (fun d h hfree => ?_) d h
    rw [Action.leaves_bind]
    refine ((serves hheed).leaves_perform h fun r _ =>
      h.outline fun ha => absurd ha hfree).mono ?_
    rintro (fault | _) d' h' <;> exact h'
  | visit v =>
    refine ⟨h.traces, h.numbered, ?_, h.rows⟩
    exact h.orderly.next rfl h.orderly.sturdy (h.orderly.lodges.visited v) (fun hd => ⟨hd, rfl⟩)
      fun _ _ heq => by cases heq
  | gesture g =>
    -- whatever the gesture comes to, the rows are those that were shown
    rw [make, Action.leaves_bind]
    refine ((serves hheed).leaves_make h fun _ _ hr =>
      h.outline fun _ => (Outline.stays_respond hr).shown).mono ?_
    rintro (fault | _) d' h' <;> exact h'

/-- An act of the user is handled while the link is there. -/
private theorem Ready.handled (h : Sound d) (hd : Linked d) (act : UserAct) :
    Sound (Desk.aroundLens.modify (write (.handled act)) d) :=
  ⟨h.traces, h.numbered, h.orderly.next rfl h.orderly.sturdy h.orderly.lodges
    (fun hgone => by cases hd.symm.trans hgone) (fun _ _ heq => by cases heq), h.rows⟩

variable {reply : UserAct → Desk Plug Company → List Move}

/-- **Whoever handles acts of the user keeps the invariant**, as deep as that goes. -/
theorem leaves_respond (depth : Nat) (act : UserAct) (d : Desk Plug Company) (h : Sound d)
    (hd : Linked d) : (respond reply depth act).Leaves d fun _ d' => Sound d' := by
  induction depth generalizing act d with
  | zero => exact h.handled hd act
  | succ depth ih =>
    simp only [respond, Action.leaves_bind, Action.leaves_modify, Action.leaves_get]
    exact Action.Keeps.each (fun m _ => keeps_make ih m) _ (h.handled hd act)

/-- Any moves keep the invariant. -/
private theorem Ready.after (h : Sound d) (depth : Nat) (moves : List Move) :
    Sound (after reply depth d moves) := by
  induction moves generalizing d with
  | nil => exact h
  | cons m moves ih => exact ih (keeps_make (leaves_respond depth) m d h)

private theorem sound_start (settings : Settings) (handlers : Handlers) (recorded : Bool)
    (o : Outline)
    (visits : List Visit) : Sound (start settings handlers recorded o visits) where
  traces := ⟨_, Journal.traces_empty settings⟩
  numbered := .empty settings.grouping
  orderly := by
    have hhub : (visits.foldl Hub.visited .empty).Lodges [] :=
      List.foldlRecOn (motive := (Hub.Lodges · [])) visits _ .empty fun _ h v _ => h.visited v
    refine ⟨fun op => ?_, .join _ _ _ hhub, fun _ _ hmem => absurd hmem List.not_mem_nil,
      fun later before after earlier hsplit => ?_⟩
    · cases recorded <;> exact nofun
    · cases later <;> cases hsplit
  rows := nofun

/-! ### What is true after any moves -/

/-- The link has not ended, updates are not skipped, and no call is planned to go wrong. -/
structure Able (s : Screen) : Prop where
  linked : s.link.disconnected = false
  unpaused : s.link.paused = false
  unplanned : s.breakage? = none

/-- The screen was told one update, carried it out and said so: it shows the timeline with the
cursor, its listeners and its link are as they were, and it can be told more. -/
structure Obeys (t : Timeline) (u : CursorUpdate) (c c' : Company) : Prop where
  log : c'.log = .pushed ⟨t, u, c.screen, .ok (), c'.screen⟩ :: c.log
  pushed : c.screen.Pushed t u (.ok (.ok ())) c'.screen
  shows : c'.screen.widget.outline.Shows t u.current c.screen.link.settings.scrollToCurrent
  framed : c.screen.Framed c'.screen
  able : Able c'.screen

/-- What is true of a journal and a screen in company, whatever happened. -/
structure Lasting (d : Desk Plug Company) : Prop where
  /-- An end takes the link away with its own listeners, and nothing else; a second changes
  nothing. -/
  ended : ∀ before after, .ended before after ∈ d.around.log → before.Ends after
  /-- After an end no act of the user is handled, updates are refused and leave the screen as it
  was, and the hub is what others make of it. -/
  aftermath : ∀ later before after earlier,
    d.around.log = later ++ .ended before after :: earlier →
      Aftermath after.widget.hub later d.around.screen.widget.hub
  /-- After an end the link stays away, nothing that is fired reaches it, and an update is refused
  at once. -/
  gone : ∀ before after, .ended before after ∈ d.around.log →
    d.around.screen.link.disconnected = true ∧ d.around.screen.link.connections = [] ∧
      (∀ slot ∈ d.around.screen.widget.hub.slots, slot.listener ≠ .link) ∧
      ∀ t u, (inside.follow t u).run d.around = ⟨.ok (.error .disconnected), d.around, []⟩
  /-- After an end the journal hears notices as before, and the screen stays as it is. -/
  hears : ∀ before after, .ended before after ∈ d.around.log → ∀ notice,
    ∃ r, d.journal.hear notice = .ok r ∧ (Desk.hear following notice).Gives d fun _ d' =>
      d'.journal = r.journal ∧ d'.around.screen = d.around.screen
  /-- Each of the ways to end a link ends it. -/
  ends : ∀ heed m, m.Ends d → (make heed m).Gives d fun _ d' => ∃ later after,
    d'.around.log = later ++ .ended d.around.screen after :: d.around.log ∧
      d.around.screen.Ends after ∧ d'.around.screen.link.disconnected = true
  /-- Detaching does nothing but that the journal has no follower. -/
  detached : (Desk.detach : Action (Desk Plug Company) _).Gives d fun plug d' =>
    plug = d.attached ∧ d' = { d with attached := none }
  /-- A screen that is attached, again or for the first time, is told the whole state. -/
  attached : d.attached ≠ some .screen → Able d.around.screen →
    (Desk.attach following .screen).Gives d fun _ d' =>
      d'.journal = d.journal ∧ d'.attached = some .screen ∧ ∃ u, u.reshaped = true ∧
        u.current = d.journal.cursor ∧ Obeys d.journal.timeline u d.around d'.around
  /-- A screen that is attached follows the cursor. -/
  follows : d.attached = some .screen → Able d.around.screen → ∀ notice,
    ∃ r, d.journal.hear notice = .ok r ∧ (Desk.hear following notice).Gives d fun _ d' =>
      d'.journal = r.journal ∧ d'.attached = some .screen ∧ (r.update = none → d' = d) ∧
        ∀ u, r.update = some u → u.current = r.journal.cursor ∧
          Obeys r.journal.timeline u d.around d'.around

/-- **A screen that can follow an update obeys it**, if it found the right rows where it did not
show them anew. -/
theorem Told.obeys {e : Episode} (h : Told t u c e c') (hable : Able c.screen) (hn : t.Numbered)
    (hrows : c.screen.due u = false → c.screen.widget.outline.shown = t)
    (hc : t.contains u.current = true) : Obeys t u c c' := by
  obtain ⟨rfl, rfl, hbefore, hfollows, rfl⟩ := h
  rw [← hbefore] at hable hrows
  have hok : (Stage.alone.follow e.timeline e.update).Leaves e.before fun result _ =>
      result = .ok (.ok ()) :=
    (Screen.gives_follow_ok hable.linked hable.unpaused hable.unplanned hrows hc).leaves
      fun _ _ h => congrArg _ h.1
  have hanswer : e.answer = .ok () := Except.ok.inj (hfollows.of_leaves hok)
  obtain ⟨hframed, -, hpushed⟩ :=
    hfollows.of_leaves (Screen.leaves_follow hable.linked hable.unpaused)
  rw [hanswer] at hpushed
  have hlinked := congrArg Link.disconnected hframed.link
  have hunpaused := congrArg Link.paused hframed.link
  have hable' : Able e.after := ⟨hlinked.trans hable.linked, hunpaused.trans hable.unpaused,
    hframed.plans.eq_none hable.unplanned⟩
  have hshows := hpushed.shows hn hrows
  rw [hbefore] at hframed hpushed hshows
  refine ⟨?_, hpushed, hshows, hframed, hable'⟩
  rw [← hbefore, ← hanswer]

/-- What was written down by others before is no matter. -/
private theorem Obeys.of_eq {c₀ : Company} (h : Obeys t u c c') (hscreen : c.screen = c₀.screen)
    (hlog : c.log = c₀.log) : Obeys t u c₀ c' := by
  obtain ⟨hlog', hpushed, hshows, hframed, hable⟩ := h
  rw [hscreen, hlog] at hlog'
  rw [hscreen] at hpushed hshows hframed
  exact ⟨hlog', hpushed, hshows, hframed, hable⟩

/-- A screen that is attached and can follow an update obeys it. -/
private theorem Tells.obeys (ht : Tells d u d') (ha : d.attached = some .screen)
    (hable : Able d.around.screen) (h : Ready d u.reshaped)
    (hc : d.journal.timeline.contains u.current = true) :
    Obeys d.journal.timeline u d.around d'.around := by
  cases ht with
  | nobody hno => cases ha.symm.trans hno
  | recorder r memos hr => cases ha.symm.trans hr
  | screen e c _ told =>
    refine told.obeys hable h.numbered (fun hdue => ?_) hc
    obtain ⟨hre, hstale⟩ := Screen.due_eq_false_iff.mp hdue
    exact h.rows ha hre hable.linked hstale

/-- Letting go of others leaves the screen as it is. -/
private theorem LetsGo.others {plug : Option Plug} (h : LetsGo c c' plug)
    (hplug : plug ≠ some .screen) :
    c'.screen = c.screen ∧ c'.log = c.log := by
  rcases plug with _ | _ | r
  · obtain rfl : c' = c := h
    exact ⟨rfl, rfl⟩
  · exact absurd rfl hplug
  · obtain ⟨memos, rfl⟩ := h
    exact ⟨rfl, rfl⟩

/-- What is told is written down, if anything is, on top of the rest. -/
private theorem Tells.log (h : Tells d u d') : ∃ new, d'.around.log = new ++ d.around.log := by
  cases h with
  | nobody | recorder => exact ⟨[], rfl⟩
  | screen e c _ told =>
    obtain ⟨-, -, -, -, rfl⟩ := told
    exact ⟨[_], rfl⟩

variable {heed : UserAct → Action (Desk Plug Company) Unit}

/-- **Every way to end a link ends it.** -/
theorem gives_end (h : Sound d) {m : Move} (hm : m.Ends d) :
    (make heed m).Gives d fun _ d' => Sound d' ∧ ∃ later after,
      d'.around.log = later ++ .ended d.around.screen after :: d.around.log := by
  have hgone : ∀ c, LetsGo d.around c (some .screen) → ∃ after, c.log =
      .ended after after :: .ended d.around.screen after :: d.around.log := by
    rintro _ ⟨after, -, rfl⟩
    exact ⟨after, rfl⟩
  cases m with
  | drop | disconnect =>
    refine (gives_finish h).mono ?_
    rintro _ d' ⟨h', after, hlog⟩
    exact ⟨h', [], after, hlog⟩
  | close =>
    refine (gives_renew h).mono ?_
    rintro _ _ ⟨h', c, hgo, rfl⟩
    have hattached : d.attached = some .screen := hm
    obtain ⟨after, hlog⟩ := hgone c (hattached ▸ hgo)
    exact ⟨h', [_], after, hlog⟩
  | ask r =>
    cases r with
    | attach plug =>
      refine (gives_attach h plug).mono ?_
      rintro _ d' ⟨h', c, -, hgo, htells⟩
      have hattached : d.attached = some .screen := hm
      obtain ⟨after, hlog⟩ := hgone c (hattached ▸ hgo)
      obtain ⟨new, hnew⟩ := htells.log
      refine ⟨h', new ++ [.ended after after], after, ?_⟩
      rw [hnew, hlog, List.append_assoc, List.singleton_append]
    | _ => exact hm.elim
  | _ => exact hm.elim

/-- **What the invariant comes to.** -/
theorem Ready.lasting (h : Sound d) : Lasting d where
  ended before after hmem := (h.orderly.ended before after hmem).1
  aftermath := h.orderly.aftermath
  gone before after hmem := by
    have hd := (h.orderly.ended before after hmem).2
    refine ⟨hd, h.orderly.lodges.free hd, (h.orderly.lodges.gone hd).ne_link, fun t u => ?_⟩
    -- the flag alone has the push refused
    have hlook : (screenLens.get d.around).link.disconnected = true := hd
    simp [inside, Stage.follow, Stage.look, Action.run_bind, hlook]
  hears before after hmem notice := by
    have hd := (h.orderly.ended before after hmem).2
    obtain ⟨r, hr, -, hann, hgives⟩ := gives_hear h notice
    refine ⟨r, hr, hgives.mono ?_⟩
    rintro _ d' ⟨-, hsilent, htold⟩
    rcases hu : r.update with _ | u
    · obtain rfl := hsilent hu
      exact ⟨(hann.silent hu).symm, rfl⟩
    · have htells := (htold u hu).2
      exact ⟨htells.journal.1, htells.screen_eq hd⟩
  ends heed m hm := by
    refine (gives_end h hm).mono ?_
    rintro _ d' ⟨h', later, after, hlog⟩
    exact ⟨later, after, hlog, h'.orderly.ended _ after (hlog ▸ by simp)⟩
  detached := Desk.gives_detach d
  attached hfree hable := by
    refine (gives_attach h .screen).mono ?_
    rintro _ d' ⟨-, c, hc, hgo, htells⟩
    obtain ⟨hscreen, hlog⟩ := hgo.others hfree
    have hready : Ready { d with attached := some .screen, around := c } true :=
      ⟨h.traces, h.numbered, hc, fun _ hre => by cases hre⟩
    obtain ⟨stack, htraces⟩ := h.traces
    have hobeys := htells.obeys rfl (hscreen ▸ hable) hready htraces.contains_cursor
    exact ⟨htells.journal.1, htells.journal.2, _, rfl, rfl, hobeys.of_eq hscreen hlog⟩
  follows ha hable notice := by
    obtain ⟨r, hr, hc, hann, hgives⟩ := gives_hear h notice
    refine ⟨r, hr, hgives.mono ?_⟩
    rintro _ d' ⟨-, hsilent, htold⟩
    rcases hu : r.update with _ | u
    · obtain rfl := hsilent hu
      exact ⟨(hann.silent hu).symm, ha, fun _ => rfl, (fun u heq => by cases heq)⟩
    · obtain ⟨hready, htells⟩ := htold u hu
      refine ⟨htells.journal.1, htells.journal.2.trans ha, (fun heq => by cases heq),
        fun u' hu' => ?_⟩
      obtain rfl := Option.some.inj hu'
      have hcurrent := hann.current u hu
      exact ⟨hcurrent, htells.obeys ha hable hready (hcurrent ▸ hc)⟩

/-- **A link that ended stays so, and is alone in that**: whatever is done to the journal, the link,
the hub and the view, by whomever, in whatever order, and in the middle of what goes on. -/
theorem lasting_after (settings : Settings) (handlers : Handlers) (recorded : Bool) (o : Outline)
    (visits : List Visit) (reply : UserAct → Desk Plug Company → List Move) (depth : Nat)
    (moves : List Move) :
    Lasting (after reply depth (start settings handlers recorded o visits) moves) :=
  ((sound_start settings handlers recorded o visits).after depth moves).lasting

/-- A handler that disconnects its link and then clicks elsewhere: the click is handled no more, the
update that follows is refused, and another listener is left. -/
example :
    let commit (n : Nat) : Move := .ask (.hear (.committed ⟨⟨n⟩, "Edit", "typing"⟩))
    let reply := fun (_ : UserAct) (_ : Desk Plug Company) => [.disconnect, .gesture (.click 1)]
    let d := after reply 1 (start {} {} true (.empty {} .unicode 2) [.connect .selectionChanged 7])
      [.ask (.attach .screen), commit 0, .gesture (.click 0), commit 1]
    d.around.log.map (fun
        | .handled _ => "handled"
        | .pushed e => if e.answer.isOk then "followed" else "refused"
        | .ended _ _ => "ended"
        | .visited _ => "visited") = ["refused", "ended", "handled", "followed", "followed"] ∧
      d.around.screen.widget.hub.slots.map Slot.listener = [.other 7] ∧
      d.journal.timeline.size = 2 := by
  decide +kernel

end Company

end UndoJournal
