import UndoJournal.Proofs.Desk.Requests
import UndoJournal.Proofs.Screen.Episodes
import UndoJournal.Proofs.Screen.Gestures

/-!
# The chronicle of a screen

A `Chronicle` is a screen with a list of **episodes**: each update that the screen was told, the
screen as it was found and as it was left, and the answer. What a push does to a screen is a matter
of the screen alone; what it finds there is a matter of the whole history, and that is what a
chronicle is kept for.

**Every episode of every history is sound** (`Chronicle.Inv.after`), whatever a program, a user and
those who handle the acts of the user ask for, as long as no call of the view breaks down: rows that
are not due to be shown anew are those of the timeline; a link that is not stale has only
identities marked as expanded that the view shows; an update names the run that the cursor has just
left; and each run that is kept in mind was left by the cursor in an earlier episode, during a
pause.
-/

namespace UndoJournal

/-- A screen, and what happened to it. -/
structure Chronicle where
  /-- The screen. -/
  screen : Screen
  /-- What happened, newest first. -/
  episodes : List Episode

namespace Chronicle

/-! ### Keeping a chronicle -/

/-- The screen as a part of the chronicle. -/
def screenLens : Lens Chronicle Screen := ⟨screen, fun s c => { c with screen := s }⟩

/-- The screen during an update, when nobody responds to its user. -/
def inside : Stage Chronicle := ⟨screenLens, fun _ => pure ()⟩

/-- How a screen with a chronicle follows a journal. -/
def following : Following Unit Chronicle where
  follow _ t u := do
    let before ← Action.get
    let answer ← inside.follow t u
    Action.modify fun c =>
      { c with episodes := ⟨t, u, before.screen, answer, c.screen⟩ :: c.episodes }
    pure answer
  detached _ := inside.disconnect
  dropped _ := inside.disconnect

/-- The screen as a part of the desk. -/
def deskScreen : Lens (Desk Unit Chronicle) Screen := Desk.aroundLens.comp screenLens

/-- What a program can ask of the journal and of the screen. -/
inductive Request where
  /-- The journal hears a notice. -/
  | hear (notice : Notice)
  /-- The journal ignores or heeds undo and redo notices. -/
  | mute (muted : Bool)
  /-- The cursor is put somewhere. -/
  | place (p : Position)
  /-- The screen is told the whole state, if it is attached. -/
  | resync
  /-- The screen is detached, if it is attached. -/
  | detach
  /-- The screen is attached, if it is detached. -/
  | reattach
  /-- Something is done to the link without ending it. -/
  | control (k : Control)
  /-- The link is disconnected for good. -/
  | disconnect

/-- What can happen: a program asks for something, or a user does something on the screen. -/
inductive Move where
  | request (r : Request)
  | gesture (g : Gesture)

/-- Change the screen, apart from the journal and without writing an episode. -/
def change (f : Screen → Screen) : Action (Desk Unit Chronicle) Unit :=
  Action.modify (deskScreen.modify f)

/-- Do what a program asks: it is asked of the journal, or done to the screen. -/
def grant : Request → Action (Desk Unit Chronicle) Unit
  | .hear notice => Desk.hear following notice
  | .mute muted => Desk.mute muted
  | .place p => Desk.place p
  | .resync => Desk.resync following
  | .detach => do
    let _ ← Desk.detach
    pure ()
  | .reattach => do
    let d ← Action.get
    match d.attached with
    | none => Desk.attach following ()
    | some () => pure ()
  | .control k => change k.use
  | .disconnect => Action.zoom deskScreen Screen.disconnect

variable (reply : UserAct → Desk Unit Chronicle → List Request)

/-- The screen while the user acts on it: whoever handles the act may ask for anything. -/
def stage : Stage (Desk Unit Chronicle) where
  screen := deskScreen
  respond act := do
    let d ← Action.get
    Action.each grant (reply act d)

/-- Make a move: a request is granted, and a gesture is made in the view of the screen. -/
def make : Move → Action (Desk Unit Chronicle) Unit
  | .request r => grant r
  | .gesture g => do
    let _ ← (stage reply).wiring.make g
    pure ()

/-- The state after some moves; one that meets a fault leaves the state it was met in. -/
def after (d : Desk Unit Chronicle) (moves : List Move) : Desk Unit Chronicle :=
  moves.foldl (fun d m => ((make reply m).run d).state) d

/-- A journal without history, and a screen around an outline to which nothing has happened yet;
`traffic` is the record between link and view, if one is kept. -/
def start (settings : Settings) (handlers : Handlers) (recorded : Bool) (o : Outline) :
    Desk Unit Chronicle :=
  .empty settings
    ⟨.assemble settings.view handlers (if recorded then some .quiet else none) o, []⟩

end Chronicle

/-! ### The invariant -/

/-- What an update that a journal tells says of the journal as it is now: where the cursor is, and
which run it has just left. -/
structure CursorUpdate.Fits (u : CursorUpdate) (j : Journal) : Prop where
  current : u.current = j.cursor
  contains : j.timeline.contains u.current = true
  left : ∀ group, u.left = some group → u.previous.group? = some group ∧
    u.current.group? ≠ some group ∧ j.timeline.hasChildren group = true

namespace Chronicle

/-- Journal and stack go together, what the link marks and keeps in mind is what the journal and
earlier episodes account for, and every episode is sound. -/
structure Kept (d : Desk Unit Chronicle) : Prop where
  traces : ∃ stack, d.journal.Traces stack
  numbered : d.journal.timeline.Numbered
  sturdy : d.around.screen.Sturdy
  live : d.around.screen.Live
  /-- What is kept in mind was given to an entry, and trails nowhere. -/
  heads : ∀ id ∈ d.around.screen.link.left, id.raw < d.journal.timeline.nextId ∧
    ∀ e ∈ d.journal.timeline.trailing, e.id ≠ id
  recalled : ∀ id ∈ d.around.screen.link.left,
    ∃ y ∈ d.around.episodes, y.Skipped ∧ y.Leaves id
  retained : ∀ id, Episode.LeftInPause id d.around.episodes → id ∈ d.around.screen.link.left
  orderly : ∀ newer x older, d.around.episodes = newer ++ x :: older → x.Sound older

/-- Between updates a screen that is attached, with a link neither stale nor disconnected, shows the
timeline of the journal. -/
structure Inv (d : Desk Unit Chronicle) : Prop extends Kept d where
  rows : d.attached.isSome → d.around.screen.link.disconnected = false →
    d.around.screen.link.stale = false → d.around.screen.widget.outline.shown = d.journal.timeline

/-- Before an update is told it says where the cursor is and what was left, and rows that it does
not have shown anew are those of the timeline. -/
structure Ready (d : Desk Unit Chronicle) (u : CursorUpdate) : Prop extends Kept d where
  fits : u.Fits d.journal
  rows : d.attached.isSome → u.reshaped = false → d.around.screen.link.disconnected = false →
    d.around.screen.link.stale = false → d.around.screen.widget.outline.shown = d.journal.timeline

variable {reply} {d d' : Desk Unit Chronicle} {u : CursorUpdate} {t : Timeline}

theorem lawful_screenLens : screenLens.Lawful := ⟨fun _ _ => rfl, fun _ => rfl, fun _ _ _ => rfl⟩

/-- Only marks of expansion that are shown came to the screen, and the link is about the same. -/
structure Resembles (s s' : Screen) : Prop where
  sturdy : s.Sturdy → s'.Sturdy
  outline : s.widget.outline.Grows s'.widget.outline
  stale : s'.link.stale = s.link.stale
  left : s'.link.left = s.link.left
  disconnected : s'.link.disconnected = false → s.link.disconnected = false

/-- Where journal and episodes are the same, and the screen is about the same, nothing has to be
true that was not before. -/
private theorem Inv.of_resembles (h : Inv d) (hj : d'.journal.timeline = d.journal.timeline)
    (htraces : ∃ stack, d'.journal.Traces stack) (hatt : d'.attached = d.attached)
    (hepisodes : d'.around.episodes = d.around.episodes)
    (hs : Resembles d.around.screen d'.around.screen) : Inv d' where
  traces := htraces
  numbered := hj ▸ h.numbered
  sturdy := hs.sturdy h.sturdy
  live hstale id hid := by
    rw [hs.outline.1]
    obtain hid | hshown := hs.outline.2 id hid
    · exact h.live (hs.stale ▸ hstale) id hid
    · exact hshown
  heads id hid := hj ▸ h.heads id (hs.left ▸ hid)
  recalled id hid := hepisodes ▸ h.recalled id (hs.left ▸ hid)
  retained id hid := hs.left ▸ h.retained id (hepisodes ▸ hid)
  orderly := hepisodes ▸ h.orderly
  rows ha hd hstale := by
    rw [hs.outline.1, hj]
    exact h.rows (hatt ▸ ha) (hs.disconnected hd) (hs.stale ▸ hstale)

/-- Following an update is written down, with the screen before and after. -/
private theorem gives_follow {c : Chronicle} (hst : c.screen.Sturdy)
    (hrows : u.reshaped = false → c.screen.link.disconnected = false →
      c.screen.link.stale = false → c.screen.widget.outline.shown = t) :
    (following.follow () t u).Gives c fun _ c' => ∃ x : Episode, c' = ⟨x.after, x :: c.episodes⟩ ∧
      x.timeline = t ∧ x.update = u ∧ x.before = c.screen ∧ x.Follows ∧
      (x.after.link.disconnected = false → x.after.link.stale = false →
        x.after.widget.outline.shown = t) := by
  have hzoom : inside.follow t u = Action.zoom screenLens (Stage.alone.follow t u) :=
    Stage.follow_eq_zoom lawful_screenLens t u
  simp only [following, hzoom, Action.gives_bind, Action.gives_get, Action.gives_modify,
    Action.gives_pure, Action.gives_zoom]
  obtain ⟨answer, hanswer, hrows'⟩ := Screen.gives_follow_rows hst hrows
  exact ⟨answer, hanswer, ⟨t, u, c.screen, answer, _⟩, rfl, rfl, rfl, rfl,
    ⟨answer, hanswer, rfl, rfl⟩, hrows'⟩

/-- The screen was told an update, and that is the newest episode. -/
structure Told (d : Desk Unit Chronicle) (u : CursorUpdate) (x : Episode)
    (d' : Desk Unit Chronicle) : Prop where
  attached : d.attached = some ()
  timeline : x.timeline = d.journal.timeline
  update : x.update = u
  before : x.before = d.around.screen
  sound : x.Sound d.around.episodes
  desk : d' = { d with around := ⟨x.after, x :: d.around.episodes⟩ }

/-- What telling an update comes to: it is one more episode, if there is somebody to be told. -/
def Tells (d : Desk Unit Chronicle) (u : CursorUpdate) (d' : Desk Unit Chronicle) : Prop :=
  (d.attached = none ∧ d' = d) ∨ ∃ x, Told d u x d'

/-- The episode of an update that is told where all is ready is sound. -/
private theorem Ready.sound (h : Ready d u) {x : Episode} (ha : d.attached.isSome)
    (ht : x.timeline = d.journal.timeline) (hu : x.update = u)
    (hbefore : x.before = d.around.screen) (hx : x.Follows) : x.Sound d.around.episodes where
  follows := hx
  numbered := ht ▸ h.numbered
  contains := by
    rw [ht, hu]
    exact h.fits.contains
  left := by
    rw [ht, hu]
    exact h.fits.left
  sturdy := hbefore ▸ h.sturdy
  rows := by
    rw [ht, hu, hbefore]
    exact h.rows ha
  live := hbefore ▸ h.live
  recalled := hbefore ▸ h.recalled

/-- **Telling keeps the invariant, and is written down.** -/
theorem gives_tell (h : Ready d u) :
    (Desk.tell following u).Gives d fun _ d' => Inv d' ∧ Tells d u d' := by
  rcases hatt : d.attached with _ | ⟨⟩
  · refine (Desk.run_tell_of_none hatt u).mono ?_
    rintro _ _ rfl
    exact ⟨⟨h.toKept, fun ha => by simp [hatt] at ha⟩, .inl ⟨hatt, rfl⟩⟩
  · have ha : d.attached.isSome := by simp [hatt]
    rw [Desk.gives_tell_of_some hatt]
    refine (gives_follow h.sturdy (h.rows ha)).mono ?_
    rintro _ _ ⟨x, rfl, ht, hu, hbefore, hx, hrows⟩
    have hsound := h.sound ha ht hu hbefore hx
    refine ⟨⟨⟨h.traces, h.numbered, ?_, hsound.live_after, fun id hid => ?_, fun id hid => ?_,
      fun id hid => ?_, ?_⟩, fun _ => hrows⟩, .inr ⟨x, hatt, ht, hu, hbefore, hsound, rfl⟩⟩
    · exact (hsound.of_leaves (Screen.framed_follow _ _ _)).plans.sturdy (hbefore ▸ h.sturdy)
    · -- what is newly kept in mind heads a run
      obtain hid | ⟨-, group, run, -, hrun, rfl, -⟩ := hsound.mem_left_after hid
      · exact h.heads id (hbefore ▸ hid)
      · obtain ⟨e, he, heid⟩ := Timeline.headedBy_of_getElem? (ht ▸ hrun)
        obtain ⟨e', he', hid'⟩ := Timeline.HeadedBy.has ⟨e, he, heid⟩
        refine ⟨hid' ▸ h.numbered.below e' he', fun e'' he'' hid'' => ?_⟩
        exact h.numbered.head_ne_trailing he he'' (heid.trans hid''.symm)
    · obtain hid | hleft := hsound.mem_left_after hid
      · obtain ⟨y, hy, hskip⟩ := h.recalled id (hbefore ▸ hid)
        exact ⟨y, List.mem_cons_of_mem _ hy, hskip⟩
      · exact ⟨x, List.mem_cons_self, hleft⟩
    · obtain ⟨hskipped, hleft⟩ := hid
      refine hsound.mem_left_of_skipped hskipped (hleft.imp_right fun hleft => ?_)
      rw [hbefore]
      exact h.retained id hleft
    · -- the newest episode is sound, and the others were before
      rintro (_ | ⟨z, newer⟩) y older hsplit
      · obtain ⟨rfl, rfl⟩ := List.cons.inj hsplit
        exact hsound
      · exact h.orderly newer y older (List.cons.inj hsplit).2

/-- The whole state can be told at any time. -/
theorem Inv.ready (h : Inv d) (cause : Cause) : Ready d (d.journal.standing cause) where
  toKept := h.toKept
  fits :=
    have ⟨_, htraces⟩ := h.traces
    ⟨rfl, htraces.contains_cursor, nofun⟩
  rows _ := nofun

/-- Attaching tells the whole state, so the rows need not be right before. -/
private theorem Inv.ready_attach (h : Inv d) :
    Ready { d with attached := some () } (d.journal.standing .attach) :=
  ⟨⟨h.traces, h.numbered, h.sturdy, h.live, h.heads, h.recalled, h.retained, h.orderly⟩,
    (h.ready .attach).fits, fun _ => nofun⟩

/-- What is told of a notice can be told. -/
theorem Inv.ready_hear (h : Inv d) {notice : Notice} {r : Reaction}
    (hr : d.journal.hear notice = .ok r) (hu : r.update = some u) :
    Ready { d with journal := r.journal } u ∧
      u.Accounts d.journal.timeline d.journal.cursor r.journal.timeline := by
  obtain ⟨stack, htraces⟩ := h.traces
  have haccounts := Journal.accounts_hear htraces h.numbered hr hu
  have htells := (Journal.hear_tells htraces.contains_cursor hr).2 u hu
  obtain ⟨r', hr', htraces'⟩ := htraces.hear notice
  obtain rfl : r = r' := Except.ok.inj (hr.symm.trans hr')
  refine ⟨⟨⟨⟨_, htraces'⟩, haccounts.numbered, h.sturdy, h.live, fun id hid => ?_, h.recalled,
    h.retained, h.orderly⟩, ⟨htells.current, haccounts.contains, fun group hleft => ?_⟩,
    fun ha hre hd hs => ?_⟩, haccounts⟩
  · obtain ⟨hlt, htrailing⟩ := h.heads id hid
    refine ⟨Nat.lt_of_lt_of_le hlt haccounts.nextId_le, fun e he => ?_⟩
    obtain hbefore | hnew := haccounts.trailing e he
    · exact htrailing e hbefore
    · rintro rfl
      exact absurd hlt (Nat.not_lt.mpr hnew)
  · have hmoved := htells.left
    rw [hleft] at hmoved
    split at hmoved
    · obtain ⟨hprevious, hcurrent, hchildren⟩ := Journal.leftBy_eq_some_iff.mp hmoved.symm
      rw [htells.previous, htells.current]
      exact ⟨hprevious, hcurrent, hchildren⟩
    · cases hmoved
  · rw [haccounts.reshaped hre]
    exact h.rows ha hd hs

/-! ### Requests -/

/-- **A notice that is heard** changes nothing, or the screen is told of the journal that it leads
to. -/
theorem leaves_hear (h : Inv d) (notice : Notice) :
    (Desk.hear following notice).Leaves d fun _ d' =>
      d' = d ∨ ∃ r u, d.journal.hear notice = .ok r ∧ r.update = some u ∧ Inv d' ∧
        Tells { d with journal := r.journal } u d' := by
  obtain ⟨stack, htraces⟩ := h.traces
  obtain ⟨r, hr, -⟩ := htraces.hear notice
  simp only [Desk.hear, Action.leaves_bind, Action.leaves_get]
  rw [hr, Desk.leaves_enact]
  rcases hu : r.update with _ | u
  · rw [(Journal.announces_hear hr).silent hu]
    exact .inl rfl
  · exact (gives_tell (h.ready_hear hr hu).1).leaves fun _ d' h' => .inr ⟨r, u, rfl, hu, h'⟩

private theorem keeps_place (p : Position) :
    Action.Keeps Inv (Desk.place p : Action (Desk Unit Chronicle) _) := by
  intro d h
  obtain ⟨stack, htraces⟩ := h.traces
  refine (Desk.leaves_place htraces p).mono ?_
  rintro _ _ ⟨j, stack', rfl, htraces', hj⟩
  exact h.of_resembles hj ⟨_, htraces'⟩ rfl rfl ⟨id, ⟨rfl, fun _ hid => .inl hid⟩, rfl, rfl, id⟩

/-- A change of the screen that leaves it about the same. -/
private theorem keeps_change {f : Screen → Screen} (hf : ∀ s, Resembles s (f s)) :
    Action.Keeps Inv (change f) :=
  Action.Keeps.modify fun d h => h.of_resembles rfl h.traces rfl rfl (hf d.around.screen)

/-- What is done to a link without ending it leaves the screen about the same. -/
private theorem resembles_use (k : Control) (s : Screen) : Resembles s (k.use s) := by
  refine ⟨k.sturdy_use, ?_, ?_, ?_, fun hd => ?_⟩
  · rw [k.outline_use]
    exact ⟨rfl, fun _ hid => .inl hid⟩
  · rw [k.link_use]
  · rw [k.link_use]
  · rwa [k.link_use] at hd

/-- **Whatever a program asks, the invariant is kept.** -/
theorem keeps_grant (r : Request) : Action.Keeps Inv (grant r) := by
  cases r with
  | hear notice =>
    intro d h
    refine (leaves_hear h notice).mono ?_
    rintro _ d' (rfl | ⟨r, u, -, -, hinv, -⟩)
    · exact h
    · exact hinv
  | mute muted =>
    refine Action.Keeps.modify fun d h => ?_
    obtain ⟨stack, htraces⟩ := h.traces
    exact h.of_resembles rfl ⟨_, htraces.mute muted⟩ rfl rfl
      ⟨id, ⟨rfl, fun _ hid => .inl hid⟩, rfl, rfl, id⟩
  | place p => exact keeps_place p
  | resync =>
    exact Action.Keeps.get_bind fun d h => (gives_tell (h.ready _)).leaves fun _ _ h' => h'.1
  | detach =>
    intro d h
    simp only [grant, Action.leaves_bind, Action.leaves_pure]
    refine (Desk.gives_detach d).leaves ?_
    rintro _ _ ⟨-, rfl⟩
    exact ⟨⟨h.traces, h.numbered, h.sturdy, h.live, h.heads, h.recalled, h.retained, h.orderly⟩,
      by simp⟩
  | reattach =>
    refine Action.Keeps.get_bind fun d h => ?_
    -- without a follower the screen is attached and told, and with one nothing happens
    rcases hatt : d.attached with _ | ⟨⟩
    · simp only [Desk.attach, Action.leaves_bind, Action.leaves_get, Action.leaves_modify, hatt,
        Action.leaves_note]
      exact (gives_tell h.ready_attach).leaves fun _ _ h' => h'.1
    · exact h
  | control k => exact keeps_change (resembles_use k)
  | disconnect =>
    intro d h
    simp only [grant, Action.leaves_zoom, Screen.disconnect, Action.leaves_bind, Action.leaves_get]
    split
    · exact h
    · simp only [Action.leaves_bind, Action.leaves_modify, Action.leaves_note]
      exact h.of_resembles rfl h.traces rfl rfl
        ⟨id, ⟨rfl, fun _ hid => .inl hid⟩, rfl, rfl, fun hd => by cases hd⟩

/-- Nothing more happened to the screen, or it was told of the journal as it is now. -/
def Continues (d d' : Desk Unit Chronicle) : Prop :=
  d'.around.episodes = d.around.episodes ∨
    ∃ x : Episode, d'.around = ⟨x.after, x :: d.around.episodes⟩ ∧
      x.timeline = d'.journal.timeline ∧ x.update.current = d'.journal.cursor ∧
      d'.attached = some ()

private theorem Tells.continues (h : Tells d u d') (hu : u.current = d.journal.cursor) :
    Continues d d' := by
  rcases h with ⟨-, rfl⟩ | ⟨x, hatt, ht, rfl, -, -, rfl⟩
  · exact .inl rfl
  · exact .inr ⟨x, rfl, ht, hu, hatt⟩

/-- **What a request lets happen to the screen is that it is told of the journal.** -/
theorem continues_grant (h : Inv d) (r : Request) :
    (grant r).Leaves d fun _ d' => Continues d d' := by
  cases r with
  | hear notice =>
    refine (leaves_hear h notice).mono ?_
    rintro _ d' (rfl | ⟨r, u, hr, hu, -, htells⟩)
    · exact .inl rfl
    · exact htells.continues (h.ready_hear hr hu).1.fits.current
  | resync =>
    simp only [grant, Desk.resync, Action.leaves_bind, Action.leaves_get]
    exact (gives_tell (h.ready .resync)).leaves fun _ d' h' => h'.2.continues rfl
  | reattach =>
    simp only [grant, Action.leaves_bind, Action.leaves_get]
    rcases hatt : d.attached with _ | ⟨⟩
    · simp only [Desk.attach, Action.leaves_bind, Action.leaves_get, Action.leaves_modify, hatt,
        Action.leaves_note]
      exact (gives_tell h.ready_attach).leaves fun _ d' h' => h'.2.continues rfl
    · exact .inl rfl
  | place p =>
    simp only [grant, Desk.place, Action.leaves_zoom]
    exact .inl rfl
  | detach =>
    simp only [grant, Action.leaves_bind, Action.leaves_pure]
    refine (Desk.gives_detach d).leaves ?_
    rintro _ _ ⟨-, rfl⟩
    exact .inl rfl
  | disconnect =>
    simp only [grant, Action.leaves_zoom]
    exact .inl rfl
  | mute | control => exact .inl rfl

/-! ### Moves -/

/-- The gestures of a user, and what is asked by those who handle them, keep the invariant. -/
private theorem agrees_inv : (stage reply).Agrees (stage reply).respond Outline.Grows Inv where
  overhear signal := by
    refine keeps_change fun s => ⟨fun h => ?_, ⟨rfl, fun _ hid => .inl hid⟩, rfl, rfl, id⟩
    exact (Screen.sameButRecord_overhear signal s).kept.plans.sturdy h
  respond act := .of_keeps <|
    Action.Keeps.get_bind fun d h => Action.Keeps.each (fun r _ => keeps_grant r) d h
  outline d o h ho := h.of_resembles rfl h.traces rfl rfl ⟨id, ho, rfl, rfl, id⟩

/-- **One move keeps the invariant.** -/
theorem keeps_make (m : Move) : Action.Keeps Inv (make reply m) := by
  cases m with
  | request r => exact keeps_grant r
  | gesture g =>
    exact Action.Keeps.bind (agrees_inv.agree_make g fun _ _ _ => Outline.grows_respond).keeps
      fun _ => Action.Keeps.pure ()

theorem inv_start (settings : Settings) (handlers : Handlers) (recorded : Bool) (o : Outline) :
    Inv (start settings handlers recorded o) where
  traces := ⟨_, Journal.traces_empty settings⟩
  numbered := Timeline.Numbered.empty settings.grouping
  sturdy op := by cases recorded <;> exact nofun
  live := nofun
  heads _ hid := nomatch (hid : _ ∈ ([] : List EntryId))
  recalled _ hid := nomatch (hid : _ ∈ ([] : List EntryId))
  retained _ hid := hid.elim
  orderly newer x older h := by
    have h : [] = newer ++ x :: older := h
    simp at h
  rows ha := nomatch (ha : (none : Option Unit).isSome = true)

/-- **Any moves keep the invariant.** -/
theorem Inv.after (h : Inv d) (moves : List Move) : Inv (after reply d moves) := by
  induction moves generalizing d with
  | nil => exact h
  | cons m moves ih => exact ih (keeps_make m d h)

end Chronicle

end UndoJournal
