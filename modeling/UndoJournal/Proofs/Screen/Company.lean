import UndoJournal.Proofs.Desk.Requests
import UndoJournal.Proofs.Outline.Acts
import UndoJournal.Proofs.Screen.Episodes
import UndoJournal.Proofs.Screen.Fidelity
import UndoJournal.Proofs.Screen.Lodging
import UndoJournal.Session.Basic

/-!
# A screen in company

A `Company` is a screen whose view others listen to as well, and a journal that can be given other
followers. Everybody acts as they like: a program asks the journal for something, uses handles of
the link, tells the screen of updates or drives its view while the journal does not; others come,
go and are blocked; a user does something on the screen; and whoever handles the acts of the user
does any of this in turn (`Company.respond`), in the middle of what goes on.

A link ends when a handle disconnects it, when its follower goes away, when another is attached in
its place, and when the journal goes away that it is attached to. Each end is written down, like the
updates that the screen was told, the acts that were handled, and the visits of others to the hub,
and so **what happens after an end** can be told from what happens before
(`Company.Orderly.aftermath`).
-/

namespace UndoJournal

/-- One event of the log of a company. -/
inductive Happening where
  /-- An act of the user was handled. -/
  | handled (act : UserAct)
  /-- The screen was told an update. -/
  | pushed (e : Episode)
  /-- The link was ended, and what the screen was before and afterwards. -/
  | ended (before after : Screen)
  /-- Others did something with the hub. -/
  | visited (v : Visit)

/-- What others did with the hub, if that is what happened. -/
def Happening.visit? : Happening → Option Visit
  | visited v => some v
  | handled _ | pushed _ | ended _ _ => none

/-- A screen with others around it, and what happened to it. -/
structure Company where
  /-- The screen. -/
  screen : Screen
  /-- What recorders wrote down, oldest first. -/
  memos : List Memo
  /-- What happened, newest first. -/
  log : List Happening

namespace Company

/-- The screen as a part of the company. -/
def screenLens : Lens Company Screen := ⟨screen, fun s c => { c with screen := s }⟩

/-- What recorders wrote down, as a part of the company. -/
def memosLens : Lens Company (List Memo) := ⟨memos, fun m c => { c with memos := m }⟩

/-- Write down what happened. -/
def write (x : Happening) (c : Company) : Company := { c with log := x :: c.log }

/-- The screen during an update, when nobody responds to its user. -/
def inside : Stage Company := ⟨screenLens, fun _ => pure ()⟩

/-- Tell the screen of an update, and write down the screen before and after with its answer. -/
def follow (t : Timeline) (u : CursorUpdate) : Action Company (Except ViewError Unit) := do
  let before ← Action.get
  let answer ← inside.follow t u
  Action.modify fun c => c.write (.pushed ⟨t, u, before.screen, answer, c.screen⟩)
  pure answer

/-- End the link of the screen, and write down the screen before and after. -/
def finish : Action Company Unit := do
  let before ← Action.get
  inside.disconnect
  Action.modify fun c => c.write (.ended before.screen c.screen)

/-- How plugs follow a journal: a screen ends its link when it is let go of, a recorder writes down
what it is told. -/
def following : Following Plug Company where
  follow
    | .screen, t, u => follow t u
    | .recorder r, t, u => Action.zoom memosLens (r.follow t u)
  detached
    | .screen => finish
    | .recorder r => Action.zoom memosLens (Recorder.following.detached r)
  dropped
    | .screen => finish
    | .recorder _ => pure ()

/-! ### Moves -/

/-- A move of a program that drives the journal, the link or the view, of others who listen to the
view, or of its user. -/
inductive Move where
  /-- Something is asked of the journal. -/
  | ask (r : Desk.Request Plug)
  /-- The journal goes away, and an empty one takes its place. -/
  | close
  /-- The follower of the screen goes away. -/
  | drop
  /-- A handle disconnects the link. -/
  | disconnect
  /-- A handle does something else to the link. -/
  | control (k : Control)
  /-- The screen is told of an update, unless the journal does that. -/
  | push (t : Timeline) (u : CursorUpdate)
  /-- The view is driven by somebody else, unless the journal does that. -/
  | drive (command : ViewCommand)
  /-- Others do something with the hub. -/
  | visit (v : Visit)
  /-- A user does something on the screen. -/
  | gesture (g : Gesture)

/-- The screen as a part of the desk. -/
def deskScreen : Lens (Desk Plug Company) Screen := Desk.aroundLens.comp screenLens

/-- The screen while a user acts on it. -/
def stage (respond : UserAct → Action (Desk Plug Company) Unit) : Stage (Desk Plug Company) :=
  ⟨deskScreen, respond⟩

/-- Do something unless the screen is attached to the journal. -/
def aside (x : Action (Desk Plug Company) Unit) : Action (Desk Plug Company) Unit := do
  let d ← Action.get
  if d.attached = some .screen then pure () else x

/-- The company after others did something with the hub, which is written down. -/
def visit (v : Visit) (c : Company) : Company :=
  { c.write (.visited v) with
    screen.widget.hub := c.screen.widget.hub.visited v }

/-- Make a move, where acts of the user are responded to by `respond`. -/
def make (respond : UserAct → Action (Desk Plug Company) Unit) :
    Move → Action (Desk Plug Company) Unit
  | .ask r => Desk.ask following r
  | .close => Desk.renew following
  | .drop => Action.zoom Desk.aroundLens (following.dropped .screen)
  | .disconnect => Action.zoom Desk.aroundLens finish
  | .control k => Action.modify (deskScreen.modify k.use)
  | .push t u => aside do
    let _ ← Action.zoom Desk.aroundLens (follow t u)
    pure ()
  | .drive command => aside do
    let _ ← (stage respond).wiring.perform command
    pure ()
  | .visit v => Action.modify (Desk.aroundLens.modify (visit v))
  | .gesture g => do
    let _ ← (stage respond).wiring.make g
    pure ()

/-- Whether a move ends the link: it is disconnected, its follower goes away, another is attached in
its place, or the journal goes away that it is attached to. -/
def Move.Ends (d : Desk Plug Company) : Move → Prop
  | .disconnect | .drop => True
  | .ask (.attach _) | .close => d.attached = some .screen
  | _ => False

variable (reply : UserAct → Desk Plug Company → List Move)

/-- Respond to an act of the user: it is written down, and then whoever handles it makes moves as
`reply` says, in which further acts of the user can be handled, at most so deep. -/
def respond : Nat → UserAct → Action (Desk Plug Company) Unit
  | 0, act => Action.modify (Desk.aroundLens.modify (write (.handled act)))
  | depth + 1, act => do
    Action.modify (Desk.aroundLens.modify (write (.handled act)))
    let d ← Action.get
    Action.each (make (respond depth)) (reply act d)

/-- The state after some moves; one that meets a fault leaves the state it was met in. -/
def after (depth : Nat) (d : Desk Plug Company) (moves : List Move) : Desk Plug Company :=
  moves.foldl (fun d m => ((make (respond reply depth) m).run d).state) d

/-- A journal without history, and a screen that was just put around a view that others may have
visited before; the record between link and view is kept or not. -/
def start (settings : Settings) (handlers : Handlers) (recorded : Bool) (o : Outline)
    (visits : List Visit) : Desk Plug Company :=
  .empty settings
    ⟨.join settings.view handlers (if recorded then some .quiet else none)
      ⟨o, visits.foldl Hub.visited .empty⟩, [], []⟩

end Company

/-! ### What happens after an end -/

/-- What may happen after the end of a link, when the hub is `hub'` afterwards. -/
def Happening.Befalls (hub hub' : Hub Listener) : Happening → Prop
  | handled _ => False
  | pushed e => e.answer = .error .disconnected ∧ e.after = e.before ∧ hub' = hub
  | ended _ _ => hub' = hub
  | visited v => hub' = hub.visited v

/-- What happened since the end of a link that left `hub`, newest first, and led to `hub'`. -/
structure Aftermath (hub : Hub Listener) (later : List Happening) (hub' : Hub Listener) : Prop where
  /-- No act of the user was handled. -/
  unheard : ∀ act, .handled act ∉ later
  /-- Updates were refused, and left the screen as it was, its record included. -/
  refused : ∀ e, .pushed e ∈ later → e.answer = .error .disconnected ∧ e.after = e.before
  /-- The hub is what others made of it. -/
  hub : hub' = (later.filterMap Happening.visit?).foldr (fun v hub => hub.visited v) hub

namespace Aftermath

variable {hub hub' hub'' : Hub Listener} {later : List Happening} {x : Happening}

private theorem nil : Aftermath hub [] hub :=
  ⟨fun _ => List.not_mem_nil, fun _ hmem => absurd hmem List.not_mem_nil, rfl⟩

private theorem cons (h : Aftermath hub later hub') (hx : x.Befalls hub' hub'') :
    Aftermath hub (x :: later) hub'' := by
  refine ⟨fun act hmem => ?_, fun e hmem => ?_, ?_⟩
  · obtain rfl | hmem := List.mem_cons.mp hmem
    · exact hx
    · exact h.unheard act hmem
  · obtain rfl | hmem := List.mem_cons.mp hmem
    · exact ⟨hx.1, hx.2.1⟩
    · exact h.refused e hmem
  · have hhub := h.hub
    cases x with
    | handled act => exact hx.elim
    | pushed e => exact hx.2.2.trans hhub
    | ended before after => exact Eq.trans hx hhub
    | visited v => exact Eq.trans hx (congrArg (Hub.visited · v) hhub)

end Aftermath

namespace Company

variable {c c' : Company} {x : Happening}

/-- The link has its slots among those of others; an end takes it away for good, and after that the
hub is changed by others only. -/
structure Orderly (c : Company) : Prop where
  sturdy : c.screen.Sturdy
  lodges : c.screen.Lodges
  ended : ∀ before after, .ended before after ∈ c.log →
    before.Ends after ∧ c.screen.link.disconnected = true
  aftermath : ∀ later before after earlier, c.log = later ++ .ended before after :: earlier →
    Aftermath after.widget.hub later c.screen.widget.hub

namespace Orderly

/-- A change that is not written down keeps the order, if an ended link stays so with its hub. -/
theorem silent (h : c.Orderly) (hlog : c'.log = c.log) (hst : c'.screen.Sturdy)
    (hl : c'.screen.Lodges) (hgone : c.screen.link.disconnected = true →
      c'.screen.link.disconnected = true ∧ c'.screen.widget.hub = c.screen.widget.hub) :
    c'.Orderly where
  sturdy := hst
  lodges := hl
  ended before after hmem := by
    obtain ⟨hends, hd⟩ := h.ended before after (hlog ▸ hmem)
    exact ⟨hends, (hgone hd).1⟩
  aftermath later before after earlier hsplit := by
    have hsplit' : c.log = later ++ .ended before after :: earlier := hlog ▸ hsplit
    have hd := (h.ended before after (hsplit' ▸ by simp)).2
    rw [(hgone hd).2]
    exact h.aftermath later before after earlier hsplit'

/-- An event that is written down keeps the order, if it may befall a link that has ended. -/
theorem next (h : c.Orderly) (hlog : c'.log = x :: c.log) (hst : c'.screen.Sturdy)
    (hl : c'.screen.Lodges) (hgone : c.screen.link.disconnected = true →
      c'.screen.link.disconnected = true ∧ x.Befalls c.screen.widget.hub c'.screen.widget.hub)
    (hend : ∀ before after, x = .ended before after → before.Ends after ∧ c'.screen = after) :
    c'.Orderly where
  sturdy := hst
  lodges := hl
  ended before after hmem := by
    rw [hlog] at hmem
    obtain hnew | hold := List.mem_cons.mp hmem
    · obtain ⟨hends, rfl⟩ := hend before after hnew.symm
      exact ⟨hends, by rw [hends.link]⟩
    · obtain ⟨hends, hd⟩ := h.ended before after hold
      exact ⟨hends, (hgone hd).1⟩
  aftermath later before after earlier hsplit := by
    rw [hlog] at hsplit
    cases later with
    | nil =>
      obtain ⟨-, rfl⟩ := hend before after (List.cons.inj hsplit).1
      exact .nil
    | cons y later =>
      obtain ⟨rfl, hold⟩ := List.cons.inj hsplit
      have hd := (h.ended before after (hold ▸ by simp)).2
      exact (h.aftermath later before after earlier hold).cons (hgone hd).2

/-- **Ending a link is its own doing**, and can be done again. -/
theorem gives_finish (h : c.Orderly) : finish.Gives c fun _ c' => c'.Orderly ∧
    ∃ after, c.screen.Ends after ∧
      c' = { c with screen := after, log := .ended c.screen after :: c.log } := by
  simp only [finish, Stage.disconnect, Action.gives_bind, Action.gives_get, Action.gives_zoom,
    Action.gives_modify]
  refine h.lodges.ends.mono ?_
  rintro _ after ⟨hends, hlodges⟩
  refine ⟨h.next rfl (fun op => ?_) hlodges (fun hd => ?_) ?_, after, hends, rfl⟩
  · have hst := h.sturdy op
    rwa [Screen.breakage?, ← hends.traffic] at hst
  · obtain rfl : after = c.screen := hends.again hd
    exact ⟨hd, rfl⟩
  · rintro before after' heq
    obtain ⟨rfl, rfl⟩ := Happening.ended.inj heq
    exact ⟨hends, rfl⟩

end Orderly

/-- The screen was told an update, and that is written down. -/
structure Told (t : Timeline) (u : CursorUpdate) (c : Company) (e : Episode) (c' : Company) :
    Prop where
  timeline : e.timeline = t
  update : e.update = u
  before : e.before = c.screen
  follows : e.Follows
  company : c' = { c with screen := e.after, log := .pushed e :: c.log }

private theorem lawful_screenLens :
    screenLens.Lawful := ⟨fun _ _ => rfl, fun _ => rfl, fun _ _ _ => rfl⟩

/-- What a company in order is told, it is told whatever it is. -/
theorem Orderly.gives_follow (h : c.Orderly) (t : Timeline) (u : CursorUpdate) :
    (follow t u).Gives c fun _ c' => c'.Orderly ∧ ∃ e, Told t u c e c' := by
  have hzoom : inside.follow t u = Action.zoom screenLens (Stage.alone.follow t u) :=
    Stage.follow_eq_zoom lawful_screenLens t u
  simp only [follow, hzoom, Action.gives_bind, Action.gives_get, Action.gives_zoom,
    Action.gives_modify, Action.gives_pure]
  obtain ⟨answer, hanswer, hframed⟩ := Screen.gives_follow_framed h.sturdy t u
  refine ⟨answer, hanswer, h.next rfl (hframed.plans.sturdy h.sturdy) (h.lodges.framed hframed)
      (fun hd => ?_) (fun _ _ heq => by cases heq),
    ⟨t, u, c.screen, answer, _⟩, rfl, rfl, rfl, ⟨answer, hanswer, rfl, rfl⟩, rfl⟩
  obtain ⟨hrefused, hsame⟩ := Screen.leaves_follow_of_disconnected (t := t) (u := u) hd
  obtain rfl : answer = .error .disconnected := Except.ok.inj (hanswer.symm.trans hrefused)
  have hgone := congrArg Link.disconnected hframed.link
  exact ⟨hgone.trans hd, rfl, hsame, hframed.hub⟩

end Company

end UndoJournal
