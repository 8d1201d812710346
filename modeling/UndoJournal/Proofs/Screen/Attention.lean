import UndoJournal.Proofs.Screen.Alone
import UndoJournal.Proofs.Screen.Record
import UndoJournal.Proofs.Screen.Tracks

/-!
# How a screen attends to its user

What somebody wants to handle, how many guards are held from outside, and whether the listeners of
the link are connected and not blocked, is the `Attention` of a screen. Given the attention,
`Stage.attendAll` says what becomes of a gesture, signal by signal, with the acts that are handled
in the place where they are.

A stage does just that (`Stage.Heeds.agree_attendAll`) as long as its responses leave the attention
as it is, whatever else they set off. They may well set off pushes: **while an update is followed
nobody attends to the user**, whoever responds otherwise, and the guards are what they were
afterwards (`Stage.unattended_follow`).
-/

namespace UndoJournal

open UndoJournal.Action (Agree Keeps)

/-- How a screen attends to its user. -/
structure Attention where
  /-- Which kinds of signals somebody wants to handle. -/
  handlers : Handlers
  /-- The number of guards that are held from outside. -/
  guards : Nat
  /-- Whether the listeners of the link are blocked. -/
  blocked : Bool
  /-- Whether the link is gone. -/
  cut : Bool
deriving DecidableEq

/-- The handles and the slots of the listeners of a fresh link. -/
def Screen.ears (handlers : Handlers) : List Connection × Hub Listener :=
  connectAll .empty handlers.kinds

namespace Attention

/-- Nothing keeps a screen from attending to its user. -/
def full (handlers : Handlers) : Attention := ⟨handlers, 0, false, false⟩

/-- One more guard is held. -/
def hold (a : Attention) : Attention := { a with guards := a.guards + 1 }

/-- One guard less is held. -/
def release (a : Attention) : Attention := { a with guards := a.guards - 1 }

/-- The listeners of the link are blocked, or no longer. -/
def block (a : Attention) (blocked : Bool) : Attention := { a with blocked := blocked }

/-- The link is gone. -/
def cutOff (a : Attention) : Attention := { a with cut := true }

/-- Whether a signal reaches the link. -/
def hears (a : Attention) (signal : Signal) : Bool :=
  a.handlers.kinds.contains signal.kind && !a.blocked && !a.cut

/-- Which acts are handled of those that signals tell of, if the signals reach the link. -/
def handled (a : Attention) (signals : List Signal) : List UserAct :=
  if a.guards = 0 then signals.filterMap Signal.userAct? else []

/-- It is true of some new signals, and of the acts handled of them; each of them was fired by a
gesture and reaches the link. -/
def Adds (a : Attention) (gesture : Bool) (p : List Signal → List UserAct → Prop) : Prop :=
  ∃ new, p new (a.handled new) ∧ ∀ signal ∈ new, gesture = true ∧ a.hears signal = true

/-- The handles that the link has. -/
def connections (a : Attention) : List Connection :=
  if a.cut then [] else (Screen.ears a.handlers).1

/-- The listeners of the view. -/
def hub (a : Attention) : Hub Listener :=
  let (connections, hub) := Screen.ears a.handlers
  let hub := connections.foldl (fun h c => h.setBlocked c a.blocked) hub
  if a.cut then connections.foldl Hub.disconnect hub else hub

variable {a : Attention} {p : List Signal → List UserAct → Prop}

private theorem handled_nil (a : Attention) : a.handled [] = [] := by
  unfold handled
  split <;> rfl

private theorem handled_append (signals signals' : List Signal) :
    a.handled (signals ++ signals') = a.handled signals ++ a.handled signals' := by
  unfold handled
  split
  · exact List.filterMap_append
  · rfl

/-- Nothing may be added. -/
theorem Adds.none {gesture : Bool} (h : p [] []) : a.Adds gesture p :=
  ⟨[], by rwa [handled_nil], by simp⟩

/-- A signal reaches the link once, or not at all. -/
private theorem receivers_hub (a : Attention) (signal : Signal) :
    a.hub.receivers signal = if a.hears signal then [.link] else [] := by
  obtain ⟨⟨select, expand, collapse⟩, guards, blocked, cut⟩ := a
  cases select <;> cases expand <;> cases collapse <;> cases blocked <;> cases cut <;>
    cases signal <;> rfl

/-- Blocking changes what is there to be blocked. -/
private theorem hub_block (a : Attention) (blocked : Bool) :
    a.connections.foldl (fun h c => h.setBlocked c blocked) a.hub = (a.block blocked).hub := by
  obtain ⟨⟨select, expand, collapse⟩, guards, before, cut⟩ := a
  cases select <;> cases expand <;> cases collapse <;> cases before <;> cases blocked <;>
    cases cut <;> rfl

private theorem hub_cutOff (a : Attention) :
    a.connections.foldl Hub.disconnect a.hub = a.cutOff.hub := by
  obtain ⟨⟨select, expand, collapse⟩, guards, blocked, cut⟩ := a
  cases select <;> cases expand <;> cases collapse <;> cases blocked <;> cases cut <;> rfl

private theorem hub_full (handlers : Handlers) :
    (full handlers).hub = (Screen.ears handlers).2 := by
  obtain ⟨select, expand, collapse⟩ := handlers
  cases select <;> cases expand <;> cases collapse <;> rfl

end Attention

/-! ### Screens -/

namespace Screen

variable {a : Attention} {signals : List Signal} {s s' : Screen}

/-- The guards and listeners of the screen are those of the attention. -/
structure Attends (a : Attention) (s : Screen) : Prop where
  depth : s.link.depth = a.guards
  held : s.link.held = a.guards
  disconnected : s.link.disconnected = a.cut
  connections : s.link.connections = a.connections
  hub : s.widget.hub = a.hub

namespace Attends

private theorem of_eq (h : s.Attends a) (hdepth : s'.link.depth = s.link.depth)
    (hheld : s'.link.held = s.link.held) (hgone : s'.link.disconnected = s.link.disconnected)
    (hconn : s'.link.connections = s.link.connections) (hhub : s'.widget.hub = s.widget.hub) :
    s'.Attends a :=
  ⟨hdepth.trans h.depth, hheld.trans h.held, hgone.trans h.disconnected,
    hconn.trans h.connections, hhub.trans h.hub⟩

/-- A push lets go of all guards that it takes. -/
theorem framed (h : s.Attends a) (hs : s.Framed s') : s'.Attends a := by
  constructor
  case hub => exact hs.hub.trans h.hub
  all_goals rw [hs.link]
  exacts [h.depth, h.held, h.disconnected, h.connections]

private theorem assemble (settings : ViewSettings) (handlers : Handlers) (traffic : Option Traffic)
    (o : Outline) : (Screen.assemble settings handlers traffic o).Attends (.full handlers) :=
  ⟨rfl, rfl, rfl, rfl, (Attention.hub_full handlers).symm⟩

private theorem suppressed (h : s.Attends a) : s.link.suppressed = decide (0 < a.guards) := by
  rw [Link.suppressed, h.depth]

theorem hold (h : s.Attends a) : (s.onLink Link.hold).Attends a.hold :=
  ⟨congrArg Nat.succ h.depth, congrArg Nat.succ h.held, h.disconnected, h.connections, h.hub⟩

theorem release (h : s.Attends a) : (s.onLink fun l => l.release.2).Attends a.release := by
  have hguards : s.link.release.2.depth = a.guards - 1 ∧ s.link.release.2.held = a.guards - 1 := by
    rw [← h.held, Link.release]
    split
    · rename_i hzero
      rw [h.depth, ← h.held, hzero]
      exact ⟨rfl, rfl⟩
    · exact ⟨congrArg (· - 1) (h.depth.trans h.held.symm), rfl⟩
  refine ⟨hguards.1, hguards.2, ?_, ?_, h.hub⟩ <;> rw [onLink, Link.release_eq]
  exacts [h.disconnected, h.connections]

theorem block (h : s.Attends a) (blocked : Bool) :
    (s.blockListeners blocked).Attends (a.block blocked) := by
  refine ⟨h.depth, h.held, h.disconnected, h.connections, ?_⟩
  rw [← Attention.hub_block, ← h.connections, ← h.hub]
  rfl

end Attends

/-- The screen attends to its user, no view call is going on, and these signals were fired
unprompted. -/
structure Poised (a : Attention) (signals : List Signal) (s : Screen) : Prop where
  attends : s.Attends a
  account : s.account = some (0, signals)

namespace Poised

theorem of_attends {a' : Attention} (h : s.Poised a signals) (hattends : s'.Attends a')
    (haccount : s'.account = s.account) : s'.Poised a' signals :=
  ⟨hattends, haccount.trans h.account⟩

theorem assemble (settings : ViewSettings) (handlers : Handlers) (o : Outline) :
    (Screen.assemble settings handlers (some .quiet) o).Poised (.full handlers) [] :=
  ⟨.assemble settings handlers _ o, rfl⟩

theorem inCall (h : s.Poised a signals) : s.inCall = false := by
  obtain ⟨t, ht, hsummary⟩ := Option.map_eq_some_iff.mp h.account
  simp only [Screen.inCall, ht, Traffic.inCall, (Prod.mk.inj hsummary).1]
  rfl

/-- What a user fires is written down as such. -/
theorem overheard (h : s.Poised a signals) (signal : Signal) :
    overhear signal s = Stage.onTraffic (fun t => t.write (.fired signal false)) s ∧
      (overhear signal s).Poised a (signals ++ [signal]) := by
  obtain ⟨t, ht, hsummary⟩ := Option.map_eq_some_iff.mp h.account
  obtain ⟨hongoing, hsignals⟩ := Prod.mk.inj hsummary
  have hcall : t.inCall = false := by
    rw [Traffic.inCall, hongoing]
    rfl
  refine ⟨?_, h.attends.of_eq rfl rfl rfl rfl rfl, ?_⟩
  · simp only [overhear, Stage.onTraffic, ht, Option.map_some, Traffic.overhear, hcall]
  · simp only [overhear, Screen.account, ht, Option.map_some, Traffic.unprompted_overhear, hcall,
      Bool.false_eq_true, if_false, hsignals]
    rw [← hongoing]
    rfl

theorem withOutline (h : s.Poised a signals) (o : Outline) :
    { s with widget := { s.widget with outline := o } }.Poised a signals :=
  h.of_attends (h.attends.of_eq rfl rfl rfl rfl rfl) rfl

/-- What is done to the link, if it is not done to guards or listeners. -/
theorem onLink (h : s.Poised a signals) {f : Link → Link}
    (hf : ∀ l : Link, (f l).depth = l.depth ∧ (f l).held = l.held ∧
      (f l).disconnected = l.disconnected ∧ (f l).connections = l.connections) :
    (s.onLink f).Poised a signals := by
  obtain ⟨hdepth, hheld, hgone, hconn⟩ := hf s.link
  exact h.of_attends (h.attends.of_eq hdepth hheld hgone hconn rfl) rfl

theorem plant (h : s.Poised a signals) (op : ViewOp) (breakage : Breakage) :
    (s.plant op breakage).Poised a signals :=
  h.of_attends (h.attends.of_eq rfl rfl rfl rfl rfl)
    (account_onTraffic (f := fun t => t.plant op breakage) (fun _ => rfl) (fun _ => rfl) s)

theorem disconnect (h : s.Poised a signals) :
    Screen.disconnect.Leaves s fun _ s' => s'.Poised a.cutOff signals := by
  simp only [Screen.disconnect, Action.leaves_bind, Action.leaves_get]
  split
  · rename_i hd
    obtain ⟨handlers, guards, blocked, cut⟩ := a
    obtain rfl : cut = true := h.attends.disconnected.symm.trans hd
    exact h
  · simp only [Action.leaves_bind, Action.leaves_modify, Action.leaves_note]
    refine ⟨⟨h.attends.depth, h.attends.held, rfl, rfl, ?_⟩, h.account⟩
    rw [← Attention.hub_cutOff, ← h.attends.connections, ← h.attends.hub]
    rfl

/-- Following an update leaves guards and listeners as they were, and nothing unprompted. -/
theorem follow (h : s.Poised a signals) (t : Timeline) (u : CursorUpdate) :
    (Stage.alone.follow t u).Leaves s fun _ s' => s'.Poised a signals :=
  ⟨h.attends.framed (framed_follow t u s), keeps_account t u s h.account⟩

end Poised

end Screen

/-! ### Stages -/

namespace Stage

variable {σ : Type} {st : Stage σ} {a : Attention}

/-- Nobody attended to the user: only the screen is another, its guards are those that there were,
and nothing unprompted was fired. -/
structure Unattended (st : Stage σ) (w w' : σ) : Prop where
  others : w' = st.screen.set (st.screen.get w') w
  depth : (st.screen.get w').link.depth = (st.screen.get w).link.depth
  held : (st.screen.get w').link.held = (st.screen.get w).link.held
  account : (st.screen.get w').account = (st.screen.get w).account

/-- **While an update is followed nobody attends to the user**, whoever responds otherwise, and
whether it is answered well, with an error, or not at all. -/
theorem unattended_follow (hl : st.screen.Lawful) (t : Timeline) (u : CursorUpdate) (w : σ) :
    (st.follow t u).Leaves w fun _ w' => st.Unattended w w' := by
  let s' := ((alone.follow t u).run (st.screen.get w)).state
  have hframed : (st.screen.get w).Framed s' := Screen.framed_follow t u _
  have hget : st.screen.get (st.screen.set s' w) = s' := hl.get_set _ _
  rw [follow_eq_zoom hl, Action.leaves_zoom]
  change st.Unattended w (st.screen.set s' w)
  constructor <;> rw [hget]
  case depth => rw [hframed.link]
  case held => rw [hframed.link]
  case account => exact Screen.keeps_account t u _ rfl

/-! ### What becomes of the signals of a user -/

/-- What is done about a signal of the user: if nobody holds a guard, the act that it tells of is
handled, if it tells of one. -/
def answer (st : Stage σ) (a : Attention) (signal : Signal) : Action σ Unit :=
  if a.guards = 0 then
    match signal.userAct? with
    | none => pure ()
    | some act => st.respond act
  else
    Action.note .trace "view signal suppressed" [("signal", Inspect.signal signal)]

/-- What becomes of a signal of the user that reaches the link: it is written down as one that was
not fired during a view call, and something is done about it. -/
def heed (st : Stage σ) (a : Attention) (signal : Signal) : Action σ Unit := do
  st.change (onTraffic fun t => t.write (.fired signal false))
  st.answer a signal

/-- Report a signal of the user, and handle it if it is heard. -/
def attend (st : Stage σ) (a : Attention) (signal : Signal) : Action σ Unit := do
  Action.note .trace "view signal"
    [("signal", Inspect.signal signal), ("receivers", toString (if a.hears signal then 1 else 0))]
  if a.hears signal then st.heed a signal else pure ()

/-- The view takes on its new state, and the signals of a gesture are attended to one by one. -/
def attendAll (st : Stage σ) (a : Attention) (r : Response) : Action σ Unit := do
  Action.modify ((st.wiring.widget.comp Widget.outlineLens).set r.outline)
  Action.report r.notes
  Action.each (st.attend a) r.signals

/-- States of a stage whose screen has that attention. It is true of a state for some signals, which
were fired unprompted, and some acts, which were handled; one more of either is accounted for. -/
structure Heeds (st : Stage σ) (a : Attention) (p : List Signal → List UserAct → σ → Prop) :
    Prop where
  lawful : st.screen.Lawful
  poised : ∀ signals acts s, p signals acts s → ∃ fired, (st.screen.get s).Poised a fired
  overhear : ∀ signals acts s signal, p signals acts s →
    p (signals ++ [signal]) acts (st.screen.modify (Screen.overhear signal) s)
  outline : ∀ signals acts s o, p signals acts s →
    p signals acts ((st.wiring.widget.comp Widget.outlineLens).set o s)
  respond : ∀ signals acts s act, p signals acts s →
    (st.respond act).Leaves s fun _ s' => p signals (acts ++ [act]) s'

/-- Signals were fired and heard, of which, and of the acts handled of them, `p` is true. -/
def Accounted (a : Attention) (p : List Signal → List UserAct → σ → Prop) (s : σ) : Prop :=
  a.Adds true fun new acts => p new acts s

namespace Heeds

variable {p : List Signal → List UserAct → σ → Prop} (h : st.Heeds a p)
  {signals : List Signal} {acts : List UserAct} {s : σ}

include h

private theorem leaves_answer (signal : Signal) (hs : p signals acts s) :
    (st.answer a signal).Leaves s fun _ s' => p signals (acts ++ a.handled [signal]) s' := by
  rw [answer, Attention.handled, List.filterMap_cons, List.filterMap_nil]
  split
  · rcases signal.userAct? with _ | act
    · exact (List.append_nil acts).symm ▸ hs
    · exact h.respond signals acts s act hs
  · exact (List.append_nil acts).symm ▸ hs

/-- A signal that reaches the link is heeded. -/
private theorem run_call (signal : Signal) (hs : p signals acts s) :
    (st.call .link signal).run s = (st.heed a signal).run s ∧
      (st.heed a signal).Leaves s fun _ s' =>
        p (signals ++ [signal]) (acts ++ a.handled [signal]) s' := by
  let s₁ := st.screen.modify (Screen.overhear signal) s
  obtain ⟨fired, hpoised⟩ := h.poised signals acts s hs
  have hheed : (st.change (onTraffic fun t => t.write (.fired signal false))).run s =
      ⟨.ok (), s₁, []⟩ :=
    congrArg (fun screen => Outcome.mk _ (st.screen.set screen s) _)
      (hpoised.overheard signal).1.symm
  have hover : (st.change (Screen.overhear signal)).run s = ⟨.ok (), s₁, []⟩ := rfl
  have hlook : st.look.run s₁ = ⟨.ok (st.screen.get s₁), s₁, []⟩ := rfl
  have hsup : (st.screen.get s₁).link.suppressed = decide (0 < a.guards) := by
    change (st.screen.get (st.screen.set _ s)).link.suppressed = _
    rw [h.lawful.get_set]
    exact (hpoised.overheard signal).2.attends.suppressed
  -- both write the signal down; that there is no guard is then seen in the link or in the attention
  constructor
  · rw [heed, answer, Action.run_bind_of_ok hheed, call, Action.run_bind_of_ok hover,
      Action.run_bind_of_ok hlook, hsup]
    rcases Nat.eq_zero_or_pos a.guards with hzero | hpos
    · simp only [hzero, if_true]
      rfl
    · simp only [hpos, Nat.ne_of_gt hpos, if_true, if_false, decide_true, List.nil_append]
  · rw [Action.Leaves, heed, Action.run_bind_of_ok hheed]
    exact h.leaves_answer signal (h.overhear signals acts s signal hs)

/-- **A signal of the user is attended to.** -/
theorem agree_attend (signal : Signal) : Agree (Accounted a p) (st.attend a signal)
    (Hub.emit (st.wiring.widget.comp Widget.hubLens) st.call signal) := by
  rintro s ⟨new, hs, hnew⟩
  obtain ⟨fired, hpoised⟩ := h.poised _ _ _ hs
  have hreceivers : ((st.wiring.widget.comp Widget.hubLens).get s).receivers signal =
      if a.hears signal then [.link] else [] := by
    rw [← a.receivers_hub signal, ← hpoised.attends.hub]
    rfl
  -- the receivers are chosen here, before any of them is called
  rw [attend, Hub.emit, Action.run_bind_of_ok (Action.run_get s), hreceivers]
  rcases hhears : a.hears signal with _ | _
  · exact ⟨rfl, new, hs, hnew⟩
  · obtain ⟨hrun, hheed⟩ := h.run_call signal hs
    have hnote : (Action.note .trace "view signal"
        [("signal", Inspect.signal signal), ("receivers", toString 1)]).run s =
          ⟨.ok (), s, [.event .trace "view signal"
            [("signal", Inspect.signal signal), ("receivers", toString 1)]]⟩ := rfl
    have hcalls : (Action.each (fun listener => st.call listener signal) [.link]).run s =
        (st.heed a signal).run s := by
      rw [Action.each_singleton, hrun]
    simp only [if_true, List.length_singleton, List.nil_append]
    rw [Action.run_bind_of_ok hnote, Action.run_bind_of_ok hnote, hcalls]
    refine ⟨rfl, new ++ [signal], ?_, fun other hother => ?_⟩
    · rw [Attention.handled_append]
      exact hheed
    · rcases List.mem_append.mp hother with hother | hother
      · exact hnew other hother
      · rw [List.mem_singleton.mp hother]
        exact ⟨rfl, hhears⟩

/-- **A gesture of the user is attended to**, signal by signal. -/
theorem agree_attendAll (r : Response) :
    Agree (Accounted a p) (st.attendAll a r) (st.wiring.enact r) := by
  refine Agree.bind (Agree.modify ?_) fun _ => ?_
  · rintro s ⟨new, hs, hnew⟩
    exact ⟨new, h.outline _ _ s r.outline hs, hnew⟩
  · exact Agree.bind (Agree.report _) fun _ => Agree.each fun signal => h.agree_attend signal

theorem keeps_click (row : Nat) : Keeps (Accounted a p) (st.wiring.click row) :=
  (Wiring.agree_click rfl row fun _ r _ =>
    .of_leaves fun s hs => (h.agree_attendAll r).keeps s hs.1).keeps

theorem keeps_use (gesture : Outline → Except ViewError (Bool × Response)) :
    Keeps (Accounted a p) (st.wiring.use gesture) :=
  (Wiring.agree_use rfl fun _ _ r _ =>
    .of_leaves fun s hs => (h.agree_attendAll r).keeps s hs.1).keeps

end Heeds

end Stage

end UndoJournal
