import UndoJournal.Bench.Screen
import UndoJournal.Proofs.Screen.Attention

/-!
# What a screen on a bench takes for an act of the user

A `ScreenBench.Move` is anything that can be done to a screen on a bench: its user acts, its link is
told of an update, true or not, guards are taken and let go of, and so on. Moves go on from whatever
state a fault left.

**As many acts are written down as the user made while somebody listened**: a move adds to the
signals that were fired unprompted and to the acts that were handled only if it is a gesture, and
then what `Attention.handled` says of the signals (`ScreenBench.attentive_moved`).
-/

namespace UndoJournal

namespace ScreenBench

/-- A move on a bench: of a program, of its user, or of whoever holds guards and handles. -/
inductive Move where
  /-- Have another timeline. -/
  | turn (t : Timeline)
  /-- Tell the screen of an update. -/
  | push (update : CursorUpdate)
  /-- Click the row at a place. -/
  | click (row : Nat)
  /-- Expand the run of the row at a place. -/
  | expand (row : Nat)
  /-- Collapse the run of the row at a place. -/
  | collapse (row : Nat)
  /-- Click the expander of the row at a place. -/
  | toggle (row : Nat)
  /-- Have the link skip updates. -/
  | pause
  /-- Have the link follow updates again. -/
  | resume
  /-- Block or unblock the listeners of the link. -/
  | block (blocked : Bool)
  /-- Take a guard from outside. -/
  | hold
  /-- Let go of a guard held from outside. -/
  | release
  /-- Disconnect the link. -/
  | disconnect
  /-- Let the follower go away. -/
  | drop
  /-- Make the next call of an operation of the view go wrong. -/
  | plant (op : ViewOp) (breakage : Breakage)

/-- Whether a move is a gesture of the user. -/
def Move.isGesture : Move → Bool
  | .click _ | .expand _ | .collapse _ | .toggle _ => true
  | _ => false

/-- The bench after a move, whether that met a fault or not. -/
def moved (b : ScreenBench) : Move → ScreenBench
  | .turn t => timelineLens.set t b
  | .push update => ((push update).run b).state
  | .click row => ((stage.wiring.click row).run b).state
  | .expand row => ((stage.wiring.expandRow row).run b).state
  | .collapse row => ((stage.wiring.collapseRow row).run b).state
  | .toggle row => ((stage.wiring.toggleRow row).run b).state
  | .pause => stage.screen.modify Screen.pause b
  | .resume => stage.screen.modify Screen.resume b
  | .block blocked => stage.screen.modify (Screen.blockListeners blocked) b
  | .hold => stage.screen.modify (Screen.onLink Link.hold) b
  | .release => stage.screen.modify (Screen.onLink fun l => l.release.2) b
  | .disconnect => (stage.disconnect.run b).state
  | .drop => (drop.run b).state
  | .plant op breakage => stage.screen.modify (Screen.plant op breakage) b

/-- The bench after some moves, whichever of them met a fault. -/
def afterMoves (b : ScreenBench) (moves : List Move) : ScreenBench := moves.foldl moved b

end ScreenBench

/-- The attention after a move on a bench. -/
def Attention.onBench (a : Attention) : ScreenBench.Move → Attention
  | .hold => a.hold
  | .release => a.release
  | .block blocked => a.block blocked
  | .disconnect | .drop => a.cutOff
  | _ => a

namespace ScreenBench

variable {a : Attention} {signals : List Signal} {acts : List UserAct} {b : ScreenBench}

private theorem lawful_stage : stage.screen.Lawful :=
  ⟨fun _ _ => rfl, fun _ => rfl, fun _ _ _ => rfl⟩

/-- The screen of the bench attends to its user; these signals were fired unprompted, and those acts
were handled. -/
structure Attentive (a : Attention) (signals : List Signal) (acts : List UserAct)
    (b : ScreenBench) : Prop where
  poised : b.screen.Poised a signals
  handled : b.handled = acts

private theorem Attentive.withScreen {a' : Attention} (h : b.Attentive a signals acts)
    {screen : Screen}
    (hpoised : screen.Poised a' signals) :
    (stage.screen.set screen b).Attentive a' signals acts :=
  ⟨hpoised, h.handled⟩

/-- The bench writes down what it handles. -/
private theorem heeds_attentive : stage.Heeds a fun new acts' =>
    Attentive a (signals ++ new) (acts ++ acts') where
  lawful := lawful_stage
  poised _ _ _ h := ⟨_, h.poised⟩
  overhear new _ _ signal h :=
    ⟨List.append_assoc signals new _ ▸ (h.poised.overheard signal).2, h.handled⟩
  outline _ _ _ o h := h.withScreen (h.poised.withOutline o)
  respond _ acts' _ act h :=
    ⟨h.poised, (congrArg (· ++ [act]) h.handled).trans (List.append_assoc acts acts' _)⟩

private theorem Attentive.accounted (h : b.Attentive a signals acts) :
    Stage.Accounted a (fun new acts' => Attentive a (signals ++ new) (acts ++ acts')) b :=
  .none (by simpa using h)

/-- Whatever the screen is told, nothing is handled meanwhile. -/
private theorem leaves_push (h : b.Attentive a signals acts) (u : CursorUpdate) :
    (push u).Leaves b fun _ b' => b'.Attentive a signals acts := by
  simp only [push, Action.leaves_bind, Action.leaves_get]
  split
  · rw [Action.leaves_bind, Stage.follow_eq_zoom lawful_stage, Action.leaves_zoom]
    refine (h.poised.follow b.timeline u).mono ?_
    rintro (fault | answer) screen hpoised
    · exact h.withScreen hpoised
    · exact h.withScreen hpoised
  · exact h

private theorem leaves_disconnect (h : b.Attentive a signals acts) :
    stage.disconnect.Leaves b fun _ b' => b'.Attentive a.cutOff signals acts := by
  rw [Stage.disconnect, Action.leaves_zoom]
  exact h.poised.disconnect.mono fun _ _ hpoised => h.withScreen hpoised

private theorem leaves_drop (h : b.Attentive a signals acts) :
    drop.Leaves b fun _ b' => b'.Attentive a.cutOff signals acts := by
  rw [drop, Action.leaves_bind]
  refine (leaves_disconnect h).mono ?_
  rintro (fault | ⟨⟩) b' h'
  · exact h'
  · exact ⟨h'.poised, h'.handled⟩

/-- **What a move adds** is fired by a gesture, and handled as the attention wants it. -/
theorem attentive_moved (h : b.Attentive a signals acts) (m : Move) :
    a.Adds m.isGesture fun new acts' =>
      (b.moved m).Attentive (a.onBench m) (signals ++ new) (acts ++ acts') := by
  have hnone : (b.moved m).Attentive (a.onBench m) signals acts →
      a.Adds m.isGesture fun new acts' =>
        (b.moved m).Attentive (a.onBench m) (signals ++ new) (acts ++ acts') := fun h' =>
    .none (by rwa [List.append_nil, List.append_nil])
  cases m with
  | turn t => exact hnone ⟨h.poised, h.handled⟩
  | push u => exact hnone (leaves_push h u)
  | click row => exact heeds_attentive.keeps_click row b h.accounted
  | expand row => exact heeds_attentive.keeps_use _ b h.accounted
  | collapse row => exact heeds_attentive.keeps_use _ b h.accounted
  | toggle row => exact heeds_attentive.keeps_use _ b h.accounted
  | pause => exact hnone (h.withScreen (h.poised.onLink fun _ => ⟨rfl, rfl, rfl, rfl⟩))
  | resume => exact hnone (h.withScreen (h.poised.onLink fun _ => ⟨rfl, rfl, rfl, rfl⟩))
  | block blocked =>
    exact hnone (h.withScreen (h.poised.of_attends (h.poised.attends.block blocked) rfl))
  | hold => exact hnone (h.withScreen (h.poised.of_attends h.poised.attends.hold rfl))
  | release => exact hnone (h.withScreen (h.poised.of_attends h.poised.attends.release rfl))
  | disconnect => exact hnone (leaves_disconnect h)
  | drop => exact hnone (leaves_drop h)
  | plant op breakage => exact hnone (h.withScreen (h.poised.plant op breakage))

/-- What is true of a bench with that attention between any two moves. -/
structure Exact (a : Attention) (b : ScreenBench) : Prop where
  /-- Some signals were fired unprompted, and some acts were handled; what a move adds to them is
  fired by a gesture and handled as the attention wants it. -/
  adds : ∃ signals acts, b.Attentive a signals acts ∧ ∀ m, a.Adds m.isGesture fun new acts' =>
    (b.moved m).Attentive (a.onBench m) (signals ++ new) (acts ++ acts')
  /-- A gesture is attended to, signal by signal. -/
  attends : ∀ r, (stage.wiring.enact r).run b = (stage.attendAll a r).run b

private theorem Attentive.exact (h : b.Attentive a signals acts) : b.Exact a where
  adds := ⟨signals, acts, h, attentive_moved h⟩
  attends r := ((heeds_attentive.agree_attendAll r).run_eq h.accounted).symm

/-- Whatever is done to a bench, what it handles is exactly what its user does. -/
theorem exact_afterMoves (settings : Settings) (handlers : Handlers) (o : Outline)
    (moves : List Move) :
    ((empty settings handlers o).afterMoves moves).Exact
      (moves.foldl Attention.onBench (.full handlers)) := by
  suffices h : ∀ (a : Attention) (b : ScreenBench), (∃ signals acts, b.Attentive a signals acts) →
      (b.afterMoves moves).Exact (moves.foldl Attention.onBench a) from
    h _ _ ⟨[], [], Screen.Poised.assemble settings.view handlers o, rfl⟩
  -- a move ends in an attentive bench again
  induction moves with
  | nil => exact fun a b ⟨_, _, h⟩ => h.exact
  | cons m moves ih =>
    rintro a b ⟨signals, acts, h⟩
    obtain ⟨new, hmoved, -⟩ := attentive_moved h m
    exact ih _ _ ⟨_, _, hmoved⟩

end ScreenBench

end UndoJournal
