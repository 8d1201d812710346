import UndoJournal.Proofs.Screen.Suppression
import UndoJournal.Proofs.Session.Attention

/-!
# What is taken for an act of the user

What the view of a session fires is handled as an act of the user exactly if it is one: no push is
going on, nobody holds a guard, somebody wants to handle it, the listeners of the link are connected
and not blocked, and the signal says what the user did (`Session.handled_exactly`). So it is with a
screen on a bench, which may listen for less and be told anything.

What becomes of a gesture is said by `Stage.attendAll`. So as many acts are handled as the record
has unprompted signals that tell of one, counted while nobody holds a guard.
-/

namespace UndoJournal

namespace Session

open UndoJournal.Action (Agree Confined)
open Surroundings (watched guarded following)

variable {a : Attention} {signals : List Signal} {n : Nat} {s : Session}

private theorem lawful_screenLens : screenLens.Lawful :=
  ⟨fun _ _ => rfl, fun _ => rfl, fun _ _ _ => rfl⟩

/-- The session counts what it handles. -/
private theorem heeds_attentive : stage.Heeds a fun new acts =>
    Attentive a (signals ++ new) (n + acts.length) where
  lawful := lawful_screenLens
  poised _ _ _ h := ⟨_, h.poised⟩
  overhear new _ _ signal h :=
    ⟨h.attached, List.append_assoc signals new _ ▸ (h.poised.overheard signal).2, h.runs,
      h.violations⟩
  outline _ _ _ o h := ⟨h.attached, h.poised.withOutline o, h.runs, h.violations⟩
  respond _ acts s act h := by
    rw [List.length_append, List.length_singleton, ← Nat.add_assoc]
    exact (confined_respond act s h).2

/-- Signals were added that are heard, and the acts handled of them were counted. -/
abbrev Accounted (a : Attention) (signals : List Signal) (n : Nat) : Session → Prop :=
  Stage.Accounted a fun new acts => Attentive a (signals ++ new) (n + acts.length)

private theorem Attentive.accounted (h : s.Attentive a signals n) : s.Accounted a signals n :=
  .none (by simpa using h)

/-! ### Moves -/

/-- What is true of a session with that attention between any two moves. -/
def Calm (a : Attention) (s : Session) : Prop := ∃ signals n, s.Attentive a signals n

private theorem Calm.aside {s' : Session} (h : s.Calm a) (haside : Aside s s') : s'.Calm a := by
  obtain ⟨signals, n, h⟩ := h
  exact ⟨signals, n, h.aside haside⟩

private theorem Accounted.aside {s' : Session} (h : s.Accounted a signals n) (haside : Aside s s') :
    s'.Accounted a signals n := by
  obtain ⟨new, h, hnew⟩ := h
  exact ⟨new, h.aside haside, hnew⟩

/-- Whatever the user does, each push that it sets off finds and leaves the guards that are held. -/
private theorem agrees_guarded : (stageVia (watched (guarded a.guards))).Agrees stage.respond
    (fun _ _ => True) (Calm a) where
  overhear signal := Action.Keeps.modify fun _ h => by
    obtain ⟨signals, n, h⟩ := h
    exact ⟨_, n, h.told (h.poised.overheard signal).2⟩
  respond act := fun s h => by
    obtain ⟨signals, n, h⟩ := h
    obtain ⟨hrun, hresponded⟩ := confined_respond act s h
    exact ⟨hrun, signals, n + 1, hresponded⟩
  outline := fun _ o h _ => by
    obtain ⟨signals, n, h⟩ := h
    exact ⟨signals, n, h.told (h.poised.withOutline o)⟩

/-- Whether a move is a gesture of the user. -/
def Move.isGesture : Move → Bool
  | .deed (.click _) | .deed (.expand _) | .deed (.collapse _) | .toggle _ => true
  | _ => false

/-- **A move that is no gesture has nothing handled**, and none of its pushes finds or leaves other
guards than are held. -/
theorem confined_make {m : Move} (hm : m.isGesture = false) :
    Confined Lens.whole (Attentive a signals n) (Attentive (a.after m) signals n)
      (makeVia (watched (guarded a.guards)) m) (make m) := by
  rw [← makeVia_following]
  have haside : ∀ s s', Aside s s' → Attentive a signals n s → Attentive a signals n s' :=
    fun _ _ haside h => h.aside haside
  -- what is done to the screen without a push, which may leave another attention
  have hchange : ∀ {a' : Attention} {f : Screen → Screen},
      (∀ screen, screen.Poised a signals → (f screen).Poised a' signals) →
      Confined Lens.whole (Attentive a signals n) (Attentive a' signals n)
        (quietly (stage.change f)) (quietly (stage.change f)) := fun hf =>
    .of_leaves fun s h => leaves_quietly (h.told (hf _ h.poised))
  cases m with
  | hear notice => exact agree_quietly (agree_hear_guarded notice)
  | resync => exact agree_quietly agree_resync_guarded
  | toggle row => cases hm
  | deed d =>
    cases d with
    | commit kind description =>
      exact agree_quietly (agree_commit haside agree_hear_guarded kind description)
    | undo => exact agree_quietly endures_attentive.toStepsAlike.agree_undo
    | redo => exact agree_quietly endures_attentive.toStepsAlike.agree_redo
    | clearUndo => exact agree_quietly (agree_clearUndo haside agree_hear_guarded)
    | clearRedo => exact agree_quietly (agree_clearRedo haside agree_hear_guarded)
    | pause => exact hchange fun _ h => h.onLink fun _ => ⟨rfl, rfl, rfl, rfl⟩
    | resume => exact hchange fun _ h => h.onLink fun _ => ⟨rfl, rfl, rfl, rfl⟩
    | block blocked => exact hchange fun _ h => h.of_attends (h.attends.block blocked) rfl
    | hold => exact hchange fun _ h => h.of_attends h.attends.hold rfl
    | release => exact hchange fun _ h => h.of_attends h.attends.release rfl
    | disconnect =>
      exact .of_leaves fun s h => leaves_quietly
        (h.poised.disconnect.mono fun _ _ hpoised => h.told hpoised)
    | plant op breakage => exact hchange fun _ h => h.plant op breakage
    | click row => cases hm
    | expand row => cases hm
    | collapse row => cases hm

/-- A gesture does not change the attention, and goes through the view. -/
private theorem Move.eq_of_isGesture {m : Move} (hm : m.isGesture = true) :
    (∀ a : Attention, a.after m = a) ∧
      ((∃ row, ∀ f, makeVia f m = plainly (attempt ((stageVia f).wiring.click row))) ∨
        ∃ gesture, ∀ f, makeVia f m = plainly (attempt ((stageVia f).wiring.use gesture))) := by
  cases m with
  | hear notice => cases hm
  | resync => cases hm
  | toggle row => exact ⟨fun _ => rfl, .inr ⟨fun o => o.toggleRow row, fun _ => rfl⟩⟩
  | deed d =>
    cases d with
    | click row => exact ⟨fun _ => rfl, .inl ⟨row, fun _ => rfl⟩⟩
    | expand row => exact ⟨fun _ => rfl, .inr ⟨fun o => o.expandRow row, fun _ => rfl⟩⟩
    | collapse row => exact ⟨fun _ => rfl, .inr ⟨fun o => o.collapseRow row, fun _ => rfl⟩⟩
    | _ => cases hm

/-- **No push in a move finds or leaves other guards than are held.** -/
theorem run_makeVia_guarded (h : s.Attentive a signals n) (m : Move) :
    (makeVia (watched (guarded a.guards)) m).run s = (make m).run s := by
  rcases hm : m.isGesture with _ | _
  · exact (confined_make hm).run_eq h
  · -- signals are counted on the way, so what every push relies on is to be calm
    have haside : ∀ s s', Aside s s' → Calm a s → Calm a s' := fun _ _ haside h => h.aside haside
    have hcalm : s.Calm a := ⟨signals, n, h⟩
    rw [← makeVia_following]
    obtain ⟨-, ⟨row, hmake⟩ | ⟨gesture, hmake⟩⟩ := Move.eq_of_isGesture hm <;>
      rw [hmake, hmake, stageVia_following]
    · exact (agree_plainly (agree_attempt haside
        (agrees_guarded.agree_click row fun _ _ _ => trivial))).run_eq hcalm
    · exact (agree_plainly (agree_attempt haside
        (agrees_guarded.agree_use fun _ _ _ _ => trivial))).run_eq hcalm

/-- A gesture is accounted for. -/
private theorem keeps_accounted {m : Move} (hm : m.isGesture = true) :
    Action.Keeps (Accounted a signals n) (make m) := by
  have haside : ∀ s s', Aside s s' → Accounted a signals n s → Accounted a signals n s' :=
    fun _ _ haside h => h.aside haside
  rw [← makeVia_following]
  obtain ⟨-, ⟨row, hmake⟩ | ⟨gesture, hmake⟩⟩ := Move.eq_of_isGesture hm <;>
    rw [hmake, stageVia_following]
  · exact (agree_plainly (agree_attempt haside (.of_keeps (heeds_attentive.keeps_click row)))).keeps
  · exact (agree_plainly (agree_attempt haside
      (.of_keeps (heeds_attentive.keeps_use gesture)))).keeps

/-- **What a move adds** is fired by a gesture, and handled as the attention wants it. -/
theorem attentive_make (h : s.Attentive a signals n) (m : Move) :
    a.Adds m.isGesture fun new acts =>
      ((make m).run s).state.Attentive (a.after m) (signals ++ new) (n + acts.length) := by
  rcases hm : m.isGesture with _ | _
  · have hafter : ((make m).run s).state.Attentive (a.after m) signals n := (confined_make hm s h).2
    exact .none (by simpa using hafter)
  · rw [(Move.eq_of_isGesture hm).1 a]
    exact keeps_accounted hm s h.accounted

/-! ### Whole runs -/

/-- What is true of a session with that attention between any two moves. -/
structure Exact (a : Attention) (s : Session) : Prop where
  /-- Some signals were fired unprompted, and some acts were handled; what a move adds to them is
  fired by a gesture and handled as the attention wants it. -/
  adds : ∃ signals n, s.Attentive a signals n ∧ ∀ m, a.Adds m.isGesture fun new acts =>
    ((make m).run s).state.Attentive (a.after m) (signals ++ new) (n + acts.length)
  /-- A gesture is attended to, signal by signal. -/
  attends : ∀ r, (stage.wiring.enact r).run s = (stage.attendAll a r).run s
  /-- In the middle of a move, each push finds and leaves the guards that are held, and nothing is
  handled meanwhile. -/
  guarded : ∀ m, (makeVia (watched (guarded a.guards)) m).run s = (make m).run s

theorem Attentive.exact (h : s.Attentive a signals n) : s.Exact a where
  adds := ⟨signals, n, h, attentive_make h⟩
  attends r := ((heeds_attentive.agree_attendAll r).run_eq h.accounted).symm
  guarded := run_makeVia_guarded h

theorem calm_wired (settings : Settings) (o : Outline) : (wired settings o).Calm (.full {}) := by
  have hassembled := Screen.Poised.assemble settings.view {} o
  have hwire : wire.Leaves (unwired settings o) fun _ s => s.Calm (.full {}) :=
    leaves_wire.mpr ((hassembled.follow _ _).mono fun _ _ hpoised =>
      ⟨[], 0, rfl, hpoised, rfl, rfl⟩)
  exact hwire

private theorem calm_afterMoves (h : s.Calm a) (moves : List Move) :
    (s.afterMoves moves).Calm (moves.foldl Attention.after a) := by
  -- a move ends in a calm session again, with the attention that it leaves
  induction moves generalizing s a with
  | nil => exact h
  | cons m moves ih =>
    obtain ⟨signals, n, h⟩ := h
    obtain ⟨new, hafter, -⟩ := attentive_make h m
    exact ih ⟨_, _, hafter⟩

/-- **What the view fires is handled as an act of the user exactly if it is one.** Given any
settings and any moves in any order, among them calls of the view that are made to fail or to break
down:

* In a session, as many guards are alive as were taken and not let go of, no view call is going on,
  and nothing was ever handled in the middle of one. What becomes of a gesture of the user is said
  by `Stage.attendAll`, signal by signal. A further move adds to the signals that were fired
  unprompted and to the acts that were handled: nothing, unless it is a gesture and signals reach
  the link, and then as many acts as the new signals tell of, if nobody holds a guard. In the middle
  of a move, each push finds and leaves the guards that are held, and nothing is handled meanwhile.
  So it is with the first push, too.
* The same goes for a screen on a bench, for any kinds of signals that it listens for and any
  updates that it is told of. It knows which acts were handled.

Whatever a screen is part of and whoever responds to its user, nobody attends to the user while an
update is followed, and the guards are what they were afterwards, whether it is answered well, with
an error, or not at all; between its commands there is one guard more. -/
theorem handled_exactly (settings : Settings) (handlers : Handlers) (o : Outline)
    (moves : List Move) (benchMoves : List ScreenBench.Move) :
    ((wired settings o).afterMoves moves).Exact (moves.foldl Attention.after (.full {})) ∧
      (wireVia (watched (guarded 0))).run (unwired settings o) = wire.run (unwired settings o) ∧
      ((ScreenBench.empty settings handlers o).afterMoves benchMoves).Exact
        (benchMoves.foldl Attention.onBench (.full handlers)) ∧
      (∀ (σ : Type) (st : Stage σ), st.screen.Lawful → ∀ t u w,
        (st.follow t u).Leaves w fun _ w' => st.Unattended w w') ∧
      ∀ commands screen, (Stage.alone.performAll commands).Leaves (Screen.onLink Link.raise screen)
        fun _ screen' => screen'.link.depth = screen.link.depth + 1 ∧
          screen'.link.held = screen.link.held := by
  obtain ⟨signals, n, h⟩ := calm_afterMoves (calm_wired settings o) moves
  refine ⟨h.exact, ?_, ScreenBench.exact_afterMoves settings handlers o benchMoves,
    fun _ _ hl => Stage.unattended_follow hl, fun commands screen => ?_⟩
  · have hassembled := Screen.Poised.assemble settings.view {} o
    exact run_wire_watched (Surroundings.passes_guarded (a := .full {}) hassembled.attends _ _)
  · have hraised : (Screen.onLink Link.raise screen).Suppressed :=
      decide_eq_true (Nat.succ_pos screen.link.depth)
    refine (Screen.kept_performAll hraised commands).mono fun _ screen' hkept => ?_
    rw [hkept.link]
    exact ⟨rfl, rfl⟩

/-- A click is handled and undoes the commit; under a guard another one changes the selection, and
that is all. -/
example :
    let s := (wired {} (.empty {} .unicode 0)).afterMoves
      [.deed (.commit "Edit" "one"), .deed (.click 0), .deed .hold, .deed (.click 1)]
    s.desk.around.screen.account = some (0, [.selectionChanged (some .start),
      .selectionChanged (some (.on (.ofHead 0)))]) ∧
      s.desk.around.handlerRuns = 1 ∧ s.desk.journal.cursor = .start := by
  decide +kernel

end Session

end UndoJournal
