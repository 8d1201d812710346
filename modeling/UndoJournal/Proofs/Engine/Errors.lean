import UndoJournal.Proofs.Desk.Requests
import UndoJournal.Proofs.Navigator.Steady
import UndoJournal.Engine.Scripted

/-!
# Which error is taken

A navigator keeps the error of an act that failed until it is taken. What comes of a signal is a
`Verdict`: it is dropped, or the act runs and succeeds, fails, or is cut short by a fault. Only a
failure is written down (`Navigator.leaves_handle`), and **nothing but taking the error clears it**.

So the error that is taken is that of the most recent act that **failed** since an error was taken
last (`Verdict.lastFailure`), which is not always that of the most recent act that **ran**
(`Verdict.lastError`): an act that runs through behind one that failed leaves the error of the other
in place. `EngineDesk.error_taken` says so for any occurrences around a navigator, and that there is
no other case in which the two differ.
-/

namespace UndoJournal

open UndoJournal.Action (Keeps)

/-- How the act ends that a signal asks for, if it is begun at all. -/
inductive Verdict where
  /-- Nothing is done, since the navigator cannot act. -/
  | dropped
  /-- The act succeeds. -/
  | succeeded
  /-- The act fails. -/
  | failed (e : HistoryError)
  /-- The act is cut short by a fault. -/
  | broken (fault : Fault)
deriving DecidableEq

namespace Verdict

/-- The verdict about an act that ran. -/
def ofResult : Except Fault (Except HistoryError Unit) → Verdict
  | .ok (.ok ()) => succeeded
  | .ok (.error e) => failed e
  | .error fault => broken fault

/-- Whether the act ran. -/
def ran (v : Verdict) : Bool := v != dropped

/-- The error of an act that failed. -/
def error? : Verdict → Option HistoryError
  | failed e => some e
  | _ => none

/-- The error of the most recent act that ran, if that failed; the newest verdict stands first. -/
def lastError (vs : List Verdict) : Option HistoryError := (vs.find? ran).bind error?

/-- The error of the most recent act that failed; the newest verdict stands first. -/
def lastFailure (vs : List Verdict) : Option HistoryError := vs.findSome? error?

/-- The most recent act that ran did not fail, and one before it did. -/
def Masked (vs : List Verdict) : Prop := lastError vs = none ∧ ∃ e, failed e ∈ vs

private theorem lastFailure_eq_none_iff {vs : List Verdict} :
    lastFailure vs = none ↔ ∀ e, failed e ∉ vs := by
  rw [lastFailure, List.findSome?_eq_none_iff]
  refine ⟨fun h e he => Option.some_ne_none e (h _ he), fun h v hv => ?_⟩
  cases v with
  | failed e => exact absurd hv (h e)
  | dropped | succeeded | broken fault => rfl

/-- **The two errors are the same unless one is masked.** -/
theorem lastFailure_eq_lastError_iff (vs : List Verdict) :
    lastFailure vs = lastError vs ↔ ¬ Masked vs := by
  induction vs with
  | nil => exact iff_of_true rfl fun ⟨_, _, h⟩ => nomatch h
  | cons v vs ih =>
    cases v with
    | dropped =>
      -- a signal that is dropped is passed over by both
      have hmasked : Masked (dropped :: vs) ↔ Masked vs := by simp [Masked, lastError, ran]
      rw [hmasked, ← ih]
      rfl
    | failed e => exact iff_of_true rfl fun ⟨h, _⟩ => nomatch h
    | succeeded | broken fault =>
      rw [show lastError (_ :: vs) = none from rfl, lastFailure_eq_none_iff, Masked, not_and,
        not_exists]
      exact ⟨fun h _ => h, fun h => h rfl⟩

end Verdict

/-! ### One signal -/

namespace Navigator

variable {σ : Type} {l : Lens σ Navigator} {c : Controls σ}

/-- The verdict on an act of the user: dropped by a navigator that is gone or busy, and otherwise as
the act ends. -/
def verdict (l : Lens σ Navigator) (c : Controls σ) (act : UserAct) (s : σ) : Verdict :=
  match (l.get s).presence with
  | .gone | .busy => .dropped
  | .idle => .ofResult ((c.act act).run (l.modify (fun n => { n with presence := .busy }) s)).result

/-- A failure is kept in mind, and anything else is not. -/
def minding (n : Navigator) (v : Verdict) : Navigator :=
  { n with lastError := v.error? <|> n.lastError }

/-- The document, the journal and its follower have nothing to do with the navigator. -/
structure Apart (l : Lens σ Navigator) (c : Controls σ) : Prop where
  lawful : l.Lawful
  steady : ∀ n, c.Steady fun s => l.get s = n
  journal : ∀ j s, l.get (c.journal.set j s) = l.get s

/-- **A signal changes the navigator by its verdict alone.** -/
theorem leaves_handle (h : Apart l c) (act : UserAct) (s : σ) :
    (handle l c act).Leaves s fun _ s' => l.get s' = (l.get s).minding (verdict l c act s) := by
  rw [handle, Action.leaves_bind, Action.leaves_get, verdict]
  dsimp only
  rcases hpresence : (l.get s).presence
  case gone | busy => exact (Action.leaves_report _).mpr rfl
  case idle =>
    let busy := l.modify (fun n => { n with presence := .busy }) s
    have hbusy : l.get busy = ⟨.busy, (l.get s).lastError⟩ := h.lawful.get_set _ _
    have hkept : (c.act act).Leaves busy fun _ s' => l.get s' = l.get busy :=
      (h.steady _).keeps_act (fun j s' hs' => (h.journal j s').trans hs') act busy rfl
    rw [acting, Action.leaves_bracket, Action.leaves_bind]
    rcases hrun : (c.act act).run busy with ⟨fault | e | ⟨⟩, s', notes⟩
    all_goals
      rw [Action.Leaves, hrun] at hkept ⊢
      dsimp only at hkept ⊢
    -- behind the act, the navigator is idle again
    · rw [Lens.modify, h.lawful.get_set, hkept, hbusy, ← hpresence]
      rfl
    · rw [Action.leaves_bind, Action.leaves_note, Action.leaves_modify, Lens.modify, Lens.modify,
        h.lawful.get_set, h.lawful.get_set, hkept, hbusy, ← hpresence]
      rfl
    · rw [Action.leaves_pure, Lens.modify, h.lawful.get_set, hkept, hbusy, ← hpresence]
      rfl

end Navigator

/-! ### Any occurrences around a navigator -/

/-- An act of the user that reaches a navigator, an error that is taken from it, or any change of
what is around it. -/
inductive Occurrence (φ ω ε : Type) where
  /-- The user does something in the view. -/
  | signal (act : UserAct)
  /-- The same in the middle of another act. -/
  | signalWhileBusy (act : UserAct)
  /-- The last error is taken. -/
  | errorTaken
  /-- Anything at all happens to the journal, its follower and the engine. -/
  | other (change : Desk φ ω × ε → Desk φ ω × ε)

namespace EngineDesk

variable {φ ω ε : Type} {f : Following φ ω} {e : Engine ε}

/-- A state, and the verdicts since an error was taken last, the newest first. -/
structure Account (φ ω ε : Type) where
  state : EngineDesk φ ω ε
  verdicts : List Verdict

/-- Something happens, and its verdict is written down; a fault is survived. -/
def Account.next (f : Following φ ω) (e : Engine ε) (a : Account φ ω ε) :
    Occurrence φ ω ε → Account φ ω ε
  | .signal act =>
    ⟨((handle f e act).run a.state).state,
      Navigator.verdict navigatorLens (controls f e) act a.state :: a.verdicts⟩
  | .signalWhileBusy act =>
    let busy := navigatorLens.modify (fun n => { n with presence := .busy }) a.state
    ⟨((handleWhileBusy f e act).run a.state).state,
      Navigator.verdict navigatorLens (controls f e) act busy :: a.verdicts⟩
  | .errorTaken => ⟨((Navigator.takeError navigatorLens).run a.state).state, []⟩
  | .other change =>
    let (desk, engine) := change (a.state.desk, a.state.engine)
    ⟨{ a.state with desk := desk, engine := engine }, a.verdicts⟩

private theorem apart : Navigator.Apart navigatorLens (controls f e) where
  lawful := ⟨fun _ _ => rfl, fun _ => rfl, fun _ _ _ => rfl⟩
  steady n := by
    have hstep : ∀ d, Keeps (fun r : EngineDesk φ ω ε => navigatorLens.get r = n) (step f e d) :=
      fun d => Keeps.get_bind fun r hr => by
        rcases hreply : e.step d r.engine with ⟨_ | _ | event, engine⟩
        · exact hr
        · exact hr
        · exact (Keeps.zoom (p := fun r => navigatorLens.get r = n) fun _ _ h => h).bind
            (fun _ => .pure true) { r with engine := engine } hr
    exact ⟨hstep .undo, hstep .redo, Keeps.zoom fun _ _ h => h⟩
  journal _ _ := rfl

/-- The navigator is idle and has in mind what failed last. -/
def Account.Kept (a : Account φ ω ε) : Prop :=
  a.state.navigator = ⟨.idle, Verdict.lastFailure a.verdicts⟩

/-- Whatever happens next, what failed last is kept in mind. -/
private theorem Account.Kept.next {a : Account φ ω ε} (h : a.Kept) (occurrence : Occurrence φ ω ε) :
    (a.next f e occurrence).Kept := by
  have hminding : ∀ v, a.state.navigator.minding v =
      ⟨.idle, Verdict.lastFailure (v :: a.verdicts)⟩ := fun v => by
    rw [h]
    cases v <;> rfl
  cases occurrence with
  | signal act => exact (Navigator.leaves_handle apart act a.state).trans (hminding _)
  | signalWhileBusy act =>
    -- the navigator is idle, so it is busy with the asking, and idle again behind it
    obtain ⟨⟨desk, engine, navigator⟩, vs⟩ := a
    obtain rfl : navigator = ⟨.idle, Verdict.lastFailure vs⟩ := h
    rfl
  | errorTaken => exact congrArg (fun n : Navigator => { n with lastError := none }) h
  | other change => exact h

/-- **The error that is taken is that of the most recent failure**, after any occurrences around a
navigator that was fresh at first. It is the error of the most recent act that ran exactly if that
act failed or none before it did, and taking it changes nothing else. -/
theorem error_taken (f : Following φ ω) (e : Engine ε) (desk : Desk φ ω) (engine : ε)
    (occurrences : List (Occurrence φ ω ε)) :
    let a := occurrences.foldl (Account.next f e) ⟨⟨desk, engine, .fresh⟩, []⟩
    (Navigator.takeError navigatorLens).Gives a.state fun error r' =>
      error = Verdict.lastFailure a.verdicts ∧
        (error = Verdict.lastError a.verdicts ↔ ¬ Verdict.Masked a.verdicts) ∧
        r' = { a.state with navigator := .fresh } := by
  intro a
  have hkept : a.Kept := by
    -- on the occurrences, as each of them keeps up what the account says of the error
    have hrun : ∀ (hs : List (Occurrence φ ω ε)) (b : Account φ ω ε), b.Kept →
        (hs.foldl (Account.next f e) b).Kept := by
      intro hs
      induction hs with
      | nil => exact fun _ hb => hb
      | cons occurrence hs ih => exact fun b hb => ih _ (hb.next occurrence)
    exact hrun occurrences _ rfl
  simp only [Navigator.takeError, Action.gives_bind, Action.gives_get, Action.gives_modify,
    Action.gives_pure]
  have herror : (navigatorLens.get a.state).lastError = Verdict.lastFailure a.verdicts :=
    congrArg Navigator.lastError hkept
  refine ⟨herror, ?_, ?_⟩
  · rw [herror]
    exact Verdict.lastFailure_eq_lastError_iff a.verdicts
  · exact congrArg (fun n : Navigator => { a.state with navigator := { n with lastError := none } })
      hkept

/-- A row that is not there is selected, which fails, and then the row under the cursor, which
succeeds; the error of the first is taken all the same. -/
theorem error_outlives_success :
    let event : Event := ⟨⟨0⟩, "a", "A"⟩
    let desk := ((Desk.ask Recorder.following (.hear (.committed event))).run
      (Desk.empty {} [])).state
    let engine : ScriptedEngine := ⟨[event], 1, 0, none, false, 1⟩
    let occurrences := [Occurrence.signal (.select (.on (.ofHead 5))),
      .signal (.select (.on (.ofHead 0)))]
    let a := occurrences.foldl (Account.next Recorder.following ScriptedEngine.engine)
      ⟨⟨desk, engine, .fresh⟩, []⟩
    a.verdicts = [.succeeded, .failed (.unknownTarget (.on (.ofHead 5)))] ∧
      Verdict.lastError a.verdicts = none ∧
      (Navigator.takeError navigatorLens).Gives a.state fun error _ =>
        error = some (.unknownTarget (.on (.ofHead 5))) := by
  refine ⟨by decide +kernel, by decide +kernel, _, rfl, by decide +kernel⟩

end EngineDesk

end UndoJournal
