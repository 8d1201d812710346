import UndoJournal.Proofs.Engine.Collapsing
import UndoJournal.Proofs.Navigator.Steady

/-!
# Who unmutes a journal

A caller that drives steps of its own mutes the journal and unmutes it afterwards. Meanwhile the
navigator may be asked for something. Selections and expansions leave the muting alone, whatever the
engine does and wherever the follower fails. **A collapse that steps through a run does not**: it
mutes the journal for its own steps and unmutes it behind them, also where the journal was muted
before (`Controls.leaves_muted_collapse`). So the muting of a caller is lost exactly if the cursor
is on the head of the run and there are entries behind it (`EngineDesk.muted_of_acts`).
-/

namespace UndoJournal

open UndoJournal.Action (Keeps)

/-- No notice changes whether notices are ignored. -/
private theorem Journal.muted_of_hear {j : Journal} {notice : Notice} {r : Reaction}
    (h : j.hear notice = .ok r) : r.journal.muted = j.muted := by
  cases notice with
  | committed e =>
    obtain ⟨dropping, kept, rfl, -⟩ := hearCommitted_cases h
    rfl
  | undone e => obtain ⟨level, message, fields, rfl⟩ | ⟨p, rfl⟩ := hearUndone_cases h <;> rfl
  | redone e => obtain ⟨level, message, fields, rfl⟩ | ⟨p, rfl⟩ := hearRedone_cases h <;> rfl
  | undoCleared =>
    rcases hcut : j.timeline.truncateThrough j.cursor with fault | ⟨dropped, t⟩ <;>
      simp only [hear, hearUndoCleared, hcut, bind, Except.bind] at h <;> cases h
    rfl
  | redoCleared =>
    rcases hcut : j.timeline.truncateAfter j.cursor with fault | ⟨dropped, t⟩ <;>
      simp only [hear, hearRedoCleared, hcut, bind, Except.bind] at h <;> cases h
    rfl

/-! ### Acts of a navigator -/

namespace Controls

variable {σ : Type} {c : Controls σ} {s : σ}

/-- Placing the cursor is no matter of the muting. -/
private theorem keeps_placing (hl : c.journal.Lawful) (muted : Bool) (q : Position) :
    Keeps (fun s => (c.journal.get s).muted = muted)
      (Action.zoom c.journal (Journal.placing q)) := fun s hs => by
  simp only [Action.leaves_zoom, Journal.placing, Action.leaves_bind, Action.leaves_get,
    Action.leaves_ofExcept, Action.leaves_modify, Action.leaves_report]
  rcases hr : (c.journal.get s).place q with fault | r <;> dsimp only <;> rw [hl.get_set]
  · exact hs
  · rw [(Journal.place_eq_ok hr).1]
    exact hs

/-- **Stepping through a run unmutes the journal**, wherever the steps end. -/
theorem leaves_muted_stepThrough (hl : c.journal.Lawful) (group children : Nat) :
    (c.stepThrough group children).Leaves s fun _ s' => (c.journal.get s').muted = false := by
  refine leaves_stepThrough_of ?_ (keeps_placing hl false)
  -- unmuted behind the bracket, whatever happened inside
  rw [Action.leaves_bracket]
  exact congrArg Journal.muted (hl.get_set _ _)

/-- **A collapse leaves a journal muted only if there is nothing behind the cursor to step
through.** -/
theorem leaves_muted_collapse (hl : c.journal.Lawful) (group : Nat) :
    (c.collapse group).Leaves s fun _ s' => (c.journal.get s').muted =
      ((c.journal.get s).muted && decide ((c.journal.get s).behindCursor group = 0)) := by
  have hidle : (c.journal.get s).behindCursor group = 0 → (c.journal.get s).muted =
      ((c.journal.get s).muted && decide ((c.journal.get s).behindCursor group = 0)) := fun h => by
    simp [h]
  simp only [Controls.collapse, Controls.look, Action.leaves_bind, Action.leaves_get,
    Action.leaves_pure]
  by_cases hhead : (c.journal.get s).cursor = .on (.ofHead group)
  case neg =>
    rw [if_pos hhead]
    exact hidle (if_neg hhead)
  rw [if_neg (not_not_intro hhead)]
  have hbehind : (c.journal.get s).behindCursor group =
      (((c.journal.get s).timeline.runs[group]?).map fun r => r.rest.length).getD 0 := if_pos hhead
  rcases hrun : (c.journal.get s).timeline.runs[group]? with _ | run <;> rw [hrun] at hbehind
  · exact hidle hbehind
  simp only [List.isEmpty_iff]
  by_cases hrest : run.rest = []
  · rw [if_pos hrest]
    exact hidle (hbehind.trans (congrArg List.length hrest))
  · rw [if_neg hrest, Action.leaves_bind, Action.leaves_note]
    refine (leaves_muted_stepThrough hl group run.rest.length).mono fun _ s' hs' => hs'.trans ?_
    have hpos : (c.journal.get s).behindCursor group ≠ 0 := fun h =>
      hrest (List.length_eq_zero_iff.mp (hbehind.symm.trans h))
    rw [decide_eq_false hpos, Bool.and_false]

end Controls

namespace EngineDesk

variable {φ ω ε : Type}

/-- No engine changes the muting of the journal, whatever it tells of its steps, nor does telling
the whole state again. -/
private theorem steady_muted (f : Following φ ω) (e : Engine ε) (muted : Bool) :
    (controls f e).Steady fun r => r.desk.journal.muted = muted := by
  have hhear : ∀ notice, Keeps (fun r : EngineDesk φ ω ε => r.desk.journal.muted = muted)
      (Action.zoom deskLens (Desk.hear f notice)) := fun notice r hr =>
    Desk.keeps_hear_of (p := fun j => j.muted = muted)
      (fun j _ hj h => (Journal.muted_of_hear h).trans hj) r.desk hr
  have hstep : ∀ d, Keeps (fun r : EngineDesk φ ω ε => r.desk.journal.muted = muted)
      (step f e d) := fun d => Keeps.get_bind fun r hr => by
    rcases hreply : e.step d r.engine with ⟨_ | _ | event, engine⟩
    · exact hr
    · exact hr
    · exact (hhear (d.notice event)).bind (fun _ => .pure true) { r with engine := engine } hr
  exact ⟨hstep .undo, hstep .redo, fun r hr =>
    (Keeps.get_bind fun d hd => Desk.keeps_tell (fun j => j.muted = muted) _ d hd) r.desk hr⟩

/-- **The navigator loses the muting of a caller in one case only.** From any state of the journal,
the engine and the navigator, whatever the engine replies and tells, and whether the act succeeds,
fails or is cut short: selections and expansions leave the muting as it was, and so does a collapse
unless the journal was muted and its cursor was on a head with entries behind it. -/
theorem muted_of_acts (f : Following φ ω) (e : Engine ε) (r : EngineDesk φ ω ε) :
    (∀ target, ((controls f e).select target).Leaves r fun _ r' =>
      r'.desk.journal.muted = r.desk.journal.muted) ∧
    (∀ group, ((controls f e).expand group).Leaves r fun _ r' =>
      r'.desk.journal.muted = r.desk.journal.muted) ∧
    ∀ group, ((controls f e).collapse group).Leaves r fun _ r' =>
      r'.desk.journal.muted =
          (r.desk.journal.muted && decide (r.desk.journal.behindCursor group = 0)) ∧
        (r'.desk.journal.muted = r.desk.journal.muted ↔
          ¬ (r.desk.journal.muted = true ∧ 0 < r.desk.journal.behindCursor group)) := by
  have hsteady := steady_muted f e r.desk.journal.muted
  refine ⟨fun target => hsteady.keeps_select target r rfl,
    fun group => hsteady.keeps_expand group r rfl, fun group => ?_⟩
  have hl : (controls f e).journal.Lawful :=
    ⟨fun _ _ => rfl, fun _ => rfl, fun _ _ _ => rfl⟩
  refine (Controls.leaves_muted_collapse hl group).mono fun _ r' hr' => ?_
  change r'.desk.journal.muted =
    (r.desk.journal.muted && decide (r.desk.journal.behindCursor group = 0)) at hr'
  refine ⟨hr', ?_⟩
  rw [hr']
  cases r.desk.journal.muted <;> simp [Nat.pos_iff_ne_zero]

/-- A caller has muted a journal of two commits of one kind, with the cursor on the first; the run
is collapsed, which succeeds, and the journal is not muted any more. -/
theorem collapse_loses_muting :
    let e (n : Nat) : Event := ⟨⟨n⟩, "Edit", "typing"⟩
    let desk := ((Action.each (Desk.ask Recorder.following)
      [.hear (.committed (e 0)), .hear (.committed (e 1)), .hear (.undone (e 1)),
        .mute true]).run (Desk.empty {} [])).state
    let engine : ScriptedEngine := ⟨[e 0, e 1], 1, 0, none, false, 2⟩
    desk.journal.muted = true ∧
      ((controls Recorder.following ScriptedEngine.engine).collapse 0).Gives
        ⟨desk, engine, .fresh⟩ fun answer r' =>
          answer = .ok true ∧ r'.desk.journal.muted = false := by
  exact ⟨by decide +kernel, .ok true, rfl, rfl, by decide +kernel⟩

end EngineDesk

end UndoJournal
