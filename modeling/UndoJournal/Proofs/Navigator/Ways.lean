import UndoJournal.Navigator
import UndoJournal.Proofs.Action.Outcome
import UndoJournal.Proofs.Journal.Stack

/-!
# The way to a position

The way from one position to another is a number of steps in one direction, which the signed
distance between them says (`Direction.toward`). So **a selection is one march**, and its answer is
that of the march, unless the cursor is elsewhere afterwards (`Controls.gives_select`).
-/

namespace UndoJournal

namespace Direction

/-- The direction of a walk over a signed distance. -/
def toward (δ : Int) : Direction := if δ < 0 then .undo else .redo

theorem toward_eq_undo_iff {δ : Int} : toward δ = .undo ↔ δ < 0 := by
  unfold toward
  split <;> simp [*]

theorem toward_eq_redo_iff {δ : Int} : toward δ = .redo ↔ 0 ≤ δ := by
  unfold toward
  split <;> simp_all

/-- How many events are applied after `k` steps from `m` of them. -/
def reach (d : Direction) (m k : Nat) : Nat :=
  match d with
  | .undo => m - k
  | .redo => m + k

/-- The steps over a distance lead to its other end. -/
theorem reach_toward (m n : Nat) :
    (toward ((n : Int) - m)).reach m ((n : Int) - m).natAbs = n := by
  unfold toward
  split <;> simp only [reach] <;> omega

end Direction

namespace Controls

variable {σ : Type} {c : Controls σ} {s : σ}

/-- Going a way is a march in its direction. -/
private theorem go_eq_march (c : Controls σ) (δ : Int) :
    c.go (if δ = 0 then .stay else if δ < 0 then .undo δ.natAbs else .redo δ.natAbs) =
      c.march (.toward δ) δ.natAbs 0 δ.natAbs := by
  by_cases hzero : δ = 0
  · subst hzero
    rfl
  · rw [if_neg hzero, Direction.toward]
    split <;> rfl

/-- A position that the timeline does not have is not walked to. -/
theorem gives_select_of_unknown {target : Position}
    {post : Except HistoryError Walk → σ → Prop}
    (hout : (c.journal.get s).timeline.contains target = false)
    (h : post (.error (.unknownTarget target)) s) : (c.select target).Gives s post := by
  simp only [Controls.select, Controls.look, Action.gives_bind, Action.gives_get,
    Action.gives_pure]
  rw [hout]
  exact (Action.gives_pure _).mpr h

/-- **A selection is a march over the distance.** -/
theorem gives_select {target : Position} {m n : Nat}
    (hm : (c.journal.get s).timeline.ordinal (c.journal.get s).cursor = .ok m)
    (hn : (c.journal.get s).timeline.ordinal target = .ok n) {walk : Walk}
    (hwalk : (c.journal.get s).stepsTo target = .ok walk)
    {post : Except HistoryError Walk → σ → Prop}
    (h : (c.march (.toward ((n : Int) - m)) ((n : Int) - m).natAbs 0 ((n : Int) - m).natAbs).Gives s
      fun answer s' => post (answer.bind fun _ =>
        if (c.journal.get s').cursor = target then .ok walk
        else .error (.walkDiverged target (c.journal.get s').cursor)) s') :
    (c.select target).Gives s post := by
  have hin : (c.journal.get s).timeline.contains target = true :=
    Timeline.contains_iff_exists_ordinal.mpr ⟨n, hn⟩
  have hway := Journal.stepsTo_eq hm hn
  simp only [Controls.select, Controls.look, Action.gives_bind, Action.gives_get,
    Action.gives_pure]
  rw [hin]
  simp only [Bool.not_true, Bool.false_eq_true, if_false, Action.gives_bind,
    Action.gives_ofExcept, Action.gives_note]
  refine ⟨walk, hwalk, ?_⟩
  obtain rfl := Except.ok.inj (hway.symm.trans hwalk)
  rw [go_eq_march]
  refine h.mono ?_
  rintro (e | ⟨⟩) s' hpost
  · exact (Action.gives_pure _).mpr hpost
  · simp only [Action.gives_bind, Action.gives_get, Action.gives_pure]
    rw [← apply_ite pure]
    exact (Action.gives_pure _).mpr hpost

end Controls

end UndoJournal
