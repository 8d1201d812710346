import UndoJournal.Navigator
import UndoJournal.Proofs.Action.Confined

/-!
# What all acts of a navigator keep

A navigator does to a state what its `Controls` let it do: steps of the document, telling the whole
state again, and moving the cursor of the journal. So **what those keep, every act keeps**
(`Controls.Steady`), also where a fault cuts it short: a march by induction on the steps that
remain, a selection because it is a march, and an expansion because it is a resync.

Collapsing a run is another matter, since it writes to the journal by itself: it keeps what does not
depend on the journal (`Controls.Steady.keeps_collapse`).
-/

namespace UndoJournal

open UndoJournal.Action (Keeps)

variable {σ τ α : Type}

namespace Action.Keeps

variable {p : σ → Prop}

theorem ofExcept (x : Except Fault α) : Keeps p (ofExcept x) := fun _ hs => hs

private theorem ite {b : Prop} [Decidable b] {x y : Action σ α} (hx : Keeps p x) (hy : Keeps p y) :
    Keeps p (if b then x else y) := by
  split
  · exact hx
  · exact hy

/-- What no replacement of a part disturbs is kept by whatever is done to the part. -/
theorem zoom {l : Lens σ τ} {x : Action τ α} (h : ∀ t s, p s → p (l.set t s)) :
    Keeps p (zoom l x) := fun s hs => h _ s hs

/-- A bracket keeps what its two ends and its inside keep. -/
theorem bracket {enter leave : σ → σ} {x : Action σ α} (henter : ∀ s, p s → p (enter s))
    (hleave : ∀ s, p s → p (leave s)) (hx : Keeps p x) : Keeps p (bracket enter leave x) :=
  fun s hs => hleave _ (hx _ (henter s hs))

end Action.Keeps

/-- What one action leaves, the next may keep. -/
private theorem Action.Leaves.bind_keeps {p : σ → Prop} {x : Action σ α} {β : Type}
    {f : α → Action σ β} {s : σ} (hx : x.Leaves s fun _ s' => p s') (hf : ∀ a, Keeps p (f a)) :
    (x >>= f).Leaves s fun _ s' => p s' := by
  rw [leaves_bind]
  refine hx.mono ?_
  rintro (fault | a) s' hs'
  · exact hs'
  · exact hf a s' hs'

namespace Controls

/-- **What comes behind the steps through a run** puts the cursor in its place and hands on how the
steps went. -/
theorem leaves_stepThrough_of {c : Controls σ} {p : σ → Prop} {group children : Nat} {s : σ}
    (hsteps : (Action.bracket (c.journal.modify fun j => j.mute true)
      (c.journal.modify fun j => j.mute false) (c.march .redo children 0 children)).Leaves s
        fun _ s' => p s')
    (hplace : ∀ q, Keeps p (Action.zoom c.journal (Journal.placing q))) :
    (c.stepThrough group children).Leaves s fun _ s' => p s' := by
  rw [Controls.stepThrough]
  refine hsteps.bind_keeps fun result => ?_
  dsimp only
  rcases Controls.stepsMade children result with _ | done
  · rcases result with e | ⟨⟩ <;> exact .pure _
  · refine (hplace _).bind fun _ => ?_
    rcases result with e | ⟨⟩ <;> exact .pure _

/-- Neither a step of the document nor telling the whole state again disturbs `p`. -/
structure Steady (c : Controls σ) (p : σ → Prop) : Prop where
  undo : Keeps p c.undo
  redo : Keeps p c.redo
  resync : Keeps p c.resync

namespace Steady

variable {c : Controls σ} {p : σ → Prop} (h : c.Steady p)

include h

private theorem keeps_step (d : Direction) : Keeps p (c.step d) := by
  cases d with
  | undo => exact h.undo
  | redo => exact h.redo

private theorem keeps_march (d : Direction) (requested done remaining : Nat) :
    Keeps p (c.march d requested done remaining) := by
  induction remaining generalizing done with
  | zero => exact .pure _
  | succ remaining ih =>
    rw [Controls.march]
    refine (h.keeps_step d).bind fun made => .ite ?_ (.pure _)
    exact (Keeps.report _).bind fun _ => ih (done + 1)

private theorem keeps_go (walk : Walk) : Keeps p (c.go walk) := by
  cases walk with
  | stay => exact .pure _
  | undo steps => exact h.keeps_march .undo steps 0 steps
  | redo steps => exact h.keeps_march .redo steps 0 steps

omit h in
private theorem keeps_look : Keeps p c.look := Keeps.get_bind fun _ hs => hs

/-- **A selection keeps what its steps keep**, wherever it ends. -/
theorem keeps_select (target : Position) : Keeps p (c.select target) := by
  rw [Controls.select]
  refine keeps_look.bind fun j => .ite (.pure _) ?_
  refine (Keeps.ofExcept _).bind fun walk => (Keeps.report _).bind fun _ => ?_
  refine (h.keeps_go walk).bind fun answer => ?_
  rcases answer with e | ⟨⟩
  · exact .pure _
  · exact keeps_look.bind fun _ => .ite (.pure _) (.pure _)

theorem keeps_expand (group : Nat) : Keeps p (c.expand group) := by
  rw [Controls.expand]
  refine keeps_look.bind fun j => .ite ?_ (.pure _)
  exact (Keeps.report _).bind fun _ => h.resync.bind fun _ => .pure _

section Collapse

variable (hjournal : ∀ j s, p s → p (c.journal.set j s))

include hjournal

private theorem keeps_stepThrough (group children : Nat) : Keeps p (c.stepThrough group children) :=
  fun s hs => leaves_stepThrough_of
    (Keeps.bracket (fun s => hjournal _ s) (fun s => hjournal _ s)
      (h.keeps_march .redo children 0 children) s hs)
    fun _ => Keeps.zoom hjournal

/-- A collapse keeps what does not depend on the journal either. -/
theorem keeps_collapse (group : Nat) : Keeps p (c.collapse group) := by
  rw [Controls.collapse]
  refine keeps_look.bind fun j => .ite (.pure _) ?_
  rcases j.timeline.runs[group]? with _ | run
  · exact .pure _
  · refine .ite (.pure _) ?_
    exact (Keeps.report _).bind fun _ => h.keeps_stepThrough hjournal group run.rest.length

/-- **Every act keeps what neither a step nor a change of the journal disturbs.** -/
theorem keeps_act (act : UserAct) : Keeps p (c.act act) := by
  cases act with
  | select target => exact (h.keeps_select target).bind fun _ => .pure _
  | expand group => exact (h.keeps_expand group).bind fun _ => .pure _
  | collapse group => exact (h.keeps_collapse hjournal group).bind fun _ => .pure _

end Collapse

end Steady

end Controls

end UndoJournal
