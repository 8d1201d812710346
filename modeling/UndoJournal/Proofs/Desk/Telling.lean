import UndoJournal.Proofs.Action.Confined
import UndoJournal.Desk

/-!
# Who can change a desk

What is told to a follower is answered on the surroundings alone: telling, attaching and detaching
**never change the journal**. `Desk.leaves_tell_of_some` and its companions say what each of these
actions leaves in terms of what the follower leaves around it.
-/

namespace UndoJournal

namespace Desk

variable {φ ω : Type} {f : Following φ ω} {d : Desk φ ω}

/-- Without a follower nobody is told. -/
theorem run_tell_of_none (h : d.attached = none) (u : CursorUpdate) :
    (tell f u).Gives d fun _ d' => d' = d := by
  simp [tell, h]

/-- An answer with an error is as good as any other; only a fault of the follower is one of the
telling. -/
theorem leaves_tell_of_some {follower : φ} (h : d.attached = some follower) (u : CursorUpdate)
    {post : Except Fault Unit → Desk φ ω → Prop} :
    (tell f u).Leaves d post ↔
      (f.follow follower d.journal.timeline u).Leaves d.around fun result w =>
        post (result.map fun _ => ()) { d with around := w } := by
  simp only [tell, Action.leaves_bind, Action.leaves_get, h, Action.leaves_zoom]
  refine iff_of_eq (congrArg _ ?_)
  funext result w
  rcases result with fault | (e | ⟨⟩) <;> rw [← h] <;> rfl

theorem gives_tell_of_some {follower : φ} (h : d.attached = some follower) (u : CursorUpdate)
    {post : Unit → Desk φ ω → Prop} :
    (tell f u).Gives d post ↔
      (f.follow follower d.journal.timeline u).Gives d.around fun _ w =>
        post () { d with around := w } := by
  unfold Action.Gives
  rw [leaves_tell_of_some h]
  refine iff_of_eq (congrArg _ ?_)
  funext result w
  rcases result with fault | answer <;> simp [Except.map]

/-- A reaction without a fault is taken on and told. -/
theorem leaves_enact {r : Reaction} {post : Except Fault Unit → Desk φ ω → Prop} :
    (enact f (.ok r)).Leaves d post ↔
      match r.update with
      | none => post (.ok ()) { d with journal := r.journal }
      | some u => (tell f u).Leaves { d with journal := r.journal } post := by
  simp only [enact, Action.leaves_bind, Action.leaves_ofExcept, Action.leaves_modify,
    Action.leaves_report]
  cases r.update <;> rfl

theorem gives_enact {r : Reaction} {post : Unit → Desk φ ω → Prop} :
    (enact f (.ok r)).Gives d post ↔
      match r.update with
      | none => post () { d with journal := r.journal }
      | some u => (tell f u).Gives { d with journal := r.journal } post := by
  unfold Action.Gives
  rw [leaves_enact]
  cases r.update <;> simp

/-- Telling never reaches the journal, also where the follower meets a fault. -/
theorem keeps_tell (p : Journal → Prop) (u : CursorUpdate) :
    Action.Keeps (fun d : Desk φ ω => p d.journal) (tell f u) := fun d hd => by
  rcases hatt : d.attached with _ | follower
  · exact (run_tell_of_none hatt u).leaves fun _ d' h => h ▸ hd
  · rw [leaves_tell_of_some hatt]
    exact hd

/-- The journal takes on a reaction, whatever the follower makes of it. -/
theorem leaves_hear_of_ok {notice : Notice} {r : Reaction} (hr : d.journal.hear notice = .ok r) :
    (hear f notice).Leaves d fun _ d' => d'.journal = r.journal := by
  rw [hear, Action.leaves_bind, Action.leaves_get]
  dsimp only
  rw [hr, leaves_enact]
  split
  · rfl
  · exact keeps_tell (· = r.journal) _ _ rfl

/-- What no reaction to a notice changes about a journal, hearing it keeps. -/
theorem keeps_hear_of {p : Journal → Prop} {notice : Notice}
    (h : ∀ j r, p j → j.hear notice = .ok r → p r.journal) :
    Action.Keeps (fun d : Desk φ ω => p d.journal) (hear f notice) := fun d hd => by
  rcases hr : d.journal.hear notice with fault | r
  · rw [hear, Action.leaves_bind, Action.leaves_get]
    dsimp only
    rw [hr]
    exact hd
  · have hp := h _ r hd hr
    refine (leaves_hear_of_ok hr).mono fun _ d' h' => ?_
    rwa [← h'] at hp

/-- The first follower is attached and told the whole state. -/
theorem run_attach_of_none (h : d.attached = none) (follower : φ) :
    (attach f follower).run d =
      (Action.note .debug "view attached" [("current", d.journal.cursor.text)] >>= fun _ =>
        tell f (d.journal.standing .attach)).run { d with attached := some follower } := by
  obtain ⟨journal, attached, around⟩ := d
  obtain rfl : attached = none := h
  rfl

/-! ### Two ways to follow -/

variable {g : Following φ ω}

/-- Telling is alike where following is. -/
theorem run_tell_congr {u : CursorUpdate}
    (h : ∀ follower, d.attached = some follower →
      (f.follow follower d.journal.timeline u).run d.around =
        (g.follow follower d.journal.timeline u).run d.around) :
    (tell f u).run d = (tell g u).run d := by
  rw [tell, tell, Action.run_bind_of_ok (Action.run_get d),
    Action.run_bind_of_ok (Action.run_get d)]
  rcases hatt : d.attached with _ | follower
  · rfl
  · have hfollow : (Action.zoom aroundLens (f.follow follower d.journal.timeline u)).run d =
        (Action.zoom aroundLens (g.follow follower d.journal.timeline u)).run d := by
      have haround : aroundLens.get d = d.around := rfl
      rw [Action.run_zoom, Action.run_zoom, haround, h follower hatt]
    dsimp only
    rw [Action.run_bind, Action.run_bind, hfollow]

/-- A reaction is carried out alike where what it tells is followed alike. -/
theorem run_enact_congr {r : Reaction}
    (h : ∀ u follower, r.update = some u → d.attached = some follower →
      (f.follow follower r.journal.timeline u).run d.around =
        (g.follow follower r.journal.timeline u).run d.around) :
    (enact f (.ok r)).run d = (enact g (.ok r)).run d := by
  have htell : ∀ u, r.update = some u →
      (tell f u).run { d with journal := r.journal } =
        (tell g u).run { d with journal := r.journal } := fun u hu =>
    run_tell_congr fun follower hatt => h u follower hu hatt
  simp only [enact, Action.run_bind, Action.run_ofExcept, Action.run_modify, Action.run_report]
  rcases hu : r.update with _ | u
  · rfl
  · rw [htell u hu]

end Desk

/-- Whatever followers are asked, they answer, and meet no fault. -/
structure Following.Answers {φ ω : Type} (f : Following φ ω) : Prop where
  follow : ∀ follower t u w, (f.follow follower t u).Gives w fun _ _ => True
  detached : ∀ follower w, (f.detached follower).Gives w fun _ _ => True
  dropped : ∀ follower w, (f.dropped follower).Gives w fun _ _ => True

namespace Desk

variable {φ ω : Type} {f : Following φ ω} (hf : f.Answers)

include hf

/-- **Telling leaves the journal alone.** -/
theorem gives_tell (u : CursorUpdate) (d : Desk φ ω) :
    (tell f u).Gives d fun _ d' => d'.journal = d.journal := by
  rcases h : d.attached with _ | follower
  · exact (run_tell_of_none h u).mono fun _ d' hd => hd ▸ rfl
  · rw [gives_tell_of_some h]
    exact (hf.follow follower _ u _).mono fun _ _ _ => rfl

/-- What a reaction makes of the journal does not depend on the follower. -/
theorem gives_enact_of_answers (r : Reaction) (d : Desk φ ω) :
    (enact f (.ok r)).Gives d fun _ d' => d'.journal = r.journal := by
  rw [gives_enact]
  split
  · rfl
  · exact gives_tell hf _ _

private theorem gives_letGo (follower : φ) (d : Desk φ ω) :
    (letGo f follower).Gives d fun _ d' => d'.journal = d.journal := by
  simp only [letGo, Action.gives_zoom, Action.gives_bind]
  exact (hf.detached follower _).mono fun _ w _ =>
    (hf.dropped follower w).mono fun _ _ _ => rfl

theorem gives_attach (follower : φ) (d : Desk φ ω) :
    (attach f follower).Gives d fun _ d' => d'.journal = d.journal := by
  have htell : ∀ d' : Desk φ ω, d'.journal = d.journal →
      (tell f (d.journal.standing .attach)).Gives d' fun _ d'' => d''.journal = d.journal :=
    fun d' h => (gives_tell hf _ d').mono fun _ _ h' => h'.trans h
  simp only [attach, Action.gives_bind, Action.gives_get, Action.gives_modify]
  -- a follower that was there before is let go of first
  cases d.attached with
  | none =>
    simp only [Action.gives_bind, Action.gives_note]
    exact htell _ rfl
  | some old =>
    simp only [Action.gives_bind, Action.gives_note]
    exact (gives_letGo hf old _).mono fun _ d' h => htell d' h

omit hf in
theorem gives_detach (d : Desk φ ω) :
    (detach : Action (Desk φ ω) (Option φ)).Gives d fun follower d' =>
      follower = d.attached ∧ d' = { d with attached := none } := by
  simp only [detach, Action.gives_bind, Action.gives_get]
  cases h : d.attached with
  | none =>
    rw [Action.gives_pure, ← h]
    exact ⟨h.symm ▸ rfl, rfl⟩
  | some follower =>
    simp only [Action.gives_bind, Action.gives_modify, Action.gives_note, Action.gives_pure,
      and_self]

end Desk

end UndoJournal
