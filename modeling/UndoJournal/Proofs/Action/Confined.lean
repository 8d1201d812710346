import UndoJournal.Proofs.Action.Outcome

/-!
# Acting on a part of a state

A `Lens` is **lawful** if reading and replacing its part fit together (`Lens.Lawful`), which the
lenses of a record's fields do.

An action on the whole is **confined** to a part if, as long as the part is in good order, it does
what some action does on the part alone (`Action.Confined`). Confinement follows the way an action
is built, and what it comes to is an equation (`Confined.run_eq`): whatever is proved of the action
on the part then holds of the whole.
-/

namespace UndoJournal

variable {σ τ α β : Type}

/-- Reading and replacing a part fit together. -/
structure Lens.Lawful (l : Lens σ τ) : Prop where
  /-- What was put there is read. -/
  get_set : ∀ t s, l.get (l.set t s) = t
  /-- Putting back what is there changes nothing. -/
  set_get : ∀ s, l.set (l.get s) s = s
  /-- The last replacement counts. -/
  set_set : ∀ t t' s, l.set t (l.set t' s) = l.set t s

namespace Action

/-- From states whose part is in good order, `x` does to the part what `y` does, and nothing else;
the part stays in good order, or in the order `post` if that is another. -/
def Confined (l : Lens σ τ) (pre post : τ → Prop) (x : Action σ α) (y : Action τ α) : Prop :=
  ∀ s, pre (l.get s) → x.run s = (zoom l y).run s ∧ post (y.run (l.get s)).state

namespace Confined

variable {l : Lens σ τ} {pre mid post : τ → Prop}

theorem run_eq {x : Action σ α} {y : Action τ α} (h : Confined l pre post x y) {s : σ}
    (hs : pre (l.get s)) : x.run s = (zoom l y).run s := (h s hs).1

theorem mono {x : Action σ α} {y : Action τ α} {pre' post' : τ → Prop}
    (h : Confined l pre post x y) (hpre : ∀ t, pre' t → pre t) (hpost : ∀ t, post t → post' t) :
    Confined l pre' post' x y :=
  fun s hs => ⟨(h s (hpre _ hs)).1, hpost _ (h s (hpre _ hs)).2⟩

/-- What does not look at the state is confined to any part. -/
theorem of_still (hl : l.Lawful) {x : Action σ α} {y : Action τ α} {o : Except Fault α}
    {notes : List Note} (hx : ∀ s, x.run s = ⟨o, s, notes⟩) (hy : ∀ t, y.run t = ⟨o, t, notes⟩) :
    Confined l pre pre x y := fun s hs => by
  rw [run_zoom, hx, hy]
  exact ⟨by rw [hl.set_get], hs⟩

theorem pure (hl : l.Lawful) (a : α) :
    Confined l pre pre (pure a : Action σ α) (pure a : Action τ α) :=
  of_still hl (fun _ => rfl) fun _ => rfl

theorem fail (hl : l.Lawful) (fault : Fault) :
    Confined l pre pre (fail fault : Action σ α) (fail fault : Action τ α) :=
  of_still hl (fun _ => rfl) fun _ => rfl

theorem report (hl : l.Lawful) (notes : List Note) :
    Confined l pre pre (report notes) (report notes) :=
  of_still hl (fun _ => rfl) fun _ => rfl

/-- Changing the part is confined to it. -/
theorem modify {f : τ → τ} (h : ∀ t, pre t → post (f t)) :
    Confined l pre post (modify (l.modify f)) (modify f) :=
  fun _ hs => ⟨rfl, h _ hs⟩

theorem within {x : Action σ α} {y : Action τ α} (span : Span) (h : Confined l pre post x y) :
    Confined l pre post (within span x) (within span y) := fun s hs => by
  obtain ⟨heq, hpost⟩ := h s hs
  rw [run_zoom] at heq
  refine ⟨?_, hpost⟩
  rw [run_within, heq, run_zoom, run_within]

theorem bind (hl : l.Lawful) {x : Action σ α} {y : Action τ α} {f : α → Action σ β}
    {g : α → Action τ β} (h : Confined l pre mid x y) (hm : ∀ t, mid t → post t)
    (hf : ∀ a, Confined l mid post (f a) (g a)) : Confined l pre post (x >>= f) (y >>= g) :=
  fun s hs => by
  obtain ⟨heq, hmid⟩ := h s hs
  rcases hy : y.run (l.get s) with ⟨fault | a, t, notes⟩
  · rw [run_zoom, hy] at heq
    rw [hy] at hmid
    rw [run_bind_of_error heq, run_zoom, run_bind_of_error hy]
    exact ⟨rfl, hm _ hmid⟩
  · rw [run_zoom, hy] at heq
    rw [hy] at hmid
    have ht : l.get (l.set t s) = t := hl.get_set t s
    obtain ⟨heq', hpost⟩ := hf a (l.set t s) (by rw [ht]; exact hmid)
    rw [run_zoom, ht] at heq'
    rw [ht] at hpost
    rw [run_bind_of_ok heq, run_zoom, run_bind_of_ok hy, heq', hl.set_set]
    exact ⟨rfl, hpost⟩

/-- What comes behind a look at the part knows what was seen. -/
theorem read_bind {x : Action σ β} {y : Action τ β} {v : τ → β}
    (hx : ∀ s, x.run s = ⟨.ok (v (l.get s)), s, []⟩)
    (hy : ∀ t, y.run t = ⟨.ok (v t), t, []⟩) {f : β → Action σ α} {g : β → Action τ α}
    (h : ∀ t, pre t → Confined l (· = t) post (f (v t)) (g (v t))) :
    Confined l pre post (x >>= f) (y >>= g) := fun s hs => by
  obtain ⟨heq, hpost⟩ := h (l.get s) hs s rfl
  rw [run_zoom] at heq
  rw [run_bind_of_ok (hx s), run_zoom, run_bind_of_ok (hy _), heq]
  exact ⟨rfl, hpost⟩

/-- What comes behind a look at the whole may depend on the part of it alone. -/
theorem get_bind {f : σ → Action σ α} {g : τ → Action τ α}
    (h : ∀ s, pre (l.get s) → Confined l (· = l.get s) post (f s) (g (l.get s))) :
    Confined l pre post (get >>= f) (get >>= g) := fun s hs => by
  obtain ⟨heq, hpost⟩ := h s hs s rfl
  rw [run_zoom] at heq
  rw [run_bind_of_ok (run_get s), run_zoom, run_bind_of_ok (run_get _), heq]
  exact ⟨rfl, hpost⟩

/-- A bracket may put the part in an order of its own and back. -/
theorem bracket (hl : l.Lawful) {enter leave : τ → τ} {x : Action σ α} {y : Action τ α}
    {pre' post' : τ → Prop} (h : Confined l pre' post' x y) (henter : ∀ t, pre t → pre' (enter t))
    (hleave : ∀ t, post' t → post (leave t)) :
    Confined l pre post (bracket (l.modify enter) (l.modify leave) x)
      (Action.bracket enter leave y) := fun s hs => by
  have hget : l.get (l.modify enter s) = enter (l.get s) := hl.get_set _ _
  obtain ⟨heq, hpost⟩ := h (l.modify enter s) (by rw [hget]; exact henter _ hs)
  rw [run_zoom, hget] at heq
  rw [hget] at hpost
  refine ⟨?_, hleave _ hpost⟩
  rw [run_bracket, heq, run_zoom, run_bracket]
  simp only [Lens.modify, hl.get_set, hl.set_set]

/-- Each of some actions being confined, all of them are. -/
theorem each (hl : l.Lawful) {f : β → Action σ Unit} {g : β → Action τ Unit} {bs : List β}
    (h : ∀ b, Confined l pre pre (f b) (g b)) :
    Confined l pre pre (each f bs) (each g bs) := by
  induction bs with
  | nil => exact pure hl ()
  | cons b bs ih => exact bind hl (h b) (fun _ ht => ht) fun _ => ih

end Confined

end Action

end UndoJournal
