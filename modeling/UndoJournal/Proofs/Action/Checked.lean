import UndoJournal.Proofs.Action.Confined

/-!
# Checked actions

`Action.checked` runs an action, compares the state it was started in with the state it left, **also
where it met a fault**, and reports a complaint if the two are not as they should be. A check
reaches into nothing: result and state stay what they were.

So a program with checks in it runs like the program without them exactly as long as all checks are
passed, and that is how statements about the inside of a run are made here: `Action.Agree p x y`
says that `x` and `y` run alike from every state of which `p` holds, and that `p` holds afterwards.
-/

namespace UndoJournal

theorem Lens.lawful_whole {σ : Type} : (Lens.whole : Lens σ σ).Lawful :=
  ⟨fun _ _ => rfl, fun _ => rfl, fun _ _ _ => rfl⟩

namespace Action

variable {σ τ α β : Type}

/-! ### Checks -/

/-- What is reported of a check that was not passed. -/
def complaint : Note := .event .warn "check failed" []

/-- Run an action, and complain if the states before and after it are not as they should be. -/
def checked (ok : σ → σ → Bool) (x : Action σ α) : Action σ α := fun s =>
  ⟨(x s).result, (x s).state, (x s).notes ++ if ok s (x s).state then [] else [complaint]⟩

variable {ok : σ → σ → Bool} {x : Action σ α} {s : σ}

theorem run_checked (ok : σ → σ → Bool) (x : Action σ α) (s : σ) :
    (checked ok x).run s = ⟨(x.run s).result, (x.run s).state,
      (x.run s).notes ++ if ok s (x.run s).state then [] else [complaint]⟩ := rfl

/-- **A check is passed exactly if it leaves no trace.** -/
theorem run_checked_eq_iff : (checked ok x).run s = x.run s ↔ ok s (x.run s).state = true := by
  rw [run_checked]
  cases ok s (x.run s).state with
  | true => simp
  | false =>
    refine iff_of_false (fun h => ?_) Bool.false_ne_true
    have hnotes := congrArg (fun outcome => outcome.notes.length) h
    simp at hnotes

/-! ### Agreement -/

/-- From a state of which `p` holds both do the same, and `p` holds afterwards, also after a
fault. -/
def Agree (p : σ → Prop) (x y : Action σ α) : Prop :=
  ∀ s, p s → x.run s = y.run s ∧ p (y.run s).state

/-- Agreement is confinement to the whole. -/
theorem agree_iff_confined {p : σ → Prop} {x y : Action σ α} :
    Agree p x y ↔ Confined Lens.whole p p x y := .rfl

namespace Confined

variable {pre post : σ → Prop}

/-- What an action leaves, it leaves on both sides. -/
theorem of_leaves {x : Action σ α} (h : ∀ s, pre s → x.Leaves s fun _ s' => post s') :
    Confined Lens.whole pre post x x :=
  fun s hs => ⟨rfl, h s hs⟩

/-- What comes behind a look at the state knows what was seen, and the state. -/
theorem whole_read_bind {x : Action σ β} {v : σ → β} (hx : ∀ s, x.run s = ⟨.ok (v s), s, []⟩)
    {f g : β → Action σ α}
    (h : ∀ s, pre s → Confined Lens.whole (· = s) post (f (v s)) (g (v s))) :
    Confined Lens.whole pre post (x >>= f) (x >>= g) :=
  read_bind hx hx h

end Confined

namespace Agree

variable {p : σ → Prop}

theorem run_eq {x y : Action σ α} (h : Agree p x y) {s : σ} (hs : p s) : x.run s = y.run s :=
  (h s hs).1

/-- What agrees with anything keeps what holds. -/
theorem keeps {x y : Action σ α} (h : Agree p x y) : Keeps p y := fun s hs => (h s hs).2

theorem of_keeps {x : Action σ α} (h : Keeps p x) : Agree p x x := fun s hs => ⟨rfl, h s hs⟩

theorem pure (a : α) : Agree p (Pure.pure a) (Pure.pure a : Action σ α) := of_keeps (Keeps.pure a)

theorem report (notes : List Note) : Agree p (report notes) (report notes) :=
  of_keeps (Keeps.report notes)

theorem modify {f : σ → σ} (h : ∀ s, p s → p (f s)) : Agree p (modify f) (modify f) :=
  of_keeps (Keeps.modify h)

theorem bind {x y : Action σ α} {f g : α → Action σ β} (h : Agree p x y)
    (hf : ∀ a, Agree p (f a) (g a)) : Agree p (x >>= f) (y >>= g) :=
  Confined.bind Lens.lawful_whole h (fun _ h => h) hf

/-- Both look at a part of the state. -/
theorem read_bind {x : Action σ β} {v : σ → β} (hx : ∀ s, x.run s = ⟨.ok (v s), s, []⟩)
    {f g : β → Action σ α} (h : ∀ b, Agree p (f b) (g b)) : Agree p (x >>= f) (x >>= g) :=
  Confined.whole_read_bind hx fun _ hs =>
    Confined.mono (h _) (fun _ hs' => hs' ▸ hs) fun _ h' => h'

theorem each {f g : β → Action σ Unit} {bs : List β} (h : ∀ b, Agree p (f b) (g b)) :
    Agree p (each f bs) (each g bs) :=
  Confined.each Lens.lawful_whole h

/-- A bracket may open a state of its own kind. -/
theorem bracket {q : σ → Prop} {x y : Action σ α} {enter leave : σ → σ} (h : Agree q x y)
    (henter : ∀ s, p s → q (enter s)) (hleave : ∀ s, q s → p (leave s)) :
    Agree p (bracket enter leave x) (bracket enter leave y) :=
  Confined.bracket Lens.lawful_whole h henter hleave

end Agree

end Action

end UndoJournal
