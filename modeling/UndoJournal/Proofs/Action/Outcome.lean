import UndoJournal.Action.Lemmas

/-!
# What an action leaves

`Action.Leaves x s post` says what is true of the result and the state once `x` has run from `s`,
and `Action.Gives x s post` says that `x` **meets no fault** from `s`, and what is then true. Both
follow the way an action is built: one law for each construction takes a claim about the whole apart
into claims about its parts, so a program is proved by rewriting along its own text.

* One action after another is one claim inside the other (`leaves_bind`, `gives_bind`).
* `Action.bracket` and `Action.zoom` change the state that the claim is about (`leaves_bracket`,
  `leaves_zoom`).
-/

namespace UndoJournal

namespace Action

variable {σ τ α β : Type}

/-- What is true once an action has run, whether or not it met a fault. -/
def Leaves (x : Action σ α) (s : σ) (post : Except Fault α → σ → Prop) : Prop :=
  post (x.run s).result (x.run s).state

/-- An action meets no fault, and what is then true. -/
def Gives (x : Action σ α) (s : σ) (post : α → σ → Prop) : Prop :=
  x.Leaves s fun result s' => ∃ a, result = .ok a ∧ post a s'

theorem Leaves.mono {x : Action σ α} {s : σ} {post post' : Except Fault α → σ → Prop}
    (h : x.Leaves s post) (himp : ∀ result s', post result s' → post' result s') :
    x.Leaves s post' := himp _ _ h

/-- An action that runs as another one leaves what that leaves. -/
theorem Leaves.of_run_eq {x y : Action σ α} {s s' : σ} {post : Except Fault α → σ → Prop}
    (h : x.run s = y.run s') (hy : y.Leaves s' post) : x.Leaves s post := by
  rw [Leaves, h]
  exact hy

theorem Gives.mono {x : Action σ α} {s : σ} {post post' : α → σ → Prop} (h : x.Gives s post)
    (himp : ∀ a s', post a s' → post' a s') : x.Gives s post' := by
  obtain ⟨a, ha, hpost⟩ := h
  exact ⟨a, ha, himp _ _ hpost⟩

theorem Leaves.and {x : Action σ α} {s : σ} {post post' : Except Fault α → σ → Prop}
    (h : x.Leaves s post) (h' : x.Leaves s post') :
    x.Leaves s fun result s' => post result s' ∧ post' result s' := ⟨h, h'⟩

theorem Gives.and {x : Action σ α} {s : σ} {post post' : α → σ → Prop} (h : x.Gives s post)
    (h' : x.Gives s post') : x.Gives s fun a s' => post a s' ∧ post' a s' := by
  obtain ⟨a, ha, hpost⟩ := h
  obtain ⟨a', ha', hpost'⟩ := h'
  obtain rfl : a = a' := Except.ok.inj (ha.symm.trans ha')
  exact ⟨a, ha, hpost, hpost'⟩

/-- An action that gives a result leaves it. -/
theorem Gives.leaves {x : Action σ α} {s : σ} {post : α → σ → Prop}
    {post' : Except Fault α → σ → Prop} (h : x.Gives s post)
    (himp : ∀ a s', post a s' → post' (.ok a) s') : x.Leaves s post' := by
  refine Leaves.mono h ?_
  rintro _ s' ⟨a, rfl, hpost⟩
  exact himp a s' hpost

/-! ### Leaving -/

section Leaves

variable {s : σ} {post : Except Fault α → σ → Prop}

@[simp] theorem leaves_pure (a : α) : (pure a : Action σ α).Leaves s post ↔ post (.ok a) s := .rfl

@[simp] theorem leaves_get {post : Except Fault σ → σ → Prop} :
    (get : Action σ σ).Leaves s post ↔ post (.ok s) s := .rfl

@[simp] theorem leaves_modify {post : Except Fault Unit → σ → Prop} (f : σ → σ) :
    (modify f).Leaves s post ↔ post (.ok ()) (f s) := .rfl

@[simp] theorem leaves_fail (fault : Fault) :
    (fail fault : Action σ α).Leaves s post ↔ post (.error fault) s := .rfl

@[simp] theorem leaves_ofExcept (x : Except Fault α) :
    (ofExcept x : Action σ α).Leaves s post ↔ post x s := .rfl

@[simp] theorem leaves_report {post : Except Fault Unit → σ → Prop} (notes : List Note) :
    (report notes : Action σ Unit).Leaves s post ↔ post (.ok ()) s := .rfl

@[simp] theorem leaves_note {post : Except Fault Unit → σ → Prop} (level : Level)
    (message : String) (fields : List Field) :
    (note level message fields : Action σ Unit).Leaves s post ↔ post (.ok ()) s := .rfl

@[simp] theorem leaves_within (span : Span) (x : Action σ α) :
    (within span x).Leaves s post ↔ x.Leaves s post := .rfl

@[simp] theorem leaves_bracket (enter leave : σ → σ) (x : Action σ α) :
    (bracket enter leave x).Leaves s post ↔
      x.Leaves (enter s) fun result s' => post result (leave s') := .rfl

@[simp] theorem leaves_zoom (l : Lens σ τ) (x : Action τ α) :
    (zoom l x).Leaves s post ↔
      x.Leaves (l.get s) fun result t => post result (l.set t s) := .rfl

/-- The second action runs if the first gave a result, and a fault is passed on otherwise. -/
@[simp] theorem leaves_bind {post : Except Fault β → σ → Prop} (x : Action σ α)
    (f : α → Action σ β) :
    (x >>= f).Leaves s post ↔
      x.Leaves s fun result s' =>
        match result with
        | .ok a => (f a).Leaves s' post
        | .error fault => post (.error fault) s' := by
  unfold Leaves
  rw [run_bind]
  cases (x.run s).result <;> rfl

end Leaves

/-! ### Giving -/

/-- There is one result without content. -/
@[simp] theorem exists_unit {p : Unit → Prop} : (∃ a, p a) ↔ p () :=
  ⟨fun ⟨_, h⟩ => h, fun h => ⟨(), h⟩⟩

section Gives

variable {s : σ} {post : α → σ → Prop}

@[simp] theorem gives_pure (a : α) : (pure a : Action σ α).Gives s post ↔ post a s := by
  simp [Gives]

@[simp] theorem gives_get {post : σ → σ → Prop} :
    (get : Action σ σ).Gives s post ↔ post s s := by
  simp [Gives]

@[simp] theorem gives_modify {post : Unit → σ → Prop} (f : σ → σ) :
    (modify f).Gives s post ↔ post () (f s) := by
  simp [Gives]

@[simp] theorem gives_fail (fault : Fault) :
    (fail fault : Action σ α).Gives s post ↔ False := by
  simp [Gives]

@[simp] theorem gives_ofExcept (x : Except Fault α) :
    (ofExcept x : Action σ α).Gives s post ↔ ∃ a, x = .ok a ∧ post a s := .rfl

@[simp] theorem gives_report {post : Unit → σ → Prop} (notes : List Note) :
    (report notes : Action σ Unit).Gives s post ↔ post () s := by
  simp [Gives]

@[simp] theorem gives_note {post : Unit → σ → Prop} (level : Level) (message : String)
    (fields : List Field) :
    (note level message fields : Action σ Unit).Gives s post ↔ post () s := by
  simp [Gives]

@[simp] theorem gives_within (span : Span) (x : Action σ α) :
    (within span x).Gives s post ↔ x.Gives s post := .rfl

@[simp] theorem gives_bracket (enter leave : σ → σ) (x : Action σ α) :
    (bracket enter leave x).Gives s post ↔
      x.Gives (enter s) fun a s' => post a (leave s') := .rfl

@[simp] theorem gives_zoom (l : Lens σ τ) (x : Action τ α) :
    (zoom l x).Gives s post ↔ x.Gives (l.get s) fun a t => post a (l.set t s) := .rfl

/-- Both actions have to meet no fault. -/
@[simp] theorem gives_bind {post : β → σ → Prop} (x : Action σ α) (f : α → Action σ β) :
    (x >>= f).Gives s post ↔ x.Gives s fun a s' => (f a).Gives s' post := by
  unfold Gives
  rw [leaves_bind]
  unfold Leaves
  cases (x.run s).result <;> simp

end Gives

/-! ### One element after another -/

@[simp] theorem each_nil (f : β → Action σ Unit) : each f [] = pure () := rfl

@[simp] theorem each_cons (f : β → Action σ Unit) (b : β) (bs : List β) :
    each f (b :: bs) = f b >>= fun _ => each f bs := rfl

theorem each_singleton (f : β → Action σ Unit) (b : β) : each f [b] = f b := by
  rw [each_cons, each_nil, bind_pure_unit]

/-- What each element keeps true, all of them do. -/
theorem gives_each {f : β → Action σ Unit} {bs : List β} {p : σ → Prop}
    (step : ∀ b ∈ bs, ∀ s, p s → (f b).Gives s fun _ s' => p s') {s : σ} (h : p s) :
    (each f bs).Gives s fun _ s' => p s' := by
  induction bs generalizing s with
  | nil => simpa using h
  | cons b bs ih =>
    rw [each_cons, gives_bind]
    refine (step b List.mem_cons_self s h).mono fun _ s' hs' => ?_
    exact ih (fun b' hb' => step b' (List.mem_cons_of_mem _ hb')) hs'

/-! ### Keeping something true -/

/-- An action keeps something true, also where it meets a fault. -/
def Keeps (p : σ → Prop) (x : Action σ α) : Prop := ∀ s, p s → x.Leaves s fun _ s' => p s'

namespace Keeps

variable {p : σ → Prop}

theorem pure (a : α) : Keeps p (pure a : Action σ α) := fun _ hs => hs

theorem report (notes : List Note) : Keeps p (report notes : Action σ Unit) := fun _ hs => hs

theorem modify {f : σ → σ} (h : ∀ s, p s → p (f s)) : Keeps p (modify f) := fun s hs => h s hs

theorem bind {x : Action σ α} {f : α → Action σ β} (hx : Keeps p x) (hf : ∀ a, Keeps p (f a)) :
    Keeps p (x >>= f) := fun s hs => by
  rw [leaves_bind]
  refine (hx s hs).mono ?_
  rintro (fault | a) s' hs'
  · exact hs'
  · exact hf a s' hs'

/-- What comes behind a look at the state knows the state. -/
theorem get_bind {f : σ → Action σ α} (h : ∀ s, p s → (f s).Leaves s fun _ s' => p s') :
    Keeps p (get >>= f) := fun s hs => by
  rw [leaves_bind, leaves_get]
  exact h s hs

theorem each {f : β → Action σ Unit} {bs : List β} (h : ∀ b ∈ bs, Keeps p (f b)) :
    Keeps p (each f bs) := by
  induction bs with
  | nil => exact pure ()
  | cons b bs ih =>
    exact bind (h b List.mem_cons_self) fun _ => ih fun b' hb' => h b' (List.mem_cons_of_mem _ hb')

end Keeps

end Action

end UndoJournal
