import UndoJournal.Action

/-!
# Running actions

What each way of building an action leaves when it is run, and the laws of a monad: a fault skips
whatever would run behind it, and otherwise results, states and notes pass from one action to the
next.
-/

namespace UndoJournal

namespace Action

variable {σ τ α β : Type}

/-- A computation is known by what running it leaves from each state. -/
@[ext] theorem ext {x y : Action σ α} (h : ∀ s, x.run s = y.run s) : x = y := funext h

@[simp] theorem run_pure (a : α) (s : σ) : (pure a : Action σ α).run s = ⟨.ok a, s, []⟩ := rfl

@[simp] theorem run_get (s : σ) : (get : Action σ σ).run s = ⟨.ok s, s, []⟩ := rfl

@[simp] theorem run_modify (f : σ → σ) (s : σ) : (modify f).run s = ⟨.ok (), f s, []⟩ := rfl

@[simp] theorem run_fail (fault : Fault) (s : σ) :
    (fail fault : Action σ α).run s = ⟨.error fault, s, []⟩ := rfl

@[simp] theorem run_ofExcept (x : Except Fault α) (s : σ) : (ofExcept x).run s = ⟨x, s, []⟩ := rfl

@[simp] theorem run_report (notes : List Note) (s : σ) :
    (report notes).run s = ⟨.ok (), s, notes⟩ := rfl

theorem run_within (span : Span) (x : Action σ α) (s : σ) :
    (within span x).run s =
      ⟨(x.run s).result, (x.run s).state,
        [.span span.level span.name span.fields (x.run s).notes]⟩ := rfl

/-- The state is changed back whether or not there was a fault. -/
theorem run_bracket (enter leave : σ → σ) (x : Action σ α) (s : σ) :
    (bracket enter leave x).run s =
      ⟨(x.run (enter s)).result, leave (x.run (enter s)).state, (x.run (enter s)).notes⟩ := rfl

theorem run_zoom (l : Lens σ τ) (x : Action τ α) (s : σ) :
    (zoom l x).run s =
      ⟨(x.run (l.get s)).result, l.set (x.run (l.get s)).state s, (x.run (l.get s)).notes⟩ := rfl

/-! ### One action after another -/

theorem run_bind (x : Action σ α) (f : α → Action σ β) (s : σ) :
    (x >>= f).run s =
      match (x.run s).result with
      | .error fault => ⟨.error fault, (x.run s).state, (x.run s).notes⟩
      | .ok a =>
        ⟨((f a).run (x.run s).state).result, ((f a).run (x.run s).state).state,
          (x.run s).notes ++ ((f a).run (x.run s).state).notes⟩ := rfl

/-- What runs after a result was given. -/
theorem run_bind_of_ok {x : Action σ α} {f : α → Action σ β} {s s' : σ} {a : α}
    {notes : List Note} (h : x.run s = ⟨.ok a, s', notes⟩) :
    (x >>= f).run s =
      ⟨((f a).run s').result, ((f a).run s').state, notes ++ ((f a).run s').notes⟩ := by
  rw [run_bind, h]

/-- A fault skips what would run after it. -/
theorem run_bind_of_error {x : Action σ α} {f : α → Action σ β} {s s' : σ} {fault : Fault}
    {notes : List Note} (h : x.run s = ⟨.error fault, s', notes⟩) :
    (x >>= f).run s = ⟨.error fault, s', notes⟩ := by
  rw [run_bind, h]

instance : LawfulMonad (Action σ) := LawfulMonad.mk' (Action σ)
  (fun x => by
    refine ext fun s => ?_
    change (x >>= fun a => pure a).run s = x.run s
    rcases h : x.run s with ⟨_ | a, s', notes⟩
    · exact run_bind_of_error h
    · rw [run_bind_of_ok h]; simp)
  (fun a f => by
    refine ext fun s => ?_
    rw [run_bind_of_ok (run_pure a s)]; rfl)
  (fun x f g => by
    refine ext fun s => ?_
    rcases h : x.run s with ⟨fault | a, s', notes⟩
    · rw [run_bind_of_error (run_bind_of_error h), run_bind_of_error h]
    · rw [run_bind_of_ok h]
      rcases h' : (f a).run s' with ⟨fault | b, s'', notes'⟩
      · have hx : (x >>= f).run s = ⟨.error fault, s'', notes ++ notes'⟩ := by
          rw [run_bind_of_ok h, h']
        rw [run_bind_of_error h', run_bind_of_error hx]
      · have hx : (x >>= f).run s = ⟨.ok b, s'', notes ++ notes'⟩ := by
          rw [run_bind_of_ok h, h']
        rw [run_bind_of_ok h', run_bind_of_ok hx, List.append_assoc])

end Action

end UndoJournal
