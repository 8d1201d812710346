import UndoJournal.Proofs.Action.Outcome

/-!
# Two actions that run alike

`Action.Alike x s y t post` says that `x` from `s` and `y` from `t`, which may act on states of
different kinds, give the same result or meet the same fault, report the same notes, and leave
states that `post` relates. It is what there is to prove when one of the two carries more along than
the other, such as a log of what happened.

As with `Action.Leaves`, the laws follow the way an action is built.
-/

namespace UndoJournal

namespace Action

variable {σ σ' τ τ' α β : Type}

/-- The same result and the same notes, and states that are related. -/
structure Alike (x : Action σ α) (s : σ) (y : Action τ α) (t : τ) (post : σ → τ → Prop) :
    Prop where
  /-- Both give the same result or meet the same fault. -/
  result : (x.run s).result = (y.run t).result
  /-- Both report the same. -/
  notes : (x.run s).notes = (y.run t).notes
  /-- What they leave is related. -/
  state : post (x.run s).state (y.run t).state

namespace Alike

variable {s : σ} {t : τ} {post : σ → τ → Prop}

/-- An action is like itself. -/
theorem refl (x : Action σ α) (s : σ) : Alike x s x s Eq := ⟨rfl, rfl, rfl⟩

theorem mono {x : Action σ α} {y : Action τ α} {post' : σ → τ → Prop} (h : Alike x s y t post)
    (himp : ∀ s' t', post s' t' → post' s' t') : Alike x s y t post' :=
  ⟨h.result, h.notes, himp _ _ h.state⟩

theorem pure (a : α) (h : post s t) :
    Alike (Pure.pure a : Action σ α) s (Pure.pure a : Action τ α) t post :=
  ⟨rfl, rfl, h⟩

theorem report (notes : List Note) (h : post s t) :
    Alike (report notes) s (report notes) t post :=
  ⟨rfl, rfl, h⟩

theorem ofExcept (result : Except Fault α) (h : post s t) :
    Alike (ofExcept result) s (ofExcept result) t post :=
  ⟨rfl, rfl, h⟩

theorem modify {f : σ → σ} {g : τ → τ} (h : post (f s) (g t)) :
    Alike (modify f) s (modify g) t post :=
  ⟨rfl, rfl, h⟩

theorem zoom {l : Lens σ σ'} {l' : Lens τ τ'} {x : Action σ' α} {y : Action τ' α}
    (h : Alike x (l.get s) y (l'.get t) fun a b => post (l.set a s) (l'.set b t)) :
    Alike (zoom l x) s (zoom l' y) t post :=
  ⟨h.result, h.notes, h.state⟩

/-- Acting on a part is like acting on the part alone. -/
theorem zoom_left {l : Lens σ σ'} {x : Action σ' α} {y : Action τ α}
    (h : Alike x (l.get s) y t fun a t' => post (l.set a s) t') :
    Alike (Action.zoom l x) s y t post :=
  ⟨h.result, h.notes, h.state⟩

/-- A change that only one of the two makes. -/
theorem modify_left {f : σ → σ} {x : Action σ α} {y : Action τ α} (h : Alike x (f s) y t post) :
    Alike (Action.modify f >>= fun _ => x) s y t post :=
  ⟨h.result, h.notes, h.state⟩

/-- Both look at the state. -/
theorem get_bind {f : σ → Action σ α} {g : τ → Action τ α} (h : Alike (f s) s (g t) t post) :
    Alike (get >>= f) s (get >>= g) t post :=
  ⟨h.result, h.notes, h.state⟩

/-- A fault in the first action skips the second one on both sides. -/
theorem bind {x : Action σ α} {y : Action τ α} {f : α → Action σ β} {g : α → Action τ β}
    {mid : σ → τ → Prop} (h : Alike x s y t mid) (hfault : ∀ s' t', mid s' t' → post s' t')
    (hok : ∀ a s' t', mid s' t' → Alike (f a) s' (g a) t' post) :
    Alike (x >>= f) s (y >>= g) t post := by
  obtain ⟨hresult, hnotes, hstate⟩ := h
  rcases hx : x.run s with ⟨result, s', notes⟩
  rcases hy : y.run t with ⟨result', t', notes'⟩
  rw [hx, hy] at hresult hnotes hstate
  obtain rfl : result = result' := hresult
  obtain rfl : notes = notes' := hnotes
  rcases result with fault | a
  · constructor <;> rw [run_bind_of_error hx, run_bind_of_error hy]
    exact hfault _ _ hstate
  · have hrest := hok a s' t' hstate
    constructor <;> rw [run_bind_of_ok hx, run_bind_of_ok hy]
    · exact hrest.result
    · rw [hrest.notes]
    · exact hrest.state

/-- Both actions leave states of one relation. -/
theorem seq {x : Action σ α} {y : Action τ α} {f : α → Action σ β} {g : α → Action τ β}
    (h : Alike x s y t post)
    (hok : ∀ a s' t', post s' t' → Alike (f a) s' (g a) t' post) :
    Alike (x >>= f) s (y >>= g) t post :=
  h.bind (fun _ _ h' => h') hok

end Alike

end Action

end UndoJournal
