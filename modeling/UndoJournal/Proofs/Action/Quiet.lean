import UndoJournal.Proofs.Action.Outcome
import UndoJournal.Widget

/-!
# Actions during which no view fires a signal

Whatever fires a signal reports that it does, whether or not anybody listens (`Hub.emit`), so an
action during which no signal was fired is one with no such report among its notes
(`Note.Silent`). **An action is quiet** (`Action.Quietly`) if it meets no fault and fires nothing;
like what an action gives, that follows the way it is built.
-/

namespace UndoJournal

/-- A reader who lists everything that is reported finds no signal of a view there. -/
def Note.Silent (notes : List Note) : Prop :=
  ∀ around fields span, Record.event .trace "view signal" fields span ∉
    Note.recordsOf .trace around notes

namespace Note

theorem silent_nil : Silent [] := fun _ _ _ => List.not_mem_nil

theorem recordsOf_append (threshold : Level) (around : Option String) (notes notes' : List Note) :
    recordsOf threshold around (notes ++ notes') =
      recordsOf threshold around notes ++ recordsOf threshold around notes' := by
  induction notes with
  | nil => rfl
  | cons note notes ih => rw [List.cons_append, recordsOf, recordsOf, ih, List.append_assoc]

theorem silent_append {notes notes' : List Note} :
    Silent (notes ++ notes') ↔ Silent notes ∧ Silent notes' := by
  simp only [Silent, recordsOf_append, List.mem_append, not_or, forall_and]

theorem recordsOf_singleton (threshold : Level) (around : Option String) (note : Note) :
    recordsOf threshold around [note] = records threshold around note := by
  rw [recordsOf, recordsOf, List.append_nil]

/-- Reports with other messages are about something else. -/
theorem silent_event {level : Level} {message : String} (h : message ≠ "view signal")
    (fields : List Field) : Silent [.event level message fields] := by
  intro around fields' span hmem
  rw [recordsOf_singleton, records] at hmem
  split at hmem
  · cases List.mem_singleton.mp hmem
    exact h rfl
  · cases hmem

/-- A span with nothing of the kind inside has nothing of the kind. -/
theorem silent_span {level : Level} {name : String} {fields : List Field} {inside : List Note}
    (h : Silent inside) : Silent [.span level name fields inside] := by
  intro around fields' span hmem
  rw [recordsOf_singleton, records] at hmem
  change _ ∈ (if Level.trace.rank ≤ level.rank then [Record.span level name fields] else []) ++ _
    at hmem
  obtain hopening | hinside := List.mem_append.mp hmem
  · split at hopening <;> simp at hopening
  · exact h (some name) fields' span hinside

end Note

namespace Action

variable {σ τ α β : Type}

/-- An action meets no fault, fires no signal, and what is then true. -/
def Quietly (x : Action σ α) (s : σ) (post : α → σ → Prop) : Prop :=
  x.Gives s post ∧ Note.Silent (x.run s).notes

variable {s : σ}

theorem Quietly.mono {x : Action σ α} {post post' : α → σ → Prop} (h : x.Quietly s post)
    (himp : ∀ a s', post a s' → post' a s') : x.Quietly s post' := ⟨h.1.mono himp, h.2⟩

/-- An action that runs as a quiet one is quiet. -/
theorem Quietly.of_run_eq {x y : Action σ α} {s' : σ} {post : α → σ → Prop}
    (h : x.run s = y.run s') (hy : y.Quietly s' post) : x.Quietly s post :=
  ⟨hy.1.of_run_eq h, h ▸ hy.2⟩

/-- What an action leaves, it leaves quietly too. -/
theorem Quietly.and_leaves {x : Action σ α} {post : α → σ → Prop}
    {post' : Except Fault α → σ → Prop} (h : x.Quietly s post) (h' : x.Leaves s post') :
    x.Quietly s fun a s' => post a s' ∧ post' (.ok a) s' := by
  obtain ⟨⟨a, ha, hpost⟩, hsilent⟩ := h
  exact ⟨⟨a, ha, hpost, ha ▸ h'⟩, hsilent⟩

theorem quietly_pure {post : α → σ → Prop} (a : α) :
    (pure a : Action σ α).Quietly s post ↔ post a s := by
  simp [Quietly, Note.silent_nil]

theorem quietly_get {post : σ → σ → Prop} : (get : Action σ σ).Quietly s post ↔ post s s := by
  simp [Quietly, Note.silent_nil]

theorem quietly_modify {post : Unit → σ → Prop} (f : σ → σ) :
    (modify f).Quietly s post ↔ post () (f s) := by
  simp [Quietly, Note.silent_nil]

theorem quietly_report {post : Unit → σ → Prop} (notes : List Note) :
    (report notes : Action σ Unit).Quietly s post ↔ post () s ∧ Note.Silent notes := by
  simp [Quietly]

theorem quietly_note {post : Unit → σ → Prop} {level : Level} {message : String}
    (h : message ≠ "view signal") (fields : List Field) :
    (note level message fields : Action σ Unit).Quietly s post ↔ post () s :=
  (quietly_report _).trans (and_iff_left (Note.silent_event h fields))

theorem quietly_bracket {post : α → σ → Prop} (enter leave : σ → σ) (x : Action σ α) :
    (bracket enter leave x).Quietly s post ↔
      x.Quietly (enter s) fun a s' => post a (leave s') := .rfl

theorem quietly_zoom {post : α → σ → Prop} (l : Lens σ τ) (x : Action τ α) :
    (zoom l x).Quietly s post ↔ x.Quietly (l.get s) fun a t => post a (l.set t s) := .rfl

theorem Quietly.within {x : Action σ α} {post : α → σ → Prop} (h : x.Quietly s post)
    (span : Span) : (within span x).Quietly s post := ⟨h.1, Note.silent_span h.2⟩

/-- Both actions have to be quiet. -/
theorem quietly_bind {post : β → σ → Prop} (x : Action σ α) (f : α → Action σ β) :
    (x >>= f).Quietly s post ↔ x.Quietly s fun a s' => (f a).Quietly s' post := by
  unfold Quietly
  rw [gives_bind]
  unfold Gives Leaves
  rw [run_bind]
  rcases (x.run s).result with fault | a
  · simp
  · simp only [Except.ok.injEq, exists_eq_left', Note.silent_append]
    exact ⟨fun ⟨hpost, hx, hf⟩ => ⟨⟨hpost, hf⟩, hx⟩, fun ⟨⟨hpost, hf⟩, hx⟩ => ⟨hpost, hx, hf⟩⟩

/-- What each element keeps true quietly, all of them do. -/
theorem quietly_each {f : β → Action σ Unit} {bs : List β} {p : σ → Prop}
    (step : ∀ b ∈ bs, ∀ s, p s → (f b).Quietly s fun _ s' => p s') (h : p s) :
    (each f bs).Quietly s fun _ s' => p s' := by
  induction bs generalizing s with
  | nil => exact (quietly_pure ()).mpr h
  | cons b bs ih =>
    rw [each_cons, quietly_bind]
    refine (step b List.mem_cons_self s h).mono fun _ s' hs' => ?_
    exact ih (fun b' hb' => step b' (List.mem_cons_of_mem _ hb')) hs'

end Action

end UndoJournal
