import UndoJournal.Proofs.Action.Checked
import UndoJournal.Proofs.Outline.Commands
import UndoJournal.Screen.Follow

/-!
# What the gestures of a user keep

A gesture of a user changes the outline and fires signals, each of which is written down and may be
responded to. So **what survives the responses survives the gestures**, whatever the gesture and
however many signals it fires (`Stage.Bears`).

The same goes for two ways of responding to a user that do the same: then every gesture does the
same (`Stage.Agrees`), as long as what they rely on survives the changes of the outline that the
gesture can make.

Where an emission calls the link at most once, it is still as the emission found it when it is
called, so a response can rely on more than what survives it (`Stage.Serves`).
-/

namespace UndoJournal

namespace Wiring

variable {σ κ : Type} {w w' : Wiring σ κ} {p : σ → Prop}

/-- Make a gesture; whether an expander changed something comes along. -/
def make (w : Wiring σ κ) : Gesture → Action σ (Except ViewError Bool)
  | .click index => do
    let answer ← w.click index
    pure (answer.map fun _ => false)
  | .expand index => w.expandRow index
  | .collapse index => w.collapseRow index
  | .toggle index => w.toggleRow index

/-- A gesture is carried out as what it comes to. -/
theorem make_eq_use (w : Wiring σ κ) (g : Gesture) : w.make g = w.use fun o => o.respond g := by
  cases g with
  | click index =>
    simp only [make, click, use, outline, bind_assoc, pure_bind, Outline.respond]
    refine bind_congr fun s => ?_
    rcases (w.widget.get s).outline.click index with e | r <;>
      simp only [Except.map, bind_assoc, pure_bind]
  | expand index => rfl
  | collapse index => rfl
  | toggle index => rfl

/-- Two wirings of one widget see the same outline. -/
private theorem agree_look {α : Type} (hw : w'.widget = w.widget) {f g : Outline → Action σ α}
    (h : ∀ o, Action.Confined Lens.whole (fun s => p s ∧ (w.widget.get s).outline = o) p
      (f o) (g o)) : Action.Agree p (w.outline >>= f) (w'.outline >>= g) := by
  have hlook : w'.outline = w.outline := by rw [outline, outline, hw]
  rw [Action.agree_iff_confined, hlook]
  refine Action.Confined.whole_read_bind (v := fun s => (w.widget.get s).outline)
    (fun _ => rfl) fun s hs => ?_
  exact (h _).mono (by rintro _ rfl; exact ⟨hs, rfl⟩) fun _ h' => h'

variable (hw : w'.widget = w.widget)

include hw

private theorem agree_perform (command : ViewCommand)
    (h : ∀ o r, o.perform command = .ok r → Action.Confined Lens.whole
      (fun s => p s ∧ (w.widget.get s).outline = o) p (w.enact r) (w'.enact r)) :
    Action.Agree p (w.perform command) (w'.perform command) := by
  refine agree_look hw fun o => ?_
  split
  · exact .of_leaves fun _ hs => hs.1
  · exact .bind Lens.lawful_whole (h _ _ ‹_›) (fun _ h' => h') fun _ => Action.Agree.pure _

theorem agree_click (index : Nat)
    (h : ∀ o r, o.click index = .ok r → Action.Confined Lens.whole
      (fun s => p s ∧ (w.widget.get s).outline = o) p (w.enact r) (w'.enact r)) :
    Action.Agree p (w.click index) (w'.click index) := by
  refine agree_look hw fun o => ?_
  split
  · exact .of_leaves fun _ hs => hs.1
  · exact .bind Lens.lawful_whole (h _ _ ‹_›) (fun _ h' => h') fun _ => Action.Agree.pure _

theorem agree_use {gesture : Outline → Except ViewError (Bool × Response)}
    (h : ∀ o changed r, gesture o = .ok (changed, r) → Action.Confined Lens.whole
      (fun s => p s ∧ (w.widget.get s).outline = o) p (w.enact r) (w'.enact r)) :
    Action.Agree p (w.use gesture) (w'.use gesture) := by
  refine agree_look hw fun o => ?_
  split
  · exact .of_leaves fun _ hs => hs.1
  · exact .bind Lens.lawful_whole (h _ _ _ ‹_›) (fun _ h' => h') fun _ => Action.Agree.pure _

end Wiring

namespace Stage

variable {σ : Type}

/-- The stage with another way of responding to the user. -/
def responding (st : Stage σ) (respond : UserAct → Action σ Unit) : Stage σ :=
  { st with respond := respond }

/-- Where `p` holds, a stage and another way of responding do the same, and what is true survives
signals, the responses to them, and the changes of the outline that are allowed. -/
structure Agrees (st : Stage σ) (respond : UserAct → Action σ Unit)
    (allowed : Outline → Outline → Prop) (p : σ → Prop) : Prop where
  overhear : ∀ signal, Action.Keeps p (st.change (Screen.overhear signal))
  respond : ∀ act, Action.Agree p (st.respond act) (respond act)
  outline : ∀ s o, p s → allowed (st.screen.get s).widget.outline o →
    p ((st.wiring.widget.comp Widget.outlineLens).set o s)

namespace Agrees

variable {st : Stage σ} {respond : UserAct → Action σ Unit} {allowed : Outline → Outline → Prop}
  {p : σ → Prop} (h : st.Agrees respond allowed p)

include h

private theorem agree_call (listener : Listener) (signal : Signal) :
    Action.Agree p (st.call listener signal) ((st.responding respond).call listener signal) := by
  cases listener with
  | other number => exact Action.Agree.pure ()
  | link =>
    refine Action.Agree.bind (.of_keeps (h.overhear signal)) fun _ => ?_
    refine Action.Agree.bind (.of_keeps fun _ hs => hs) fun s => ?_
    split
    · exact Action.Agree.report _
    · split
      · exact Action.Agree.pure ()
      · exact h.respond _

private theorem agree_emit (signal : Signal) :
    Action.Agree p (Hub.emit (st.wiring.widget.comp Widget.hubLens) st.call signal)
      (Hub.emit (st.wiring.widget.comp Widget.hubLens) (st.responding respond).call signal) := by
  refine Action.Agree.read_bind (fun _ => rfl) fun s => ?_
  exact Action.Agree.bind (Action.Agree.report _) fun _ =>
    Action.Agree.each fun listener => h.agree_call listener signal

private theorem confined_enact {o : Outline} {r : Response} (hr : allowed o r.outline) :
    Action.Confined Lens.whole (fun s => p s ∧ (st.screen.get s).widget.outline = o) p
      (st.wiring.enact r) ((st.responding respond).wiring.enact r) := by
  refine Action.Confined.bind Lens.lawful_whole
    (.of_leaves fun s hs => (Action.leaves_modify _).mpr (h.outline s _ hs.1 (hs.2 ▸ hr)))
    (fun _ hs => hs) fun _ => ?_
  exact Action.Agree.bind (Action.Agree.report _) fun _ =>
    Action.Agree.each fun signal => h.agree_emit signal

theorem agree_perform (command : ViewCommand)
    (hallowed : ∀ o r, o.perform command = .ok r → allowed o r.outline) :
    Action.Agree p (st.wiring.perform command) ((st.responding respond).wiring.perform command) :=
  Wiring.agree_perform (by rfl) command fun _ _ hr => h.confined_enact (hallowed _ _ hr)

theorem agree_click (index : Nat)
    (hallowed : ∀ o r, o.click index = .ok r → allowed o r.outline) :
    Action.Agree p (st.wiring.click index) ((st.responding respond).wiring.click index) :=
  Wiring.agree_click (by rfl) index fun _ _ hr => h.confined_enact (hallowed _ _ hr)

theorem agree_use {gesture : Outline → Except ViewError (Bool × Response)}
    (hallowed : ∀ o changed r, gesture o = .ok (changed, r) → allowed o r.outline) :
    Action.Agree p (st.wiring.use gesture) ((st.responding respond).wiring.use gesture) :=
  Wiring.agree_use (by rfl) fun _ _ _ hr => h.confined_enact (hallowed _ _ _ hr)

theorem agree_make (g : Gesture)
    (hallowed : ∀ o changed r, o.respond g = .ok (changed, r) → allowed o r.outline) :
    Action.Agree p (st.wiring.make g) ((st.responding respond).wiring.make g) := by
  rw [Wiring.make_eq_use, Wiring.make_eq_use]
  exact h.agree_use hallowed

end Agrees

/-- What is true of a state survives signals, the responses to them, and changes of the outline that
show no other timeline. -/
structure Bears (st : Stage σ) (p : σ → Prop) : Prop where
  overhear : ∀ signal, Action.Keeps p (st.change (Screen.overhear signal))
  respond : ∀ act, Action.Keeps p (st.respond act)
  outline : ∀ s o, p s → o.shown = (st.screen.get s).widget.outline.shown →
    p ((st.wiring.widget.comp Widget.outlineLens).set o s)

namespace Bears

variable {st : Stage σ} {p : σ → Prop} (h : st.Bears p)

include h

/-- A stage agrees with itself about what it bears. -/
theorem agrees : st.Agrees st.respond (fun o o' => o'.shown = o.shown) p :=
  ⟨h.overhear, fun act => .of_keeps (h.respond act), h.outline⟩

theorem keeps_click (index : Nat) : Action.Keeps p (st.wiring.click index) :=
  (h.agrees.agree_click index fun _ _ hr => (Outline.stays_click hr).shown).keeps

private theorem keeps_use {gesture : Outline → Except ViewError (Bool × Response)}
    (hstays : ∀ o changed r, gesture o = .ok (changed, r) → r.Stays o) :
    Action.Keeps p (st.wiring.use gesture) :=
  (h.agrees.agree_use fun o changed r hr => (hstays o changed r hr).shown).keeps

theorem keeps_expandRow (index : Nat) : Action.Keeps p (st.wiring.expandRow index) :=
  h.keeps_use fun _ _ _ => Outline.stays_expandRow

theorem keeps_collapseRow (index : Nat) : Action.Keeps p (st.wiring.collapseRow index) :=
  h.keeps_use fun _ _ _ => Outline.stays_collapseRow

end Bears

/-- While `p` is true, an emission calls the link at most once, and only while `q` is; and `p`
survives the call. -/
structure Serves (st : Stage σ) (p q : σ → Prop) : Prop where
  receivers : ∀ signal s, p s →
    ((st.screen.get s).widget.hub.receivers signal).Pairwise (fun x y => x = .link → y ≠ .link) ∧
      (.link ∈ (st.screen.get s).widget.hub.receivers signal → q s)
  overhear : ∀ signal s, p s → q s →
    p (st.screen.modify (Screen.overhear signal) s) ∧
      q (st.screen.modify (Screen.overhear signal) s)
  respond : ∀ act s, p s → q s → (st.respond act).Leaves s fun _ s' => p s'

namespace Serves

variable {st : Stage σ} {p q : σ → Prop} (h : st.Serves p q) {s : σ}

include h

private theorem leaves_call (signal : Signal) (hp : p s) (hq : q s) :
    (st.call .link signal).Leaves s fun _ s' => p s' := by
  obtain ⟨hp', hq'⟩ := h.overhear signal s hp hq
  simp only [call, change, look, Action.leaves_bind, Action.leaves_modify, Action.leaves_get,
    Action.leaves_pure]
  split
  · exact hp'
  · split
    · exact hp'
    · exact h.respond _ _ hp' hq'

/-- Nothing happens before the link is called, and it is not called again. -/
private theorem leaves_each_call (signal : Signal) {listeners : List Listener}
    (honce : listeners.Pairwise fun x y => x = .link → y ≠ .link) (hq : .link ∈ listeners → q s)
    (hp : p s) : (Action.each (fun listener => st.call listener signal) listeners).Leaves s
      fun _ s' => p s' := by
  -- the link is called at one point, and the others around it leave the state alone
  induction listeners generalizing s with
  | nil => exact hp
  | cons listener listeners ih =>
    obtain ⟨hfirst, hrest⟩ := List.pairwise_cons.mp honce
    rw [Action.each_cons, Action.leaves_bind]
    cases listener with
    | other number => exact ih hrest (fun hmem => hq (List.mem_cons_of_mem _ hmem)) hp
    | link =>
      refine (h.leaves_call signal hp (hq List.mem_cons_self)).mono ?_
      rintro (fault | ⟨⟩) s' hp'
      · exact hp'
      · exact ih hrest (fun hmem => absurd rfl (hfirst _ hmem rfl)) hp'

private theorem keeps_emit (signal : Signal) :
    Action.Keeps p (Hub.emit (st.wiring.widget.comp Widget.hubLens) st.call signal) := by
  refine Action.Keeps.get_bind fun s hp => ?_
  obtain ⟨honce, hq⟩ := h.receivers signal s hp
  exact h.leaves_each_call signal honce hq hp

private theorem leaves_enact {α : Type} {r : Response} (a : α)
    (hp : p ((st.wiring.widget.comp Widget.outlineLens).set r.outline s)) :
    (st.wiring.enact r >>= fun _ => pure a).Leaves s fun _ s' => p s' := by
  simp only [Wiring.enact, Action.leaves_bind, Action.leaves_modify, Action.leaves_report]
  refine (Action.Keeps.each (fun signal _ => h.keeps_emit signal) _ hp).mono ?_
  rintro (fault | ⟨⟩) s' hp' <;> exact hp'

theorem leaves_perform {command : ViewCommand} (hp : p s)
    (hset : ∀ r, (st.screen.get s).widget.outline.perform command = .ok r →
      p ((st.wiring.widget.comp Widget.outlineLens).set r.outline s)) :
    (st.wiring.perform command).Leaves s fun _ s' => p s' := by
  simp only [Wiring.perform, Wiring.outline, Action.leaves_bind, Action.leaves_get,
    Action.leaves_pure]
  split
  · exact hp
  · exact h.leaves_enact _ (hset _ ‹_›)

private theorem leaves_use {gesture : Outline → Except ViewError (Bool × Response)} (hp : p s)
    (hset : ∀ changed r, gesture (st.screen.get s).widget.outline = .ok (changed, r) →
      p ((st.wiring.widget.comp Widget.outlineLens).set r.outline s)) :
    (st.wiring.use gesture).Leaves s fun _ s' => p s' := by
  simp only [Wiring.use, Wiring.outline, Action.leaves_bind, Action.leaves_get,
    Action.leaves_pure]
  split
  · exact hp
  · exact h.leaves_enact _ (hset _ _ ‹_›)

theorem leaves_make {g : Gesture} (hp : p s)
    (hset : ∀ changed r, (st.screen.get s).widget.outline.respond g = .ok (changed, r) →
      p ((st.wiring.widget.comp Widget.outlineLens).set r.outline s)) :
    (st.wiring.make g).Leaves s fun _ s' => p s' := by
  rw [Wiring.make_eq_use]
  exact h.leaves_use hp hset

end Serves

end Stage

end UndoJournal
