import UndoJournal.Proofs.Journal.Update
import UndoJournal.Proofs.Desk.Telling
import UndoJournal.Desk.Recorder

/-!
# A desk under any requests

`Desk.Request` is what the caller of a journal can ask of it: to hear a notice, to be muted, to have
its cursor placed, and to have followers attached, detached and told again. A flat stack heeds the
same requests (`Stack.heed`), of which **followers are no part**.

Whatever is asked, in whatever order, and whatever the followers answer, the journal meets no fault
and mirrors the stack (`Desk.each_ask_mirrors`). The one thing a caller has to see to is that the
cursor is only placed where the timeline has a position (`Desk.Permits`).
-/

namespace UndoJournal

/-- What the caller of a journal can ask of it. -/
inductive Desk.Request (φ : Type) where
  /-- Hear a notice. -/
  | hear (notice : Notice)
  /-- Ignore or heed undo and redo notices. -/
  | mute (muted : Bool)
  /-- Put the cursor somewhere. -/
  | place (p : Position)
  /-- Attach a follower in the place of the one before. -/
  | attach (follower : φ)
  /-- Detach the follower. -/
  | detach
  /-- Tell the follower the whole state again. -/
  | resync

namespace Stack

variable {φ : Type}

/-- Heed a request of the caller of a journal with that timeline. -/
def heed (t : Timeline) (s : Stack) : Desk.Request φ → Stack
  | .hear notice => s.hear notice
  | .mute muted => { s with muted := muted }
  | .place p =>
    match t.ordinal p with
    | .ok n => { s with applied := n }
    | .error _ => s
  | .attach _ | .detach | .resync => s

end Stack

namespace Desk

variable {φ ω : Type} (f : Following φ ω)

/-- Ask something of a journal with a follower. -/
def ask : Request φ → Action (Desk φ ω) Unit
  | .hear notice => hear f notice
  | .mute muted => mute muted
  | .place p => place p
  | .attach follower => attach f follower
  | .detach => do
    let _ ← detach
    pure ()
  | .resync => resync f

/-- Whether the cursor can be placed, if that is asked. -/
def Request.Fits (t : Timeline) : Request φ → Prop
  | .place p => t.contains p = true
  | _ => True

/-- Whether the cursor is only placed where the timeline of the moment has a position. -/
def Permits : Desk φ ω → List (Request φ) → Prop
  | _, [] => True
  | d, r :: rs => r.Fits d.journal.timeline ∧ Permits ((ask f r).run d).state rs

/-- The stack after it has heeded the requests that are asked of a desk. -/
def stackAfter : Desk φ ω → Stack → List (Request φ) → Stack
  | _, s, [] => s
  | d, s, r :: rs => stackAfter ((ask f r).run d).state (s.heed d.journal.timeline r) rs

variable {f}

/-- Wherever the cursor is to be placed, journal and some stack stay together, and the timeline
stays. -/
theorem leaves_place {d : Desk φ ω} {s : Stack} (h : d.journal.Traces s) (p : Position) :
    (place p : Action (Desk φ ω) Unit).Leaves d fun _ d' => ∃ j s',
      d' = { d with journal := j } ∧ j.Traces s' ∧ j.timeline = d.journal.timeline := by
  simp only [place, Journal.placing, Action.leaves_zoom, Action.leaves_bind, Action.leaves_get,
    Action.leaves_ofExcept]
  rcases hr : (journalLens.get d).place p with fault | r
  · exact ⟨d.journal, s, rfl, h, rfl⟩
  · obtain ⟨s', htraces⟩ := h.of_place hr
    simp only [Action.leaves_modify, Action.leaves_report]
    refine ⟨r.journal, s', rfl, htraces, ?_⟩
    rw [(Journal.place_eq_ok hr).1]
    rfl

/-- **One request** leaves journal and stack together. -/
theorem ask_traces (hf : f.Answers) {d : Desk φ ω} {s : Stack} (h : d.journal.Traces s)
    {r : Request φ} (hr : r.Fits d.journal.timeline) :
    (ask f r).Gives d fun _ d' => d'.journal.Traces (s.heed d.journal.timeline r) := by
  cases r with
  | hear notice =>
    obtain ⟨r, hhear, htraces⟩ := h.hear notice
    simp only [ask, hear, Action.gives_bind, Action.gives_get, hhear]
    exact (gives_enact_of_answers hf r d).mono fun _ d' hd => hd ▸ htraces
  | mute muted =>
    simp only [ask, mute, Action.gives_modify]
    exact h.mute muted
  | place p =>
    obtain ⟨n, hn⟩ := Timeline.contains_iff_exists_ordinal.mp hr
    obtain ⟨r, hplace, htraces⟩ := h.place hn
    have hheed : s.heed d.journal.timeline (.place p : Request φ) = { s with applied := n } := by
      simp [Stack.heed, hn]
    simp only [ask, place, Journal.placing, Action.gives_zoom, Action.gives_bind, Action.gives_get,
      Action.gives_ofExcept, Action.gives_modify, Action.gives_report, hheed]
    exact ⟨r, hplace, htraces⟩
  | attach follower =>
    exact (gives_attach hf follower d).mono fun _ d' hd => hd ▸ h
  | detach =>
    simp only [ask, Action.gives_bind, Action.gives_pure]
    exact (gives_detach d).mono fun _ d' hd => hd.2 ▸ h
  | resync =>
    simp only [ask, resync, Action.gives_bind, Action.gives_get]
    exact (gives_tell hf _ d).mono fun _ d' hd => hd ▸ h

/-- Any permitted requests leave journal and stack together. -/
private theorem each_ask_traces (hf : f.Answers) {d : Desk φ ω} {s : Stack} (h : d.journal.Traces s)
    {rs : List (Request φ)} (hp : Permits f d rs) :
    (Action.each (ask f) rs).Gives d fun _ d' => d'.journal.Traces (stackAfter f d s rs) := by
  induction rs generalizing d s with
  | nil => simpa [stackAfter] using h
  | cons r rs ih =>
    obtain ⟨hfits, hrest⟩ := hp
    rw [Action.each_cons, Action.gives_bind]
    have hstep := ask_traces hf h hfits
    -- the rest is asked of the desk that the first request left
    exact ⟨(), hstep.choose_spec.1, ih hstep.choose_spec.2 hrest⟩

/-- Whatever is asked of it, a journal has its cursor on a position of its timeline. -/
theorem each_ask_contains (hf : f.Answers) (settings : Settings) (around : ω)
    (rs : List (Request φ)) (hp : Permits f (empty settings around) rs) :
    (Action.each (ask f) rs).Gives (empty settings around) fun _ d =>
      d.journal.timeline.contains d.journal.cursor = true :=
  (each_ask_traces hf (Journal.traces_empty settings) hp).mono fun _ _ h => h.contains_cursor

/-- **A journal refines a flat undo stack.** From an empty journal without a follower, whatever is
asked of it, it meets no fault, and in everything it can be asked it mirrors the stack that heeded
the same requests. -/
theorem each_ask_mirrors (hf : f.Answers) (settings : Settings) (around : ω)
    (rs : List (Request φ)) (hp : Permits f (empty settings around) rs) :
    (Action.each (ask f) rs).Gives (empty settings around) fun _ d =>
      d.journal.Mirrors (stackAfter f (empty settings around) .empty rs) :=
  (each_ask_traces hf (Journal.traces_empty settings) hp).mono fun _ _ h => h.mirrors

end Desk

/-- Recorders answer whatever they are asked. -/
theorem Recorder.following_answers : Recorder.following.Answers where
  follow r t u w := by
    simp only [following, follow, write, Action.gives_bind, Action.gives_modify, Action.gives_pure]
  detached r w := by simp only [following, write, Action.gives_modify]
  dropped r w := by simp only [following, Action.gives_pure]

/-- Two commits under one number, an undo that names another, an undo that fits, and a cursor that
is placed by hand, before a recorder whose view always fails. -/
theorem Desk.each_ask_mirrors_recorder :
    let e : Event := ⟨⟨0⟩, "Edit", "typing"⟩
    let rs : List (Request Recorder) :=
      [.attach ⟨"view", .failing⟩, .hear (.committed e), .hear (.committed e),
        .hear (.undone ⟨⟨7⟩, "Edit", ""⟩), .hear (.undone e), .mute true, .place .start, .resync]
    (Action.each (ask Recorder.following) rs).Gives (empty {} []) fun _ d =>
      d.journal.Mirrors ⟨[e, e], 0, true⟩ := by
  intro e rs
  exact each_ask_mirrors Recorder.following_answers {} [] rs
    ⟨trivial, trivial, trivial, trivial, trivial, trivial, rfl, trivial, trivial⟩

end UndoJournal
