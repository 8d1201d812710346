import UndoJournal.Proofs.Outline.Rows
import UndoJournal.Proofs.Screen.Push
import UndoJournal.Proofs.Session.Keeping

/-!
# Views that are misled

A link that is connected and not stale takes the rows of its view for those of the timeline. Where
they are not, the view is **misled** (`Screen.Misled`): nothing tells the next update to show the
rows anew, so a push can succeed and leave them wrong.

* `Screen.misled_follow_iff` is the law of one push, whatever its result: what misleads a view is a
  rebuild that breaks down, because a link that was not stale before does not get stale by it.
* An update of the timeline whose rows are shown misleads nobody (`Screen.lasts_not_misled`).
-/

namespace UndoJournal

/-- The entries of a timeline as rows speak of them: identity, place and description, in order. -/
def Timeline.listing (t : Timeline) : List (RowKey × Position × String) :=
  t.placed.map fun p => (.entry p.entry.id, .on p.address, p.entry.event.description)

/-- The rows behind the sentinel are those of the entries of a timeline. -/
def Outline.Mirrors (o : Outline) (t : Timeline) : Prop :=
  o.rows.tail.map (fun r => (r.key, r.position, r.label)) = t.listing

instance (o : Outline) (t : Timeline) : Decidable (o.Mirrors t) :=
  inferInstanceAs (Decidable (_ = _))

/-- The rows are those of the timeline that is shown. -/
theorem Outline.mirrors_iff {o : Outline} {t : Timeline} :
    o.Mirrors t ↔ o.shown.listing = t.listing := by
  have hrows : (fun r : Row => (r.key, r.position, r.label)) ∘
      (fun p : Placed × Nat => Row.ofPlaced p.1 p.2) =
      (fun p : Placed => (RowKey.entry p.entry.id, Position.on p.address,
        p.entry.event.description)) ∘ Prod.fst := rfl
  rw [Mirrors, rows, List.tail_cons, rowsOf, List.map_map]
  change List.map ((fun r : Row => (r.key, r.position, r.label)) ∘
    (fun p : Placed × Nat => Row.ofPlaced p.1 p.2)) _ = _ ↔ _
  rw [hrows, ← List.map_map, List.zipIdx_map_fst]
  exact Iff.rfl

namespace Screen

/-- The link takes the rows for those of the timeline, and they are not. -/
def Misled (t : Timeline) (s : Screen) : Prop :=
  s.link.disconnected = false ∧ s.link.stale = false ∧ ¬ s.widget.outline.Mirrors t

instance (t : Timeline) (s : Screen) : Decidable (s.Misled t) :=
  inferInstanceAs (Decidable (_ ∧ _ ∧ ¬ _))

/-- The next rebuild that a link asks for breaks down, and the link is not stale. -/
structure Undermined (s : Screen) : Prop where
  connected : s.link.disconnected = false
  heeding : s.link.paused = false
  fresh : s.link.stale = false
  planned : s.breakage? = some (.rebuild, .collapse)

variable {s s' : Screen} {t t' : Timeline} {u : CursorUpdate}

/-- What is misled after a push that showed the rows anew if that was due. -/
private theorem misled_of_refreshed (hframed : s.Framed s') (hd : s.link.disconnected = false)
    (hstale : s'.link.stale = false)
    (hshown : s'.widget.outline.shown = if s.due u then t else s.widget.outline.shown) :
    s'.Misled t ↔ u.reshaped = false ∧ s.link.stale = false ∧ ¬ s.widget.outline.Mirrors t := by
  have hd' : s'.link.disconnected = false := by
    rw [hframed.link]
    exact hd
  rw [Misled, Outline.mirrors_iff, Outline.mirrors_iff, hshown]
  rcases hdue : s.due u with _ | _
  · obtain ⟨hr, hs⟩ := due_eq_false_iff.mp hdue
    simp [hd', hstale, hr, hs]
  · have hnot : u.reshaped = false → s.link.stale = true := by
      intro hr
      simpa [due, hr] using hdue
    simp only [if_true, not_true_eq_false, and_false, false_iff]
    rintro ⟨hr, hs, -⟩
    cases (hnot hr).symm.trans hs

/-- **The law of one push**: a view is misled after it exactly if it was connected and not paused,
the link was not stale, the rows were not those of the timeline, the push did not fail, and if the
rows were to be shown anew, it was in this that it broke down. -/
theorem misled_follow_iff (t : Timeline) (u : CursorUpdate) (s : Screen) :
    (Stage.alone.follow t u).Leaves s fun result s' => s'.Misled t ↔
      s.Misled t ∧ s.link.paused = false ∧ (∀ e, result ≠ .ok (.error e)) ∧
        (u.reshaped = true → result = .error (.brokenView .rebuild)) := by
  rcases hd : s.link.disconnected with _ | _
  case true =>
    refine (leaves_follow_of_disconnected hd).mono ?_
    rintro _ _ ⟨rfl, rfl⟩
    simp [Misled, hd]
  rcases hp : s.link.paused with _ | _
  case true =>
    refine (leaves_follow_of_paused hd hp).mono ?_
    rintro _ _ ⟨rfl, rfl⟩
    simp [Misled, onLink, Link.skip]
  refine (leaves_follow hd hp).mono ?_
  rintro (fault | e | ⟨⟩) s' ⟨hframed, -, hdone⟩
  · -- a rebuild that breaks down leaves rows and staleness, any other call the rows of the rebuild
    obtain ⟨-, ⟨rfl, -, hstale, ho⟩ | ⟨op, hop, rfl, hstale, hshown⟩⟩ := hdone
    · have hd' : s'.link.disconnected = s.link.disconnected := by rw [hframed.link]
      simp [Misled, hd', hstale, ho]
    · rw [misled_of_refreshed hframed hd hstale (hshown.trans (shown_refreshed s t u))]
      simp [Misled, hd, hop, and_comm]
  · simp [Misled, hdone.1]
  · rw [misled_of_refreshed hframed hd hdone.1 hdone.shown_eq]
    simp [Misled, hd, and_comm]

/-- **A push that succeeds leaves the rows of the timeline**, unless it found a misled view and was
not to show the rows anew. -/
theorem mirrors_of_follow_iff (t : Timeline) (u : CursorUpdate) (s : Screen) :
    (Stage.alone.follow t u).Leaves s fun result s' =>
      s.link.paused = false → result = .ok (.ok ()) →
        (s'.widget.outline.Mirrors t ↔ u.reshaped = true ∨ ¬ s.Misled t) := by
  intro hp hok
  have hlaw := misled_follow_iff t u s
  obtain ⟨hd, hframed, hstale, -⟩ := pushed_of_follow_ok (t := t) (u := u) hp hok
  have hgone : ((Stage.alone.follow t u).run s).state.link.disconnected = false := by
    rw [hframed.link]
    exact hd
  rw [Action.Leaves, hok] at hlaw
  generalize ((Stage.alone.follow t u).run s).state = s' at hlaw hstale hgone ⊢
  -- behind a push that succeeded, being misled is having the wrong rows
  have hmisled : s'.Misled t ↔ ¬ s'.widget.outline.Mirrors t := by simp [Misled, hgone, hstale]
  rw [hmisled] at hlaw
  rcases hr : u.reshaped with _ | _
  · have hlaw' : ¬ s'.widget.outline.Mirrors t ↔ s.Misled t := by simpa [hp, hr] using hlaw
    simpa using (not_iff_comm.mp hlaw').symm
  · simpa [hr] using hlaw

/-- **A view that is not misled gets misled by one thing alone**: an update that changes the
timeline, of a link that is undermined. -/
theorem misled_iff_undermined (hgood : ¬ s.Misled t) (ht : u.reshaped = false → t' = t) :
    (Stage.alone.follow t' u).Leaves s fun _ s' =>
      s'.Misled t' ↔ s.Undermined ∧ t'.listing ≠ t.listing := by
  have hlaw := misled_follow_iff t' u s
  have hreshaped : t'.listing ≠ t.listing → u.reshaped = true := fun hne => by
    by_contra hr
    rw [ht (by simpa using hr)] at hne
    exact hne rfl
  -- behind a link that is not stale, the rows are those of the timeline before
  have hlisting : s.link.disconnected = false → s.link.stale = false →
      (s.widget.outline.Mirrors t' ↔ t'.listing = t.listing) := fun hd hs => by
    have hmirrors : s.widget.outline.Mirrors t := by
      by_contra hnot
      exact hgood ⟨hd, hs, hnot⟩
    rw [Outline.mirrors_iff, Outline.mirrors_iff.mp hmirrors, eq_comm]
  refine hlaw.trans ⟨?_, ?_⟩
  · rintro ⟨⟨hd, hs, hnot⟩, hp, -, hbroken⟩
    have hne : t'.listing ≠ t.listing := fun h => hnot ((hlisting hd hs).mpr h)
    obtain ⟨-, hbreaks, -⟩ := leaves_follow (t := t') (u := u) hd hp
    exact ⟨⟨hd, hp, hs, (hbreaks.mp (hbroken (hreshaped hne))).2⟩, hne⟩
  · rintro ⟨⟨hd, hp, hs, hplanned⟩, hne⟩
    obtain ⟨-, hbreaks, -⟩ := leaves_follow (t := t') (u := u) hd hp
    have hdue : s.due u = true := by rw [due, hreshaped hne, Bool.true_or]
    have hbroken := hbreaks.mpr ⟨hdue, hplanned⟩
    refine ⟨⟨hd, hs, fun h => hne ((hlisting hd hs).mp h)⟩, hp, fun e h => ?_, fun _ => hbroken⟩
    cases hbroken.symm.trans h

/-- A view that is not misled stays so through updates of its timeline and acts of its user. -/
theorem lasts_not_misled : Lasts fun t s => ¬ s.Misled t where
  follow t u s h := by
    refine (misled_iff_undermined h fun _ => rfl).mono fun _ s' hs' hmisled => ?_
    exact (hs'.mp hmisled).2 rfl
  overhear _ _ _ h := h
  outline t s o h ho := by
    rintro ⟨hd, hs, hnot⟩
    refine h ⟨hd, hs, fun hm => hnot ?_⟩
    rw [Outline.mirrors_iff] at hm ⊢
    exact ho ▸ hm

end Screen

end UndoJournal
