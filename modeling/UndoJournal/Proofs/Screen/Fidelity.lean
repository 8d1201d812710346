import UndoJournal.Proofs.Screen.Chronicle

/-!
# A screen that answers well shows the journal

Rows are only shown anew when an update says that entries came or went, or when the link is stale,
so whether a push leaves the right rows depends on all that went before it. What carries it from
push to push is that **while the screen is attached and its link is neither stale nor disconnected,
it shows the timeline of the journal** (`Chronicle.Inv.rows`). That is kept

* by notices, since a journal announces every change of its timeline;
* by pauses and by commands that fail, since both leave the link stale;
* while the screen is detached, since attaching it shows all rows anew or leaves the link stale.

So whatever is asked of the journal and of the screen, by a program, by a user, and by those who
handle the acts of the user, **every push that went well shows the timeline and presents the
cursor** (`Chronicle.faithful_of_after`).
-/

namespace UndoJournal

/-- An outline shows a timeline with its cursor: it has one row behind the sentinel for each entry,
in order, with what there is to say about it, and it presents the position of the cursor. -/
structure Outline.Shows (o : Outline) (t : Timeline) (p : Position) (scroll : Bool) : Prop
    extends o.Presents p scroll where
  length : o.rows.length = t.size + 1
  row : ∀ i x, t.placed[i]? = some x → ∃ r, o.rows[i + 1]? = some r ∧
    r.key = .entry x.entry.id ∧ r.position = .on x.address ∧
    r.label = x.entry.event.description ∧ r.ordinal = i + 1 ∧ r.childCount = x.childCount ∧
    (r.endsRun = true ↔ ∃ run, t.runs[x.address.group]? = some run ∧
      x.address.isChild = true ∧ x.address.reach = run.size)

/-- What shows the timeline and presents the position shows both. -/
private theorem Outline.Presents.shows {o : Outline} {t : Timeline} {p : Position} {scroll : Bool}
    (h : o.Presents p scroll) (ht : o.shown = t) : o.Shows t p scroll where
  toPresents := h
  length := ht ▸ o.length_rows
  row i x hx := by
    refine ⟨Row.ofPlaced x (i + 1), ?_, rfl, rfl, rfl, rfl, rfl, ?_⟩
    · rw [o.getElem?_rows_succ, ht, hx]
      rfl
    · exact Timeline.endsRun_iff_of_mem_placed (List.mem_of_getElem? hx)

/-- **A push that succeeds leaves the right picture**, if the rows were right where they were not
shown anew. -/
theorem Screen.Pushed.shows {s s' : Screen} {t : Timeline} {u : CursorUpdate} (hn : t.Numbered)
    (hrows : s.due u = false → s.widget.outline.shown = t)
    (h : s.Pushed t u (.ok (.ok ())) s') :
    s'.widget.outline.Shows t u.current s.link.settings.scrollToCurrent := by
  refine Outline.Presents.shows ?_ (h.shown hrows)
  obtain ⟨-, hplan⟩ := h
  -- what is planned shows no rows anew, so they stay those of the timeline
  have hshown := shown_refreshed_eq hrows
  obtain ⟨o, hcollapse, hfollow⟩ := Outline.performAll_append_eq_ok.mp hplan
  have ho : o.shown = t := by
    refine (Outline.shown_of_performAll (fun c hc => ?_) hcollapse).trans hshown
    obtain ⟨group, -, rfl⟩ := List.mem_map.mp hc
    exact nofun
  rcases hcurrent : u.current with _ | a <;> simp only [hcurrent, Link.following] at hfollow
  · have hclear : o.clearSelection.outline = s'.widget.outline := Except.ok.inj hfollow
    exact hclear ▸ o.presents_clearSelection _
  · exact Outline.presents_of_performAll (ho ▸ hn) hfollow

/-- An update that was not skipped, and that the screen answered well, leaves the right picture. -/
private theorem Episode.Sound.shows {x : Episode} {older : List Episode} (h : x.Sound older)
    (hp : x.before.link.paused = false) (hok : x.answer = .ok ()) :
    x.after.widget.outline.Shows x.timeline x.update.current
      x.after.link.settings.scrollToCurrent := by
  obtain ⟨hd, hframed, hpushed⟩ := h.of_leaves (Screen.pushed_of_follow_ok hp) (by rw [hok])
  rw [hframed.link]
  exact hpushed.shows h.numbered (h.rows_of_due hd)

namespace Chronicle

/-- **Every push that succeeds leaves the view equal to the journal**, whatever was asked before, of
whom, in whatever order, and whatever failed: an update that was told to the screen while it was not
paused, and that it answered well, left rows that are those of the timeline that was told, in order,
and the cursor presented; and what a request has the screen told is the journal as it is then. -/
theorem faithful_of_after (settings : Settings) (handlers : Handlers) (recorded : Bool)
    (o : Outline) (reply : UserAct → Desk Unit Chronicle → List Request) (moves : List Move) :
    (∀ x ∈ (after reply (start settings handlers recorded o) moves).around.episodes,
      x.before.link.paused = false → x.answer = .ok () →
        x.after.widget.outline.Shows x.timeline x.update.current
          x.after.link.settings.scrollToCurrent) ∧
    ∀ r, Continues (after reply (start settings handlers recorded o) moves)
      ((grant r).run (after reply (start settings handlers recorded o) moves)).state := by
  have hinv : Inv (after reply (start settings handlers recorded o) moves) :=
    (inv_start settings handlers recorded o).after moves
  refine ⟨fun x hx hp hok => ?_, fun r => continues_grant hinv r⟩
  obtain ⟨newer, older, hsplit⟩ := List.append_of_mem hx
  exact (hinv.orderly newer x older hsplit).shows hp hok

/-- The second commit finds a view that fails and the third one that is paused; the undo finds the
link stale. -/
def stumbles : List Move :=
  [.request .reattach, .request (.hear (.committed ⟨⟨0⟩, "Edit", "one"⟩)),
    .request (.control (.plant .select)), .request (.hear (.committed ⟨⟨1⟩, "Edit", "two"⟩)),
    .request (.control .pause), .request (.hear (.committed ⟨⟨2⟩, "Edit", "three"⟩)),
    .request (.control .resume), .gesture (.click 1),
    .request (.hear (.undone ⟨⟨2⟩, "Edit", "three"⟩))]

/-- After such a run the last push shows all three rows, with the cursor on the second. -/
theorem faithful_of_after_stumbles :
    ∃ x ∈ (after (fun _ _ => []) (start {} {} true (.empty {} .unicode 2))
        stumbles).around.episodes,
      x.before.link.paused = false ∧ x.answer = .ok () ∧
        x.after.widget.outline.Shows x.timeline (.on (.ofChild 0 0)) true := by
  have hfaithful :=
    (faithful_of_after {} {} true (.empty {} .unicode 2) (fun _ _ => []) stumbles).1
  have hlast : (after (fun _ _ => []) (start {} {} true (.empty {} .unicode 2))
      stumbles).around.episodes.head?.map (fun x => (x.before.link.paused, x.answer.isOk,
        x.update.current, x.after.link.settings.scrollToCurrent)) =
      some (false, true, .on (.ofChild 0 0), true) := by
    decide +kernel
  generalize after _ _ _ = d at hfaithful hlast ⊢
  obtain ⟨x, hx, hfields⟩ := Option.map_eq_some_iff.mp hlast
  obtain ⟨hpaused, hok, hcurrent, hscroll⟩ : x.before.link.paused = false ∧
      x.answer.isOk = true ∧ x.update.current = .on (.ofChild 0 0) ∧
      x.after.link.settings.scrollToCurrent = true := by
    simpa using hfields
  have hanswer := Episode.answer_of_isOk hok
  have hmem := List.mem_of_head? hx
  refine ⟨x, hmem, hpaused, hanswer, ?_⟩
  rw [← hcurrent, ← hscroll]
  exact hfaithful x hmem hpaused hanswer

end Chronicle

end UndoJournal
