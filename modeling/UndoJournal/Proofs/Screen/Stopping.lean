import UndoJournal.Proofs.Screen.Push

/-!
# Where a push that fails has stopped

A view whose rows are right refuses nothing that a push asks of it, so a push fails only if a call
was made to fail. **It has then done what was asked before that call and nothing else**
(`Screen.Stopped`):

* if showing the rows anew was made to fail, outline and link are what they were;
* otherwise a part of the plan in front of the call was carried out, and the runs that the link had
  kept in mind are forgotten, whether or not they were in that part.

In either case the link keeps in mind no more than before (`Screen.left_subset_of_follow`).
-/

namespace UndoJournal

/-- The error tells which call was made to fail. -/
theorem ViewError.injected_inj {op op' : ViewOp} : injected op = injected op' ↔ op = op' := by
  cases op <;> cases op' <;> decide

namespace Outline

variable {o : Outline}

/-- Commands that are possible, and show no rows anew, can be done up to any of them. -/
private theorem exists_performAll_append {t : Timeline} {o' : Outline}
    {before after : List ViewCommand}
    (ho : o.shown = t) (hcs : ∀ c ∈ before ++ after, c.op ≠ .rebuild ∧ c.Possible t)
    (h : o.performAll before = .ok o') : ∀ c ∈ after, ∃ r, o'.perform c = .ok r := by
  intro c hc
  have hshown : o'.shown = t :=
    (shown_of_performAll (fun c' hc' => (hcs c' (List.mem_append_left _ hc')).1) h).trans ho
  exact exists_perform (hshown ▸ (hcs c (List.mem_append_right _ hc)).2)

end Outline

namespace Screen

variable {s s' : Screen} {t : Timeline} {u : CursorUpdate}

/-! ### Commands -/

/-- A command that was done was not planned to fail, and one that failed was planned to or was
refused by the outline. -/
private theorem planned_of_perform (hs : s.Suppressed) (command : ViewCommand) :
    (Stage.alone.perform command).Leaves s fun result _ => match result with
      | .ok (.ok ()) => s.breakage? ≠ some (command.op, .error)
      | .ok (.error e) => (e = .injected command.op ∧ s.breakage? = some (command.op, .error)) ∨
          s.widget.outline.perform command = .error e
      | .error _ => True := by
  obtain ⟨hop, hrun⟩ | ⟨-, hrun⟩ | ⟨hnot, hrun⟩ := s.run_perform_cases command <;>
    refine .of_run_eq hrun ?_
  · exact .inl ⟨rfl, hop⟩
  · trivial
  · have hasked : (Stage.onTraffic Traffic.enter (s.asked command)).Suppressed := hs
    rw [asking, Action.leaves_bracket]
    refine (gives_wiring_perform hasked command).leaves fun answer s₁ h₁ => ?_
    rcases answer with e | ⟨⟩
    · exact .inr h₁.1
    · exact hnot .error

/-- Commands that stop with an error have been done up to the one that failed. -/
def StopsIn (s : Screen) (commands : List ViewCommand) (e : ViewError) (s' : Screen) : Prop :=
  ∃ done c rest, commands = done ++ c :: rest ∧
    s.widget.outline.performAll done = .ok s'.widget.outline ∧
    ((e = .injected c.op ∧ s.breakage? = some (c.op, .error) ∧ ∀ c' ∈ done, c'.op ≠ c.op) ∨
      s'.widget.outline.perform c = .error e)

/-- What failed behind a command that was done was planned before it. -/
private theorem StopsIn.cons {s₁ : Screen} {c : ViewCommand} {cs : List ViewCommand} {e : ViewError}
    {r : Response} (hr : s.widget.outline.perform c = .ok r) (ho : s₁.widget.outline = r.outline)
    (hnot : s.breakage? ≠ some (c.op, .error)) (hplans : s.PlansNoMore s₁)
    (h : s₁.StopsIn cs e s') : s.StopsIn (c :: cs) e s' := by
  obtain ⟨done, failing, rest, rfl, hdone, hstop⟩ := h
  refine ⟨c :: done, failing, rest, rfl,
    Outline.performAll_cons_eq_ok.mpr ⟨r, hr, ho ▸ hdone⟩, hstop.imp_left ?_⟩
  rintro ⟨he, hplan, hops⟩
  have hbefore : s.breakage? = some (failing.op, .error) := by
    rcases hplans with hsame | hnone
    · rw [← hsame, hplan]
    · cases hnone.symm.trans hplan
  refine ⟨he, hbefore, List.forall_mem_cons.mpr ⟨fun hop => hnot ?_, hops⟩⟩
  rw [hbefore, hop]

private theorem stopsIn_of_performAll (hs : s.Suppressed) (commands : List ViewCommand) :
    (Stage.alone.performAll commands).Leaves s fun result s' =>
      ∀ e, result = .ok (.error e) → s.StopsIn commands e s' := by
  -- the first command that fails ends the list, and those before it were done
  induction commands generalizing s with
  | nil => exact fun e he => by cases he
  | cons c cs ih =>
    simp only [Stage.performAll, Action.leaves_bind]
    refine ((leaves_perform hs c).and (planned_of_perform hs c)).mono ?_
    rintro (fault | e | ⟨⟩) s₁ ⟨⟨hkept, -, hdone⟩, hplanned⟩
    · exact fun e he => by cases he
    · refine (Action.leaves_pure _).mpr fun e' he => ?_
      obtain rfl : e = e' := Except.error.inj (Except.ok.inj he)
      have ho : s₁.widget.outline = s.widget.outline := hdone.1
      refine ⟨[], c, cs, rfl, by rw [Outline.performAll, ho], ?_⟩
      rcases hplanned with ⟨he, hplan⟩ | hrefused
      · exact .inl ⟨he, hplan, by simp⟩
      · exact .inr (ho ▸ hrefused)
    · obtain ⟨r, hr, ho⟩ := hdone
      have hs₁ : s₁.Suppressed := by
        rw [Suppressed, hkept.link]
        exact hs
      exact (ih hs₁).mono fun result s₂ h e he => (h e he).cons hr ho hplanned hkept.plans

/-! ### Pushes -/

/-- A push was stopped by a call that was made to fail: by the rebuild, with nothing done, or
within its plan, with what stands in front of the call done. -/
structure Stopped (s : Screen) (t : Timeline) (u : CursorUpdate) (op : ViewOp) (s' : Screen) :
    Prop where
  planned : s.breakage? = some (op, .error)
  early : op = .rebuild → s.due u = true ∧ s'.widget.outline = s.widget.outline ∧
    s'.link.left = s.link.left
  late : op ≠ .rebuild → s'.link.left = s.link.planned.left ∧
    ∃ done c rest, s.link.plan t u = done ++ c :: rest ∧ c.op = op ∧ (∀ c' ∈ done, c'.op ≠ op) ∧
      (s.refreshed t u).performAll done = .ok s'.widget.outline

/-- Showing the rows anew fails only if that was planned, and then it does nothing. -/
private theorem stopped_of_refresh (hs : s.Suppressed) :
    (Stage.alone.refresh t u).Leaves s fun result s' =>
      ∀ e, result = .ok (.error e) → e = .injected .rebuild ∧ s.Stopped t u .rebuild s' := by
  simp only [Stage.refresh, Stage.look, Stage.change, Action.leaves_bind, Action.leaves_get,
    Action.leaves_pure]
  change Action.Leaves (if s.due u = true then _ else _) s _
  rcases hdue : s.due u with _ | _
  · exact fun e he => by cases he
  · rw [if_pos rfl, Action.leaves_bind]
    refine ((leaves_perform hs (.rebuild t)).and (planned_of_perform hs (.rebuild t))).mono ?_
    rintro (fault | e | ⟨⟩) s₁ ⟨⟨hkept, -, hdone⟩, hplanned⟩
    · exact fun e he => by cases he
    · refine (Action.leaves_pure _).mpr fun e' he => ?_
      obtain rfl : e = e' := Except.error.inj (Except.ok.inj he)
      -- an outline never refuses a rebuild
      obtain ⟨rfl, hplan⟩ := hplanned.resolve_right nofun
      exact ⟨rfl, hplan, fun _ => ⟨hdue, hdone.1, by rw [hkept.link]⟩, fun h => absurd rfl h⟩
    · simp only [Action.leaves_bind, Action.leaves_modify, Action.leaves_pure]
      exact fun e he => by cases he

variable (hrows : s.due u = false → s.widget.outline.shown = t)
  (hcontains : t.contains u.current = true)

include hrows hcontains

private theorem stopped_of_push (hs : s.Suppressed) :
    (Stage.alone.push t u).Leaves s fun result s' =>
      ∀ e, result = .ok (.error e) → ∃ op, e = .injected op ∧ s.Stopped t u op s' := by
  simp only [Stage.push, Action.leaves_bind]
  refine ((leaves_refresh hs t u).and (stopped_of_refresh hs)).mono ?_
  rintro (fault | e | ⟨⟩) s₁ ⟨⟨hframed, hleft, -, hdone⟩, hstopped⟩
  · exact fun e he => by cases he
  · exact (Action.leaves_pure _).mpr fun e' he => ⟨.rebuild, hstopped e' he⟩
  · obtain ⟨hstale, ho⟩ := hdone
    -- a plan does not depend on staleness, so it is that of the link before the rebuild
    have hlink : s₁.link = { s.link with stale := s₁.link.stale } := by rw [hframed.link, hleft]
    have hplan : s₁.link.plan t u = s.link.plan t u := by rw [hlink]; rfl
    have hframed₂ := hframed.trans (framed_planned s₁)
    have hs₂ : (s₁.onLink Link.planned).Suppressed := hframed₂.suppressed hs
    simp only [Stage.look, Stage.change, Action.leaves_bind, Action.leaves_get, Action.leaves_pure,
      Action.leaves_modify]
    change Action.Leaves (Stage.alone.performAll (s₁.link.plan t u)) (s₁.onLink Link.planned) _
    rw [hplan]
    refine ((leaves_performAll hs₂ fun c hc => (possible_of_mem_plan hc).1).and
      (stopsIn_of_performAll hs₂ (s.link.plan t u))).mono ?_
    rintro result s₂ ⟨⟨hkept, -, -⟩, hstops⟩ e rfl
    obtain ⟨done, c, rest, hcommands, hperformed, hstop⟩ := hstops e rfl
    have hperformed : (s.refreshed t u).performAll done = .ok s₂.widget.outline := ho ▸ hperformed
    have hpossible : ∀ c' ∈ done ++ c :: rest, c'.op ≠ .rebuild ∧ c'.Possible t := fun c' hc' =>
      (possible_of_mem_plan (hcommands ▸ hc')).imp_right fun h => h hcontains
    -- what is planned can be done, so the outline refused nothing
    obtain ⟨rfl, hbreakage, hops⟩ := hstop.resolve_right fun hrefused => by
      obtain ⟨r, hr⟩ := Outline.exists_performAll_append (shown_refreshed_eq hrows) hpossible
        hperformed c List.mem_cons_self
      cases hr.symm.trans hrefused
    have hbefore : s.breakage? = some (c.op, .error) := by
      rcases hframed₂.plans with hsame | hnone
      · rw [← hsame, hbreakage]
      · cases hnone.symm.trans hbreakage
    have hop : c.op ≠ .rebuild := (hpossible c (by simp)).1
    refine ⟨c.op, rfl, hbefore, fun h => absurd h hop, fun _ => ⟨?_, done, c, rest, hcommands, rfl,
      hops, hperformed⟩⟩
    rw [hkept.link]
    change s₁.link.planned.left = _
    rw [hlink, Link.planned_eq, Link.planned_eq]

/-- **A push fails only where a call was made to fail**, and stops there, if an update that does not
show the rows anew found them right. -/
theorem stopped_of_follow (hd : s.link.disconnected = false) (hp : s.link.paused = false) :
    (Stage.alone.follow t u).Leaves s fun result s' =>
      ∀ e, result = .ok (.error e) → ∃ op, e = .injected op ∧ s.Stopped t u op s' := by
  rw [leaves_follow_iff hd hp]
  simp only [Stage.pushed, Action.leaves_bind]
  refine (stopped_of_push (s := s.onLink Link.raise) hrows hcontains s.suppressed_raise).mono ?_
  rintro (fault | e | ⟨⟩) s₁ hstopped
  · exact fun e he => by cases he
  · simp only [Action.leaves_bind, Stage.change, Action.leaves_modify, Action.leaves_pure]
    intro e' he
    obtain ⟨op, hop, hstop⟩ := hstopped e' he
    refine ⟨op, hop, hstop.planned, hstop.early, fun hne => ?_⟩
    obtain ⟨hleft, hdone⟩ := hstop.late hne
    refine ⟨hleft.trans ?_, hdone⟩
    rw [Link.planned_eq, Link.planned_eq]
    rfl
  · simp only [Action.leaves_bind, Action.leaves_note, Action.leaves_pure]
    exact fun e he => by cases he

/-- **An update that is not skipped leaves no more to be kept in mind.** -/
theorem left_subset_of_follow (hp : s.link.paused = false) (hst : s.Sturdy) :
    (Stage.alone.follow t u).Leaves s fun _ s' => s'.link.left ⊆ s.link.left := by
  have hplanned : s.link.planned.left ⊆ s.link.left := by
    rw [Link.planned_eq]
    dsimp only
    split
    · exact List.nil_subset _
    · exact List.Subset.refl _
  rcases hd : s.link.disconnected with _ | _
  · refine ((leaves_follow hd hp).and ((link_of_follow hd hp).and
      (stopped_of_follow hrows hcontains hd hp))).mono ?_
    rintro (fault | e | ⟨⟩) s' ⟨⟨-, -, hdone⟩, hlink, hstopped⟩
    · exact absurd hst hdone.1
    · obtain ⟨op, -, hstop⟩ := hstopped e rfl
      by_cases hop : op = .rebuild
      · rw [(hstop.early hop).2.2]
        exact List.Subset.refl _
      · rw [(hstop.late hop).1]
        exact hplanned
    · rw [hlink rfl]
      exact hplanned
  · refine (leaves_follow_of_disconnected hd).mono ?_
    rintro _ _ ⟨-, rfl⟩
    exact List.Subset.refl _

end Screen

end UndoJournal
