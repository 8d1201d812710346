import UndoJournal.Proofs.Outline.Commands
import UndoJournal.Proofs.Screen.Alone

/-!
# What a push leaves

A push of an update onto a screen that is connected and not paused ends in one of three ways
(`Screen.Pushed`).

* **It succeeds**: the link is not stale, the rows were shown anew if that was due, and the outline
  did all that was planned.
* **It fails**: the link is stale, whichever command it was that failed.
* **It breaks down**: nothing is put right. If it was the rebuild that broke down, rows and
  staleness are what they were before; otherwise the link is not stale, and the rows are what the
  rebuild left.

Everything else about the link, and the listeners of the view, are as they were.
-/

namespace UndoJournal

/-- A plan empties the memory of the link, if runs are collapsed when they are left. -/
theorem Link.planned_eq (l : Link) :
    l.planned = { l with left := if l.settings.collapseOnLeave then [] else l.left } := by
  unfold planned
  split <;> rfl

/-- The error of a call that was made to fail. -/
def ViewError.injected (op : ViewOp) : ViewError := .backend ("injected " ++ op.word ++ " failure")

namespace Screen

/-! ### What commands leave alone -/

/-- The call that is planned to go wrong, and how. -/
def breakage? (s : Screen) : Option (ViewOp × Breakage) := s.traffic.bind Traffic.breakage

/-- No call is planned to break down. -/
def Sturdy (s : Screen) : Prop := ∀ op, s.breakage? ≠ some (op, .collapse)

/-- Nothing but the record of the traffic is another. -/
structure SameButRecord (s s' : Screen) : Prop where
  widget : s'.widget = s.widget
  link : s'.link = s.link
  breakage : s'.breakage? = s.breakage?

/-- What is planned to go wrong was planned before. -/
def PlansNoMore (s s' : Screen) : Prop := s'.breakage? = s.breakage? ∨ s'.breakage? = none

/-- The link and the listeners are as they were, and no call was planned to go wrong since. -/
structure Kept (s s' : Screen) : Prop where
  link : s'.link = s.link
  hub : s'.widget.hub = s.widget.hub
  plans : s.PlansNoMore s'

variable {s s' s'' : Screen}

namespace PlansNoMore

theorem trans (h : s.PlansNoMore s') (h' : s'.PlansNoMore s'') : s.PlansNoMore s'' := by
  rcases h' with h' | h'
  · rw [PlansNoMore, h']
    exact h
  · exact .inr h'

theorem sturdy (h : s.PlansNoMore s') (hs : s.Sturdy) : s'.Sturdy := by
  intro op
  rcases h with h | h <;> rw [h]
  · exact hs op
  · exact nofun

theorem eq_none (h : s.PlansNoMore s') (hs : s.breakage? = none) : s'.breakage? = none :=
  h.elim (fun h => h.trans hs) id

end PlansNoMore

theorem Kept.refl (s : Screen) : s.Kept s := ⟨rfl, rfl, .inl rfl⟩

theorem Kept.trans (h : s.Kept s') (h' : s'.Kept s'') : s.Kept s'' :=
  ⟨h'.link.trans h.link, h'.hub.trans h.hub, h.plans.trans h'.plans⟩

private theorem SameButRecord.trans (h : s.SameButRecord s') (h' : s'.SameButRecord s'') :
    s.SameButRecord s'' :=
  ⟨h'.widget.trans h.widget, h'.link.trans h.link, h'.breakage.trans h.breakage⟩

theorem SameButRecord.kept (h : s.SameButRecord s') : s.Kept s' :=
  ⟨h.link, by rw [h.widget], .inl h.breakage⟩

/-- Writing into the record plans nothing. -/
theorem sameButRecord_onTraffic {f : Traffic → Traffic} (hf : ∀ t, (f t).breakage = t.breakage)
    (s : Screen) : s.SameButRecord (Stage.onTraffic f s) := by
  refine ⟨rfl, rfl, ?_⟩
  cases ht : s.traffic <;> simp [breakage?, Stage.onTraffic, ht, hf]

theorem sameButRecord_overhear (signal : Signal) (s : Screen) :
    s.SameButRecord (overhear signal s) :=
  sameButRecord_onTraffic (f := fun t => t.overhear signal) (fun _ => rfl) s

/-- Planning that a call fails is not planning that it breaks down. -/
theorem Sturdy.plant (h : s.Sturdy) (op : ViewOp) : (s.plant op .error).Sturdy := by
  intro op'
  have hop := h op'
  cases ht : s.traffic <;> simp_all [breakage?, Screen.plant, Traffic.plant]

/-- A call that was made to go wrong is not planned any more. -/
theorem kept_spend (op : ViewOp) (s : Screen) :
    s.Kept (Stage.onTraffic (fun t => t.spend op) s) := by
  refine ⟨rfl, rfl, ?_⟩
  cases ht : s.traffic with
  | none => exact .inr (by simp [breakage?, Stage.onTraffic, ht])
  | some t =>
    simp only [PlansNoMore, breakage?, Stage.onTraffic, ht, Option.map_some, Option.bind_some,
      Traffic.spend]
    split
    · exact .inr rfl
    · exact .inl rfl

/-! ### Signals -/

/-- While the screen is suppressed, what its view fires is written down, and that is all. -/
private theorem gives_emit (hs : s.Suppressed) (signal : Signal) :
    (Hub.emit (Stage.alone.wiring.widget.comp Widget.hubLens) Stage.alone.call signal).Gives s
      fun _ s' => s.SameButRecord s' := by
  simp only [Hub.emit, Action.gives_bind, Action.gives_get, Action.gives_note]
  refine Action.gives_each (p := s.SameButRecord) (fun listener _ s₁ h₁ => ?_) ⟨rfl, rfl, rfl⟩
  cases listener with
  | other number => exact (Action.gives_pure _).mpr h₁
  | link =>
    have hover : s.SameButRecord (overhear signal s₁) :=
      h₁.trans (sameButRecord_overhear signal s₁)
    have hsup : (overhear signal s₁).link.suppressed = true := by
      rw [hover.link]
      exact hs
    simp only [Stage.call, Stage.change, Stage.look, Action.gives_bind, Action.gives_modify,
      Action.gives_get, Action.gives_pure]
    change Action.Gives (if (overhear signal s₁).link.suppressed = true then _ else _) _ _
    rw [if_pos hsup, Action.gives_note]
    exact hover

/-- What a view comes to that is asked something: it refuses and is as it was, or does it. -/
def Answered (s : Screen) (command : ViewCommand) : Except ViewError Unit → Screen → Prop
  | .error e, s' => s.widget.outline.perform command = .error e ∧ s' = s
  | .ok (), s' => ∃ r, s.widget.outline.perform command = .ok r ∧
      { s with widget := { s.widget with outline := r.outline } }.SameButRecord s'

/-- While the screen is suppressed, the view does what it is asked, and nobody responds. -/
theorem gives_wiring_perform (hs : s.Suppressed) (command : ViewCommand) :
    (Stage.alone.wiring.perform command).Gives s (s.Answered command) := by
  simp only [Wiring.perform, Wiring.outline, Action.gives_bind, Action.gives_get,
    Action.gives_pure]
  split
  · rename_i e hp
    exact (Action.gives_pure _).mpr ⟨hp, rfl⟩
  · rename_i r hp
    simp only [Wiring.enact, Action.gives_bind, Action.gives_modify, Action.gives_report,
      Action.gives_pure]
    refine Action.Gives.mono (Action.gives_each (p := SameButRecord _) (fun signal _ s₁ h₁ => ?_)
      ⟨rfl, rfl, rfl⟩) fun _ _ h => ⟨r, hp, h⟩
    have hsup : s₁.Suppressed := by
      rw [Suppressed, h₁.link]
      exact hs
    exact (gives_emit hsup signal).mono fun _ s₂ h₂ => h₁.trans h₂

/-! ### Commands -/

/-- A call is made to go wrong exactly if that was planned. -/
theorem breakageOf_eq_some_iff {op : ViewOp} {breakage : Breakage} :
    (s.traffic.bind fun t => t.breakageOf op) = some breakage ↔
      s.breakage? = some (op, breakage) := by
  rcases ht : s.traffic with _ | t
  · simp [breakage?, ht]
  · rcases hb : t.breakage with _ | ⟨target, planned⟩
    · simp [breakage?, ht, Traffic.breakageOf, hb]
    · by_cases htarget : target = op <;> simp [breakage?, ht, Traffic.breakageOf, hb, htarget]

/-- The screen once a command to it is on record, and what was planned for the command is spent. -/
def asked (s : Screen) (command : ViewCommand) : Screen :=
  Stage.onTraffic (fun t => t.spend command.op)
    (Stage.onTraffic (fun t => t.write command.call) s)

private theorem kept_asked (s : Screen) (command : ViewCommand) : s.Kept (s.asked command) :=
  (sameButRecord_onTraffic (f := fun t => t.write command.call) (fun _ => rfl) s).kept.trans
    (kept_spend command.op _)

/-- The view is asked to carry out a command, and the record says that it is being called. -/
def asking (command : ViewCommand) : Action Screen (Except ViewError Unit) :=
  Action.bracket (Stage.onTraffic Traffic.enter) (Stage.onTraffic Traffic.leave)
    (Stage.alone.wiring.perform command)

/-- **A command goes one of three ways**: it fails or breaks down, because that was planned, or the
view is asked. -/
theorem run_perform_cases (s : Screen) (command : ViewCommand) :
    (s.breakage? = some (command.op, .error) ∧ (Stage.alone.perform command).run s =
      (pure (.error (.injected command.op)) : Action Screen _).run (s.asked command)) ∨
    (s.breakage? = some (command.op, .collapse) ∧ (Stage.alone.perform command).run s =
      (Action.fail (.brokenView command.op)).run (s.asked command)) ∨
    ((∀ b, s.breakage? ≠ some (command.op, b)) ∧
      (Stage.alone.perform command).run s = (asking command).run (s.asked command)) := by
  let s₁ := Stage.onTraffic (fun t => t.write command.call) s
  have hplanned : ∀ b, (s₁.traffic.bind fun t => t.breakageOf command.op) = some b ↔
      s.breakage? = some (command.op, b) := fun b => by
    have h₁ : s.SameButRecord s₁ :=
      sameButRecord_onTraffic (f := fun t => t.write command.call) (fun _ => rfl) s
    rw [breakageOf_eq_some_iff, h₁.breakage]
  have hwritten : (Stage.alone.change (Stage.onTraffic fun t => t.write command.call)).run s =
      ⟨.ok (), s₁, []⟩ := rfl
  have hlooked : Stage.alone.look.run s₁ = ⟨.ok s₁, s₁, []⟩ := rfl
  simp only [Stage.perform, Action.run_bind, hwritten, hlooked]
  rcases hb : s₁.traffic.bind fun t => t.breakageOf command.op with _ | ⟨_ | _⟩
  · refine .inr (.inr ⟨fun b h => ?_, rfl⟩)
    cases hb.symm.trans ((hplanned b).mpr h)
  · exact .inl ⟨(hplanned _).mp hb, rfl⟩
  · exact .inr (.inl ⟨(hplanned _).mp hb, rfl⟩)

/-- How a command can go: the outline did it, it failed, or it broke down because that was planned;
unless it was done, the outline is as it was. Where nothing is planned, only the outline can make it
fail. -/
def Performed (s : Screen) (command : ViewCommand) :
    Except Fault (Except ViewError Unit) → Screen → Prop
  | .ok (.ok ()), s' => ∃ r, s.widget.outline.perform command = .ok r ∧
      s'.widget.outline = r.outline
  | .ok (.error e), s' => s'.widget.outline = s.widget.outline ∧
      (s.breakage? = none → s.widget.outline.perform command = .error e)
  | .error fault, s' => fault = .brokenView command.op ∧ ¬ s.Sturdy ∧
      s'.widget.outline = s.widget.outline

theorem leaves_perform (hs : s.Suppressed) (command : ViewCommand) :
    (Stage.alone.perform command).Leaves s fun result s' => s.Kept s' ∧
      (result = .error (.brokenView command.op) ↔
        s.breakage? = some (command.op, .collapse)) ∧
      s.Performed command result s' := by
  have hasked := s.kept_asked command
  obtain ⟨hop, hrun⟩ | ⟨hop, hrun⟩ | ⟨hnot, hrun⟩ := s.run_perform_cases command <;>
    refine .of_run_eq hrun ?_
  · refine ⟨hasked, iff_of_false nofun (by simp [hop]), rfl, fun hnone => ?_⟩
    cases hnone.symm.trans hop
  · exact ⟨hasked, ⟨fun _ => hop, fun _ => rfl⟩, rfl, fun hst => hst _ hop, rfl⟩
  · -- nothing is planned: the view is asked
    have hs₁ : (Stage.onTraffic Traffic.enter (s.asked command)).Suppressed := hs
    have henter := hasked.trans
      (sameButRecord_onTraffic (f := Traffic.enter) (fun _ => rfl) (s.asked command)).kept
    rw [asking, Action.leaves_bracket]
    refine (gives_wiring_perform hs₁ command).leaves fun answer s₂ h₂ => ?_
    have hleave := (sameButRecord_onTraffic (f := Traffic.leave) (fun _ => rfl) s₂).kept
    rcases answer with e | ⟨⟩
    · obtain ⟨he, rfl⟩ := h₂
      exact ⟨henter.trans hleave, iff_of_false nofun (hnot _), rfl, fun _ => he⟩
    · obtain ⟨r, hr, h₂⟩ := h₂
      have hkept : s.Kept s₂ :=
        ⟨h₂.link, by rw [h₂.widget]; rfl, henter.plans.trans (.inl h₂.breakage)⟩
      refine ⟨hkept.trans hleave, iff_of_false nofun (hnot _), r, hr, ?_⟩
      change s₂.widget.outline = r.outline
      rw [h₂.widget]

/-- What commands that show no rows anew come to, one after the other. -/
theorem leaves_performAll (hs : s.Suppressed) {commands : List ViewCommand}
    (hc : ∀ c ∈ commands, c.op ≠ .rebuild) :
    (Stage.alone.performAll commands).Leaves s fun result s' =>
      s.Kept s' ∧ s'.widget.outline.shown = s.widget.outline.shown ∧
      match result with
      | .ok (.ok ()) => s.widget.outline.performAll commands = .ok s'.widget.outline
      | .ok (.error e) => s.breakage? = none → s.widget.outline.performAll commands = .error e
      | .error fault => ¬ s.Sturdy ∧ ∃ op ≠ ViewOp.rebuild, fault = .brokenView op := by
  induction commands generalizing s with
  | nil => exact ⟨Kept.refl s, rfl, rfl⟩
  | cons c cs ih =>
    have hop := hc c List.mem_cons_self
    simp only [Stage.performAll, Action.leaves_bind]
    refine (leaves_perform hs c).mono ?_
    rintro (fault | e | ⟨⟩) s₁ ⟨hkept, -, hdone⟩
    · obtain ⟨rfl, hst, ho⟩ := hdone
      exact ⟨hkept, by rw [ho], hst, c.op, hop, rfl⟩
    · obtain ⟨ho, he⟩ := hdone
      refine (Action.leaves_pure _).mpr ⟨hkept, congrArg Outline.shown ho, fun hnone => ?_⟩
      rw [Outline.performAll, he hnone]
    · obtain ⟨r, hr, ho⟩ := hdone
      -- the guard is still there, so the other commands find the screen suppressed as well
      have hs₁ : s₁.Suppressed := by
        rw [Suppressed, hkept.link]
        exact hs
      refine (ih hs₁ fun c' hc' => hc c' (List.mem_cons_of_mem _ hc')).mono ?_
      rintro (fault | e | ⟨⟩) s₂ ⟨hkept', hshown, hall⟩
      all_goals
        have hshown' : s₂.widget.outline.shown = s.widget.outline.shown := by
          rw [hshown, ho, Outline.shown_of_perform hop hr]
        refine ⟨hkept.trans hkept', hshown', ?_⟩
      · exact ⟨fun hst => hall.1 (hkept.plans.sturdy hst), hall.2⟩
      · intro hnone
        rw [Outline.performAll, hr]
        dsimp only
        rw [← ho]
        exact hall (hkept.plans.eq_none hnone)
      · exact Outline.performAll_cons_eq_ok.mpr ⟨r, hr, ho ▸ hall⟩

/-! ### Pushes -/

/-- All that a push changes is the outline, whether the link is stale, and the runs it keeps in
mind; and no call was planned to go wrong since. -/
structure Framed (s s' : Screen) : Prop where
  link : s'.link = { s.link with stale := s'.link.stale, left := s'.link.left }
  hub : s'.widget.hub = s.widget.hub
  plans : s.PlansNoMore s'

private theorem Kept.framed (h : s.Kept s') : s.Framed s' := ⟨by rw [h.link], h.hub, h.plans⟩

theorem Framed.trans (h : s.Framed s') (h' : s'.Framed s'') : s.Framed s'' :=
  ⟨by rw [h'.link, h.link], h'.hub.trans h.hub, h.plans.trans h'.plans⟩

private theorem framed_stale (stale : Bool) (s : Screen) :
    s.Framed (s.onLink fun l => { l with stale := stale }) := ⟨rfl, rfl, .inl rfl⟩

theorem Framed.suppressed (h : s.Framed s') (hs : s.Suppressed) : s'.Suppressed := by
  rw [Suppressed, h.link]
  exact hs

/-- Whether an update shows all rows anew. -/
def due (s : Screen) (u : CursorUpdate) : Bool := u.reshaped || s.link.stale

theorem due_eq_false_iff {u : CursorUpdate} :
    s.due u = false ↔ u.reshaped = false ∧ s.link.stale = false := Bool.or_eq_false_iff

/-- The outline with the right rows. -/
def refreshed (s : Screen) (t : Timeline) (u : CursorUpdate) : Outline :=
  if s.due u then (s.widget.outline.rebuild t).outline else s.widget.outline

theorem shown_refreshed (s : Screen) (t : Timeline) (u : CursorUpdate) :
    (s.refreshed t u).shown = if s.due u then t else s.widget.outline.shown := by
  unfold refreshed
  split
  · exact Outline.shown_rebuild _ _
  · rfl

/-- The rows are right once they were shown anew, if they were right where that was not due. -/
theorem shown_refreshed_eq {t : Timeline} {u : CursorUpdate}
    (hrows : s.due u = false → s.widget.outline.shown = t) : (s.refreshed t u).shown = t := by
  rw [shown_refreshed]
  split
  · rfl
  · exact hrows (by simpa using ‹¬ s.due u = true›)

/-- A push breaks down in showing the rows anew exactly if that is due and was planned. -/
def Breaks (s : Screen) (u : CursorUpdate) (result : Except Fault (Except ViewError Unit)) : Prop :=
  result = .error (.brokenView .rebuild) ↔
    s.due u = true ∧ s.breakage? = some (.rebuild, .collapse)

/-- How showing the rows anew can go, if that is due. -/
def Refreshed (s : Screen) (t : Timeline) (u : CursorUpdate) :
    Except Fault (Except ViewError Unit) → Screen → Prop
  | .ok (.ok ()), s' => s'.link.stale = false ∧ s'.widget.outline = s.refreshed t u
  | .ok (.error _), _ => s.breakage? ≠ none
  | .error fault, s' => fault = .brokenView .rebuild ∧ ¬ s.Sturdy ∧ s.due u = true ∧
      s'.link.stale = s.link.stale ∧ s'.widget.outline = s.widget.outline

theorem leaves_refresh (hs : s.Suppressed) (t : Timeline) (u : CursorUpdate) :
    (Stage.alone.refresh t u).Leaves s fun result s' =>
      s.Framed s' ∧ s'.link.left = s.link.left ∧ s.Breaks u result ∧
        s.Refreshed t u result s' := by
  simp only [Stage.refresh, Stage.look, Stage.change, Action.leaves_bind, Action.leaves_get,
    Action.leaves_pure]
  change Action.Leaves (if s.due u = true then _ else _) s _
  rcases hdue : s.due u with _ | _
  · have hstale : s.link.stale = false := by simp_all [due]
    exact (Action.leaves_pure _).mpr ⟨(Kept.refl s).framed, rfl,
      iff_of_false (by simp) (by simp [hdue]), hstale, by simp [refreshed, hdue]⟩
  · rw [if_pos rfl, Action.leaves_bind]
    refine (leaves_perform hs (.rebuild t)).mono ?_
    rintro (fault | e | ⟨⟩) s₁ ⟨hkept, hbreaks, hdone⟩
    · obtain ⟨rfl, hst, ho⟩ := hdone
      exact ⟨hkept.framed, by rw [hkept.link], ⟨fun _ => ⟨hdue, hbreaks.mp rfl⟩, fun _ => rfl⟩,
        rfl, hst, hdue, by rw [hkept.link], ho⟩
    · refine (Action.leaves_pure _).mpr ⟨hkept.framed, by rw [hkept.link],
        iff_of_false (by simp) fun h => absurd (hbreaks.mpr h.2) (by simp), fun hnone => ?_⟩
      cases hdone.2 hnone
    · -- an outline never refuses a rebuild, so only a planned call can have failed above
      obtain ⟨r, hr, ho⟩ := hdone
      cases hr
      simp only [Action.leaves_bind, Action.leaves_modify, Action.leaves_pure]
      have hleft := congrArg Link.left hkept.link
      refine ⟨hkept.framed.trans (framed_stale false s₁), hleft,
        iff_of_false (by simp) fun h => absurd (hbreaks.mpr h.2) (by simp), rfl, ?_⟩
      exact ho.trans (by rw [refreshed, hdue, if_pos rfl])

/-- How a push onto a screen that is connected and not paused can go. -/
def Pushed (s : Screen) (t : Timeline) (u : CursorUpdate) :
    Except Fault (Except ViewError Unit) → Screen → Prop
  | .ok (.ok ()), s' => s'.link.stale = false ∧
      (s.refreshed t u).performAll (s.link.plan t u) = .ok s'.widget.outline
  | .ok (.error e), s' => s'.link.stale = true ∧ (s.breakage? = none →
      (s.refreshed t u).performAll (s.link.plan t u) = .error e)
  | .error fault, s' => ¬ s.Sturdy ∧
      ((fault = .brokenView .rebuild ∧ s.due u = true ∧ s'.link.stale = s.link.stale ∧
          s'.widget.outline = s.widget.outline) ∨
        ∃ op ≠ ViewOp.rebuild, fault = .brokenView op ∧ s'.link.stale = false ∧
          s'.widget.outline.shown = (s.refreshed t u).shown)

/-- **What is planned can be done** where the rows are those of the timeline, and is no rebuild. -/
theorem possible_of_mem_plan {l : Link} {t : Timeline} {u : CursorUpdate} {c : ViewCommand}
    (hc : c ∈ l.plan t u) : c.op ≠ .rebuild ∧ (t.contains u.current = true → c.Possible t) := by
  simp only [Link.plan, List.mem_append, List.mem_map] at hc
  obtain ⟨group, hgroup, rfl⟩ | hc := hc
  · refine ⟨by simp [ViewCommand.op], fun _ => ?_⟩
    simp only [Link.collapsing] at hgroup
    split at hgroup
    · obtain hmem | hmem := List.mem_append.mp hgroup
      · -- a run left during a pause, whose head was looked up
        obtain ⟨id, -, hid⟩ := List.mem_filterMap.mp hmem
        rcases hfind : t.find? id with _ | a <;> rw [hfind] at hid
        · cases hid
        · dsimp only at hid
          split at hid <;> cases hid
          obtain ⟨p, hp, rfl⟩ := Option.map_eq_some_iff.mp hfind
          exact Timeline.exists_head_of_mem_placed (List.mem_of_find?_eq_some hp)
      · have hlt : group < t.runs.length := by simpa using (List.mem_filter.mp hmem).2
        exact ⟨_, by rw [Timeline.head?, List.getElem?_eq_getElem hlt, Option.map_some]⟩
    · cases hgroup
  · cases hcurrent : u.current with
    | start =>
      rw [hcurrent] at hc
      obtain rfl := List.mem_singleton.mp hc
      exact ⟨by simp [ViewCommand.op], fun _ => trivial⟩
    | on a =>
      rw [hcurrent] at hc
      simp only [Link.following] at hc
      split at hc <;>
        simp only [List.cons_append, List.nil_append, List.mem_cons, List.not_mem_nil,
          or_false] at hc
      · obtain rfl | rfl | rfl := hc <;> exact ⟨by simp [ViewCommand.op], id⟩
      · obtain rfl | rfl := hc <;> exact ⟨by simp [ViewCommand.op], id⟩

theorem framed_planned (s : Screen) : s.Framed (s.onLink Link.planned) :=
  ⟨by rw [onLink, Link.planned_eq], rfl, .inl rfl⟩

private theorem stale_planned (l : Link) : l.planned.stale = l.stale := by rw [Link.planned_eq]

/-- How a push has gone, before the link has been told that it failed. -/
private theorem leaves_push (hs : s.Suppressed) (t : Timeline) (u : CursorUpdate) :
    (Stage.alone.push t u).Leaves s fun result s' => s.Framed s' ∧ s.Breaks u result ∧
      match result with
      | .ok (.error e) => s.breakage? = none →
          (s.refreshed t u).performAll (s.link.plan t u) = .error e
      | result => s.Pushed t u result s' := by
  simp only [Stage.push, Action.leaves_bind]
  refine (leaves_refresh hs t u).mono ?_
  rintro (fault | e | ⟨⟩) s₁ ⟨hframed, hleft, hbreaks, hdone⟩
  · obtain ⟨rfl, hst, hdue, hstale, ho⟩ := hdone
    exact ⟨hframed, hbreaks, hst, .inl ⟨rfl, hdue, hstale, ho⟩⟩
  · exact (Action.leaves_pure _).mpr ⟨hframed,
      iff_of_false (by simp) fun h => absurd (hbreaks.mpr h) (by simp),
      fun hnone => absurd hnone hdone⟩
  · obtain ⟨hstale, ho⟩ := hdone
    -- a plan does not depend on staleness, so it is that of the link before the rebuild
    have hplan : s₁.link.plan t u = s.link.plan t u := by
      rw [hframed.link, hleft]
      rfl
    have hframed₂ := hframed.trans (framed_planned s₁)
    simp only [Stage.look, Stage.change, Action.leaves_bind, Action.leaves_get, Action.leaves_pure,
      Action.leaves_modify]
    change Action.Leaves (Stage.alone.performAll (s₁.link.plan t u)) (s₁.onLink Link.planned) _
    rw [hplan]
    refine (leaves_performAll (hframed₂.suppressed hs) fun c hc => (possible_of_mem_plan hc).1).mono
      ?_
    rintro result s₂ ⟨hkept, hshown, hall⟩
    refine ⟨hframed₂.trans hkept.framed, ⟨fun h => ?_, fun h => absurd (hbreaks.mpr h) (by simp)⟩,
      ?_⟩
    · -- behind a rebuild that went well, nothing breaks down as a rebuild
      obtain ⟨-, op, hop, hfault⟩ : _ ∧ ∃ op ≠ ViewOp.rebuild, Fault.brokenView .rebuild =
          .brokenView op := h ▸ hall
      exact absurd (Fault.brokenView.inj hfault).symm hop
    have hstale₂ : s₂.link.stale = false := by
      rw [hkept.link]
      exact (stale_planned s₁.link).trans hstale
    have hshown₂ : s₂.widget.outline.shown = (s.refreshed t u).shown := ho ▸ hshown
    rcases result with fault | e | ⟨⟩
    · obtain ⟨hst, op, hop, rfl⟩ := hall
      exact ⟨fun h => hst (hframed₂.plans.sturdy h), .inr ⟨op, hop, rfl, hstale₂, hshown₂⟩⟩
    · intro hnone
      exact ho ▸ hall (hframed₂.plans.eq_none hnone)
    · exact ⟨hstale₂, ho ▸ hall⟩

/-- The three ways of a push. -/
private theorem leaves_pushed (hs : s.Suppressed) (t : Timeline) (u : CursorUpdate) :
    (Stage.alone.pushed t u).Leaves s fun result s' =>
      s.Framed s' ∧ s.Breaks u result ∧ s.Pushed t u result s' := by
  simp only [Stage.pushed, Action.leaves_bind]
  refine (leaves_push hs t u).mono ?_
  rintro (fault | e | ⟨⟩) s₁ ⟨hframed, hbreaks, hdone⟩
  · exact ⟨hframed, hbreaks, hdone⟩
  · simp only [Stage.change, Action.leaves_bind, Action.leaves_modify, Action.leaves_pure]
    exact ⟨hframed.trans (framed_stale true s₁), hbreaks, rfl, hdone⟩
  · simp only [Action.leaves_bind, Action.leaves_note, Action.leaves_pure]
    exact ⟨hframed, hbreaks, hdone⟩

/-! ### Following -/

variable {t : Timeline} {u : CursorUpdate}

theorem leaves_follow_of_disconnected (hd : s.link.disconnected = true) :
    (Stage.alone.follow t u).Leaves s fun result s' =>
      result = .ok (.error .disconnected) ∧ s' = s := by
  simp only [Stage.follow, Stage.look, Action.leaves_bind, Action.leaves_get, Action.leaves_pure]
  change Action.Leaves (if s.link.disconnected = true then _ else _) s _
  rw [if_pos hd]
  exact ⟨rfl, rfl⟩

theorem leaves_follow_of_paused (hd : s.link.disconnected = false) (hp : s.link.paused = true) :
    (Stage.alone.follow t u).Leaves s fun result s' =>
      result = .ok (.ok ()) ∧ s' = s.onLink fun l => l.skip t u := by
  simp only [Stage.follow, Stage.look, Action.leaves_bind, Action.leaves_get, Action.leaves_pure]
  change Action.Leaves (if s.link.disconnected = true then _ else if s.link.paused = true then _
    else _) s _
  rw [hd, if_neg Bool.false_ne_true, if_pos hp]
  exact ⟨rfl, rfl⟩

/-- An update that is neither refused nor skipped is pushed under a guard, which is no part of what
is planned and gone afterwards. -/
theorem leaves_follow_iff {post : Except Fault (Except ViewError Unit) → Screen → Prop}
    (hd : s.link.disconnected = false) (hp : s.link.paused = false) :
    (Stage.alone.follow t u).Leaves s post ↔
      (Stage.alone.pushed t u).Leaves (s.onLink Link.raise) fun result s' =>
        post result (s'.onLink Link.lower) := by
  simp only [Stage.follow, Stage.look, Action.leaves_bind, Action.leaves_get, Action.leaves_pure]
  change Action.Leaves (if s.link.disconnected = true then _ else if s.link.paused = true then _
    else _) s _ ↔ _
  rw [hd, if_neg Bool.false_ne_true, hp, if_neg Bool.false_ne_true, Action.leaves_within,
    Action.leaves_bracket]
  rfl

/-- A screen whose guard was just raised is suppressed. -/
theorem suppressed_raise (s : Screen) : (s.onLink Link.raise).Suppressed :=
  decide_eq_true (Nat.succ_pos s.link.depth)

/-- **An update that is not skipped goes one of the three ways of a push.** -/
theorem leaves_follow (hd : s.link.disconnected = false) (hp : s.link.paused = false) :
    (Stage.alone.follow t u).Leaves s fun result s' =>
      s.Framed s' ∧ s.Breaks u result ∧ s.Pushed t u result s' := by
  rw [leaves_follow_iff hd hp]
  refine (leaves_pushed s.suppressed_raise t u).mono ?_
  rintro result s₁ ⟨hframed, hbreaks, hdone⟩
  refine ⟨?_, hbreaks, ?_⟩
  · refine ⟨?_, hframed.hub, hframed.plans⟩
    change s₁.link.lower = _
    rw [hframed.link]
    rfl
  · rcases result with fault | e | ⟨⟩ <;> exact hdone

/-- A push that succeeds leaves a link that is not stale and has carried out its plan. -/
private theorem link_of_push (hs : s.Suppressed) :
    (Stage.alone.push t u).Leaves s fun result s' =>
      result = .ok (.ok ()) → s'.link = { s.link.planned with stale := false } := by
  simp only [Stage.push, Action.leaves_bind]
  refine (leaves_refresh hs t u).mono ?_
  rintro (fault | e | ⟨⟩) s₁ ⟨hframed, hleft, -, hdone⟩
  · rintro ⟨⟩
  · rintro ⟨⟩
  · have hlink : s₁.link.planned = { s.link.planned with stale := false } := by
      rw [hframed.link, hleft, hdone.1, Link.planned_eq, Link.planned_eq]
    have hs₁ : (s₁.onLink Link.planned).Suppressed :=
      (hframed.trans (framed_planned s₁)).suppressed hs
    simp only [Stage.look, Stage.change, Action.leaves_bind, Action.leaves_get, Action.leaves_pure,
      Action.leaves_modify]
    exact (leaves_performAll hs₁ fun c hc => (possible_of_mem_plan hc).1).mono
      fun _ s₂ h _ => h.1.link.trans hlink

/-- **What an update that is followed well leaves of the link.** -/
theorem link_of_follow (hd : s.link.disconnected = false) (hp : s.link.paused = false) :
    (Stage.alone.follow t u).Leaves s fun result s' =>
      result = .ok (.ok ()) → s'.link = { s.link.planned with stale := false } := by
  rw [leaves_follow_iff hd hp]
  simp only [Stage.pushed, Action.leaves_bind]
  refine (link_of_push s.suppressed_raise).mono ?_
  rintro (fault | e | ⟨⟩) s₁ hlink
  · rintro ⟨⟩
  · simp only [Action.leaves_bind, Stage.change, Action.leaves_modify, Action.leaves_pure]
    rintro ⟨⟩
  · simp only [Action.leaves_bind, Action.leaves_note, Action.leaves_pure]
    intro _
    change s₁.link.lower = _
    rw [hlink rfl, Link.planned_eq, Link.planned_eq]
    rfl

/-- What was not skipped and is answered well was a push that succeeded, of a link that was
connected. -/
theorem pushed_of_follow_ok (hp : s.link.paused = false) :
    (Stage.alone.follow t u).Leaves s fun result s' => result = .ok (.ok ()) →
      s.link.disconnected = false ∧ s.Framed s' ∧ s.Pushed t u (.ok (.ok ())) s' := by
  intro hok
  rcases hd : s.link.disconnected with _ | _
  · obtain ⟨hframed, -, hdone⟩ := leaves_follow (t := t) (u := u) hd hp
    rw [hok] at hdone
    exact ⟨rfl, hframed, hdone⟩
  · obtain ⟨hresult, -⟩ := leaves_follow_of_disconnected (t := t) (u := u) hd
    cases hresult.symm.trans hok

/-- **Whether an update is followed or skipped**, and however that goes, only the outline, the
staleness and the runs that are kept in mind can be others afterwards. -/
theorem framed_follow (t : Timeline) (u : CursorUpdate) (s : Screen) :
    (Stage.alone.follow t u).Leaves s fun _ s' => s.Framed s' := by
  rcases hd : s.link.disconnected with _ | _
  · rcases hp : s.link.paused with _ | _
    · exact (leaves_follow hd hp).mono fun _ _ h => h.1
    · refine (leaves_follow_of_paused hd hp).mono ?_
      rintro _ _ ⟨-, rfl⟩
      exact ⟨rfl, rfl, .inl rfl⟩
  · refine (leaves_follow_of_disconnected hd).mono ?_
    rintro _ _ ⟨-, rfl⟩
    exact (Kept.refl _).framed

/-- A push that succeeds leaves the rows that it found or showed anew. -/
theorem Pushed.shown_eq (h : s.Pushed t u (.ok (.ok ())) s') :
    s'.widget.outline.shown = if s.due u then t else s.widget.outline.shown := by
  rw [← shown_refreshed]
  exact Outline.shown_of_performAll (fun c hc => (possible_of_mem_plan hc).1) h.2

/-- A push that succeeds leaves the right rows, if they were right where they were not shown
anew. -/
theorem Pushed.shown (hrows : s.due u = false → s.widget.outline.shown = t)
    (h : s.Pushed t u (.ok (.ok ())) s') : s'.widget.outline.shown = t := by
  rw [h.shown_eq, ← shown_refreshed]
  exact shown_refreshed_eq hrows

/-- Where nothing is planned to break down, following an update meets no fault, whatever it says. -/
theorem gives_follow_framed (hst : s.Sturdy) (t : Timeline) (u : CursorUpdate) :
    (Stage.alone.follow t u).Gives s fun _ s' => s.Framed s' := by
  rcases hd : s.link.disconnected with _ | _
  · rcases hp : s.link.paused with _ | _
    · refine (leaves_follow (t := t) (u := u) hd hp).mono ?_
      rintro (fault | answer) s' ⟨hframed, -, hdone⟩
      · exact absurd hst hdone.1
      · exact ⟨answer, rfl, hframed⟩
    · refine ((leaves_follow_of_paused hd hp).and (framed_follow t u s)).mono ?_
      rintro _ s' ⟨⟨rfl, -⟩, hframed⟩
      exact ⟨_, rfl, hframed⟩
  · refine ((leaves_follow_of_disconnected hd).and (framed_follow t u s)).mono ?_
    rintro _ s' ⟨⟨rfl, -⟩, hframed⟩
    exact ⟨_, rfl, hframed⟩

/-- **Where nothing is planned to break down, following an update meets no fault**, and a link that
is connected and not stale afterwards has the right rows, if an update that does not show them anew
found them right. -/
theorem gives_follow_rows (hst : s.Sturdy) (hrows : u.reshaped = false →
      s.link.disconnected = false → s.link.stale = false → s.widget.outline.shown = t) :
    (Stage.alone.follow t u).Gives s fun _ s' =>
      s'.link.disconnected = false → s'.link.stale = false → s'.widget.outline.shown = t := by
  rcases hd : s.link.disconnected with _ | _
  · rcases hp : s.link.paused with _ | _
    · refine (leaves_follow hd hp).mono ?_
      rintro (fault | e | ⟨⟩) s' ⟨-, -, hdone⟩
      · exact absurd hst hdone.1
      · exact ⟨_, rfl, fun _ h => nomatch hdone.1.symm.trans h⟩
      · refine ⟨_, rfl, fun _ _ => hdone.shown fun hdue => ?_⟩
        obtain ⟨hr, hs⟩ := due_eq_false_iff.mp hdue
        exact hrows hr hd hs
    · refine (leaves_follow_of_paused hd hp).mono ?_
      rintro _ s' ⟨rfl, rfl⟩
      exact ⟨_, rfl, fun _ h => nomatch h⟩
  · refine (leaves_follow_of_disconnected hd).mono ?_
    rintro _ s' ⟨rfl, rfl⟩
    exact ⟨_, rfl, fun h => nomatch hd.symm.trans h⟩

/-- **A push that is not made to go wrong succeeds**, if it found the right rows where it did not
show them anew. -/
theorem gives_follow_ok (hd : s.link.disconnected = false) (hp : s.link.paused = false)
    (hnone : s.breakage? = none) (hrows : s.due u = false → s.widget.outline.shown = t)
    (hc : t.contains u.current = true) :
    (Stage.alone.follow t u).Gives s fun answer s' => answer = .ok () ∧ s'.link.stale = false := by
  obtain ⟨o', ho'⟩ := Outline.exists_performAll (shown_refreshed_eq hrows) fun c hmem =>
    (possible_of_mem_plan hmem).imp_right fun h => h hc
  have hst : s.Sturdy := fun op => by rw [hnone]; exact nofun
  refine (leaves_follow hd hp).mono ?_
  rintro (fault | e | ⟨⟩) s' ⟨-, -, hdone⟩
  · exact absurd hst hdone.1
  · exact nomatch (hdone.2 hnone).symm.trans ho'
  · exact ⟨.ok (), rfl, rfl, hdone.1⟩

/-- **A link gets stale by an update that is skipped, or that is made to fail**, and in no other
way, if an update that does not show the rows anew found them right. -/
theorem stale_of_follow (hrows : u.reshaped = false → s.link.disconnected = false →
      s.link.stale = false → s.widget.outline.shown = t) (hc : t.contains u.current = true) :
    (Stage.alone.follow t u).Leaves s fun _ s' => s'.link.stale = true →
      s.link.stale = true ∨ s.link.paused = true ∨ s.breakage? ≠ none := by
  intro hstale
  by_contra hnot
  -- then nothing stands in the way of the push, and it leaves a link that is not stale
  obtain ⟨hs, hp, hnone⟩ : s.link.stale = false ∧ s.link.paused = false ∧ s.breakage? = none := by
    simpa using hnot
  rcases hd : s.link.disconnected with _ | _
  · obtain ⟨-, -, -, hfresh⟩ := gives_follow_ok (t := t) (u := u) hd hp hnone
      (fun hdue => hrows (due_eq_false_iff.mp hdue).1 hd hs) hc
    exact nomatch hfresh.symm.trans hstale
  · have hsame := leaves_follow_of_disconnected (t := t) (u := u) hd
    rw [hsame.2, hs] at hstale
    cases hstale

end Screen

end UndoJournal
