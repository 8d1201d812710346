import UndoJournal.Proofs.Outline.Inert
import UndoJournal.Proofs.Screen.Chronicle

/-!
# Telling a screen the whole state again

A screen that is told the whole state shows all rows anew and carries out its whole plan. Behind a
push that went well each of these commands is inert: what is marked as expanded is there, so a
rebuild forgets nothing; nothing is kept in mind, so no run is collapsed; and what was asked about
the cursor has been done.

So **however often a screen is told the whole state again, it fires no signal**, and outline,
listeners, journal and guards are what they were (`Chronicle.quietly_resync_of_after`). That goes
for calls that were made to fail as well, since there is nothing that could be left undone.
-/

namespace UndoJournal

/-! ### Screens that are settled -/

/-- The signal that was fired, if one was. -/
def ViewCall.signal? : ViewCall → Option Signal
  | .fired signal _ => some signal
  | _ => none

/-- The signals in the record, oldest first. -/
def Traffic.signals (t : Traffic) : List Signal := t.calls.filterMap ViewCall.signal?

namespace Link

variable {l : Link} {t : Timeline} {u : CursorUpdate}

/-- Where nothing is kept in mind and nothing was left, nothing is collapsed. -/
private theorem plan_of_caughtUp (h : l.settings.collapseOnLeave = true → l.left = [])
    (hu : u.left = none) : l.plan t u = l.following u.current := by
  have hcollapsing : l.collapsing t u = [] := by
    unfold collapsing
    split
    · rw [missed, h ‹_›, hu]
      rfl
    · rfl
  rw [plan, hcollapsing]
  rfl

private theorem planned_of_caughtUp (h : l.settings.collapseOnLeave = true → l.left = []) :
    l.planned = l := by
  unfold planned
  split
  · rw [← h ‹_›]
  · rfl

end Link

namespace Screen

/-- The signals in the record, if there is one. -/
def signals (s : Screen) : Option (List Signal) := s.traffic.map Traffic.signals

/-- View, listeners and guards are as they were, nothing was fired, and nothing was planned to go
wrong; of the link it is open whether it is stale. -/
structure Unmoved (s s' : Screen) : Prop where
  widget : s'.widget = s.widget
  link : s'.link = { s.link with stale := s'.link.stale }
  signals : s'.signals = s.signals
  plans : s.PlansNoMore s'

/-- A push would find nothing to do: each of its commands is inert, and nothing is to be
collapsed. -/
structure Settled (s : Screen) (t : Timeline) (p : Position) : Prop where
  connected : s.link.disconnected = false
  unpaused : s.link.paused = false
  sturdy : s.Sturdy
  rebuild : s.widget.outline.Inert (.rebuild t)
  following : ∀ c ∈ s.link.following p, s.widget.outline.Inert c
  caughtUp : s.link.settings.collapseOnLeave = true → s.link.left = []

variable {s s' s'' : Screen} {t : Timeline} {p : Position} {u : CursorUpdate} {c : ViewCommand}

namespace Unmoved

private theorem refl (s : Screen) : s.Unmoved s := ⟨rfl, rfl, rfl, .inl rfl⟩

private theorem trans (h : s.Unmoved s') (h' : s'.Unmoved s'') : s.Unmoved s'' :=
  ⟨h'.widget.trans h.widget, by rw [h'.link, h.link], h'.signals.trans h.signals,
    h.plans.trans h'.plans⟩

/-- What a push would find to do is not changed by staleness. -/
private theorem settled (h : s.Unmoved s') (hs : s.Settled t p) : s'.Settled t p := by
  refine ⟨?_, ?_, h.plans.sturdy hs.sturdy, h.widget ▸ hs.rebuild, ?_, ?_⟩ <;> rw [h.link]
  · exact hs.connected
  · exact hs.unpaused
  · rw [h.widget]
    exact hs.following
  · exact hs.caughtUp

end Unmoved

private theorem signals_onTraffic {f : Traffic → Traffic} (hf : ∀ t, (f t).signals = t.signals)
    (s : Screen) : (Stage.onTraffic f s).signals = s.signals := by
  cases ht : s.traffic <;> simp [signals, Stage.onTraffic, ht, hf]

/-- Writing anything but signals into the record. -/
private theorem unmoved_onTraffic {f : Traffic → Traffic}
    (hbreakage : ∀ t, (f t).breakage = t.breakage)
    (hf : ∀ t, (f t).signals = t.signals) (s : Screen) : s.Unmoved (Stage.onTraffic f s) :=
  ⟨rfl, rfl, signals_onTraffic hf s, .inl (sameButRecord_onTraffic hbreakage s).breakage⟩

private theorem unmoved_write (c : ViewCommand) (s : Screen) :
    s.Unmoved (Stage.onTraffic (fun t => t.write c.call) s) := by
  refine unmoved_onTraffic (f := fun t => t.write c.call) (fun _ => rfl) (fun t => ?_) s
  have hcall : c.call.signal? = none := by cases c <;> rfl
  rw [Traffic.signals, Traffic.write, List.filterMap_append]
  simp [Traffic.signals, hcall]

private theorem unmoved_spend (op : ViewOp) (s : Screen) :
    s.Unmoved (Stage.onTraffic (fun t => t.spend op) s) := by
  refine ⟨rfl, rfl, signals_onTraffic (f := fun t => t.spend op) (fun t => ?_) s,
    (kept_spend op s).plans⟩
  unfold Traffic.spend
  split <;> rfl

/-! ### Inert commands -/

/-- A view that is asked for something inert stays as it is. -/
private theorem quietly_wiring_perform (hc : s.widget.outline.Inert c) :
    (Stage.alone.wiring.perform c).Quietly s fun answer s' => answer = .ok () ∧ s' = s := by
  obtain ⟨notes, hperform, hsilent⟩ := hc
  simp only [Wiring.perform, Wiring.outline, Action.quietly_bind, Action.quietly_get,
    Action.quietly_pure]
  have hlook : (Stage.alone.wiring.widget.get s).outline = s.widget.outline := rfl
  rw [hlook, hperform]
  simp only [Wiring.enact, Action.quietly_bind, Action.quietly_modify, Action.quietly_report,
    Action.each_nil, Action.quietly_pure]
  exact ⟨⟨trivial, rfl⟩, hsilent⟩

/-- An inert command is carried out to no effect, or fails because that was planned. -/
private theorem quietly_perform (hst : s.Sturdy) (hc : s.widget.outline.Inert c) :
    (Stage.alone.perform c).Quietly s fun answer s' =>
      s.Unmoved s' ∧ (s.breakage? = none → answer = .ok ()) := by
  have hasked : s.Unmoved (s.asked c) := (unmoved_write c s).trans (unmoved_spend c.op _)
  obtain ⟨hop, hrun⟩ | ⟨hop, -⟩ | ⟨-, hrun⟩ := s.run_perform_cases c
  · refine .of_run_eq hrun ((Action.quietly_pure _).mpr ⟨hasked, fun hnone => ?_⟩)
    cases hnone.symm.trans hop
  · exact absurd hop (hst _)
  · refine .of_run_eq hrun ?_
    rw [asking, Action.quietly_bracket]
    have henter := hasked.trans
      (unmoved_onTraffic (f := Traffic.enter) (fun _ => rfl) (fun _ => rfl) (s.asked c))
    have hinert : (Stage.onTraffic Traffic.enter (s.asked c)).widget.outline.Inert c := hc
    refine (quietly_wiring_perform hinert).mono ?_
    rintro _ s₁ ⟨rfl, rfl⟩
    exact ⟨henter.trans (unmoved_onTraffic (f := Traffic.leave) (fun _ => rfl)
      (fun _ => rfl) _), fun _ => rfl⟩

private theorem quietly_performAll (hst : s.Sturdy) {commands : List ViewCommand}
    (hcs : ∀ c ∈ commands, s.widget.outline.Inert c) :
    (Stage.alone.performAll commands).Quietly s fun answer s' =>
      s.Unmoved s' ∧ (s.breakage? = none → answer = .ok ()) := by
  induction commands generalizing s with
  | nil => exact (Action.quietly_pure _).mpr ⟨Unmoved.refl s, fun _ => rfl⟩
  | cons c cs ih =>
    simp only [Stage.performAll, Action.quietly_bind]
    refine (quietly_perform hst (hcs c List.mem_cons_self)).mono ?_
    rintro (e | ⟨⟩) s₁ ⟨hunmoved, hanswer⟩
    · refine (Action.quietly_pure _).mpr ⟨hunmoved, fun hnone => ?_⟩
      cases hanswer hnone
    · refine (ih (hunmoved.plans.sturdy hst) fun c' hc' => ?_).mono fun answer s₂ h => ?_
      · rw [hunmoved.widget]
        exact hcs c' (List.mem_cons_of_mem _ hc')
      · exact ⟨hunmoved.trans h.1, fun hnone => h.2 (hunmoved.plans.eq_none hnone)⟩

/-! ### Pushes of a settled screen -/

/-- A change of staleness. -/
private theorem unmoved_stale (stale : Bool) (s : Screen) :
    s.Unmoved (s.onLink fun l => { l with stale := stale }) := ⟨rfl, rfl, rfl, .inl rfl⟩

variable (h : s.Settled t p) (hreshaped : u.reshaped = true) (hleft : u.left = none)
  (hcurrent : u.current = p)

include h hreshaped

private theorem quietly_refresh : (Stage.alone.refresh t u).Quietly s fun answer s' =>
    s.Unmoved s' ∧ (s.breakage? = none → answer = .ok ()) := by
  simp only [Stage.refresh, Stage.look, Stage.change, Action.quietly_bind, Action.quietly_get,
    Action.quietly_pure, hreshaped, Bool.true_or, if_true]
  refine (quietly_perform h.sturdy h.rebuild).mono ?_
  rintro (e | ⟨⟩) s₁ ⟨hunmoved, hanswer⟩
  · refine (Action.quietly_pure _).mpr ⟨hunmoved, fun hnone => ?_⟩
    cases hanswer hnone
  · simp only [Action.quietly_bind, Action.quietly_modify, Action.quietly_pure]
    exact ⟨hunmoved.trans (unmoved_stale false s₁), fun _ => trivial⟩

include hleft hcurrent

private theorem quietly_pushed : (Stage.alone.pushed t u).Quietly s fun answer s' =>
    s.Unmoved s' ∧ (s.breakage? = none → answer = .ok ()) := by
  have hpush : (Stage.alone.push t u).Quietly s fun answer s' =>
      s.Unmoved s' ∧ (s.breakage? = none → answer = .ok ()) := by
    simp only [Stage.push, Action.quietly_bind]
    refine (quietly_refresh h hreshaped).mono ?_
    rintro (e | ⟨⟩) s₁ ⟨hunmoved, hanswer⟩
    · refine (Action.quietly_pure _).mpr ⟨hunmoved, fun hnone => ?_⟩
      cases hanswer hnone
    · have h₁ := hunmoved.settled h
      have hplanned : s₁.onLink Link.planned = s₁ := by
        rw [onLink, Link.planned_of_caughtUp h₁.caughtUp]
      have hplan : s₁.link.plan t u = s₁.link.following p := by
        rw [Link.plan_of_caughtUp h₁.caughtUp hleft, hcurrent]
      simp only [Stage.look, Stage.change, Action.quietly_bind, Action.quietly_get,
        Action.quietly_pure, Action.quietly_modify]
      change Action.Quietly (Stage.alone.performAll (s₁.link.plan t u)) (s₁.onLink Link.planned) _
      rw [hplanned, hplan]
      refine (quietly_performAll h₁.sturdy h₁.following).mono fun answer s₂ h₂ => ?_
      exact ⟨hunmoved.trans h₂.1, fun hnone => h₂.2 (hunmoved.plans.eq_none hnone)⟩
  simp only [Stage.pushed, Action.quietly_bind]
  refine hpush.mono ?_
  rintro (e | ⟨⟩) s₁ ⟨hunmoved, hanswer⟩
  · simp only [Stage.change, Action.quietly_bind, Action.quietly_modify, Action.quietly_pure]
    refine ⟨hunmoved.trans (unmoved_stale true s₁), fun hnone => ?_⟩
    cases hanswer hnone
  · simp only [Action.quietly_bind, Action.quietly_pure]
    rw [Action.quietly_note (by decide)]
    exact ⟨hunmoved, fun _ => trivial⟩

/-- **A settled screen that is told the whole state fires nothing and stays as it is.** -/
theorem quietly_follow : (Stage.alone.follow t u).Quietly s fun answer s' =>
    s.Unmoved s' ∧ (s.breakage? = none → answer = .ok ()) := by
  simp only [Stage.follow, Stage.look, Action.quietly_bind, Action.quietly_get,
    Action.quietly_pure]
  change Action.Quietly (if s.link.disconnected = true then _ else if s.link.paused = true then _
    else _) s _
  rw [h.connected, if_neg Bool.false_ne_true, h.unpaused, if_neg Bool.false_ne_true]
  refine Action.Quietly.within ?_ _
  rw [Action.quietly_bracket]
  -- the guard that is raised meanwhile is let go of again
  have hraised : (s.onLink Link.raise).Settled t p :=
    ⟨h.connected, h.unpaused, h.sturdy, h.rebuild, h.following, h.caughtUp⟩
  refine (quietly_pushed hraised hreshaped hleft hcurrent).mono ?_
  rintro answer s₁ ⟨hunmoved, hanswer⟩
  refine ⟨⟨hunmoved.widget, ?_, hunmoved.signals, hunmoved.plans⟩, hanswer⟩
  change s₁.link.lower = _
  rw [hunmoved.link]
  rfl

/-- Unless a call was made to fail, the screen answers well and is not stale afterwards. -/
private theorem quietly_follow_ok : (Stage.alone.follow t u).Quietly s fun _ s' =>
    s.Unmoved s' ∧ (s.breakage? = none → s'.link.stale = false) := by
  have hfollow := (quietly_follow h hreshaped hleft hcurrent).and_leaves
    (link_of_follow h.connected h.unpaused)
  refine hfollow.mono fun answer s' => ?_
  rintro ⟨⟨hunmoved, hanswer⟩, hlink⟩
  refine ⟨hunmoved, fun hnone => ?_⟩
  rw [hlink (by rw [hanswer hnone])]

end Screen

/-! ### Telling the whole state again -/

/-- **A push that goes well leaves the screen settled.** -/
theorem Episode.Sound.settled {x : Episode} {older : List Episode} (h : x.Sound older)
    (hp : x.before.link.paused = false) (hok : x.answer = .ok ()) :
    x.after.Settled x.timeline x.update.current := by
  obtain ⟨hd, hframed, hdone⟩ := h.of_leaves (Screen.pushed_of_follow_ok hp) (by rw [hok])
  have hlink : x.after.link = { x.before.link.planned with stale := false } :=
    h.of_leaves (Screen.link_of_follow hd hp) (by rw [hok])
  rw [Link.planned_eq] at hlink
  have hshown := hdone.shown (h.rows_of_due hd)
  obtain ⟨-, hplan⟩ := hdone
  obtain ⟨o, -, hfollowing⟩ := Outline.performAll_append_eq_ok.mp hplan
  obtain ⟨hinert, hselected⟩ := Outline.inert_of_performAll hfollowing
  refine ⟨?_, ?_, hframed.plans.sturdy h.sturdy,
    Outline.inert_rebuild hshown (h.live_after (by rw [hlink])) hselected, ?_, ?_⟩ <;> rw [hlink]
  · exact hd
  · exact hp
  · exact hinert
  · intro hs
    exact if_pos hs

namespace Chronicle

variable {d d' : Desk Unit Chronicle}

/-- The last thing that happened was an update that was not skipped, and that the screen answered
well. -/
def Synced (d : Desk Unit Chronicle) : Prop :=
  ∃ x older, d.around.episodes = x :: older ∧ x.before.link.paused = false ∧ x.answer = .ok () ∧
    d.around.screen = x.after ∧ d.journal.timeline = x.timeline ∧
    d.journal.cursor = x.update.current ∧ d.attached = some ()

/-- A request behind which the screen was told once more, and answered well, is the last thing that
happened. -/
private theorem synced_of_grant (h : Inv d) (r : Request) :
    (grant r).Leaves d fun _ d' => ∀ x, d'.around.episodes = x :: d.around.episodes →
      x.before.link.paused = false → x.answer = .ok () → Synced d' := by
  refine (continues_grant h r).mono fun _ d' hcontinues x hx hp hok => ?_
  rcases hcontinues with hsame | ⟨y, haround, ht, hcursor, hatt⟩
  · exact absurd (hsame.symm.trans hx).symm (List.cons_ne_self x _)
  · obtain rfl : y = x := by
      rw [haround] at hx
      exact (List.cons.inj hx).1
    exact ⟨y, d.around.episodes, hx, hp, hok, by rw [haround], ht.symm, hcursor.symm, hatt⟩

private theorem Synced.settled (h : Inv d) (hs : Synced d) :
    d.around.screen.Settled d.journal.timeline d.journal.cursor := by
  obtain ⟨x, older, hepisodes, hp, hok, hscreen, ht, hcursor, -⟩ := hs
  rw [hscreen, ht, hcursor]
  exact (h.orderly [] x older hepisodes).settled hp hok

/-- What is left of a desk whose screen was told the whole state some times: journal and follower,
view, listeners and guards are as they were, and unless a call was made to fail, so is all of the
link. -/
structure Stands (d d' : Desk Unit Chronicle) : Prop where
  journal : d'.journal = d.journal
  attached : d'.attached = d.attached
  screen : d.around.screen.Unmoved d'.around.screen
  link : d.around.screen.breakage? = none → d'.around.screen.link = d.around.screen.link

/-- Telling the whole state to a screen that is settled. -/
private theorem quietly_resync (hatt : d.attached = some ())
    (hs : d.around.screen.Settled d.journal.timeline d.journal.cursor) :
    (Desk.resync following).Quietly d fun _ d' => d'.journal = d.journal ∧
      d'.attached = d.attached ∧ d.around.screen.Unmoved d'.around.screen ∧
      (d.around.screen.breakage? = none → d'.around.screen.link.stale = false) := by
  have hzoom : inside.follow d.journal.timeline (d.journal.standing .resync) =
      Action.zoom screenLens (Stage.alone.follow d.journal.timeline (d.journal.standing .resync)) :=
    Stage.follow_eq_zoom lawful_screenLens _ _
  simp only [Desk.resync, Desk.tell, Action.quietly_bind, Action.quietly_get, hatt,
    Action.quietly_zoom, following, hzoom, Action.quietly_modify, Action.quietly_pure]
  refine (Screen.quietly_follow_ok hs rfl rfl rfl).mono fun answer s' hunmoved => ?_
  rcases answer with e | ⟨⟩
  · rw [Action.quietly_note (by decide)]
    exact ⟨rfl, hatt, hunmoved⟩
  · exact (Action.quietly_pure _).mpr ⟨rfl, hatt, hunmoved⟩

/-- **Telling a screen the whole state again is silent and changes nothing**, whatever happened
before, as long as the last of it was an update that the screen followed well: however often it is
done, no fault is met and no signal fired, and journal, follower, view, listeners and guards are
what they were. -/
theorem quietly_resync_of_after (settings : Settings) (handlers : Handlers) (recorded : Bool)
    (o : Outline) (reply : UserAct → Desk Unit Chronicle → List Request) (moves : List Move)
    (h : Synced (after reply (start settings handlers recorded o) moves)) (n : Nat) :
    (Action.each grant (List.replicate n .resync)).Quietly
      (after reply (start settings handlers recorded o) moves)
      fun _ d' => Stands (after reply (start settings handlers recorded o) moves) d' := by
  have hinv : Inv (after reply (start settings handlers recorded o) moves) :=
    (inv_start settings handlers recorded o).after moves
  generalize after reply (start settings handlers recorded o) moves = d at h hinv ⊢
  have hsettled := h.settled hinv
  obtain ⟨x, older, hepisodes, hp, hok, hscreen, -, -, hatt⟩ := h
  have hfresh : d.around.screen.link.stale = false := by
    obtain ⟨hd, -, hstale, -⟩ :=
      (hinv.orderly [] x older hepisodes).of_leaves (Screen.pushed_of_follow_ok hp) (by rw [hok])
    rw [hscreen, hstale]
  refine Action.quietly_each (fun r hr d' hstands => ?_)
    ⟨rfl, rfl, Screen.Unmoved.refl _, fun _ => rfl⟩
  obtain rfl := List.eq_of_mem_replicate hr
  have hsettled' := hstands.screen.settled hsettled
  rw [← hstands.journal] at hsettled'
  refine (quietly_resync (hstands.attached.trans hatt) hsettled').mono fun _ d'' => ?_
  rintro ⟨hjournal, hattached, hunmoved, hstale⟩
  refine ⟨hjournal.trans hstands.journal, hattached.trans hstands.attached,
    hstands.screen.trans hunmoved, fun hnone => ?_⟩
  rw [(hstands.screen.trans hunmoved).link,
    hstale (hstands.screen.plans.eq_none hnone), ← hfresh]

/-- The second commit finds a view that fails to select, and a call that nothing has asked for yet
is still to fail; the third one goes well. -/
def recovered : List Move :=
  [.request .reattach, .request (.hear (.committed ⟨⟨0⟩, "Move", "one"⟩)),
    .request (.control (.plant .select)), .request (.hear (.committed ⟨⟨1⟩, "Move", "two"⟩)),
    .request (.control (.plant .clearSelection)), .gesture (.click 1)]

/-- The desk behind them. -/
def mended : Desk Unit Chronicle :=
  after (fun _ _ => []) (start {} {} true (.empty {} .unicode 2)) recovered

/-- The commit behind which everything is in order. -/
def mending : Move := .request (.hear (.committed ⟨⟨2⟩, "Edit", "three"⟩))

/-- Behind that commit the whole state can be told twice to no effect. -/
theorem quietly_resync_of_after_recovered :
    Synced (after (fun _ _ => []) (start {} {} true (.empty {} .unicode 2))
        (recovered ++ [mending])) ∧
      (Action.each grant (List.replicate 2 .resync)).Quietly
        (after (fun _ _ => []) (start {} {} true (.empty {} .unicode 2)) (recovered ++ [mending]))
        fun _ d' => Stands (after (fun _ _ => []) (start {} {} true (.empty {} .unicode 2))
          (recovered ++ [mending])) d' := by
  suffices h : Synced (after (fun _ _ => []) (start {} {} true (.empty {} .unicode 2))
      (recovered ++ [mending])) from
    ⟨h, quietly_resync_of_after {} {} true (.empty {} .unicode 2) (fun _ _ => [])
      (recovered ++ [mending]) h 2⟩
  have hafter : after (fun _ _ => []) (start {} {} true (.empty {} .unicode 2))
      (recovered ++ [mending]) = ((make (fun _ _ => []) mending).run mended).state := by
    simp [after, mended]
  have hinv : Inv mended := (inv_start {} {} true (.empty {} .unicode 2)).after recovered
  have hcontinues : Continues mended ((make (fun _ _ => []) mending).run mended).state :=
    continues_grant hinv _
  have hsynced := synced_of_grant hinv (.hear (.committed ⟨⟨2⟩, "Edit", "three"⟩))
  have hlast : ((make (fun _ _ => []) mending).run mended).state.around.episodes.map
      (fun x => (x.before.link.paused, x.answer.isOk)) =
      [(false, true), (false, false), (false, true), (false, true)] := by
    decide +kernel
  have hbefore : mended.around.episodes.length = 3 := by decide +kernel
  rw [hafter]
  rcases hcontinues with hsame | ⟨x, haround, -⟩
  · have hlength := congrArg List.length hlast
    rw [List.length_map, hsame, hbefore] at hlength
    cases hlength
  · rw [haround, List.map_cons] at hlast
    obtain ⟨hpaused, hok⟩ := Prod.mk.inj (List.cons.inj hlast).1
    exact hsynced x (congrArg Chronicle.episodes haround) hpaused (Episode.answer_of_isOk hok)

end Chronicle

end UndoJournal
