import Mathlib.Data.List.Chain
import UndoJournal.Proofs.Action.Alike
import UndoJournal.Proofs.Desk.Requests
import UndoJournal.Proofs.Journal.Leaving

/-!
# The stream of updates is enough to follow a journal

`Following.logged` keeps a log of everything that followers are told, beside what they act on; it
changes nothing else (`Desk.alike_ask_logged`). Whatever is asked of a desk, also where a follower
meets a fault in the middle of an update, the log says this.

* A request is told to the follower that is attached afterwards, once, exactly if it publishes
  anything (`Request.publishes`), with the cursor before and after it, in the timeline after it
  (`Telling.Says`).
* An update that is not announced as reshaped comes right behind an update to the same follower
  about the same timeline. So a follower that takes a copy of the timeline only with reshaped
  updates **always has the current one while it is attached**, across all the gaps in which it was
  not (`Desk.Streamed`).
-/

namespace UndoJournal

variable {φ ω : Type}

/-- An update as a follower was told of it. -/
structure Telling (φ : Type) where
  /-- Who was told. -/
  follower : φ
  /-- The timeline as it was then. -/
  timeline : Timeline
  /-- The update. -/
  update : CursorUpdate

/-- What a follower has that takes a copy of the timeline only with reshaped updates. -/
def Telling.copy [DecidableEq φ] (follower : φ) (log : List (Telling φ)) : Option Timeline :=
  log.foldl (fun held x =>
    if x.follower = follower ∧ x.update.reshaped = true then some x.timeline else held) none

/-- What followers act on, as a part of it with a log. -/
def Telling.plainLens : Lens (ω × List (Telling φ)) ω := ⟨Prod.fst, fun w x => (w, x.2)⟩

/-- Followers with a log of everything they are told. -/
def Following.logged (f : Following φ ω) : Following φ (ω × List (Telling φ)) where
  follow follower t u := do
    Action.modify fun w => (w.1, w.2 ++ [⟨follower, t, u⟩])
    Action.zoom Telling.plainLens (f.follow follower t u)
  detached follower := Action.zoom Telling.plainLens (f.detached follower)
  dropped follower := Action.zoom Telling.plainLens (f.dropped follower)

/-- A follower that the journal lets go of meets no fault over it, whatever happens to it when it is
told of updates. -/
structure Following.LetsGo (f : Following φ ω) : Prop where
  detached : ∀ follower w, (f.detached follower).Gives w fun _ _ => True
  dropped : ∀ follower w, (f.dropped follower).Gives w fun _ _ => True

private theorem Following.Answers.letsGo {f : Following φ ω} (h : f.Answers) : f.LetsGo :=
  ⟨h.detached, h.dropped⟩

namespace Desk

/-- Whether a request is one that the follower is told of, if there is one. -/
def Request.publishes (j : Journal) : Request φ → Bool
  | .hear notice => j.heeds notice
  | .attach _ | .resync => true
  | .mute _ | .place _ | .detach => false

/-- The cause that is named when a request is told. -/
def Request.cause? : Request φ → Option Cause
  | .hear notice => some notice.cause
  | .attach _ => some .attach
  | .resync => some .resync
  | .mute _ | .place _ | .detach => none

/-- Whether a request makes the cursor move along the timeline. -/
def Request.moves : Request φ → Bool
  | .hear notice => notice.moves
  | _ => false

/-- Who is attached after a request. -/
def Request.attachedAfter (attached : Option φ) : Request φ → Option φ
  | .attach follower => some follower
  | .detach => none
  | _ => attached

end Desk

/-- What one telling of a request says about the journal before and after it. -/
structure Telling.Says (x : Telling φ) (r : Desk.Request φ) (j j' : Journal) : Prop where
  cause : r.cause? = some x.update.cause
  /-- The timeline comes along as it is afterwards. -/
  timeline : x.timeline = j'.timeline
  /-- The cursor as it was before. -/
  previous : x.update.previous = j.cursor
  /-- The cursor as it is afterwards. -/
  current : x.update.current = j'.cursor
  /-- The timeline has the position that is named. -/
  contains : x.timeline.contains x.update.current = true
  /-- Only notices are told without being announced as reshaped, and the timeline is then as it
  was. -/
  unchanged : x.update.reshaped = false →
    j'.timeline = j.timeline ∧ ∃ notice, r = .hear notice
  /-- A move names the run that the cursor has left, if that still has entries behind its head. -/
  left_iff : r.moves = true → ∀ group, x.update.left = some group ↔
    j.cursor.group? = some group ∧ j'.cursor.group? ≠ some group ∧
      j'.timeline.hasChildren group = true
  /-- The run that is named is known by the same head in both timelines. -/
  same_head : r.moves = true → ∀ group, x.update.left = some group →
    ∃ e, j.timeline.head? group = some e ∧ j'.timeline.head? group = some e

namespace Desk

variable {f : Following φ ω}

/-- Everything that followers were told. -/
def log (d : Desk φ (ω × List (Telling φ))) : List (Telling φ) := d.around.2

/-- The desk without the log. -/
def plain (d : Desk φ (ω × List (Telling φ))) : Desk φ ω := ⟨d.journal, d.attached, d.around.1⟩

/-- The desk after some requests, whichever of them met a fault. -/
def asked (f : Following φ ω) (d : Desk φ ω) (rs : List (Request φ)) : Desk φ ω :=
  rs.foldl (fun d r => ((ask f r).run d).state) d

/-- What a request leaves of a desk: the journal, who is attached, and what was told. -/
structure Publishes (d : Desk φ (ω × List (Telling φ))) (r : Request φ)
    (d' : Desk φ (ω × List (Telling φ))) : Prop where
  attached : d'.attached = r.attachedAfter d.attached
  /-- Who is attached afterwards was told once, or nobody was told anything. -/
  told : ∃ told, d'.log = d.log ++ told ∧
    told.map Telling.follower =
      (if r.publishes d.journal then r.attachedAfter d.attached else none).toList ∧
    ∀ x ∈ told, x.Says r d.journal d'.journal
  /-- What is told to nobody changes no timeline. -/
  quiet : r.publishes d.journal = false → d'.journal.timeline = d.journal.timeline

/-- The log of a desk is one stream: tellings that are not announced as reshaped go on from the one
in front of them, and the last one shows who is attached the timeline as it is. -/
structure Streamed [DecidableEq φ] (d : Desk φ (ω × List (Telling φ))) : Prop where
  /-- The journal traces some stack, so it meets no fault. -/
  traces : ∃ s, d.journal.Traces s
  /-- An update that is not announced as reshaped is told to the same follower as the update in
  front of it, about the same timeline. -/
  chain : d.log.IsChain fun x y => y.update.reshaped = false →
    y.follower = x.follower ∧ y.timeline = x.timeline
  /-- The first update of all is announced as reshaped. -/
  first : ∀ x, d.log.head? = some x → x.update.reshaped = true
  /-- Who is attached was the last to be told, about the timeline as it is. -/
  last : ∀ follower, d.attached = some follower →
    ∃ x, d.log.getLast? = some x ∧ x.follower = follower ∧ x.timeline = d.journal.timeline
  /-- Who is attached and copies reshaped timelines only has the timeline as it is. -/
  copied : ∀ follower, d.attached = some follower →
    Telling.copy follower d.log = some d.journal.timeline

end Desk

/-! ### The log changes nothing -/

namespace Desk

variable {f : Following φ ω} {d d' : Desk φ (ω × List (Telling φ))} {s : Stack} {r : Request φ}

/-- What `x` does to a desk with a log, `y` does to the desk without it. -/
private abbrev Unlogged {α : Type} (x : Action (Desk φ (ω × List (Telling φ))) α)
    (d : Desk φ (ω × List (Telling φ))) (y : Action (Desk φ ω) α) : Prop :=
  Action.Alike x d y d.plain fun d' e => d'.plain = e

private theorem unlogged_tell (u : CursorUpdate) (d : Desk φ (ω × List (Telling φ))) :
    Unlogged (tell f.logged u) d (tell f u) := by
  refine Action.Alike.get_bind ?_
  obtain ⟨journal, _ | follower, around⟩ := d
  · exact Action.Alike.pure () rfl
  · refine Action.Alike.seq ?_ ?_
    · refine Action.Alike.zoom (Action.Alike.modify_left (Action.Alike.zoom_left ?_))
      exact (Action.Alike.refl _ _).mono fun w w' h => by rw [h]; rfl
    · rintro (e | ⟨⟩) d' _ rfl
      · exact Action.Alike.report _ rfl
      · exact Action.Alike.pure () rfl

private theorem unlogged_enact (r : Except Fault Reaction) (d : Desk φ (ω × List (Telling φ))) :
    Unlogged (enact f.logged r) d (enact f r) := by
  refine Action.Alike.seq (Action.Alike.ofExcept r rfl) ?_
  rintro r d _ rfl
  refine Action.Alike.seq (Action.Alike.modify rfl) ?_
  rintro - d _ rfl
  refine Action.Alike.seq (Action.Alike.report _ rfl) ?_
  rintro - d _ rfl
  rcases r.update with _ | u
  · exact Action.Alike.pure () rfl
  · exact unlogged_tell u d

private theorem unlogged_letGo (follower : φ) (d : Desk φ (ω × List (Telling φ))) :
    Unlogged (letGo f.logged follower) d (letGo f follower) := by
  have hpart : ∀ (x : Action ω Unit) (w : ω × List (Telling φ)),
      Action.Alike (Action.zoom Telling.plainLens x) w x w.1 fun w' v =>
        (aroundLens.set w' d).plain = aroundLens.set v d.plain :=
    fun x w => Action.Alike.zoom_left ((Action.Alike.refl _ _).mono fun v v' h => h ▸ rfl)
  refine Action.Alike.zoom (Action.Alike.seq (hpart _ _) ?_)
  intro _ w v h
  obtain rfl : w.1 = v := congrArg Desk.around h
  exact hpart _ w

private theorem unlogged_attach (follower : φ) (d : Desk φ (ω × List (Telling φ))) :
    Unlogged (attach f.logged follower) d (attach f follower) := by
  refine Action.Alike.get_bind ?_
  refine Action.Alike.seq (Action.Alike.modify rfl) ?_
  rintro - d' _ rfl
  have htell : ∀ d' : Desk φ (ω × List (Telling φ)), Unlogged
      (Action.note .debug "view attached" [("current", d.journal.cursor.text)] >>= fun _ =>
        tell f.logged (d.journal.standing .attach)) d'
      (Action.note .debug "view attached" [("current", d.journal.cursor.text)] >>= fun _ =>
        tell f (d.journal.standing .attach)) := by
    intro d'
    refine Action.Alike.seq (Action.Alike.report _ rfl) ?_
    rintro - d' _ rfl
    exact unlogged_tell _ d'
  obtain ⟨journal, _ | old, around⟩ := d
  · exact htell d'
  · refine Action.Alike.seq (unlogged_letGo old d') ?_
    rintro - d' _ rfl
    exact htell d'

/-- **The log is only a record**: whatever is asked, with the log or without it, the same notes are
reported, the same faults are met, and apart from the log the same desk is left. -/
theorem alike_ask_logged (r : Request φ) (d : Desk φ (ω × List (Telling φ))) :
    Action.Alike (ask f.logged r) d (ask f r) d.plain fun d' e => d'.plain = e := by
  cases r with
  | hear notice => exact Action.Alike.get_bind (unlogged_enact _ d)
  | mute muted => exact Action.Alike.modify rfl
  | place p =>
    exact Action.Alike.zoom ((Action.Alike.refl _ _).mono fun j j' h => by rw [h]; rfl)
  | attach follower => exact unlogged_attach follower d
  | detach =>
    refine Action.Alike.seq (Action.Alike.get_bind ?_) fun _ _ _ h => Action.Alike.pure () h
    obtain ⟨journal, _ | follower, around⟩ := d
    · exact Action.Alike.pure none rfl
    · refine Action.Alike.seq (Action.Alike.modify rfl) ?_
      rintro - d' _ rfl
      exact Action.Alike.seq (Action.Alike.report _ rfl) fun _ _ _ h => Action.Alike.pure _ h
  | resync => exact Action.Alike.get_bind (unlogged_tell _ d)

/-! ### What one request is told -/

/-- Telling leaves everything alone but the log, which gets one entry if somebody is attached. -/
private theorem leaves_tell_logged (u : CursorUpdate) (d : Desk φ (ω × List (Telling φ))) :
    (tell f.logged u).Leaves d fun _ d' => d'.journal = d.journal ∧ d'.attached = d.attached ∧
      d'.log = d.log ++
        (d.attached.map fun follower => ⟨follower, d.journal.timeline, u⟩).toList := by
  rcases h : d.attached with _ | follower
  · refine (run_tell_of_none h u).leaves ?_
    rintro - _ rfl
    exact ⟨rfl, h, (List.append_nil _).symm⟩
  · rw [leaves_tell_of_some h]
    -- whatever the follower does, the entry was written before
    exact ⟨rfl, h, rfl⟩

/-- Letting a follower go leaves the journal, who is attached and the log alone. -/
private theorem gives_letGo_logged (hf : f.LetsGo) (follower : φ)
    (d : Desk φ (ω × List (Telling φ))) :
    (letGo f.logged follower).Gives d fun _ d' =>
      d'.journal = d.journal ∧ d'.attached = d.attached ∧ d'.log = d.log := by
  simp only [letGo, Following.logged, Action.gives_zoom, Action.gives_bind]
  refine (hf.detached follower _).mono fun _ w _ => ?_
  exact (hf.dropped follower _).mono fun _ w' _ => ⟨rfl, rfl, rfl⟩

/-- A heeded notice is told as it is. -/
private theorem says_of_tells {x : Telling φ} {j : Journal} {reaction : Reaction} {notice : Notice}
    (h : reaction.Tells j notice x.update) (ht : x.timeline = reaction.journal.timeline)
    (hs : reaction.journal.Traces s) : x.Says (.hear notice) j reaction.journal := by
  have hleft : notice.moves = true → x.update.left =
      Journal.leftBy reaction.journal.timeline j.cursor reaction.journal.cursor :=
    fun hmoves => by rw [h.left, if_pos hmoves]
  refine ⟨congrArg some h.cause.symm, ht, h.previous, h.current, ?_,
    fun hshape => ⟨h.reshaped hshape, notice, rfl⟩, fun hmoves group => ?_,
    fun hmoves group hgroup => ?_⟩
  · rw [ht, h.current]
    exact hs.contains_cursor
  · rw [hleft hmoves]
    exact Journal.leftBy_eq_some_iff
  · rw [hleft hmoves] at hgroup
    exact h.head hmoves group (Journal.leftBy_eq_some_iff.mp hgroup).1

/-- The whole state is told without a move. -/
private theorem says_standing {cause : Cause} (hr : r.cause? = some cause)
    (hmoves : r.moves = false)
    {j : Journal} (hs : j.Traces s) (follower : φ) :
    (⟨follower, j.timeline, j.standing cause⟩ : Telling φ).Says r j j where
  cause := hr
  timeline := rfl
  previous := rfl
  current := rfl
  contains := hs.contains_cursor
  unchanged := nofun
  left_iff h := by simp [hmoves] at h
  same_head h := by simp [hmoves] at h

/-- A request after which nobody was told and the timeline is what it was. -/
private theorem publishes_quietly (hattached : d'.attached = r.attachedAfter d.attached)
    (hlog : d'.log = d.log) (ht : d'.journal.timeline = d.journal.timeline)
    (hquiet : r.publishes d.journal = false) : d.Publishes r d' := by
  refine ⟨hattached, ⟨[], by rw [hlog, List.append_nil], ?_, by simp⟩, fun _ => ht⟩
  rw [hquiet]
  rfl

/-- A request after which whoever is attached was told. -/
private theorem publishes_loudly (u : CursorUpdate)
    (hattached : d'.attached = r.attachedAfter d.attached)
    (hlog : d'.log = d.log ++
      (d'.attached.map fun follower => ⟨follower, d'.journal.timeline, u⟩).toList)
    (htold : ∀ follower, (⟨follower, d'.journal.timeline, u⟩ : Telling φ).Says r d.journal
      d'.journal) (hloud : r.publishes d.journal = true) : d.Publishes r d' := by
  refine ⟨hattached, ⟨_, hlog, ?_, ?_⟩, fun hquiet => by simp [hquiet] at hloud⟩
  · rw [hloud, if_pos rfl, ← hattached]
    cases d'.attached <;> rfl
  · intro x hx
    rcases hd : d'.attached with _ | follower
    · simp [hd] at hx
    · obtain rfl : x = ⟨follower, d'.journal.timeline, u⟩ := by simpa [hd] using hx
      exact htold follower

private theorem publishes_hear (h : d.journal.Traces s) (notice : Notice) :
    (hear f.logged notice).Leaves d fun _ d' =>
      d.Publishes (.hear notice) d' ∧ d'.journal.Traces (s.hear notice) := by
  obtain ⟨reaction, hhear, htraces⟩ := h.hear notice
  obtain ⟨hheeds, htells⟩ := Journal.hear_tells h.contains_cursor hhear
  simp only [hear, Action.leaves_bind, Action.leaves_get, hhear]
  rw [leaves_enact]
  rcases hu : reaction.update with _ | u
  · rw [hu] at hheeds
    have hsame : reaction.journal = d.journal := (Journal.announces_hear hhear).silent hu
    exact ⟨publishes_quietly rfl rfl (congrArg Journal.timeline hsame) hheeds.symm, htraces⟩
  · rw [hu] at hheeds
    refine (leaves_tell_logged u _).mono ?_
    rintro - d' ⟨hj, hattached, hlog⟩
    refine ⟨publishes_loudly u hattached ?_ (fun follower => ?_) hheeds.symm, hj ▸ htraces⟩
    · rw [hattached, hj]
      exact hlog
    · rw [hj]
      exact says_of_tells (htells u hu) rfl htraces

private theorem publishes_attach (hf : f.LetsGo) (h : d.journal.Traces s) (follower : φ) :
    (attach f.logged follower).Leaves d fun _ d' =>
      d.Publishes (.attach follower) d' ∧ d'.journal = d.journal := by
  -- the follower is in place before it is told, and the one before it was let go of by then
  have htell : ∀ d₁ : Desk φ (ω × List (Telling φ)), d₁.journal = d.journal →
      d₁.attached = some follower → d₁.log = d.log →
      (tell f.logged (d.journal.standing .attach)).Leaves d₁ fun _ d' =>
        d.Publishes (.attach follower) d' ∧ d'.journal = d.journal := by
    intro d₁ hj hattached hlog
    refine (leaves_tell_logged _ d₁).mono ?_
    rintro - d' ⟨hj', hattached', hlog'⟩
    have hj'' : d'.journal = d.journal := hj'.trans hj
    refine ⟨publishes_loudly (d.journal.standing .attach) (hattached'.trans hattached) ?_
      (fun follower => ?_) rfl, hj''⟩
    · rw [hlog', hlog, hattached', hj', hj]
    · rw [hj'']
      exact says_standing rfl rfl h follower
  simp only [attach, Action.leaves_bind, Action.leaves_get, Action.leaves_modify]
  cases d.attached with
  | none =>
    simp only [Action.leaves_bind, Action.leaves_note]
    exact htell _ rfl rfl rfl
  | some old =>
    simp only [Action.leaves_bind]
    refine (gives_letGo_logged hf old _).leaves ?_
    rintro - d₁ ⟨hj, hattached, hlog⟩
    exact htell d₁ hj hattached hlog

/-- **One request** tells the follower that is attached afterwards, or nobody, and leaves a journal
that traces a stack. -/
theorem publishes_ask (hf : f.LetsGo) (h : ∃ s, d.journal.Traces s) (r : Request φ) :
    (ask f.logged r).Leaves d fun _ d' => d.Publishes r d' ∧ ∃ s, d'.journal.Traces s := by
  obtain ⟨s, hs⟩ := h
  cases r with
  | hear notice => exact (publishes_hear hs notice).mono fun _ _ h => ⟨h.1, _, h.2⟩
  | mute muted =>
    simp only [ask, mute, Action.leaves_modify]
    exact ⟨publishes_quietly rfl rfl rfl rfl, _, hs.mute muted⟩
  | place p =>
    simp only [ask, place, Journal.placing, Action.leaves_zoom, Action.leaves_bind,
      Action.leaves_get, Action.leaves_ofExcept]
    rcases hplace : (journalLens.get d).place p with fault | reaction
    · exact ⟨publishes_quietly rfl rfl rfl rfl, s, hs⟩
    · simp only [Action.leaves_modify, Action.leaves_report]
      have hj : reaction.journal = { d.journal with cursor := p } := (Journal.place_eq_ok hplace).1
      have hcontains : d.journal.timeline.contains p = true := by
        by_contra hno
        simp [Journal.place, journalLens, hno] at hplace
      obtain ⟨n, hn⟩ := Timeline.contains_iff_exists_ordinal.mp hcontains
      -- the number of the place becomes the boundary of the stack
      obtain ⟨reaction', hplace', htraces⟩ := hs.place hn
      obtain rfl : reaction = reaction' := Except.ok.inj (hplace.symm.trans hplace')
      refine ⟨publishes_quietly rfl rfl ?_ rfl, _, htraces⟩
      change reaction.journal.timeline = d.journal.timeline
      rw [hj]
  | attach follower =>
    exact (publishes_attach hf hs follower).mono fun _ d' h => ⟨h.1, s, h.2 ▸ hs⟩
  | detach =>
    simp only [ask, Action.leaves_bind]
    refine (gives_detach d).leaves ?_
    rintro _ _ ⟨-, rfl⟩
    exact ⟨publishes_quietly rfl rfl rfl rfl, s, hs⟩
  | resync =>
    simp only [ask, resync, Action.leaves_bind, Action.leaves_get]
    refine (leaves_tell_logged _ d).mono ?_
    rintro - d' ⟨hj, hattached, hlog⟩
    refine ⟨publishes_loudly (d.journal.standing .resync) hattached ?_ (fun follower => ?_) rfl, s,
      hj ▸ hs⟩
    · rw [hlog, hattached, hj]
    · rw [hj]
      exact says_standing rfl rfl hs follower

/-! ### Any requests -/

variable [DecidableEq φ]

private theorem streamed_empty (settings : Settings) (around : ω) :
    (empty settings (around, []) : Desk φ (ω × List (Telling φ))).Streamed :=
  ⟨⟨_, Journal.traces_empty settings⟩, List.isChain_nil, nofun, nofun, nofun⟩

/-- One more telling is copied if it is announced as reshaped. -/
private theorem copy_concat (follower : φ) (log : List (Telling φ)) (x : Telling φ) :
    Telling.copy follower (log ++ [x]) =
      if x.follower = follower ∧ x.update.reshaped = true then some x.timeline
      else Telling.copy follower log := by
  rw [Telling.copy, Telling.copy, List.foldl_append, List.foldl_cons, List.foldl_nil]

omit [DecidableEq φ] in
/-- Where nothing was published, nobody is attached that was not before. -/
private theorem Publishes.attached_of_quiet (h : d.Publishes r d')
    (hquiet : r.publishes d.journal = false) {follower : φ} (hf : d'.attached = some follower) :
    d.attached = some follower := by
  rw [h.attached] at hf
  cases r with
  | attach follower' => simp [Request.publishes] at hquiet
  | detach => cases hf
  | hear notice => exact hf
  | mute muted => exact hf
  | place p => exact hf
  | resync => exact hf

omit [DecidableEq φ] in
/-- What is told without being announced as reshaped goes to who was attached before, and is about
the timeline as it was. -/
private theorem Publishes.of_not_reshaped {x : Telling φ} (h : d.Publishes r d')
    (hx : x.Says r d.journal d'.journal) (hf : d'.attached = some x.follower)
    (hshape : x.update.reshaped = false) :
    d.attached = some x.follower ∧ x.timeline = d.journal.timeline := by
  obtain ⟨ht, notice, rfl⟩ := hx.unchanged hshape
  exact ⟨h.attached.symm.trans hf, hx.timeline.trans ht⟩

/-- Where nobody was told, the log stays in order, as long as who is attached was so before with the
same timeline. -/
private theorem Streamed.untold (h : d.Streamed) (htraces : ∃ s, d'.journal.Traces s)
    (hlog : d'.log = d.log) (hsame : ∀ follower, d'.attached = some follower →
      d.attached = some follower ∧ d'.journal.timeline = d.journal.timeline) : d'.Streamed where
  traces := htraces
  chain := hlog ▸ h.chain
  first := hlog ▸ h.first
  last follower hf := by
    obtain ⟨hattached, ht⟩ := hsame follower hf
    rw [hlog, ht]
    exact h.last follower hattached
  copied follower hf := by
    obtain ⟨hattached, ht⟩ := hsame follower hf
    rw [hlog, ht]
    exact h.copied follower hattached

section Told

variable {x : Telling φ} (h : d.Streamed) (hbefore : x.update.reshaped = false →
  d.attached = some x.follower ∧ x.timeline = d.journal.timeline)

include h hbefore

/-- One more telling goes on from the one in front of it. -/
private theorem Streamed.chain_concat :
    (d.log ++ [x]).IsChain fun x y => y.update.reshaped = false →
      y.follower = x.follower ∧ y.timeline = x.timeline := by
  refine List.isChain_append.mpr ⟨h.chain, List.isChain_singleton _, ?_⟩
  intro y hy z hz hshape
  obtain rfl : x = z := by simpa using hz
  obtain ⟨hattached, ht⟩ := hbefore hshape
  obtain ⟨y', hy', hfollower, ht'⟩ := h.last _ hattached
  obtain rfl : y' = y := Option.some.inj (hy'.symm.trans hy)
  exact ⟨hfollower.symm, ht.trans ht'.symm⟩

/-- Where nobody was told before, nobody was attached, so the telling is announced as reshaped. -/
private theorem Streamed.first_concat {y : Telling φ} (hy : (d.log ++ [x]).head? = some y) :
    y.update.reshaped = true := by
  rcases hempty : d.log with _ | ⟨z, zs⟩
  · rw [hempty] at hy
    obtain rfl : x = y := by simpa using hy
    by_contra hshape
    obtain ⟨hattached, -⟩ := hbefore (by simpa using hshape)
    obtain ⟨y', hy', -⟩ := h.last _ hattached
    simp [hempty] at hy'
  · rw [hempty] at hy
    exact h.first y (hempty ▸ hy)

/-- Who was told has the timeline of the telling. -/
private theorem Streamed.copy_told :
    Telling.copy x.follower (d.log ++ [x]) = some x.timeline := by
  rw [copy_concat]
  cases hshape : x.update.reshaped with
  | true => rw [if_pos ⟨rfl, rfl⟩]
  | false =>
    obtain ⟨hattached, ht⟩ := hbefore hshape
    rw [if_neg (by simp), h.copied _ hattached, ← ht]

/-- Where somebody was told, the log stays in order. -/
private theorem Streamed.told (htraces : ∃ s, d'.journal.Traces s) (hlog : d'.log = d.log ++ [x])
    (hattached : d'.attached = some x.follower) (ht : x.timeline = d'.journal.timeline) :
    d'.Streamed where
  traces := htraces
  chain := hlog ▸ h.chain_concat hbefore
  first _ hy := h.first_concat hbefore (hlog ▸ hy)
  last follower hf := by
    obtain rfl : x.follower = follower := Option.some.inj (hattached.symm.trans hf)
    exact ⟨x, by rw [hlog, List.getLast?_concat], rfl, ht⟩
  copied follower hf := by
    obtain rfl : x.follower = follower := Option.some.inj (hattached.symm.trans hf)
    rw [hlog, h.copy_told hbefore, ht]

end Told

/-- **What a request is told keeps the log in order.** -/
theorem Streamed.publishes (h : d.Streamed) (hp : d.Publishes r d')
    (htraces : ∃ s, d'.journal.Traces s) : d'.Streamed := by
  obtain ⟨told, hlog, hwho, htold⟩ := hp.told
  cases hr : r.publishes d.journal with
  | false =>
    rw [hr, if_neg Bool.false_ne_true, Option.toList_none, List.map_eq_nil_iff] at hwho
    rw [hwho, List.append_nil] at hlog
    exact h.untold htraces hlog fun _ hf => ⟨hp.attached_of_quiet hr hf, hp.quiet hr⟩
  | true =>
    rw [hr, if_pos rfl, ← hp.attached] at hwho
    rcases hd' : d'.attached with _ | follower
    · rw [hd', Option.toList_none, List.map_eq_nil_iff] at hwho
      rw [hwho, List.append_nil] at hlog
      exact h.untold htraces hlog fun _ hf => nomatch hd'.symm.trans hf
    · rw [hd', Option.toList_some] at hwho
      obtain ⟨x, rfl, rfl⟩ := List.map_eq_singleton_iff.mp hwho
      have hx := htold x List.mem_cons_self
      exact h.told (hp.of_not_reshaped hx hd') htraces hlog hd' hx.timeline

/-- The log stays in order through any requests. -/
private theorem Streamed.asked (hf : f.LetsGo) (h : d.Streamed) (rs : List (Request φ)) :
    (asked f.logged d rs).Streamed := by
  induction rs generalizing d with
  | nil => exact h
  | cons r rs ih =>
    obtain ⟨hp, htraces⟩ := publishes_ask hf h.traces r
    exact ih (h.publishes hp htraces)

omit [DecidableEq φ] in
/-- The log is a record of any requests as it is of one. -/
private theorem plain_asked (f : Following φ ω) (d : Desk φ (ω × List (Telling φ)))
    (rs : List (Request φ)) : (Desk.asked f.logged d rs).plain = Desk.asked f d.plain rs := by
  induction rs generalizing d with
  | nil => rfl
  | cons r rs ih =>
    have hstep := (alike_ask_logged (f := f) r d).state
    change (Desk.asked f.logged ((ask f.logged r).run d).state rs).plain = _
    rw [ih, hstep]
    rfl

/-- **The stream of updates is enough to follow a journal.** After any requests the log of what
followers were told is in order, so that whoever is attached and copies reshaped timelines only has
the current one; and whatever is asked next is told as it should be. The log is only a record of
what happens without it. -/
theorem each_request_is_streamed (hf : f.LetsGo) (settings : Settings) (around : ω)
    (rs : List (Request φ)) :
    let d := Desk.asked f.logged (empty settings (around, [])) rs
    d.Streamed ∧ (∀ r, (ask f.logged r).Leaves d fun _ d' => d.Publishes r d') ∧
      d.plain = Desk.asked f (empty settings around) rs := by
  intro d
  have hd : d.Streamed := (streamed_empty settings around).asked hf rs
  refine ⟨hd, fun r => ?_, plain_asked f _ rs⟩
  exact (publishes_ask hf hd.traces r).mono fun _ _ h => h.1

/-- A recorder that misses a commit while it is detached, is told everything when it comes back, and
is then only told of an undo. -/
theorem each_request_is_streamed_recorder :
    let view : Recorder := ⟨"view", .failing⟩
    let e : Event := ⟨⟨0⟩, "Edit", "typing"⟩
    let d := Desk.asked Recorder.following.logged (empty {} ([], []))
      [.attach view, .hear (.committed e), .detach, .hear (.committed e), .attach view,
        .hear (.undone ⟨⟨7⟩, "Edit", ""⟩), .hear (.undone e)]
    d.Streamed ∧ d.log.map (fun x => (x.update.cause, x.update.reshaped, x.timeline.size)) =
      [(.attach, true, 0), (.commit, true, 1), (.attach, true, 2), (.undo, false, 2)] := by
  intro view e d
  exact ⟨(each_request_is_streamed Recorder.following_answers.letsGo {} [] _).1, by decide⟩

end Desk

end UndoJournal
