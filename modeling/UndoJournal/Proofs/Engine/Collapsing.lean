import UndoJournal.Proofs.Engine.Calls
import UndoJournal.Proofs.Desk.Requests
import UndoJournal.Engine.Scripted

/-!
# A cascade behind the journal's back

When the run whose head the cursor is on is collapsed, the navigator mutes the journal, has the
engine redo the rest of the run, and then places the cursor by counting the steps that were made.
**That is as if the journal had heard of every one of them** (`EngineDesk.collapse_agrees`): it is
the same journal in the end, wherever the engine refused, as long as engine and journal stood
together before and the engine redoes the events of the journal in order.

The follower is told nothing on the way, and the journal heeds notices again afterwards, on every
path.
-/

namespace UndoJournal

namespace Journal

/-- The journal after it has heard some notices. -/
def hearAll (j : Journal) : List Notice → Except Fault Journal
  | [] => .ok j
  | notice :: notices => do
    let r ← j.hear notice
    r.journal.hearAll notices

/-- The notices that `k` events behind the first `m` were redone. -/
def redoNotices (j : Journal) (m k : Nat) : List Notice :=
  ((j.timeline.toList.drop m).take k).map fun entry => .redone entry.event

/-- The number of entries behind the head of a run, if the cursor is on that head. -/
def behindCursor (j : Journal) (group : Nat) : Nat :=
  if j.cursor = .on (.ofHead group) then (j.timeline.runs[group]?.map fun r => r.rest.length).getD 0
  else 0

variable {j : Journal} {m k : Nat}

/-- A journal that heeds notices goes along with the event behind its cursor. -/
private theorem hear_redone_next (hmuted : j.muted = false)
    (hm : j.timeline.ordinal j.cursor = .ok m)
    {entry : Entry} (hentry : j.timeline.toList[m]? = some entry) {q : Position}
    (hq : j.timeline.ordinal q = .ok (m + 1)) :
    j.hear (.redone entry.event) = .ok (j.moved q .redo "redo" entry.event) := by
  have htraces : j.Traces ⟨j.timeline.toList.map Entry.event, m, j.muted⟩ := ⟨rfl, hm, rfl⟩
  have hredo : j.redoEvent? = .ok (some entry.event) := by
    rw [htraces.redoEvent?_eq, Stack.redoEvent?]
    simp [hentry]
  have hnext : j.timeline.next j.cursor = .ok (some q) := by
    rw [Timeline.next_of_ordinal hm, Timeline.positionAt?_eq_some_iff.mpr hq]
  simp [hear, hearRedone, hmuted, hredo, hnext, bind, Except.bind]

/-- **Hearing of every step takes the cursor along.** -/
theorem hearAll_redoNotices (hmuted : j.muted = false) (hm : j.timeline.ordinal j.cursor = .ok m)
    {p : Position} (hp : j.timeline.ordinal p = .ok (m + k)) :
    j.hearAll (j.redoNotices m k) = .ok { j with cursor := p } := by
  -- one step of the cursor for each notice, up to the place to be reached
  induction k generalizing j m with
  | zero =>
    obtain rfl : j.cursor = p := Timeline.eq_of_ordinal_eq hm hp
    rfl
  | succ k ih =>
    have hle : m + (k + 1) ≤ j.timeline.size := Timeline.ordinal_le_size hp
    have hlt : m < j.timeline.toList.length := by
      rw [Timeline.length_toList]
      omega
    obtain ⟨q, hq⟩ := j.timeline.exists_ordinal_of_le (n := m + 1) (by omega)
    have hnotices : j.redoNotices m (k + 1) =
        .redone j.timeline.toList[m].event :: j.redoNotices (m + 1) k := by
      rw [redoNotices, List.drop_eq_getElem_cons hlt, List.take_succ_cons, List.map_cons]
      rfl
    rw [hnotices, hearAll, hear_redone_next hmuted hm (List.getElem?_eq_getElem hlt) hq]
    refine (ih (j := { j with cursor := q }) hmuted hq ?_).trans rfl
    rw [hp, Nat.add_right_comm, Nat.add_assoc]

end Journal

/-! ### Engines that redo in order -/

/-- The engine redoes the events in order, whichever steps it refuses, and whether or not it tells
of those that it makes; `has s n` says that it has `n` of them applied in state `s`. -/
structure Engine.Redoes {ε : Type} (e : Engine ε) (events : List Event) (has : ε → Nat → Prop) :
    Prop where
  refused : ∀ s n, has s n → (e.step .redo s).1 = .refused → has (e.step .redo s).2 n
  moved : ∀ s n told, has s n → (e.step .redo s).1 = .moved told → has (e.step .redo s).2 (n + 1) ∧
    ∃ event, events[n]? = some event ∧ (told = none ∨ told = some event)

/-- As many more events are applied as steps were made. -/
private theorem Engine.Redoes.has_after {ε : Type} {e : Engine ε} {events : List Event}
    {has : ε → Nat → Prop} (he : e.Redoes events has) {calls : List Call} {s s' : ε} {n : Nat}
    (hs : has s n) (hd : ∀ c ∈ calls, c.direction = .redo) (h : e.Makes s calls s') :
    has s' (n + calls.countP Call.made) := by
  -- a call that is refused applies nothing
  induction calls generalizing s n with
  | nil =>
    obtain rfl : s' = s := h
    exact hs
  | cons c cs ih =>
    obtain ⟨hreply, hrest⟩ := h
    obtain ⟨hdirection, hd'⟩ := List.forall_mem_cons.mp hd
    rw [hdirection] at hreply hrest
    rcases hc : c.reply with _ | told
    · have hmade : ¬ c.made = true := by simp [Call.made, hc]
      rw [List.countP_cons_of_neg hmade]
      exact ih (he.refused s n hs (hreply.trans hc)) hd' hrest
    · have hmade : c.made = true := by simp [Call.made, hc]
      rw [List.countP_cons_of_pos hmade, ← Nat.add_assoc, Nat.add_right_comm]
      exact ih (he.moved s n told hs (hreply.trans hc)).1 hd' hrest

/-- Keeping a record does not change what is redone. -/
private theorem Engine.Redoes.recorded {ε : Type} {e : Engine ε} {events : List Event}
    {has : ε → Nat → Prop} (he : e.Redoes events has) :
    e.recorded.Redoes events fun s n => has s.1 n where
  refused s n := he.refused s.1 n
  moved s n := he.moved s.1 n

/-- **The scripted engine redoes its events in order**, mute or not and up to any limit. -/
theorem ScriptedEngine.redoes (events : List Event) :
    engine.Redoes events fun s n => s.events = events ∧ s.applied = n where
  refused := by
    rintro s n ⟨rfl, rfl⟩ hrefused
    simp only [engine, step, attempt] at hrefused ⊢
    by_cases hend : s.events.length ≤ s.applied
    · rw [if_pos hend]
      exact ⟨rfl, rfl⟩
    · by_cases hlimit : s.exhausted = true
      · rw [if_neg hend, if_pos hlimit]
        exact ⟨rfl, rfl⟩
      · simp [hend, hlimit, telling] at hrefused
  moved := by
    rintro s n told ⟨rfl, rfl⟩ hmoved
    simp only [engine, step, attempt] at hmoved ⊢
    by_cases hend : s.events.length ≤ s.applied
    · simp [hend] at hmoved
    · by_cases hlimit : s.exhausted = true
      · simp [hend, hlimit] at hmoved
      · rw [if_neg hend, if_neg hlimit] at hmoved ⊢
        have hevent := List.getElem?_eq_getElem (Nat.lt_of_not_le hend)
        refine ⟨⟨rfl, rfl⟩, _, hevent, ?_⟩
        obtain rfl : (if s.mute then none else s.events[s.applied]?) = told :=
          Reply.moved.inj hmoved
        split
        · exact .inl rfl
        · exact .inr hevent

/-! ### The cascade -/

/-- Where a cursor on a head is after so many steps along its run. -/
def Address.behindHead (group : Nat) : Nat → Address
  | 0 => .ofHead group
  | k + 1 => .ofChild group k

private theorem Timeline.ordinal_behindHead {t : Timeline} {run : Run} {group m k : Nat}
    (hrun : t.runs[group]? = some run) (hm : t.ordinal (.on (.ofHead group)) = .ok m)
    (hk : k ≤ run.rest.length) : t.ordinal (.on (.behindHead group k)) = .ok (m + k) := by
  obtain rfl : t.sizeBefore group + 1 = m :=
    Except.ok.inj ((ordinal_ofHead hrun).symm.trans hm)
  cases k with
  | zero => exact hm
  | succ i =>
    rw [Address.behindHead, ordinal_ofChild hrun hk]
    congr 1
    omega

/-- What the answer of a collapse says, by the calls that were made, and what becomes of the
journal, whose cursor was behind `m` events. -/
structure Cascaded (j : Journal) (m group : Nat) (calls : List Call)
    (answer : Except HistoryError Bool) (j' : Journal) : Prop where
  /-- As many steps are asked for as there are entries behind the head that the cursor is on. -/
  marched : Marched .redo (j.behindCursor group) calls
  done : answer = .ok true ↔ 0 < j.behindCursor group ∧ ∀ c ∈ calls, c.made = true
  idle : answer = .ok false ↔ j.behindCursor group = 0
  refused : ∀ e, answer = .error e ↔
    e = .engineRefused .redo (calls.countP Call.made) (j.behindCursor group) ∧
      ∃ c ∈ calls, c.made = false
  /-- The journal is the one that has heard of every step that was made. -/
  heard : j.hearAll (j.redoNotices m (calls.countP Call.made)) = .ok j'
  /-- A cursor on the head is behind as many entries as steps were made. -/
  cursor : j.cursor = .on (.ofHead group) →
    j'.cursor = .on (.behindHead group (calls.countP Call.made))
  timeline : j'.timeline = j.timeline
  heeding : j'.muted = false

namespace Cascaded

variable {j : Journal} {m group : Nat} {calls : List Call}

/-- Nothing lies behind the cursor. -/
private theorem of_idle (hmuted : j.muted = false) (hnone : j.behindCursor group = 0) :
    Cascaded j m group [] (.ok false) j where
  marched := hnone ▸ .nil
  done := by simp [hnone]
  idle := by simp [hnone]
  refused := by simp
  heard := by simp [Journal.redoNotices, Journal.hearAll]
  cursor h := h
  timeline := rfl
  heeding := hmuted

/-- The cursor is put behind as many entries as steps were made. -/
private theorem of_marched {answer : Except HistoryError Bool} {run : Run}
    (hmuted : j.muted = false)
    (hm : j.timeline.ordinal j.cursor = .ok m) (hrun : j.timeline.runs[group]? = some run)
    (hhead : j.cursor = .on (.ofHead group)) (hrest : 0 < run.rest.length)
    (hmarched : Marched .redo run.rest.length calls)
    (hanswer : (∀ c ∈ calls, c.made = true) ∧ answer = .ok true ∨
      (∃ c ∈ calls, c.made = false) ∧
        answer = .error (.engineRefused .redo (calls.countP Call.made) run.rest.length)) :
    Cascaded j m group calls answer
      { j with cursor := .on (.behindHead group (calls.countP Call.made)) } := by
  have hbehind : j.behindCursor group = run.rest.length := by
    rw [Journal.behindCursor, if_pos hhead, hrun]
    rfl
  have hcount := Nat.le_trans (List.countP_le_length (p := Call.made)) hmarched.length_le
  have hplace := Timeline.ordinal_behindHead hrun (hhead ▸ hm) hcount
  -- no march is refused and made in full
  have hapart : (∃ c ∈ calls, c.made = false) → ¬ ∀ c ∈ calls, c.made = true :=
    fun ⟨c, hc, hrefused⟩ hall => nomatch hrefused.symm.trans (hall c hc)
  rw [← hbehind] at hmarched hrest hanswer
  refine ⟨hmarched, ?done, ?idle, ?refused, Journal.hearAll_redoNotices hmuted hm hplace,
    fun _ => rfl, rfl, hmuted⟩
  case done =>
    obtain ⟨hall, rfl⟩ | ⟨hsome, rfl⟩ := hanswer
    · exact iff_of_true rfl ⟨hrest, hall⟩
    · exact iff_of_false nofun fun h => hapart hsome h.2
  case idle =>
    obtain ⟨-, rfl⟩ | ⟨-, rfl⟩ := hanswer <;> exact iff_of_false nofun (Nat.ne_of_gt hrest)
  case refused =>
    intro e
    obtain ⟨hall, rfl⟩ | ⟨hsome, rfl⟩ := hanswer
    · exact iff_of_false nofun fun h => hapart h.2 hall
    · exact ⟨fun h => ⟨(Except.error.inj h).symm, hsome⟩, fun h => h.1 ▸ rfl⟩

end Cascaded

namespace EngineDesk

variable {φ ω ε : Type} {f : Following φ ω} {e : Engine ε} {r : EngineDesk φ ω ε}

/-- A muted journal hears nothing of a call, and nobody is told. -/
private theorem gives_receive_of_muted {desk : Desk φ ω} (hmuted : desk.journal.muted = true)
    (c : Call) :
    (Desk.receive f c).Gives desk fun _ desk' => desk' = desk := by
  obtain ⟨d, _ | _ | event⟩ := c
  · exact (Action.gives_pure _).mpr rfl
  · exact (Action.gives_pure _).mpr rfl
  · have hignored : ∃ r, desk.journal.hear (d.notice event) = .ok r ∧ r.journal = desk.journal ∧
        r.update = none := by
      cases d with
      | undo => exact ⟨_, if_pos hmuted, rfl, rfl⟩
      | redo => exact ⟨_, if_pos hmuted, rfl, rfl⟩
    obtain ⟨r, hr, hjournal, hupdate⟩ := hignored
    simp only [Desk.receive, Call.notice?, Desk.hear, Action.gives_bind, Action.gives_get, hr]
    rw [Desk.gives_enact, hupdate, hjournal]

/-- Placing the cursor where the timeline has a position changes nothing else. -/
private theorem gives_placing {p : Position} (hp : r.desk.journal.timeline.contains p = true) :
    (Action.zoom (controls f e).journal (Journal.placing p)).Gives r fun _ r' =>
      r' = { r with desk := { r.desk with journal := { r.desk.journal with cursor := p } } } := by
  simp only [Action.gives_zoom, Journal.placing, Action.gives_bind, Action.gives_get,
    Action.gives_ofExcept, Action.gives_modify, Action.gives_report]
  exact ⟨_, if_pos hp, rfl⟩

/-- How a march went is handed on as it is. -/
private theorem gives_handedOn {result : Except HistoryError Unit}
    {post : Except HistoryError Bool → EngineDesk φ ω ε → Prop} :
    Action.Gives (match result with
      | .ok () => pure (.ok true)
      | .error e => pure (.error e)) r post ↔ post (result.map fun _ => true) r := by
  rcases result with _ | ⟨⟩ <;> exact Action.gives_pure _

/-- **The rest of a run is redone behind the journal's back**, and then the cursor is put behind as
many entries as steps were made. -/
theorem gives_stepThrough {run : Run} (hmuted : r.desk.journal.muted = false)
    (hrun : r.desk.journal.timeline.runs[group]? = some run)
    (hhead : r.desk.journal.cursor = .on (.ofHead group)) :
    ((controls f e).stepThrough group run.rest.length).Gives r fun answer r' => ∃ calls,
      e.Makes r.engine calls r'.engine ∧ Marched .redo run.rest.length calls ∧
        r'.desk = { r.desk with journal := { r.desk.journal with
          cursor := .on (.behindHead group (calls.countP Call.made)) } } ∧
          ((∀ c ∈ calls, c.made = true) ∧ answer = .ok true ∨
            (∃ c ∈ calls, c.made = false) ∧ answer = .error (.engineRefused .redo
              (calls.countP Call.made) run.rest.length)) := by
  let muted : Desk φ ω := { r.desk with journal := r.desk.journal.mute true }
  simp only [Controls.stepThrough, Action.gives_bind, Action.gives_bracket]
  refine (gives_march (fun desk _ => desk = muted) (fun c desk _ _ hdesk => ?_) [] rfl).mono ?_
  · exact (gives_receive_of_muted (hdesk ▸ rfl) c).mono fun _ _ h => h.trans hdesk
  · rintro answer ⟨_, engine, navigator⟩ ⟨calls, hmakes, hmarched, rfl, hanswer⟩
    -- muting is taken back, so the desk is what it was
    have hback : (controls f e).journal.modify (fun j => j.mute false) ⟨muted, engine, navigator⟩ =
        ⟨r.desk, engine, navigator⟩ := by
      change (⟨{ r.desk with journal := r.desk.journal.mute false }, engine, navigator⟩ :
        EngineDesk φ ω ε) = _
      rw [Journal.mute, ← hmuted]
    have hsteps : Controls.stepsMade run.rest.length answer = calls.countP Call.made := by
      obtain ⟨hall, rfl⟩ | ⟨-, rfl⟩ := hanswer
      · have hcount := List.countP_eq_length.mpr hall
        exact (hmarched.full hall).symm.trans hcount.symm
      · exact Nat.zero_add _
    rw [hback, hsteps]
    have hle : calls.countP Call.made ≤ run.rest.length :=
      Nat.le_trans List.countP_le_length hmarched.length_le
    have hanswer' : (∀ c ∈ calls, c.made = true) ∧ answer.map (fun _ => true) = .ok true ∨
        (∃ c ∈ calls, c.made = false) ∧ answer.map (fun _ => true) =
          .error (.engineRefused .redo (calls.countP Call.made) run.rest.length) := by
      rcases hanswer with ⟨hall, h⟩ | ⟨hrefused, h⟩ <;> rw [h]
      · exact .inl ⟨hall, rfl⟩
      · rw [Nat.zero_add]
        exact .inr ⟨hrefused, rfl⟩
    rcases hcount : calls.countP Call.made with _ | i
    · refine gives_handedOn.mpr ?_
      exact ⟨calls, hmakes, hmarched, by rw [hcount, Address.behindHead, ← hhead], hanswer'⟩
    · have hcontains : r.desk.journal.timeline.contains (.on (.ofChild group i)) = true :=
        Timeline.contains_iff_exists_ordinal.mpr ⟨_, Timeline.ordinal_ofChild hrun (by omega)⟩
      simp only [Action.gives_bind]
      refine (gives_placing (r := ⟨r.desk, engine, navigator⟩) hcontains).mono fun _ r' hr' => ?_
      subst hr'
      refine gives_handedOn.mpr ?_
      exact ⟨calls, hmakes, hmarched, by rw [hcount, Address.behindHead], hanswer'⟩

/-- **A collapse is as if the journal had heard of every step.** -/
theorem collapse_agrees (e : Engine ε) (r : EngineDesk φ ω ε)
    (hmuted : r.desk.journal.muted = false) {m : Nat}
    (hm : r.desk.journal.timeline.ordinal r.desk.journal.cursor = .ok m) {has : ε → Nat → Prop}
    (he : e.Redoes (r.desk.journal.timeline.toList.map Entry.event) has) (hat : has r.engine m)
    (group : Nat) :
    ((controls f e).collapse group).Gives r fun answer r' => ∃ calls,
      e.Makes r.engine calls r'.engine ∧
        Cascaded r.desk.journal m group calls answer r'.desk.journal ∧
        r'.desk.journal.timeline.ordinal r'.desk.journal.cursor =
          .ok (m + calls.countP Call.made) ∧
        has r'.engine (m + calls.countP Call.made) ∧
        r'.desk.attached = r.desk.attached ∧ r'.desk.around = r.desk.around := by
  have hidle : r.desk.journal.behindCursor group = 0 →
      Cascaded r.desk.journal m group [] (.ok false) r.desk.journal := Cascaded.of_idle hmuted
  have hlook : (controls f e).journal.get r = r.desk.journal := rfl
  simp only [Controls.collapse, Controls.look, Action.gives_bind, Action.gives_get,
    Action.gives_pure, hlook]
  by_cases hhead : r.desk.journal.cursor = .on (.ofHead group)
  case neg =>
    rw [if_pos hhead]
    exact (Action.gives_pure _).mpr ⟨[], rfl, hidle (if_neg hhead), hm, hat, rfl, rfl⟩
  rw [if_neg (not_not_intro hhead)]
  rcases hrun : r.desk.journal.timeline.runs[group]? with _ | run
  · refine (Action.gives_pure _).mpr ⟨[], rfl, hidle ?_, hm, hat, rfl, rfl⟩
    rw [Journal.behindCursor, if_pos hhead, hrun]
    rfl
  simp only [List.isEmpty_iff]
  by_cases hrest : run.rest = []
  · rw [if_pos hrest]
    refine (Action.gives_pure _).mpr ⟨[], rfl, hidle ?_, hm, hat, rfl, rfl⟩
    rw [Journal.behindCursor, if_pos hhead, hrun, Option.map_some, hrest]
    rfl
  rw [if_neg hrest, Action.gives_bind, Action.gives_note]
  refine (gives_stepThrough hmuted hrun hhead).mono ?_
  rintro answer ⟨_, engine, navigator⟩ ⟨calls, hmakes, hmarched, rfl, hanswer⟩
  have hcascaded := Cascaded.of_marched hmuted hm hrun hhead (List.length_pos_iff.mpr hrest)
    hmarched hanswer
  refine ⟨calls, hmakes, hcascaded, ?_, he.has_after hat hmarched.direction hmakes, rfl, rfl⟩
  exact Timeline.ordinal_behindHead hrun (hhead ▸ hm)
    (Nat.le_trans List.countP_le_length hmarched.length_le)

/-- A run of four whose head the cursor is on, and an engine that refuses behind the second step:
the cursor is on the second entry behind the head, as many events are applied, and the journal is as
if it had heard of both steps. -/
theorem collapse_agrees_refused :
    let e (n : Nat) : Event := ⟨⟨n⟩, "Edit", "typing"⟩
    let desk := ((Action.each (Desk.ask Recorder.following)
      [.attach ⟨"view", .failing⟩, .hear (.committed (e 0)), .hear (.committed (e 1)),
        .hear (.committed (e 2)), .hear (.committed (e 3)), .hear (.undone (e 3)),
        .hear (.undone (e 2)), .hear (.undone (e 1))]).run (Desk.empty {} [])).state
    let engine : ScriptedEngine := ⟨[e 0, e 1, e 2, e 3], 1, 0, some 2, false, 4⟩
    ((controls Recorder.following ScriptedEngine.engine.recorded).collapse 0).Gives
      ⟨desk, (engine, []), .fresh⟩ fun answer r' =>
        answer = .error (.engineRefused .redo 2 3) ∧
          r'.engine.2 = [⟨.redo, .moved (some (e 1))⟩, ⟨.redo, .moved (some (e 2))⟩,
            ⟨.redo, .refused⟩] ∧
          Cascaded desk.journal 1 0 r'.engine.2 answer r'.desk.journal ∧
          r'.desk.journal.cursor = .on (.ofChild 0 1) ∧
          r'.desk.journal.timeline.ordinal r'.desk.journal.cursor = .ok 3 ∧
          r'.engine.1.applied = 3 := by
  intro e desk engine
  have hdesk : desk.journal.muted = false ∧ desk.journal.cursor = .on (.ofHead 0) ∧
      desk.journal.timeline.positionAt? 1 = some desk.journal.cursor ∧
      desk.journal.timeline.toList.map Entry.event = engine.events := by decide +kernel
  have hrecord : (((controls Recorder.following ScriptedEngine.engine.recorded).collapse 0).run
      ⟨desk, (engine, []), .fresh⟩).state.engine.2 = [⟨.redo, .moved (some (e 1))⟩,
        ⟨.redo, .moved (some (e 2))⟩, ⟨.redo, .refused⟩] := by decide +kernel
  have hbehind : desk.journal.behindCursor 0 = 3 := by decide +kernel
  clear_value desk
  obtain ⟨hmuted, hcursor, hordinal, hevents⟩ := hdesk
  obtain ⟨answer, hrun, calls, hmakes, hcascaded, hafter, ⟨-, happlied⟩, -⟩ :=
    collapse_agrees (f := Recorder.following) ScriptedEngine.engine.recorded
      ⟨desk, (engine, []), .fresh⟩ hmuted (Timeline.positionAt?_eq_some_iff.mp hordinal)
      (ScriptedEngine.redoes (desk.journal.timeline.toList.map Entry.event)).recorded
      ⟨hevents.symm, rfl⟩ 0
  -- the record is the list of the calls
  obtain rfl := hmakes.recorded.2.symm.trans hrecord
  refine ⟨answer, hrun, (hcascaded.refused _).mpr ⟨?_, by decide⟩, hrecord, ?_,
    hcascaded.cursor hcursor, hafter, happlied⟩
  · rw [hbehind]
    rfl
  · rwa [hrecord]

end EngineDesk

end UndoJournal
