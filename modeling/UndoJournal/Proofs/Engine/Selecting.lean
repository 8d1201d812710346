import UndoJournal.Proofs.Desk.Requests
import UndoJournal.Proofs.Engine.Calls
import UndoJournal.Proofs.Navigator.Ways
import UndoJournal.Proofs.Timeline.Sequence
import UndoJournal.Engine.Scripted

/-!
# What a selection reports of an engine

A navigator that is told to select a position has the engine make one step after another. The engine
may refuse any of them, keep it to itself, or tell the journal of any event. **Whatever it does, the
answer of the selection says exactly what it did** (`EngineDesk.select_reports`): which of the four
outcomes it is can be told from the calls and from where the cursor ends, and each of them says what
there is to say about the calls.

The journal follows what it is told as a flat stack does (`Stack.told`), and its entries stay what
they are. An engine that tells of every step, with the events of the journal in order, takes the
cursor along (`Stack.told_of_tells`), and then no selection goes astray.
-/

namespace UndoJournal

/-- The place of the event that the step behind `i` others goes through, in a walk that starts with
`m` events applied. -/
def Direction.through (d : Direction) (m i : Nat) : Nat :=
  match d with
  | .undo => m - (i + 1)
  | .redo => m + i

/-- Every step that is made is told, with the event that it goes through. -/
def Tells (events : List Event) (d : Direction) (m : Nat) (calls : List Call) : Prop :=
  ∀ i c, calls[i]? = some c → c.made = true →
    ∃ e, events[d.through m i]? = some e ∧ c.reply = .moved (some e)

/-! ### What the journal makes of the calls -/

namespace Stack

/-- The stack that is told of some calls. -/
def told (s : Stack) (calls : List Call) : Stack := (calls.filterMap Call.notice?).foldl hear s

private theorem told_append (s : Stack) (calls calls' : List Call) :
    s.told (calls ++ calls') = (s.told calls).told calls' := by
  rw [told, List.filterMap_append, List.foldl_append]
  rfl

private theorem told_cons_of_notice {s : Stack} {c : Call} {notice : Notice}
    (h : c.notice? = some notice)
    (calls : List Call) : s.told (c :: calls) = (s.hear notice).told calls := by
  rw [told, List.filterMap_cons_some h, List.foldl_cons]
  rfl

private theorem told_of_not_made {s : Stack} {c : Call} (h : c.made = false) : s.told [c] = s := by
  have hrefused : c.reply = .refused := by simpa [Call.made] using h
  simp [told, Call.notice?, hrefused]

/-- A step that is told with its event moves the boundary by one. -/
private theorem hear_through {events : List Event} {d : Direction} {m : Nat} {e : Event}
    (he : events[d.through m 0]? = some e) (hm : d = .undo → 0 < m) :
    hear ⟨events, m, false⟩ (d.notice e) = ⟨events, d.reach m 1, false⟩ := by
  cases d with
  | undo =>
    obtain ⟨n, rfl⟩ : ∃ n, m = n + 1 := ⟨m - 1, by have := hm rfl; omega⟩
    exact hear_undone he
  | redo => exact hear_redone he

/-- **Steps that are told in order move the boundary by as many as are made.** -/
theorem told_of_tells {events : List Event} {d : Direction} {m : Nat} {calls : List Call}
    (hd : ∀ c ∈ calls, c.direction = d) (hunbroken : ∀ c ∈ calls.dropLast, c.made = true)
    (hm : d = .undo → calls.length ≤ m) (h : Tells events d m calls) :
    told ⟨events, m, false⟩ calls = ⟨events, d.reach m (calls.countP Call.made), false⟩ := by
  induction calls generalizing m with
  | nil => cases d <;> rfl
  | cons c cs ih =>
    rcases hmade : c.made with _ | _
    · -- nothing comes behind a refusal
      obtain rfl : cs = [] := by
        rcases cs with _ | ⟨c', cs⟩
        · rfl
        · exact nomatch hmade.symm.trans (hunbroken c List.mem_cons_self)
      rw [told_of_not_made hmade, List.countP_singleton, if_neg (by simp [hmade])]
      cases d <;> rfl
    · obtain ⟨e, he, hreply⟩ := h 0 c rfl hmade
      obtain rfl : c.direction = d := hd c List.mem_cons_self
      have hnotice : c.notice? = some (c.direction.notice e) := by rw [Call.notice?, hreply]
      have hpos : c.direction = .undo → 0 < m := fun hu => Nat.lt_of_lt_of_le
        (Nat.succ_pos cs.length) (hm hu)
      -- the tail starts where the first step has led to
      have htail : Tells events c.direction (c.direction.reach m 1) cs := fun i c' hc' hm' => by
        obtain ⟨e', he', hreply'⟩ := h (i + 1) c' hc' hm'
        refine ⟨e', ?_, hreply'⟩
        rw [← he']
        cases c.direction <;> simp only [Direction.through, Direction.reach] <;> congr 1 <;> omega
      rw [told_cons_of_notice hnotice, hear_through he hpos,
        ih (fun c' hc' => hd c' (List.mem_cons_of_mem _ hc')) (fun c' hc' => ?_) (fun hu => ?_)
          htail, List.countP_cons_of_pos hmade]
      · cases c.direction <;>
          simp only [Direction.reach, Stack.mk.injEq, true_and, and_true] <;> omega
      · refine hunbroken c' ?_
        rcases cs with _ | ⟨c'', cs⟩
        · cases hc'
        · exact List.mem_cons_of_mem _ hc'
      · have := hm hu
        rw [hu]
        simp only [Direction.reach, List.length_cons] at this ⊢
        omega

end Stack

namespace Desk

variable {φ ω : Type} {f : Following φ ω} {desk : Desk φ ω} {stack : Stack}

/-- **The journal follows a call as the stack does**, and no entry comes or goes. -/
theorem gives_receive (hf : f.Answers) (h : desk.journal.Traces stack) (c : Call) :
    (receive f c).Gives desk fun _ desk' =>
      desk'.journal.timeline = desk.journal.timeline ∧ desk'.journal.Traces (stack.told [c]) := by
  rw [receive]
  rcases hnotice : c.notice? with _ | notice
  · have htold : stack.told [c] = stack := by simp [Stack.told, hnotice]
    exact (Action.gives_pure _).mpr ⟨rfl, htold.symm ▸ h⟩
  · obtain ⟨r, hr, htraces⟩ := h.hear notice
    have htimeline : r.journal.timeline = desk.journal.timeline := by
      obtain ⟨d, _ | _ | e⟩ := c
      · cases hnotice
      · cases hnotice
      · obtain rfl := Option.some.inj hnotice
        cases d with
        | undo => exact Journal.timeline_of_hearUndone hr
        | redo => exact Journal.timeline_of_hearRedone hr
    simp only [hear, Action.gives_bind, Action.gives_get, hr]
    refine (gives_enact_of_answers hf r desk).mono fun _ desk' hdesk => ?_
    rw [Stack.told_cons_of_notice hnotice, hdesk]
    exact ⟨htimeline, htraces⟩

end Desk

/-- The stack of a journal whose cursor is behind `m` events. -/
def Journal.stack (j : Journal) (m : Nat) : Stack :=
  ⟨j.timeline.toList.map Entry.event, m, j.muted⟩

private theorem Journal.traces_stack {j : Journal} {m : Nat}
    (h : j.timeline.ordinal j.cursor = .ok m) :
    j.Traces (j.stack m) := ⟨rfl, h, rfl⟩

/-! ### The four outcomes -/

/-- What the answer of a selection says, by the calls that it made and where the cursor came to. -/
structure Reported (j : Journal) (target : Position) (calls : List Call)
    (answer : Except HistoryError Walk) (reached : Position) : Prop where
  /-- A target is unknown exactly if the timeline does not have it, and then nothing is called. -/
  unknown : ∀ p, answer = .error (.unknownTarget p) ↔
    p = target ∧ j.timeline.contains target = false
  uncalled : j.timeline.contains target = false → calls = []
  /-- The calls are all in the direction of the target and at most as many as it is away, and none
  comes behind one that was refused. -/
  marched : ∀ δ, j.timeline.distance j.cursor target = .ok δ →
    Marched (.toward δ) δ.natAbs calls
  /-- A refusal is reported exactly if there was one, and with the steps that were made before. -/
  refused : (∃ d done requested, answer = .error (.engineRefused d done requested)) ↔
    ∃ c ∈ calls, c.made = false
  progress : ∀ d done requested, answer = .error (.engineRefused d done requested) →
    done = calls.countP Call.made ∧ done < requested ∧
      ∃ δ, j.timeline.distance j.cursor target = .ok δ ∧ d = .toward δ ∧ requested = δ.natAbs
  /-- The target is reached exactly if no step was refused and the cursor is there. -/
  arrived : ∀ walk, answer = .ok walk ↔
    j.stepsTo target = .ok walk ∧ (∀ c ∈ calls, c.made = true) ∧ reached = target
  /-- A walk goes astray exactly if no step was refused and the cursor is elsewhere. -/
  diverged : ∀ p q, answer = .error (.walkDiverged p q) ↔ j.timeline.contains target = true ∧
    (∀ c ∈ calls, c.made = true) ∧ p = target ∧ q = reached ∧ reached ≠ target
  /-- If every step is told, in order, the cursor makes as many steps as the engine and no walk
  goes astray. -/
  heeded : j.muted = false → ∀ m δ, j.timeline.ordinal j.cursor = .ok m →
    j.timeline.distance j.cursor target = .ok δ →
      Tells (j.timeline.toList.map Entry.event) (.toward δ) m calls →
        (∀ p q, answer ≠ .error (.walkDiverged p q)) ∧
          j.timeline.ordinal reached = .ok ((Direction.toward δ).reach m (calls.countP Call.made))

namespace Reported

variable {j : Journal} {target reached : Position} {calls : List Call}

/-- A target that the timeline does not have. -/
private theorem of_unknown (h : j.timeline.contains target = false) :
    Reported j target [] (.error (.unknownTarget target)) reached := by
  obtain ⟨fault, hfault⟩ := (Timeline.distance_error_iff (p := j.cursor)).mpr (.inr h)
  have hnot : ∀ {δ}, j.timeline.distance j.cursor target ≠ .ok δ := fun hδ =>
    nomatch hfault.symm.trans hδ
  exact {
    unknown := fun p => by simp [h, eq_comm]
    uncalled := fun _ => rfl
    marched := fun δ hδ => absurd hδ hnot
    refused := by simp
    progress := by simp
    arrived := fun walk => by
      refine iff_of_false nofun fun ⟨hwalk, _⟩ => ?_
      rw [Journal.stepsTo, hfault] at hwalk
      cases hwalk
    diverged := fun p q => iff_of_false nofun fun ⟨hin, _⟩ => nomatch h.symm.trans hin
    heeded := fun _ m δ _ hδ => absurd hδ hnot }

section Marched

variable {m n : Nat} {j' : Journal} (hm : j.timeline.ordinal j.cursor = .ok m)
  (hn : j.timeline.ordinal target = .ok n)
  (hmarched : Marched (.toward ((n : Int) - m)) ((n : Int) - m).natAbs calls)
  (ht : j'.timeline = j.timeline) (htraces : j'.Traces ((j.stack m).told calls))

include hmarched ht htraces in
/-- **A cursor that is told of every step goes along.** -/
theorem ordinal_of_tells (hmuted : j.muted = false)
    (htells : Tells (j.timeline.toList.map Entry.event) (.toward ((n : Int) - m)) m calls) :
    j.timeline.ordinal j'.cursor =
      .ok ((Direction.toward ((n : Int) - m)).reach m (calls.countP Call.made)) := by
  have hlen := hmarched.length_le
  have htold : (j.stack m).told calls = ⟨j.timeline.toList.map Entry.event,
      (Direction.toward ((n : Int) - m)).reach m (calls.countP Call.made), false⟩ := by
    rw [Journal.stack, hmuted]
    refine Stack.told_of_tells hmarched.direction hmarched.unbroken (fun hd => ?_) htells
    rw [Direction.toward_eq_undo_iff] at hd
    omega
  have hcursor := htraces.cursor
  rwa [ht, htold] at hcursor

include hm hn hmarched ht htraces

/-- The march was broken off by a refusal. -/
private theorem of_refused (hrefused : ∃ c ∈ calls, c.made = false) :
    Reported j target calls (.error (.engineRefused (.toward ((n : Int) - m))
      (calls.countP Call.made) ((n : Int) - m).natAbs)) j'.cursor := by
  have hin : j.timeline.contains target = true :=
    Timeline.contains_iff_exists_ordinal.mpr ⟨n, hn⟩
  have hdistance := Timeline.distance_of_ordinal hm hn
  have hsome : ¬ ∀ c ∈ calls, c.made = true := by simpa using hrefused
  constructor
  case unknown => simp [hin]
  case uncalled => simp [hin]
  case marched => simpa [hdistance] using hmarched
  case refused => exact iff_of_true ⟨_, _, _, rfl⟩ hrefused
  case progress =>
    rintro d done requested ⟨⟩
    exact ⟨rfl, (hmarched.countP_made.resolve_left fun h => hsome h.1).2, _, hdistance, rfl, rfl⟩
  case arrived => exact fun walk => iff_of_false nofun fun h => hsome h.2.1
  case diverged => exact fun p q => iff_of_false nofun fun h => hsome h.2.1
  case heeded =>
    intro hmuted m' δ hm' hδ htells
    obtain rfl : m = m' := Except.ok.inj (hm.symm.trans hm')
    obtain rfl : (n : Int) - m = δ := Except.ok.inj (hdistance.symm.trans hδ)
    exact ⟨nofun, ordinal_of_tells hmarched ht htraces hmuted htells⟩

/-- All steps were made: the cursor decides. -/
private theorem of_made (hall : ∀ c ∈ calls, c.made = true) {walk : Walk}
    (hwalk : j.stepsTo target = .ok walk) :
    Reported j target calls (if j'.cursor = target then .ok walk
      else .error (.walkDiverged target j'.cursor)) j'.cursor := by
  have hin : j.timeline.contains target = true :=
    Timeline.contains_iff_exists_ordinal.mpr ⟨n, hn⟩
  have hdistance := Timeline.distance_of_ordinal hm hn
  have hnone : ¬ ∃ c ∈ calls, c.made = false := by simpa using hall
  constructor
  case unknown => split <;> simp [hin]
  case uncalled => simp [hin]
  case marched => simpa [hdistance] using hmarched
  case refused => split <;> simpa using hall
  case progress => split <;> simp
  case arrived =>
    intro walk'
    rw [hwalk, Except.ok.injEq]
    split <;> simp_all
  case diverged =>
    intro p q
    split
    · rename_i hat
      exact iff_of_false nofun fun h => h.2.2.2.2 hat
    · rename_i hnot
      simp only [Except.error.injEq, HistoryError.walkDiverged.injEq]
      exact ⟨fun ⟨hp, hq⟩ => ⟨hin, hall, hp.symm, hq.symm, hnot⟩,
        fun h => ⟨h.2.2.1.symm, h.2.2.2.1.symm⟩⟩
  case heeded =>
    intro hmuted m' δ hm' hδ htells
    obtain rfl : m = m' := Except.ok.inj (hm.symm.trans hm')
    obtain rfl : (n : Int) - m = δ := Except.ok.inj (hdistance.symm.trans hδ)
    have hord := ordinal_of_tells hmarched ht htraces hmuted htells
    -- all steps are made, so a cursor that was taken along is at the target
    have hcount := (hmarched.countP_made.resolve_right fun h => hnone h.1).2
    have hat := hord
    rw [hcount, Direction.reach_toward] at hat
    rw [if_pos (Timeline.eq_of_ordinal_eq hat hn)]
    exact ⟨nofun, hord⟩

end Marched

end Reported

namespace EngineDesk

variable {φ ω ε : Type} {f : Following φ ω}

/-- **A selection reports exactly what the engine did**, from any journal whose cursor is on a
position of its timeline, as requests always leave it, and whatever the engine replies and tells.
The calls that were made are those that the engine has answered, the entries of the journal stay
what they are, and the answer is the one of the four that the calls and the cursor call for. -/
theorem select_reports (hf : f.Answers) (e : Engine ε) (r : EngineDesk φ ω ε)
    (hr : r.desk.journal.timeline.contains r.desk.journal.cursor = true) (target : Position) :
    ((controls f e).select target).Gives r fun answer r' => ∃ calls,
      e.Makes r.engine calls r'.engine ∧
        r'.desk.journal.timeline = r.desk.journal.timeline ∧
          Reported r.desk.journal target calls answer r'.desk.journal.cursor := by
  obtain ⟨m, hm⟩ := Timeline.contains_iff_exists_ordinal.mp hr
  rcases hin : r.desk.journal.timeline.contains target with _ | _
  · exact Controls.gives_select_of_unknown hin ⟨[], rfl, rfl, .of_unknown hin⟩
  obtain ⟨n, hn⟩ := Timeline.contains_iff_exists_ordinal.mp hin
  have hwalk := Journal.stepsTo_eq hm hn
  refine Controls.gives_select hm hn hwalk ?_
  -- each call takes the journal along with the stack
  refine (gives_march (fun desk calls => desk.journal.timeline = r.desk.journal.timeline ∧
      desk.journal.Traces ((r.desk.journal.stack m).told calls))
    (fun c desk calls _ hdesk => ?_) [] ⟨rfl, Journal.traces_stack hm⟩).mono ?_
  · refine (Desk.gives_receive hf hdesk.2 c).mono fun _ desk' hdesk' => ?_
    rw [Stack.told_append]
    exact ⟨hdesk'.1.trans hdesk.1, hdesk'.2⟩
  · rintro _ r' ⟨calls, hmakes, hmarched, ⟨ht, htraces⟩, ⟨hall, rfl⟩ | ⟨hrefused, rfl⟩⟩
    · exact ⟨calls, hmakes, ht, .of_made hm hn hmarched ht htraces hall hwalk⟩
    · refine ⟨calls, hmakes, ht, ?_⟩
      rw [Nat.zero_add]
      exact .of_refused hm hn hmarched ht htraces hrefused

/-- Three commits and an engine that refuses behind the first step: a walk to the start is broken
off there, with one of three steps made, of which the journal has heard. -/
theorem select_reports_refused :
    let e (n : Nat) : Event := ⟨⟨n⟩, "Edit", "typing"⟩
    let desk := ((Action.each (Desk.ask Recorder.following)
      [.attach ⟨"view", .failing⟩, .hear (.committed (e 0)), .hear (.committed (e 1)),
        .hear (.committed (e 2))]).run (Desk.empty {} [])).state
    let engine : ScriptedEngine := ⟨[e 0, e 1, e 2], 3, 0, some 1, false, 3⟩
    desk.journal.timeline.contains desk.journal.cursor = true ∧
      ((controls Recorder.following ScriptedEngine.engine.recorded).select .start).Gives
        ⟨desk, (engine, []), .fresh⟩ fun answer r' =>
          answer = .error (.engineRefused .undo 1 3) ∧
            r'.engine.2 = [⟨.undo, .moved (some (e 2))⟩, ⟨.undo, .refused⟩] ∧
            r'.desk.journal.timeline = desk.journal.timeline ∧
            Reported desk.journal .start r'.engine.2 answer r'.desk.journal.cursor := by
  intro e desk engine
  obtain ⟨_, _, hcontains⟩ := Desk.each_ask_contains Recorder.following_answers {} []
    [.attach ⟨"view", .failing⟩, .hear (.committed (e 0)), .hear (.committed (e 1)),
      .hear (.committed (e 2))] ⟨trivial, trivial, trivial, trivial, trivial⟩
  have hordinal : desk.journal.timeline.positionAt? 3 = some desk.journal.cursor := by
    decide +kernel
  have hrecord : (((controls Recorder.following ScriptedEngine.engine.recorded).select .start).run
      ⟨desk, (engine, []), .fresh⟩).state.engine.2 =
        [⟨.undo, .moved (some (e 2))⟩, ⟨.undo, .refused⟩] := by decide +kernel
  change desk.journal.timeline.contains desk.journal.cursor = true at hcontains
  clear_value desk
  refine ⟨hcontains, ?_⟩
  obtain ⟨answer, hrun, calls, hmakes, htimeline, hreported⟩ :=
    select_reports Recorder.following_answers ScriptedEngine.engine.recorded
      ⟨desk, (engine, []), .fresh⟩ hcontains .start
  -- the record is the list of the calls
  obtain rfl := hmakes.recorded.2.symm.trans hrecord
  obtain ⟨d, done, requested, rfl⟩ := hreported.refused.mpr (by decide)
  obtain ⟨rfl, -, δ, hδ, rfl, rfl⟩ := hreported.progress _ _ _ rfl
  have hdistance : desk.journal.timeline.distance desk.journal.cursor .start = .ok (-3) :=
    Timeline.distance_of_ordinal (n := 0) (Timeline.positionAt?_eq_some_iff.mp hordinal) rfl
  obtain rfl : -3 = δ := Except.ok.inj (hdistance.symm.trans hδ)
  exact ⟨_, hrun, rfl, hrecord, htimeline, hrecord ▸ hreported⟩

end EngineDesk

end UndoJournal
