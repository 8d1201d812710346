import UndoJournal.Engine.Basic
import UndoJournal.Proofs.Desk.Telling
import UndoJournal.Proofs.Journal.Update

/-!
# The calls of an engine

What a navigator asks of an engine is a list of **calls**, each with what the engine replied
(`Engine.Makes`); an engine that keeps a record of its calls has this very list in it
(`Engine.Makes.recorded`).

A march asks for steps in one direction until it has as many as it wants or one is refused
(`Marched`), so its answer can be read off its calls (`EngineDesk.gives_march`). What the calls do
to the desk is a matter of what the engine tells of them, and so of the desk alone: the march
carries along any statement that each call carries along.
-/

namespace UndoJournal

/-- A call of an engine. -/
structure Call where
  /-- What was asked for. -/
  direction : Direction
  /-- What was replied. -/
  reply : Reply
deriving DecidableEq

namespace Call

/-- Whether the step was made. -/
def made (c : Call) : Bool := c.reply != .refused

/-- The notice that the journal gets of the call. -/
def notice? (c : Call) : Option Notice :=
  match c.reply with
  | .refused | .moved none => none
  | .moved (some e) => some (c.direction.notice e)

end Call

namespace Engine

variable {ε : Type}

/-- The calls with these replies take the engine from one state to another. -/
def Makes (e : Engine ε) : ε → List Call → ε → Prop
  | s, [], s' => s' = s
  | s, c :: cs, s' => (e.step c.direction s).1 = c.reply ∧ e.Makes (e.step c.direction s).2 cs s'

/-- The engine that keeps a record of its calls besides. -/
def recorded (e : Engine ε) : Engine (ε × List Call) where
  step d s := ((e.step d s.1).1, (e.step d s.1).2, s.2 ++ [⟨d, (e.step d s.1).1⟩])

/-- **An engine that keeps a record has its calls in it.** -/
theorem Makes.recorded {e : Engine ε} {calls : List Call} {s s' : ε × List Call}
    (h : e.recorded.Makes s calls s') : e.Makes s.1 calls s'.1 ∧ s'.2 = s.2 ++ calls := by
  induction calls generalizing s with
  | nil =>
    obtain rfl : s' = s := h
    exact ⟨rfl, (List.append_nil _).symm⟩
  | cons c cs ih =>
    obtain ⟨hreply, hrest⟩ := h
    obtain ⟨hmakes, hrecord⟩ := ih hrest
    have hcall : (⟨c.direction, (e.step c.direction s.1).1⟩ : Call) = c := by
      rw [show (e.step c.direction s.1).1 = c.reply from hreply]
    refine ⟨⟨hreply, hmakes⟩, ?_⟩
    rw [hrecord]
    simp only [Engine.recorded, hcall, List.append_assoc, List.cons_append, List.nil_append]

end Engine

/-! ### Marches -/

/-- The calls of a march: all in one direction, at most so many, and none behind one that was
refused. -/
structure Marched (d : Direction) (requested : Nat) (calls : List Call) : Prop where
  direction : ∀ c ∈ calls, c.direction = d
  length_le : calls.length ≤ requested
  unbroken : ∀ c ∈ calls.dropLast, c.made = true
  /-- It ends early only where a call is refused. -/
  full : (∀ c ∈ calls, c.made = true) → calls.length = requested

namespace Marched

variable {d : Direction} {requested : Nat} {c : Call} {calls : List Call}

theorem nil : Marched d 0 [] := ⟨by simp, Nat.le_refl 0, by simp, fun _ => rfl⟩

private theorem refused (hd : c.direction = d) (hc : c.made = false) :
    Marched d (requested + 1) [c] where
  direction := by simpa using hd
  length_le := Nat.succ_le_succ (Nat.zero_le _)
  unbroken := by simp
  full h := by simp [hc] at h

private theorem cons (h : Marched d requested calls) (hd : c.direction = d) (hc : c.made = true) :
    Marched d (requested + 1) (c :: calls) where
  direction := List.forall_mem_cons.mpr ⟨hd, h.direction⟩
  length_le := Nat.succ_le_succ h.length_le
  unbroken := by
    rcases hcalls : calls with _ | ⟨c', cs⟩
    · simp
    · rw [List.dropLast_cons_cons, List.forall_mem_cons, ← hcalls]
      exact ⟨hc, h.unbroken⟩
  full hall := congrArg (· + 1) (h.full (List.forall_mem_cons.mp hall).2)

/-- All steps that were requested are made, or one is refused and fewer are made. -/
theorem countP_made (h : Marched d requested calls) :
    ((∀ c ∈ calls, c.made = true) ∧ calls.countP Call.made = requested) ∨
      (∃ c ∈ calls, c.made = false) ∧ calls.countP Call.made < requested := by
  by_cases hall : ∀ c ∈ calls, c.made = true
  · exact .inl ⟨hall, (List.countP_eq_length.mpr hall).trans (h.full hall)⟩
  · have hlt : calls.countP Call.made ≠ calls.length := fun heq =>
      hall (List.countP_eq_length.mp heq)
    have hle := h.length_le
    have hcount := List.countP_le_length (p := Call.made) (l := calls)
    exact .inr ⟨by simpa using hall, by omega⟩

end Marched

/-! ### What the desk is told -/

namespace Desk

variable {φ ω : Type}

/-- Hear what an engine tells of a call. -/
def receive (f : Following φ ω) (c : Call) : Action (Desk φ ω) Unit :=
  match c.notice? with
  | none => pure ()
  | some notice => hear f notice

end Desk

namespace EngineDesk

variable {φ ω ε : Type} {f : Following φ ω} {e : Engine ε} {r : EngineDesk φ ω ε}

/-- **A step is a call of the engine**, of which the desk hears what the engine tells. -/
theorem gives_step (d : Direction) {post : Bool → EngineDesk φ ω ε → Prop} :
    ((controls f e).step d).Gives r post ↔
      (Desk.receive f ⟨d, (e.step d r.engine).1⟩).Gives r.desk fun _ desk =>
        post (Call.made ⟨d, (e.step d r.engine).1⟩)
          { r with desk := desk, engine := (e.step d r.engine).2 } := by
  have hstep : (controls f e).step d = step f e d := by cases d <;> rfl
  rw [hstep, step, Action.gives_bind, Action.gives_get, Desk.receive]
  rcases hreply : (e.step d r.engine).1 with _ | _ | event
  all_goals
    simp only [hreply, Call.notice?, Action.gives_bind, Action.gives_modify, Action.gives_pure,
      Action.gives_zoom]
    rfl

/-- **A march is answered by its calls**: it is refused if one of them is, after the steps that were
made before. Along with it goes what each call carries along about the desk. -/
theorem gives_march {d : Direction} (good : Desk φ ω → List Call → Prop)
    (hgood : ∀ c desk calls, c.direction = d → good desk calls →
      (Desk.receive f c).Gives desk fun _ desk' => good desk' (calls ++ [c]))
    {requested done remaining : Nat} (before : List Call) (h : good r.desk before) :
    ((controls f e).march d requested done remaining).Gives r fun answer r' => ∃ calls,
      e.Makes r.engine calls r'.engine ∧ Marched d remaining calls ∧
        good r'.desk (before ++ calls) ∧
          ((∀ c ∈ calls, c.made = true) ∧ answer = .ok () ∨
            (∃ c ∈ calls, c.made = false) ∧
              answer = .error (.engineRefused d (done + calls.countP Call.made) requested)) := by
  induction remaining generalizing done r before with
  | zero =>
    refine (Action.gives_pure _).mpr ⟨[], rfl, .nil, ?_, .inl ⟨by simp, rfl⟩⟩
    rwa [List.append_nil]
  | succ remaining ih =>
    rw [Controls.march, Action.gives_bind, gives_step]
    let c : Call := ⟨d, (e.step d r.engine).1⟩
    refine (hgood c r.desk before rfl h).mono fun _ desk hdesk => ?_
    rcases hmade : c.made with _ | _
    · -- a refusal ends the march
      rw [if_neg Bool.false_ne_true]
      refine (Action.gives_pure _).mpr ⟨[c], ⟨rfl, rfl⟩, .refused rfl hmade, hdesk, .inr ?_⟩
      exact ⟨⟨c, List.mem_singleton_self c, hmade⟩, by simp [hmade]⟩
    · rw [if_pos rfl, Action.gives_bind, Action.gives_note]
      refine (ih (r := { r with desk := desk, engine := (e.step d r.engine).2 }) _ hdesk).mono ?_
      rintro answer r' ⟨calls, hmakes, hmarched, hgood', hanswer⟩
      refine ⟨c :: calls, ⟨rfl, hmakes⟩, hmarched.cons rfl hmade, ?_, ?_⟩
      · rwa [List.append_assoc] at hgood'
      · refine hanswer.imp (fun ⟨hall, hok⟩ => ⟨List.forall_mem_cons.mpr ⟨hmade, hall⟩, hok⟩) ?_
        rintro ⟨⟨c', hc', hrefused⟩, rfl⟩
        refine ⟨⟨c', List.mem_cons_of_mem _ hc', hrefused⟩, ?_⟩
        rw [List.countP_cons_of_pos hmade]
        congr 2
        omega

end EngineDesk

end UndoJournal
