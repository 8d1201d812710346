import Mathlib.Data.List.Induction
import UndoJournal.Observers.Registry
import UndoJournal.Proofs.Action.Alike
import UndoJournal.Proofs.Action.Outcome

/-!
# Notices are neither lost, doubled nor shuffled

A `Fanout` is a registry of observers and what they act on. What is done to it is a `Dealing`: an
observer is added, a number is removed, or a notice is passed on. Who is registered can be read off
the dealings so far (`Dealing.Registered`): the registration of an `add` has the number of `add`s
before it, and lasts until that number is removed.

**The registry has exactly these registrations in it, in their order** (`Fanout.standing_after`). So
numbers are never used twice and what was removed stays away, and a notice goes to each of them
once. Which deliveries are made is written down by `Fanout.noted`, which changes nothing else
(`Fanout.plain_after`): they are all, up to one that meets a fault (`Fanout.passes_on`).
-/

namespace UndoJournal

variable {ο σ : Type}

/-- An observer is registered with a fan-out or removed from it, or all are passed a notice. -/
inductive Dealing (ο : Type) where
  /-- Register an observer. -/
  | add (observer : ο)
  /-- Remove the registration with a number. -/
  | remove (number : Nat)
  /-- Pass a notice to all observers. -/
  | notify (notice : Notice)
deriving DecidableEq

/-! ### Registrations, by the dealings so far -/

namespace Dealing

/-- Whether a registration is made. -/
def isAdd : Dealing ο → Bool
  | add _ => true
  | remove _ | notify _ => false

/-- The number of registrations that were made. -/
def made (ds : List (Dealing ο)) : Nat := ds.countP isAdd

/-- Registration `n` was made for `o` and was not removed since. -/
def Registered (ds : List (Dealing ο)) (n : Nat) (o : ο) : Prop :=
  ∃ before after, ds = before ++ add o :: after ∧ made before = n ∧ remove n ∉ after

variable {ds : List (Dealing ο)} {n : Nat} {o : ο}

private theorem made_append (ds ds' : List (Dealing ο)) : made (ds ++ ds') = made ds + made ds' :=
  List.countP_append

private theorem not_registered_nil : ¬ Registered [] n o := by
  rintro ⟨before, after, h, -⟩
  simp at h

private theorem Registered.lt_made (h : Registered ds n o) : n < made ds := by
  obtain ⟨before, after, rfl, rfl, -⟩ := h
  have hadd : made (add o :: after) = made after + 1 := List.countP_cons_of_pos rfl
  rw [made_append, hadd]
  omega

/-- One more dealing removes a registration or leaves it, and may make one. -/
private theorem registered_concat_iff (d : Dealing ο) :
    Registered (ds ++ [d]) n o ↔ Registered ds n o ∧ d ≠ remove n ∨ d = add o ∧ n = made ds := by
  constructor
  · rintro ⟨before, after, hds, hn, hkept⟩
    rcases List.eq_nil_or_concat after with rfl | ⟨after, d', rfl⟩
    · obtain ⟨rfl, hd⟩ := List.append_inj' hds rfl
      exact .inr ⟨List.head_eq_of_cons_eq hd, hn.symm⟩
    · rw [List.concat_eq_append] at hds hkept
      rw [← List.cons_append, ← List.append_assoc] at hds
      obtain ⟨rfl, hd⟩ := List.append_inj' hds rfl
      obtain rfl := List.head_eq_of_cons_eq hd
      rw [List.mem_append, List.mem_singleton, not_or] at hkept
      exact .inl ⟨⟨before, after, rfl, hn, hkept.1⟩, fun h => hkept.2 h.symm⟩
  · rintro (⟨⟨before, after, rfl, hn, hkept⟩, hd⟩ | ⟨rfl, rfl⟩)
    · refine ⟨before, after ++ [d], by simp, hn, ?_⟩
      rw [List.mem_append, List.mem_singleton, not_or]
      exact ⟨hkept, fun h => hd h.symm⟩
    · exact ⟨ds, [], rfl, rfl, List.not_mem_nil⟩

/-- **A number that was given away is never given away again**: a registration with it is the old
one. -/
theorem Registered.of_append {ds' : List (Dealing ο)} (h : Registered (ds ++ ds') n o)
    (hn : n < made ds) : Registered ds n o := by
  induction ds' using List.reverseRecOn with
  | nil => rwa [List.append_nil] at h
  | append_singleton ds' d ih =>
    rw [← List.append_assoc, registered_concat_iff] at h
    obtain ⟨h, -⟩ | ⟨-, rfl⟩ := h
    · exact ih h
    · rw [made_append] at hn
      omega

end Dealing

/-! ### Registrations, in the registry -/

namespace Registry

open Dealing (made Registered)

/-- The registry has exactly the registrations that the dealings so far have left, in order. -/
structure Standing (ds : List (Dealing ο)) (r : Registry ο) : Prop where
  nextId : r.nextId = made ds
  mem_iff : ∀ n o, (n, o) ∈ r.entries ↔ Registered ds n o
  sorted : r.entries.Pairwise fun e e' => e.1 < e'.1

private theorem standing_empty : Standing [] (empty : Registry ο) :=
  ⟨rfl, fun _ _ => iff_of_false List.not_mem_nil Dealing.not_registered_nil, .nil⟩

namespace Standing

variable {ds : List (Dealing ο)} {r : Registry ο} (h : r.Standing ds)

include h

theorem add (o : ο) : (r.add o).2.Standing (ds ++ [.add o]) where
  nextId := by
    rw [Dealing.made_append]
    exact congrArg (· + 1) h.nextId
  mem_iff n o' := by
    have hnew : (n, o') ∈ [(r.nextId, o)] ↔ Dealing.add o = .add o' ∧ n = made ds := by
      rw [List.mem_singleton, Prod.mk.injEq, h.nextId, Dealing.add.injEq, and_comm,
        eq_comm (a := o)]
    rw [Dealing.registered_concat_iff, ← h.mem_iff, ← hnew, Registry.add, List.mem_append]
    simp
  sorted := by
    refine List.pairwise_append.mpr ⟨h.sorted, List.pairwise_singleton .., fun e he e' he' => ?_⟩
    obtain rfl := List.mem_singleton.mp he'
    rw [h.nextId]
    exact ((h.mem_iff e.1 e.2).mp he).lt_made

private theorem remove (n : Nat) : (r.remove n).2.Standing (ds ++ [.remove n]) where
  nextId := by
    rw [Dealing.made_append]
    exact h.nextId
  mem_iff m o := by
    have hkept : (m, o) ∈ (r.remove n).2.entries ↔ (m, o) ∈ r.entries ∧ m ≠ n := by
      simp [Registry.remove]
    rw [Dealing.registered_concat_iff, ← h.mem_iff, hkept]
    simp [eq_comm]
  sorted := h.sorted.filter _

private theorem notify (notice : Notice) : r.Standing (ds ++ [.notify notice]) where
  nextId := by
    rw [Dealing.made_append]
    exact h.nextId
  mem_iff m o := by
    rw [Dealing.registered_concat_iff, ← h.mem_iff]
    simp
  sorted := h.sorted

/-- Something is removed exactly if there is a registration with the number. -/
theorem found_iff (n : Nat) : (r.remove n).1 = true ↔ ∃ o, Registered ds n o := by
  have hlength : (r.remove n).1 = true ↔ ¬ ∀ e ∈ r.entries, e.1 ≠ n := by
    simp only [Registry.remove, bne_iff_ne, ne_eq, List.length_filter_eq_length_iff]
  rw [hlength]
  simp only [← h.mem_iff, not_forall, not_not]
  exact ⟨fun ⟨e, he, hn⟩ => ⟨e.2, hn ▸ he⟩, fun ⟨o, ho⟩ => ⟨(n, o), ho, rfl⟩⟩

end Standing

end Registry

/-! ### Dealing -/

/-- A registry of observers and what they act on. -/
structure Fanout (ο σ : Type) where
  /-- Who is registered. -/
  registry : Registry ο
  /-- What observers act on. -/
  around : σ

/-- The answer to a dealing. -/
inductive Dealt where
  /-- A registration was made, with a number. -/
  | added (number : Nat)
  /-- A number was looked for and found, or not. -/
  | removed (found : Bool)
  /-- A notice was passed on. -/
  | notified
deriving DecidableEq

namespace Fanout

open Dealing (made Registered)

/-- Nobody is registered yet. -/
def fresh (s : σ) : Fanout ο σ := ⟨.empty, s⟩

/-- What observers act on, as a part of a fan-out. -/
def aroundLens : Lens (Fanout ο σ) σ := ⟨around, fun s x => { x with around := s }⟩

/-- Deal with a fan-out whose observers are told in the given way. -/
def deal (deliver : ο → Notice → Action σ Unit) : Dealing ο → Action (Fanout ο σ) Dealt
  | .add o => do
    let x ← Action.get
    let (number, registry) := x.registry.add o
    Action.modify fun x => { x with registry := registry }
    pure (.added number)
  | .remove number => do
    let x ← Action.get
    let (found, registry) := x.registry.remove number
    Action.modify fun x => { x with registry := registry }
    pure (.removed found)
  | .notify notice => do
    let x ← Action.get
    Action.zoom aroundLens (x.registry.notify deliver notice)
    pure .notified

/-- One dealing after another; faults are survived. -/
def after (deliver : ο → Notice → Action σ Unit) (x : Fanout ο σ) (ds : List (Dealing ο)) :
    Fanout ο σ :=
  ds.foldl (fun x d => ((deal deliver d).run x).state) x

variable {deliver : ο → Notice → Action σ Unit} {x : Fanout ο σ}

theorem after_concat (ds : List (Dealing ο)) (d : Dealing ο) :
    after deliver x (ds ++ [d]) = ((deal deliver d).run (after deliver x ds)).state :=
  List.foldl_append

/-- A notice is a matter of what observers act on. -/
theorem leaves_notify {notice : Notice} {post : Except Fault Dealt → Fanout ο σ → Prop} :
    (deal deliver (.notify notice)).Leaves x post ↔
      (Action.each (fun e => deliver e.2 notice) x.registry.entries).Leaves x.around
        fun result s => post (result.map fun _ => .notified) ⟨x.registry, s⟩ := by
  simp only [deal, Action.leaves_bind, Action.leaves_get, Action.leaves_zoom]
  refine iff_of_eq (congrArg _ ?_)
  funext result s
  rcases result with fault | ⟨⟩ <;> rfl

/-- One more dealing keeps the registry to the dealings so far. -/
private theorem standing_deal {ds : List (Dealing ο)} (h : x.registry.Standing ds) (d : Dealing ο) :
    ((deal deliver d).run x).state.registry.Standing (ds ++ [d]) := by
  cases d with
  | add o => exact h.add o
  | remove n => exact h.remove n
  | notify notice =>
    have hleft : (deal deliver (.notify notice)).Leaves x fun _ x' =>
        x'.registry.Standing (ds ++ [.notify notice]) := leaves_notify.mpr (h.notify notice)
    exact hleft

/-- **The registry is what the dealings have left.** -/
theorem standing_after (s : σ) (ds : List (Dealing ο)) :
    (after deliver (fresh s) ds).registry.Standing ds := by
  induction ds using List.reverseRecOn with
  | nil => exact Registry.standing_empty
  | append_singleton ds d ih =>
    rw [after_concat]
    exact standing_deal ih d

/-! ### Deliveries -/

/-- A notice as an observer was told of it. -/
structure Delivery (ο : Type) where
  /-- Who was told. -/
  observer : ο
  /-- The notice. -/
  notice : Notice

/-- What observers act on, as a part of it with the deliveries. -/
def plainLens : Lens (σ × List (Delivery ο)) σ := ⟨Prod.fst, fun s w => (s, w.2)⟩

/-- Observers that are told in the same way, with every delivery written down. -/
def noted (deliver : ο → Notice → Action σ Unit) (o : ο) (notice : Notice) :
    Action (σ × List (Delivery ο)) Unit := do
  Action.modify fun w => (w.1, w.2 ++ [⟨o, notice⟩])
  Action.zoom plainLens (deliver o notice)

/-- The fan-out without the deliveries. -/
def plain (x : Fanout ο (σ × List (Delivery ο))) : Fanout ο σ := ⟨x.registry, x.around.1⟩

private theorem alike_notify_noted (os : List (Nat × ο)) (notice : Notice)
    (w : σ × List (Delivery ο)) :
    Action.Alike (Action.each (fun e => noted deliver e.2 notice) os) w
      (Action.each (fun e => deliver e.2 notice) os) w.1 fun w' s' => w'.1 = s' := by
  induction os generalizing w with
  | nil => exact Action.Alike.pure () rfl
  | cons e os ih =>
    rw [Action.each_cons, Action.each_cons]
    refine Action.Alike.seq ?_ ?_
    · exact Action.Alike.modify_left (Action.Alike.zoom_left
        ((Action.Alike.refl _ _).mono fun _ _ h => h))
    · rintro - w' _ rfl
      exact ih w'

/-- **Writing deliveries down changes nothing else.** -/
theorem alike_deal_noted (d : Dealing ο) (x : Fanout ο (σ × List (Delivery ο))) :
    Action.Alike (deal (noted deliver) d) x (deal deliver d) x.plain fun x' y => x'.plain = y := by
  cases d with
  | add o => exact ⟨rfl, rfl, rfl⟩
  | remove n => exact ⟨rfl, rfl, rfl⟩
  | notify notice =>
    refine Action.Alike.get_bind ?_
    have hnotify : Action.Alike (x.registry.notify (noted deliver) notice) x.around
        (x.registry.notify deliver notice) x.around.1 fun w s => w.1 = s :=
      alike_notify_noted x.registry.entries notice x.around
    refine Action.Alike.seq (Action.Alike.zoom (hnotify.mono ?_)) fun _ _ _ h =>
      Action.Alike.pure _ h
    rintro w _ rfl
    rfl

/-- With the deliveries or without them, the same is left. -/
theorem plain_after (ds : List (Dealing ο)) (x : Fanout ο (σ × List (Delivery ο))) :
    (after (noted deliver) x ds).plain = after deliver x.plain ds := by
  induction ds using List.reverseRecOn with
  | nil => rfl
  | append_singleton ds d ih =>
    rw [after_concat, after_concat, ← ih]
    exact (alike_deal_noted d _).state

/-- What passing a notice on comes to: everybody is told, in order, and all is well, or somebody
meets a fault, and nobody behind is told. -/
structure PassesOn (deliver : ο → Notice → Action σ Unit) (notice : Notice) (os : List ο)
    (told : List ο) (result : Except Fault Unit) : Prop where
  inOrder : told <+: os
  all_or_fault : told = os ∧ result = .ok () ∨
    ∃ o s fault, told.getLast? = some o ∧ ((deliver o notice).run s).result = .error fault ∧
      result = .error fault

/-- **Everybody is told once, in order**, up to the first who meets a fault. -/
theorem passes_on (notice : Notice) (es : List (Nat × ο)) (w : σ × List (Delivery ο)) :
    (Action.each (fun e => noted deliver e.2 notice) es).Leaves w fun result w' => ∃ told,
      PassesOn deliver notice (es.map Prod.snd) told result ∧
        w'.2 = w.2 ++ told.map fun o => ⟨o, notice⟩ := by
  -- a fault ends the round, so what was told is a prefix at every step
  induction es generalizing w with
  | nil => exact ⟨[], ⟨List.prefix_rfl, .inl ⟨rfl, rfl⟩⟩, (List.append_nil _).symm⟩
  | cons e es ih =>
    rw [Action.each_cons, Action.leaves_bind, noted, Action.leaves_bind, Action.leaves_modify]
    simp only [Action.leaves_zoom]
    rcases hrun : (deliver e.2 notice).run w.1 with ⟨fault | ⟨⟩, s, notes⟩
    all_goals
      change Action.Leaves (deliver e.2 notice) w.1 _
      rw [Action.Leaves, hrun]
    · exact ⟨[e.2], ⟨by simp, .inr ⟨e.2, w.1, fault, rfl, congrArg Outcome.result hrun, rfl⟩⟩, rfl⟩
    · refine (ih _).mono ?_
      rintro result w' ⟨told, hpasses, hdeliveries⟩
      refine ⟨e.2 :: told, ⟨List.cons_prefix_cons.mpr ⟨rfl, hpasses.inOrder⟩, ?_⟩, ?_⟩
      · rcases hpasses.all_or_fault with ⟨hall, hok⟩ | ⟨o, s', fault, hlast, hfault⟩
        · exact .inl ⟨congrArg _ hall, hok⟩
        · exact .inr ⟨o, s', fault, by simp [List.getLast?_cons, hlast], hfault⟩
      · rw [hdeliveries]
        simp [plainLens]

end Fanout

end UndoJournal
