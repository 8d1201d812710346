import UndoJournal.Proofs.Engine.Collapsing
import UndoJournal.Proofs.Observers.Fanout
import UndoJournal.Session.Basic

/-!
# A journal among other observers

A journal that is registered once with a fan-out hears every notice that is passed on while its
registration lasts, once and in order, **whoever else is registered or removed meanwhile**. So it
ends as a journal of the same settings that stands alone and hears just these notices
(`Fanout.Lodges.hearAll_after`), even if its own follower meets a fault now and then.

`Fanout.passes_on_exactly` puts this together with what a fan-out is for all its observers.
-/

namespace UndoJournal

variable {ο σ φ ω : Type}

namespace Journal

variable {j : Journal}

/-- What is heard last is heard by the journal that has heard the rest. -/
private theorem hearAll_append (notices notices' : List Notice) :
    j.hearAll (notices ++ notices') = (j.hearAll notices).bind fun j' => j'.hearAll notices' := by
  induction notices generalizing j with
  | nil => rfl
  | cons first notices ih =>
    simp only [List.cons_append, hearAll, bind, Except.bind]
    rcases j.hear first with fault | r
    · rfl
    · exact ih

/-- No notice is too much for a journal whose cursor is on a position of its timeline. -/
private theorem Traces.hearAll {s : Stack} (h : j.Traces s) (notices : List Notice) :
    ∃ j', j.hearAll notices = .ok j' ∧ j'.Traces (notices.foldl Stack.hear s) := by
  induction notices generalizing j s with
  | nil => exact ⟨j, rfl, h⟩
  | cons notice notices ih =>
    obtain ⟨r, hr, htraces⟩ := h.hear notice
    obtain ⟨j', hj', htraces'⟩ := ih htraces
    refine ⟨j', ?_, htraces'⟩
    rw [Journal.hearAll, hr]
    exact hj'

end Journal

namespace Dealing

/-- The notices that are passed on until a number is removed. -/
def noticesUntil (n : Nat) : List (Dealing ο) → List Notice
  | [] => []
  | add _ :: ds => noticesUntil n ds
  | remove m :: ds => if m = n then [] else noticesUntil n ds
  | notify notice :: ds => notice :: noticesUntil n ds

/-- The notice that is passed on by a dealing. -/
def notice? : Dealing ο → Option Notice
  | add _ | remove _ => none
  | notify notice => some notice

variable {n : Nat} {ds : List (Dealing ο)}

private theorem noticesUntil_concat_of_removed (h : remove n ∈ ds) (d : Dealing ο) :
    noticesUntil n (ds ++ [d]) = noticesUntil n ds := by
  induction ds with
  | nil => cases h
  | cons d' ds ih =>
    cases d' with
    | remove m =>
      by_cases hm : m = n
      · simp [noticesUntil, hm]
      · have hds : remove n ∈ ds := by simpa [Ne.symm hm] using h
        simp [noticesUntil, hm, ih hds]
    | add _ | notify _ => simpa [noticesUntil] using ih (by simpa using h)

private theorem noticesUntil_concat_of_kept (h : remove n ∉ ds) (d : Dealing ο) :
    noticesUntil n (ds ++ [d]) = noticesUntil n ds ++ d.notice?.toList := by
  induction ds with
  | nil => cases d <;> simp [noticesUntil, notice?]
  | cons d' ds ih =>
    rw [List.mem_cons, not_or] at h
    have ih := ih h.2
    cases d' with
    | remove m =>
      have hm : m ≠ n := fun hm => h.1 (hm ▸ rfl)
      simp [noticesUntil, hm, ih]
    | add _ | notify _ => simp [noticesUntil, ih]

/-- An observer that is added once has one registration only. -/
private theorem Registered.eq_made {before mid : List (Dealing ο)} {o : ο}
    (hbefore : add o ∉ before)
    (hmid : add o ∉ mid) {m : Nat} (h : Registered (before ++ add o :: mid) m o) :
    m = made before ∧ remove m ∉ mid := by
  obtain ⟨before', mid', hds, hm, hkept⟩ := h
  obtain ⟨rfl, hcons⟩ : before' = before ∧ add o :: mid' = add o :: mid := by
    rcases List.append_eq_append_iff.mp hds with ⟨l, rfl, hl⟩ | ⟨l, rfl, hl⟩
    · cases l with
      | nil => exact ⟨by simp, hl.symm⟩
      | cons d l =>
        obtain ⟨rfl, rfl⟩ := List.cons.inj hl
        simp at hmid
    · cases l with
      | nil => exact ⟨by simp, hl⟩
      | cons d l =>
        obtain ⟨rfl, rfl⟩ := List.cons.inj hl
        simp at hbefore
  obtain rfl := (List.cons.inj hcons).2
  exact ⟨hm.symm, hkept⟩

end Dealing

namespace Fanout

/-- One observer is a journal with its follower; no other one meets a fault or reaches it. -/
structure Lodges (deliver : ο → Notice → Action σ Unit) (desk : Lens σ (Desk φ ω))
    (f : Following φ ω) (log : ο) : Prop where
  lawful : desk.Lawful
  own : ∀ notice, deliver log notice = Action.zoom desk (Desk.hear f notice)
  others : ∀ o, o ≠ log → ∀ notice s,
    (deliver o notice).Gives s fun _ s' => (desk.get s').journal = (desk.get s).journal

namespace Lodges

variable {deliver : ο → Notice → Action σ Unit} {desk : Lens σ (Desk φ ω)} {f : Following φ ω}
  {log : ο} (h : Lodges deliver desk f log)

include h

/-- The journal hears nothing by way of others. -/
private theorem gives_each_others {es : List (Nat × ο)} (hes : ∀ e ∈ es, e.2 ≠ log)
    (notice : Notice)
    (s : σ) : (Action.each (fun e => deliver e.2 notice) es).Gives s fun _ s' =>
      (desk.get s').journal = (desk.get s).journal :=
  Action.gives_each (p := fun s' => (desk.get s').journal = (desk.get s).journal)
    (fun e he s' hs' => (h.others e.2 (hes e he) notice s').mono fun _ _ h' => h'.trans hs') rfl

/-- The journal hears a notice of its own registration, whatever its follower makes of it. -/
private theorem leaves_log {notice : Notice} {s : σ} {r : Reaction}
    (hr : (desk.get s).journal.hear notice = .ok r) :
    (deliver log notice).Leaves s fun _ s' => (desk.get s').journal = r.journal := by
  rw [h.own, Action.leaves_zoom]
  refine (Desk.leaves_hear_of_ok hr).mono fun _ d hd => ?_
  rw [h.lawful.get_set, hd]

/-- **A journal that is registered once hears a notice once.** -/
theorem leaves_each {before after : List (Nat × ο)} {n : Nat}
    (hbefore : ∀ e ∈ before, e.2 ≠ log) (hafter : ∀ e ∈ after, e.2 ≠ log) {notice : Notice} {s : σ}
    {r : Reaction} (hr : (desk.get s).journal.hear notice = .ok r) :
    (Action.each (fun e => deliver e.2 notice) (before ++ (n, log) :: after)).Leaves s fun _ s' =>
      (desk.get s').journal = r.journal := by
  -- those in front leave the journal alone, so the notice is still to be heard
  induction before generalizing s with
  | nil =>
    rw [List.nil_append, Action.each_cons, Action.leaves_bind]
    refine (h.leaves_log hr).mono ?_
    rintro (fault | ⟨⟩) s' hs'
    · exact hs'
    · exact (h.gives_each_others hafter notice s').leaves fun _ _ h' => h'.trans hs'
  | cons e before ih =>
    rw [List.cons_append, Action.each_cons, Action.leaves_bind]
    refine (h.others e.2 (hbefore e List.mem_cons_self) notice s).leaves fun _ s' hs' => ?_
    exact ih (fun e' he' => hbefore e' (List.mem_cons_of_mem _ he')) (hs'.symm ▸ hr)

/-- A journal that is not registered is left alone by every dealing. -/
private theorem journal_deal_of_absent {x : Fanout ο σ} (hx : ∀ e ∈ x.registry.entries, e.2 ≠ log)
    (d : Dealing ο) :
    (desk.get ((deal deliver d).run x).state.around).journal = (desk.get x.around).journal := by
  cases d with
  | add o | remove n => rfl
  | notify notice =>
    have hleft : (deal deliver (.notify notice)).Leaves x fun _ x' =>
        (desk.get x'.around).journal = (desk.get x.around).journal :=
      leaves_notify.mpr ((h.gives_each_others hx notice x.around).leaves fun _ _ h' => h')
    exact hleft

/-- A journal that is registered once hears the notice of a dealing, if there is one. -/
private theorem journal_deal_of_present {x : Fanout ο σ} {before after : List (Nat × ο)} {n : Nat}
    (hx : x.registry.entries = before ++ (n, log) :: after) (hbefore : ∀ e ∈ before, e.2 ≠ log)
    (hafter : ∀ e ∈ after, e.2 ≠ log) {stack : Stack}
    (htraces : (desk.get x.around).journal.Traces stack) (d : Dealing ο) :
    (desk.get x.around).journal.hearAll d.notice?.toList =
      .ok (desk.get ((deal deliver d).run x).state.around).journal := by
  cases d with
  | add o | remove n => rfl
  | notify notice =>
    obtain ⟨r, hr, -⟩ := htraces.hear notice
    have hheard : (deal deliver (.notify notice)).Leaves x fun _ x' =>
        (desk.get x'.around).journal = r.journal := by
      rw [leaves_notify, hx]
      exact h.leaves_each hbefore hafter hr
    rw [Dealing.notice?, Option.toList_some, Journal.hearAll, hr]
    exact congrArg Except.ok hheard.symm

variable {settings : Settings} {s : σ} (hs : (desk.get s).journal = .empty settings)

include hs

/-- Before it is registered, the journal stays empty. -/
private theorem journal_after_of_absent {ds : List (Dealing ο)} (hds : Dealing.add log ∉ ds) :
    (desk.get (after deliver (fresh s) ds).around).journal = .empty settings := by
  induction ds using List.reverseRecOn with
  | nil => exact hs
  | append_singleton ds d ih =>
    rw [List.mem_append, not_or] at hds
    rw [after_concat, ← ih hds.1]
    refine h.journal_deal_of_absent (fun e he hlog => ?_) d
    obtain ⟨before, after, rfl, -⟩ := ((standing_after s ds).mem_iff e.1 e.2).mp he
    exact hds.1 (hlog ▸ by simp)

/-- **A journal among other observers ends as one that stands alone** and hears what is passed on
while its registration lasts. -/
theorem hearAll_after {before mid : List (Dealing ο)} (hbefore : Dealing.add log ∉ before)
    (hmid : Dealing.add log ∉ mid) :
    (Journal.empty settings).hearAll (Dealing.noticesUntil (Dealing.made before) mid) =
      .ok (desk.get (after deliver (fresh s) (before ++ .add log :: mid)).around).journal := by
  -- from the end, since the last dealing is the one that the journal meets now
  induction mid using List.reverseRecOn with
  | nil =>
    rw [after_concat, ← h.journal_after_of_absent hs hbefore]
    rfl
  | append_singleton mid d ih =>
    rw [List.mem_append, not_or] at hmid
    have ih := ih hmid.1
    have hstanding : (after deliver (fresh s) (before ++ .add log :: mid)).registry.Standing
        (before ++ .add log :: mid) := standing_after s _
    have hnumber : ∀ m, (m, log) ∈ (after deliver (fresh s)
        (before ++ .add log :: mid)).registry.entries →
          m = Dealing.made before ∧ Dealing.remove m ∉ mid := fun m hm =>
      ((hstanding.mem_iff m log).mp hm).eq_made hbefore hmid.1
    rw [← List.cons_append, ← List.append_assoc, after_concat]
    by_cases hremoved : Dealing.remove (Dealing.made before) ∈ mid
    · -- the registration is over, and there is no other
      rw [Dealing.noticesUntil_concat_of_removed hremoved, ih]
      refine congrArg Except.ok (h.journal_deal_of_absent (fun e he hlog => ?_) d).symm
      obtain ⟨hn, hkept⟩ := hnumber e.1 (hlog ▸ he)
      exact hkept (hn ▸ hremoved)
    · have hin : (Dealing.made before, log) ∈ (after deliver (fresh s)
          (before ++ .add log :: mid)).registry.entries :=
        (hstanding.mem_iff _ _).mpr ⟨before, mid, rfl, rfl, hremoved⟩
      -- the journal is registered once, with all the others in front of it or behind it
      obtain ⟨l, l', hentries⟩ := List.append_of_mem hin
      have hsorted := hstanding.sorted
      rw [hentries] at hnumber hsorted
      obtain ⟨-, htail, hacross⟩ := List.pairwise_append.mp hsorted
      obtain ⟨hbehind, -⟩ := List.pairwise_cons.mp htail
      obtain ⟨stack, htraces⟩ : ∃ stack, (desk.get (after deliver (fresh s)
          (before ++ .add log :: mid)).around).journal.Traces stack := by
        obtain ⟨j', hj', htraces⟩ := (Journal.traces_empty settings).hearAll
          (Dealing.noticesUntil (Dealing.made before) mid)
        exact ⟨_, Except.ok.inj (hj'.symm.trans ih) ▸ htraces⟩
      rw [Dealing.noticesUntil_concat_of_kept hremoved, Journal.hearAll_append, ih]
      refine h.journal_deal_of_present hentries (fun e he hlog => ?_) (fun e he hlog => ?_)
        htraces d
      · -- a second registration would have the same number
        have hlt := hacross e he _ List.mem_cons_self
        exact Nat.ne_of_lt hlt (hnumber e.1 (hlog ▸ List.mem_append_left _ he)).1
      · have hlt := hbehind e he
        exact Nat.ne_of_gt hlt
          (hnumber e.1 (hlog ▸ List.mem_append_right _ (List.mem_cons_of_mem _ he))).1

end Lodges

/-! ### The fan-out for all its observers -/

open Dealing (made Registered noticesUntil)

/-- What a fan-out does next after some dealings, with its deliveries written down. -/
structure Exact (deliver : ο → Notice → Action σ Unit) (ds : List (Dealing ο))
    (x : Fanout ο (σ × List (Delivery ο))) : Prop where
  /-- The registry has the registrations that have lasted. -/
  mem_iff : ∀ n o, (n, o) ∈ x.registry.entries ↔ Registered ds n o
  /-- They are in the order in which they were made. -/
  sorted : x.registry.entries.Pairwise fun e e' => e.1 < e'.1
  /-- A new registration gets the next number and comes last. -/
  add : ∀ o, (deal (noted deliver) (.add o)).Gives x fun answer x' => answer = .added (made ds) ∧
    x'.registry.entries = x.registry.entries ++ [(made ds, o)] ∧ x'.around = x.around
  /-- A registration is found exactly if it has lasted, and only it is removed. -/
  remove : ∀ n, (deal (noted deliver) (.remove n)).Gives x fun answer x' =>
    (answer = .removed true ↔ ∃ o, Registered ds n o) ∧
    (answer = .removed false ↔ ¬ ∃ o, Registered ds n o) ∧
    x'.registry.entries = x.registry.entries.filter (fun e => e.1 != n) ∧ x'.around = x.around
  /-- A notice goes to every registration once, in their order. -/
  notify : ∀ notice, (deal (noted deliver) (.notify notice)).Leaves x fun result x' =>
    x'.registry = x.registry ∧ ∃ told,
      PassesOn deliver notice (x.registry.entries.map Prod.snd) told (result.map fun _ => ()) ∧
        x'.around.2 = x.around.2 ++ told.map fun o => ⟨o, notice⟩

private theorem exact_of_standing {deliver : ο → Notice → Action σ Unit} {ds : List (Dealing ο)}
    {x : Fanout ο (σ × List (Delivery ο))} (h : x.registry.Standing ds) : Exact deliver ds x where
  mem_iff := h.mem_iff
  sorted := h.sorted
  add o := by
    rw [← h.nextId]
    exact ⟨_, rfl, rfl, rfl, rfl⟩
  remove n := by
    refine ⟨_, rfl, ?_, ?_, rfl, rfl⟩
    · rw [Dealt.removed.injEq]
      exact h.found_iff n
    · rw [Dealt.removed.injEq, ← Bool.not_eq_true]
      exact not_congr (h.found_iff n)
  notify notice := by
    rw [leaves_notify]
    refine (passes_on notice x.registry.entries x.around).mono ?_
    rintro result w ⟨told, hpasses, hdeliveries⟩
    refine ⟨rfl, told, ?_, hdeliveries⟩
    rcases result with fault | ⟨⟩ <;> exact hpasses

/-- **A fan-out neither loses nor doubles nor shuffles notices**, whatever is added, removed and
passed on, and however often an observer is added. After any dealings the registrations are those
that have lasted, and the next dealing treats them as it should; writing the deliveries down changes
nothing. A registration that is over never comes back. And a journal that is registered once, while
others come and go, ends as a journal of its own that hears what is passed on in between. -/
theorem passes_on_exactly (deliver : ο → Notice → Action σ Unit) (s : σ) :
    (∀ ds, Exact deliver ds (after (noted deliver) (fresh (s, [])) ds) ∧
      (after (noted deliver) (fresh (s, [])) ds).plain = after deliver (fresh s) ds) ∧
    (∀ (ds : List (Dealing ο)) (n : Nat), n < made ds → (∀ o, ¬ Registered ds n o) →
      ∀ ds' o, ¬ Registered (ds ++ ds') n o) ∧
    ∀ (desk : Lens σ (Desk φ ω)) (f : Following φ ω) (log : ο) (settings : Settings),
      Lodges deliver desk f log → (desk.get s).journal = .empty settings →
        ∀ before mid, Dealing.add log ∉ before → Dealing.add log ∉ mid →
          (Journal.empty settings).hearAll (noticesUntil (made before) mid) =
            .ok (desk.get (after deliver (fresh s) (before ++ .add log :: mid)).around).journal :=
  ⟨fun ds => ⟨exact_of_standing (standing_after _ ds), plain_after ds _⟩,
    fun _ _ hn hover _ o h => hover o (h.of_append hn),
    fun _ _ _ _ h hs _ _ hbefore hmid => h.hearAll_after hs hbefore hmid⟩

end Fanout

namespace Session

/-- The journal of a session is told of changes by its document alone. -/
private theorem lodges_deliver :
    Fanout.Lodges deliver deskLens Surroundings.following .journal where
  lawful := ⟨fun _ _ => rfl, fun _ => rfl, fun _ _ _ => rfl⟩
  own _ := rfl
  others o ho notice s := by
    cases o with
    | journal => exact absurd rfl ho
    | tally name => exact (Action.gives_modify _).mpr rfl

/-- The journal of a session and two tallies: one is registered twice, one of its registrations is
removed, and so is that of the journal later on. The journal has heard the second and the third of
four commits, as one that stands alone. -/
theorem passes_on_exactly_tallied :
    let e (n : Nat) : Event := ⟨⟨n⟩, "Edit", "typing"⟩
    let s := unwired {} (.empty {} .unicode 0)
    let before : List (Dealing Watcher) := [.add (.tally "t"), .notify (.committed (e 0))]
    let mid : List (Dealing Watcher) :=
      [.add (.tally "t"), .notify (.committed (e 1)), .remove 0, .notify (.committed (e 2)),
        .remove 1, .add (.tally "u"), .notify (.committed (e 3))]
    let x := Fanout.after deliver (Fanout.fresh s) (before ++ .add .journal :: mid)
    x.registry.entries = [(2, .tally "t"), (3, .tally "u")] ∧
      (Journal.empty {}).hearAll [.committed (e 1), .committed (e 2)] =
        .ok x.around.desk.journal ∧
      x.around.desk.journal.timeline.size = 2 := by
  intro e s before mid x
  refine ⟨by decide +kernel, ?_, by decide +kernel⟩
  have hjournal := (Fanout.passes_on_exactly deliver s).2.2 deskLens Surroundings.following .journal
    {} lodges_deliver rfl before mid (by decide) (by decide)
  have hnotices : Dealing.noticesUntil (Dealing.made before) mid =
      [.committed (e 1), .committed (e 2)] := by decide
  have hx : Fanout.after deliver (Fanout.fresh s) (before ++ .add .journal :: mid) = x := rfl
  clear_value x
  rw [hnotices, hx] at hjournal
  exact hjournal

end Session

end UndoJournal
