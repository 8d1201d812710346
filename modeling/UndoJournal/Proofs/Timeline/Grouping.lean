import Mathlib.Data.List.Nodup
import Mathlib.Data.List.SplitBy
import UndoJournal.Proofs.Timeline.Cut
import UndoJournal.Proofs.Timeline.Places

/-!
# A timeline is the grouping of its flat list

`Timeline.Made` follows every way of filing, cutting and clearing from an empty timeline, together
with all the entries that were ever filed on it. Whatever was done, the runs are those that the flat
list alone determines, `Run.stretches`: with grouping on the longest stretches of entries of one
kind, with grouping off one run for each entry (`Sound.grouped`, `Run.Grouped.map_entries`). Filing
looks only at the last run and a cut may end inside a run, so what is carried along is local:
`Run.Grouped` compares the entries of a run with its head, and the heads of two runs next to each
other.

Identities rise along everything that was filed, and what is left is some of it in the same order
(`Sound.rising`, `Sound.sublist`). So a look-up by identity finds the one entry that has it
(`find?_eq_some_iff`).
-/

namespace UndoJournal

/-- Whether two entries are of one kind. -/
def Entry.sameKind (x y : Entry) : Bool := x.event.kind == y.event.kind

namespace Run

/-- The kind of the entry at the head. -/
def kind (r : Run) : String := r.head.event.kind

/-- How a flat list falls into runs: the longest stretches of entries of one kind, or, with
grouping off, every entry alone. -/
def stretches (grouping : Bool) (es : List Entry) : List (List Entry) :=
  if grouping then es.splitBy Entry.sameKind else es.map fun e => [e]

/-- Runs as filing groups entries. -/
structure Grouped (grouping : Bool) (runs : List Run) : Prop where
  /-- Behind a head there are entries of its kind only, and none with grouping off. -/
  alike : ∀ run ∈ runs, ∀ e ∈ run.rest, grouping = true ∧ e.event.kind = run.kind
  /-- With grouping on, a run does not go on with the kind of the run before. -/
  apart : (runs.map kind).IsChain fun k k' => grouping = true → k ≠ k'

namespace Grouped

variable {grouping : Bool} {front back runs : List Run} {r r' : Run}

private theorem nil : Grouped grouping [] := ⟨by simp, List.isChain_nil⟩

private theorem left (h : Grouped grouping (front ++ back)) : Grouped grouping front := by
  constructor
  · intro run hrun
    exact h.alike run (List.mem_append_left back hrun)
  · have hapart := h.apart
    rw [List.map_append] at hapart
    exact hapart.left_of_append

private theorem right (h : Grouped grouping (front ++ back)) : Grouped grouping back := by
  constructor
  · intro run hrun
    exact h.alike run (List.mem_append_right front hrun)
  · have hapart := h.apart
    rw [List.map_append] at hapart
    exact hapart.right_of_append

/-- A run may be exchanged for another one of its kind. -/
private theorem exchange (h : Grouped grouping (front ++ r :: back)) (hkind : r'.kind = r.kind)
    (halike : ∀ e ∈ r'.rest, grouping = true ∧ e.event.kind = r'.kind) :
    Grouped grouping (front ++ r' :: back) := by
  constructor
  · intro run hrun
    rcases List.mem_append.mp hrun with hfront | hback
    · exact h.alike run (List.mem_append_left _ hfront)
    · rcases List.mem_cons.mp hback with rfl | hback
      · exact halike
      · exact h.alike run (List.mem_append_right _ (List.mem_cons_of_mem _ hback))
  · have hapart := h.apart
    rw [List.map_append, List.map_cons] at hapart ⊢
    rwa [hkind]

/-- An entry that does not go on with the last run is a run of its own. -/
private theorem concat_single (h : Grouped grouping runs) {e : Entry}
    (hlast : ∀ run, runs.getLast? = some run → grouping = false ∨ run.kind ≠ e.event.kind) :
    Grouped grouping (runs ++ [single e]) := by
  constructor
  · intro run hrun
    rcases List.mem_append.mp hrun with hrun | hrun
    · exact h.alike run hrun
    · obtain rfl := List.mem_singleton.mp hrun
      simp [single]
  · rw [List.map_append, List.isChain_append]
    refine ⟨h.apart, List.isChain_singleton _, ?_⟩
    intro k hk k' hk' hgrouping
    obtain ⟨run, hrun, rfl⟩ : ∃ run, runs.getLast? = some run ∧ run.kind = k := by
      simpa [List.getLast?_map] using hk
    obtain rfl : e.event.kind = k' := by simpa [kind, single] using hk'
    rcases hlast run hrun with hoff | hne
    · simp [hgrouping] at hoff
    · exact hne

/-- The last run may get one more entry of its kind. -/
private theorem concat_push (h : Grouped grouping (front ++ [r])) {e : Entry}
    (hgrouping : grouping = true)
    (hkind : r.kind = e.event.kind) : Grouped grouping (front ++ [r.push e]) := by
  refine h.exchange rfl ?_
  intro x hx
  rcases List.mem_append.mp hx with hx | hx
  · exact h.alike r (List.mem_append_right _ List.mem_cons_self) x hx
  · obtain rfl := List.mem_singleton.mp hx
    exact ⟨hgrouping, hkind.symm⟩

/-- The runs up to one that is cut. -/
private theorem cutAfter (h : Grouped grouping runs) {i : Nat} (hrun : runs[i]? = some r)
    (keep : Nat) :
    Grouped grouping (runs.take i ++ [{ r with rest := r.rest.take keep }]) := by
  have hsplit : runs.take i ++ [r] ++ runs.drop (i + 1) = runs := by
    have htake : runs.take (i + 1) = runs.take i ++ [r] := by
      rw [List.take_add_one, hrun, Option.toList_some]
    rw [← htake, List.take_append_drop]
  have hfront : Grouped grouping (runs.take i ++ [r]) := left (hsplit.symm ▸ h)
  refine hfront.exchange rfl ?_
  intro e he
  exact h.alike r (List.mem_of_getElem? hrun) e (List.mem_of_mem_take he)

/-- The runs from one that is cut: its entries that are left get a head of their own, which is of
the kind of the old one. -/
private theorem cutThrough (h : Grouped grouping runs) {i : Nat} (hrun : runs[i]? = some r)
    (skip : Nat) :
    Grouped grouping ((ofEntries? (r.rest.drop skip)).toList ++ runs.drop (i + 1)) := by
  obtain ⟨hlt, hget⟩ := List.getElem?_eq_some_iff.mp hrun
  have hback : Grouped grouping (r :: runs.drop (i + 1)) := by
    have hsplit : runs = runs.take i ++ r :: runs.drop (i + 1) := by
      rw [← hget, List.getElem_cons_drop, List.take_append_drop]
    exact right (hsplit ▸ h)
  have halike : ∀ e ∈ r.rest.drop skip, grouping = true ∧ e.event.kind = r.kind :=
    fun e he => h.alike r (List.mem_of_getElem? hrun) e (List.mem_of_mem_drop he)
  rcases hleft : r.rest.drop skip with _ | ⟨e, es⟩
  · have hbehind : Grouped grouping ([r] ++ runs.drop (i + 1)) := hback
    exact hbehind.right
  · rw [hleft] at halike
    have hkind : e.event.kind = r.kind := (halike e List.mem_cons_self).2
    have hbehind : Grouped grouping ([] ++ r :: runs.drop (i + 1)) := hback
    change Grouped grouping ([] ++ ⟨e, es⟩ :: runs.drop (i + 1))
    refine hbehind.exchange hkind ?_
    intro x hx
    obtain ⟨hgrouping, hx⟩ := halike x (List.mem_cons_of_mem e hx)
    exact ⟨hgrouping, hx.trans hkind.symm⟩

/-- Every entry of a run is of its kind. -/
private theorem kind_of_mem_entries (h : Grouped grouping runs) (hr : r ∈ runs) {e : Entry}
    (he : e ∈ r.entries) : e.event.kind = r.kind := by
  rcases List.mem_cons.mp he with rfl | he
  · rfl
  · exact (h.alike r hr e he).2

/-- **Runs are determined by their flat list.** -/
theorem map_entries (h : Grouped grouping runs) :
    runs.map entries = stretches grouping (runs.flatMap entries) := by
  cases grouping with
  | false =>
    have hsingle : ∀ run ∈ runs, run.entries = [run.head] := by
      intro run hrun
      have hnone : run.rest = [] :=
        List.eq_nil_iff_forall_not_mem.mpr fun e he => by simpa using (h.alike run hrun e he).1
      rw [entries, hnone]
    have hflat : runs.flatMap entries = runs.map head := by
      rw [List.flatMap_congr hsingle, List.map_eq_flatMap]
    rw [stretches, if_neg (by simp), hflat, List.map_map]
    exact List.map_congr_left hsingle
  | true =>
    rw [stretches, if_pos rfl, List.flatMap_def, eq_comm]
    -- no run is empty, the entries of one are of one kind, and two runs differ where they meet
    refine List.splitBy_flatten ?_ ?_ ?_
    · intro hmem
      obtain ⟨run, -, hempty⟩ := List.mem_map.mp hmem
      exact List.cons_ne_nil _ _ hempty
    · intro es hes
      obtain ⟨run, hrun, rfl⟩ := List.mem_map.mp hes
      refine List.Pairwise.isChain (List.pairwise_of_forall_mem_list ?_)
      intro x hx y hy
      rw [Entry.sameKind, h.kind_of_mem_entries hrun hx, h.kind_of_mem_entries hrun hy,
        beq_self_eq_true]
    · -- the last entry of a run is of the kind of its head
      have hapart : runs.IsChain fun a b => a.kind ≠ b.kind := by
        simpa [List.isChain_map] using h.apart
      rw [List.isChain_map]
      refine hapart.imp_of_mem_imp fun r r' hr hr' hne => ?_
      have hlast := h.kind_of_mem_entries hr (List.getLast_mem (List.cons_ne_nil r.head r.rest))
      refine ⟨List.cons_ne_nil _ _, List.cons_ne_nil _ _, ?_⟩
      rw [Entry.sameKind, beq_eq_false_iff_ne]
      intro heq
      exact hne (hlast.symm.trans heq)

end Grouped

end Run

namespace Timeline

variable {t t' : Timeline} {grouping : Bool} {given : List Entry}

/-! ### Where an entry sits -/

/-- The entry at an index of the flat list, and the address that names it. -/
structure Sits (t : Timeline) (a : Address) (i : Nat) (e : Entry) : Prop where
  /-- The index counts the entries in front. -/
  ordinal : t.ordinal (.on a) = .ok (i + 1)
  /-- The flat list has the entry there. -/
  listed : t.toList[i]? = some e
  /-- The address names it. -/
  named : (t.get? a).map Run.head = some e

private theorem sits_of_ordinal {a : Address} {i : Nat} (h : t.ordinal (.on a) = .ok (i + 1)) :
    ∃ e, t.Sits a i e := by
  obtain ⟨r, hr, hlist⟩ := get?_of_ordinal h
  exact ⟨r.head, h, hlist, by rw [hr, Option.map_some]⟩

/-- Every address of a timeline has an entry. -/
theorem exists_sits {a : Address} (h : t.contains (.on a) = true) : ∃ i e, t.Sits a i e := by
  obtain ⟨n, hn⟩ := contains_iff_exists_ordinal.mp h
  obtain ⟨run, -, -, hcount⟩ := ordinal_on_eq_ok_iff.mp hn
  have hpos := a.reach_pos
  obtain ⟨i, rfl⟩ : ∃ i, n = i + 1 := ⟨n - 1, by omega⟩
  exact ⟨i, sits_of_ordinal hn⟩

/-- Every entry of a timeline has an address. -/
theorem exists_sits_of_mem {e : Entry} (h : e ∈ t.toList) : ∃ a i, t.Sits a i e := by
  obtain ⟨i, hlt, rfl⟩ := List.getElem_of_mem h
  obtain ⟨p, hp⟩ := exists_ordinal_of_le (t := t) (n := i + 1) (by rwa [← length_toList])
  cases p with
  | start => simp [ordinal] at hp
  | on a =>
    obtain ⟨e', hsits⟩ := sits_of_ordinal hp
    obtain rfl : t.toList[i] = e' := by
      simpa [List.getElem?_eq_getElem hlt] using hsits.listed
    exact ⟨a, i, hsits⟩

/-- The entry of a listed place is the one that its address names. -/
theorem get?_of_mem_placed {p : Placed} (h : p ∈ t.placed) :
    (t.get? p.address).map Run.head = some p.entry := by
  obtain ⟨run, hrun, hp⟩ := exists_run_of_mem_placed h
  simp only [Run.placed, List.mem_cons, List.mem_map] at hp
  rcases hp with hp | ⟨⟨e, i⟩, hmem, hp⟩
  · have hchild : p.address.child = none := by rw [hp]; rfl
    have hentry : p.entry = run.head := by rw [hp]
    rw [get?, hrun, hentry]
    simp [hchild]
  · have hchild : p.address.child = some i := by rw [← hp]; rfl
    have hentry : p.entry = e := by rw [← hp]
    have hrest : run.rest[i]? = some e := List.mk_mem_zipIdx_iff_getElem?.mp hmem
    rw [get?, hrun, hentry]
    simp [hchild, hrest, Run.single]

/-- **Looking up an identity** finds the address of the entry that has it. -/
theorem Numbered.find?_eq_some_iff (h : t.Numbered) {id : EntryId} {a : Address} :
    t.find? id = some a ↔ ∃ i e, t.Sits a i e ∧ e.id = id := by
  -- identities tell places apart, so the first place that is found is the only one
  have hunique : ∀ p ∈ t.placed, ∀ q ∈ t.placed, p.entry.id = q.entry.id → p = q := by
    have hnodup : (t.placed.map fun p => p.entry.id).Nodup := by
      have hids := h.nodup_ids
      rwa [← map_entry_placed, List.map_map] at hids
    exact fun p hp q hq => List.inj_on_of_nodup_map hnodup hp hq
  constructor
  · intro hfind
    obtain ⟨p, hp, rfl⟩ := Option.map_eq_some_iff.mp hfind
    have hmem : p ∈ t.placed := List.mem_of_find?_eq_some hp
    obtain ⟨i, e, hsits⟩ := exists_sits (contains_of_mem_placed hmem)
    have hentry : e = p.entry :=
      Option.some.inj (hsits.named.symm.trans (get?_of_mem_placed hmem))
    refine ⟨i, e, hsits, ?_⟩
    have hid := List.find?_some hp
    rw [hentry]
    exact beq_iff_eq.mp hid
  · rintro ⟨i, e, hsits, rfl⟩
    have hcontains : t.contains (.on a) = true :=
      contains_iff_exists_ordinal.mpr ⟨_, hsits.ordinal⟩
    obtain ⟨p, hp, rfl⟩ := exists_placed_of_contains hcontains
    have hentry : p.entry = e :=
      Option.some.inj ((get?_of_mem_placed hp).symm.trans hsits.named)
    rcases hfind : t.placed.find? fun q => q.entry.id == e.id with _ | q
    · have hno := List.find?_eq_none.mp hfind p hp
      simp [hentry] at hno
    · have hq : q.entry.id = p.entry.id := by
        have hid := List.find?_some hfind
        rw [hentry]
        exact beq_iff_eq.mp hid
      obtain rfl : q = p := hunique q (List.mem_of_find?_eq_some hfind) p hp hq
      rw [find?, hfind, Option.map_some]

/-- An identity is found exactly if its entry is still listed. -/
private theorem Numbered.isSome_find?_iff (h : t.Numbered) {id : EntryId} :
    (t.find? id).isSome ↔ ∃ e ∈ t.toList, e.id = id := by
  rw [Option.isSome_iff_exists]
  constructor
  · rintro ⟨a, ha⟩
    obtain ⟨i, e, hsits, hid⟩ := h.find?_eq_some_iff.mp ha
    exact ⟨e, List.mem_of_getElem? hsits.listed, hid⟩
  · rintro ⟨e, he, hid⟩
    obtain ⟨a, i, hsits⟩ := exists_sits_of_mem he
    exact ⟨a, h.find?_eq_some_iff.mpr ⟨i, e, hsits, hid⟩⟩

/-! ### Everything that can be done to a timeline -/

/-- The timelines that filing, cutting and clearing make of an empty one, with all the entries that
were filed on the way, also those that are gone. -/
inductive Made (grouping : Bool) : List Entry → Timeline → Prop where
  | empty : Made grouping [] (.empty grouping)
  | append {given : List Entry} {t : Timeline} (event : Event) (h : Made grouping given t) :
      Made grouping (given ++ [⟨(t.append event).1.id, event⟩]) (t.append event).2
  | truncateAfter {given : List Entry} {t t' : Timeline} {p : Position} {removed : Nat}
      (h : Made grouping given t) (hcut : t.truncateAfter p = .ok (removed, t')) :
      Made grouping given t'
  | truncateThrough {given : List Entry} {t t' : Timeline} {p : Position} {removed : Nat}
      (h : Made grouping given t) (hcut : t.truncateThrough p = .ok (removed, t')) :
      Made grouping given t'
  | clear {given : List Entry} {t : Timeline} (h : Made grouping given t) :
      Made grouping given t.clear.2

/-- What filing and cutting keep up, beside the counter that every timeline has. -/
structure Sound (grouping : Bool) (given : List Entry) (t : Timeline) : Prop where
  /-- The setting is never changed. -/
  setting : t.grouping = grouping
  /-- The runs are those of their entries. -/
  grouped : Run.Grouped grouping t.runs
  /-- Identities rise along everything that was filed. -/
  rising : given.Pairwise fun x y => x.id.raw < y.id.raw
  /-- The next identity is above all of them. -/
  below : ∀ e ∈ given, e.id.raw < t.nextId
  /-- What is left was filed, in that order. -/
  sublist : t.toList.Sublist given

namespace Sound

private theorem empty (grouping : Bool) : (Timeline.empty grouping).Sound grouping [] :=
  ⟨rfl, .nil, List.Pairwise.nil, by simp, List.nil_sublist _⟩

theorem numbered (h : t.Sound grouping given) : t.Numbered :=
  ⟨h.rising.sublist h.sublist, fun e he => h.below e (h.sublist.mem he)⟩

theorem append (h : t.Sound grouping given) (event : Event) :
    (t.append event).2.Sound grouping (given ++ [⟨(t.append event).1.id, event⟩]) := by
  rw [id_append]
  constructor
  · rw [grouping_append, h.setting]
  · rcases t.append_cases event with ⟨hlast, -, hruns⟩ | ⟨front, run, hfront, hon, hkind, -, hruns⟩
    · rw [hruns]
      exact h.grouped.concat_single (h.setting ▸ hlast)
    · have hgrouped := h.grouped
      rw [hfront] at hgrouped
      rw [hruns]
      exact hgrouped.concat_push (h.setting ▸ hon) hkind
  · rw [List.pairwise_append]
    refine ⟨h.rising, List.pairwise_singleton _ _, ?_⟩
    intro x hx y hy
    obtain rfl := List.mem_singleton.mp hy
    exact h.below x hx
  · intro e he
    rw [nextId_append]
    rcases List.mem_append.mp he with he | he
    · exact Nat.lt_succ_of_lt (h.below e he)
    · obtain rfl := List.mem_singleton.mp he
      exact Nat.lt_succ_self _
  · rw [toList_append]
    exact h.sublist.append (List.Sublist.refl _)

/-- Runs that are left of a sound timeline are sound if they are grouped. -/
private theorem of_cut (h : t.Sound grouping given) (hsetting : t'.grouping = t.grouping)
    (hgrouped : Run.Grouped grouping t'.runs) (hid : t'.nextId = t.nextId)
    (hlist : t'.toList.Sublist t.toList) : t'.Sound grouping given :=
  ⟨hsetting.trans h.setting, hgrouped, h.rising, hid ▸ h.below, hlist.trans h.sublist⟩

private theorem clear (h : t.Sound grouping given) : t.clear.2.Sound grouping given :=
  h.of_cut rfl .nil rfl (List.nil_sublist _)

theorem truncateAfter (h : t.Sound grouping given) {p : Position} {removed : Nat}
    (hcut : t.truncateAfter p = .ok (removed, t')) : t'.Sound grouping given := by
  obtain ⟨n, hn⟩ := exists_ordinal_of_truncateAfter hcut
  have hlist : t'.toList.Sublist t.toList := by
    rw [toList_truncateAfter hn hcut]
    exact List.take_sublist n _
  cases p with
  | start =>
    obtain rfl : t.clear.2 = t' := (Prod.mk.inj (Except.ok.inj hcut)).2
    exact h.clear
  | on a =>
    obtain ⟨run, hrun, hreach, -⟩ := ordinal_on_eq_ok_iff.mp hn
    obtain ⟨kept, hcut', hruns, hsetting, hid⟩ := exists_truncateAfter_on hrun hreach
    obtain rfl : kept = t' := (Prod.mk.inj (Except.ok.inj (hcut'.symm.trans hcut))).2
    exact h.of_cut hsetting (hruns ▸ h.grouped.cutAfter hrun _) hid hlist

theorem truncateThrough (h : t.Sound grouping given) {p : Position} {removed : Nat}
    (hcut : t.truncateThrough p = .ok (removed, t')) : t'.Sound grouping given := by
  obtain ⟨n, hn⟩ := exists_ordinal_of_truncateThrough hcut
  have hlist : t'.toList.Sublist t.toList := by
    rw [(toList_truncateThrough hn hcut).2]
    exact List.drop_sublist n _
  cases p with
  | start =>
    obtain rfl : t = t' := (Prod.mk.inj (Except.ok.inj hcut)).2
    exact h
  | on a =>
    obtain ⟨run, hrun, hreach, -⟩ := ordinal_on_eq_ok_iff.mp hn
    obtain ⟨kept, hcut', hruns, hsetting, hid⟩ := exists_truncateThrough_on hrun hreach
    obtain rfl : kept = t' := (Prod.mk.inj (Except.ok.inj (hcut'.symm.trans hcut))).2
    exact h.of_cut hsetting (hruns ▸ h.grouped.cutThrough hrun _) hid hlist

end Sound

/-- What is made by filing and cutting is sound. -/
theorem Made.sound (h : Made grouping given t) : t.Sound grouping given := by
  induction h with
  | empty => exact .empty grouping
  | append event _ ih => exact ih.append event
  | truncateAfter _ hcut ih => exact ih.truncateAfter hcut
  | truncateThrough _ hcut ih => exact ih.truncateThrough hcut
  | clear _ ih => exact ih.clear

/-! ### The canonical grouping -/

/-- What cutting at a position of a timeline does, in terms of the flat list. -/
structure CutsAt (t : Timeline) (p : Position) : Prop where
  /-- Cutting behind it keeps the entries up to it, and counts the others. -/
  after : ∃ n removed kept, t.ordinal p = .ok n ∧ t.truncateAfter p = .ok (removed, kept) ∧
    kept.toList = t.toList.take n ∧ removed + kept.size = t.size
  /-- Cutting through it keeps the entries behind it, and counts the others. -/
  through : ∃ n removed kept, t.ordinal p = .ok n ∧ t.truncateThrough p = .ok (removed, kept) ∧
    kept.toList = t.toList.drop n ∧ removed + kept.size = t.size
  /-- The run of a node goes on behind the node, and what is left of it gets a new head. -/
  rerooted : ∀ a, p = .on a → ∃ run, t.runs[a.group]? = some run ∧
    a.reach - 1 ≤ run.rest.length ∧ ∀ removed kept, t.truncateThrough p = .ok (removed, kept) →
      kept.runs = (Run.ofEntries? (run.rest.drop (a.reach - 1))).toList ++
        t.runs.drop (a.group + 1)

private theorem cutsAt_of_contains {p : Position} (h : t.contains p = true) : t.CutsAt p := by
  obtain ⟨n, hn⟩ := contains_iff_exists_ordinal.mp h
  have hle : n ≤ t.size := ordinal_le_size hn
  constructor
  · obtain ⟨kept, hcut, hlist, -, -⟩ := exists_truncateAfter hn
    refine ⟨n, _, kept, hn, hcut, hlist, ?_⟩
    have hsize : kept.size = n := by
      rw [← length_toList, hlist, List.length_take, length_toList, Nat.min_eq_left hle]
    omega
  · obtain ⟨kept, hcut, hlist, -⟩ := exists_truncateThrough hn
    refine ⟨n, _, kept, hn, hcut, hlist, ?_⟩
    have hsize : kept.size = t.size - n := by
      rw [← length_toList, hlist, List.length_drop, length_toList]
    omega
  · rintro a rfl
    obtain ⟨run, hrun, hreach, -⟩ := ordinal_on_eq_ok_iff.mp hn
    have hinside : a.reach - 1 ≤ run.rest.length := by
      rw [Run.size] at hreach
      omega
    refine ⟨run, hrun, hinside, ?_⟩
    intro removed kept hcut
    obtain ⟨kept', hcut', hruns, -, -⟩ := exists_truncateThrough_on hrun hreach
    obtain rfl : kept' = kept := (Prod.mk.inj (Except.ok.inj (hcut'.symm.trans hcut))).2
    exact hruns

/-- A timeline as the grouping of its flat list, and what can be done to it, with all the entries
that were ever filed on it. -/
structure Canonical (grouping : Bool) (given : List Entry) (t : Timeline) : Prop where
  /-- The runs are those that the flat list falls into. -/
  runs_eq : t.runs.map Run.entries = Run.stretches grouping t.toList
  /-- Every entry of a run is of the kind of its head. -/
  alike : ∀ run ∈ t.runs, ∀ e ∈ run.rest, e.event.kind = run.head.event.kind
  /-- With grouping on, neighbouring heads differ in kind. -/
  apart : grouping = true →
    t.runs.IsChain fun r r' => r.head.event.kind ≠ r'.head.event.kind
  /-- With grouping off, every run is a head alone. -/
  alone : grouping = false → ∀ run ∈ t.runs, run.rest = []
  /-- Behind an entry that is no head there is nothing. -/
  flat : ∀ a r, a.isChild = true → t.get? a = some r → r.rest = []
  /-- The counter counts the entries. -/
  size_eq : t.size = t.toList.length
  /-- Identities rise along everything that was filed, so no two entries ever share one. -/
  rising : given.Pairwise fun x y => x.id.raw < y.id.raw
  /-- Identities rise along the flat list. -/
  rising_toList : t.toList.Pairwise fun x y => x.id.raw < y.id.raw
  /-- The next identity is above all that were given out. -/
  below : ∀ e ∈ given, e.id.raw < t.nextId
  /-- What is left was filed, in that order. -/
  sublist : t.toList.Sublist given
  /-- An identity is found where its entry sits. -/
  find_iff : ∀ id a, t.find? id = some a ↔ ∃ i e, t.Sits a i e ∧ e.id = id
  /-- An identity is found as long as its entry is listed. -/
  found_iff : ∀ id, (t.find? id).isSome ↔ ∃ e ∈ t.toList, e.id = id
  /-- Filing adds one entry at the end, with the next identity, and says where it sits. -/
  files : ∀ event, (t.append event).1.id = ⟨t.nextId⟩ ∧
    (t.append event).2.toList = t.toList ++ [⟨(t.append event).1.id, event⟩] ∧
    (t.append event).2.size = t.size + 1 ∧
    (t.append event).2.Sits (t.append event).1.address t.toList.length
      ⟨(t.append event).1.id, event⟩
  /-- Both cuts work at every position of the timeline. -/
  cuts : ∀ p, t.contains p = true → t.CutsAt p
  /-- Clearing counts what it removes, which is everything. -/
  clears : t.clear.1 = t.toList.length ∧ t.clear.2.toList = [] ∧ t.clear.2.size = 0

/-- **A timeline is always the canonical grouping of its flat list**, whatever was filed on it and
wherever it was cut, and every change of it is the obvious one on that list. -/
theorem canonical_of_made {grouping : Bool} {given : List Entry} {t : Timeline}
    (h : Made grouping given t) : t.Canonical grouping given := by
  have hsound := h.sound
  have hgrouped := hsound.grouped
  have hnumbered := hsound.numbered
  refine {
    runs_eq := hgrouped.map_entries
    alike := fun run hrun e he => (hgrouped.alike run hrun e he).2
    apart := ?_
    alone := ?_
    flat := ?_
    size_eq := t.length_toList.symm
    rising := hsound.rising
    rising_toList := hnumbered.rising
    below := hsound.below
    sublist := hsound.sublist
    find_iff := fun id a => hnumbered.find?_eq_some_iff
    found_iff := fun id => hnumbered.isSome_find?_iff
    files := ?_
    cuts := fun p hp => cutsAt_of_contains hp
    clears := ⟨t.length_toList.symm, rfl, rfl⟩ }
  · intro hon
    have hapart := hgrouped.apart
    rw [List.isChain_map] at hapart
    exact hapart.imp fun r r' hne => hne hon
  · intro hoff run hrun
    refine List.eq_nil_iff_forall_not_mem.mpr fun e he => ?_
    have hon := (hgrouped.alike run hrun e he).1
    simp [hoff] at hon
  · intro a r hchild hget
    obtain ⟨i, hi⟩ := Option.isSome_iff_exists.mp hchild
    obtain ⟨run, -, hrun⟩ := Option.bind_eq_some_iff.mp hget
    rw [hi] at hrun
    obtain ⟨e, -, rfl⟩ := Option.map_eq_some_iff.mp hrun
    rfl
  · intro event
    have hlist := t.toList_append event
    refine ⟨t.id_append event, by rw [hlist, id_append], t.size_append event, ?_⟩
    have hord := t.ordinal_append event
    rw [← length_toList] at hord
    obtain ⟨e, hsits⟩ := sits_of_ordinal hord
    -- the last entry of the list is the one that was filed
    have he : e = ⟨(t.append event).1.id, event⟩ := by
      have hlisted := hsits.listed
      rw [hlist, List.getElem?_concat_length] at hlisted
      rw [id_append]
      exact (Option.some.inj hlisted).symm
    exact he ▸ hsits

/-- Two strokes and an erasure, of which the first stroke and then the erasure are cut away: one
more stroke joins the one that was left. -/
theorem canonical_of_made_regrown :
    ∃ given t, Made true given t ∧ given.map (fun e => (e.id.raw, e.event.kind)) =
        [(0, "stroke"), (1, "stroke"), (2, "erasure"), (3, "stroke")] ∧
      t.runs.map (fun r => r.entries.map fun e => e.id.raw) = [[1, 3]] ∧
      t.Canonical true given := by
  have hnone : Made true [] (.empty true) := .empty
  have hthree := ((hnone.append ⟨⟨0⟩, "stroke", ""⟩).append ⟨⟨1⟩, "stroke", ""⟩).append
    ⟨⟨2⟩, "erasure", ""⟩
  have hone := (hthree.truncateThrough (p := .on (.ofHead 0)) rfl).truncateAfter
    (p := .on (.ofHead 0)) rfl
  have hregrown := hone.append ⟨⟨3⟩, "stroke", ""⟩
  exact ⟨_, _, hregrown, rfl, rfl, canonical_of_made hregrown⟩

end Timeline

end UndoJournal
