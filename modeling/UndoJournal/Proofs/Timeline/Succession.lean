import Mathlib.Logic.Relation
import UndoJournal.Proofs.Timeline.Runs

/-!
# What becomes of a timeline

Filing, cutting and clearing, done any number of times, turn a timeline into another one
(`Timeline.Becomes`). The addresses of the entries that are left can change at every step: a cut
shifts runs, and it makes a head of an entry that trailed. What stays is said in terms of
identities.

* An entry afterwards is one from before, or its identity was given out on the way. So **an identity
  never passes to another entry** (`Becomes.eq_of_id_eq`).
* **A head that is left is still a head** (`Becomes.headed`).
-/

namespace UndoJournal

namespace Timeline

variable {t t' t'' : Timeline} {e e' : Entry}

/-- One edit leads from a timeline to another. -/
inductive Edited (t : Timeline) : Timeline → Prop where
  | append (event : Event) : Edited t (t.append event).2
  | truncateAfter {p : Position} {removed : Nat} {t' : Timeline}
      (h : t.truncateAfter p = .ok (removed, t')) : Edited t t'
  | truncateThrough {p : Position} {removed : Nat} {t' : Timeline}
      (h : t.truncateThrough p = .ok (removed, t')) : Edited t t'
  | clear : Edited t t.clear.2

/-- Any number of edits lead from a timeline to another. -/
def Becomes : Timeline → Timeline → Prop := Relation.ReflTransGen Edited

/-- A timeline and a later one: identities are never given out twice, and what is new is newer than
all that was. -/
structure Precedes (t t' : Timeline) : Prop where
  /-- Identities still rise. -/
  numbered : t'.Numbered
  /-- The counter is never set back. -/
  nextId_le : t.nextId ≤ t'.nextId
  /-- An entry is an old one, or its identity was given out since. -/
  listed : ∀ e ∈ t'.toList, e ∈ t.toList ∨ t.nextId ≤ e.id.raw
  /-- An entry trails if it did before, or its identity was given out since. -/
  trailing : ∀ e ∈ t'.trailing, e ∈ t.trailing ∨ t.nextId ≤ e.id.raw

namespace Precedes

private theorem refl (hn : t.Numbered) : t.Precedes t :=
  ⟨hn, Nat.le_refl _, fun _ => .inl, fun _ => .inl⟩

private theorem trans (h : t.Precedes t') (h' : t'.Precedes t'') : t.Precedes t'' where
  numbered := h'.numbered
  nextId_le := h.nextId_le.trans h'.nextId_le
  listed e he := (h'.listed e he).elim (h.listed e) fun hle => .inr (h.nextId_le.trans hle)
  trailing e he := (h'.trailing e he).elim (h.trailing e) fun hle => .inr (h.nextId_le.trans hle)

/-- A cut leaves a part of the entries. -/
private theorem of_cut (hn : t'.Numbered) (hid : t'.nextId = t.nextId)
    (hlist : ∀ e ∈ t'.toList, e ∈ t.toList) (htrail : ∀ e ∈ t'.trailing, e ∈ t.trailing) :
    t.Precedes t' :=
  ⟨hn, Nat.le_of_eq hid.symm, fun e he => .inl (hlist e he), fun e he => .inl (htrail e he)⟩

end Precedes

/-- **What one edit keeps.** -/
theorem Edited.precedes (h : t.Edited t') (hn : t.Numbered) : t.Precedes t' := by
  cases h with
  | append event =>
    refine ⟨hn.append event, by simp, fun e he => ?_, fun e he => ?_⟩
    · rw [toList_append] at he
      obtain he | he := List.mem_append.mp he
      · exact .inl he
      · obtain rfl := List.mem_singleton.mp he
        exact .inr (Nat.le_refl _)
    · exact (trailing_append he).imp_right fun hid => Nat.le_of_eq hid.symm
  | truncateAfter hcut =>
    obtain ⟨n, hn'⟩ := exists_ordinal_of_truncateAfter hcut
    refine .of_cut (hn.truncateAfter hcut) (runs_truncateAfter hcut).1 (fun e he => ?_)
      fun e => trailing_truncateAfter hcut
    rw [toList_truncateAfter hn' hcut] at he
    exact List.mem_of_mem_take he
  | truncateThrough hcut =>
    obtain ⟨n, hn'⟩ := exists_ordinal_of_truncateThrough hcut
    refine .of_cut (hn.truncateThrough hcut) (runs_truncateThrough hcut).1 (fun e he => ?_)
      fun e => trailing_truncateThrough hcut
    rw [(toList_truncateThrough hn' hcut).2] at he
    exact List.mem_of_mem_drop he
  | clear =>
    refine .of_cut ⟨List.Pairwise.nil, by simp⟩ rfl (by simp) ?_
    simp [Timeline.trailing, Timeline.clear]

/-- **What any number of edits keep.** -/
theorem Becomes.precedes (h : t.Becomes t') (hn : t.Numbered) : t.Precedes t' := by
  induction h with
  | refl => exact .refl hn
  | tail _ hedit ih => exact ih.trans (hedit.precedes ih.numbered)

/-- **An identity never passes to another entry.** -/
theorem Becomes.eq_of_id_eq (h : t.Becomes t') (hn : t.Numbered) (he : e ∈ t.toList)
    (he' : e' ∈ t'.toList) (hid : e.id = e'.id) : e = e' := by
  have hlt : e'.id.raw < t.nextId := hid ▸ hn.below e he
  obtain hold | hnew := (h.precedes hn).listed e' he'
  · exact List.inj_on_of_nodup_map hn.nodup_ids he hold hid
  · omega

/-- An entry is a head, or it trails. -/
private theorem headed_or_trailing (he : e ∈ t.toList) :
    (∃ group, t.head? group = some e) ∨ e ∈ t.trailing := by
  obtain ⟨run, hrun, hmem⟩ := List.mem_flatMap.mp he
  obtain rfl | hrest := List.mem_cons.mp hmem
  · obtain ⟨group, hgroup⟩ := List.getElem?_of_mem hrun
    exact .inl ⟨group, head?_of_getElem? hgroup⟩
  · exact .inr (List.mem_flatMap.mpr ⟨run, hrun, hrest⟩)

/-- **A head that is left is still a head.** -/
theorem Becomes.headed (h : t.Becomes t') (hn : t.Numbered) {group : Nat}
    (he : t.head? group = some e) (hleft : e ∈ t'.toList) : ∃ group', t'.head? group' = some e := by
  obtain hhead | htrail := headed_or_trailing hleft
  · exact hhead
  · have hlt : e.id.raw < t.nextId := hn.below e (mem_toList_of_head? he)
    obtain hold | hnew := (h.precedes hn).trailing e htrail
    · exact absurd rfl (hn.head_ne_trailing he hold)
    · omega

end Timeline

end UndoJournal
