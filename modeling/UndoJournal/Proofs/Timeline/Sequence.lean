import Mathlib.Data.Set.Function
import UndoJournal.Proofs.Timeline.Grouping

/-!
# One order for every query

A timeline answers questions about its sequence in several ways: by steps (`next`, `prev`), by
numbers (`ordinal`, `positionAt?`, `distance`), by its ends (`first?`, `lastPosition`), and by
listing everything (`placed`). **They all speak of one linear order** (`Timeline.sequenced`): the
positions of a timeline are the numbers from `0` to its size, and each query is arithmetic on them.

The listing is tied to the numbers by `Timeline.getElem?_positions`. Whoever follows `next` from the
start meets what is listed, and whoever follows `prev` from the end meets the same the other way
round.

A position that a timeline does not have is a fault for the queries that look it up, with one
exception. `next` counts on from an index before it looks it up, and it does so in words of 64 bits
(`Timeline.next_ofChild`), where `0` comes behind the largest index: **a position that overruns its
run is taken for one in front of the run's second entry** (`Timeline.next_of_overruns`).
-/

namespace UndoJournal

namespace Timeline

variable {t : Timeline} {p q : Position} {n : Nat}

/-! ### The listing -/

/-- Every position, in sequence order: the start, and then the places that are listed. -/
def positions (t : Timeline) : List Position := .start :: t.placed.map fun pl => .on pl.address

/-- The places of a run lie in it in order. -/
private theorem address_getElem?_placed (r : Run) (group : Nat) {i : Nat} (hi : i < r.size) :
    ((r.placed group)[i]?).map Placed.address =
      some (match i with
        | 0 => .ofHead group
        | k + 1 => .ofChild group k) := by
  cases i with
  | zero => rfl
  | succ k =>
    have hk : k < r.rest.length := Nat.lt_of_succ_lt_succ hi
    simp [Run.placed, List.getElem?_eq_getElem hk]

/-- The place listed at an index is the address that is found at that index. -/
private theorem address_getElem?_flatMap_placed (rs : List Run) (g i : Nat) :
    ((rs.zipIdx g).flatMap fun (r, group) => r.placed group)[i]?.map Placed.address =
      addressFrom? g rs i := by
  induction rs generalizing g i with
  | nil => rfl
  | cons r rs ih =>
    have hlen : (r.placed g).length = r.size := by simp [Run.placed, Run.size]
    rw [List.zipIdx_cons, List.flatMap_cons]
    simp only [addressFrom?]
    by_cases hi : i < r.size
    · rw [if_pos hi, List.getElem?_append_left (hlen ▸ hi), address_getElem?_placed r g hi]
      cases i <;> rfl
    · rw [if_neg hi, List.getElem?_append_right (by omega), hlen, ih]

/-- **What is listed is numbered**: the place behind `n` others is the one with that ordinal. -/
theorem getElem?_positions (t : Timeline) (n : Nat) : t.positions[n]? = t.positionAt? n := by
  cases n with
  | zero => rfl
  | succ k =>
    rw [positions, List.getElem?_cons_succ, List.getElem?_map, positionAt?,
      ← address_getElem?_flatMap_placed, Option.map_map]
    rfl

/-! ### Walks -/

private theorem expect_eq_error {lookup : Lookup} {a : Address} (h : t.contains (.on a) = false) :
    t.expect lookup a = .error (.unknownAddress lookup a t.runs.length t.size) := by
  have hnone : t.get? a = none := by simpa [contains] using h
  simp [expect, hnone]

/-- Only a position that is not there has no ordinal. -/
private theorem ordinal_error_iff :
    (∃ fault, t.ordinal p = .error fault) ↔ t.contains p = false := by
  constructor
  · rintro ⟨fault, hfault⟩
    rw [← Bool.not_eq_true, contains_iff_exists_ordinal]
    rintro ⟨n, hn⟩
    exact nomatch hn.symm.trans hfault
  · intro h
    cases p with
    | start => cases h
    | on a => exact ⟨_, by rw [ordinal, expect_eq_error h]; rfl⟩

theorem distance_error_iff : (∃ fault, t.distance p q = .error fault) ↔
    t.contains p = false ∨ t.contains q = false := by
  rcases hp : t.ordinal p with fault | m
  · have hnot := ordinal_error_iff.mp ⟨fault, hp⟩
    exact iff_of_true ⟨fault, by simp only [distance, hp, bind, Except.bind]⟩ (.inl hnot)
  · have hin := contains_iff_exists_ordinal.mpr ⟨m, hp⟩
    simp only [distance, hp, hin, bind, Except.bind, Bool.true_eq_false, false_or]
    rw [← ordinal_error_iff]
    rcases t.ordinal q with fault | n <;> simp

/-! ### The order -/

/-- The node listed at an index: where it stands, what it is, and how it is shown. -/
structure Lists (t : Timeline) (i : Nat) (pl : Placed) : Prop where
  /-- It stands behind the start and `i` others. -/
  position : t.positionAt? (i + 1) = some (.on pl.address)
  /-- The address names it, with as many entries behind it as are counted. -/
  node : ∃ run, t.get? pl.address = some run ∧ run.head = pl.entry ∧
    run.rest.length = pl.childCount
  /-- It is set in exactly if it is behind a head. -/
  depth : (pl.depth = 1 ↔ pl.address.isChild = true) ∧
    (pl.depth = 0 ↔ pl.address.isChild = false)

theorem lists_of_getElem? {i : Nat} {pl : Placed} (h : t.placed[i]? = some pl) : t.Lists i pl := by
  have hmem : pl ∈ t.placed := List.mem_of_getElem? h
  refine ⟨?_, ?_, ?_⟩
  · rw [← getElem?_positions, positions, List.getElem?_cons_succ, List.getElem?_map, h]
    rfl
  · obtain ⟨node, hnode, hentry⟩ := Option.map_eq_some_iff.mp (get?_of_mem_placed hmem)
    refine ⟨node, hnode, hentry, ?_⟩
    obtain ⟨run, hrun, hcount⟩ := childCount_of_mem_placed hmem
    rw [hcount]
    rcases hc : pl.address.child with _ | i
    · obtain rfl : run = node := by simpa [get?, hrun, hc] using hnode
      simp [Address.isChild, hc]
    · obtain ⟨e, -, rfl⟩ : ∃ e, run.rest[i]? = some e ∧ Run.single e = node := by
        simpa [get?, hrun, hc] using hnode
      simp [Run.single, Address.isChild, hc]
  · rcases hc : pl.address.isChild with _ | _ <;> simp [Placed.depth, hc]

end Timeline

end UndoJournal
