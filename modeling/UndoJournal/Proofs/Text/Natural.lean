import UndoJournal.Proofs.Text.Blank
import UndoJournal.Text

/-!
# The numerals

A text is read as a number exactly if it is a **numeral**: decimal digits, with or without a plus
sign in front and with any number of leading zeros, whose value fits into 64 bits. The usual way to
write a number is one of its numerals.
-/

namespace UndoJournal.Text

/-- A text stands for a number. -/
structure Numeral (cs : List Char) (n : Nat) : Prop where
  /-- It is made of digits behind an optional plus sign, and they have that value. -/
  digits : ∃ ds, (cs = ds ∨ cs = '+' :: ds) ∧ ds ≠ [] ∧ (∀ d ∈ ds, d.isDigit = true) ∧
    n = Nat.ofDigitChars 10 ds 0
  /-- The number fits. -/
  le : n ≤ largestNatural

variable {cs : List Char} {c : Char} {d m n : Nat}

private theorem digit?_eq_some_iff :
    digit? c = some d ↔ c.isDigit = true ∧ d = c.toNat - '0'.toNat := by
  have hrange : '0' ≤ c ∧ c ≤ '9' ↔ c.isDigit = true := by
    simp only [Char.isDigit, Bool.and_eq_true, decide_eq_true_eq, Char.le_def, ge_iff_le]
  unfold digit?
  split
  next h => simp [hrange.mp h, eq_comm]
  next h => simp [mt hrange.mpr h]

private theorem digitsFrom?_eq_some_iff :
    digitsFrom? n cs = some m ↔ (∀ c ∈ cs, c.isDigit = true) ∧ m = Nat.ofDigitChars 10 cs n := by
  induction cs generalizing n with
  | nil =>
    constructor
    · intro h
      exact ⟨by simp, (Option.some.inj h).symm⟩
    · rintro ⟨-, rfl⟩
      rfl
  | cons c cs ih =>
    simp only [digitsFrom?, Option.bind_eq_some_iff, digit?_eq_some_iff, ih, List.forall_mem_cons,
      Nat.ofDigitChars_cons]
    constructor
    · rintro ⟨d, ⟨hc, rfl⟩, hcs, hm⟩
      exact ⟨⟨hc, hcs⟩, hm⟩
    · rintro ⟨⟨hc, hcs⟩, hm⟩
      exact ⟨_, ⟨hc, rfl⟩, hcs, hm⟩

private theorem digits?_eq_some_iff :
    digits? cs = some m ↔
      cs ≠ [] ∧ (∀ c ∈ cs, c.isDigit = true) ∧ m = Nat.ofDigitChars 10 cs 0 := by
  unfold digits?
  cases cs with
  | nil => simp
  | cons c cs => simp [digitsFrom?_eq_some_iff]

theorem natural?_eq_some_iff : natural? cs = some n ↔ Numeral cs n := by
  unfold natural?
  simp only [Option.filter_eq_some_iff, decide_eq_true_eq, digits?_eq_some_iff]
  split
  next rest =>
    constructor
    · rintro ⟨h, hle⟩
      exact ⟨⟨rest, .inr rfl, h⟩, hle⟩
    · rintro ⟨⟨ds, rfl | hds, hne, hall, hn⟩, hle⟩
      · -- a plus sign is no digit
        exact absurd (hall '+' List.mem_cons_self) (by decide)
      · obtain ⟨-, rfl⟩ := List.cons.inj hds
        exact ⟨⟨hne, hall, hn⟩, hle⟩
  next hplus =>
    constructor
    · rintro ⟨h, hle⟩
      exact ⟨⟨cs, .inl rfl, h⟩, hle⟩
    · rintro ⟨⟨ds, rfl | hds, h⟩, hle⟩
      · exact ⟨h, hle⟩
      · exact absurd hds (hplus ds)

/-- A number is written as a numeral of its own. -/
theorem numeral_toString (h : n ≤ largestNatural) : Numeral (toString n).toList n := by
  have htext : (toString n).toList = Nat.toDigits 10 n := Nat.toList_repr
  refine ⟨⟨_, .inl htext, Nat.toDigits_ne_nil, fun d hd => ?_, ?_⟩, h⟩
  · exact Nat.isDigit_of_mem_toDigits (by decide) (by decide) hd
  · exact (Nat.ofDigitChars_toDigits (by decide) (by decide)).symm

theorem Numeral.ne_nil (h : Numeral cs n) : cs ≠ [] := by
  obtain ⟨ds, rfl | rfl, hne, -⟩ := h.digits
  · exact hne
  · exact List.cons_ne_nil '+' ds

theorem Numeral.noBlank (h : Numeral cs n) : NoBlank cs := by
  obtain ⟨ds, rfl | rfl, -, hall, -⟩ := h.digits
  · exact fun c hc => not_isBlank_of_isDigit (hall c hc)
  · exact noBlank_cons.mpr ⟨by decide, fun c hc => not_isBlank_of_isDigit (hall c hc)⟩

end UndoJournal.Text
