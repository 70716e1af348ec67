import Mathlib.Data.List.Induction
import Mathlib.Data.Nat.Digits.Defs
import WatMachine.Proofs.Token.Spelling

/-!
# Numerals

A numeral is a sign, which may be missing, and a run of digits and separators.
It stands for a number in positional notation, whatever separators and leading
zeros are in it.  The lexer takes a numeral for an integer exactly if it has a
digit, its number fits in 64 bits, and no word runs on behind it.  Otherwise it
reports the numeral, with what runs on behind it.
-/

namespace WatMachine

open Source

namespace Lexeme

/-- Whether a sign, or none, and a run of digits and separators are a numeral.
Without a sign it begins with a digit. -/
structure IsNumeral (sign run : List Char) : Prop where
  signed : sign = ['+'] ∨ sign = ['-'] ∨ sign = [] ∧ ∃ c ∈ run.head?, c.isDigit = true
  digits : ∀ c ∈ run, isDigitOrSeparator c = true

/-- The number that a numeral stands for. -/
def numeralValue (sign run : List Char) : Int :=
  let digits := (run.filter (· ≠ '_')).map fun c => c.toNat - '0'.toNat
  let magnitude : Nat := Nat.ofDigits 10 digits.reverse
  if sign = ['-'] then -magnitude else magnitude

/-- Whether a numeral has a digit and its number fits in 64 bits with a sign. -/
def IsInteger (sign run : List Char) : Prop :=
  (∃ c ∈ run, c.isDigit = true) ∧
    -2 ^ 63 ≤ numeralValue sign run ∧ numeralValue sign run < 2 ^ 63

instance (sign run : List Char) : Decidable (IsInteger sign run) :=
  decidable_of_iff (run.any Char.isDigit = true ∧
      -2 ^ 63 ≤ numeralValue sign run ∧ numeralValue sign run < 2 ^ 63)
    (by rw [List.any_eq_true, IsInteger])

theorem digitsValue_eq_ofDigits (digits : List Char) :
    digitsValue digits =
      Nat.ofDigits 10 (digits.map fun c => c.toNat - '0'.toNat).reverse := by
  induction digits using List.reverseRecOn with
  | nil => rfl
  | append_singleton digits c ih =>
      have step : digitsValue (digits ++ [c]) =
          10 * digitsValue digits + (c.toNat - '0'.toNat) := by
        simp [digitsValue]
      rw [step, ih, List.map_append, List.reverse_append, List.map_singleton,
        List.reverse_singleton, List.singleton_append, Nat.ofDigits_cons]
      exact Nat.add_comm _ _

namespace IsNumeral

variable {sign run : List Char}

/-- What is no separator is a digit. -/
theorem filter_isDigit (numeral : IsNumeral sign run) :
    run.filter Char.isDigit = run.filter (· ≠ '_') := by
  apply List.filter_congr
  intro c inside
  rcases Bool.or_eq_true_iff.mp (numeral.digits c inside) with digit | separator
  · have other : c ≠ '_' := by
      rintro rfl
      exact absurd digit (by decide)
    simp [digit, other]
  · rw [beq_iff_eq.mp separator]
    decide

/-- The digits of a numeral give its number, if they are an integer. -/
theorem integerValue?_eq (numeral : IsNumeral sign run) :
    integerValue? sign run =
      if IsInteger sign run then some (numeralValue sign run) else none := by
  have hasDigit : (run.filter Char.isDigit).isEmpty = false ↔ ∃ c ∈ run, c.isDigit = true := by
    simp
  have value : (if sign = ['-'] then -(digitsValue (run.filter Char.isDigit) : Int)
      else digitsValue (run.filter Char.isDigit)) = numeralValue sign run := by
    rw [digitsValue_eq_ofDigits, numeral.filter_isDigit]
    rfl
  simp only [integerValue?, value]
  congr 1
  rw [Bool.and_eq_true, Bool.not_eq_true', hasDigit, fitsSigned64_iff]
  rfl

/-- The run of a numeral ends where something else than a digit or a separator
follows, and a word may run on from there. -/
theorem ofInteger_eq (numeral : IsNumeral sign run) {rest : List Char}
    (ends : ∀ c ∈ rest.head?, isDigitOrSeparator c = false) (start : Position) :
    ofInteger start (sign ++ run ++ rest) =
      if rest.takeWhile isWordChar = [] ∧ IsInteger sign run then
        .ok ⟨.integer (numeralValue sign run), sign ++ run, rest⟩
      else
        .error ⟨.invalidInteger (String.ofList (sign ++ run ++ rest.takeWhile isWordChar)),
          start.spanTo (start.after (sign ++ run ++ rest.takeWhile isWordChar))⟩ := by
  simp only [ofInteger, splitSign_of_signed numeral.signed,
    takeWhile_append_of_stop numeral.digits ends, dropWhile_append_of_stop numeral.digits ends,
    numeral.integerValue?_eq]
  cases rest.takeWhile isWordChar with
  | cons c others => simp
  | nil =>
      by_cases isInteger : IsInteger sign run
      · simp [isInteger]
      · simp [isInteger]

end IsNumeral

end Lexeme

open Lexeme

/-- Behind a gap, a numeral is the next integer, or it is reported with what
runs on behind it. -/
theorem Cursor.next_of_numeral {gap sign run rest : List Char} (isGap : Gap false gap)
    (numeral : IsNumeral sign run) (ends : ∀ c ∈ rest.head?, isDigitOrSeparator c = false)
    (position : Position) :
    next ⟨position, gap ++ (sign ++ run) ++ rest⟩ =
      if rest.takeWhile isWordChar = [] ∧ IsInteger sign run then
        .ok (⟨.integer (numeralValue sign run), String.ofList (sign ++ run),
            (position.after gap).spanTo (position.after (gap ++ (sign ++ run)))⟩,
          ⟨position.after (gap ++ (sign ++ run)), rest⟩)
      else
        .error ⟨.invalidInteger (String.ofList (sign ++ run ++ rest.takeWhile isWordChar)),
          (position.after gap).spanTo
            (position.after (gap ++ (sign ++ run) ++ rest.takeWhile isWordChar))⟩ := by
  obtain ⟨c, others, shape, first⟩ := first_of_signed numeral.signed rest
  have skipped := skipTrivia_of_opens (opens_of_number first) (position.after gap) others
  have read : Lexeme.read (position.after gap) (c :: others) =
      ofInteger (position.after gap) (sign ++ run ++ rest) := by
    rw [shape]
    exact read_integer first
  rw [List.append_assoc, next_of_gap isGap nofun, shape]
  unfold next
  rw [skipped]
  dsimp only [bind, Except.bind]
  rw [read, numeral.ofInteger_eq ends]
  by_cases isInteger : rest.takeWhile isWordChar = [] ∧ IsInteger sign run
  · rw [if_pos isInteger, if_pos isInteger, Position.after_append]
  · rw [if_neg isInteger, if_neg isInteger, List.append_assoc gap, Position.after_append _ gap]

namespace Lexer

theorem next_item (cursor : Cursor) :
    (next ⟨cursor, false⟩).1 = some (cursor.next.map Prod.fst) := by
  rw [next, if_neg Bool.false_ne_true]
  cases cursor.next <;> rfl

section Items

variable {gap sign run rest : List Char}

/-- A numeral that ends with its run is given as an integer or reported. -/
theorem item_of_numeral (isGap : Gap false gap) (numeral : IsNumeral sign run)
    (stops : ∀ c ∈ rest.head?, isWordChar c = false) (position : Position) :
    (next ⟨⟨position, gap ++ (sign ++ run) ++ rest⟩, false⟩).1 = some (
      if IsInteger sign run then
        .ok ⟨.integer (numeralValue sign run), String.ofList (sign ++ run),
          (position.after gap).spanTo (position.after (gap ++ (sign ++ run)))⟩
      else
        .error ⟨.invalidInteger (String.ofList (sign ++ run)),
          (position.after gap).spanTo (position.after (gap ++ (sign ++ run)))⟩) := by
  have nothing : rest.takeWhile isWordChar = [] := takeWhile_of_stop stops
  rw [next_item, Cursor.next_of_numeral isGap numeral (run_ends_of_stop stops), nothing]
  by_cases isInteger : IsInteger sign run
  · rw [if_pos ⟨rfl, isInteger⟩, if_pos isInteger]
    rfl
  · rw [if_neg (fun both => isInteger both.2), if_neg isInteger, List.append_nil, List.append_nil]
    rfl

/-- A numeral with a word behind it is reported with all of the word. -/
theorem item_of_word_behind_numeral (isGap : Gap false gap) (numeral : IsNumeral sign run)
    (runsOn : ∃ c ∈ rest.head?, isWordChar c = true ∧ isDigitOrSeparator c = false)
    (position : Position) :
    (next ⟨⟨position, gap ++ (sign ++ run) ++ rest⟩, false⟩).1 = some (
      .error ⟨.invalidInteger (String.ofList (sign ++ run ++ rest.takeWhile isWordChar)),
        (position.after gap).spanTo
          (position.after (gap ++ (sign ++ run) ++ rest.takeWhile isWordChar))⟩) := by
  obtain ⟨c, first, isWord, noDigit⟩ := runsOn
  obtain ⟨others, rfl⟩ := List.head?_eq_some_iff.mp (Option.mem_def.mp first)
  have ends : ∀ d ∈ (c :: others).head?, isDigitOrSeparator d = false := by
    rintro d ⟨⟩
    exact noDigit
  have nonempty : (c :: others).takeWhile isWordChar ≠ [] := by
    rw [List.takeWhile_cons_of_pos isWord]
    exact List.cons_ne_nil _ _
  rw [next_item, Cursor.next_of_numeral isGap numeral ends, if_neg (fun both => nonempty both.1)]
  rfl

end Items

end Lexer

end WatMachine
