import WatMachine.Token.Lexer

/-!
# What stands between tokens

The language of gaps, stated apart from the function that skips them: blanks,
line comments and block comments, one after the other.

    gap     ::= (blank | line | block)*
    line    ::= ;; text      up to the newline or the end of the source
    block   ::= (; (character | block)* ;)

A character of a block comment begins neither `(;` nor `;)`, so a comment ends
where the comments inside it are closed.
-/

namespace WatMachine

open Source Lexeme

/-- The text between the delimiters of a block comment. -/
inductive CommentText : List Char → Prop where
  | nil : CommentText []
  | character {c : Char} {text : List Char}
      (opensNone : ¬['(', ';'] <+: c :: (text ++ [';', ')']))
      (closesNone : ¬[';', ')'] <+: c :: (text ++ [';', ')'])) (others : CommentText text) :
      CommentText (c :: text)
  | comment {inner text : List Char} (within : CommentText inner) (others : CommentText text) :
      CommentText ('(' :: ';' :: (inner ++ ';' :: ')' :: text))

/-- The delimiter behind the text of a comment is all that a character of it
can run into. -/
theorem CommentText.cons {c : Char} {text rest : List Char} (within : CommentText text)
    (opensNone : ¬['(', ';'] <+: c :: (text ++ ';' :: ')' :: rest))
    (closesNone : ¬[';', ')'] <+: c :: (text ++ ';' :: ')' :: rest)) :
    CommentText (c :: text) := by
  have leads : c :: (text ++ [';', ')']) <+: c :: (text ++ ';' :: ')' :: rest) := by
    refine ⟨rest, ?_⟩
    simp
  apply CommentText.character _ _ within
  · intro opens
    exact opensNone (opens.trans leads)
  · intro closes
    exact closesNone (closes.trans leads)

/-- Blanks and comments.  A line comment runs up to a newline, or in the last
gap of a source up to its end. -/
inductive Gap (isLast : Bool) : List Char → Prop where
  | nil : Gap isLast []
  | blank {c : Char} {rest : List Char} (blank : isBlank c = true) (others : Gap isLast rest) :
      Gap isLast (c :: rest)
  | lineComment {text rest : List Char} (oneLine : '\n' ∉ text)
      (stops : rest.head? = some '\n' ∨ rest = [] ∧ isLast = true) (others : Gap isLast rest) :
      Gap isLast (';' :: ';' :: (text ++ rest))
  | blockComment {text rest : List Char} (within : CommentText text) (others : Gap isLast rest) :
      Gap isLast ('(' :: ';' :: (text ++ ';' :: ')' :: rest))

/-- What is passed over on the way to the next token, from inside of what the
walk starts in: the rest of the comments that are open, and then a gap. -/
inductive Passed (isLast : Bool) : Trivia → List Char → Prop where
  | blank {text : List Char} (gap : Gap isLast text) : Passed isLast .blank text
  | lineComment {text rest : List Char} (oneLine : '\n' ∉ text)
      (stops : rest.head? = some '\n' ∨ rest = [] ∧ isLast = true) (gap : Gap isLast rest) :
      Passed isLast .lineComment (text ++ rest)
  | outermost {start : Position} {text rest : List Char} (within : CommentText text)
      (gap : Gap isLast rest) :
      Passed isLast (.blockComment start 0) (text ++ ';' :: ')' :: rest)
  | nested {start : Position} {depth : Nat} {text rest : List Char} (within : CommentText text)
      (outside : Passed isLast (.blockComment start depth) rest) :
      Passed isLast (.blockComment start (depth + 1)) (text ++ ';' :: ')' :: rest)

namespace Passed

variable {isLast : Bool} {start : Position} {depth : Nat} {skipped : List Char}

theorem openLine (passed : Passed isLast .lineComment skipped) :
    Passed isLast .blank (';' :: ';' :: skipped) := by
  cases passed with
  | lineComment oneLine stops gap => exact .blank (.lineComment oneLine stops gap)

theorem openBlock (passed : Passed isLast (.blockComment start 0) skipped) :
    Passed isLast .blank ('(' :: ';' :: skipped) := by
  cases passed with
  | outermost within gap => exact .blank (.blockComment within gap)

/-- A newline ends a line comment, and every other character continues it. -/
theorem lineCharacter {c : Char}
    (passed : Passed isLast (if c = '\n' then .blank else .lineComment) skipped) :
    Passed isLast .lineComment (c :: skipped) := by
  by_cases newline : c = '\n'
  · rw [if_pos newline] at passed
    cases passed with
    | blank gap =>
        subst newline
        exact .lineComment List.not_mem_nil (.inl rfl) (.blank (by decide) gap)
  · rw [if_neg newline] at passed
    cases passed with
    | @lineComment text rest oneLine stops gap =>
        have stillOne : '\n' ∉ c :: text := by
          rw [List.mem_cons, not_or]
          exact ⟨Ne.symm newline, oneLine⟩
        exact .lineComment stillOne stops gap

/-- A comment that is opened and closed inside another belongs to its text. -/
theorem openInner (passed : Passed isLast (.blockComment start (depth + 1)) skipped) :
    Passed isLast (.blockComment start depth) ('(' :: ';' :: skipped) := by
  cases passed with
  | @nested _ _ inner _ within outside =>
      cases outside with
      | @outermost _ text rest more gap =>
          have longer : Passed isLast (.blockComment start 0)
              ('(' :: ';' :: (inner ++ ';' :: ')' :: text) ++ ';' :: ')' :: rest) :=
            .outermost (.comment within more) gap
          simpa using longer
      | @nested _ _ text rest more outside =>
          have longer : Passed isLast (.blockComment start _)
              ('(' :: ';' :: (inner ++ ';' :: ')' :: text) ++ ';' :: ')' :: rest) :=
            .nested (.comment within more) outside
          simpa using longer

/-- A character that neither opens nor closes a comment belongs to the text of
the innermost one. -/
theorem commentCharacter {c : Char} {rest : List Char}
    (noOpening : ∀ behind, c = '(' → skipped ++ rest = ';' :: behind → False)
    (noOuterClosing : ∀ behind, depth = 0 → c = ';' → skipped ++ rest = ')' :: behind → False)
    (noInnerClosing : ∀ less behind, depth = less + 1 → c = ';' →
      skipped ++ rest = ')' :: behind → False)
    (passed : Passed isLast (.blockComment start depth) skipped) :
    Passed isLast (.blockComment start depth) (c :: skipped) := by
  have opensNone : ¬['(', ';'] <+: c :: skipped := by
    rintro ⟨behind, same⟩
    cases same
    exact noOpening _ rfl rfl
  have closesNone : ¬[';', ')'] <+: c :: skipped := by
    rintro ⟨behind, same⟩
    cases same
    cases depth with
    | zero => exact noOuterClosing _ rfl rfl rfl
    | succ depth => exact noInnerClosing depth _ rfl rfl rfl
  cases passed with
  | outermost within gap => exact .outermost (within.cons opensNone closesNone) gap
  | nested within outside => exact .nested (within.cons opensNone closesNone) outside

end Passed

/-- Skipping passes over the rest of what is open and over the gap behind it,
and gives the place where it stops. -/
theorem skipTrivia_passes {trivia : Trivia} {position : Position} {text : List Char}
    {cursor : Cursor} (skips : skipTrivia trivia position text = .ok cursor) :
    ∃ skipped, text = skipped ++ cursor.rest ∧ cursor.position = position.after skipped ∧
      Passed cursor.rest.isEmpty trivia skipped := by
  fun_induction skipTrivia trivia position text with
  | case1 position =>
      cases skips
      exact ⟨[], rfl, rfl, .blank .nil⟩
  | case2 position rest ih =>
      obtain ⟨skipped, rfl, place, passed⟩ := ih skips
      exact ⟨'(' :: ';' :: skipped, rfl, place, passed.openBlock⟩
  | case3 position rest ih =>
      obtain ⟨skipped, rfl, place, passed⟩ := ih skips
      exact ⟨';' :: ';' :: skipped, rfl, place, passed.openLine⟩
  | case4 position c rest _ _ blank ih =>
      obtain ⟨skipped, rfl, place, passed⟩ := ih skips
      cases passed with
      | blank gap => exact ⟨c :: skipped, rfl, place, .blank (.blank blank gap)⟩
  | case5 position c rest _ _ _ =>
      cases skips
      exact ⟨[], rfl, rfl, .blank .nil⟩
  | case6 position =>
      cases skips
      exact ⟨[], rfl, rfl, .lineComment List.not_mem_nil (.inr ⟨rfl, rfl⟩) .nil⟩
  | case7 position c rest ih =>
      obtain ⟨skipped, rfl, place, passed⟩ := ih skips
      exact ⟨c :: skipped, rfl, place, passed.lineCharacter⟩
  | case8 start depth position => cases skips
  | case9 start depth position rest ih =>
      obtain ⟨skipped, rfl, place, passed⟩ := ih skips
      exact ⟨'(' :: ';' :: skipped, rfl, place, passed.openInner⟩
  | case10 start position rest ih =>
      obtain ⟨skipped, rfl, place, passed⟩ := ih skips
      cases passed with
      | blank gap => exact ⟨';' :: ')' :: skipped, rfl, place, .outermost .nil gap⟩
  | case11 start depth position rest ih =>
      obtain ⟨skipped, rfl, place, passed⟩ := ih skips
      exact ⟨';' :: ')' :: skipped, rfl, place, .nested .nil passed⟩
  | case12 start depth position c rest noOpening noOuterClosing noInnerClosing ih =>
      obtain ⟨skipped, rfl, place, passed⟩ := ih skips
      exact ⟨c :: skipped, rfl, place,
        passed.commentCharacter noOpening noOuterClosing noInnerClosing⟩

/-- Between tokens, skipping passes over a gap. -/
theorem skipTrivia_gap {position : Position} {text : List Char} {cursor : Cursor}
    (skips : skipTrivia .blank position text = .ok cursor) :
    ∃ gap, text = gap ++ cursor.rest ∧ cursor.position = position.after gap ∧
      Gap cursor.rest.isEmpty gap := by
  obtain ⟨gap, shape, place, passed⟩ := skipTrivia_passes skips
  cases passed with
  | blank isGap => exact ⟨gap, shape, place, isGap⟩

/-- A line comment runs up to the newline that stops it. -/
theorem skipTrivia_line {text rest : List Char} (oneLine : '\n' ∉ text)
    (stops : rest.head? = some '\n' ∨ rest = []) (position : Position) :
    skipTrivia .lineComment position (text ++ rest) =
      skipTrivia .blank (position.after text) rest := by
  induction text generalizing position with
  | nil =>
      rcases stops with newline | rfl
      · obtain ⟨others, rfl⟩ := List.head?_eq_some_iff.mp newline
        rfl
      · rfl
  | cons c text ih =>
      rw [List.mem_cons, not_or] at oneLine
      obtain ⟨other, others⟩ := oneLine
      rw [List.cons_append, skipTrivia, if_neg (Ne.symm other), ih others, Position.after_cons]

/-- A block comment runs up to the delimiter that closes it, and then the
comment around it goes on. -/
theorem skipTrivia_comment {text : List Char} (within : CommentText text) (start : Position)
    (depth : Nat) (position : Position) (rest : List Char) :
    skipTrivia (.blockComment start depth) position (text ++ ';' :: ')' :: rest) =
      skipTrivia (if depth = 0 then .blank else .blockComment start (depth - 1))
        (position.after (text ++ [';', ')'])) rest := by
  induction within generalizing depth position rest with
  | nil => cases depth <;> rfl
  | @character c text opensNone closesNone _ ih =>
      -- What the delimiter behind the text does not complete, more text does not either.
      have apart {d e : Char} (noPair : ¬[d, e] <+: c :: (text ++ [';', ')']))
          (behind : List Char) : c = d → text ++ ';' :: ')' :: rest = e :: behind → False := by
        rintro rfl shape
        have pair : [c, e] <+: c :: (text ++ ';' :: ')' :: rest) := by
          rw [shape]
          exact ⟨behind, rfl⟩
        have leads : c :: (text ++ [';', ')']) <+: c :: (text ++ ';' :: ')' :: rest) :=
          ⟨rest, by simp⟩
        exact noPair (List.prefix_of_prefix_length_le pair leads (by simp))
      rw [List.cons_append, skipTrivia, ih, List.cons_append, Position.after_cons]
      · exact apart opensNone
      · exact fun behind _ => apart closesNone behind
      · exact fun _ behind _ => apart closesNone behind
  | @comment inner text _ _ ihInner ih =>
      rw [List.cons_append, List.cons_append, skipTrivia, List.append_assoc,
        List.cons_append, List.cons_append, ihInner, if_neg (Nat.succ_ne_zero depth),
        Nat.add_sub_cancel, ih]
      simp [Position.after_append]

/-- A gap is skipped, whatever stands behind it. -/
theorem skipTrivia_of_gap {isLast : Bool} {gap : List Char} (isGap : Gap isLast gap)
    {rest : List Char} (ends : isLast = true → rest = []) (position : Position) :
    skipTrivia .blank position (gap ++ rest) = skipTrivia .blank (position.after gap) rest := by
  induction isGap generalizing position with
  | nil => rfl
  | @blank c gap blank _ ih =>
      rw [List.cons_append, skipTrivia, if_pos blank, ih, Position.after_cons]
      · rintro _ rfl
        cases blank
      · rintro _ rfl
        cases blank
  | @lineComment text gap oneLine stops _ ih =>
      have stillStops : (gap ++ rest).head? = some '\n' ∨ gap ++ rest = [] := by
        rcases stops with newline | ⟨rfl, last⟩
        · exact .inl (by simp [newline])
        · exact .inr (ends last)
      rw [List.cons_append, List.cons_append, skipTrivia, List.append_assoc,
        skipTrivia_line oneLine stillStops, ih]
      simp [Position.after_append]
  | @blockComment text gap within _ ih =>
      rw [List.cons_append, List.cons_append, skipTrivia, List.append_assoc,
        List.cons_append, List.cons_append, skipTrivia_comment within, if_pos rfl, ih]
      simp [Position.after_append]

end WatMachine
