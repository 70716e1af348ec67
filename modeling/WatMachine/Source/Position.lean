/-!
# Positions and spans in source text

A position counts the bytes, lines and columns of the text before it; a span
runs from one position to a later byte offset and is named in messages by
the line and column where it starts.

Lines and columns are counted without a bound.  Counters of 32 bits agree with
that only in a text of fewer than `2 ^ 32` lines, each of which has fewer than
`2 ^ 32 - 1` characters.
-/

namespace WatMachine

namespace Source

/-- Where a character stands: its byte offset in the UTF-8 text, and its line
and column, both counted from one and the column in characters. -/
structure Position where
  offset : Nat
  line : Nat
  column : Nat
  deriving Repr, DecidableEq, Inhabited

/-- A stretch of source text by its byte offsets, with the line and column of
its start. -/
structure Span where
  start : Nat
  stop : Nat
  line : Nat
  column : Nat
  deriving Repr, DecidableEq, Inhabited

namespace Position

/-- The position of the first character of a text. -/
def first : Position := ⟨0, 1, 1⟩

/-- The position after one more character.  A newline starts the next line. -/
def advance (position : Position) (c : Char) : Position :=
  if c = '\n' then
    ⟨position.offset + c.utf8Size, position.line + 1, 1⟩
  else
    ⟨position.offset + c.utf8Size, position.line, position.column + 1⟩

/-- The position after a run of characters. -/
def after (position : Position) (characters : List Char) : Position :=
  characters.foldl advance position

@[simp]
theorem after_nil (position : Position) : position.after [] = position :=
  rfl

@[simp]
theorem after_cons (position : Position) (c : Char) (characters : List Char) :
    position.after (c :: characters) = (position.advance c).after characters :=
  rfl

@[simp]
theorem after_append (position : Position) (front back : List Char) :
    position.after (front ++ back) = (position.after front).after back :=
  List.foldl_append

/-- Every newline starts one more line. -/
theorem line_after (position : Position) (characters : List Char) :
    (position.after characters).line = position.line + characters.count '\n' := by
  induction characters generalizing position with
  | nil => rfl
  | cons c characters ih =>
      rw [after_cons, ih, List.count_cons]
      unfold advance
      by_cases newline : c = '\n'
      · simp only [newline, if_true, beq_self_eq_true]
        omega
      · simp only [newline, if_false, beq_iff_eq]
        omega

/-- The span from this position up to a later one. -/
def spanTo (position stop : Position) : Span :=
  ⟨position.offset, stop.offset, position.line, position.column⟩

/-- The empty span at a position. -/
def spanHere (position : Position) : Span :=
  position.spanTo position

end Position

namespace Span

/-- The span used where no source text stands behind a value. -/
def origin : Span := ⟨0, 0, 1, 1⟩

/-- The number of bytes in a span. -/
def length (span : Span) : Nat :=
  span.stop - span.start

/-- Whether a span covers no byte. -/
def isEmpty (span : Span) : Bool :=
  span.start == span.stop

/-- The empty span just behind a span, named by the same line and column. -/
def behind (span : Span) : Span :=
  ⟨span.stop, span.stop, span.line, span.column⟩

/-- How messages name the place of a span. -/
def describe (span : Span) : String :=
  "line " ++ toString span.line ++ ", column " ++ toString span.column

end Span

end Source

end WatMachine
