import Mathlib.Control.Monad.Basic
import WatMachine.Proofs.Token.Gaps

/-!
# Tokens tile their source

A source that is lexed is its tokens with the gaps around them, nothing more:
every token is the text at its span, the gaps hold blanks and comments alone,
and the spans follow each other up to the end of the source.  What one step of
the lexer takes off the text is proved first, and all tokens follow by
induction on the steps.
-/

namespace WatMachine

open Source

namespace Lexeme

variable {start : Position} {text : List Char} {lexeme : Lexeme}

theorem bind_eq_ok {α β : Type} {first : Except LexError α} {next : α → Except LexError β}
    {result : β} :
    first >>= next = .ok result ↔ ∃ value, first = .ok value ∧ next value = .ok result := by
  cases first with
  | error error => exact ⟨nofun, nofun⟩
  | ok value =>
      constructor
      · intro given
        exact ⟨value, rfl, given⟩
      · rintro ⟨_, ⟨⟩, given⟩
        exact given

/-- Whether a lexeme, other than the end of the input, takes a part off the
front of a text. -/
structure Takes (lexeme : Lexeme) (text : List Char) : Prop where
  shape : text = lexeme.characters ++ lexeme.rest
  nonempty : lexeme.characters ≠ []
  notEnd : lexeme.kind ≠ .endOfInput

theorem stringBody_shape {position : Position} {raw value rest : List Char}
    (read : stringBody start position text = .ok (raw, value, rest)) : text = raw ++ rest := by
  fun_induction stringBody start position text generalizing raw value rest with
  | case1 position => cases read
  | case2 position rest =>
      cases read
      rfl
  | case3 position rest ih =>
      obtain ⟨⟨inner, _, _⟩, within, ended⟩ := bind_eq_ok.mp read
      cases ended
      rw [ih within]
      rfl
  | case4 position rest => cases read
  | case5 position c rest _ _ _ ih =>
      obtain ⟨⟨inner, _, _⟩, within, ended⟩ := bind_eq_ok.mp read
      cases ended
      rw [ih within]
      rfl

theorem ofString_takes (read : ofString start text = .ok lexeme) :
    lexeme.Takes ('"' :: text) := by
  obtain ⟨⟨raw, value, rest⟩, within, ended⟩ := bind_eq_ok.mp read
  cases ended
  have shape := stringBody_shape within
  exact ⟨congrArg ('"' :: ·) shape, List.cons_ne_nil _ _, nofun⟩

theorem ofWord_takes {c : Char} (isWord : isWordChar c = true) :
    (ofWord (c :: text)).Takes (c :: text) := by
  refine ⟨List.takeWhile_append_dropWhile.symm, ?_, ?_⟩
  · simp [ofWord, isWord]
  · rw [ofWord]
    split
    · exact nofun
    · exact nofun

theorem splitSign_shape {sign unsigned : List Char} (split : splitSign text = (sign, unsigned)) :
    text = sign ++ unsigned := by
  unfold splitSign at split
  split at split <;> cases split <;> rfl

/-- A number has a digit. -/
theorem ne_nil_of_integerValue? {sign run : List Char} {value : Int}
    (read : integerValue? sign run = some value) : run ≠ [] := by
  rintro rfl
  cases read

theorem ofInteger_takes (read : ofInteger start text = .ok lexeme) : lexeme.Takes text := by
  rcases signed : splitSign text with ⟨sign, unsigned⟩
  simp only [ofInteger, signed] at read
  split at read
  next _ value _ number =>
      cases read
      have shape := splitSign_shape signed
      refine ⟨?_, ?_, nofun⟩
      · rw [List.append_assoc, List.takeWhile_append_dropWhile, shape]
      · have hasDigit := ne_nil_of_integerValue? number
        exact List.append_ne_nil_of_right_ne_nil _ hasDigit
  · cases read

theorem ofIdentifier_takes (read : ofIdentifier start text = .ok lexeme) :
    lexeme.Takes ('$' :: text) := by
  unfold ofIdentifier at read
  split at read
  · cases read
  · cases read
    have shape : text = text.takeWhile isWordChar ++ text.dropWhile isWordChar :=
      List.takeWhile_append_dropWhile.symm
    exact ⟨congrArg ('$' :: ·) shape, List.cons_ne_nil _ _, nofun⟩

theorem isWordChar_of_isLower {c : Char} (lower : c.isLower = true) : isWordChar c = true := by
  have letter : c.isAlphanum = (c.isUpper || c.isLower || c.isDigit) := rfl
  simp [isWordChar, letter, lower]

/-- At the end of a text only its end is read, and otherwise a lexeme takes a
part of it. -/
theorem read_takes (read : read start text = .ok lexeme) :
    text = [] ∧ lexeme = ⟨.endOfInput, [], []⟩ ∨ lexeme.Takes text := by
  cases text with
  | nil =>
      cases read
      exact .inl ⟨rfl, rfl⟩
  | cons c rest =>
      right
      rw [Lexeme.read] at read
      split at read
      next quote =>
          subst quote
          exact ofString_takes read
      split at read
      next =>
          cases read
          exact ⟨rfl, List.cons_ne_nil _ _, nofun⟩
      split at read
      next =>
          cases read
          exact ⟨rfl, List.cons_ne_nil _ _, nofun⟩
      split at read
      next lower =>
          cases read
          exact ofWord_takes (isWordChar_of_isLower lower)
      split at read
      next => exact ofInteger_takes read
      split at read
      next dollar =>
          subst dollar
          exact ofIdentifier_takes read
      · cases read

end Lexeme

/-- A token with the gap before it. -/
structure Tile where
  gap : List Char
  token : Token

/-- The text that a tile takes up. -/
def Tile.text (tile : Tile) : List Char :=
  tile.gap ++ tile.token.text.toList

/-- Whether a text from a position on is some tiles and a last gap, and which
tokens these are. -/
inductive Tiled : Position → List Char → List Tile → List Char → List Token → Prop where
  | last {position : Position} {gap : List Char} (isGap : Gap true gap) :
      Tiled position gap [] gap [.endAt (position.after gap).spanHere]
  | next {position : Position} {tile : Tile} {rest : List Char} {tiles : List Tile}
      {last : List Char} {tokens : List Token} (isGap : Gap false tile.gap)
      (notEnd : tile.token.kind ≠ .endOfInput) (nonempty : tile.token.text ≠ "")
      (placed : tile.token.span =
        (position.after tile.gap).spanTo (position.after tile.text))
      (others : Tiled (position.after tile.text) rest tiles last tokens) :
      Tiled position (tile.text ++ rest) (tile :: tiles) last (tile.token :: tokens)

/-- One step of the lexer takes a gap and then a token off the text, or the
last gap. -/
theorem Cursor.next_takes {cursor after : Cursor} {token : Token}
    (stepped : cursor.next = .ok (token, after)) :
    (Gap true cursor.rest ∧ token = .endAt (cursor.position.after cursor.rest).spanHere) ∨
    ∃ gap, Gap false gap ∧ token.kind ≠ .endOfInput ∧ token.text ≠ "" ∧
      cursor.rest = (Tile.mk gap token).text ++ after.rest ∧
      after.position = cursor.position.after (Tile.mk gap token).text ∧
      token.span = (cursor.position.after gap).spanTo after.position := by
  obtain ⟨⟨start, text⟩, skipped, continued⟩ := Lexeme.bind_eq_ok.mp stepped
  obtain ⟨⟨kind, characters, rest⟩, read, ended⟩ := Lexeme.bind_eq_ok.mp continued
  cases ended
  obtain ⟨gap, shape, rfl, isGap⟩ := skipTrivia_gap skipped
  rcases Lexeme.read_takes read with ⟨rfl, same⟩ | takes
  · cases same
    rw [List.append_nil] at shape
    subst shape
    exact .inl ⟨isGap, rfl⟩
  · right
    have whole := takes.shape
    dsimp only at shape isGap whole
    have more : text.isEmpty = false := by
      rw [whole]
      simp [takes.nonempty]
    rw [more] at isGap
    refine ⟨gap, isGap, takes.notEnd, ?_, ?_, ?_, rfl⟩
    · intro empty
      exact takes.nonempty (String.ofList_eq_empty_iff.mp empty)
    · simp [Tile.text, shape, whole]
    · simp [Tile.text]

namespace Lexer

theorem collect_finished (count : Nat) (cursor : Cursor) :
    collect count ⟨cursor, true⟩ = .ok [] := by
  cases count <;> rfl

/-- To collect tokens is to take one step and to collect the others from
there. -/
theorem collect_succ_eq_ok {count : Nat} {cursor : Cursor} {tokens : List Token} :
    collect (count + 1) ⟨cursor, false⟩ = .ok tokens ↔
      ∃ token after others, cursor.next = .ok (token, after) ∧
        collect count ⟨after, token.isEnd⟩ = .ok others ∧ tokens = token :: others := by
  cases stepped : cursor.next with
  | error error => simp [collect, next, stepped]
  | ok step =>
      obtain ⟨token, after⟩ := step
      have unfolded : collect (count + 1) ⟨cursor, false⟩ =
          collect count ⟨after, token.isEnd⟩ >>= fun others => .ok (token :: others) := by
        simp [collect, next, stepped]
      rw [unfolded, Lexeme.bind_eq_ok]
      constructor
      · rintro ⟨others, collected, ⟨⟩⟩
        exact ⟨token, after, others, rfl, collected, rfl⟩
      · rintro ⟨_, _, others, ⟨⟩, collected, rfl⟩
        exact ⟨others, collected, rfl⟩

/-- All tokens that are collected, with one step for each character and one
more, tile the text. -/
theorem collect_tiled {count : Nat} {cursor : Cursor} {tokens : List Token}
    (enough : cursor.rest.length < count)
    (collected : collect count ⟨cursor, false⟩ = .ok tokens) :
    ∃ tiles last, Tiled cursor.position cursor.rest tiles last tokens := by
  induction count generalizing cursor tokens with
  | zero => omega
  | succ count ih =>
      obtain ⟨token, after, others, stepped, rest, rfl⟩ := collect_succ_eq_ok.mp collected
      rcases Cursor.next_takes stepped with
        ⟨isGap, rfl⟩ | ⟨gap, isGap, notEnd, nonempty, shape, place, span⟩
      · -- Nothing is given behind the end of the input.
        have nothing : others = [] := by
          have finished := collect_finished count after
          cases finished.symm.trans rest
          rfl
        subst nothing
        exact ⟨[], cursor.rest, .last isGap⟩
      · have continues : token.isEnd = false := by simpa [Token.isEnd] using notEnd
        rw [continues] at rest
        have shorter : after.rest.length < count := by
          have lengths := congrArg List.length shape
          have positive : 0 < token.text.toList.length := by
            rw [List.length_pos_iff]
            simpa using nonempty
          simp only [Tile.text, List.length_append] at lengths
          omega
        obtain ⟨tiles, last, tiled⟩ := ih shorter rest
        rw [shape]
        rw [place] at tiled span
        exact ⟨⟨gap, token⟩ :: tiles, last, .next isGap notEnd nonempty span tiled⟩

end Lexer

theorem Source.Position.offset_after (position : Position) (characters : List Char) :
    (position.after characters).offset =
      position.offset + (String.ofList characters).utf8ByteSize := by
  induction characters generalizing position with
  | nil => simp
  | cons c characters ih =>
      have grows : (position.advance c).offset = position.offset + c.utf8Size := by
        unfold Position.advance
        split <;> rfl
      rw [Position.after_cons, ih, grows, String.ofList_cons]
      simp [Nat.add_assoc]

/-- The bytes of a text are found between those of what stands around it. -/
theorem Source.extract_between (front middle back : List Char) :
    (String.ofList (front ++ middle ++ back)).toByteArray.extract
        (String.ofList front).utf8ByteSize (String.ofList (front ++ middle)).utf8ByteSize =
      (String.ofList middle).toByteArray := by
  rw [String.ofList_append, String.toByteArray_append, ← String.size_toByteArray,
    ← String.size_toByteArray, ByteArray.extract_append_size_left, String.ofList_append,
    String.toByteArray_append]
  exact ByteArray.extract_append_eq_right rfl ByteArray.size_append

namespace Tiled

variable {position : Position} {text : List Char} {tiles : List Tile} {last : List Char}
  {tokens : List Token}

theorem text_eq (tiled : Tiled position text tiles last tokens) :
    text = tiles.flatMap Tile.text ++ last := by
  induction tiled with
  | last => rfl
  | next _ _ _ _ _ ih => rw [ih, List.flatMap_cons, List.append_assoc]

theorem tokens_eq (tiled : Tiled position text tiles last tokens) :
    tokens = tiles.map (·.token) ++ [.endAt (position.after text).spanHere] := by
  induction tiled with
  | last => rfl
  | next _ _ _ _ _ ih =>
      rw [Position.after_append, List.map_cons, List.cons_append, ← ih]

theorem each (tiled : Tiled position text tiles last tokens) :
    ∀ tile ∈ tiles,
      Gap false tile.gap ∧ tile.token.kind ≠ .endOfInput ∧ tile.token.text ≠ "" := by
  induction tiled with
  | last => simp
  | next isGap notEnd nonempty _ _ ih =>
      exact List.forall_mem_cons.mpr ⟨⟨isGap, notEnd, nonempty⟩, ih⟩

theorem lastGap (tiled : Tiled position text tiles last tokens) : Gap true last := by
  induction tiled with
  | last isGap => exact isGap
  | next _ _ _ _ _ ih => exact ih

/-- The span of a token is where its text stands. -/
theorem placed (tiled : Tiled position text tiles last tokens) {front back : List Tile}
    {tile : Tile} (split : tiles = front ++ tile :: back) :
    tile.token.span = (position.after (front.flatMap Tile.text ++ tile.gap)).spanTo
      (position.after (front.flatMap Tile.text ++ tile.text)) := by
  induction tiled generalizing front with
  | last => simp at split
  | @next position first rest tiles last tokens _ _ _ placed _ ih =>
      cases front with
      | nil =>
          cases split
          exact placed
      | cons _ front =>
          cases split
          simpa using ih rfl

/-- No span starts before the one in front of it has ended. -/
theorem ordered (tiled : Tiled position text tiles last tokens) :
    tokens.Pairwise (fun earlier later => earlier.span.stop ≤ later.span.start) ∧
      ∀ token ∈ tokens, position.offset ≤ token.span.start := by
  have grows (position : Position) (characters : List Char) :
      position.offset ≤ (position.after characters).offset := by
    rw [Position.offset_after]
    omega
  induction tiled with
  | @last position gap _ =>
      refine ⟨List.pairwise_singleton _ _, ?_⟩
      intro token member
      rw [List.mem_singleton.mp member]
      exact grows position gap
  | @next position tile rest tiles last tokens _ _ _ placed _ ih =>
      obtain ⟨apart, behind⟩ := ih
      refine ⟨List.pairwise_cons.mpr ⟨?_, apart⟩, List.forall_mem_cons.mpr ⟨?_, ?_⟩⟩
      · intro token member
        rw [placed]
        exact behind token member
      · rw [placed]
        exact grows position tile.gap
      · intro token member
        exact Nat.le_trans (grows position tile.text) (behind token member)

/-- The span of a token is as long as its text. -/
theorem span_stop (tiled : Tiled position text tiles last tokens) {tile : Tile}
    (member : tile ∈ tiles) :
    tile.token.span.stop = tile.token.span.start + tile.token.text.utf8ByteSize := by
  obtain ⟨front, back, split⟩ := List.append_of_mem member
  rw [tiled.placed split]
  simp [Position.spanTo, Tile.text, Position.offset_after]

/-- The bytes at the span of a token are those of its text. -/
theorem extract_span (tiled : Tiled .first text tiles last tokens) {tile : Tile}
    (member : tile ∈ tiles) :
    (String.ofList text).toByteArray.extract tile.token.span.start tile.token.span.stop =
      tile.token.text.toByteArray := by
  obtain ⟨front, back, split⟩ := List.append_of_mem member
  have whole : text = front.flatMap Tile.text ++ tile.gap ++ tile.token.text.toList ++
      (back.flatMap Tile.text ++ last) := by
    rw [tiled.text_eq, split]
    simp [Tile.text]
  have found := Source.extract_between (front.flatMap Tile.text ++ tile.gap)
    tile.token.text.toList (back.flatMap Tile.text ++ last)
  rw [← whole, String.ofList_toList] at found
  rw [tiled.placed split, Position.spanTo]
  simpa [Position.offset_after, Position.first, Tile.text, Nat.add_assoc] using found

end Tiled

/-- What is known of a source that was lexed: it is some tiles and a last gap,
and its tokens are those of the tiles and then the end of the input. -/
structure Tiling (source : String) (tokens : List Token) (tiles : List Tile) (last : List Char) :
    Prop where
  source_eq : source.toList = tiles.flatMap Tile.text ++ last
  gaps : ∀ tile ∈ tiles, Gap false tile.gap
  lastGap : Gap true last
  /-- The end of the input comes last, behind all of the source. -/
  tokens_eq : ∃ final : Span, tokens = tiles.map (·.token) ++ [.endAt final] ∧
    final.start = source.utf8ByteSize ∧ final.stop = source.utf8ByteSize
  notEnd : ∀ tile ∈ tiles, tile.token.kind ≠ .endOfInput
  nonempty : ∀ tile ∈ tiles, tile.token.text ≠ ""
  /-- Every token stands where its text does, behind its gap. -/
  placed : ∀ front tile back, tiles = front ++ tile :: back →
    tile.token.span = (Position.first.after (front.flatMap Tile.text ++ tile.gap)).spanTo
      (Position.first.after (front.flatMap Tile.text ++ tile.text))
  bytes : ∀ tile ∈ tiles,
    source.toByteArray.extract tile.token.span.start tile.token.span.stop =
      tile.token.text.toByteArray
  increasing : ∀ tile ∈ tiles, tile.token.span.start < tile.token.span.stop
  disjoint : tokens.Pairwise fun earlier later => earlier.span.stop ≤ later.span.start

/-- The tokens of a source tile it. -/
theorem tokenise_tiles {source : String} {tokens : List Token}
    (lexed : tokenise source = .ok tokens) : ∃ tiles last, Tiling source tokens tiles last := by
  obtain ⟨tiles, last, tiled⟩ := Lexer.collect_tiled (Nat.lt_succ_self _) lexed
  have offset : (Position.first.after source.toList).offset = source.utf8ByteSize := by
    rw [Position.offset_after, String.ofList_toList]
    exact Nat.zero_add _
  refine ⟨tiles, last, tiled.text_eq, fun tile member => (tiled.each tile member).1,
    tiled.lastGap, ⟨_, tiled.tokens_eq, offset, offset⟩,
    fun tile member => (tiled.each tile member).2.1,
    fun tile member => (tiled.each tile member).2.2, fun _ _ _ => tiled.placed, ?_, ?_,
    tiled.ordered.1⟩
  · intro tile member
    have found := tiled.extract_span member
    rwa [Cursor.ofCharacters, String.ofList_toList] at found
  · intro tile member
    have nonempty := (tiled.each tile member).2.2
    have positive : 0 < tile.token.text.utf8ByteSize := by
      rw [Nat.pos_iff_ne_zero]
      exact mt String.utf8ByteSize_eq_zero_iff.mp nonempty
    rw [tiled.span_stop member]
    omega

/-- A source with a comment inside another one, letters of two bytes, and line
comments up to a newline and up to the end. -/
def commented : String :=
  "(;é(;;);) \"é\" ;;x\n$a;;"

theorem tokenise_tiles_commented :
    let tokens : List Token := [⟨.string "é", "\"é\"", ⟨11, 15, 1, 11⟩⟩,
      ⟨.identifier "a", "$a", ⟨20, 22, 2, 1⟩⟩, .endAt ⟨24, 24, 2, 5⟩]
    tokenise commented = .ok tokens ∧ ∃ tiles last, Tiling commented tokens tiles last := by
  intro tokens
  have lexed : tokenise commented = .ok tokens := by decide +kernel
  exact ⟨lexed, tokenise_tiles lexed⟩

end WatMachine
