import WatMachine.Proofs.Token.Places

/-!
# The items of a lexer

A lexer gives finitely many items and then none for ever.  All of them but the
last are tokens, each of which takes up some of the source; the last one is the
end of the input, or an error.  Collecting the tokens of a source gives these
items, or that error.
-/

namespace WatMachine

namespace Lexer

/-- Whether the items of a lexer are some tokens, one last item behind them and
none behind that.  No token but the last item ends the input, and the last item
does unless it is an error. -/
structure Yields (lexer : Lexer) (tokens : List Token) (last : Except LexError Token) : Prop where
  inside : ∀ token ∈ tokens, token.isEnd = false
  ends : ∀ token, last = .ok token → token.isEnd = true
  items : ∀ count, lexer.take count =
    (tokens.map (fun token => some (Except.ok token)) ++
      some last :: List.replicate count none).take count

variable {lexer : Lexer} {tokens : List Token} {last : Except LexError Token}

/-- Behind an item with which the lexer finishes there is none. -/
theorem Yields.single {cursor : Cursor}
    (given : ∀ count, lexer.take (count + 1) = some last :: take count ⟨cursor, true⟩)
    (ends : ∀ token, last = .ok token → token.isEnd = true) : lexer.Yields [] last where
  inside := nofun
  ends := ends
  items count := by
    cases count with
    | zero => rfl
    | succ count =>
        rw [given, take_finished]
        simp [List.take_replicate]

theorem Yields.cons {token : Token} {after : Lexer}
    (given : ∀ count, lexer.take (count + 1) = some (.ok token) :: after.take count)
    (continues : token.isEnd = false) (others : after.Yields tokens last) :
    lexer.Yields (token :: tokens) last where
  inside := List.forall_mem_cons.mpr ⟨continues, others.inside⟩
  ends := others.ends
  items count := by
    cases count with
    | zero => rfl
    | succ count =>
        -- One more item behind those that are taken makes no difference.
        have enough : count ≤ (tokens.map (fun token => some (Except.ok token)) ++
            some last :: List.replicate count none).length := by
          simp only [List.length_append, List.length_cons, List.length_replicate]
          omega
        rw [given, others.items, List.map_cons, List.cons_append, List.take_succ_cons,
          List.replicate_succ', ← List.cons_append, ← List.append_assoc,
          List.take_append_of_le_length enough]

/-- The items from a place on are the tokens there, of which there are no more
than characters. -/
theorem exists_yields (cursor : Cursor) :
    ∃ tokens last, tokens.length ≤ cursor.rest.length ∧ Yields ⟨cursor, false⟩ tokens last ∧
      cursor.tokens = last.map fun final => tokens ++ [final] := by
  induction cursor using Cursor.induct_steps with
  | @fails cursor error failed =>
      refine ⟨[], .error error, Nat.zero_le _, .single (fun _ => take_of_error failed) ?_,
        Cursor.tokens_of_error failed⟩
      rintro _ ⟨⟩
  | @ends cursor token after stepped ended =>
      have given (count : Nat) :
          take (count + 1) ⟨cursor, false⟩ = some (.ok token) :: take count ⟨after, true⟩ := by
        rw [take_of_next stepped, ended]
      refine ⟨[], .ok token, Nat.zero_le _, .single given ?_, Cursor.tokens_of_end stepped ended⟩
      rintro _ ⟨⟩
      exact ended
  | @step cursor token after stepped continues ih =>
      obtain ⟨tokens, last, bounded, yields, collected⟩ := ih
      have given (count : Nat) :
          take (count + 1) ⟨cursor, false⟩ = some (.ok token) :: take count ⟨after, false⟩ := by
        rw [take_of_next stepped, continues]
      have shorter := Cursor.next_shorter stepped continues
      refine ⟨token :: tokens, last, ?_, yields.cons given continues, ?_⟩
      · rw [List.length_cons]
        omega
      · rw [Cursor.tokens_of_next stepped continues, collected]
        cases last <;> rfl

/-- The lexer of a source ends exactly once.  Its items are at most as many
tokens as the source has characters, none of which ends the input, then the end
of the input or an error, and then none for ever.  The tokens of the source are
all these tokens with the end of the input behind them, or else that error is
the one that the source has. -/
theorem ends_once (source : String) :
    ∃ tokens last, tokens.length ≤ source.length ∧ (ofSource source).Yields tokens last ∧
      tokenise source = last.map fun final => tokens ++ [final] := by
  rw [← String.length_toList]
  exact exists_yields (.ofCharacters source.toList)

-- A word, and then a comment that is not closed.
example : (ofSource "f (;").take 4 =
    [some (.ok ⟨.reserved "f", "f", ⟨0, 1, 1, 1⟩⟩),
      some (.error ⟨.unterminatedComment, ⟨2, 4, 1, 3⟩⟩), none, none] := by
  decide +kernel

end Lexer

end WatMachine
