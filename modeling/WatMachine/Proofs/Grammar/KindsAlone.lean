import WatMachine.Proofs.Grammar.RelocatedModules
import WatMachine.Proofs.Token.Layouts

/-!
# Kinds alone decide

What a module is depends on the kinds of its tokens and on nothing else.
Between sources that are laid out for the same kinds there are blanks,
comments and spellings of integers to choose, and the choice has no part in
whether a source is accepted, in the fault it is rejected with, or in what its
module does.
-/

namespace WatMachine.Module

open TokenStream

/-- Sources of tokens of the same kinds are accepted or rejected together. -/
theorem parse_agreement {source copy : String} {tokens others : List Token}
    (lexed : tokenise source = .ok tokens) (alsoLexed : tokenise copy = .ok others)
    (kinds : tokens.map Token.kind = others.map Token.kind) :
    Agreement (SamePosition tokens others) (Module.Alike (SamePosition tokens others))
      (parse source) (parse copy) := by
  rw [parse, parse, lexed, alsoLexed]
  exact ofTokens_agreement kinds

/-- Reading depends on the kinds of tokens only.  Tokens of the same kinds are
both read, as modules that are the same up to the places of their instructions,
or both rejected for the same fault, and a place in one result is that of a
token at the same position as the place in the other.  So a source can be laid
out in any other way for the kinds of its tokens: it is still lexed, read the
same, and every session of calls has the same outcomes. -/
theorem ofTokens_depends_on_kinds :
    (∀ tokens others : List Token, tokens.map Token.kind = others.map Token.kind →
      Agreement (SamePosition tokens others) (Module.Alike (SamePosition tokens others))
        (ofTokens tokens) (ofTokens others)) ∧
    ∀ source tokens, tokenise source = .ok tokens →
      ∃ kinds, tokens.map Token.kind = kinds ++ [.endOfInput] ∧ LaidOut kinds source.toList ∧
        ∀ copy : String, LaidOut kinds copy.toList →
          ∃ others, tokenise copy = .ok others ∧
            Agreement (SamePosition tokens others) (Module.Alike (SamePosition tokens others))
              (parse source) (parse copy) ∧
            ∀ module other, parse source = .ok module → parse copy = .ok other →
              ∀ limit fuel : Nat, (Program.ofModule module limit).session fuel =
                (Program.ofModule other limit).session fuel := by
  constructor
  · intro tokens others kinds
    exact ofTokens_agreement kinds
  · intro source tokens lexed
    obtain ⟨lexemes, last, rfl, isEnd, -, -, laidOut⟩ := Cursor.tokens_laidOut lexed
    refine ⟨lexemes.map Token.kind, by simp [isEnd], laidOut, ?_⟩
    intro copy alsoLaidOut
    obtain ⟨others, alsoLexed, kinds⟩ := tokenise_iff_laidOut.mpr alsoLaidOut
    have agreement := parse_agreement lexed alsoLexed (by simp [kinds, isEnd])
    refine ⟨others, alsoLexed, agreement, ?_⟩
    intro module other accepted alsoAccepted limit fuel
    rw [accepted, alsoAccepted] at agreement
    cases agreement with
    | accepted same => rw [Program.session_congr same.unplaced]

def spacedTokens : List Token :=
  [⟨.leftParen, "(", ⟨0, 1, 1, 1⟩⟩, ⟨.keyword .moduleForm, "module", ⟨1, 7, 1, 2⟩⟩,
    ⟨.leftParen, "(", ⟨8, 9, 1, 9⟩⟩, ⟨.keyword .funcForm, "func", ⟨9, 13, 1, 10⟩⟩,
    ⟨.keyword .i32Const, "i32.const", ⟨14, 23, 1, 15⟩⟩, ⟨.integer 10, "+1_0", ⟨24, 28, 1, 25⟩⟩,
    ⟨.rightParen, ")", ⟨28, 29, 1, 29⟩⟩, ⟨.rightParen, ")", ⟨29, 30, 1, 30⟩⟩,
    .endAt ⟨30, 30, 1, 31⟩]

def commentedTokens : List Token :=
  [⟨.leftParen, "(", ⟨0, 1, 1, 1⟩⟩, ⟨.keyword .moduleForm, "module", ⟨1, 7, 1, 2⟩⟩,
    ⟨.leftParen, "(", ⟨7, 8, 1, 8⟩⟩, ⟨.keyword .funcForm, "func", ⟨8, 12, 1, 9⟩⟩,
    ⟨.keyword .i32Const, "i32.const", ⟨17, 26, 1, 18⟩⟩, ⟨.integer 10, "10", ⟨27, 29, 2, 1⟩⟩,
    ⟨.rightParen, ")", ⟨29, 30, 2, 3⟩⟩, ⟨.rightParen, ")", ⟨30, 31, 2, 4⟩⟩,
    .endAt ⟨33, 33, 2, 7⟩]

/-- A source and another layout of it, and tokens that are rejected where the
end of the input is added behind them. -/
theorem ofTokens_depends_on_kinds_commented :
    (∃ module other, parse "(module (func i32.const +1_0))" = .ok module ∧
      parse "(module(func(;a;)i32.const\n10));;" = .ok other ∧
      module.spans = [⟨14, 23, 1, 15⟩] ∧ other.spans = [⟨17, 26, 1, 18⟩] ∧
      module.Alike (SamePosition spacedTokens commentedTokens) other ∧
      (Program.ofModule module 9).session 9 = (Program.ofModule other 9).session 9) ∧
    let tokens : List Token := [⟨.leftParen, "(", ⟨0, 1, 1, 1⟩⟩]
    let others : List Token := [⟨.leftParen, "", ⟨3, 4, 2, 1⟩⟩]
    let fault : ParseFault := .unexpected (.keyword .moduleForm) .endOfInput
    Agreement (SamePosition tokens others) (Module.Alike (SamePosition tokens others))
      (.error ⟨fault, ⟨1, 1, 1, 1⟩⟩) (.error ⟨fault, ⟨4, 4, 2, 1⟩⟩) := by
  constructor
  · have lexed : tokenise "(module (func i32.const +1_0))" = .ok spacedTokens := by
      decide +kernel
    have copyLexed : tokenise "(module(func(;a;)i32.const\n10));;" = .ok commentedTokens := by
      decide +kernel
    obtain ⟨kinds, isKinds, -, copies⟩ := ofTokens_depends_on_kinds.2 _ _ lexed
    have laidOut : LaidOut kinds "(module(func(;a;)i32.const\n10));;".toList :=
      tokenise_iff_laidOut.mp ⟨_, copyLexed, isKinds⟩
    obtain ⟨others, alsoLexed, agreement, sessions⟩ := copies _ laidOut
    cases copyLexed.symm.trans alsoLexed
    have accepted : ∃ module, parse "(module (func i32.const +1_0))" = .ok module ∧
        module.spans = [⟨14, 23, 1, 15⟩] := by
      rw [parse, lexed]
      exact ⟨_, rfl, rfl⟩
    have copyAccepted : ∃ other, parse "(module(func(;a;)i32.const\n10));;" = .ok other ∧
        other.spans = [⟨17, 26, 1, 18⟩] := by
      rw [parse, copyLexed]
      exact ⟨_, rfl, rfl⟩
    obtain ⟨module, read, spans⟩ := accepted
    obtain ⟨other, alsoRead, places⟩ := copyAccepted
    rw [read, alsoRead] at agreement
    cases agreement with
    | accepted same =>
        exact ⟨module, other, read, alsoRead, spans, places, same, sessions _ _ read alsoRead 9 9⟩
  · exact ofTokens_depends_on_kinds.1 _ _ rfl

end WatMachine.Module
