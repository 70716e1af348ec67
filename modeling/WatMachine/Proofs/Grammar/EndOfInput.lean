import Mathlib.Data.List.TakeWhile
import WatMachine.Proofs.Grammar.Extents
import WatMachine.Proofs.Grammar.ModuleReaders

/-!
# Nothing behind the end of input matters

Looking ahead for definitions may show tokens behind the first end of input.
Still, whether tokens are accepted as a module, and as which one, depends on
the tokens in front of it alone: a module that is written is a group, and no
group goes beyond an end of input.
-/

namespace WatMachine

open TokenStream Reading

theorem ModuleWritten.isGroup {readings : List Reading} {module : Module}
    (written : ModuleWritten readings module) : IsGroup (tokens readings) := by
  obtain ⟨opened, headed, named, -, fields, closed⟩ := written
  have inner := named.balanced.append (balanced_flatten fields.read.isGroup)
  have isGroup := inner.isGroup opened headed closed
  simpa using isGroup

namespace TokenStream

/-- A stream shows the tokens in front of the end of input, and then the end. -/
theorem exists_prepend_takeWhile (stream : TokenStream) :
    ∃ rest : TokenStream, stream = rest.prepend (stream.ahead.takeWhile (!·.isEnd)) ∧
      rest.current.isEnd = true := by
  obtain ⟨ahead, finish⟩ := stream
  refine ⟨⟨ahead.dropWhile (!·.isEnd), finish⟩, ?_, ?_⟩
  · simp [prepend, List.takeWhile_append_dropWhile]
  · cases behind : ahead.dropWhile (!·.isEnd) with
    | nil => rfl
    | cons last behind =>
        have stopped := List.head?_dropWhile_not (!·.isEnd) ahead
        simpa [behind, current, nth] using stopped

end TokenStream

namespace Module

/-- Tokens are accepted as a module exactly if it is written in front of the
first end of input. -/
theorem ofTokens_eq_ok_iff_written {all : List Token} {module : Module} :
    ofTokens all = .ok module ↔
      ∃ readings, tokens readings = all.takeWhile (!·.isEnd) ∧ ModuleWritten readings module := by
  rw [ofTokens, ofStream_eq_ok]
  constructor
  · rintro ⟨readings, rest, shape, written, ended⟩
    refine ⟨readings, ?_, written⟩
    rw [← takeWhile_ofTokens, shape, takeWhile_of_balanced written.isGroup.balanced ended]
  · rintro ⟨readings, front, written⟩
    obtain ⟨rest, shape, ended⟩ := exists_prepend_takeWhile (.ofTokens all)
    rw [takeWhile_ofTokens, ← front] at shape
    exact ⟨readings, rest, shape, written, ended⟩

theorem ofTokens_congr {all others : List Token} {module : Module}
    (same : all.takeWhile (!·.isEnd) = others.takeWhile (!·.isEnd)) :
    ofTokens all = .ok module ↔ ofTokens others = .ok module := by
  rw [ofTokens_eq_ok_iff_written, ofTokens_eq_ok_iff_written, same]

/-- Only the tokens up to the first end of input matter.  Whatever follows it
may be dropped, and where no token ends the input, one that does may be added:
the same module is accepted, or none. -/
theorem ofTokens_up_to_end {front : List Token} (inside : ∀ token ∈ front, token.isEnd = false)
    {last : Token} (ends : last.isEnd = true) (module : Module) :
    (∀ behind, ofTokens (front ++ last :: behind) = .ok module ↔
      ofTokens (front ++ [last]) = .ok module) ∧
    (ofTokens front = .ok module ↔ ofTokens (front ++ [last]) = .ok module) := by
  have all : ∀ token ∈ front, (!token.isEnd) = true := by
    intro token member
    rw [inside token member]
    rfl
  have shown (behind : List Token) : (front ++ last :: behind).takeWhile (!·.isEnd) = front := by
    rw [List.takeWhile_append_of_pos all]
    simp [ends]
  refine ⟨fun behind => ofTokens_congr ?_, ofTokens_congr ?_⟩
  · rw [shown, shown]
  · rw [shown, List.takeWhile_eq_self_iff.mpr all]

/-- The tokens of `( module ( func ) )`, and of `( module ( import ) )`, where
the first pass looks for a definition behind the end of input. -/
def closedBriefly (word : Keyword) : List Token :=
  [.leftParen, .keyword .moduleForm, .leftParen, .keyword word, .rightParen, .rightParen].map
    fun kind => ⟨kind, "", .origin⟩

theorem ofTokens_up_to_end_closedBriefly :
    let last : Token := .endAt ⟨9, 9, 3, 4⟩
    let behind : List Token := [⟨.keyword .funcForm, "func", .origin⟩,
      ⟨.identifier "f", "$f", .origin⟩, last, ⟨.rightParen, ")", .origin⟩]
    (∃ module, ofTokens (closedBriefly .funcForm) = .ok module ∧
      ofTokens (closedBriefly .funcForm ++ [last]) = .ok module ∧
      ofTokens (closedBriefly .funcForm ++ last :: behind) = .ok module) ∧
    ∀ module, ofTokens (closedBriefly .importForm) ≠ .ok module ∧
      ofTokens (closedBriefly .importForm ++ last :: behind) ≠ .ok module := by
  intro last behind
  constructor
  · obtain ⟨module, accepted⟩ : ∃ module, ofTokens (closedBriefly .funcForm) = .ok module :=
      ⟨_, rfl⟩
    obtain ⟨drops, adds⟩ := @ofTokens_up_to_end (closedBriefly .funcForm) (by decide) last rfl
      module
    exact ⟨module, accepted, adds.mp accepted, (drops behind).mpr (adds.mp accepted)⟩
  · intro module
    have rejected : ofTokens (closedBriefly .importForm) ≠ .ok module := nofun
    obtain ⟨drops, adds⟩ := @ofTokens_up_to_end (closedBriefly .importForm) (by decide) last rfl
      module
    exact ⟨rejected, fun accepted => rejected (adds.mpr ((drops behind).mp accepted))⟩

end Module

end WatMachine
