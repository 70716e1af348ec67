import WatMachine.Proofs.Grammar.Flattening
import WatMachine.Proofs.Grammar.FunctionTexts
import WatMachine.Proofs.Grammar.RelocatedModules

/-!
# Folded and flat modules

Flattening instructions of a function body, one or many of them, changes
nothing in the module that is read but the places of its instructions.  So
folded and flat modules are executed alike.
-/

namespace WatMachine

open TokenStream

namespace Flattens

variable {old new : List Token}

theorem ne_nil_of_instruction {tokens : List Token} (forms : Forms .instruction tokens) :
    tokens ≠ [] := by
  rintro rfl
  obtain ⟨_, _, formed⟩ := forms
  obtain ⟨_, _, shape, -⟩ := formed.first_token
  cases shape

/-- A sequence with something to be flattened is not empty, and neither is the
flat one. -/
theorem ne_nil (flattens : Flattens .sequence old new) : old ≠ [] ∧ new ≠ [] := by
  cases flattens with
  | block _ opening =>
      obtain ⟨word, rest, rfl, -⟩ := opening.word_first
      exact ⟨List.cons_ne_nil _ _, List.cons_ne_nil _ _⟩
  | plain _ isPlain =>
      have filled := ne_nil_of_instruction (.plain isPlain)
      exact ⟨List.cons_ne_nil _ _, by simp [filled]⟩
  | first flattens =>
      have filled := ne_nil_of_instruction flattens.forms.1
      have alsoFilled := ne_nil_of_instruction flattens.forms.2
      exact ⟨by simp [filled], by simp [alsoFilled]⟩
  | later begun =>
      have filled := ne_nil_of_instruction begun
      exact ⟨by simp [filled], by simp [filled]⟩

/-- A module is read the same after one step of flattening. -/
theorem ofStream_iff (flattens : Flattens .sequence old new) {before : List Token} {right : Token}
    (isBefore : BeforeBody before) (closed : right.kind = .rightParen) (rest : TokenStream)
    (module : Module) :
    Module.ofStream (rest.prepend (before ++ old ++ [right])) = .ok module ↔
      Module.ofStream (rest.prepend (before ++ new ++ [right])) = .ok module := by
  obtain ⟨forms, alsoForms⟩ := flattens.forms
  obtain ⟨filled, alsoFilled⟩ := flattens.ne_nil
  constructor
  · exact isBefore.exchange forms alsoForms filled closed fun scope code =>
      (flattens.derives_iff scope code).mp
  · exact isBefore.exchange alsoForms forms alsoFilled closed fun scope code =>
      (flattens.derives_iff scope code).mpr

end Flattens

/-- A stream that shows a parenthesis does not depend on the tokens in front
of it. -/
theorem TokenStream.exists_ofTokens_append {right : Token} (closed : right.kind = .rightParen)
    (back : List Token) :
    ∃ rest : TokenStream, ∀ front, ofTokens (front ++ right :: back) =
      rest.prepend (front ++ [right]) := by
  have inside : right.isEnd = false := by
    rw [Token.isEnd, closed]
    rfl
  rcases List.eq_nil_or_concat back with rfl | ⟨middle, last, rfl⟩
  · refine ⟨⟨[], right.span.behind⟩, fun front => ?_⟩
    rw [ofTokens_concat, inside]
    simp [prepend]
  · refine ⟨if last.isEnd then ⟨middle, last.span⟩ else ⟨middle ++ [last], last.span.behind⟩,
      fun front => ?_⟩
    have whole : front ++ right :: (middle.concat last) = (front ++ right :: middle) ++ [last] := by
      simp
    rw [whole, ofTokens_concat]
    cases last.isEnd <;> simp [prepend]

namespace Module

/-- The tokens of a module with some instructions of a body written flat are
read exactly if those of the folded module are, and as the same module. -/
theorem ofTokens_flattens_iff {before old new back : List Token} {right : Token} {module : Module}
    (isBefore : BeforeBody before) (closed : right.kind = .rightParen)
    (flattens : Relation.ReflTransGen (Flattens .sequence) old new) :
    ofTokens (before ++ old ++ right :: back) = .ok module ↔
      ofTokens (before ++ new ++ right :: back) = .ok module := by
  obtain ⟨rest, shown⟩ := exists_ofTokens_append closed back
  rw [ofTokens, ofTokens, shown, shown]
  induction flattens with
  | refl => exact Iff.rfl
  | tail _ flattens ih => exact ih.trans (flattens.ofStream_iff isBefore closed rest module)

/-- Folded and flat forms mean the same.  Let tokens of a module contain the
body of a function, and others the same body with some of its folded
instructions written flat, wherever all these tokens were found.  Then both or
neither are read, the modules differ in places only, and every session of
calls has the same outcomes on both. -/
theorem ofTokens_flattened {before old new back folded flat : List Token} {right : Token}
    (isBefore : BeforeBody before) (closed : right.kind = .rightParen)
    (flattens : Relation.ReflTransGen (Flattens .sequence) old new)
    (isFolded : folded.map Token.kind = (before ++ old ++ right :: back).map Token.kind)
    (isFlat : flat.map Token.kind = (before ++ new ++ right :: back).map Token.kind) :
    ((∃ module, ofTokens folded = .ok module) ↔ ∃ module, ofTokens flat = .ok module) ∧
    ∀ module other, ofTokens folded = .ok module → ofTokens flat = .ok other →
      module.unplaced = other.unplaced ∧
      ∀ (limit fuel : Nat) (requests : List Request) (machine : Machine),
        (Program.ofModule module limit).session fuel requests machine =
          (Program.ofModule other limit).session fuel requests machine := by
  have steps {module : Module} := @ofTokens_flattens_iff before old new back right module
    isBefore closed flattens
  have forward {module : Module} (accepted : ofTokens folded = .ok module) :
      ∃ other, ofTokens flat = .ok other ∧ module.unplaced = other.unplaced := by
    obtain ⟨middle, read, same⟩ := ofTokens_alike isFolded accepted
    obtain ⟨other, alsoRead, alsoSame⟩ := ofTokens_alike isFlat.symm (steps.mp read)
    exact ⟨other, alsoRead, same.trans alsoSame⟩
  have backward {other : Module} (accepted : ofTokens flat = .ok other) :
      ∃ module, ofTokens folded = .ok module := by
    obtain ⟨middle, read, -⟩ := ofTokens_alike isFlat accepted
    obtain ⟨module, alsoRead, -⟩ := ofTokens_alike isFolded.symm (steps.mpr read)
    exact ⟨module, alsoRead⟩
  refine ⟨⟨fun ⟨module, accepted⟩ => ?_, fun ⟨other, accepted⟩ => backward accepted⟩, ?_⟩
  · obtain ⟨other, read, -⟩ := forward accepted
    exact ⟨other, read⟩
  · intro module other accepted alsoAccepted
    obtain ⟨copy, read, same⟩ := forward accepted
    cases alsoAccepted.symm.trans read
    refine ⟨same, fun limit fuel requests machine => ?_⟩
    rw [Program.session_congr same]

/-- Tokens of given kinds, one column after the other. -/
def inColumns (kinds : List TokenKind) : List Token :=
  kinds.zipIdx.map fun (kind, column) => ⟨kind, "", ⟨column, column + 1, 1, column + 1⟩⟩

/-- The start of `( module ( func ( export "sum" ) ( result i32 ) … ) )`. -/
def sumStart : List TokenKind :=
  [.leftParen, .keyword .moduleForm, .leftParen, .keyword .funcForm, .leftParen,
    .keyword .exportForm, .string "sum", .rightParen, .leftParen, .keyword .resultForm,
    .keyword .i32Type, .rightParen]

def foldedSum : List TokenKind :=
  [.leftParen, .keyword .i32Add, .leftParen, .keyword .i32Const, .integer 1, .rightParen,
    .leftParen, .keyword .i32Const, .integer 2, .rightParen, .rightParen]

def flatSum : List TokenKind :=
  [.leftParen, .keyword .i32Const, .integer 1, .rightParen, .leftParen, .keyword .i32Const,
    .integer 2, .rightParen, .keyword .i32Add]

/-- Tokens of given kinds, found nowhere. -/
def ofKinds (kinds : List TokenKind) : List Token :=
  kinds.map fun kind => ⟨kind, "", .origin⟩

theorem beforeBody_sumStart : BeforeBody (ofKinds sumStart) := by
  let token (kind : TokenKind) : Token := ⟨kind, "", .origin⟩
  have group (word : Keyword) (inner : Token) (isAtom : inner.kind.isAtom = true) :=
    @Group.mk Unit word (fun inner _ => Balanced inner) (token .leftParen) (token (.keyword word))
      (token .rightParen) [inner] () rfl rfl (.atom isAtom) rfl
  have exported := group .exportForm (token (.string "sum")) rfl
  have results := group .resultForm (token (.keyword .i32Type)) rfl
  have header := IsHeader.cons exported (by decide) (.cons results (by decide) .nil)
  exact @BeforeBody.mk (token .leftParen) (token (.keyword .moduleForm)) (token .leftParen)
    (token (.keyword .funcForm)) [] [] _ none none [] rfl rfl .anonymous nofun rfl rfl .anonymous
    header

theorem flattens_sum : Flattens .sequence (ofKinds foldedSum) (ofKinds flatSum) := by
  let token (kind : TokenKind) : Token := ⟨kind, "", .origin⟩
  have constant (number : Int) (least : -0x80000000 ≤ number) (most : number < 0x100000000) :
      Plain .broadest [token (.keyword .i32Const), token (.integer number)] _ :=
    .mk rfl (.word rfl least most)
  have operand (number : Int) (least : -0x80000000 ≤ number) (most : number < 0x100000000) :=
    @Derives.foldedPlain _ (token .leftParen) (token .rightParen) _ _ _ _ rfl
      (constant number least most) .noOperand rfl
  have operands := (operand 1 (by decide) (by decide)).operand
    ((operand 2 (by decide) (by decide)).operand .noOperand)
  have sum : Plain .broadest [token (.keyword .i32Add)] (.plain .i32Add none .origin) :=
    .mk rfl (.nothing (by decide))
  exact @Flattens.plain (token .leftParen) (token .rightParen) _ _ [] rfl sum.forms operands.forms
    rfl .nil

def summing : Module where
  id := none
  fields :=
    [.function ⟨0, 0, .ofParams [] [.i32],
      [.plain .i32Const (some (.literal 1)) ⟨15, 16, 1, 16⟩,
        .plain .i32Const (some (.literal 2)) ⟨19, 20, 1, 20⟩,
        .plain .i32Add none ⟨13, 14, 1, 14⟩]⟩,
      .exported ⟨"sum", .function, 0⟩]
  environment := ⟨⟨[none], [none], [], [], [], [], []⟩⟩

/-- A sum in folded form and behind its operands: both are read, and both give
three. -/
theorem ofTokens_flattened_sum :
    ofTokens (inColumns (sumStart ++ foldedSum ++ [.rightParen, .rightParen])) = .ok summing ∧
    ∃ other, ofTokens (inColumns (sumStart ++ flatSum ++ [.rightParen, .rightParen])) =
        .ok other ∧
      summing.unplaced = other.unplaced ∧
      (Program.ofModule summing 1).session 8 [.exported "sum" []] .idle = some [.ok [3]] ∧
      (Program.ofModule other 1).session 8 [.exported "sum" []] .idle = some [.ok [3]] := by
  obtain ⟨accepted, agree⟩ := @ofTokens_flattened (ofKinds sumStart) (ofKinds foldedSum)
    (ofKinds flatSum) (ofKinds [.rightParen])
    (inColumns (sumStart ++ foldedSum ++ [.rightParen, .rightParen]))
    (inColumns (sumStart ++ flatSum ++ [.rightParen, .rightParen])) ⟨.rightParen, "", .origin⟩
    beforeBody_sumStart rfl (.single flattens_sum) rfl rfl
  have read : ofTokens (inColumns (sumStart ++ foldedSum ++ [.rightParen, .rightParen])) =
      .ok summing := rfl
  have three : (Program.ofModule summing 1).session 8 [.exported "sum" []] .idle =
      some [.ok [3]] := rfl
  obtain ⟨other, alsoRead⟩ := accepted.mp ⟨summing, read⟩
  obtain ⟨same, outcomes⟩ := agree summing other read alsoRead
  exact ⟨read, other, alsoRead, same, three, (outcomes _ _ _ _).symm.trans three⟩

end Module

end WatMachine
