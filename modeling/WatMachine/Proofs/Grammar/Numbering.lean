import WatMachine.Proofs.Grammar.ModuleReaders

/-!
# Names and numbers

A reference by name may be written by number instead, wherever it stands: in
the body of a function, in the type of a function or an import, or as the
target of an export.  The module that is read does not change.

References never come first in the part of a field that could hold its name.
So the first pass, which looks for names in fixed places, does not see the
change.
-/

namespace WatMachine

open TokenStream Reading Reader WrittenDefinition

namespace Reading

/-- Whether the first token, if there is one, is no reference. -/
def LeadsPlainly (readings : List Reading) : Prop :=
  ∀ first ∈ readings.head?, first.index = none

theorem leadsPlainly_nil : LeadsPlainly [] :=
  nofun

theorem leadsPlainly_cons {first : Reading} {rest : List Reading} (plain : first.index = none) :
    LeadsPlainly (first :: rest) := by
  rintro _ ⟨⟩
  exact plain

theorem leadsPlainly_others (all : List Token) : LeadsPlainly (others all) := by
  cases all with
  | nil => exact leadsPlainly_nil
  | cons token all => exact leadsPlainly_cons rfl

theorem LeadsPlainly.append {front back : List Reading} (first : LeadsPlainly front)
    (rest : LeadsPlainly back) : LeadsPlainly (front ++ back) := by
  cases front with
  | nil => exact rest
  | cons reading front => exact leadsPlainly_cons (first reading rfl)

theorem LeadsPlainly.typeReference {names : List (Option String)} {readings : List Reading}
    {index : Nat} (reference : TypeReference names readings index) : LeadsPlainly readings := by
  obtain ⟨-, -, -, -⟩ := reference
  exact leadsPlainly_cons rfl

theorem LeadsPlainly.phraseRead {phrase : Phrase} {scope : Scope} {readings : List Reading}
    {code : List Instruction} (read : PhraseRead phrase scope readings code) :
    LeadsPlainly readings := by
  induction read with
  | done => exact leadsPlainly_nil
  | noOperand => exact leadsPlainly_nil
  | next _ _ first rest => exact first.append rest
  | operand _ _ first rest => exact first.append rest
  | plain => exact leadsPlainly_cons rfl
  | block opening _ closing inner =>
      exact ((leadsPlainly_others _).append inner).append (leadsPlainly_others _)
  | folded _ inner => exact inner
  | foldedBlock => exact leadsPlainly_cons rfl
  | foldedPlain => exact leadsPlainly_cons rfl

theorem LeadsPlainly.typeUse {before after : Declarations} {readings : List Reading}
    {used : Nat × Frame} (isUse : TypeUse before readings used after) : LeadsPlainly readings := by
  cases isUse with
  | declared reference => exact (typeReference reference).append (leadsPlainly_others _)
  | inline => exact leadsPlainly_others _

theorem LeadsPlainly.functionTail {environment : Environment} {index typeIndex : Nat}
    {frame : Frame} {source : Option (String × String)} {readings : List Reading} {field : Field}
    (tail : FunctionTail environment index typeIndex frame source readings field) :
    LeadsPlainly readings := by
  cases tail with
  | imported => exact leadsPlainly_nil
  | defined _ read => exact (leadsPlainly_others _).append (phraseRead read)

theorem LeadsPlainly.importTarget {before after : Declarations} {index : Nat}
    {kind : ExternalKind} {readings : List Reading} {target : ImportTarget}
    (written : ImportTargetWritten before index kind readings target after) :
    LeadsPlainly readings := by
  cases written with
  | function _ typed => exact (leadsPlainly_others _).append (typeUse typed)
  | memory => exact leadsPlainly_others _
  | table => exact leadsPlainly_others _
  | global => exact leadsPlainly_others _

/-- A reading that starts with no reference starts with the same token however
its references are written. -/
theorem Renumbers.cons_left {readings more : List Reading} {token : Token} {all : List Token}
    (renumbers : Renumbers readings more) (leads : LeadsPlainly readings)
    (shape : tokens readings = token :: all) : ∃ rest, tokens more = token :: rest := by
  cases renumbers with
  | nil => cases shape
  | @cons first second _ rest same others =>
      cases shape
      rcases same with rfl | ⟨index, marked, -⟩
      · exact ⟨tokens rest, rfl⟩
      · rw [leads first rfl] at marked
        cases marked

end Reading

section Fields

variable {before after : Declarations} {readings more : List Reading}

theorem TypeUse.renumber {used : Nat × Frame} (isUse : TypeUse before readings used after)
    (renumbers : Renumbers readings more) : TypeUse before more used after := by
  cases isUse with
  | declared reference found bound given =>
      obtain ⟨type, rest, rfl, begun, ended⟩ := renumbers.append_left
      rw [ended.eq_of_others]
      exact .declared (reference.renumber begun) found bound given
  | inline bound given =>
      rw [renumbers.eq_of_others]
      exact .inline bound given

theorem FunctionTail.renumber {environment : Environment} {index typeIndex : Nat} {frame : Frame}
    {source : Option (String × String)} {field : Field}
    (tail : FunctionTail environment index typeIndex frame source readings field)
    (renumbers : Renumbers readings more) :
    FunctionTail environment index typeIndex frame source more field := by
  cases tail with
  | imported =>
      cases renumbers
      exact .imported
  | defined bound read =>
      obtain ⟨groups, body, rfl, begun, ended⟩ := renumbers.append_left
      rw [begun.eq_of_others]
      exact .defined bound (read.renumber ended)

theorem FunctionWritten.renumber {label : Option String} {part : List Field}
    (written : FunctionWritten before readings label part after)
    (renumbers : Renumbers readings more) : FunctionWritten before more label part after := by
  obtain ⟨opened, headed, named, exported, importing, typed, followed, closed⟩ := written
  obtain ⟨_, last, rfl, renumbers, ended⟩ := renumbers.append_left
  obtain ⟨_, tail, rfl, renumbers, rest⟩ := renumbers.append_left
  obtain ⟨head, type, rfl, begun, middle⟩ := renumbers.append_left
  rw [begun.eq_of_others, ended.eq_of_others]
  exact .mk opened headed named exported importing (typed.renumber middle) (followed.renumber rest)
    closed

theorem ImportTargetWritten.renumber {index : Nat} {kind : ExternalKind} {target : ImportTarget}
    (written : ImportTargetWritten before index kind readings target after)
    (renumbers : Renumbers readings more) :
    ImportTargetWritten before index kind more target after := by
  cases written with
  | function named typed =>
      obtain ⟨name, type, rfl, begun, ended⟩ := renumbers.append_left
      rw [begun.eq_of_others]
      exact .function named (typed.renumber ended)
  | memory named limited =>
      rw [renumbers.eq_of_others]
      exact .memory named limited
  | table balanced =>
      rw [renumbers.eq_of_others]
      exact .table balanced
  | global balanced =>
      rw [renumbers.eq_of_others]
      exact .global balanced

theorem FieldWritten.renumber {part : List Field}
    (written : FieldWritten before readings part after)
    (renumbers : Renumbers readings more) : FieldWritten before more part after := by
  cases written with
  | function written => exact .function (written.renumber renumbers)
  | exported opened headed named opens described isKind refers closes closed =>
      obtain ⟨_, last, rfl, renumbers, ended⟩ := renumbers.append_left
      obtain ⟨front, _, rfl, begun, renumbers⟩ := renumbers.append_left
      obtain ⟨other, rfl, refers⟩ := renumbers.refers refers
      rw [begun.eq_of_others, ended.eq_of_others]
      exact .exported opened headed named opens described isKind refers closes closed
  | imported opened headed sourced named opens described isKind targeted closes closed =>
      obtain ⟨_, last, rfl, renumbers, ended⟩ := renumbers.append_left
      obtain ⟨front, inner, rfl, begun, renumbers⟩ := renumbers.append_left
      rw [begun.eq_of_others, ended.eq_of_others]
      exact .imported opened headed sourced named opens described isKind
        (targeted.renumber renumbers) closes closed
  | type isGroup headed pending =>
      rw [renumbers.eq_of_others]
      exact .type isGroup headed pending
  | skipped isGroup other =>
      rw [renumbers.eq_of_others]
      exact .skipped isGroup other

/-- Groups that start with the same two tokens and have the same third one
write the same definition, if they are no imports. -/
theorem ofGroup?_eq_of_third {left head third : Token} {word : Keyword} {rest others : List Token}
    (opened : left.kind = .leftParen) (headed : head.kind = .keyword word)
    (other : word ≠ .importForm) :
    ofGroup? (left :: head :: third :: others) = ofGroup? (left :: head :: third :: rest) := by
  rw [ofGroup?_of_not_import opened headed other, ofGroup?_of_not_import opened headed other]

theorem FunctionWritten.ofGroup?_eq {label : Option String} {part : List Field}
    (written : FunctionWritten before readings label part after)
    (renumbers : Renumbers readings more) :
    ofGroup? (tokens more) = ofGroup? (tokens readings) ∧
      headWord? (tokens more) = some .funcForm ∧ headWord? (tokens readings) = some .funcForm := by
  obtain @⟨left, head, right, name, exports, imported, _, _, _, type, tail, _, _, _, _, opened,
    headed, -, -, -, typed, followed, -⟩ := written
  let inside := others (name ++ exports ++ imported) ++ type ++ tail ++ others [right]
  have leads : LeadsPlainly inside :=
    (((leadsPlainly_others _).append (.typeUse typed)).append (.functionTail followed)).append
      (leadsPlainly_others _)
  have whole : others (left :: head :: name ++ exports ++ imported) ++ type ++ tail ++
      others [right] = others [left, head] ++ inside := by simp [inside, others]
  rw [whole] at renumbers ⊢
  obtain ⟨front, rest, rfl, begun, renumbers⟩ := renumbers.append_left
  rw [begun.eq_of_others]
  obtain ⟨third, behind, shape⟩ : ∃ third behind, tokens inside = third :: behind :=
    List.exists_cons_of_ne_nil (by simp [inside])
  obtain ⟨others, alike⟩ := renumbers.cons_left leads shape
  have isHead : head.kind.keyword? = some .funcForm := by
    rw [headed]
    rfl
  rw [tokens_append, tokens_append, tokens_others, shape, alike]
  exact ⟨ofGroup?_eq_of_third opened headed (by decide), isHead, isHead⟩

theorem ImportTargetWritten.ofGroup?_eq {index : Nat} {kind : ExternalKind}
    {target : ImportTarget} {left head first second opening word : Token}
    {source name : String} {keyword : Keyword} (closing right : Token)
    (written : ImportTargetWritten before index kind readings target after)
    (renumbers : Renumbers readings more) (opened : left.kind = .leftParen)
    (headed : head.kind = .keyword .importForm) (sourced : first.kind = .string source)
    (named : second.kind = .string name) (opens : opening.kind = .leftParen)
    (described : word.kind = .keyword keyword)
    (isKind : ExternalKind.ofKeyword? keyword = some kind) :
    ofGroup? ([left, head, first, second, opening, word] ++
        tokens (more ++ others [closing, right])) =
      ofGroup? ([left, head, first, second, opening, word] ++
        tokens (readings ++ others [closing, right])) := by
  have leads : LeadsPlainly (readings ++ others [closing, right]) :=
    (LeadsPlainly.importTarget written).append (leadsPlainly_others _)
  have renumbered : Renumbers (readings ++ others [closing, right])
      (more ++ others [closing, right]) :=
    List.rel_append renumbers (Renumbers.refl _)
  obtain ⟨third, behind, shape⟩ : ∃ third behind,
      tokens (readings ++ others [closing, right]) = third :: behind :=
    List.exists_cons_of_ne_nil (by simp)
  obtain ⟨rest, alike⟩ := renumbered.cons_left leads shape
  rw [shape, alike]
  exact (ofGroup?_of_import opened headed sourced named opens described isKind).trans
    (ofGroup?_of_import opened headed sourced named opens described isKind).symm

/-- The first pass sees no difference between a reference by name and one by
number. -/
theorem FieldWritten.declared_renumber {part : List Field} {earlier later : Declarations}
    (written : FieldWritten before readings part after) (renumbers : Renumbers readings more)
    (declared : FieldDeclared earlier (tokens readings) later) :
    FieldDeclared earlier (tokens more) later := by
  cases written with
  | function written =>
      obtain ⟨same, headed, alsoHeaded⟩ := written.ofGroup?_eq renumbers
      refine declared.congr ?_ (headed.trans alsoHeaded.symm) same
      rw [alsoHeaded]
      decide
  | @exported left head text opening word token closing right _ _ _ _ opened headed =>
      obtain ⟨_, last, rfl, renumbers, ended⟩ := renumbers.append_left
      obtain ⟨front, middle, rfl, begun, renumbers⟩ := renumbers.append_left
      rw [begun.eq_of_others, ended.eq_of_others]
      have isHead : head.kind.keyword? ≠ some .typeForm := by
        rw [headed]
        decide
      exact declared.congr isHead rfl (ofGroup?_eq_of_third opened headed (by decide))
  | @imported left head first second opening word closing right _ _ _ _ inner _ _ opened headed
      sourced named opens described isKind targeted =>
      obtain ⟨_, last, rfl, renumbers, ended⟩ := renumbers.append_left
      obtain ⟨front, rest, rfl, begun, renumbers⟩ := renumbers.append_left
      rw [begun.eq_of_others, ended.eq_of_others]
      have isHead : head.kind.keyword? ≠ some .typeForm := by
        rw [headed]
        decide
      have same := targeted.ofGroup?_eq closing right renumbers opened headed sourced named opens
        described isKind
      rw [List.append_assoc, tokens_append, tokens_others] at declared ⊢
      exact declared.congr isHead rfl same
  | type isGroup headed pending => rwa [renumbers.eq_of_others]
  | skipped isGroup other => rwa [renumbers.eq_of_others]

end Fields

section Modules

variable {more : List Reading}

theorem FieldsWritten.renumber {before after : Declarations} {groups : List (List Reading)}
    {parts : List (List Field)} (written : FieldsWritten before groups parts after)
    (renumbers : Renumbers groups.flatten more) :
    ∃ others, more = others.flatten ∧ FieldsWritten before others parts after ∧
      ∀ earlier later, FieldsDeclared earlier (groups.map tokens) later →
        FieldsDeclared earlier (others.map tokens) later := by
  induction written generalizing more with
  | nil =>
      cases renumbers
      exact ⟨[], rfl, .nil, fun _ _ declared => declared⟩
  | cons first _ ih =>
      rw [List.flatten_cons] at renumbers
      obtain ⟨group, rest, rfl, begun, followed⟩ := renumbers.append_left
      obtain ⟨others, rfl, written, declares⟩ := ih followed
      refine ⟨group :: others, rfl, .cons (first.renumber begun) written, ?_⟩
      rintro earlier later (_ | ⟨declared, rest⟩)
      exact .cons (first.declared_renumber begun declared) (declares _ _ rest)

/-- A module is the same with some of its references written by number. -/
theorem ModuleWritten.renumber {readings : List Reading} {module : Module}
    (written : ModuleWritten readings module) (renumbers : Renumbers readings more) :
    ModuleWritten more module := by
  obtain ⟨opened, headed, named, declared, written, closed⟩ := written
  obtain ⟨_, last, rfl, renumbers, ended⟩ := renumbers.append_left
  obtain ⟨front, rest, rfl, begun, renumbers⟩ := renumbers.append_left
  obtain ⟨groups, rfl, written, declares⟩ := written.renumber renumbers
  rw [begun.eq_of_others, ended.eq_of_others]
  exact .mk opened headed named (declares _ _ declared) written closed

end Modules

end WatMachine
