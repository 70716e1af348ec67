import WatMachine.Grammar.Module
import WatMachine.Proofs.Grammar.Fields

/-!
# The two passes over the fields of a module

Both passes go from group to group.  The first one declares the definition
that it sees at fixed places of each group, the second one claims an index for
the definition that it reads, and since a group can end in one place only,
both see the same groups.
-/

namespace WatMachine

open TokenStream WrittenDefinition Reader

/-- What reading some fields one after the other does. -/
inductive FieldsRead : Declarations → List (List Token) → List (List Field) → Declarations → Prop
    where
  | nil {declarations : Declarations} : FieldsRead declarations [] [] declarations
  | cons {before middle after : Declarations} {group : List Token} {part : List Field}
      {groups : List (List Token)} {parts : List (List Field)}
      (first : FieldRead before group part middle)
      (others : FieldsRead middle groups parts after) :
      FieldsRead before (group :: groups) (part :: parts) after

namespace FieldsRead

variable {before after : Declarations} {groups : List (List Token)} {parts : List (List Field)}

theorem length_parts (read : FieldsRead before groups parts after) :
    parts.length = groups.length := by
  induction read with
  | nil => rfl
  | cons _ _ ih => simp [ih]

theorem isGroup (read : FieldsRead before groups parts after) :
    ∀ group ∈ groups, IsGroup group := by
  induction read with
  | nil => simp
  | cons first _ ih => exact List.forall_mem_cons.mpr ⟨first.isGroup, ih⟩

theorem isShown (read : FieldsRead before groups parts after) :
    ∀ group ∈ groups, IsShown group := by
  induction read with
  | nil => simp
  | cons first _ ih => exact List.forall_mem_cons.mpr ⟨first.isShown, ih⟩

/-- The second pass declares nothing but types. -/
theorem names (read : FieldsRead before groups parts after) (space : IndexSpace)
    (other : space ≠ .type) :
    after.environment.names.get space = before.environment.names.get space := by
  induction read with
  | nil => rfl
  | cons first _ ih => exact ih.trans (first.names space other)

/-- The second pass claims an index for every definition. -/
theorem claimed (read : FieldsRead before groups parts after) (space : IndexSpace) :
    after.claimed.get space = before.claimed.get space + (ofSpace space groups).length := by
  induction read with
  | nil => rfl
  | @cons _ _ _ group _ groups _ first _ ih =>
      rw [ih, first.claimed, ofSpace_cons space group groups, List.length_append, Nat.add_assoc]

/-- Every field is read when the indices of the definitions before it have been
claimed. -/
theorem at_position (read : FieldsRead before groups parts after) {position : Nat}
    {group : List Token} {part : List Field} (isGroup : groups[position]? = some group)
    (isPart : parts[position]? = some part) :
    ∃ here next, FieldsRead before (groups.take position) (parts.take position) here ∧
      FieldRead here group part next := by
  induction read generalizing position with
  | nil => simp at isGroup
  | cons first others ih =>
      cases position with
      | zero =>
          simp only [List.getElem?_cons_zero, Option.some.injEq] at isGroup isPart
          subst isGroup isPart
          exact ⟨_, _, .nil, first⟩
      | succ position =>
          obtain ⟨here, next, earlier, this⟩ := ih isGroup isPart
          exact ⟨here, next, .cons first earlier, this⟩

end FieldsRead

namespace Builder

variable {declarations final : Declarations} {stream rest : TokenStream}

theorem fields_read {fuel : Nat} {all : List Field}
    (run : fields fuel declarations stream = .ok ((all, final), rest)) :
    ∃ groups parts, stream = rest.prepend groups.flatten ∧
      FieldsRead declarations groups parts final ∧ all = parts.flatten ∧
      rest.atLeftParen = false := by
  induction fuel generalizing declarations stream all with
  | zero => cases run
  | succ fuel ih =>
      obtain ⟨_, _, _, gets, continued⟩ := bind_eq_ok.mp run
      cases gets
      cases shown : stream.atLeftParen with
      | false =>
          simp only [shown] at continued
          cases continued
          exact ⟨[], [], rfl, .nil, rfl, shown⟩
      | true =>
          simp only [shown, if_true] at continued
          obtain ⟨part, _, _, taken, following⟩ := bind_eq_ok.mp continued
          obtain ⟨others, _, _, repeated, ended⟩ := bind_eq_ok.mp following
          cases ended
          obtain ⟨group, rfl, first⟩ := field_read taken
          obtain ⟨groups, parts, rfl, more, rfl, stopped⟩ := ih repeated
          exact ⟨group :: groups, part :: parts, by simp [prepend], .cons first more, rfl, stopped⟩

/-- Whether some definitions have been declared in between, one after the
other, and none has been claimed.  Types do not count. -/
structure Declares (before : Declarations) (definitions : List (IndexSpace × Option String))
    (after : Declarations) : Prop where
  names : ∀ space, space ≠ .type → after.environment.names.get space =
    before.environment.names.get space ++ (definitions.filter (·.1 == space)).map (·.2)
  claimed : after.claimed = before.claimed

theorem Declares.of_kept {before after : Declarations} (kept : before.Kept after) :
    Declares before [] after := by
  refine ⟨fun space other => ?_, kept.claimed⟩
  simpa using kept.names space other

theorem Declares.trans {before middle after : Declarations}
    {definitions others : List (IndexSpace × Option String)}
    (first : Declares before definitions middle) (second : Declares middle others after) :
    Declares before (definitions ++ others) after := by
  refine ⟨fun space other => ?_, second.claimed.trans first.claimed⟩
  rw [second.names space other, first.names space other]
  simp

theorem declare_declares (declarations : Declarations) (space : IndexSpace)
    (name : Option String) :
    Declares declarations [(space, name)] (declarations.declare space name) := by
  refine ⟨fun other _ => ?_, rfl⟩
  rw [Declarations.declare, Environment.names_declare]
  by_cases same : other = space
  · simp [same]
  · simp [same, Ne.symm same]

theorem typeDefinition_keeps {definition : TypeDefinition}
    (run : typeDefinition declarations stream = .ok ((definition, final), rest)) :
    ∃ group, stream = rest.prepend group ∧ IsGroup group ∧ declarations.Kept final := by
  simp only [typeDefinition, bind_eq_ok, lift_eq_ok] at run
  obtain ⟨⟨⟩, _, _, ⟨opened, rfl⟩, name, _, _, ⟨named, rfl⟩, ⟨⟩, _, _, ⟨opens, rfl⟩, params, _, _,
    ⟨bound, rfl⟩, results, _, _, ⟨gives, rfl⟩, ⟨⟩, _, _, ⟨closes, rfl⟩, ⟨⟩, _, _, ⟨closed, rfl⟩,
    index, _, _, declares, ended⟩ := run
  cases declares
  cases ended
  obtain ⟨left, head, rfl, isLeft, isHead⟩ := openGroup_eq_ok.mp opened
  obtain ⟨front, rfl, isFront⟩ := identifier?_isBalanced _ _ _ named
  obtain ⟨opening, word, rfl, isOpening, isWord⟩ := openGroup_eq_ok.mp opens
  obtain ⟨groups, rfl, areGroups⟩ := bindings_isBalanced _ _ _ _ bound
  obtain ⟨others, rfl, alsoGroups⟩ := results_isBalanced _ _ _ gives
  obtain ⟨closing, rfl, isClosing⟩ := rightParen_eq_ok.mp closes
  obtain ⟨right, rfl, isRight⟩ := rightParen_eq_ok.mp closed
  have function := (areGroups.append alsoGroups).isGroup isOpening isWord isClosing
  have whole := (isFront.append function.balanced).isGroup isLeft isHead isRight
  exact ⟨_, by simp [prepend], whole, Declarations.kept_declareType _ _ _⟩

/-- The first pass declares what it sees of a field, and goes to the end of its
group. -/
theorem declareField_declares
    (run : declareField declarations stream = .ok (((), final), rest)) :
    ∃ group, stream = rest.prepend group ∧ IsGroup group ∧
      Declares declarations stream.definition?.toList final := by
  obtain ⟨_, _, _, gets, continued⟩ := bind_eq_ok.mp run
  cases gets
  cases isType : stream.atGroup .typeForm with
  | true =>
      simp only [isType, if_true, bind_eq_ok] at continued
      obtain ⟨definition, _, _, taken, ended⟩ := continued
      cases ended
      obtain ⟨group, shape, isGroup, kept⟩ := typeDefinition_keeps taken
      -- Types have been read in full, and looking ahead shows no other definition.
      have nothing : stream.definition? = none := by
        have headed : (stream.nth 1).kind = .keyword .typeForm := by
          simpa using (Bool.and_eq_true_iff.mp isType).2
        simp [definition?, headed, TokenKind.keyword?, IndexSpace.ofKeyword?]
      rw [nothing]
      exact ⟨group, shape, isGroup, .of_kept ⟨kept.names, kept.claimed⟩⟩
  | false =>
      cases defines : stream.definition? with
      | none =>
          simp only [isType, Bool.false_eq_true, if_false, defines, lift_eq_ok] at continued
          obtain ⟨skipped, rfl⟩ := continued
          obtain ⟨group, shape, isGroup⟩ := skipGroup_isGroup skipped
          exact ⟨group, shape, isGroup, .of_kept (.refl _)⟩
      | some definition =>
          simp only [isType, Bool.false_eq_true, if_false, defines, bind_eq_ok, lift_eq_ok]
            at continued
          obtain ⟨⟨⟩, _, _, declares, skipped, rfl⟩ := continued
          cases declares
          obtain ⟨group, shape, isGroup⟩ := skipGroup_isGroup skipped
          exact ⟨group, shape, isGroup, declare_declares _ _ _⟩

/-- The first pass declares what its groups write, if it sees what they
write. -/
theorem declareFields_declares {fuel : Nat}
    (run : declareFields fuel declarations stream = .ok (((), final), rest)) :
    ∃ groups : List (List Token), stream = rest.prepend groups.flatten ∧
      (∀ group ∈ groups, IsGroup group) ∧ rest.atLeftParen = false ∧
      ((∀ group ∈ groups, IsShown group) → Declares declarations
        ((groups.filterMap ofGroup?).map fun written => (written.space, written.name)) final) := by
  induction fuel generalizing declarations stream with
  | zero => cases run
  | succ fuel ih =>
      obtain ⟨_, _, _, gets, continued⟩ := bind_eq_ok.mp run
      cases gets
      cases shown : stream.atLeftParen with
      | false =>
          simp only [shown] at continued
          cases continued
          exact ⟨[], rfl, by simp, shown, fun _ => .of_kept (.refl _)⟩
      | true =>
          simp only [shown, if_true] at continued
          obtain ⟨⟨⟩, _, _, taken, repeated⟩ := bind_eq_ok.mp continued
          obtain ⟨group, rfl, isGroup, first⟩ := declareField_declares taken
          obtain ⟨groups, rfl, areGroups, stopped, others⟩ := ih repeated
          refine ⟨group :: groups, by simp [prepend], List.forall_mem_cons.mpr ⟨isGroup, areGroups⟩,
            stopped, ?_⟩
          intro areShown
          obtain ⟨isShown, othersShown⟩ := List.forall_mem_cons.mp areShown
          rw [isShown] at first
          have both := first.trans (others othersShown)
          cases written : ofGroup? group <;> simpa [written] using both

end Builder

end WatMachine
