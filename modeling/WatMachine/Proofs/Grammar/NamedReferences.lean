import WatMachine.Proofs.Grammar.Numbering

/-!
# Names and numbers agree

In a module that is read from tokens, any reference may be written by its
number, and the module stays the same.  A branch that names a label goes to
the innermost of the blocks around it that carry the label.
-/

namespace WatMachine

open TokenStream Reading WrittenDefinition

/-- Whether an instruction occurs in a body, inside blocks with the given
labels, innermost first. -/
inductive Enclosed (instruction : Instruction) :
    List (Option String) → List Instruction → Prop where
  | here {code : List Instruction} (member : instruction ∈ code) : Enclosed instruction [] code
  | inside {labels : List (Option String)} {code body : List Instruction} {kind : BlockKind}
      {label : Option String} {span : Source.Span}
      (member : .structured kind label body span ∈ code)
      (enclosed : Enclosed instruction labels body) : Enclosed instruction (labels ++ [label]) code

theorem Enclosed.mono {instruction : Instruction} {labels : List (Option String)}
    {code more : List Instruction} (enclosed : Enclosed instruction labels code)
    (included : code ⊆ more) : Enclosed instruction labels more := by
  cases enclosed with
  | here member => exact .here (included member)
  | inside member enclosed => exact .inside (included member) enclosed

namespace Reading

/-- Whether a reference stands directly behind a word. -/
def RefersBehind (word reference : Token) (index : Nat) (readings : List Reading) : Prop :=
  [⟨word, none⟩, ⟨reference, some index⟩] <:+: readings

namespace RefersBehind

variable {word reference : Token} {index : Nat} {front back : List Reading}

theorem not_others {all : List Token} : ¬ RefersBehind word reference index (others all) := by
  intro behind
  have marked : ⟨reference, some index⟩ ∈ others all := behind.subset (by simp)
  simp [others] at marked

/-- A reference and the word in front of it stand on one side of any place
where no reference begins. -/
theorem append (behind : RefersBehind word reference index (front ++ back))
    (leads : LeadsPlainly back) :
    RefersBehind word reference index front ∨ RefersBehind word reference index back := by
  induction front with
  | nil => exact .inr behind
  | cons first front ih =>
      rcases List.infix_cons_iff.mp behind with here | later
      · obtain ⟨rfl, next⟩ := List.cons_prefix_cons.mp here
        cases front with
        | nil =>
            obtain ⟨rest, rfl⟩ := next
            cases leads _ rfl
        | cons second front =>
            obtain ⟨rfl, -⟩ := List.cons_prefix_cons.mp next
            exact .inl ⟨[], front, rfl⟩
      · rcases ih later with before | after
        · exact .inl (before.trans (List.suffix_cons _ _).isInfix)
        · exact .inr after

theorem of_getElem? {readings : List Reading} {position : Nat}
    (found : readings[position]? = some ⟨word, none⟩)
    (behind : readings[position + 1]? = some ⟨reference, some index⟩) :
    RefersBehind word reference index readings := by
  obtain ⟨inside, isWord⟩ := List.getElem?_eq_some_iff.mp found
  obtain ⟨bound, isReference⟩ := List.getElem?_eq_some_iff.mp behind
  refine ⟨readings.take position, readings.drop (position + 2), ?_⟩
  rw [← isWord, ← isReference, List.append_assoc, List.cons_append, List.cons_append,
    List.nil_append, List.getElem_cons_drop, List.getElem_cons_drop, List.take_append_drop]

theorem of_append_others {all : List Token}
    (behind : RefersBehind word reference index (front ++ others all)) :
    RefersBehind word reference index front :=
  (behind.append (leadsPlainly_others all)).resolve_right not_others

theorem of_others_append {all : List Token} (leads : LeadsPlainly back)
    (behind : RefersBehind word reference index (others all ++ back)) :
    RefersBehind word reference index back :=
  (behind.append leads).resolve_left not_others

theorem typeReference {names : List (Option String)} {readings : List Reading} {called : Nat}
    (behind : RefersBehind word reference index readings)
    (isType : TypeReference names readings called) : word.kind = .keyword .typeForm := by
  obtain ⟨opened, headed, refers, closed⟩ := isType
  have found := behind.of_append_others
  simp only [RefersBehind, others, List.map_cons, List.map_nil, List.cons_append,
    List.nil_append, List.infix_cons_iff, List.cons_prefix_cons] at found
  simp at found
  grind

end RefersBehind

end Reading

section Branches

variable {word reference : Token} {opcode : Keyword} {depth : Nat}

/-- Whether a branch to a label is read into a body, with its label resolved
among those of the blocks around it. -/
def BranchRead (opcode : Keyword) (word reference : Token) (depth : Nat) (scope : Scope)
    (code : List Instruction) : Prop :=
  ∃ labels, Enclosed (.plain opcode (some (.index depth)) word.span) labels code ∧
    RefersTo (labels ++ scope.labels) reference depth

/-- The operand of a branch refers to a label. -/
theorem Immediate.refersLabel {scope : Scope}
    (immediate : Immediate scope opcode [reference] (some (.index depth)))
    (branches : opcode ∈ [.br, .brIf]) : RefersTo scope.labels reference depth := by
  generalize written : [reference] = all at immediate
  cases immediate with
  | label _ refers =>
      obtain ⟨token, rfl, refers⟩ := refers
      cases written
      exact refers
  | call | indirect => simp at branches
  | localVariable listed | global listed =>
      simp only [List.mem_cons, List.not_mem_nil, or_false] at listed branches
      grind

namespace BranchRead

variable {scope : Scope} {code more : List Instruction}

theorem mono (read : BranchRead opcode word reference depth scope code) (included : code ⊆ more) :
    BranchRead opcode word reference depth scope more := by
  obtain ⟨labels, enclosed, refers⟩ := read
  exact ⟨labels, enclosed.mono included, refers⟩

theorem structured {kind : BlockKind} {label : Option String} {span : Source.Span}
    (read : BranchRead opcode word reference depth { scope with labels := label :: scope.labels }
      code) :
    BranchRead opcode word reference depth scope [.structured kind label code span] := by
  obtain ⟨labels, enclosed, refers⟩ := read
  refine ⟨labels ++ [label], .inside (List.mem_singleton.mpr rfl) enclosed, ?_⟩
  rwa [List.append_assoc]

theorem plain {first : Token} {other : Keyword} {readings : List Reading}
    {operand : Option Operand} (behind : RefersBehind word reference depth
      (others [first] ++ readings))
    (isWord : word.kind = .keyword opcode) (branches : opcode ∈ [.br, .brIf])
    (kind : first.kind = .keyword other)
    (immediate : ImmediateRead scope other readings operand) :
    BranchRead opcode word reference depth scope [.plain other operand first.span] := by
  cases immediate with
  | reference immediate =>
      have same := List.IsInfix.eq_of_length behind rfl
      cases same
      cases kind.symm.trans isWord
      exact ⟨[], .here (List.mem_singleton.mpr rfl), immediate.refersLabel branches⟩
  | type called rest =>
      have found : RefersBehind word reference depth _ := behind.of_others_append
        ((LeadsPlainly.typeReference called).append (leadsPlainly_others _))
      rw [found.of_append_others.typeReference called] at isWord
      cases isWord
      simp at branches
  | other immediate unreferring =>
      rw [← others_append] at behind
      exact absurd behind RefersBehind.not_others

end BranchRead

/-- A branch to a label in the tokens of a body is read into the body. -/
theorem PhraseRead.branchRead {phrase : Phrase} {scope : Scope} {readings : List Reading}
    {code : List Instruction} (read : PhraseRead phrase scope readings code)
    (behind : RefersBehind word reference depth readings) (isWord : word.kind = .keyword opcode)
    (branches : opcode ∈ [.br, .brIf]) : BranchRead opcode word reference depth scope code := by
  induction read with
  | done => simp [RefersBehind] at behind
  | noOperand => simp [RefersBehind] at behind
  | next _ rest firstIH restIH =>
      rcases behind.append (.phraseRead rest) with before | after
      · exact (firstIH before).mono (List.subset_append_left _ _)
      · exact (restIH after).mono (List.subset_append_right _ _)
  | operand _ rest firstIH restIH =>
      rcases behind.append (.phraseRead rest) with before | after
      · exact (firstIH before).mono (List.subset_append_left _ _)
      · exact (restIH after).mono (List.subset_append_right _ _)
  | plain kind immediate => exact .plain behind isWord branches kind immediate
  | block _ sequence _ ih =>
      exact (ih (behind.of_append_others.of_others_append (.phraseRead sequence))).structured
  | folded _ ih => exact ih behind
  | foldedBlock _ _ sequence _ ih =>
      exact (ih (behind.of_append_others.of_others_append (.phraseRead sequence))).structured
  | @foldedPlain _ left _ first _ readings _ _ _ _ kind immediate operands _ ih =>
      rcases behind.of_append_others.append (.phraseRead operands) with before | after
      · have split : others [left, first] ++ readings =
            others [left] ++ (others [first] ++ readings) := rfl
        have found : RefersBehind word reference depth (others [first] ++ readings) :=
          (split ▸ before).of_others_append (leadsPlainly_cons rfl)
        exact (BranchRead.plain found isWord branches kind immediate).mono
          (List.subset_append_right _ _)
      · exact (ih after).mono (List.subset_append_left _ _)

/-- A branch to a label that a function among some fields is read with. -/
def BranchKept (opcode : Keyword) (word reference : Token) (depth : Nat) (part : List Field) :
    Prop :=
  ∃ function environment, .function function ∈ part ∧
    BranchRead opcode word reference depth ⟨environment, function.frame, []⟩ function.body

theorem TypeUse.branchless {before after : Declarations} {readings : List Reading}
    {used : Nat × Frame} (isUse : TypeUse before readings used after)
    (behind : RefersBehind word reference depth readings) : word.kind = .keyword .typeForm := by
  cases isUse with
  | declared isType => exact behind.of_append_others.typeReference isType
  | inline => exact absurd behind RefersBehind.not_others

theorem ImportTargetWritten.branchless {before after : Declarations} {index : Nat}
    {kind : ExternalKind} {readings : List Reading} {target : ImportTarget}
    (written : ImportTargetWritten before index kind readings target after)
    (behind : RefersBehind word reference depth readings) : word.kind = .keyword .typeForm := by
  cases written with
  | function _ typed => exact typed.branchless (behind.of_others_append (.typeUse typed))
  | memory | table | global => exact absurd behind RefersBehind.not_others

theorem FunctionWritten.branchKept {before after : Declarations} {readings : List Reading}
    {label : Option String} {part : List Field}
    (written : FunctionWritten before readings label part after)
    (behind : RefersBehind word reference depth readings) (isWord : word.kind = .keyword opcode)
    (branches : opcode ∈ [.br, .brIf]) : BranchKept opcode word reference depth part := by
  obtain ⟨-, -, -, -, -, typed, followed, -⟩ := written
  rcases behind.of_append_others.append (.functionTail followed) with before | after
  · have isType := typed.branchless (before.of_others_append (.typeUse typed))
    rw [isType] at isWord
    cases isWord
    simp at branches
  · cases followed with
    | imported => simp [RefersBehind] at after
    | defined _ read =>
        have found := after.of_others_append (.phraseRead read)
        exact ⟨_, _, List.mem_cons_self, read.branchRead found isWord branches⟩

theorem FieldWritten.branchKept {before after : Declarations} {readings : List Reading}
    {part : List Field} (written : FieldWritten before readings part after)
    (behind : RefersBehind word reference depth readings) (isWord : word.kind = .keyword opcode)
    (branches : opcode ∈ [.br, .brIf]) : BranchKept opcode word reference depth part := by
  cases written with
  | function written => exact written.branchKept behind isWord branches
  | exported _ _ _ _ described isKind =>
      have found := behind.of_append_others
      simp [RefersBehind, others, List.infix_cons_iff] at found
      rw [← found.1, isWord] at described
      cases described
      simp only [List.mem_cons, List.not_mem_nil, or_false] at branches
      rcases branches with rfl | rfl <;> cases isKind
  | imported _ _ _ _ _ _ _ targeted =>
      have found := behind.of_append_others.of_others_append (.importTarget targeted)
      rw [targeted.branchless found] at isWord
      cases isWord
      simp at branches
  | type | skipped => exact absurd behind RefersBehind.not_others

theorem FieldWritten.leadsPlainly {before after : Declarations} {readings : List Reading}
    {part : List Field} (written : FieldWritten before readings part after) :
    LeadsPlainly readings := by
  cases written with
  | function written =>
      obtain ⟨-, -, -, -, -, -, -, -⟩ := written
      exact leadsPlainly_cons rfl
  | exported => exact leadsPlainly_cons rfl
  | imported => exact leadsPlainly_cons rfl
  | type => exact leadsPlainly_others _
  | skipped => exact leadsPlainly_others _

theorem FieldsWritten.leadsPlainly {before after : Declarations} {groups : List (List Reading)}
    {parts : List (List Field)} (written : FieldsWritten before groups parts after) :
    LeadsPlainly groups.flatten := by
  induction written with
  | nil => exact leadsPlainly_nil
  | cons first _ ih => exact first.leadsPlainly.append ih

theorem FieldsWritten.branchKept {before after : Declarations} {groups : List (List Reading)}
    {parts : List (List Field)} (written : FieldsWritten before groups parts after)
    (behind : RefersBehind word reference depth groups.flatten)
    (isWord : word.kind = .keyword opcode) (branches : opcode ∈ [.br, .brIf]) :
    BranchKept opcode word reference depth parts.flatten := by
  induction written with
  | nil => simp [RefersBehind] at behind
  | cons first rest ih =>
      rcases behind.append rest.leadsPlainly with here | later
      · obtain ⟨function, environment, inside, read⟩ := first.branchKept here isWord branches
        exact ⟨function, environment, List.mem_append_left _ inside, read⟩
      · obtain ⟨function, environment, inside, read⟩ := ih later
        exact ⟨function, environment, List.mem_append_right _ inside, read⟩

/-- A branch to a label in the tokens of a module is read into one of its
functions. -/
theorem ModuleWritten.branchKept {readings : List Reading} {module : Module}
    (written : ModuleWritten readings module)
    (behind : RefersBehind word reference depth readings) (isWord : word.kind = .keyword opcode)
    (branches : opcode ∈ [.br, .brIf]) :
    BranchKept opcode word reference depth module.fields := by
  obtain ⟨-, -, -, -, written, -⟩ := written
  exact written.branchKept (behind.of_append_others.of_others_append written.leadsPlainly) isWord
    branches

end Branches

namespace TokenStream

/-- Putting a token in the place of another one that is shown changes nothing
else in the stream. -/
theorem ofTokens_set {all : List Token} {position : Nat} {token other : Token}
    (shown : (ofTokens all).ahead[position]? = some token) (inside : other.isEnd = false)
    (place : other.span = token.span) :
    ofTokens (all.set position other) =
      { ofTokens all with ahead := (ofTokens all).ahead.set position other } := by
  rcases List.eq_nil_or_concat all with rfl | ⟨front, last, rfl⟩
  · simp [ofTokens] at shown
  rw [List.concat_eq_append, ofTokens_concat] at *
  by_cases early : position < front.length
  · rw [List.set_append_left _ _ early, ofTokens_concat]
    cases last.isEnd <;> simp [early]
  · cases ended : last.isEnd with
    | true =>
        simp only [ended, if_true] at shown
        exact absurd (List.getElem?_eq_some_iff.mp shown).1 early
    | false =>
        simp only [ended, Bool.false_eq_true, if_false] at shown ⊢
        have bound := (List.getElem?_eq_some_iff.mp shown).1
        obtain rfl : position = front.length := by
          rw [List.length_append, List.length_singleton] at bound
          omega
        obtain rfl : last = token := by simpa using shown
        rw [List.set_append_right _ _ le_rfl]
        simp [ofTokens, inside, place]

/-- The tokens that a stream shows are the first ones it was made of. -/
theorem ahead_ofTokens_isPrefix (all : List Token) : (ofTokens all).ahead <+: all := by
  rcases List.eq_nil_or_concat all with rfl | ⟨front, last, rfl⟩
  · exact List.nil_prefix
  · rw [List.concat_eq_append, ofTokens_concat]
    cases last.isEnd with
    | true => exact List.prefix_append front [last]
    | false => exact List.prefix_rfl

end TokenStream

namespace Module

/-- Whether tokens are read as a module, each of them as a reading says. -/
def ReadWith (all : List Token) (readings : List Reading) (module : Module) : Prop :=
  ∃ rest : TokenStream, TokenStream.ofTokens all = rest.prepend (tokens readings) ∧
    ModuleWritten readings module ∧ rest.current.isEnd = true

section Readings

variable {all : List Token} {readings : List Reading} {module : Module}

theorem ofTokens_eq_ok : ofTokens all = .ok module ↔ ∃ readings, ReadWith all readings module :=
  ofStream_eq_ok

theorem ReadWith.getElem?_ahead {position : Nat} {reading : Reading}
    (read : ReadWith all readings module) (found : readings[position]? = some reading) :
    (TokenStream.ofTokens all).ahead[position]? = some reading.token := by
  obtain ⟨rest, shape, -, -⟩ := read
  have bound := (List.getElem?_eq_some_iff.mp found).1
  have inside : position < (tokens readings).length := by rwa [tokens, List.length_map]
  rw [shape, ahead_prepend, List.getElem?_append_left inside, tokens, List.getElem?_map, found]
  rfl

theorem ReadWith.getElem? {position : Nat} {reading : Reading}
    (read : ReadWith all readings module) (found : readings[position]? = some reading) :
    all[position]? = some reading.token := by
  have shown := read.getElem?_ahead found
  obtain ⟨rest, whole⟩ := ahead_ofTokens_isPrefix all
  rw [← whole, List.getElem?_append_left (List.getElem?_eq_some_iff.mp shown).1, shown]

theorem ReadWith.set {position index : Nat} {token number : Token}
    (read : ReadWith all readings module) (found : readings[position]? = some ⟨token, some index⟩)
    (small : index < 0x100000000) (kind : number.kind = .integer index)
    (place : number.span = token.span) :
    ReadWith (all.set position number) (readings.set position ⟨number, some index⟩) module := by
  have shown := read.getElem?_ahead found
  have inside : number.isEnd = false := by
    rw [Token.isEnd, kind]
    rfl
  have replaced := TokenStream.ofTokens_set shown inside place
  obtain ⟨rest, shape, written, ended⟩ := read
  have bound : position < (tokens readings).length := by
    rw [tokens, List.length_map]
    exact (List.getElem?_eq_some_iff.mp found).1
  refine ⟨rest, ?_, written.renumber (.set found small place kind), ended⟩
  rw [replaced, shape, ahead_prepend, List.set_append_left _ _ bound]
  simp [prepend, tokens]

end Readings

/-- Names and numbers agree in a module that is accepted: any reference may be
written as the number it is resolved to, as numbers are written up to 32 bits.
And a branch to a named label goes to the innermost block around it that carries
the label. -/
theorem ofTokens_renumbered {all : List Token} {module : Module}
    (accepted : ofTokens all = .ok module) :
    (∃ readings, ReadWith all readings module) ∧
    ∀ readings, ReadWith all readings module →
      (∀ (position index : Nat) (token : Token),
        readings[position]? = some ⟨token, some index⟩ → index < 0x100000000 →
        all[position]? = some token ∧ ∀ text : String,
          ofTokens (all.set position ⟨.integer index, text, token.span⟩) = .ok module) ∧
      ∀ (position depth : Nat) (word reference : Token) (opcode : Keyword) (name : String),
        readings[position]? = some ⟨word, none⟩ → word.kind = .keyword opcode →
        opcode ∈ [.br, .brIf] → readings[position + 1]? = some ⟨reference, some depth⟩ →
        reference.kind = .identifier name →
        ∃ function ∈ module.functions, ∃ labels,
          Enclosed (.plain opcode (some (.index depth)) word.span) labels function.body ∧
          depth < labels.length ∧ IsLeast {place | labels[place]? = some (some name)} depth := by
  refine ⟨ofTokens_eq_ok.mp accepted, fun readings read => ⟨?_, ?_⟩⟩
  · intro position index token found small
    exact ⟨read.getElem? found, fun text =>
      ofTokens_eq_ok.mpr ⟨_, read.set found small rfl rfl⟩⟩
  · intro position depth word reference opcode name found isWord branches behind named
    have written : ModuleWritten readings module := read.choose_spec.2.1
    have pair : RefersBehind word reference depth readings := .of_getElem? found behind
    obtain ⟨function, environment, inside, labels, enclosed, refers⟩ :=
      written.branchKept pair isWord branches
    have innermost : IsLeast {place | labels[place]? = some (some name)} depth := by
      cases refers with
      | number kind => cases kind.symm.trans named
      | name kind first =>
          cases kind.symm.trans named
          rwa [List.append_nil] at first
    have bound := (List.getElem?_eq_some_iff.mp innermost.1).1
    exact ⟨function, List.mem_filterMap.mpr ⟨_, inside, rfl⟩, labels, enclosed, bound, innermost⟩

/-- How `( module ( func loop $l block $l br $l end end ) )` is read. -/
def namedBranch : List Reading :=
  [⟨.leftParen, none⟩, ⟨.keyword .moduleForm, none⟩, ⟨.leftParen, none⟩,
    ⟨.keyword .funcForm, none⟩, ⟨.keyword .loop, none⟩, ⟨.identifier "l", none⟩,
    ⟨.keyword .block, none⟩, ⟨.identifier "l", none⟩, ⟨.keyword .br, none⟩,
    ⟨.identifier "l", some 0⟩, ⟨.keyword .blockEnd, none⟩, ⟨.keyword .blockEnd, none⟩,
    ⟨.rightParen, none⟩, ⟨.rightParen, none⟩].map
      fun (kind, index) => ⟨⟨kind, "", .origin⟩, index⟩

def branching : Module where
  id := none
  fields :=
    [.function ⟨0, 0, .ofParams [] [],
      [.structured .loop (some "l") [.structured .block (some "l")
        [.plain .br (some (.index 0)) .origin] .origin] .origin]⟩]
  environment := ⟨⟨[none], [none], [], [], [], [], []⟩⟩

theorem namedBranch_written : ModuleWritten namedBranch branching := by
  let token (kind : TokenKind) : Token := ⟨kind, "", .origin⟩
  let scope : Scope := ⟨branching.environment, .ofParams [] [], []⟩
  have opening (kind : BlockKind) : Opening kind ([token (.keyword kind.keyword),
      token (.identifier "l")] ++ []) (some "l") .origin :=
    .mk rfl (.named rfl) .nil
  have closing : Closing (some "l") [token (.keyword .blockEnd)] := .short rfl
  have label : RefersTo ((scope.enter (some "l")).enter (some "l")).labels
      (token (.identifier "l")) 0 := .name rfl ⟨rfl, fun _ _ => Nat.zero_le _⟩
  have branch : PhraseRead .instruction _ _ [.plain .br (some (.index 0)) .origin] :=
    @PhraseRead.plain _ (token (.keyword .br)) _ _ _ rfl
      (.reference (.label (by decide) ⟨_, rfl, label⟩))
  have inner := PhraseRead.block (opening .block) (.next branch .done) closing
  have outer := PhraseRead.block (opening .loop) (.next inner .done) closing
  have function := @FunctionWritten.mk (Declarations.empty.declare .function none)
    (token .leftParen) (token (.keyword .funcForm)) (token .rightParen) [] [] [] none [] none
    _ _ _ _ _ _ rfl rfl .anonymous .nil .omitted (.inline .nil .nil)
    (.defined .nil (.next outer .done)) rfl
  have declared : FieldsDeclared .empty [tokens ((namedBranch.drop 2).take 11)]
      (Declarations.empty.declare .function none) := .cons (.other (by decide)) .nil
  exact @ModuleWritten.mk (token .leftParen) (token (.keyword .moduleForm)) (token .rightParen) []
    none [(namedBranch.drop 2).take 11] _ _ _ rfl rfl .anonymous declared
    (.cons (.function function) .nil) rfl

/-- The theorem applied to a branch in two blocks of one label. -/
theorem ofTokens_renumbered_namedBranch :
    (∀ text, ofTokens ((tokens namedBranch).set 9 ⟨.integer 0, text, .origin⟩) = .ok branching) ∧
    ∃ function ∈ branching.functions, ∃ labels,
      Enclosed (.plain .br (some (.index 0)) .origin) labels function.body ∧ 0 < labels.length ∧
        IsLeast {place | labels[place]? = some (some "l")} 0 := by
  have read : ReadWith (tokens namedBranch) namedBranch branching :=
    ⟨⟨[], .origin⟩, rfl, namedBranch_written, rfl⟩
  have accepted : ofTokens (tokens namedBranch) = .ok branching := ofTokens_eq_ok.mpr ⟨_, read⟩
  obtain ⟨renumbers, branches⟩ := (ofTokens_renumbered accepted).2 namedBranch read
  exact ⟨(renumbers 9 0 _ rfl (by decide)).2,
    branches 8 0 _ _ .br "l" rfl rfl (by decide) rfl rfl⟩

end Module

end WatMachine
