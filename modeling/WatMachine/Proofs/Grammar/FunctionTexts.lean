import WatMachine.Proofs.Grammar.Forms
import WatMachine.Proofs.Grammar.ModuleReaders

/-!
# Function bodies in their modules

Where the body of a function begins can be seen from its tokens: the groups
of the header of the function have head words that no instruction has.  So
the body may be exchanged for another one.  If the other body stands for the
same instructions in every scope, the module that is read stays the same.
-/

namespace WatMachine

open TokenStream Reading WrittenDefinition

/-- The words that head the groups between the name of a function and its
body. -/
def headerWords : List Keyword :=
  [.exportForm, .importForm, .typeForm, .paramForm, .resultForm, .localForm]

/-- The groups between the name of a function and its body. -/
inductive IsHeader : List Token → Prop where
  | nil : IsHeader []
  | cons {group rest : List Token} {word : Keyword}
      (grouped : Group word (fun inner (_ : Unit) => Balanced inner) group ())
      (listed : word ∈ headerWords) (others : IsHeader rest) : IsHeader (group ++ rest)

namespace IsHeader

variable {front back : List Token}

theorem append (header : IsHeader front) (others : IsHeader back) : IsHeader (front ++ back) := by
  induction header with
  | nil => exact others
  | cons grouped listed _ ih =>
      rw [List.append_assoc]
      exact .cons grouped listed ih

section Languages

variable {α : Type} {word : Keyword} {language : List Token → α → Prop}

theorem group {value : α} (grouped : Group word language front value)
    (balanced : ∀ {tokens value}, language tokens value → Balanced tokens)
    (listed : word ∈ headerWords) : IsHeader front := by
  obtain ⟨opened, headed, within, closed⟩ := grouped
  have header := IsHeader.cons (.mk opened headed (balanced within) closed) listed .nil
  rwa [List.append_nil] at header

theorem groups {values : List α} (grouped : Many (Group word language) front values)
    (balanced : ∀ {tokens value}, language tokens value → Balanced tokens)
    (listed : word ∈ headerWords) : IsHeader front := by
  induction grouped with
  | nil => exact .nil
  | cons item _ ih => exact (group item balanced listed).append ih

end Languages

theorem balanced (header : IsHeader front) : Balanced front := by
  induction header with
  | nil => exact .nil
  | cons grouped _ _ ih => exact (grouped.isGroup id).balanced.append ih

/-- Neither a header nor a body starts with a name. -/
theorem unnamed {body : List Token} (header : IsHeader front) (forms : Forms .sequence body)
    {token : Token} (leads : token ∈ (front ++ body).head?) : token.kind.identifier? = none := by
  cases header with
  | nil =>
      have clear := forms.clear_end.unnamed
      cases body with
      | nil => cases leads
      | cons first rest =>
          cases leads
          exact clear
  | cons grouped =>
      obtain ⟨opened, -, -, -⟩ := grouped
      cases leads
      rw [opened]
      rfl

end IsHeader

theorem Forms.beyond {phrase : Phrase} {tokens : List Token} (forms : Forms phrase tokens) :
    Beyond headerWords ⟨tokens, .origin⟩ := by
  obtain ⟨_, _, derived⟩ := forms
  have ended : Beyond headerWords ⟨[], .origin⟩ := ⟨rfl, by decide⟩
  have beyond := Beyond.derives derived ended (by decide)
  rw [prepend, List.append_nil] at beyond
  obtain ⟨unnamed, free⟩ := beyond
  refine ⟨?_, fun word listed => ?_⟩
  · rwa [current, kind_nth_blurred, TokenKind.identifier?_blurred_eq_none] at unnamed
  · rw [← atGroup_blurred]
    exact free word listed

/-- No body starts with a group of a header. -/
theorem Forms.not_group {α : Type} {phrase : Phrase} {group rest : List Token} {word : Keyword}
    {language : List Token → α → Prop} {value : α} (forms : Forms phrase (group ++ rest))
    (grouped : Group word language group value) (listed : word ∈ headerWords) : False := by
  have free := forms.beyond.free word listed
  obtain ⟨opened, headed, -, -⟩ := grouped
  rw [Bool.eq_false_iff, ne_eq, atGroup_iff] at free
  exact free ⟨opened, headed⟩

/-- The header of a function ends in one place only in front of a body. -/
theorem IsHeader.unique {front others body more : List Token} (header : IsHeader front)
    (also : IsHeader others) (forms : Forms .sequence body) (alsoForms : Forms .sequence more)
    (same : front ++ body = others ++ more) : front = others ∧ body = more := by
  induction header generalizing others with
  | nil =>
      cases also with
      | nil => exact ⟨rfl, same⟩
      | cons grouped listed =>
          rw [List.nil_append, List.append_assoc] at same
          exact ((same ▸ forms).not_group grouped listed).elim
  | cons grouped listed _ ih =>
      rw [List.append_assoc] at same
      cases also with
      | nil =>
          rw [List.nil_append] at same
          exact ((same.symm ▸ alsoForms).not_group grouped listed).elim
      | cons alsoGrouped _ alsoHeader =>
          rw [List.append_assoc] at same
          obtain ⟨rfl, tails⟩ := (grouped.isGroup id).unique (alsoGrouped.isGroup id) same
          obtain ⟨rfl, rfl⟩ := ih alsoHeader tails
          exact ⟨rfl, rfl⟩

theorem StringWord.balanced {tokens : List Token} {value : String}
    (word : StringWord tokens value) : Balanced tokens := by
  obtain ⟨token, rfl, kind⟩ := word
  exact .atom (by rw [kind]; rfl)

theorem StringPair.balanced {tokens : List Token} {values : String × String}
    (pair : StringPair tokens values) : Balanced tokens := by
  obtain ⟨first, second, rfl, kind, other⟩ := pair
  exact (Balanced.atom (by rw [kind]; rfl)).append (.atom (by rw [other]; rfl))

theorem InlineImport.isHeader {tokens : List Token} {source : Option (String × String)}
    (importing : InlineImport tokens source) : IsHeader tokens := by
  cases importing with
  | omitted => exact .nil
  | written group => exact .group group StringPair.balanced (by decide)

theorem TypeUse.isHeader {before after : Declarations} {readings : List Reading}
    {used : Nat × Frame} (isUse : TypeUse before readings used after) :
    IsHeader (tokens readings) := by
  have signature {params results : List Token} {locals : List (List LocalVariable)}
      {types : List (List ValueType)} (bound : BindingGroups .paramForm params locals)
      (given : ResultGroups results types) : IsHeader (params ++ results) :=
    (IsHeader.groups bound Binding.balanced (by decide)).append
      (.groups given (Many.balanced TypeWord.balanced) (by decide))
  cases isUse with
  | declared reference _ bound given =>
      rw [tokens_append, tokens_others]
      exact (IsHeader.group reference.group Reference.balanced (by decide)).append
        (signature bound given)
  | inline bound given =>
      rw [tokens_others]
      exact signature bound given

/-- One name or none in front of something else can be told in one way only. -/
theorem Named.unique {front others back rest : List Token} {label name : Option String}
    (named : Named front label) (also : Named others name) (same : front ++ back = others ++ rest)
    (unnamed : ∀ token ∈ back.head?, token.kind.identifier? = none)
    (alsoUnnamed : ∀ token ∈ rest.head?, token.kind.identifier? = none) :
    front = others ∧ label = name ∧ back = rest := by
  cases named with
  | anonymous =>
      cases also with
      | anonymous => exact ⟨rfl, rfl, same⟩
      | named kind =>
          subst same
          have none := unnamed _ rfl
          rw [kind] at none
          cases none
  | named kind =>
      cases also with
      | anonymous =>
          subst same
          have none := alsoUnnamed _ rfl
          rw [kind] at none
          cases none
      | named other =>
          obtain ⟨rfl, tails⟩ := List.cons.inj same
          cases kind.symm.trans other
          exact ⟨rfl, rfl, tails⟩

/-- A function with one body, given that another body stands for the same
instructions in every scope, is also written with the other body. -/
theorem FunctionWritten.exchange {before after : Declarations} {readings : List Reading}
    {label text : Option String} {part : List Field} {left head right : Token}
    {name header old new : List Token}
    (written : FunctionWritten before readings label part after)
    (shape : tokens readings = left :: head :: name ++ header ++ old ++ [right])
    (named : Named name text) (isHeader : IsHeader header) (forms : Forms .sequence old)
    (filled : old ≠ [])
    (same : ∀ scope code, Derives .sequence scope old code → Derives .sequence scope new code) :
    ∃ others, tokens others = left :: head :: name ++ header ++ new ++ [right] ∧
      FunctionWritten before others label part after := by
  obtain @⟨_, _, _, front, exports, imported, _, _, _, type, tail, _, _, _, _, opened, headed,
    isName, exported, importing, typed, followed, closed⟩ := written
  have isFront : IsHeader (exports ++ imported ++ tokens type) :=
    ((IsHeader.groups exported StringWord.balanced (by decide)).append importing.isHeader).append
      typed.isHeader
  simp only [tokens_append, tokens_others, List.cons_append, List.cons.injEq] at shape
  obtain ⟨rfl, rfl, whole⟩ := shape
  obtain ⟨inside, ends⟩ := List.append_inj' whole rfl
  cases ends
  cases followed with
  | imported =>
      -- An imported function has no body.
      have split : front ++ ((exports ++ imported ++ tokens type) ++ []) =
          name ++ (header ++ old) := by simpa using inside
      obtain ⟨-, -, behind⟩ := isName.unique named split
        (fun _ leads => isFront.unnamed Forms.nil leads)
        (fun _ leads => isHeader.unnamed forms leads)
      obtain ⟨-, rfl⟩ := isFront.unique isHeader Forms.nil forms behind
      exact absurd rfl filled
  | @defined groups locals body _ bound read =>
      have isLocals : IsHeader groups := .groups bound Binding.balanced (by decide)
      simp only [tokens_append, tokens_others] at inside
      have split : front ++ ((exports ++ imported ++ tokens type ++ groups) ++ tokens body) =
          name ++ (header ++ old) := by simpa using inside
      obtain ⟨rfl, rfl, behind⟩ := isName.unique named split
        (fun _ leads => (isFront.append isLocals).unnamed read.derives.forms leads)
        (fun _ leads => isHeader.unnamed forms leads)
      obtain ⟨rfl, rfl⟩ := (isFront.append isLocals).unique isHeader read.derives.forms forms behind
      obtain ⟨other, rfl, reads⟩ := (same _ _ read.derives).exists_read
      exact ⟨_, by simp, .mk opened headed isName exported importing typed (.defined bound reads)
        closed⟩

theorem FieldWritten.exchange {before after : Declarations} {readings : List Reading}
    {text : Option String} {part : List Field} {left head right : Token}
    {name header old new : List Token} (written : FieldWritten before readings part after)
    (shape : tokens readings = left :: head :: name ++ header ++ old ++ [right])
    (isFunction : head.kind = .keyword .funcForm) (named : Named name text)
    (isHeader : IsHeader header) (forms : Forms .sequence old) (filled : old ≠ [])
    (same : ∀ scope code, Derives .sequence scope old code → Derives .sequence scope new code) :
    ∃ others, tokens others = left :: head :: name ++ header ++ new ++ [right] ∧
      FieldWritten before others part after := by
  have headed : headWord? (tokens readings) = some .funcForm := by
    simp [shape, headWord?, isFunction, TokenKind.keyword?]
  cases written with
  | function written =>
      obtain ⟨others, whole, exchanged⟩ :=
        written.exchange shape named isHeader forms filled same
      exact ⟨others, whole, .function exchanged⟩
  | exported _ isExport =>
      simp [others, headWord?, isExport, TokenKind.keyword?] at headed
  | imported _ isImport =>
      simp [others, headWord?, isImport, TokenKind.keyword?] at headed
  | type _ isType =>
      rw [tokens_others, isType] at headed
      cases headed
  | skipped _ other =>
      rw [tokens_others] at headed
      rw [headed] at other
      exact absurd (List.mem_cons_self) other

/-- The first pass declares a function by its name, whatever its header and
its body are. -/
theorem ofGroup?_of_function {left head : Token} {name rest : List Token} {label : Option String}
    (opened : left.kind = .leftParen) (isFunction : head.kind = .keyword .funcForm)
    (named : Named name label) (unnamed : ∀ token ∈ rest.head?, token.kind.identifier? = none)
    (filled : rest ≠ []) :
    ofGroup? (left :: head :: (name ++ rest)) = some ⟨.function, label, true⟩ := by
  obtain ⟨third, more, shape⟩ :=
    List.exists_cons_of_ne_nil (List.append_ne_nil_of_right_ne_nil name filled)
  have isThird : third.kind.identifier? = label := by
    cases named with
    | anonymous =>
        rw [List.nil_append] at shape
        exact unnamed third (shape ▸ rfl)
    | named kind =>
        cases shape
        rw [kind]
        rfl
  rw [shape, ofGroup?_of_not_import opened isFunction (by decide), isThird]
  rfl

section Exchange

variable {left head right : Token} {name header old new : List Token} {label : Option String}

theorem IsHeader.ofGroup?_function (isHeader : IsHeader header) (opened : left.kind = .leftParen)
    (isFunction : head.kind = .keyword .funcForm) (named : Named name label)
    (forms : Forms .sequence old) (closed : right.kind = .rightParen) :
    ofGroup? (left :: head :: name ++ header ++ old ++ [right]) =
      some ⟨.function, label, true⟩ := by
  have unnamed : ∀ token ∈ (header ++ old ++ [right]).head?, token.kind.identifier? = none := by
    intro token leads
    rw [List.head?_append, Option.mem_def, Option.or_eq_some_iff] at leads
    rcases leads with leads | ⟨-, leads⟩
    · exact isHeader.unnamed forms leads
    · cases leads
      rw [closed]
      rfl
  have written := ofGroup?_of_function opened isFunction named unnamed (by simp)
  simpa using written

theorem FieldDeclared.exchange {before after : Declarations}
    (declared : FieldDeclared before (left :: head :: name ++ header ++ old ++ [right]) after)
    (opened : left.kind = .leftParen) (isFunction : head.kind = .keyword .funcForm)
    (named : Named name label) (isHeader : IsHeader header) (forms : Forms .sequence old)
    (alsoForms : Forms .sequence new) (closed : right.kind = .rightParen) :
    FieldDeclared before (left :: head :: name ++ header ++ new ++ [right]) after := by
  have headed (body : List Token) :
      headWord? (left :: head :: name ++ header ++ body ++ [right]) = some .funcForm := by
    simp [headWord?, isFunction, TokenKind.keyword?]
  refine declared.congr ?_ ((headed new).trans (headed old).symm) ?_
  · rw [headed]
    decide
  · rw [isHeader.ofGroup?_function opened isFunction named alsoForms closed,
      isHeader.ofGroup?_function opened isFunction named forms closed]

end Exchange

theorem FieldsDeclared.replace {before after : Declarations} {front back : List (List Token)}
    {group other : List Token} (declared : FieldsDeclared before (front ++ group :: back) after)
    (same : ∀ {before after}, FieldDeclared before group after → FieldDeclared before other after) :
    FieldsDeclared before (front ++ other :: back) after := by
  induction front generalizing before with
  | nil =>
      obtain _ | ⟨first, rest⟩ := declared
      exact .cons (same first) rest
  | cons _ front ih =>
      obtain _ | ⟨first, rest⟩ := declared
      exact .cons first (ih rest)

theorem FieldsWritten.replace {before after : Declarations} {front back : List (List Reading)}
    {readings : List Reading} {parts : List (List Field)} {group : List Token}
    (written : FieldsWritten before (front ++ readings :: back) parts after)
    (same : ∀ {before part after}, FieldWritten before readings part after →
      ∃ others, tokens others = group ∧ FieldWritten before others part after) :
    ∃ others, tokens others = group ∧
      FieldsWritten before (front ++ others :: back) parts after := by
  induction front generalizing before parts with
  | nil =>
      obtain _ | ⟨first, rest⟩ := written
      obtain ⟨others, shape, written⟩ := same first
      exact ⟨others, shape, .cons written rest⟩
  | cons _ front ih =>
      obtain _ | ⟨first, rest⟩ := written
      obtain ⟨others, shape, written⟩ := ih rest
      exact ⟨others, shape, .cons first written⟩

/-- Groups that others start with are the first of the others. -/
theorem leading_groups {groups others : List (List Token)} {rest more : List Token}
    (areGroups : ∀ group ∈ groups, IsGroup group) (alsoGroups : ∀ group ∈ others, IsGroup group)
    (stops : ∀ token ∈ more.head?, token.kind ≠ .leftParen)
    (same : groups.flatten ++ rest = others.flatten ++ more) :
    ∃ behind, others = groups ++ behind ∧ rest = behind.flatten ++ more := by
  induction groups generalizing others with
  | nil => exact ⟨others, rfl, same⟩
  | cons group groups ih =>
      obtain ⟨isGroup, restGroups⟩ := List.forall_mem_cons.mp areGroups
      cases others with
      | nil =>
          obtain ⟨left, tail, rfl, opened⟩ := isGroup.first_token
          rw [List.flatten_nil, List.nil_append] at same
          exact absurd opened (stops left (same ▸ rfl))
      | cons other others =>
          obtain ⟨isOther, moreGroups⟩ := List.forall_mem_cons.mp alsoGroups
          simp only [List.flatten_cons, List.append_assoc] at same
          obtain ⟨rfl, tails⟩ := isGroup.unique isOther same
          obtain ⟨behind, rfl, shape⟩ := ih restGroups moreGroups tails
          exact ⟨behind, rfl, shape⟩

theorem groups_unnamed {groups : List (List Token)} {rest : List Token} {token : Token}
    (areGroups : ∀ group ∈ groups, IsGroup group)
    (unnamed : ∀ token ∈ rest.head?, token.kind.identifier? = none)
    (leads : token ∈ (groups.flatten ++ rest).head?) : token.kind.identifier? = none := by
  cases groups with
  | nil => exact unnamed token leads
  | cons group groups =>
      obtain ⟨left, tail, rfl, opened⟩ := (areGroups group List.mem_cons_self).first_token
      cases leads
      rw [opened]
      rfl

/-- The tokens in front of a function body, from the start of the module: some
fields, and the start of the function with its name and header. -/
inductive BeforeBody : List Token → Prop where
  | mk {left word opening head : Token} {id name header : List Token} {label text : Option String}
      {groups : List (List Token)} (opened : left.kind = .leftParen)
      (headed : word.kind = .keyword .moduleForm) (identified : Named id label)
      (areGroups : ∀ group ∈ groups, IsGroup group) (opens : opening.kind = .leftParen)
      (isFunction : head.kind = .keyword .funcForm) (named : Named name text)
      (isHeader : IsHeader header) :
      BeforeBody (left :: word :: id ++ groups.flatten ++ (opening :: head :: name ++ header))

/-- A module that is read with one body of a function is read with another
body that stands for the same instructions in every scope. -/
theorem BeforeBody.exchange {before old new : List Token} {right : Token} {rest : TokenStream}
    {module : Module} (isBefore : BeforeBody before) (forms : Forms .sequence old)
    (alsoForms : Forms .sequence new) (filled : old ≠ []) (closed : right.kind = .rightParen)
    (same : ∀ scope code, Derives .sequence scope old code → Derives .sequence scope new code)
    (accepted : Module.ofStream (rest.prepend (before ++ old ++ [right])) = .ok module) :
    Module.ofStream (rest.prepend (before ++ new ++ [right])) = .ok module := by
  obtain @⟨left, word, opening, head, id, name, header, _, _, groups, opened, headed, identified,
    areGroups, opens, isFunction, named, isHeader⟩ := isBefore
  obtain ⟨readings, last, shape, written, ended⟩ := Module.ofStream_eq_ok.mp accepted
  obtain @⟨_, _, closing, front, _, fields, parts, middle, final, alsoOpened, alsoHeaded,
    alsoIdentified, declared, written, closes⟩ := written
  obtain ⟨ahead, finish⟩ := rest
  let group (body : List Token) := opening :: head :: name ++ header ++ body ++ [right]
  have isGroup : IsGroup (group old) := by
    have inner := (named.balanced.append isHeader.balanced).append forms.balanced
    simpa [group] using inner.isGroup opens isFunction closed
  simp only [prepend, TokenStream.mk.injEq, tokens_append, tokens_others, tokens_flatten,
    List.cons_append, List.append_assoc, List.cons.injEq] at shape
  obtain ⟨⟨rfl, rfl, inside⟩, rfl⟩ := shape
  have split : id ++ (groups.flatten ++ (group old ++ ahead)) =
      front ++ ((fields.map tokens).flatten ++ closing :: last.ahead) := by
    simpa [group] using inside
  obtain ⟨rfl, rfl, behind⟩ := identified.unique alsoIdentified split
    (fun _ => groups_unnamed areGroups (by rintro _ ⟨⟩; rw [opens]; rfl))
    (fun _ => groups_unnamed written.read.isGroup (by rintro _ ⟨⟩; rw [closes]; rfl))
  -- The function is one of the fields of the module.
  obtain ⟨later, fieldsShape, rfl⟩ :=
    @leading_groups (groups ++ [group old]) (fields.map tokens) ahead (closing :: last.ahead)
      (by simpa [or_imp, forall_and] using ⟨areGroups, isGroup⟩) written.read.isGroup
      (by rintro _ ⟨⟩; simp [closes]) (by simpa using behind)
  rw [List.append_assoc] at fieldsShape
  obtain ⟨first, others, rfl, rfl, othersShape⟩ := List.map_eq_append_iff.mp fieldsShape
  obtain ⟨readings, more, rfl, isFunctionGroup, rfl⟩ := List.map_eq_cons_iff.mp othersShape
  obtain ⟨exchanged, exchangedShape, written⟩ := written.replace fun written =>
    written.exchange isFunctionGroup isFunction named isHeader forms filled same
  have declared : FieldsDeclared .empty ((first ++ exchanged :: more).map tokens) middle := by
    rw [List.map_append, List.map_cons, exchangedShape]
    rw [List.map_append, List.map_cons, isFunctionGroup] at declared
    exact declared.replace fun declared =>
      declared.exchange opens isFunction named isHeader forms alsoForms closed
  refine Module.ofStream_eq_ok.mpr ⟨_, last, ?_,
    .mk opened headed alsoIdentified declared written closes, ended⟩
  simp [prepend, exchangedShape]

end WatMachine
