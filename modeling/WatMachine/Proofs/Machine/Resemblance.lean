import Mathlib.Data.List.Forall2
import WatMachine.Proofs.Machine.Steps

/-!
# Names and types do not matter to actions on the stack

A frame keeps the names and types of its variables and the types of its
results, and every call puts one on the stack.  Actions on the stack read
variables by their places and count results, so on stacks whose frames differ
in names and types only they give the same values or the same error, and leave
such stacks again.
-/

namespace WatMachine

/-- Whether two frames hold the same values, and take and give back equally
many. -/
structure Frame.Resembles (frame other : Frame) : Prop where
  values : frame.locals.map (·.value) = other.locals.map (·.value)
  argumentCount : frame.argumentCount = other.argumentCount
  resultCount : frame.resultCount = other.resultCount

inductive Entry.Resembles : Entry → Entry → Prop where
  | value (number : Int32) : Resembles (.value number) (.value number)
  | label (marker : Label) : Resembles (.label marker) (.label marker)
  | activation {frame other : Frame} (frames : frame.Resembles other) :
      Resembles (.activation frame) (.activation other)

/-- Whether two stacks are the same but for the names and types in their
frames. -/
def Stack.Resembles (stack other : Stack) : Prop :=
  List.Forall₂ Entry.Resembles stack.entries other.entries

/-- Whether two results are related values or the same error. -/
inductive Outcomes {α β : Type} (related : α → β → Prop) :
    Except RuntimeError α → Except RuntimeError β → Prop where
  | values {value : α} {other : β} (same : related value other) :
      Outcomes related (.ok value) (.ok other)
  | errors (error : RuntimeError) : Outcomes related (.error error) (.error error)

theorem Outcomes.eq {α : Type} {result other : Except RuntimeError α}
    (outcomes : Outcomes Eq result other) : result = other := by
  cases outcomes with
  | values same => rw [same]
  | errors error => rfl

namespace Frame.Resembles

variable {frame other : Frame}

theorem refl (frame : Frame) : frame.Resembles frame :=
  ⟨rfl, rfl, rfl⟩

theorem length_locals (resembles : frame.Resembles other) :
    frame.locals.length = other.locals.length := by
  simpa using congrArg List.length resembles.values

theorem get? (resembles : frame.Resembles other) (index : Nat) :
    frame.get? index = other.get? index := by
  simp only [Frame.get?, ← List.getElem?_map, resembles.values]

theorem values_modify (slots : List LocalVariable) (index : Nat) (number : Int32) :
    (slots.modify index fun slot => { slot with value := number }).map (·.value) =
      (slots.map (·.value)).modify index fun _ => number := by
  induction slots generalizing index with
  | nil => simp
  | cons slot slots ih => cases index <;> simp [ih]

/-- A variable that is stored in one of two frames is stored in the other. -/
theorem set? (resembles : frame.Resembles other) (index : Nat) (number : Int32) :
    Option.Rel Frame.Resembles (frame.set? index number) (other.set? index number) := by
  rw [Frame.set?, Frame.set?, resembles.length_locals]
  split
  · refine .some ⟨?_, resembles.argumentCount, resembles.resultCount⟩
    simp only [values_modify, resembles.values]
  · exact .none

theorem values_storeFirst (slots : List LocalVariable) (numbers : List Int32) :
    (storeFirst slots numbers).map (·.value) =
      numbers.take slots.length ++ (slots.map (·.value)).drop numbers.length := by
  induction slots generalizing numbers with
  | nil => simp [storeFirst]
  | cons slot slots ih =>
      cases numbers with
      | nil => simp [storeFirst]
      | cons number numbers => simp [storeFirst, ih]

theorem withArguments (resembles : frame.Resembles other) (arguments : List Int32) :
    (frame.withArguments arguments).Resembles (other.withArguments arguments) := by
  refine ⟨?_, resembles.argumentCount, resembles.resultCount⟩
  simp only [Frame.withArguments, values_storeFirst, resembles.values, resembles.length_locals]

end Frame.Resembles

section Entries

variable {entries others : List Entry} (resemble : List.Forall₂ Entry.Resembles entries others)

include resemble

theorem Entry.leadingValues_congr : leadingValues entries = leadingValues others := by
  induction resemble with
  | nil => rfl
  | cons first _ ih => cases first <;> simp [leadingValues, ih]

theorem Entry.leadingLabel?_congr : leadingLabel? entries = leadingLabel? others := by
  induction resemble with
  | nil => rfl
  | cons first _ ih => cases first <;> simp [leadingLabel?, ih]

theorem Entry.filterMap_value?_congr : entries.filterMap value? = others.filterMap value? := by
  induction resemble with
  | nil => rfl
  | cons first _ ih => cases first <;> simp [List.filterMap_cons, value?, ih]

theorem Entry.countP_isLabel_congr : entries.countP isLabel = others.countP isLabel := by
  induction resemble with
  | nil => rfl
  | cons first _ ih => cases first <;> simp [List.countP_cons, isLabel, ih]

theorem Entry.getElem?_resembles (place : Nat) :
    Option.Rel Entry.Resembles entries[place]? others[place]? := by
  induction resemble generalizing place with
  | nil => exact .none
  | cons first _ ih =>
      cases place with
      | zero => exact .some first
      | succ place => simpa using ih place

theorem Entry.set_resembles {entry copy : Entry} (replaced : entry.Resembles copy) (place : Nat) :
    List.Forall₂ Entry.Resembles (entries.set place entry) (others.set place copy) := by
  induction resemble generalizing place with
  | nil => exact .nil
  | cons first rest ih =>
      cases place with
      | zero => exact .cons replaced rest
      | succ place => exact .cons first (ih place)

end Entries

namespace Stack.Resembles

variable {stack other : Stack}

theorem size (resembles : stack.Resembles other) : stack.size = other.size := by
  rw [stack.size_eq, other.size_eq]
  exact List.Forall₂.length_eq resembles

theorem push {entry copy : Entry} (resembles : stack.Resembles other)
    (pushed : entry.Resembles copy) : (stack.push entry).Resembles (other.push copy) :=
  .cons pushed resembles

theorem pushValues (resembles : stack.Resembles other) (numbers : List Int32) :
    (stack.pushValues numbers).Resembles (other.pushValues numbers) := by
  refine List.rel_append ?_ resembles
  rw [List.forall₂_map_left_iff, List.forall₂_map_right_iff]
  exact List.forall₂_same.mpr fun number _ => .value number

theorem drop (resembles : stack.Resembles other) (count : Nat) :
    (stack.drop count).Resembles (other.drop count) :=
  List.forall₂_drop count resembles

theorem above (resembles : stack.Resembles other) (base : Nat) :
    stack.above base = other.above base := by
  rw [Stack.above, Stack.above, resembles.size]

/-- Both stacks are empty, or the entries on top resemble each other. -/
theorem first (resembles : stack.Resembles other) :
    stack.entries = [] ∧ other.entries = [] ∨
      ∃ entry copy entries others, stack.entries = entry :: entries ∧
        other.entries = copy :: others ∧ entry.Resembles copy := by
  unfold Stack.Resembles at resembles
  generalize stack.entries = entries, other.entries = others at resembles
  cases resembles with
  | nil => exact .inl ⟨rfl, rfl⟩
  | cons firsts _ => exact .inr ⟨_, _, _, _, rfl, rfl, firsts⟩

theorem scope (resembles : stack.Resembles other) : stack.scope = other.scope :=
  Entry.leadingValues_congr resembles

theorem topLabel? (resembles : stack.Resembles other) : stack.topLabel? = other.topLabel? :=
  Entry.leadingLabel?_congr resembles

theorem takeValues (resembles : stack.Resembles other) (count : Nat) :
    Entry.takeValues count stack.entries = Entry.takeValues count other.entries := by
  rw [Entry.takeValues_eq_take, Entry.takeValues_eq_take, Entry.leadingValues_congr resembles]

theorem labelsAbove (resembles : stack.Resembles other) (base : Nat) :
    stack.labelsAbove base = other.labelsAbove base := by
  rw [Stack.labelsAbove, Stack.labelsAbove, resembles.above]
  exact Entry.countP_isLabel_congr (List.forall₂_take _ resembles)

theorem values (resembles : stack.Resembles other) : stack.values = other.values := by
  rw [Stack.values, Stack.values, Entry.filterMap_value?_congr resembles]

theorem frame? (resembles : stack.Resembles other) (base : Nat) :
    Option.Rel Frame.Resembles (stack.frame? base) (other.frame? base) := by
  unfold Stack.frame?
  rw [resembles.above, resembles.size]
  split
  · have found := Entry.getElem?_resembles resembles (other.above base)
    generalize stack.entries[other.above base]? = entry,
      other.entries[other.above base]? = copy at found
    rcases found with @⟨_, _, _ | _ | frames⟩ | _
    · exact .none
    · exact .none
    · exact .some frames
    · exact .none
  · exact .none

end Stack.Resembles

namespace StackAction

variable {α β γ δ : Type} {related : α → β → Prop} {resembling : γ → δ → Prop}

/-- Whether two actions do the same to stacks that resemble each other, and give
related values or the same error. -/
def Agree (related : α → β → Prop) (action : StackAction α) (other : StackAction β) : Prop :=
  ∀ stack copy : Stack, stack.Resembles copy →
    Outcomes related (action stack).1 (other copy).1 ∧
      (action stack).2.Resembles (other copy).2

namespace Agree

theorem pure {value : α} {other : β} (same : related value other) :
    Agree related (pure value) (pure other) :=
  fun _ _ resembles => ⟨.values same, resembles⟩

theorem throw (error : RuntimeError) :
    Agree related (throw error : StackAction α) (throw error : StackAction β) :=
  fun _ _ resembles => ⟨.errors error, resembles⟩

theorem get : Agree Stack.Resembles get get :=
  fun _ _ resembles => ⟨.values resembles, resembles⟩

theorem set {stack copy : Stack} (resembles : stack.Resembles copy) :
    Agree Eq (set stack : StackAction PUnit) (set copy) :=
  fun _ _ _ => ⟨.values rfl, resembles⟩

theorem modify {change alter : Stack → Stack}
    (changes : ∀ {stack copy : Stack}, stack.Resembles copy →
      (change stack).Resembles (alter copy)) :
    Agree Eq (modify change : StackAction PUnit) (modify alter) :=
  fun _ _ resembles => ⟨.values rfl, changes resembles⟩

theorem bind {action : StackAction α} {other : StackAction β} {next : α → StackAction γ}
    {after : β → StackAction δ} (first : Agree related action other)
    (rest : ∀ value copy, related value copy → Agree resembling (next value) (after copy)) :
    Agree resembling (action >>= next) (other >>= after) := by
  intro stack copy resembles
  have begun := first stack copy resembles
  rw [bind_apply, bind_apply]
  generalize action stack = one, other copy = two at begun
  obtain ⟨result, left⟩ := one
  obtain ⟨ended, right⟩ := two
  obtain ⟨outcomes, resembles⟩ := begun
  cases outcomes with
  | values same => exact rest _ _ same left right resembles
  | errors error => exact ⟨.errors error, resembles⟩

/-- Where the first actions give the same value, the next ones are compared for
one value only. -/
theorem andThen {action other : StackAction α} {next : α → StackAction γ}
    {after : α → StackAction δ} (first : Agree Eq action other)
    (rest : ∀ value, Agree resembling (next value) (after value)) :
    Agree resembling (action >>= next) (other >>= after) := by
  refine first.bind ?_
  rintro value _ rfl
  exact rest value

end Agree

theorem push_agree {entry copy : Entry} (pushed : entry.Resembles copy) :
    Agree Eq (push entry) (push copy) :=
  .modify fun resembles => resembles.push pushed

theorem pushValue_agree (number : Int32) : Agree Eq (pushValue number) (pushValue number) :=
  push_agree (.value number)

theorem pushValues_agree (numbers : List Int32) :
    Agree Eq (pushValues numbers) (pushValues numbers) :=
  .modify fun resembles => resembles.pushValues numbers

theorem truncate_agree (base : Nat) : Agree Eq (truncate base) (truncate base) := by
  refine .modify fun {stack copy} resembles => ?_
  rw [resembles.above]
  exact resembles.drop _

theorem popValue_agree : Agree Eq popValue popValue := by
  refine Agree.get.bind fun stack copy resembles => ?_
  rcases resembles.first with
    ⟨none, noOther⟩ | ⟨entry, copied, entries, others, shape, alsoShape, firsts⟩
  · simp only [none, noOther]
    exact .throw _
  · simp only [shape, alsoShape]
    cases firsts with
    | value number => exact (Agree.set (resembles.drop 1)).andThen fun _ => .pure rfl
    | label marker => exact .throw _
    | activation frames => exact .throw _

theorem popValues_agree (count : Nat) : Agree Eq (popValues count) (popValues count) := by
  refine Agree.get.bind fun stack copy resembles => ?_
  rw [resembles.takeValues]
  dsimp only
  split
  · exact .throw _
  · exact (Agree.set (resembles.drop count)).andThen fun _ => .pure rfl

theorem drainScope_agree : Agree Eq drainScope drainScope := by
  refine Agree.get.bind fun stack copy resembles => ?_
  rw [resembles.scope]
  exact (Agree.set (resembles.drop _)).andThen fun _ => .pure rfl

theorem popLabel_agree : Agree Eq popLabel popLabel := by
  refine Agree.get.bind fun stack copy resembles => ?_
  refine (Agree.set (resembles.drop 1)).andThen fun _ => ?_
  rcases resembles.first with
    ⟨none, noOther⟩ | ⟨entry, copied, entries, others, shape, alsoShape, firsts⟩
  · simp only [none, noOther]
    exact .throw _
  · simp only [shape, alsoShape]
    cases firsts with
    | value number => exact .throw _
    | label marker => exact .pure rfl
    | activation frames => exact .throw _

theorem popActivation_agree : Agree Frame.Resembles popActivation popActivation := by
  refine Agree.get.bind fun stack copy resembles => ?_
  refine (Agree.set (resembles.drop 1)).andThen fun _ => ?_
  rcases resembles.first with
    ⟨none, noOther⟩ | ⟨entry, copied, entries, others, shape, alsoShape, firsts⟩
  · simp only [none, noOther]
    exact .throw _
  · simp only [shape, alsoShape]
    cases firsts with
    | value number => exact .throw _
    | label marker => exact .throw _
    | activation frames => exact .pure frames

theorem frame_agree (base : Nat) : Agree Frame.Resembles (frame base) (frame base) := by
  refine Agree.get.bind fun stack copy resembles => ?_
  have found := resembles.frame? base
  generalize stack.frame? base = one, copy.frame? base = two at found
  cases found with
  | some frames => exact .pure frames
  | none => exact .throw _

theorem setLocal_agree (base index : Nat) (number : Int32) :
    Agree Eq (setLocal base index number) (setLocal base index number) := by
  refine (frame_agree base).bind fun found other frames => ?_
  have stored := frames.set? index number
  generalize found.set? index number = one, other.set? index number = two at stored
  cases stored with
  | none => exact .pure rfl
  | some changed =>
      refine (Agree.modify fun {stack copy} resembles => ?_).andThen fun _ => .pure rfl
      rw [resembles.above]
      exact Entry.set_resembles resembles (.activation changed) _

end StackAction

namespace Operation

open StackAction

theorem indexOperand_agree (opcode : Keyword) (operand : Option Operand) :
    Agree Eq (indexOperand opcode operand) (indexOperand opcode operand) := by
  unfold indexOperand
  split
  · exact .pure rfl
  · exact .throw _

theorem literalOperand_agree (opcode : Keyword) (operand : Option Operand) :
    Agree Eq (literalOperand opcode operand) (literalOperand opcode operand) := by
  unfold literalOperand
  split
  · exact .pure rfl
  · exact .throw _

theorem getLocal_agree (base index : Nat) :
    Agree Eq (getLocal base index) (getLocal base index) := by
  refine (frame_agree base).bind fun found other frames => ?_
  rw [frames.get?]
  split
  · exact pushValue_agree _
  · exact .throw _

theorem storeLocal_agree (base index : Nat) (number : Int32) :
    Agree Eq (storeLocal base index number) (storeLocal base index number) := by
  refine (setLocal_agree base index number).andThen fun stored => ?_
  split
  · exact .pure rfl
  · exact .throw _

theorem returnFrom_agree (base resultCount : Nat) :
    Agree Eq (returnFrom base resultCount) (returnFrom base resultCount) :=
  (popValues_agree resultCount).andThen fun results => (truncate_agree base).andThen fun _ =>
    (pushValues_agree results).andThen fun _ => .pure rfl

theorem unwind_agree (depth : Nat) : Agree Eq (unwind depth) (unwind depth) := by
  induction depth with
  | zero => exact drainScope_agree.andThen fun _ => popLabel_agree
  | succ depth ih => exact drainScope_agree.andThen fun _ => popLabel_agree.andThen fun _ => ih

theorem branch_agree (base depth resultCount : Nat) :
    Agree Eq (branch base depth resultCount) (branch base depth resultCount) := by
  refine Agree.get.bind fun stack copy resembles => ?_
  rw [resembles.labelsAbove]
  split
  · exact returnFrom_agree base resultCount
  · refine drainScope_agree.andThen fun carried => (unwind_agree depth).andThen fun target => ?_
    split
    · exact (push_agree (.label target)).andThen fun _ => .pure rfl
    · exact (pushValues_agree carried).andThen fun _ => .pure rfl

theorem branchIf_agree (base depth resultCount : Nat) :
    Agree Eq (branchIf base depth resultCount) (branchIf base depth resultCount) := by
  refine popValue_agree.andThen fun condition => ?_
  split
  · exact .pure rfl
  · exact branch_agree base depth resultCount

/-- Instructions other than calls, blocks and loops do the same. -/
theorem perform_agree (base : Nat) (opcode : Keyword) (operand : Option Operand) :
    Agree Eq (perform base opcode operand) (perform base opcode operand) := by
  have index := indexOperand_agree opcode operand
  cases opcode with
  | localGet =>
      exact index.andThen fun _ => (getLocal_agree _ _).andThen fun _ => .pure rfl
  | localSet =>
      exact index.andThen fun _ => (popValue_agree.andThen fun _ =>
        storeLocal_agree _ _ _).andThen fun _ => .pure rfl
  | localTee =>
      exact index.andThen fun _ => (popValue_agree.andThen fun _ =>
        (pushValue_agree _).andThen fun _ => storeLocal_agree _ _ _).andThen fun _ => .pure rfl
  | i32Const =>
      exact (literalOperand_agree _ _).andThen fun _ =>
        (pushValue_agree _).andThen fun _ => .pure rfl
  | i32Eqz =>
      exact (popValue_agree.andThen fun _ => pushValue_agree _).andThen fun _ => .pure rfl
  | drop => exact (popValue_agree.andThen fun _ => .pure rfl).andThen fun _ => .pure rfl
  | nop => exact .pure rfl
  | br =>
      refine (frame_agree base).bind fun frame other frames => index.andThen fun depth => ?_
      rw [frames.resultCount]
      exact branch_agree _ _ _
  | brIf =>
      refine (frame_agree base).bind fun frame other frames => index.andThen fun depth => ?_
      rw [frames.resultCount]
      exact branchIf_agree _ _ _
  | functionReturn =>
      refine (frame_agree base).bind fun frame other frames => ?_
      rw [frames.resultCount]
      exact returnFrom_agree _ _
  | i32Add | i32Sub | i32And | i32Or | i32Eq | i32LtS | i32GtU | i32GeS =>
      exact (popValue_agree.andThen fun _ => popValue_agree.andThen fun _ =>
        pushValue_agree _).andThen fun _ => .pure rfl
  | _ => exact .throw _

end Operation

end WatMachine
