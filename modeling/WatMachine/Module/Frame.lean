import WatMachine.Keyword

/-!
# Signatures and frames

A frame lists the variables of a function, parameters first, with their
present values, and how many values a call takes and gives back.  The frame
of a definition is the template that every call starts from.
-/

namespace WatMachine

/-- The value types of the text format. -/
inductive ValueType where
  | i32
  | i64
  | f32
  | f64
  deriving Repr, DecidableEq, Inhabited

/-- The types of the values that a function takes and gives back. -/
structure Signature where
  params : List ValueType
  results : List ValueType
  deriving Repr, DecidableEq, Inhabited

/-- A parameter or declared variable of a function.  Whatever its type, it
holds a 32-bit integer. -/
structure LocalVariable where
  type : ValueType
  name : Option String
  value : Int32 := 0
  deriving Repr, DecidableEq, Inhabited

/-- The variables of a function, its number of arguments and its result
types. -/
structure Frame where
  locals : List LocalVariable
  argumentCount : Nat
  results : List ValueType
  deriving Repr, DecidableEq, Inhabited

namespace ValueType

/-- The value type that a keyword names. -/
def ofKeyword? : Keyword → Option ValueType
  | .i32Type => some i32
  | .i64Type => some i64
  | .f32Type => some f32
  | .f64Type => some f64
  | _ => none

/-- The keyword that names a value type. -/
def keyword : ValueType → Keyword
  | i32 => .i32Type
  | i64 => .i64Type
  | f32 => .f32Type
  | f64 => .f64Type

@[simp]
theorem ofKeyword?_keyword (type : ValueType) :
    ofKeyword? type.keyword = some type := by
  cases type <;> rfl

end ValueType

namespace LocalVariable

/-- A variable without a name, holding zero. -/
def anonymous (type : ValueType) : LocalVariable :=
  { type, name := none }

end LocalVariable

namespace Frame

/-- The frame of a function that declares only its parameters. -/
def ofParams (params : List LocalVariable) (results : List ValueType) : Frame :=
  ⟨params, params.length, results⟩

/-- The frame of a function with nameless parameters of a given signature. -/
def ofSignature (signature : Signature) : Frame :=
  ofParams (signature.params.map .anonymous) signature.results

/-- The number of values that a call gives back. -/
def resultCount (frame : Frame) : Nat :=
  frame.results.length

/-- The present value of a variable. -/
def get? (frame : Frame) (index : Nat) : Option Int32 :=
  frame.locals[index]?.map (·.value)

/-- Stores a value in a variable, if there is one of that index. -/
def set? (frame : Frame) (index : Nat) (value : Int32) : Option Frame :=
  if index < frame.locals.length then
    some { frame with
      locals := frame.locals.modify index fun slot => { slot with value } }
  else none

theorem set?_isSome (frame : Frame) (index : Nat) (value : Int32) :
    (frame.set? index value).isSome = decide (index < frame.locals.length) := by
  unfold set?
  split <;> simp_all

/-- A stored value is read back, and no other variable changes. -/
theorem get?_of_set? {frame changed : Frame} {index : Nat} {value : Int32}
    (stored : frame.set? index value = some changed) (other : Nat) :
    changed.get? other = if other = index then some value else frame.get? other := by
  unfold set? at stored
  split at stored
  · rename_i inBounds
    obtain rfl := Option.some.inj stored
    by_cases same : other = index
    · subst same
      simp [get?, inBounds]
    · simp [get?, same, Ne.symm same]
  · simp at stored

/-- The index of the first variable of a given name. -/
def indexOf? (frame : Frame) (name : String) : Option Nat :=
  frame.locals.findIdx? (·.name == some name)

/-- The types of the parameters and results. -/
def signature (frame : Frame) : Signature :=
  ⟨(frame.locals.take frame.argumentCount).map (·.type), frame.results⟩

/-- Stores values in the first variables, in order, as far as both go. -/
def storeFirst : List LocalVariable → List Int32 → List LocalVariable
  | slot :: slots, value :: values =>
      { slot with value } :: storeFirst slots values
  | slots, _ => slots

/-- The frame of a call whose arguments were pushed in the order given: the
last of them is the first variable. -/
def withArguments (frame : Frame) (arguments : List Int32) : Frame :=
  { frame with locals := storeFirst frame.locals arguments.reverse }

end Frame

end WatMachine
