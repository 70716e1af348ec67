/-!
# Index spaces and names

Each kind of definition has a dense index space of its own: definitions get
the indices 0, 1, 2, … in the order in which they are declared.  A definition
may carry a name, and a reference by name means the first definition of that
name.
-/

namespace WatMachine

/-- The kinds of definition that have indices. -/
inductive IndexSpace where
  | type
  | function
  | table
  | memory
  | global
  | element
  | data
  deriving Repr, DecidableEq, Inhabited

/-- A reference to a definition, by number or by name. -/
inductive Identifier where
  | index (value : Nat)
  | name (text : String)
  deriving Repr, DecidableEq

/-- One value for each index space. -/
structure PerSpace (α : Type) where
  type : α
  function : α
  table : α
  memory : α
  global : α
  element : α
  data : α
  deriving Repr, DecidableEq

namespace IndexSpace

/-- Every index space, in its usual order. -/
def all : List IndexSpace :=
  [type, function, table, memory, global, element, data]

/-- How messages name a definition of this kind. -/
def describe : IndexSpace → String
  | type => "type"
  | function => "function"
  | table => "table"
  | memory => "memory"
  | global => "global"
  | element => "elem segment"
  | data => "data segment"

end IndexSpace

namespace Identifier

/-- How messages write a reference. -/
def describe : Identifier → String
  | index value => toString value
  | name text => "$" ++ text

end Identifier

namespace PerSpace

variable {α : Type}

/-- The same value for every index space. -/
def constant (value : α) : PerSpace α :=
  ⟨value, value, value, value, value, value, value⟩

/-- The value for one index space. -/
def get (values : PerSpace α) : IndexSpace → α
  | .type => values.type
  | .function => values.function
  | .table => values.table
  | .memory => values.memory
  | .global => values.global
  | .element => values.element
  | .data => values.data

/-- Replaces the value for one index space. -/
def set (values : PerSpace α) (space : IndexSpace) (value : α) : PerSpace α :=
  match space with
  | .type => { values with type := value }
  | .function => { values with function := value }
  | .table => { values with table := value }
  | .memory => { values with memory := value }
  | .global => { values with global := value }
  | .element => { values with element := value }
  | .data => { values with data := value }

@[simp]
theorem get_constant (value : α) (space : IndexSpace) :
    (constant value).get space = value := by
  cases space <;> rfl

@[simp]
theorem get_set (values : PerSpace α) (space other : IndexSpace) (value : α) :
    (values.set space value).get other =
      if other = space then value else values.get other := by
  cases space <;> cases other <;> rfl

end PerSpace

/-- The declared definitions of every index space, by name where they have
one. -/
structure Environment where
  names : PerSpace (List (Option String))
  deriving Repr, DecidableEq

namespace Environment

/-- No definitions at all. -/
def empty : Environment := ⟨.constant []⟩

/-- The number of definitions in an index space. -/
def size (environment : Environment) (space : IndexSpace) : Nat :=
  (environment.names.get space).length

/-- Whether no index space has a definition. -/
def isEmpty (environment : Environment) : Bool :=
  IndexSpace.all.all fun space => (environment.names.get space).isEmpty

/-- Declares one more definition.  Its index is the size of the space
before. -/
def declare (environment : Environment) (space : IndexSpace)
    (name : Option String) : Environment :=
  ⟨environment.names.set space (environment.names.get space ++ [name])⟩

/-- The index that a reference means.  A number stands for itself, whether or
not it is declared. -/
def resolve? (environment : Environment) (space : IndexSpace) :
    Identifier → Option Nat
  | .index value => some value
  | .name text => (environment.names.get space).findIdx? (· == some text)

/-- The name of a definition, if it has one. -/
def name? (environment : Environment) (space : IndexSpace) (index : Nat) :
    Option String :=
  (environment.names.get space)[index]?.join

@[simp]
theorem names_declare (environment : Environment) (space other : IndexSpace)
    (name : Option String) :
    (environment.declare space name).names.get other =
      if other = space then environment.names.get space ++ [name]
      else environment.names.get other := by
  simp [declare]

@[simp]
theorem size_declare (environment : Environment) (space other : IndexSpace)
    (name : Option String) :
    (environment.declare space name).size other =
      if other = space then environment.size space + 1
      else environment.size other := by
  unfold size
  rw [names_declare]
  split <;> simp

end Environment

end WatMachine
