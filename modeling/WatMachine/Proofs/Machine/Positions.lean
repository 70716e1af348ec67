import WatMachine.Proofs.Machine.NamesAndTypes

/-!
# Positions do not matter to execution

Instructions keep the places of the source text where they were found, for
messages to name.  Modules that differ in these places only are executed
alike: every call has the same outcome, and so has every session of calls.
-/

namespace WatMachine

namespace Instruction

mutual

/-- An instruction without the places where it was found. -/
def unplaced : Instruction → Instruction
  | plain opcode operand _ => plain opcode operand .origin
  | structured kind label body _ => structured kind label (unplacedAll body) .origin

def unplacedAll : List Instruction → List Instruction
  | [] => []
  | first :: rest => first.unplaced :: unplacedAll rest

end

mutual

/-- The places where an instruction and those inside it were found. -/
def spans : Instruction → List Source.Span
  | plain _ _ span => [span]
  | structured _ _ body span => span :: spansAll body

def spansAll : List Instruction → List Source.Span
  | [] => []
  | first :: rest => first.spans ++ spansAll rest

end

theorem unplacedAll_eq_map (code : List Instruction) : unplacedAll code = code.map unplaced := by
  induction code with
  | nil => rfl
  | cons first rest ih => rw [unplacedAll, ih, List.map_cons]

theorem unplacedAll_append (code others : List Instruction) :
    unplacedAll (code ++ others) = unplacedAll code ++ unplacedAll others := by
  simp only [unplacedAll_eq_map, List.map_append]

theorem spansAll_append (code others : List Instruction) :
    spansAll (code ++ others) = spansAll code ++ spansAll others := by
  induction code with
  | nil => rfl
  | cons first rest ih => rw [List.cons_append, spansAll, spansAll, ih, List.append_assoc]

end Instruction

open Instruction

def FunctionDefinition.unplaced (function : FunctionDefinition) : FunctionDefinition :=
  { function with body := unplacedAll function.body }

def Field.unplaced : Field → Field
  | .function definition => .function definition.unplaced
  | other => other

/-- The places of the instructions of a field. -/
def Field.spans : Field → List Source.Span
  | .function definition => spansAll definition.body
  | _ => []

/-- The places of the instructions of a module, in the order of its fields. -/
def Module.spans (module : Module) : List Source.Span :=
  module.fields.flatMap Field.spans

/-- A module without the places where its instructions were found. -/
def Module.unplaced (module : Module) : Module :=
  { module with fields := module.fields.map Field.unplaced }

namespace Instruction

mutual

theorem unplaced_resembles : (code : Instruction) → code.unplaced.Resembles code
  | plain _ _ _ => .plain
  | structured _ _ body _ => .structured (unplacedAll_resembles body)

theorem unplacedAll_resembles :
    (code : List Instruction) → List.Forall₂ Resembles (unplacedAll code) code
  | [] => .nil
  | first :: rest => .cons (unplaced_resembles first) (unplacedAll_resembles rest)

end

end Instruction

theorem Field.unplaced_resembles {field : Field} (part : field.takesPart = true) :
    field.unplaced.Resembles field := by
  cases field with
  | function definition =>
      exact .function ⟨rfl, .refl _, Instruction.unplacedAll_resembles definition.body⟩
  | imported declaration =>
      obtain ⟨source, name, target⟩ := declaration
      cases target with
      | function index typeIndex frame => exact .imported (.refl frame)
      | _ => cases part
  | exported declaration => exact .exported declaration
  | type definition => cases part

/-- A module without places does what it does with them. -/
theorem Module.unplaced_resembles (module : Module) : module.unplaced.Resembles module := by
  have parts : Field.takesPart ∘ Field.unplaced = Field.takesPart := by
    funext field
    cases field <;> rfl
  rw [Module.Resembles, Module.unplaced, List.filter_map, parts, List.forall₂_map_left_iff]
  refine List.forall₂_same.mpr ?_
  intro field inside
  exact Field.unplaced_resembles (List.mem_filter.mp inside).2

/-- Sessions of modules that differ in places only have the same outcomes. -/
theorem Program.session_congr {module other : Module} (same : module.unplaced = other.unplaced)
    (limit fuel : Nat) :
    (ofModule module limit).session fuel = (ofModule other limit).session fuel := by
  have unplaced (module : Module) :=
    session_eq_of_resembles (ofModule_resembles module.unplaced_resembles limit) fuel
  funext requests machine
  rw [← unplaced module, same, unplaced other]

end WatMachine
