import WatMachine.Proofs.Machine.FunctionTable
import WatMachine.Proofs.Machine.Isolation

/-!
# Calls by name

An export is looked up once, before anything is executed, and execution itself
has no error about exports.  So a call that need not find its export can tell
from the error alone that there is none, and no error of a function that runs
is taken for it.
-/

namespace WatMachine

open Execution

/-- Whether an error is about an export. -/
def RuntimeError.isAboutExport : RuntimeError → Bool
  | unknownExport _ | exportNotFunction _ => true
  | _ => false

namespace Program

/-- No error of execution is about an export. -/
theorem raises_other_than_exports (program : Program) :
    program.Raises fun error => error.isAboutExport = false where
  ofStack error isLocal := by
    cases error <;> first | rfl | cases isLocal
  ofLookup index error failed := by
    rw [definition_apply] at failed
    split at failed
    · cases failed
      rfl
    · cases failed
    · cases failed
      rfl
  ofLimit := rfl
  ofBranch _ := rfl

section Named

variable {module : Module} {maxCallDepth : Nat} {name : String}

theorem export?_eq_none :
    (ofModule module maxCallDepth).export? name = none ↔
      ∀ target, .exported target ∈ module.fields → target.name ≠ name := by
  have listed (target : Export) : target ∈ module.exports ↔ .exported target ∈ module.fields := by
    rw [Module.exports, List.mem_filterMap]
    constructor
    · rintro ⟨field, member, shown⟩
      cases field <;> cases shown
      exact member
    · intro member
      exact ⟨_, member, rfl⟩
  rw [export?, List.find?_eq_none]
  simp only [ofModule, listed, beq_iff_eq, ne_eq]

theorem exists_export (exported : ∃ target, .exported target ∈ module.fields ∧ target.name = name) :
    ∃ target, (ofModule module maxCallDepth).export? name = some target := by
  obtain ⟨target, member, named⟩ := exported
  refine Option.ne_none_iff_exists'.mp fun missing => ?_
  exact export?_eq_none.mp missing target member named

end Named

section Calls

variable {program : Program} {fuel : Nat} {name : String} {arguments : List Int32}
  {machine : Machine}

theorem invokeExport_of_none (absent : program.export? name = none) :
    program.invokeExport fuel name arguments machine =
      some (.error (.unknownExport name), machine) := by
  rw [invokeExport_apply, absent]

theorem invokeExport_of_function {found : Export} (shown : program.export? name = some found)
    (executed : found.kind = .function) :
    program.invokeExport fuel name arguments machine =
      program.invoke fuel found.index arguments machine := by
  obtain ⟨_, kind, index⟩ := found
  cases executed
  rw [invokeExport_apply, shown]

theorem invokeExport_of_other {found : Export} (shown : program.export? name = some found)
    (other : found.kind ≠ .function) :
    program.invokeExport fuel name arguments machine =
      some (.error (.exportNotFunction name), machine) := by
  obtain ⟨_, kind, index⟩ := found
  rw [invokeExport_apply, shown]
  cases kind with
  | function => exact absurd rfl other
  | table | memory | global => rfl

/-- Once an export is found, only its kind can be the matter with it. -/
theorem invokeExport_about_export {found : Export} {error : RuntimeError} {after : Machine}
    (shown : program.export? name = some found)
    (failed : program.invokeExport fuel name arguments machine = some (.error error, after))
    (about : error.isAboutExport = true) :
    found.kind ≠ .function ∧ error = .exportNotFunction name := by
  by_cases executed : found.kind = .function
  · rw [invokeExport_of_function shown executed] at failed
    have unrelated := program.raises_other_than_exports.invoke _ _ _ _ _ _ failed
    rw [about] at unrelated
    cases unrelated
  · rw [invokeExport_of_other shown executed] at failed
    cases failed
    exact ⟨executed, rfl⟩

theorem callExtern_of_none (absent : program.export? name = none) :
    program.callExtern fuel name arguments machine = some (.ok [], machine) := by
  rw [callExtern_apply, invokeExport_of_none absent]

/-- An export that exists is called the same way whether or not it has to. -/
theorem callExtern_of_some {found : Export} (shown : program.export? name = some found) :
    program.callExtern fuel name arguments machine =
      program.invokeExport fuel name arguments machine := by
  rw [callExtern_apply]
  split
  · rename_i missing after failed
    obtain ⟨-, same⟩ := invokeExport_about_export shown failed rfl
    cases same
  · rfl

/-- A call by name is refused for the kind of its export exactly if that is no
function. -/
theorem invokeExport_exportNotFunction_iff {other : String} :
    (∃ after, program.invokeExport fuel name arguments machine =
      some (.error (.exportNotFunction other), after)) ↔
    other = name ∧ ∃ found, program.export? name = some found ∧ found.kind ≠ .function := by
  constructor
  · rintro ⟨after, failed⟩
    cases shown : program.export? name with
    | none =>
        rw [invokeExport_of_none shown] at failed
        cases failed
    | some found =>
        obtain ⟨differs, same⟩ := invokeExport_about_export shown failed rfl
        cases same
        exact ⟨rfl, found, rfl, differs⟩
  · rintro ⟨rfl, found, shown, differs⟩
    exact ⟨machine, invokeExport_of_other shown differs⟩

end Calls

/-- A call by name that need not find its export hides nothing but a missing
one.  Where no field exports anything by the name, it gives no values; where one
does, it does what a call does that has to find it.  No function that is
executed, and nothing inside it, fails with an error about an export; such a
call is refused for the kind of its export exactly if the first field that
exports something by the name exports no function. -/
theorem callExtern_forgives_absence (module : Module) (maxCallDepth fuel : Nat) (name : String)
    (arguments : List Int32) (machine : Machine) :
    let program := ofModule module maxCallDepth
    let called := program.callExtern fuel name arguments machine
    let demanded := program.invokeExport fuel name arguments machine
    let unrelated : RuntimeError → Prop := fun error => error.isAboutExport = false
    let firstIsOther := ∃ before target after,
      module.fields = before ++ .exported target :: after ∧ target.name = name ∧
        (∀ other, .exported other ∈ before → other.name ≠ name) ∧ target.kind ≠ .function
    ((∀ target, .exported target ∈ module.fields → target.name ≠ name) →
      called = some (.ok [], machine)) ∧
    ((∃ target, .exported target ∈ module.fields ∧ target.name = name) → called = demanded) ∧
    ((∀ index, Execution.FailsOnlyWith unrelated (call program fuel index)) ∧
      (∀ base instructions,
        Execution.FailsOnlyWith unrelated (Execution.sequence program fuel base instructions)) ∧
      (∀ base kind body rest,
        Execution.FailsOnlyWith unrelated (labelled program fuel base kind body rest)) ∧
      (∀ base code, Execution.FailsOnlyWith unrelated (instruction program fuel base code)) ∧
      (∀ index arguments,
        Execution.FailsOnlyWith unrelated (program.invoke fuel index arguments))) ∧
    (∀ other, (∃ after, demanded = some (.error (.exportNotFunction other), after)) ↔
      other = name ∧ firstIsOther) ∧
    (∀ other, (∃ after, called = some (.error (.exportNotFunction other), after)) ↔
      other = name ∧ firstIsOther) := by
  intro program called demanded unrelated firstIsOther
  have raises : program.Raises unrelated := program.raises_other_than_exports
  have absence : (∀ target, .exported target ∈ module.fields → target.name ≠ name) →
      called = some (.ok [], machine) := by
    intro absent
    exact callExtern_of_none (export?_eq_none.mpr absent)
  have presence : (∃ target, .exported target ∈ module.fields ∧ target.name = name) →
      called = demanded := by
    intro exported
    obtain ⟨found, shown⟩ := exists_export exported
    exact callExtern_of_some shown
  have refused (other : String) :
      (∃ after, demanded = some (.error (.exportNotFunction other), after)) ↔
        other = name ∧ firstIsOther := by
    refine invokeExport_exportNotFunction_iff.trans (and_congr_right fun _ => ?_)
    constructor
    · rintro ⟨target, shown, differs⟩
      obtain ⟨before, after, shape, named, earlier⟩ := export?_eq_some.mp shown
      exact ⟨before, target, after, shape, named, earlier, differs⟩
    · rintro ⟨before, target, after, shape, named, earlier, differs⟩
      exact ⟨target, export?_eq_some.mpr ⟨before, after, shape, named, earlier⟩, differs⟩
  obtain ⟨calls, sequences, bodies, instructions⟩ := raises.execution fuel
  refine ⟨absence, presence, ⟨calls, sequences, bodies, instructions, raises.invoke fuel⟩,
    refused, fun other => ?_⟩
  by_cases exported : ∃ target, .exported target ∈ module.fields ∧ target.name = name
  · rw [presence exported]
    exact refused other
  · have absent : ∀ target, .exported target ∈ module.fields → target.name ≠ name := by
      simpa using exported
    constructor
    · rintro ⟨after, failed⟩
      rw [absence absent] at failed
      cases failed
    · rintro ⟨-, before, target, after, shape, named, -⟩
      exact absurd named (absent target (by simp [shape]))

/-- A function that fails, and a name that is exported twice, first for no
function. -/
def exportedForMemory : Module where
  id := none
  fields :=
    [.function ⟨0, 0, .ofParams [] [], [.plain .drop none .origin]⟩,
      .exported ⟨"failing", .function, 0⟩,
      .exported ⟨"twice", .memory, 0⟩,
      .exported ⟨"twice", .function, 0⟩]
  environment := .empty

theorem callExtern_forgives_absence_exportedForMemory :
    let program := ofModule exportedForMemory 5
    program.callExtern 9 "absent" [] .idle = some (.ok [], .idle) ∧
      program.callExtern 9 "failing" [] .idle = some (.error .stackUnderflow, .idle) ∧
      ∃ after, program.callExtern 9 "twice" [] .idle =
        some (.error (.exportNotFunction "twice"), after) := by
  intro program
  have absent := (callExtern_forgives_absence exportedForMemory 5 9 "absent" [] .idle).1
    (by simp [exportedForMemory])
  have failing := (callExtern_forgives_absence exportedForMemory 5 9 "failing" [] .idle).2.1
    ⟨⟨"failing", .function, 0⟩, by simp [exportedForMemory], rfl⟩
  have twice := (callExtern_forgives_absence exportedForMemory 5 9 "twice" [] .idle).2.2.2.2 "twice"
  refine ⟨absent, failing.trans (by decide +kernel), twice.mpr ⟨rfl, ?_⟩⟩
  exact ⟨exportedForMemory.fields.take 2, ⟨"twice", .memory, 0⟩, _, rfl, rfl,
    by simp [exportedForMemory], nofun⟩

end Program

end WatMachine
