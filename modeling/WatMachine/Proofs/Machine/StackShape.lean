import WatMachine.Proofs.Machine.Complaints
import WatMachine.Proofs.Machine.Moments

/-!
# The shape of the stack

Whenever an instruction is executed, the activation of its call stands at the
place that the call was given, with the labels of exactly the enclosing blocks
above it, and there are as many activations on the stack as active calls.
What one step of a run keeps of this is read off the layout of the stack; a
finished instruction in between leaves a stack that is laid out as before,
since execution refines evaluation.
-/

namespace WatMachine

namespace Entry

def isActivation : Entry → Bool
  | activation _ => true
  | _ => false

def label? : Entry → Option Label
  | label marker => some marker
  | _ => none

theorem not_isActivation_of_mem_ofValues {numbers : List Int32} {entry : Entry}
    (inside : entry ∈ ofValues numbers) : entry.isActivation = false := by
  obtain ⟨number, -, rfl⟩ := List.mem_map.mp inside
  rfl

theorem not_isActivation_of_mem_scopes {context : List Interrupted} {entry : Entry}
    (inside : entry ∈ context.flatMap ofInterrupted) : entry.isActivation = false := by
  obtain ⟨scope, -, inside⟩ := List.mem_flatMap.mp inside
  rcases List.mem_cons.mp inside with rfl | inside
  · rfl
  · exact not_isActivation_of_mem_ofValues inside

theorem countP_isActivation_ofValues (numbers : List Int32) :
    (ofValues numbers).countP isActivation = 0 :=
  List.countP_eq_zero.mpr fun _ inside => by simp [not_isActivation_of_mem_ofValues inside]

theorem filterMap_label?_ofValues (numbers : List Int32) :
    (ofValues numbers).filterMap label? = [] := by
  simp [ofValues, List.filterMap_map, Function.comp_def, label?]

theorem filterMap_label?_scopes (context : List Interrupted) :
    (context.flatMap ofInterrupted).filterMap label? = context.map (·.label) := by
  induction context with
  | nil => rfl
  | cons scope context ih =>
      rw [List.flatMap_cons, List.filterMap_append, ih, ofInterrupted, List.filterMap_cons,
        filterMap_label?_ofValues]
      rfl

end Entry

open Entry

namespace Stack

def entriesAbove (stack : Stack) (base : Nat) : List Entry :=
  stack.entries.take (stack.above base)

/-- The labels above a place, bottom first. -/
def labelsFrom (stack : Stack) (base : Nat) : List Label :=
  ((stack.entriesAbove base).filterMap Entry.label?).reverse

def activations (stack : Stack) : Nat :=
  stack.entries.countP Entry.isActivation

section LaidOut

variable (workspace : Workspace) (context : List Interrupted) (below : List Entry)

theorem entriesAbove_laidOut :
    (laidOut workspace context below).entriesAbove below.length =
      ofValues workspace.values ++ context.flatMap ofInterrupted := by
  rw [entriesAbove, above_append (entries_laidOut workspace context below), entries_laidOut,
    List.take_left]

theorem labelsFrom_laidOut :
    (laidOut workspace context below).labelsFrom below.length =
      (context.map (·.label)).reverse := by
  rw [labelsFrom, entriesAbove_laidOut, List.filterMap_append, filterMap_label?_ofValues,
    filterMap_label?_scopes, List.nil_append]

theorem innermost_laidOut :
    ∀ entry ∈ (laidOut workspace context below).entriesAbove below.length,
      entry.isActivation = false := by
  intro entry inside
  rw [entriesAbove_laidOut, List.mem_append] at inside
  rcases inside with inside | inside
  · exact not_isActivation_of_mem_ofValues inside
  · exact not_isActivation_of_mem_scopes inside

theorem activations_laidOut :
    (laidOut workspace context below).activations = below.countP isActivation + 1 := by
  have innermost := innermost_laidOut workspace context below
  rw [entriesAbove_laidOut] at innermost
  rw [activations, entries_laidOut, List.countP_append, List.countP_cons_of_pos rfl,
    List.countP_eq_zero.mpr (by simpa using innermost), Nat.zero_add]

theorem activations_scope (numbers : List Int32) (entries : List Entry) :
    (ofEntries (ofValues numbers ++ entries)).activations = entries.countP isActivation := by
  rw [activations, entries_ofEntries, List.countP_append, countP_isActivation_ofValues,
    Nat.zero_add]

end LaidOut

end Stack

namespace Execution

open Stack

/-- The shape of the stack while an instruction of a call is executed, inside
blocks of given kinds, outermost first. -/
structure Shaped (program : Program) (site : Site) (kinds : List BlockKind)
    (machine : Machine) : Prop where
  called : ∃ index, program.definition index = .ok site.function
  /-- The activation of the call stands at its place, with the variables,
  arguments and results of the function. -/
  frame : ∃ frame, machine.stack.frame? site.base = some frame ∧ site.function.frame.Fits frame
  /-- No other call has been started above it. -/
  innermost : ∀ entry ∈ machine.stack.entriesAbove site.base, entry.isActivation = false
  /-- The labels above it are those of the enclosing blocks. -/
  labels : machine.stack.labelsFrom site.base = kinds.map Label.start
  depth : machine.stack.activations = machine.depth
  limit : machine.depth ≤ program.maxCallDepth

/-- How the stack is laid out while instructions of a block are executed that
lies inside blocks of given kinds. -/
structure Running (program : Program) (site : Site) (kinds : List BlockKind)
    (block : List Instruction) (machine : Machine) : Prop where
  called : ∃ index, program.definition index = .ok site.function
  found : Instruction.block? site.function.body site.path = some (kinds, block)
  laid : ∃ workspace context below, machine.stack = laidOut workspace context below ∧
    below.length = site.base ∧ site.function.frame.Fits workspace.frame ∧
    context.map (·.label) = (kinds.map Label.start).reverse
  depth : machine.stack.activations = machine.depth
  limit : machine.depth ≤ program.maxCallDepth

namespace Running

variable {program : Program} {site : Site} {kinds : List BlockKind} {block : List Instruction}
  {machine after : Machine}

theorem shaped (running : Running program site kinds block machine) :
    Shaped program site kinds machine := by
  obtain ⟨called, -, ⟨workspace, context, below, laid, place, fits, labels⟩, depth, limit⟩ :=
    running
  refine ⟨called, ⟨workspace.frame, ?_, fits⟩, ?_, ?_, depth, limit⟩
  · rw [laid, ← place, frame?_laidOut]
  · rw [laid, ← place]
    exact innermost_laidOut workspace context below
  · rw [laid, ← place, labelsFrom_laidOut, labels, List.reverse_reverse]

/-- An instruction that ends does so on the stack that goes with its
evaluation. -/
theorem matched {fuel : Nat} {code : Instruction} {ending : Ending}
    (running : Running program site kinds block machine)
    (ended : instruction program fuel site.base code machine = some (.ok ending, after)) :
    ∃ context below completion, below.length = site.base ∧
      context.map (·.label) = (kinds.map Label.start).reverse ∧
      Matches context below (.ok completion) (.ok ending, after.stack) ∧
      completion.Fits site.function.frame ∧
      below.countP isActivation + 1 = after.depth ∧ after.depth ≤ program.maxCallDepth := by
  obtain ⟨stack, depth⟩ := machine
  obtain ⟨-, -, ⟨workspace, context, below, rfl, place, fits, labels⟩, counted, limit⟩ := running
  rw [← place] at ended
  obtain ⟨result, evaluates, _, _, same, matched⟩ :=
    (evaluated program fuel).2.2 _ _ _ _ _ _ ended
  cases same
  cases result with
  | error error => cases matched
  | ok completion =>
      have kept := (Evaluation.fits_of_run program site.function.frame fuel).2 _ _ _ _ _ fits
        evaluates
      rw [activations_laidOut] at counted
      exact ⟨context, below, completion, place, labels, matched, kept, counted, limit⟩

theorem next {fuel : Nat} {code : Instruction} (running : Running program site kinds block machine)
    (ended : instruction program fuel site.base code machine = some (.ok .normal, after)) :
    Running program site kinds block after := by
  obtain ⟨context, below, completion, place, labels, matched, fits, counted, limit⟩ :=
    running.matched ended
  obtain ⟨stack, depth⟩ := after
  cases matched with
  | normal workspace =>
      exact ⟨running.called, running.found,
        ⟨workspace, context, below, rfl, place, fits, labels⟩,
        (activations_laidOut workspace context below).trans counted, limit⟩

/-- A branch to a loop leaves the stack laid out as at the start of the
loop. -/
theorem restart {fuel : Nat} {code : Instruction}
    (running : Running program site (kinds ++ [.loop]) block machine)
    (ended : instruction program fuel site.base code machine = some (.ok (.branch 0), after)) :
    Running program site (kinds ++ [.loop]) block after := by
  obtain ⟨context, below, completion, place, labels, matched, fits, counted, limit⟩ :=
    running.matched ended
  obtain ⟨stack, depth⟩ := after
  obtain ⟨target, outer, rfl, loop, -⟩ : ∃ target outer, context = target :: outer ∧
      target.label = .start .loop ∧ outer.map (·.label) = (kinds.map Label.start).reverse := by
    simpa [List.map_eq_cons_iff] using labels
  generalize reached : Ending.branch 0 = ending at matched
  cases matched with
  | normal workspace => cases reached
  | branch depth workspace =>
      obtain ⟨_ | depth, inside⟩ := depth
      · refine ⟨running.called, running.found,
          ⟨⟨workspace.frame, []⟩, _, below, ?_, place, fits, labels⟩, ?_, limit⟩
        · simp [unwound, loop, Label.isLoop, Label.start]
        · simp [unwound, loop, Label.isLoop, Label.start, activations_laidOut, counted]
      · cases reached
  | returned frame results => cases reached

theorem inside {position : Nat} {kind : BlockKind} {label : Option String}
    {body : List Instruction} {span : Source.Span}
    (running : Running program site kinds block machine)
    (here : block[position]? = some (.structured kind label body span)) :
    Running program { site with path := site.path ++ [position] } (kinds ++ [kind]) body
      { machine with stack := machine.stack.push (.label (.start kind)) } := by
  obtain ⟨stack, depth⟩ := machine
  obtain ⟨called, found, ⟨workspace, context, below, rfl, place, fits, labels⟩, counted, limit⟩ :=
    running
  rw [push_label_laidOut]
  refine ⟨called, ?_, ⟨_, _, below, rfl, place, fits, ?_⟩, ?_, limit⟩
  · simp [Instruction.block?_append, found, Instruction.block?, here]
  · simp [labels]
  · rw [activations_laidOut] at counted ⊢
    exact counted

/-- The body of a function starts above its activation. -/
theorem of_enter {index base : Nat} {function : FunctionDefinition} {values : List Int32}
    {entries : List Entry} (laid : machine.stack = ofEntries (ofValues values ++ entries))
    (marked : MarkerLed entries) (counted : machine.stack.activations = machine.depth)
    (entered : enter program index machine = some (.ok (function, base), after)) :
    Running program ⟨function, base, []⟩ [] function.body
      { after with depth := after.depth + 1 } := by
  obtain ⟨stack, depth⟩ := machine
  obtain rfl : stack = _ := laid
  rw [activations_scope] at counted
  rw [enter_apply _ _ _ _ marked] at entered
  cases started : Evaluation.enter program depth index values with
  | error error =>
      rw [started] at entered
      cases entered
  | ok found =>
      obtain ⟨callee, frame, values⟩ := found
      rw [started] at entered
      cases entered
      obtain ⟨below, defined, -⟩ := Evaluation.exists_arguments_of_enter started
      refine ⟨⟨index, defined⟩, rfl, ⟨_, [], _, rfl, rfl, Evaluation.enter_fits started, rfl⟩, ?_,
        below⟩
      rw [activations_laidOut, List.countP_append, countP_isActivation_ofValues, Nat.zero_add,
        counted]

end Running

namespace Moment

/-- What holds of every moment of a run. -/
def Sound (program : Program) (moment : Moment) : Prop :=
  match moment.task with
  | .call _ =>
      ∃ values entries, moment.machine.stack = ofEntries (ofValues values ++ entries) ∧
        MarkerLed entries ∧ moment.machine.stack.activations = moment.machine.depth ∧
        moment.machine.depth ≤ program.maxCallDepth
  | .sequence site position instructions =>
      ∃ kinds block, Running program site kinds block moment.machine ∧
        block.drop position = instructions
  | .labelled site kind body position rest =>
      ∃ kinds, Running program site (kinds ++ [kind]) body moment.machine ∧
        body.drop position = rest
  | .instruction site position code =>
      ∃ kinds block, Running program site kinds block moment.machine ∧
        block[position]? = some code

theorem sound_invoked (program : Program) (fuel index : Nat) (arguments : List Int32) :
    (invoked fuel index arguments).Sound program := by
  have stack : Stack.empty.pushValues arguments = ofEntries (ofValues arguments.reverse ++ []) :=
    pushValues_ofEntries [] arguments
  refine ⟨arguments.reverse, [], stack, rfl, ?_, Nat.zero_le _⟩
  rw [invoked, stack, activations_scope]
  rfl

theorem getElem?_of_drop {block rest : List Instruction} {position : Nat} {code : Instruction}
    (dropped : block.drop position = code :: rest) : block[position]? = some code := by
  rw [← Nat.add_zero position, ← List.getElem?_drop, dropped]
  rfl

theorem drop_of_drop {block rest : List Instruction} {position : Nat} {code : Instruction}
    (dropped : block.drop position = code :: rest) : block.drop (position + 1) = rest := by
  rw [← List.tail_drop, dropped, List.tail_cons]


/-- What holds of a moment holds of those that it starts. -/
theorem Starts.sound {program : Program} {moment next : Moment}
    (started : Starts program moment next) (sound : moment.Sound program) :
    next.Sound program := by
  cases started with
  | body entered =>
      obtain ⟨values, entries, laid, marked, depth, limit⟩ := sound
      exact ⟨[], _, Running.of_enter laid marked depth entered, rfl⟩
  | first =>
      obtain ⟨kinds, block, running, dropped⟩ := sound
      exact ⟨kinds, block, running, getElem?_of_drop dropped⟩
  | next ended =>
      obtain ⟨kinds, block, running, dropped⟩ := sound
      exact ⟨kinds, block, running.next ended, drop_of_drop dropped⟩
  | labelledFirst =>
      obtain ⟨kinds, running, dropped⟩ := sound
      exact ⟨_, _, running, getElem?_of_drop dropped⟩
  | labelledNext ended =>
      obtain ⟨kinds, running, dropped⟩ := sound
      exact ⟨kinds, running.next ended, drop_of_drop dropped⟩
  | restart ended top =>
      obtain ⟨kinds, running, -⟩ := sound
      exact ⟨kinds, running.restart ended, rfl⟩
  | inside =>
      obtain ⟨kinds, block, running, here⟩ := sound
      exact ⟨kinds, running.inside here, rfl⟩
  | callee =>
      obtain ⟨-, -, ⟨-, -, ⟨workspace, context, below, laid, -⟩, depth, limit⟩, -⟩ := sound
      exact ⟨workspace.values, _, laid, markers_markerLed _ _ _, depth, limit⟩

/-- What holds when a run starts holds in all its moments. -/
theorem Reaches.sound {program : Program} {moment next : Moment}
    (reached : Reaches program moment next) (sound : moment.Sound program) :
    next.Sound program := by
  induction reached with
  | refl => exact sound
  | tail _ started ih => exact started.sound ih

end Moment

end Execution

namespace RuntimeError

/-- Whether an error says that the stack has lost its shape. -/
def isInternal : RuntimeError → Bool
  | corruptStack _ | invalidLabel _ => true
  | _ => false

/-- Whether a result is a value or an error of the program itself. -/
def Regular {α : Type} (result : Except RuntimeError α) : Prop :=
  ∀ error, result = .error error → error.isInternal = false

end RuntimeError

namespace Program

open RuntimeError

/-- Neither what calls meet nor an instruction as it is written is an error
about the shape of the stack. -/
theorem admits_regular (program : Program) :
    program.Admits fun error => error.isInternal = false where
  situational error situational := by
    cases error <;> cases situational <;> rfl
  bodies index function defined opcode operand span error occurs complaint := by
    cases complaint <;> rfl

/-- A call from outside never ends with an error about the shape of the
stack. -/
theorem invoke_regular {program : Program} {fuel index : Nat} {arguments : List Int32}
    {machine after : Machine} {outcome : Except RuntimeError (List Int32)}
    (ended : program.invoke fuel index arguments machine = some (outcome, after)) :
    Regular outcome :=
  invoke_failsOnlyWith (admits_regular program) ended

/-- Whenever a call from outside comes to an instruction, the stack has the
shape that the place of the instruction in its function calls for.  So no such
call ends with an error about the shape of the stack. -/
theorem stackShape (module : Module) (maxCallDepth fuel index : Nat) (arguments : List Int32) :
    (∀ rest site position code machine,
      Execution.Moment.Reaches (ofModule module maxCallDepth) (.invoked fuel index arguments)
        ⟨rest, .instruction site position code, machine⟩ →
      ∃ kinds block, Instruction.block? site.function.body site.path = some (kinds, block) ∧
        block[position]? = some code ∧
        Execution.Shaped (ofModule module maxCallDepth) site kinds machine) ∧
    ∀ before error after,
      (ofModule module maxCallDepth).invoke fuel index arguments before =
        some (.error error, after) →
      (∀ fault, error ≠ .corruptStack fault) ∧ ∀ depth, error ≠ .invalidLabel depth := by
  constructor
  · intro rest site position code machine reached
    obtain ⟨kinds, block, running, here⟩ :=
      Execution.Moment.Reaches.sound reached (Execution.Moment.sound_invoked _ _ _ _)
    exact ⟨kinds, block, running.found, here, running.shaped⟩
  · intro before error after ended
    have regular := invoke_regular ended error rfl
    constructor <;> rintro _ rfl <;> cases regular

/-- A function that never leaves the loop inside its block. -/
def endlessLoop : FunctionDefinition where
  index := 0
  typeIndex := 0
  frame := .ofParams [] []
  body := [.structured .block none
    [.structured .loop none [.plain .br (some (.index 0)) .origin] .origin] .origin]

theorem stackShape_endlessLoop : ∃ machine,
    Execution.Moment.Reaches (ofModule ⟨none, [.function endlessLoop], .empty⟩ 1)
      (.invoked 6 0 [])
      ⟨0, .instruction ⟨endlessLoop, 0, [0, 0]⟩ 0 (.plain .br (some (.index 0)) .origin),
        machine⟩ ∧
    machine.stack.labelsFrom 0 = [.start .block, .start .loop] := by
  have reached : Execution.Moment.Reaches (ofModule ⟨none, [.function endlessLoop], .empty⟩ 1)
      (.invoked 6 0 [])
      ⟨0, .instruction ⟨endlessLoop, 0, [0, 0]⟩ 0 (.plain .br (some (.index 0)) .origin),
        ⟨.ofEntries [.label (.start .loop), .label (.start .block),
          .activation (.ofParams [] [])], 1⟩⟩ :=
    .head (.body rfl) (.head .first (.head .inside (.head .labelledFirst
      (.head .inside (.head .labelledFirst .refl)))))
  obtain ⟨kinds, block, found, -, shaped⟩ := (stackShape _ 1 6 0 []).1 _ _ _ _ _ reached
  cases found
  exact ⟨_, reached, shaped.labels⟩

end Program

end WatMachine
