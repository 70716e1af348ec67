import Mathlib.Data.Int.ModEq
import WatMachine.Proofs.Machine.Evaluation

/-!
# What instructions mean

The rules of the instructions that act on variables and numbers, stated apart
from how evaluation carries them out.  Numbers of 32 bits are integers here:
sums and differences are taken modulo `2 ^ 32`, and a comparison is one of
signed integers or of their residues.  A variable is changed by saying what all
variables hold afterwards.
-/

namespace WatMachine

namespace Frame

/-- Whether two frames differ in the values of their variables alone, each of
which depends on the number of the variable and on the value that it had. -/
structure Revalued (before : Frame) (value : Nat → Int32 → Int32) (after : Frame) : Prop where
  argumentCount : after.argumentCount = before.argumentCount
  results : after.results = before.results
  locals : ∀ place : Nat, after.locals[place]? =
    before.locals[place]?.map fun slot => { slot with value := value place slot.value }

/-- The variable of an index holds a number, and all others what they held
before. -/
structure Assigned (before : Frame) (index : Nat) (number : Int32) (after : Frame) : Prop where
  inside : index < before.locals.length
  revalued : before.Revalued (fun place held => if place = index then number else held) after

/-- The first variables hold the arguments of a call, given with the topmost of
them first, and all others what they held before. -/
def Binds (before : Frame) (arguments : List Int32) (after : Frame) : Prop :=
  before.Revalued (fun place held => arguments[place]?.getD held) after

theorem Revalued.unique {before after other : Frame} {value : Nat → Int32 → Int32}
    (revalued : before.Revalued value after) (also : before.Revalued value other) :
    after = other := by
  obtain ⟨locals, argumentCount, results⟩ := after
  obtain ⟨others, otherCount, otherResults⟩ := other
  have sameLocals : locals = others :=
    List.ext_getElem? fun place => (revalued.locals place).trans (also.locals place).symm
  have sameCount : argumentCount = otherCount :=
    revalued.argumentCount.trans also.argumentCount.symm
  have sameResults : results = otherResults := revalued.results.trans also.results.symm
  rw [sameLocals, sameCount, sameResults]

/-- To store a number is to assign it. -/
theorem set?_eq_some {frame changed : Frame} {index : Nat} {number : Int32} :
    frame.set? index number = some changed ↔ frame.Assigned index number changed := by
  have assigned (inside : index < frame.locals.length) :
      frame.Assigned index number { frame with
        locals := frame.locals.modify index fun slot => { slot with value := number } } := by
    refine ⟨inside, rfl, rfl, fun place => ?_⟩
    rw [List.getElem?_modify]
    by_cases same : place = index
    · simp [same]
    · simp [same, Ne.symm same]
  unfold set?
  split
  · rename_i inside
    constructor
    · rintro ⟨⟩
      exact assigned inside
    · intro also
      rw [(assigned inside).revalued.unique also.revalued]
  · rename_i outside
    exact ⟨nofun, fun also => absurd also.inside outside⟩

theorem getElem?_storeFirst (slots : List LocalVariable) (values : List Int32) (place : Nat) :
    (storeFirst slots values)[place]? =
      slots[place]?.map fun slot => { slot with value := values[place]?.getD slot.value } := by
  induction slots generalizing values place with
  | nil => simp [storeFirst]
  | cons slot slots ih =>
      cases values with
      | nil => simp [storeFirst]
      | cons value values =>
          cases place with
          | zero => simp [storeFirst]
          | succ place => simpa [storeFirst] using ih values place

/-- The first variable of a call is the argument that was pushed last. -/
theorem withArguments_eq {frame changed : Frame} {arguments : List Int32} :
    frame.withArguments arguments = changed ↔ frame.Binds arguments.reverse changed := by
  have binds : frame.Binds arguments.reverse (frame.withArguments arguments) :=
    ⟨rfl, rfl, getElem?_storeFirst frame.locals arguments.reverse⟩
  constructor
  · rintro rfl
    exact binds
  · exact binds.unique

end Frame

/-- A word of 32 bits is the one that is congruent to a number. -/
theorem eq_ofInt_iff_modEq {word : Int32} {value : Int} :
    word = Int32.ofInt value ↔ word.toInt ≡ value [ZMOD 2 ^ 32] := by
  have cut : (Int32.ofInt value).toInt = value.bmod (2 ^ 32) := Int32.toInt_ofInt
  have kept : word.toInt.bmod (2 ^ 32) = word.toInt := by
    have same : (Int32.ofInt word.toInt).toInt = word.toInt.bmod (2 ^ 32) := Int32.toInt_ofInt
    rw [← same, Int32.ofInt_toInt]
  constructor
  · rintro rfl
    rw [cut]
    exact Int.bmod_emod
  · intro congruent
    rw [← Int32.toInt_inj, cut, ← kept]
    calc
      word.toInt.bmod (2 ^ 32) = (word.toInt % (2 ^ 32 : Nat)).bmod (2 ^ 32) :=
        (Int.emod_bmod _ _).symm
      _ = (value % (2 ^ 32 : Nat)).bmod (2 ^ 32) := congrArg (Int.bmod · (2 ^ 32)) congruent
      _ = value.bmod (2 ^ 32) := Int.emod_bmod _ _

/-- What a number is without a sign. -/
def unsigned (number : Int32) : Nat :=
  (number.toInt % 2 ^ 32).toNat

theorem unsigned_eq (number : Int32) : unsigned number = number.toUInt32.toNat := by
  change _ = number.toBitVec.toNat
  have cut : (BitVec.ofInt 32 number.toInt).toNat = (number.toInt % 2 ^ 32).toNat :=
    BitVec.toNat_ofInt number.toInt
  have kept : BitVec.ofInt 32 number.toInt = number.toBitVec := BitVec.ofInt_toInt
  rw [unsigned, ← cut, kept]

/-- A number that tells whether a condition holds. -/
inductive Tells (condition : Prop) : Int32 → Prop where
  | yes (holds : condition) : Tells condition 1
  | no (fails : ¬ condition) : Tells condition 0

/-- What an instruction makes of two numbers, the second of which was pushed
last. -/
inductive Computes (first second result : Int32) : Keyword → Prop where
  | add (sum : result.toInt ≡ first.toInt + second.toInt [ZMOD 2 ^ 32]) :
      Computes first second result .i32Add
  | sub (difference : result.toInt ≡ first.toInt - second.toInt [ZMOD 2 ^ 32]) :
      Computes first second result .i32Sub
  | and (bits : ∀ place, (unsigned result).testBit place =
      ((unsigned first).testBit place && (unsigned second).testBit place)) :
      Computes first second result .i32And
  | or (bits : ∀ place, (unsigned result).testBit place =
      ((unsigned first).testBit place || (unsigned second).testBit place)) :
      Computes first second result .i32Or
  | equal (told : Tells (first.toInt = second.toInt) result) : Computes first second result .i32Eq
  | less (told : Tells (first.toInt < second.toInt) result) : Computes first second result .i32LtS
  | greater (told : Tells (unsigned second < unsigned first) result) :
      Computes first second result .i32GtU
  | atLeast (told : Tells (second.toInt ≤ first.toInt) result) :
      Computes first second result .i32GeS

namespace Operation

variable {first second result : Int32}

section Numbers

theorem add_eq_iff :
    first + second = result ↔ result.toInt ≡ first.toInt + second.toInt [ZMOD 2 ^ 32] := by
  rw [← eq_ofInt_iff_modEq, Int32.ofInt_add, Int32.ofInt_toInt, Int32.ofInt_toInt, eq_comm]

theorem sub_eq_iff :
    first - second = result ↔ result.toInt ≡ first.toInt - second.toInt [ZMOD 2 ^ 32] := by
  rw [← eq_ofInt_iff_modEq, Int32.ofInt_sub, Int32.ofInt_toInt, Int32.ofInt_toInt, eq_comm]

theorem unsigned_lt_iff : unsigned first < unsigned second ↔ first.toUInt32 < second.toUInt32 := by
  rw [unsigned_eq, unsigned_eq, UInt32.lt_iff_toNat_lt]

/-- Numbers are equal if all their bits are. -/
theorem eq_iff_testBit :
    first = second ↔ ∀ place, (unsigned first).testBit place = (unsigned second).testBit place := by
  constructor
  · rintro rfl place
    rfl
  · intro bits
    have same := Nat.eq_of_testBit_eq bits
    rw [unsigned_eq, unsigned_eq, UInt32.toNat_inj] at same
    exact congrArg Int32.ofUInt32 same

theorem and_eq_iff :
    first &&& second = result ↔ ∀ place, (unsigned result).testBit place =
      ((unsigned first).testBit place && (unsigned second).testBit place) := by
  rw [eq_comm, eq_iff_testBit]
  simp only [unsigned_eq, Int32.toUInt32_and, UInt32.toNat_and, Nat.testBit_and]

theorem or_eq_iff :
    first ||| second = result ↔ ∀ place, (unsigned result).testBit place =
      ((unsigned first).testBit place || (unsigned second).testBit place) := by
  rw [eq_comm, eq_iff_testBit]
  simp only [unsigned_eq, Int32.toUInt32_or, UInt32.toNat_or, Nat.testBit_or]

theorem truth_eq_iff {condition : Prop} {decision : Bool} (decides : decision = true ↔ condition) :
    truth decision = result ↔ Tells condition result := by
  constructor
  · rintro rfl
    cases decision with
    | false => exact .no fun holds => Bool.false_ne_true (decides.mpr holds)
    | true => exact .yes (decides.mp rfl)
  · rintro (holds | fails)
    · rw [decides.mpr holds]
      rfl
    · rw [Bool.eq_false_iff.mpr (mt decides.mp fails)]
      rfl

theorem isZero_eq_iff {number : Int32} :
    truth (number == 0) = result ↔ Tells (number.toInt = 0) result :=
  truth_eq_iff (beq_iff_eq.trans (@Int32.toInt_inj number 0).symm)

end Numbers

/-- The instructions that combine two numbers are those that mean something for
two numbers, and give what they mean. -/
theorem computes_iff {opcode : Keyword} :
    Computes first second result opcode ↔
      ∃ operation, binary? opcode = some operation ∧ operation first second = result := by
  have equal : truth (first == second) = result ↔ Tells (first.toInt = second.toInt) result :=
    truth_eq_iff (beq_iff_eq.trans Int32.toInt_inj.symm)
  have less : truth (decide (first < second)) = result ↔
      Tells (first.toInt < second.toInt) result :=
    truth_eq_iff (decide_eq_true_iff.trans Int32.lt_iff_toInt_lt)
  have greater : truth (decide (second.toUInt32 < first.toUInt32)) = result ↔
      Tells (unsigned second < unsigned first) result :=
    truth_eq_iff (decide_eq_true_iff.trans unsigned_lt_iff.symm)
  have atLeast : truth (decide (second ≤ first)) = result ↔
      Tells (second.toInt ≤ first.toInt) result :=
    truth_eq_iff (decide_eq_true_iff.trans Int32.le_iff_toInt_le)
  constructor
  · rintro (sum | difference | bits | bits | told | told | told | told)
    · exact ⟨_, rfl, add_eq_iff.mpr sum⟩
    · exact ⟨_, rfl, sub_eq_iff.mpr difference⟩
    · exact ⟨_, rfl, and_eq_iff.mpr bits⟩
    · exact ⟨_, rfl, or_eq_iff.mpr bits⟩
    · exact ⟨_, rfl, equal.mpr told⟩
    · exact ⟨_, rfl, less.mpr told⟩
    · exact ⟨_, rfl, greater.mpr told⟩
    · exact ⟨_, rfl, atLeast.mpr told⟩
  · rintro ⟨operation, combines, computed⟩
    unfold binary? at combines
    split at combines <;> cases combines
    · exact .add (add_eq_iff.mp computed)
    · exact .sub (sub_eq_iff.mp computed)
    · exact .and (and_eq_iff.mp computed)
    · exact .or (or_eq_iff.mp computed)
    · exact .equal (equal.mp computed)
    · exact .less (less.mp computed)
    · exact .greater (greater.mp computed)
    · exact .atLeast (atLeast.mp computed)

end Operation

/-- A call gives back as many of its topmost values as it has results. -/
inductive GivesBack {nesting : Nat} : Workspace → Completion nesting → Prop where
  | mk {frame : Frame} {results others : List Int32} (count : results.length = frame.resultCount) :
      GivesBack ⟨frame, results ++ others⟩ (.returned results)

/-- A branch goes to one of the enclosing blocks, or returns from the call. -/
inductive Branches {nesting : Nat} : Workspace → Nat → Completion nesting → Prop where
  | block {workspace : Workspace} {depth : Nat} (inside : depth < nesting) :
      Branches workspace depth (.branch ⟨depth, inside⟩ workspace)
  | call {workspace : Workspace} {depth : Nat} {completion : Completion nesting}
      (outside : nesting ≤ depth) (gives : GivesBack workspace completion) :
      Branches workspace depth completion

/-- What the instructions mean that are neither a call, nor a block or loop. -/
inductive Performs {nesting : Nat} :
    Workspace → Keyword → Option Operand → Completion nesting → Prop where
  | get {frame : Frame} {values : List Int32} {index : Nat} {slot : LocalVariable}
      (found : frame.locals[index]? = some slot) :
      Performs ⟨frame, values⟩ .localGet (some (.index index))
        (.normal ⟨frame, slot.value :: values⟩)
  | set {frame changed : Frame} {values : List Int32} {index : Nat} {number : Int32}
      (assigned : frame.Assigned index number changed) :
      Performs ⟨frame, number :: values⟩ .localSet (some (.index index))
        (.normal ⟨changed, values⟩)
  | tee {frame changed : Frame} {values : List Int32} {index : Nat} {number : Int32}
      (assigned : frame.Assigned index number changed) :
      Performs ⟨frame, number :: values⟩ .localTee (some (.index index))
        (.normal ⟨changed, number :: values⟩)
  | constant {frame : Frame} {values : List Int32} {value : Int} {number : Int32}
      (congruent : number.toInt ≡ value [ZMOD 2 ^ 32]) :
      Performs ⟨frame, values⟩ .i32Const (some (.literal value))
        (.normal ⟨frame, number :: values⟩)
  | isZero {frame : Frame} {values : List Int32} {operand : Option Operand}
      {number result : Int32} (told : Tells (number.toInt = 0) result) :
      Performs ⟨frame, number :: values⟩ .i32Eqz operand (.normal ⟨frame, result :: values⟩)
  | combine {frame : Frame} {values : List Int32} {opcode : Keyword} {operand : Option Operand}
      {first second result : Int32} (computes : Computes first second result opcode) :
      Performs ⟨frame, second :: first :: values⟩ opcode operand
        (.normal ⟨frame, result :: values⟩)
  | drop {frame : Frame} {values : List Int32} {operand : Option Operand} {number : Int32} :
      Performs ⟨frame, number :: values⟩ .drop operand (.normal ⟨frame, values⟩)
  | nothing {workspace : Workspace} {operand : Option Operand} :
      Performs workspace .nop operand (.normal workspace)
  | branch {workspace : Workspace} {depth : Nat} {completion : Completion nesting}
      (branches : Branches workspace depth completion) :
      Performs workspace .br (some (.index depth)) completion
  | branchIf {frame : Frame} {values : List Int32} {depth : Nat} {number : Int32}
      {completion : Completion nesting} (holds : number ≠ 0)
      (branches : Branches ⟨frame, values⟩ depth completion) :
      Performs ⟨frame, number :: values⟩ .brIf (some (.index depth)) completion
  | stay {frame : Frame} {values : List Int32} {depth : Nat} :
      Performs ⟨frame, 0 :: values⟩ .brIf (some (.index depth)) (.normal ⟨frame, values⟩)
  | giveBack {workspace : Workspace} {operand : Option Operand} {completion : Completion nesting}
      (gives : GivesBack workspace completion) :
      Performs workspace .functionReturn operand completion

namespace Workspace

variable {nesting : Nat} {workspace : Workspace} {completion : Completion nesting}

theorem pop_eq_ok {number : Int32} {below : Workspace} :
    workspace.pop = .ok (number, below) ↔ workspace = below.push number := by
  obtain ⟨frame, _ | ⟨value, values⟩⟩ := workspace
  · simp [pop, push]
  · constructor
    · rintro ⟨⟩
      rfl
    · obtain ⟨other, others⟩ := below
      rintro ⟨⟩
      rfl

theorem store_eq_ok {index : Nat} {number : Int32} {after : Workspace} :
    workspace.store index number = .ok after ↔
      workspace.frame.Assigned index number after.frame ∧ after.values = workspace.values := by
  rw [← Frame.set?_eq_some]
  unfold store
  cases workspace.frame.set? index number with
  | none => simp
  | some changed =>
      obtain ⟨frame, values⟩ := after
      simp [eq_comm]

theorem giveBack_eq_ok : workspace.giveBack = .ok completion ↔ GivesBack workspace completion := by
  obtain ⟨frame, values⟩ := workspace
  simp only [giveBack, bind_eq_ok, Prod.exists, split_eq_ok]
  constructor
  · rintro ⟨results, others, ⟨rfl, count⟩, ⟨⟩⟩
    exact .mk count
  · rintro ⟨count⟩
    exact ⟨_, _, ⟨rfl, count⟩, rfl⟩

theorem branch_eq_ok {depth : Nat} :
    workspace.branch depth = .ok completion ↔ Branches workspace depth completion := by
  unfold branch
  split
  · rename_i inside
    constructor
    · rintro ⟨⟩
      exact .block inside
    · rintro (_ | ⟨outside, _⟩)
      · rfl
      · omega
  · rename_i outside
    rw [giveBack_eq_ok]
    constructor
    · exact .call (Nat.not_lt.mp outside)
    · rintro (inside | ⟨_, gives⟩)
      · exact absurd inside outside
      · exact gives

theorem indexOperand_eq_ok {opcode : Keyword} {operand : Option Operand} {index : Nat} :
    indexOperand opcode operand = .ok index ↔ operand = some (.index index) := by
  obtain _ | (value | value) := operand <;> simp [indexOperand]

theorem literalOperand_eq_ok {opcode : Keyword} {operand : Option Operand} {number : Int32} :
    literalOperand opcode operand = .ok number ↔
      ∃ value, operand = some (.literal value) ∧ number.toInt ≡ value [ZMOD 2 ^ 32] := by
  simp only [← eq_ofInt_iff_modEq]
  obtain _ | (value | value) := operand <;> simp [literalOperand, eq_comm]

section Instructions

variable {opcode : Keyword} {operand : Option Operand}

theorem performs_of_perform (performed : workspace.perform opcode operand = .ok completion) :
    Performs workspace opcode operand completion := by
  -- The cases are the instructions in the order in which `perform` lists them.
  unfold perform at performed
  split at performed
  · simp only [bind_eq_ok, indexOperand_eq_ok] at performed
    obtain ⟨index, rfl, performed⟩ := performed
    cases found : workspace.frame.locals[index]? with
    | none => simp [Frame.get?, found, throw, throwThe, MonadExceptOf.throw] at performed
    | some slot =>
        simp only [Frame.get?, found, Option.map_some] at performed
        cases performed
        exact .get found
  · simp only [bind_eq_ok, indexOperand_eq_ok, Prod.exists, pop_eq_ok, store_eq_ok] at performed
    obtain ⟨index, rfl, number, ⟨frame, values⟩, rfl, ⟨changed, _⟩, ⟨assigned, rfl⟩, ⟨⟩⟩ :=
      performed
    exact .set assigned
  · simp only [bind_eq_ok, indexOperand_eq_ok, Prod.exists, pop_eq_ok, store_eq_ok] at performed
    obtain ⟨index, rfl, number, ⟨frame, values⟩, rfl, ⟨changed, _⟩, ⟨assigned, rfl⟩, ⟨⟩⟩ :=
      performed
    exact .tee assigned
  · simp only [bind_eq_ok, literalOperand_eq_ok] at performed
    obtain ⟨number, ⟨value, rfl, congruent⟩, ⟨⟩⟩ := performed
    exact .constant congruent
  · simp only [bind_eq_ok, Prod.exists, pop_eq_ok] at performed
    obtain ⟨number, ⟨frame, values⟩, rfl, ⟨⟩⟩ := performed
    exact .isZero (Operation.isZero_eq_iff.mp rfl)
  · simp only [bind_eq_ok, Prod.exists, pop_eq_ok] at performed
    obtain ⟨number, ⟨frame, values⟩, rfl, ⟨⟩⟩ := performed
    exact .drop
  · cases performed
    exact .nothing
  · simp only [bind_eq_ok, indexOperand_eq_ok, branch_eq_ok] at performed
    obtain ⟨depth, rfl, branches⟩ := performed
    exact .branch branches
  · simp only [bind_eq_ok, indexOperand_eq_ok, Prod.exists, pop_eq_ok] at performed
    obtain ⟨depth, rfl, number, ⟨frame, values⟩, rfl, performed⟩ := performed
    split at performed
    · rename_i isZero
      cases performed
      rw [isZero]
      exact .stay
    · rename_i holds
      exact .branchIf holds (branch_eq_ok.mp performed)
  · exact .giveBack (giveBack_eq_ok.mp performed)
  · split at performed
    · rename_i operation combines
      simp only [bind_eq_ok, Prod.exists, pop_eq_ok] at performed
      obtain ⟨second, _, rfl, first, ⟨frame, values⟩, shape, ⟨⟩⟩ := performed
      cases shape
      exact .combine (Operation.computes_iff.mpr ⟨operation, combines, rfl⟩)
    · cases performed

theorem perform_of_performs (performs : Performs workspace opcode operand completion) :
    workspace.perform opcode operand = .ok completion := by
  cases performs with
  | @get frame _ index slot found =>
      have held : frame.get? index = some slot.value := by rw [Frame.get?, found, Option.map_some]
      refine bind_eq_ok.mpr ⟨index, rfl, ?_⟩
      simp only [held]
      rfl
  | set assigned =>
      exact bind_eq_ok.mpr ⟨_, rfl, bind_eq_ok.mpr ⟨_, rfl,
        bind_eq_ok.mpr ⟨⟨_, _⟩, store_eq_ok.mpr ⟨assigned, rfl⟩, rfl⟩⟩⟩
  | tee assigned =>
      exact bind_eq_ok.mpr ⟨_, rfl, bind_eq_ok.mpr ⟨_, rfl,
        bind_eq_ok.mpr ⟨⟨_, _⟩, store_eq_ok.mpr ⟨assigned, rfl⟩, rfl⟩⟩⟩
  | constant congruent =>
      exact bind_eq_ok.mpr ⟨_, literalOperand_eq_ok.mpr ⟨_, rfl, congruent⟩, rfl⟩
  | isZero told =>
      rw [← Operation.isZero_eq_iff.mpr told]
      rfl
  | combine computes =>
      obtain ⟨operation, combines, rfl⟩ := Operation.computes_iff.mp computes
      cases computes <;> cases combines <;> rfl
  | drop => rfl
  | nothing => rfl
  | branch branches => exact bind_eq_ok.mpr ⟨_, rfl, branch_eq_ok.mpr branches⟩
  | branchIf holds branches =>
      exact bind_eq_ok.mpr ⟨_, rfl, bind_eq_ok.mpr ⟨_, rfl,
        (if_neg holds).trans (branch_eq_ok.mpr branches)⟩⟩
  | stay => rfl
  | giveBack gives => exact giveBack_eq_ok.mpr gives

/-- Evaluation carries out exactly what the instructions mean. -/
theorem perform_eq_ok :
    workspace.perform opcode operand = .ok completion ↔
      Performs workspace opcode operand completion :=
  ⟨performs_of_perform, perform_of_performs⟩

end Instructions

end Workspace

namespace Evaluation

/-- A call starts below the limit, of a function that the program defines, with
its arguments bound to the first variables. -/
theorem enter_eq_ok {program : Program} {depth index : Nat} {values below : List Int32}
    {function : FunctionDefinition} {frame : Frame} :
    enter program depth index values = .ok (function, frame, below) ↔
      depth < program.maxCallDepth ∧ program.definition index = .ok function ∧
        ∃ arguments, values = arguments ++ below ∧
          arguments.length = function.frame.argumentCount ∧
          function.frame.Binds arguments frame := by
  have bound {arguments : List Int32} :
      function.frame.withArguments arguments.reverse = frame ↔
        function.frame.Binds arguments frame := by
    rw [Frame.withArguments_eq, List.reverse_reverse]
  constructor
  · intro entered
    obtain ⟨below, defined, arguments, shape, counted, same⟩ := exists_arguments_of_enter entered
    exact ⟨below, defined, arguments, shape, counted, bound.mp same.symm⟩
  · rintro ⟨allowed, defined, arguments, rfl, counted, binds⟩
    rw [enter, if_neg (Nat.not_le.mpr allowed), defined, ← bound.mpr binds]
    exact Workspace.bind_eq_ok.mpr ⟨function, rfl, Workspace.bind_eq_ok.mpr
      ⟨_, Workspace.split_eq_ok.mpr ⟨rfl, counted⟩, rfl⟩⟩

end Evaluation

end WatMachine
