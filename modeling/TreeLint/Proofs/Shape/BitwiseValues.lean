import Mathlib.Data.Int.ModEq
import TreeLint.Outline.Builder
import TreeLint.Proofs.Fix.Replacements

/-! What is left of a pointless bitwise expression has its value. Constants are compared in the
type of the expression, the operands may be wider. Main result: whatever the operands are, as long
as they agree with what the host folded them to, the residue and the expression have the same low
bits, as many as the type has.
-/

namespace TreeLint

-----------------------------------------------------------------------------------------
-- The bits of whole numbers
-----------------------------------------------------------------------------------------

/-- Numbers have the same low bits exactly if they are congruent. -/
theorem ofInt_eq_iff {width : Nat} {left right : Int}
    : BitVec.ofInt width left = BitVec.ofInt width right ↔ left ≡ right [ZMOD 2 ^ width] := by
  have positive : (0 : Int) < 2 ^ width := Int.pow_pos (by decide)
  have leftRest := Int.emod_nonneg left positive.ne'
  have rightRest := Int.emod_nonneg right positive.ne'
  rw [← BitVec.toNat_inj, BitVec.toNat_ofInt, BitVec.toNat_ofInt, Int.ModEq]
  push_cast
  omega

/-- The low bits of some low bits are the low bits. -/
theorem setWidth_ofInt {width wider : Nat} (fits : width ≤ wider) (value : Int)
    : (BitVec.ofInt wider value).setWidth width = BitVec.ofInt width value := by
  have divides : ((2 ^ width : Nat) : Int) ∣ ((2 ^ wider : Nat) : Int) :=
    Int.natCast_dvd_natCast.mpr (Nat.pow_dvd_pow 2 fits)
  have positive : (0 : Int) < ((2 ^ wider : Nat) : Int) := by exact_mod_cast Nat.two_pow_pos wider
  rw [← BitVec.toInt_inj, BitVec.toInt_setWidth, BitVec.toInt_ofInt, BitVec.toNat_ofInt,
    Int.toNat_of_nonneg (Int.emod_nonneg _ positive.ne'), ← Int.emod_bmod,
    Int.emod_emod_of_dvd _ divides, Int.emod_bmod]

/-- A number made of bits has the low ones of them. -/
theorem ofInt_toInt_setWidth {width wider : Nat} (fits : width ≤ wider) (bits : BitVec wider)
    : BitVec.ofInt width bits.toInt = bits.setWidth width := by
  rw [← setWidth_ofInt fits, BitVec.ofInt_toInt]

/-- The complement of a number has the complement of its bits. -/
theorem ofInt_complement {width : Nat} (value : Int)
    : BitVec.ofInt width (-value - 1) = ~~~BitVec.ofInt width value := by
  rw [BitVec.not_eq_neg_add, Int.sub_eq_add_neg, BitVec.ofInt_add, BitVec.ofInt_neg,
    BitVec.ofInt_neg, BitVec.sub_eq_add_neg]
  rfl

-----------------------------------------------------------------------------------------
-- Folded numbers
-----------------------------------------------------------------------------------------

namespace Constant

/-- A constant is the number that the bits make which its type keeps. -/
theorem ofInt_value (type : IntegralType) (folded : Int)
    : (ofInt type folded).value
      = if type.isSigned then (BitVec.ofInt type.width folded).toInt
        else ((BitVec.ofInt type.width folded).toNat : Int) := by
  have positive : (0 : Int) < ((2 ^ type.width : Nat) : Int) := by
    exact_mod_cast Nat.two_pow_pos type.width
  rw [BitVec.toInt_ofInt, BitVec.toNat_ofInt,
    Int.toNat_of_nonneg (Int.emod_nonneg _ positive.ne')]
  rfl

/-- A constant is zero exactly if the bits that its type keeps of the folded number are. -/
theorem isZero_ofInt {type : IntegralType} {folded : Int}
    : (ofInt type folded).isZero = true ↔ BitVec.ofInt type.width folded = .ofNat type.width 0 := by
  rw [isZero, beq_iff_eq, ofInt_value]
  split
  · rw [← BitVec.toInt_inj, BitVec.toInt_zero]
  · rw [← BitVec.toNat_inj, BitVec.toNat_ofNat, Nat.zero_mod]
    exact Int.natCast_eq_zero

/-- A constant is all ones exactly if its type keeps only set bits of the folded number. -/
theorem isAllOnes_ofInt {type : IntegralType} {folded : Int}
    : (ofInt type folded).isAllOnes = true
      ↔ BitVec.ofInt type.width folded = BitVec.allOnes type.width := by
  have sized : 0 < type.width := by cases type <;> decide
  rw [isAllOnes, beq_iff_eq, ofInt_value]
  change _ = (if type.isSigned then -1 else Int.pow 2 type.width - 1) ↔ _
  split
  · rw [← BitVec.toInt_inj, BitVec.toInt_allOnes, if_pos sized]
  · have natural : Int.pow 2 type.width = ((2 ^ type.width : Nat) : Int) := by
      cases type <;> rfl
    have positive := Nat.two_pow_pos type.width
    rw [← BitVec.toNat_inj, BitVec.toNat_allOnes, natural]
    omega

end Constant

namespace Subtree

/-- The number that the host folded an expression to. Parentheses without a number of their own
have that of the expression inside.
-/
def folded? : Subtree → Option Int64
  | .mk _ content (inner :: _) =>
      if content.kind = .parenthesizedExpression ∧ content.facts.constant = none then
        inner.folded?
      else
        content.facts.constant
  | .mk _ content [] => content.facts.constant

/-- A constant is the folded number cast to the type, by induction on the parentheses. -/
theorem constantAs?_eq (typeName : String) (node : Subtree)
    : node.constantAs? typeName = node.folded?.bind (Constant.cast? · typeName) := by
  fun_induction folded? node with
  | case1 id content inner rest bare ih => rw [constantAs?, if_pos bare, ih]
  | case2 id content inner rest own => rw [constantAs?, if_neg own]
  | case3 id content => rw [constantAs?]

end Subtree

-----------------------------------------------------------------------------------------
-- Values of expressions
-----------------------------------------------------------------------------------------

namespace IntegralType

/-- How many bits of a distance count when a number of a promoted type is shifted. -/
def distanceBits : IntegralType → Nat
  | .long => 6
  | _ => 5

/-- No type is so narrow that it does not keep all bits of a distance. -/
theorem distanceBits_le (promoted type : IntegralType) : promoted.distanceBits ≤ type.width := by
  cases promoted <;> cases type <;> decide

end IntegralType

/-- The value of a bitwise expression from the bits of its operands and the distance of a shift. -/
def Operator.evaluate? {width : Nat} (left right : BitVec width) (distance : Nat)
    : Operator → Option (BitVec width)
  | .and => some (left &&& right)
  | .or => some (left ||| right)
  | .xor => some (left ^^^ right)
  | .shiftLeft => some (left <<< distance)
  | .shiftRight => some (left.sshiftRight distance)
  | .shiftRightUnsigned => some (left >>> distance)
  | _ => none

namespace Operator

variable {operator : Operator}

/-- A shift that goes no distance leaves the number. -/
theorem evaluate?_noDistance (isShift : operator.isShift = true) {width : Nat}
    (left right : BitVec width)
    : operator.evaluate? left right 0 = some left := by
  cases operator with
  | shiftLeft => exact congrArg some (BitVec.shiftLeft_zero left)
  | shiftRight => exact congrArg some BitVec.sshiftRight_zero
  | shiftRightUnsigned => exact congrArg some (BitVec.ushiftRight_zero left)
  | _ => exact absurd isShift (by decide)

/-- An operator that does not shift works bit by bit: it makes the low bits from the low bits. -/
theorem evaluate?_setWidth (noShift : operator.isShift = false) {wider : Nat} (width : Nat)
    (left right : BitVec wider) (distance : Nat)
    : (operator.evaluate? left right distance).map (·.setWidth width)
      = operator.evaluate? (left.setWidth width) (right.setWidth width) distance := by
  cases operator with
  | and => exact congrArg some BitVec.setWidth_and
  | or => exact congrArg some BitVec.setWidth_or
  | xor => exact congrArg some BitVec.setWidth_xor
  | shiftLeft | shiftRight | shiftRightUnsigned => exact absurd noShift (by decide)
  | _ => rfl

end Operator

/-- The value of a bitwise expression whose operands are promoted to a type before. -/
def IntegralType.evaluate? (promoted : IntegralType) (operator : Operator) (left right : Int)
    : Option (BitVec promoted.width) :=
  operator.evaluate? (.ofInt promoted.width left) (.ofInt promoted.width right)
    (BitVec.ofInt promoted.distanceBits right).toNat

namespace BitwiseOperation

/-- The value of what is left of an operation, from those of its operands. -/
def Residue.value (values : Subtree → Int) : Residue → Int
  | .operand node => values node
  | .complement node => -values node - 1

/-- An operand agrees with what the host folded it to, as far as the type keeps it. -/
def Agrees (type : IntegralType) (values : Subtree → Int) (operand : Subtree) : Prop :=
  ∀ folded ∈ operand.folded?, values operand ≡ folded.toInt [ZMOD 2 ^ type.width]

variable {operation : BitwiseOperation} {operand : Subtree} {type : IntegralType}
  {values : Subtree → Int}

/-- A constant that passes a test is what the host folded, cast to the type. -/
theorem folded_of_constant (isType : IntegralType.ofName? operation.typeName = some type)
    {test : Constant → Bool}
    (passes : (operand.constantAs? operation.typeName).any test = true)
    : ∃ folded, operand.folded? = some folded ∧ test (.ofInt type folded.toInt) = true := by
  rw [Subtree.constantAs?_eq] at passes
  cases isFolded : operand.folded? with
  | none =>
      rw [isFolded] at passes
      exact absurd passes Bool.false_ne_true
  | some folded =>
      rw [isFolded, Option.bind_some, Constant.cast?, isType] at passes
      exact ⟨folded, rfl, passes⟩

/-- The type keeps no set bit of an operand that is zero. -/
theorem bits_of_isZero (isType : IntegralType.ofName? operation.typeName = some type)
    (agrees : Agrees type values operand) (zero : operation.isZero operand = true)
    : BitVec.ofInt type.width (values operand) = .ofNat type.width 0 := by
  obtain ⟨folded, isFolded, passes⟩ := folded_of_constant isType zero
  exact (ofInt_eq_iff.mpr (agrees folded isFolded)).trans (Constant.isZero_ofInt.mp passes)

/-- The type keeps only set bits of an operand that is all ones. -/
theorem bits_of_isAllOnes (isType : IntegralType.ofName? operation.typeName = some type)
    (agrees : Agrees type values operand) (ones : operation.isAllOnes operand = true)
    : BitVec.ofInt type.width (values operand) = BitVec.allOnes type.width := by
  obtain ⟨folded, isFolded, passes⟩ := folded_of_constant isType ones
  exact (ofInt_eq_iff.mpr (agrees folded isFolded)).trans (Constant.isAllOnes_ofInt.mp passes)

/-- A pointless operation has an integral type. -/
theorem isPointless_type (pointless : operation.isPointless = true)
    : ∃ type, IntegralType.ofName? operation.typeName = some type := by
  cases isType : IntegralType.ofName? operation.typeName with
  | some type => exact ⟨type, rfl⟩
  | none =>
      have noConstant (node : Subtree) : node.constantAs? operation.typeName = none := by
        rw [Subtree.constantAs?_eq]
        cases node.folded? <;> simp [Constant.cast?, isType]
      simp [isPointless, isZero, isAllOnes, noConstant] at pointless

/-- A pointless operation that is no shift has zero or all ones on one side. -/
theorem isPointless_cases (pointless : operation.isPointless = true)
    (noShift : operation.operator.isShift = false)
    : operation.isZero operation.lhs = true ∨ operation.isZero operation.rhs = true
      ∨ operation.isAllOnes operation.lhs = true ∨ operation.isAllOnes operation.rhs = true := by
  simp only [isPointless, noShift, Bool.false_eq_true, if_false, Bool.or_eq_true] at pointless
  tauto

section

variable (isType : IntegralType.ofName? operation.typeName = some type)
  (lhsAgrees : Agrees type values operation.lhs) (rhsAgrees : Agrees type values operation.rhs)
  (pointless : operation.isPointless = true)

include isType lhsAgrees rhsAgrees pointless

/-- What is left of a pointless `&` is the conjunction of the bits that the type keeps. -/
theorem residue_and (isAnd : operation.operator = .and)
    : BitVec.ofInt type.width (operation.residue.value values)
      = BitVec.ofInt type.width (values operation.lhs)
        &&& BitVec.ofInt type.width (values operation.rhs) := by
  have sides := isPointless_cases pointless (by rw [isAnd]; rfl)
  simp only [residue, isAnd, Bool.or_eq_true]
  split
  · next left =>
      rcases left with zero | ones
      · simp [Residue.value, bits_of_isZero isType lhsAgrees zero]
      · simp [Residue.value, bits_of_isAllOnes isType rhsAgrees ones]
  · next right =>
      rcases sides with zero | zero | ones | ones
      · exact absurd (.inl zero) right
      · simp [Residue.value, bits_of_isZero isType rhsAgrees zero]
      · simp [Residue.value, bits_of_isAllOnes isType lhsAgrees ones]
      · exact absurd (.inr ones) right

/-- What is left of a pointless `|` is the disjunction of the bits that the type keeps. -/
theorem residue_or (isOr : operation.operator = .or)
    : BitVec.ofInt type.width (operation.residue.value values)
      = BitVec.ofInt type.width (values operation.lhs)
        ||| BitVec.ofInt type.width (values operation.rhs) := by
  have sides := isPointless_cases pointless (by rw [isOr]; rfl)
  simp only [residue, isOr, Bool.or_eq_true]
  split
  · next right =>
      rcases right with zero | ones
      · simp [Residue.value, bits_of_isZero isType lhsAgrees zero]
      · simp [Residue.value, bits_of_isAllOnes isType rhsAgrees ones]
  · next left =>
      rcases sides with zero | zero | ones | ones
      · exact absurd (.inl zero) left
      · simp [Residue.value, bits_of_isZero isType rhsAgrees zero]
      · simp [Residue.value, bits_of_isAllOnes isType lhsAgrees ones]
      · exact absurd (.inr ones) left

/-- What is left of a pointless `^` is the exclusive disjunction of the bits that the type keeps.
-/
theorem residue_xor (isXor : operation.operator = .xor)
    : BitVec.ofInt type.width (operation.residue.value values)
      = BitVec.ofInt type.width (values operation.lhs)
        ^^^ BitVec.ofInt type.width (values operation.rhs) := by
  have sides := isPointless_cases pointless (by rw [isXor]; rfl)
  simp only [residue, isXor]
  split
  · next ones =>
      rw [Residue.value, ofInt_complement, bits_of_isAllOnes isType lhsAgrees ones]
      exact BitVec.allOnes_xor.symm
  · next noLeft =>
      split
      · next ones =>
          rw [Residue.value, ofInt_complement, bits_of_isAllOnes isType rhsAgrees ones]
          exact BitVec.xor_allOnes.symm
      · next noRight =>
          split
          · next zero => simp [Residue.value, bits_of_isZero isType rhsAgrees zero]
          · next noZero =>
              rcases sides with zero | zero | ones | ones
              · simp [Residue.value, bits_of_isZero isType lhsAgrees zero]
              · exact absurd zero noZero
              · exact absurd ones noLeft
              · exact absurd ones noRight

/-- What is left of a pointless operation that is no shift is its value, in the bits that the type
keeps.
-/
theorem residue_bitByBit (bitwise : operation.operator.isBitwise = true)
    (noShift : operation.operator.isShift = false) (distance : Nat)
    : operation.operator.evaluate? (BitVec.ofInt type.width (values operation.lhs))
        (BitVec.ofInt type.width (values operation.rhs)) distance
      = some (BitVec.ofInt type.width (operation.residue.value values)) := by
  cases operator : operation.operator with
  | and => rw [residue_and isType lhsAgrees rhsAgrees pointless operator, Operator.evaluate?]
  | or => rw [residue_or isType lhsAgrees rhsAgrees pointless operator, Operator.evaluate?]
  | xor => rw [residue_xor isType lhsAgrees rhsAgrees pointless operator, Operator.evaluate?]
  | shiftLeft | shiftRight | shiftRightUnsigned =>
      rw [operator] at noShift
      cases noShift
  | _ =>
      rw [operator] at bitwise
      cases bitwise

end

/-- A pointless shift goes no distance, however many bits of the distance count. -/
theorem distance_eq_zero (isType : IntegralType.ofName? operation.typeName = some type)
    (rhsAgrees : Agrees type values operation.rhs) (pointless : operation.isPointless = true)
    (isShift : operation.operator.isShift = true) (promoted : IntegralType)
    : (BitVec.ofInt promoted.distanceBits (values operation.rhs)).toNat = 0 := by
  rw [isPointless, if_pos isShift] at pointless
  rw [← setWidth_ofInt (promoted.distanceBits_le type), bits_of_isZero isType rhsAgrees pointless]
  simp

/-- What is left of a shift is what was shifted. -/
theorem residue_shift (isShift : operation.operator.isShift = true)
    : operation.residue = .operand operation.lhs := by
  rw [residue]
  cases operator : operation.operator <;> rw [operator] at isShift <;>
    first | rfl | exact absurd isShift (by decide)

/-- The operands of an expression are two nodes: they have different roles. -/
theorem operands_ne {expression : Subtree}
    (isOperation : ofExpression? expression = some operation)
    : operation.lhs ≠ operation.rhs := by
  obtain ⟨_, _, isLeft, isRight, _⟩ := ofExpression?_eq_some_iff.mp isOperation
  intro same
  have left := Subtree.role_of_childWithRole? isLeft
  rw [same, Subtree.role_of_childWithRole? isRight] at left
  cases left

/-- What is left of a pointless expression has its value, as far as the type of the expression
keeps it. The operands may have any values that agree with what the host folded them to, and may
be promoted to any type that is as wide as that of the expression.
-/
theorem residue_keepsValue {expression : Subtree}
    (isPointless : pointless? expression = some operation)
    : ∃ type,
        IntegralType.ofName? operation.typeName = some type
        ∧ operation.lhs ≠ operation.rhs
        ∧ ∀ promoted ∈ [IntegralType.int, .long],
            type.width ≤ promoted.width
            → ∀ values,
                Agrees type values operation.lhs
                → Agrees type values operation.rhs
                → ∃ result,
                    promoted.evaluate? operation.operator (values operation.lhs)
                      (values operation.rhs) = some result
                    ∧ operation.residue.value values ≡ result.toInt [ZMOD 2 ^ type.width] := by
  obtain ⟨isOperation, pointless⟩ := Option.filter_eq_some_iff.mp isPointless
  obtain ⟨type, isType⟩ := isPointless_type pointless
  obtain ⟨_, _, _, _, bitwise, _⟩ := ofExpression?_eq_some_iff.mp isOperation
  refine ⟨type, isType, operands_ne isOperation, fun promoted _ fits values left right => ?_⟩
  rw [IntegralType.evaluate?]
  cases isShift : operation.operator.isShift with
  | true =>
      rw [distance_eq_zero isType right pointless isShift promoted,
        Operator.evaluate?_noDistance isShift, residue_shift isShift]
      refine ⟨_, rfl, ofInt_eq_iff.mp ?_⟩
      rw [ofInt_toInt_setWidth fits, setWidth_ofInt fits, Residue.value]
  | false =>
      have lowBits := Operator.evaluate?_setWidth isShift type.width
        (.ofInt promoted.width (values operation.lhs))
        (.ofInt promoted.width (values operation.rhs))
        (BitVec.ofInt promoted.distanceBits (values operation.rhs)).toNat
      rw [setWidth_ofInt fits, setWidth_ofInt fits,
        residue_bitByBit isType left right pointless bitwise isShift] at lowBits
      obtain ⟨result, isResult, low⟩ := Option.map_eq_some_iff.mp lowBits
      exact ⟨result, isResult, ofInt_eq_iff.mp (low.symm.trans (ofInt_toInt_setWidth fits _).symm)⟩

/-- A variable of type `byte`. -/
def byteVariable : Subtree :=
  .mk 1 (((Outline.referenceExpression "x").withType "byte").withRole .lhs).content []

/-- Eight set bits. -/
def byteMask : Subtree :=
  .mk 2 ((((Outline.literal "0xff").withType "int").withConstant 255).withRole .rhs).content []

/-- A byte masked with all the bits that it has. -/
def maskedByte : Subtree :=
  .mk 0 (((Outline.ofKind .binaryExpression).withOperator .and).withType "byte").content
    [byteVariable, byteMask]

/-- The byte is negative. -/
def maskedByteValues (node : Subtree) : Int :=
  if node.id = 1 then -3 else 255

/-- The mask may go, though it changes the number that the byte is promoted to. -/
theorem maskedByte_keepsValue
    : ∃ operation,
        pointless? maskedByte = some operation
        ∧ operation.replacement = "x"
        ∧ operation.residue.value maskedByteValues = -3
        ∧ ∃ result,
            IntegralType.int.evaluate? operation.operator (maskedByteValues operation.lhs)
              (maskedByteValues operation.rhs) = some result
            ∧ -3 ≡ result.toInt [ZMOD 2 ^ 8] := by
  have isPointless : pointless? maskedByte
      = some { operator := .and, typeName := "byte", lhs := byteVariable, rhs := byteMask } := rfl
  obtain ⟨type, isType, _, keeps⟩ := residue_keepsValue isPointless
  cases Option.some.inj isType
  have left : Agrees .byte maskedByteValues byteVariable := fun folded known => by
    have unknown : byteVariable.folded? = none := rfl
    rw [unknown] at known
    cases known
  have right : Agrees .byte maskedByteValues byteMask := fun folded known => by
    cases Option.some.inj known
    rfl
  exact ⟨_, isPointless, rfl, rfl, keeps .int List.mem_cons_self (by decide) _ left right⟩

end BitwiseOperation

end TreeLint
