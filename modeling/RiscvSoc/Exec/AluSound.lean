import RiscvSoc.Exec.Adder
import RiscvSoc.Isa.Instr
import Mathlib.Tactic

/-!
# The ALU computes the operations of RV32IM

The op code `EX_stage` gives each operation, and that the ALU under this code computes it.
-/

namespace RiscvSoc.Rtl

open Isa

/-- The ALU code of an integer operation. -/
def aluCode : AluOp → BitVec 5
  | .add => 0b00000#5
  | .sub => 0b00001#5
  | .sll => 0b01000#5
  | .slt => 0b01100#5
  | .sltu => 0b01101#5
  | .xor => 0b00110#5
  | .srl => 0b01001#5
  | .sra => 0b01010#5
  | .or => 0b00101#5
  | .and => 0b00100#5

/-- The ALU code of an operation of the M extension. -/
def mulCode : MulOp → BitVec 5
  | .mul => 0b00010#5
  | .mulh => 0b00011#5
  | .mulhsu => 0b00111#5
  | .mulhu => 0b01011#5
  | .div => 0b01110#5
  | .divu => 0b01111#5
  | .rem => 0b10001#5
  | .remu => 0b10100#5

/-- The ALU code of a branch condition. -/
def branchCode : BranchOp → BitVec 5
  | .beq => 0b10000#5
  | .bne => 0b10001#5
  | .blt => 0b10110#5
  | .bge => 0b10111#5
  | .bltu => 0b10010#5
  | .bgeu => 0b10011#5

/-! ### Shifts -/

lemma shamt_eq (a b : BitVec 32) (op : BitVec 5) : (Alu.mk a b op).shamt = shamt b := by
  simp [Alu.shamt, shamt, BitVec.extractLsb'_toNat]

lemma shamt_lt (b : BitVec 32) : shamt b < 32 := Nat.mod_lt _ (by norm_num)

/-- The logical right shift with the mask of sign bits is the arithmetic right shift. -/
lemma shift_mask (a : BitVec 32) {n : ℕ} (hn : n < 32) :
    (a >>> n) ||| ((if a.msb then BitVec.allOnes 32 else 0#32) <<< (32 - n)) =
      a.sshiftRight n := by
  apply BitVec.eq_of_getLsbD_eq
  intro i hi
  simp only [BitVec.getLsbD_or, BitVec.getLsbD_ushiftRight, BitVec.getLsbD_shiftLeft,
    BitVec.getLsbD_sshiftRight, hi, decide_true, Bool.true_and]
  by_cases h : n + i < 32
  · have : i < 32 - n := by omega
    simp [h, this, show ¬ 32 ≤ i by omega]
  · have hge : 32 - n ≤ i := by omega
    have hlsb : a.getLsbD (n + i) = false := BitVec.getLsbD_of_ge _ _ (by omega)
    have hmask : (if a.msb then BitVec.allOnes 32 else 0#32).getLsbD (i - (32 - n)) = a.msb := by
      cases hm : a.msb
      · simp
      · rw [if_pos rfl, BitVec.getLsbD_allOnes, decide_eq_true_eq]
        omega
    rw [hmask, hlsb]
    simp [h, Nat.not_lt.2 hge, show ¬ 32 ≤ i by omega]

/-! ### Products -/

lemma signExtend_toInt (a : BitVec 32) : (a.signExtend 64).toInt = a.toInt :=
  BitVec.toInt_signExtend_of_le (by norm_num)

/-- The high half of a 64-bit word is its value over `2 ^ 32`. -/
lemma extract_high (x : BitVec 64) : x.extractLsb' 32 32 = BitVec.ofInt 32 (x.toInt / 2 ^ 32) := by
  apply BitVec.eq_of_toNat_eq
  have hx := x.isLt
  rw [BitVec.extractLsb'_toNat, BitVec.toNat_ofInt, BitVec.toInt_eq_toNat_cond,
    Nat.shiftRight_eq_div_pow]
  split <;> omega

/-- Two products of 64-bit numbers that agree below `2 ^ 64` have the same high halves. -/
lemma high_of_bmod {z : ℤ} (hlo : -2 ^ 63 ≤ z) (hhi : z < 2 ^ 63) (x : BitVec 64)
    (hx : x.toInt = z.bmod (2 ^ 64)) :
    x.extractLsb' 32 32 = BitVec.ofInt 32 (z / 2 ^ 32) := by
  rw [extract_high, hx, Int.bmod_eq_of_le_mul_two] <;> omega

lemma toInt_bounds (a : BitVec 32) : -2 ^ 31 ≤ a.toInt ∧ a.toInt < 2 ^ 31 := by
  have h1 := BitVec.le_two_mul_toInt (x := a)
  have h2 := BitVec.two_mul_toInt_lt (x := a)
  omega

lemma mulh_spec (a b : BitVec 32) :
    (a.signExtend 64 * b.signExtend 64).extractLsb' 32 32 =
      BitVec.ofInt 32 (a.toInt * b.toInt / 2 ^ 32) := by
  obtain ⟨ha, ha'⟩ := toInt_bounds a
  obtain ⟨hb, hb'⟩ := toInt_bounds b
  refine high_of_bmod (by nlinarith) (by nlinarith) _ ?_
  rw [BitVec.toInt_mul, signExtend_toInt, signExtend_toInt]

lemma zero_append_toInt (b : BitVec 32) : ((0#1 ++ b).signExtend 64).toInt = b.toNat := by
  have h : (0#1 ++ b).toNat = b.toNat := by rw [append_toNat]; simp
  have hb := b.isLt
  rw [BitVec.toInt_signExtend_of_le (by norm_num), BitVec.toInt_eq_toNat_cond, h]
  split <;> omega

lemma mulhsu_spec (a b : BitVec 32) :
    (a.signExtend 64 * (0#1 ++ b).signExtend 64).extractLsb' 32 32 =
      BitVec.ofInt 32 (a.toInt * b.toNat / 2 ^ 32) := by
  obtain ⟨ha, ha'⟩ := toInt_bounds a
  have hb : (b.toNat : ℤ) < 2 ^ 32 := by have := b.isLt; omega
  have hb0 : (0 : ℤ) ≤ b.toNat := by positivity
  refine high_of_bmod (by nlinarith) (by nlinarith) _ ?_
  rw [BitVec.toInt_mul, signExtend_toInt, zero_append_toInt]

lemma mulhu_spec (a b : BitVec 32) :
    (a.setWidth 64 * b.setWidth 64).extractLsb' 32 32 =
      BitVec.ofNat 32 (a.toNat * b.toNat / 2 ^ 32) := by
  apply BitVec.eq_of_toNat_eq
  have ha := a.isLt
  have hb := b.isLt
  have hab : a.toNat * b.toNat < 2 ^ 64 := by nlinarith
  simp only [BitVec.extractLsb'_toNat, BitVec.toNat_mul, BitVec.toNat_setWidth,
    Nat.shiftRight_eq_div_pow, BitVec.toNat_ofNat]
  rw [Nat.mod_eq_of_lt (show a.toNat < 2 ^ 64 by omega),
    Nat.mod_eq_of_lt (show b.toNat < 2 ^ 64 by omega), Nat.mod_eq_of_lt hab]

lemma mul_low (a b : BitVec 32) : (a.signExtend 64 * b.signExtend 64).extractLsb' 0 32 = a * b := by
  have h : ∀ x : BitVec 32, (x.signExtend 64).setWidth 32 = x := by
    intro x
    apply BitVec.eq_of_getLsbD_eq
    intro i hi
    rw [BitVec.getLsbD_setWidth, BitVec.getLsbD_signExtend]
    simp [hi, show i < 64 by omega]
  have h' : ∀ x : BitVec 64, x.extractLsb' 0 32 = x.setWidth 32 := by
    intro x
    apply BitVec.eq_of_getLsbD_eq
    intro i hi
    rw [BitVec.getLsbD_setWidth, BitVec.getLsbD_extractLsb', zero_add]
  rw [h', BitVec.setWidth_mul _ _ (by norm_num), h, h]

/-! ### Quotients -/

lemma div_spec (a b : BitVec 32) :
    (if a == 0x80000000#32 && b == -1#32 then 0x80000000#32
      else if b != 0#32 then a.sdiv b else 0xFFFFFFFF#32) = MulOp.eval a b .div := by
  unfold MulOp.eval
  by_cases hb : b = 0#32
  · subst hb; simp
  · have hsd : BitVec.ofInt 32 (a.toInt.tdiv b.toInt) = a.sdiv b := by
      apply BitVec.eq_of_toInt_eq
      rw [BitVec.toInt_ofInt, BitVec.toInt_sdiv]
    simp only [hb, if_false, hsd]
    by_cases h : a = 0x80000000#32 ∧ b = -1#32
    · obtain ⟨rfl, rfl⟩ := h
      decide
    · rw [if_neg (by simpa using h), if_pos (by simpa using hb)]

lemma rem_spec (a b : BitVec 32) :
    (if a == 0x80000000#32 && b == -1#32 then 0#32
      else if b != 0#32 then a.srem b else a) = MulOp.eval a b .rem := by
  unfold MulOp.eval
  by_cases hb : b = 0#32
  · subst hb; simp
  · have hsr : BitVec.ofInt 32 (a.toInt.tmod b.toInt) = a.srem b := by
      apply BitVec.eq_of_toInt_eq
      rw [← BitVec.toInt_srem, BitVec.ofInt_toInt]
    simp only [hb, if_false, hsr]
    by_cases h : a = 0x80000000#32 ∧ b = -1#32
    · obtain ⟨rfl, rfl⟩ := h
      decide
    · rw [if_neg (by simpa using h), if_pos (by simpa using hb)]

/-! ### The codes -/

/-- **The ALU under the code of an integer operation computes it.** -/
theorem result_aluCode (o : AluOp) (a b : BitVec 32) :
    (Alu.mk a b (aluCode o)).result = o.eval a b := by
  cases o
  case add => exact adder32bit_add a b
  case sub => exact adder32bit_sub a b
  case sra =>
    have h := shift_mask a (shamt_lt b)
    simpa [Alu.result, Alu.shiftResult, Alu.shiftMask, aluCode, AluOp.eval, shamt_eq] using h
  case slt => simp [Alu.result, Alu.compareResult, aluCode, AluOp.eval, BitVec.slt_iff_toInt_lt]
  case sltu => simp [Alu.result, Alu.compareResult, aluCode, AluOp.eval, BitVec.ult_iff_lt,
    BitVec.lt_def]
  all_goals
    simp [Alu.result, Alu.shiftResult, Alu.logicResult, aluCode, AluOp.eval, shamt_eq]

/-- **The ALU under the code of an operation of the M extension computes it.** -/
theorem result_mulCode (o : MulOp) (a b : BitVec 32) :
    (Alu.mk a b (mulCode o)).result = o.eval a b := by
  cases o
  case mul => exact mul_low a b
  case mulh => exact mulh_spec a b
  case mulhsu => exact mulhsu_spec a b
  case mulhu => exact mulhu_spec a b
  case div => exact div_spec a b
  case rem => exact rem_spec a b
  case divu =>
    by_cases hb : b = 0#32
    · subst hb; simp [Alu.result, Alu.divuResult, mulCode, MulOp.eval]
    · simp only [Alu.result, Alu.divuResult, mulCode, MulOp.eval]
      simp [hb, ← BitVec.toNat_udiv]
  case remu =>
    by_cases hb : b = 0#32
    · subst hb; simp [Alu.result, Alu.remuResult, mulCode, MulOp.eval]
    · simp only [Alu.result, Alu.remuResult, mulCode, MulOp.eval]
      simp [hb, ← BitVec.toNat_umod]

/-- **The ALU under the code of a branch decides it.** -/
theorem condition_branchCode (o : BranchOp) (a b : BitVec 32) :
    (Alu.mk a b (branchCode o)).condition = o.holds a b := by
  cases o
  case bge =>
    show (!a.slt b) = decide (b.toInt ≤ a.toInt)
    rw [BitVec.slt_eq_decide, ← decide_not]
    simp only [not_lt]
  case bgeu =>
    show (!a.ult b) = decide (b.toNat ≤ a.toNat)
    rw [BitVec.ult_eq_decide, ← decide_not]
    simp only [not_lt]
  all_goals
    simp [Alu.condition, branchCode, BranchOp.holds, BitVec.slt_eq_decide, BitVec.ult_eq_decide,
      bne, beq_eq_decide]

end RiscvSoc.Rtl
