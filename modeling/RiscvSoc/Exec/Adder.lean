import RiscvSoc.Rtl.Alu
import Mathlib.Tactic.Ring
import Mathlib.Tactic.NormNum

/-!
# The adder chain adds

One block of the carry-lookahead adder is exact, and so is the chain of eight, by induction along
the carries.
-/

namespace RiscvSoc.Rtl

/-- **One block.** The sum bits and the carry out are the sum of the nibbles and the carry in. -/
theorem adder4bit_spec : ∀ (a b : BitVec 4) (c : Bool),
    (adder4bit a b c).s.toNat + 16 * (adder4bit a b c).cOut.toNat =
      a.toNat + b.toNat + c.toNat := by
  decide +kernel

section Chain

variable (a b : BitVec 32) (c : Bool)

/-- The number that the sum bits of the first `k` blocks make. -/
def sumLow : ℕ → ℕ
  | 0 => 0
  | k + 1 => sumLow k + 16 ^ k * (sumBlock a b c k).toNat

lemma block_spec (k : ℕ) :
    (sumBlock a b c k).toNat + 16 * (carryAll a b c (k + 1)).toNat =
      a.toNat / 16 ^ k % 16 + b.toNat / 16 ^ k % 16 + (carryAll a b c k).toNat := by
  have h := adder4bit_spec (a.extractLsb' (k * 4) 4) (b.extractLsb' (k * 4) 4) (carryAll a b c k)
  have e : 2 ^ (k * 4) = 16 ^ k := by rw [mul_comm, pow_mul]; norm_num
  simp only [BitVec.extractLsb'_toNat, Nat.shiftRight_eq_div_pow, e] at h
  exact h

/-- **The chain.** After `k` blocks the sum bits and the carry are the sum of the low digits. -/
theorem sumLow_spec (k : ℕ) :
    sumLow a b c k + 16 ^ k * (carryAll a b c k).toNat =
      a.toNat % 16 ^ k + b.toNat % 16 ^ k + c.toNat := by
  induction k with
  | zero => simp [sumLow, carryAll, Nat.mod_one]
  | succ k ih =>
    have hb := block_spec a b c k
    have ha : a.toNat % 16 ^ (k + 1) = a.toNat % 16 ^ k + 16 ^ k * (a.toNat / 16 ^ k % 16) := by
      rw [pow_succ, Nat.mod_mul]
    have hb' : b.toNat % 16 ^ (k + 1) = b.toNat % 16 ^ k + 16 ^ k * (b.toNat / 16 ^ k % 16) := by
      rw [pow_succ, Nat.mod_mul]
    calc sumLow a b c (k + 1) + 16 ^ (k + 1) * (carryAll a b c (k + 1)).toNat
        = sumLow a b c k +
            16 ^ k * ((sumBlock a b c k).toNat + 16 * (carryAll a b c (k + 1)).toNat) := by
          rw [sumLow, pow_succ]; ring
      _ = (sumLow a b c k + 16 ^ k * (carryAll a b c k).toNat) +
            16 ^ k * (a.toNat / 16 ^ k % 16 + b.toNat / 16 ^ k % 16) := by rw [hb]; ring
      _ = _ := by rw [ih, ha, hb']; ring

lemma append_toNat {m n : ℕ} (x : BitVec m) (y : BitVec n) :
    (x ++ y).toNat = 2 ^ n * x.toNat + y.toNat := by
  rw [BitVec.toNat_append, ← Nat.shiftLeft_add_eq_or_of_lt y.isLt, Nat.shiftLeft_eq, mul_comm]

lemma result_toNat : (adder32bit a b c).result.toNat = sumLow a b c 8 := by
  simp only [adder32bit, append_toNat, sumLow]
  ring

/-- **`adder_32bit` is exact.** -/
theorem adder32bit_spec :
    (adder32bit a b c).result.toNat + 2 ^ 32 * (adder32bit a b c).cOut.toNat =
      a.toNat + b.toNat + c.toNat := by
  have h := sumLow_spec a b c 8
  have e : (16 : ℕ) ^ 8 = 2 ^ 32 := by norm_num
  rw [e, Nat.mod_eq_of_lt a.isLt, Nat.mod_eq_of_lt b.isLt] at h
  rw [result_toNat]
  exact h

lemma adder32bit_add : (adder32bit a b false).result = a + b := by
  have h := adder32bit_spec a b false
  apply BitVec.eq_of_toNat_eq
  have hr := (adder32bit a b false).result.isLt
  rw [BitVec.toNat_add]
  simp only [Bool.toNat_false] at h
  omega

lemma adder32bit_sub : (adder32bit a (~~~b) true).result = a - b := by
  have h := adder32bit_spec a (~~~b) true
  apply BitVec.eq_of_toNat_eq
  have hr := (adder32bit a (~~~b) true).result.isLt
  rw [BitVec.toNat_sub]
  simp only [Bool.toNat_true, BitVec.toNat_not] at h
  have hb := b.isLt
  omega

end Chain

/-! ### Sums and differences of the ALU -/

section AddSub

variable (a b : BitVec 32)

lemma adder_of_add : (Alu.mk a b 0b00000#5).adder = adder32bit a b false := rfl

lemma adder_of_sub : (Alu.mk a b 0b00001#5).adder = adder32bit a (~~~b) true := rfl

/-- The carry of an addition. -/
lemma cout_add :
    (Alu.mk a b 0b00000#5).cout = true ↔ 2 ^ 32 ≤ a.toNat + b.toNat := by
  have h := adder32bit_spec a b false
  have hr := (adder32bit a b false).result.isLt
  have hc : (Alu.mk a b 0b00000#5).cout = (adder32bit a b false).cOut := rfl
  rw [hc]
  cases ho : (adder32bit a b false).cOut
  · simp only [ho, Bool.toNat_false] at h
    simp only [Bool.false_eq_true, false_iff]
    omega
  · simp only [ho, Bool.toNat_true, Bool.toNat_false] at h
    simp only [true_iff]
    omega

/-- The borrow of a subtraction: the complement adds `2 ^ 32 - 1 - b`, and the carry out is
inverted. -/
lemma cout_sub : (Alu.mk a b 0b00001#5).cout = true ↔ a.toNat < b.toNat := by
  have h := adder32bit_spec a (~~~b) true
  have hr := (adder32bit a (~~~b) true).result.isLt
  have hb := b.isLt
  have hc : (Alu.mk a b 0b00001#5).cout = !(adder32bit a (~~~b) true).cOut := rfl
  rw [BitVec.toNat_not] at h
  rw [hc]
  cases ho : (adder32bit a (~~~b) true).cOut
  · simp only [ho, Bool.toNat_true, Bool.toNat_false] at h
    simp only [Bool.not_false, true_iff]
    omega
  · simp only [ho, Bool.toNat_true] at h
    simp only [Bool.not_true, Bool.false_eq_true, false_iff]
    omega

/-- **The adder chain, and the sums and differences of the ALU, are exact**: the carry out is the
33rd bit of the sum of three, an addition carries when it overflows, and a subtraction borrows when
it goes below zero. -/
theorem adder_add_sub_exact :
    (∀ c, (adder32bit a b c).cOut.toNat * 2 ^ 32 + (adder32bit a b c).result.toNat =
      a.toNat + b.toNat + c.toNat) ∧
    ((Alu.mk a b 0b00000#5).result.toNat = (a.toNat + b.toNat) % 2 ^ 32 ∧
      ((Alu.mk a b 0b00000#5).cout = true ↔ 2 ^ 32 ≤ a.toNat + b.toNat)) ∧
    (((Alu.mk a b 0b00001#5).result.toNat : ℤ) = (a.toNat - b.toNat) % 2 ^ 32 ∧
      ((Alu.mk a b 0b00001#5).cout = true ↔ a.toNat < b.toNat)) := by
  refine ⟨?_, ⟨?_, cout_add a b⟩, ?_, cout_sub a b⟩
  · intro c
    rw [mul_comm, add_comm]
    exact adder32bit_spec a b c
  · have hr : (Alu.mk a b 0b00000#5).result = (Alu.mk a b 0b00000#5).adder.result := rfl
    rw [hr, adder_of_add, adder32bit_add, BitVec.toNat_add]
  · have hr : (Alu.mk a b 0b00001#5).result = (Alu.mk a b 0b00001#5).adder.result := rfl
    have ha := a.isLt
    have hb := b.isLt
    rw [hr, adder_of_sub, adder32bit_sub, BitVec.toNat_sub]
    omega

end AddSub

end RiscvSoc.Rtl
