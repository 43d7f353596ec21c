import RiscvSoc.Isa.ByteMem
import RiscvSoc.Isa.Interp
import RiscvSoc.Sync.Refinement

/-!
# The sequential interpreter with a data memory

One instruction a step, loads and stores included: the reference for whole programs.  The data
memory has 4096 bytes, and an address is taken modulo its size.
-/

namespace RiscvSoc.Isa

open Sync

/-- `addi x0, x0, 0`. -/
def nopWord : BitVec 32 := 0x00000013#32

/-! ### Bytes as words -/

section Words

variable {m : ℕ}

/-- The word `a` of a memory of bytes. -/
def wordAt (f : BitVec (m + 2) → BitVec 8) (a : BitVec m) : BitVec 32 :=
  f (a ++ 3#2) ++ f (a ++ 2#2) ++ f (a ++ 1#2) ++ f (a ++ 0#2)

lemma byteOf_wordAt (f : BitVec (m + 2) → BitVec 8) (a : BitVec m) {k : ℕ} (hk : k < 4) :
    byteOf (wordAt f a) k = f (a ++ BitVec.ofNat 2 k) := by
  have hcases : k = 0 ∨ k = 1 ∨ k = 2 ∨ k = 3 := by omega
  rw [wordAt, byteOf, extractLsb'_append_byte, extractLsb'_append_byte, extractLsb'_append_byte]
  rcases hcases with rfl | rfl | rfl | rfl <;> simp

lemma bytes_append (g : BitVec m → BitVec 32) (a : BitVec m) {k : ℕ} (hk : k < 4) :
    bytes g (a ++ BitVec.ofNat 2 k) = byteOf (g a) k := by
  have hnat : (a ++ BitVec.ofNat 2 k).toNat = 4 * a.toNat + k := by
    rw [BitVec.toNat_append, ← Nat.shiftLeft_add_eq_or_of_lt (BitVec.isLt _), Nat.shiftLeft_eq,
      BitVec.toNat_ofNat]
    omega
  rw [bytes, BitVec.extractLsb'_append_eq_left, hnat, Nat.mul_add_mod, Nat.mod_eq_of_lt hk]

/-- The words of the bytes of an array of words are the array. -/
lemma wordAt_bytes (g : BitVec m → BitVec 32) (a : BitVec m) : wordAt (bytes g) a = g a := by
  rw [eq_iff_byteOf]
  intro k hk
  rw [byteOf_wordAt _ _ hk, bytes_append _ _ hk]

end Words

/-- A load and a store have an address, and no other instruction has one. -/
lemma Instr.memAddr_isSome (i : Instr) (a : BitVec 32) :
    (i.memAddr a).isSome = (i.isStore || i.isLoad) := by
  cases i <;> rfl

/-! ### The states -/

structure MemState extends State where
  mem : BitVec 12 → BitVec 8

namespace MemState

variable (image : BitVec 10 → BitVec 32) (σ : MemState)

/-- The address an access has in the data memory. -/
def dataAddr (rs1 : BitVec 5) (imm : BitVec 32) : BitVec 12 := (σ.regs rs1 + imm).setWidth 12

/-- What an instruction leaves for its destination. -/
def result : Instr → Option (BitVec 32)
  | .load o _ rs1 imm => some (o.value σ.mem (σ.dataAddr rs1 imm))
  | i => i.result σ.pc (σ.operand i.rs1?) (σ.operand i.rs2?)

/-- The memory after an instruction. -/
def memAfter : Instr → BitVec 12 → BitVec 8
  | .store o rs1 rs2 imm => o.apply σ.mem (σ.dataAddr rs1 imm) (σ.regs rs2)
  | _ => σ.mem

/-- One instruction; the interpreter stops at a word that encodes none. -/
def step : MemState :=
  match decode (σ.fetch image) with
  | some i =>
    { pc := i.nextPc σ.pc (σ.operand i.rs1?) (σ.operand i.rs2?)
      regs := applyWrites σ.regs { σ.recOf image i with result := σ.result i }.writes
      mem := σ.memAfter i }
  | none => σ

/-- What one step shows: nothing for the NOP, and for a load not the value that it loads. -/
def shown : List Rec :=
  match decode (σ.fetch image) with
  | some i => if σ.fetch image = nopWord then [] else [σ.recOf image i]
  | none => []

/-- **The access of an instruction could take the whole word** of its address: it is aligned, and
the word that a load finds, or the register that a store writes over it, has the rest right. -/
def Fits : Instr → Prop
  | .load o _ rs1 imm => (σ.dataAddr rs1 imm).toNat % o.size = 0 ∧
      o.Fits ((σ.dataAddr rs1 imm).toNat % 4) (wordAt σ.mem ((σ.dataAddr rs1 imm).extractLsb' 2 10))
  | .store o rs1 rs2 imm => (σ.dataAddr rs1 imm).toNat % o.size = 0 ∧
      o.Fits ((σ.dataAddr rs1 imm).toNat % 4) (wordAt σ.mem ((σ.dataAddr rs1 imm).extractLsb' 2 10))
        (σ.regs rs2)
  | _ => True

/-! ### One step -/

lemma step_of_decode {i : Instr} (h : decode (σ.fetch image) = some i) :
    σ.step image =
      { pc := i.nextPc σ.pc (σ.operand i.rs1?) (σ.operand i.rs2?)
        regs := applyWrites σ.regs { σ.recOf image i with result := σ.result i }.writes
        mem := σ.memAfter i } := by
  simp [step, h]

lemma shown_of_decode {i : Instr} (h : decode (σ.fetch image) = some i)
    (hn : σ.fetch image ≠ nopWord) : σ.shown image = [σ.recOf image i] := by
  simp [shown, h, hn]

variable {σ}

/-- The registers after an instruction: its result at its destination. -/
lemma step_regs {i : Instr} (h : decode (σ.fetch image) = some i) {r : BitVec 5} (hr : r ≠ 0#5) :
    (σ.step image).regs r =
      if rd (σ.fetch image) = r then (σ.result i).getD (σ.regs r) else σ.regs r := by
  rw [σ.step_of_decode image h]
  have hword : (σ.recOf image i).word = σ.fetch image := rfl
  cases hres : σ.result i with
  | none => simp [applyWrites, Rec.writes]
  | some v =>
    simp only [applyWrites, Rec.writes, hword, Option.getD_some]
    by_cases h0 : rd (σ.fetch image) = 0#5
    · simp [h0, Ne.symm hr]
    · by_cases hd : rd (σ.fetch image) = r
      · simp [hd, hr]
      · simp [h0, hd, Function.update_of_ne (Ne.symm hd)]

/-- `x0` stays zero. -/
lemma step_regs_zero (h0 : σ.regs 0#5 = 0#32) : (σ.step image).regs 0#5 = 0#32 := by
  unfold step
  split
  · simp only [applyWrites, Rec.writes]
    split
    · split_ifs with hd
      · exact h0
      · simp [Function.update_of_ne (Ne.symm hd), h0]
    · exact h0
  · exact h0

variable (σ) in
lemma result_of_not_load {i : Instr} (hl : i.isLoad = false) :
    σ.result i = (σ.recOf image i).result := by
  cases i with
  | load => cases hl
  | _ => rfl

/-- Without an access it is a step of the interpreter without memory. -/
lemma step_of_memFree {i : Instr} (h : decode (σ.fetch image) = some i) (hm : i.memFree = true) :
    σ.step image = { σ.toState.step image with mem := σ.mem } := by
  rw [σ.step_of_decode image h, σ.toState.step_of_decode image h hm]
  cases i with
  | load => cases hm
  | store => cases hm
  | _ => rfl

lemma decode_nopWord : decode nopWord = some (.opImm .add 0#5 0#5 0#32) := by decide

/-- A NOP is passed over. -/
lemma step_of_nop (h : σ.fetch image = nopWord) :
    σ.step image = { σ with pc := σ.pc + 4#32 } := by
  have hd : decode (σ.fetch image) = some (.opImm .add 0#5 0#5 0#32) := by
    rw [h]
    exact decode_nopWord
  have hw : rd (σ.fetch image) = 0#5 := by
    rw [h]
    decide
  have hres : σ.result (.opImm .add 0#5 0#5 0#32) = some (σ.regs 0#5 + 0#32) := rfl
  have hword : (σ.recOf image (.opImm .add 0#5 0#5 0#32)).word = σ.fetch image := rfl
  rw [σ.step_of_decode image hd]
  simp [applyWrites, Rec.writes, hres, hword, hw, Instr.nextPc, memAfter]

lemma shown_of_nop (h : σ.fetch image = nopWord) : σ.shown image = [] := by
  unfold shown
  split
  · rw [if_pos h]
  · rfl

/-! ### Whole-word accesses -/

variable {g : BitVec 10 → BitVec 32}

/-- A load that fits takes the word. -/
lemma value_of_fits {o : LoadOp} {rd rs1 : BitVec 5} {imm : BitVec 32} (hm : σ.mem = bytes g)
    (hf : σ.Fits (.load o rd rs1 imm)) :
    o.value σ.mem (σ.dataAddr rs1 imm) = g ((σ.dataAddr rs1 imm).extractLsb' 2 10) := by
  obtain ⟨ha, hf⟩ := hf
  rw [hm, wordAt_bytes] at hf
  rw [hm]
  exact ((LoadOp.value_eq_iff_fits g _ o ha).mpr hf).symm

/-- A store that fits writes the register. -/
lemma apply_of_fits {o : StoreOp} {rs1 rs2 : BitVec 5} {imm : BitVec 32} (hm : σ.mem = bytes g)
    (hf : σ.Fits (.store o rs1 rs2 imm)) :
    o.apply σ.mem (σ.dataAddr rs1 imm) (σ.regs rs2) =
      bytes (Function.update g ((σ.dataAddr rs1 imm).extractLsb' 2 10) (σ.regs rs2)) := by
  obtain ⟨ha, hf⟩ := hf
  rw [hm, wordAt_bytes] at hf
  rw [hm]
  exact ((StoreOp.update_eq_iff_fits g _ _ o ha).mpr hf).symm

lemma fits_lw {rd rs1 : BitVec 5} {imm : BitVec 32}
    (ha : (σ.dataAddr rs1 imm).toNat % 4 = 0) : σ.Fits (.load .lw rd rs1 imm) := by
  refine ⟨ha, ?_, ?_⟩
  · intro k _
    rw [ha, Nat.zero_add]
  · intro k hk hs
    simp only [LoadOp.size] at hs
    omega

lemma fits_sw {rs1 rs2 : BitVec 5} {imm : BitVec 32}
    (ha : (σ.dataAddr rs1 imm).toNat % 4 = 0) : σ.Fits (.store .sw rs1 rs2 imm) := by
  refine ⟨ha, ?_, ?_⟩
  · intro k _ _ _
    rw [ha, Nat.sub_zero]
  · intro k hk hs
    simp only [StoreOp.size] at hs
    omega

end MemState

/-! ### Runs -/

section Run

variable (image : BitVec 10 → BitVec 32) (mem : BitVec 12 → BitVec 8)

/-- All registers zero, at the reset vector, over the data memory `mem`. -/
def MemState.init : MemState := ⟨State.init, mem⟩

/-- The state after `m` instructions. -/
def memRun (m : ℕ) : MemState := (MemState.step image)^[m] (MemState.init mem)

/-- What the first `m` instructions show. -/
def memTrace (m : ℕ) : List Rec :=
  emitted (MemState.step image) (MemState.shown image) m (MemState.init mem)

lemma memRun_regs_zero (m : ℕ) : (memRun image mem m).regs 0#5 = 0#32 := by
  induction m with
  | zero => rfl
  | succ m ih =>
    rw [memRun, Function.iterate_succ_apply']
    exact MemState.step_regs_zero image ih

lemma memTrace_prefix {m m' : ℕ} (h : m ≤ m') : memTrace image mem m <+: memTrace image mem m' := by
  obtain ⟨k, rfl⟩ := Nat.exists_eq_add_of_le h
  rw [memTrace, memTrace, emitted_add]
  exact List.prefix_append _ _

end Run

/-! ### Traps -/

/-- What an execution with traps shows: an executed instruction, or a trap and where it leads. -/
inductive Event
  | retire (r : Rec)
  | trap (target : BitVec 32)
  deriving DecidableEq

/-- `Interrupted image T σ l m σ'`: from `σ`, `m` instructions and traps one after the other show
`l` and lead to `σ'`; a trap changes the PC only, and leads to one of the addresses `T`. -/
inductive Interrupted (image : BitVec 10 → BitVec 32) (T : BitVec 32 → Prop) (σ : MemState) :
    List Event → ℕ → MemState → Prop
  | refl : Interrupted image T σ [] 0 σ
  | step {l : List Event} {m : ℕ} {σ' : MemState} (h : Interrupted image T σ l m σ') :
      Interrupted image T σ (l ++ (σ'.shown image).map .retire) (m + 1) (σ'.step image)
  | trap {l : List Event} {m : ℕ} {σ' : MemState} {t : BitVec 32}
      (h : Interrupted image T σ l m σ') (ht : T t) :
      Interrupted image T σ (l ++ [.trap t]) (m + 1) { σ' with pc := t }

section Interrupted

variable {image : BitVec 10 → BitVec 32} {T : BitVec 32 → Prop} {σ σ' : MemState} {l : List Event}
  {m : ℕ}

lemma Interrupted.regs_zero (h : Interrupted image T σ l m σ') (h0 : σ.regs 0#5 = 0#32) :
    σ'.regs 0#5 = 0#32 := by
  induction h with
  | refl => exact h0
  | step _ ih => exact MemState.step_regs_zero image ih
  | trap _ _ ih => exact ih

/-- Several instructions without a trap. -/
lemma Interrupted.steps (h : Interrupted image T σ l m σ') (k : ℕ) : Interrupted image T σ
      (l ++ (emitted (MemState.step image) (MemState.shown image) k σ').map .retire) (m + k)
      ((MemState.step image)^[k] σ') := by
  induction k generalizing l m σ' with
  | zero => simpa using h
  | succ k ih =>
    have hs := ih h.step
    rw [List.append_assoc, ← List.map_append, ← emitted_succ, Nat.add_assoc, Nat.add_comm 1 k]
      at hs
    exact hs

end Interrupted

end RiscvSoc.Isa
