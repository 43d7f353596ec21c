import RiscvSoc.Isa.Instr
import RiscvSoc.Sync.Machine

/-!
# The sequential interpreter

One instruction a step, over an image of 1024 words and no data memory: the reference for the
programs without loads and stores.
-/

namespace RiscvSoc.Isa

open Sync

/-! ### Operands and results -/

/-- What one executed instruction shows: where it was, what it read and what it produced. -/
structure Rec where
  pc : BitVec 32
  word : BitVec 32
  op1 : Option (BitVec 32)
  op2 : Option (BitVec 32)
  result : Option (BitVec 32)
  deriving DecidableEq

/-- The register write of an executed instruction, if it is to another register than `x0`. -/
def Rec.writes (r : Rec) : List (BitVec 5 × BitVec 32) :=
  match r.result with
  | some v => if rd r.word = 0#5 then [] else [(rd r.word, v)]
  | none => []

/-- The registers after a list of writes. -/
def applyWrites (regs : BitVec 5 → BitVec 32) (l : List (BitVec 5 × BitVec 32)) :
    BitVec 5 → BitVec 32 :=
  l.foldl (fun f p => Function.update f p.1 p.2) regs

/-- The result and the redirect depend on the operands an instruction has. -/
lemma Instr.congr_operands {i : Instr} {a b a' b' : BitVec 32} (pc : BitVec 32)
    (ha : i.rs1?.isSome → a = a') (hb : i.rs2?.isSome → b = b') :
    i.result pc a b = i.result pc a' b' ∧ i.nextPc pc a b = i.nextPc pc a' b' := by
  cases i <;> simp_all [Instr.rs1?, Instr.rs2?, Instr.result, Instr.nextPc]

/-- An instruction without memory has a result just when it has a destination. -/
lemma Instr.result_isSome {i : Instr} (hm : i.memFree = true) (pc a b : BitVec 32) :
    (i.result pc a b).isSome = i.rd?.isSome := by
  cases i <;> simp_all [Instr.memFree, Instr.result, Instr.rd?]

/-! ### The interpreter -/

structure State where
  pc : BitVec 32
  regs : BitVec 5 → BitVec 32

namespace State

/-- All registers zero, at the reset vector. -/
def init : State := ⟨0#32, fun _ => 0#32⟩

variable (image : BitVec 10 → BitVec 32) (σ : State)

/-- The word `PC[11:2]` of the image. -/
def fetch : BitVec 32 := image (σ.pc.extractLsb' 2 10)

/-- The value of an operand; an operand the instruction does not have is nowhere used. -/
def operand (r : Option (BitVec 5)) : BitVec 32 := (r.map σ.regs).getD 0#32

/-- What executing the instruction `i` shows. -/
def recOf (i : Instr) : Rec where
  pc := σ.pc
  word := σ.fetch image
  op1 := i.rs1?.map σ.regs
  op2 := i.rs2?.map σ.regs
  result := i.result σ.pc (σ.operand i.rs1?) (σ.operand i.rs2?)

/-- One instruction; the interpreter stops at a word that is none of the instructions without
memory. -/
def step : State :=
  match decode (σ.fetch image) with
  | some i =>
    if i.memFree then
      { pc := i.nextPc σ.pc (σ.operand i.rs1?) (σ.operand i.rs2?)
        regs := applyWrites σ.regs (σ.recOf image i).writes }
    else σ
  | none => σ

/-- What one step shows. -/
def shown : List Rec :=
  match decode (σ.fetch image) with
  | some i => if i.memFree then [σ.recOf image i] else []
  | none => []

lemma step_of_decode {i : Instr} (h : decode (σ.fetch image) = some i) (hm : i.memFree = true) :
    σ.step image = { pc := i.nextPc σ.pc (σ.operand i.rs1?) (σ.operand i.rs2?)
                     regs := applyWrites σ.regs (σ.recOf image i).writes } := by
  simp [step, h, hm]

lemma shown_of_decode {i : Instr} (h : decode (σ.fetch image) = some i) (hm : i.memFree = true) :
    σ.shown image = [σ.recOf image i] := by
  simp [shown, h, hm]

variable {σ}

/-- The registers after an instruction: its result at its destination. -/
lemma step_regs {i : Instr} (h : decode (σ.fetch image) = some i) (hm : i.memFree = true)
    {r : BitVec 5} (hr : r ≠ 0#5) :
    (σ.step image).regs r =
      if rd (σ.fetch image) = r then ((σ.recOf image i).result).getD (σ.regs r) else σ.regs r := by
  rw [σ.step_of_decode image h hm]
  have hword : (σ.recOf image i).word = σ.fetch image := rfl
  cases hres : (σ.recOf image i).result with
  | none => simp [applyWrites, Rec.writes, hres]
  | some v =>
    simp only [applyWrites, Rec.writes, hres, hword, Option.getD_some]
    by_cases h0 : rd (σ.fetch image) = 0#5
    · simp [h0, Ne.symm hr]
    · by_cases hd : rd (σ.fetch image) = r
      · simp [hd, hr]
      · simp [h0, hd, Function.update_of_ne (Ne.symm hd)]

/-- `x0` stays zero. -/
lemma step_regs_zero (h0 : σ.regs 0#5 = 0#32) : (σ.step image).regs 0#5 = 0#32 := by
  unfold step
  split
  · split_ifs
    · simp only [applyWrites, Rec.writes]
      split
      · split_ifs with hd
        · exact h0
        · simp [Function.update_of_ne (Ne.symm hd), h0]
      · exact h0
    · exact h0
  · exact h0

end State

variable (image : BitVec 10 → BitVec 32)

/-- The interpreter as a machine without inputs. -/
def machine : Machine Unit State where
  init := State.init
  next σ _ := σ.step image

/-- The state before the instruction number `m`. -/
def run (m : ℕ) : State := (machine image).run (fun _ => ()) m

/-- The first `m` executed instructions. -/
def trace (m : ℕ) : List Rec := (machine image).history (fun σ _ => σ.shown image) (fun _ => ()) m

/-- The register writes of the first `m` instructions. -/
def writes (m : ℕ) : List (BitVec 5 × BitVec 32) := (trace image m).flatMap Rec.writes

lemma run_succ (m : ℕ) : run image (m + 1) = (run image m).step image := rfl

lemma trace_succ (m : ℕ) : trace image (m + 1) = trace image m ++ (run image m).shown image := rfl

/-! ### The registers from the trace -/

/-- The instruction writes the register `r`. -/
def Rec.writesTo (r : BitVec 5) (x : Rec) : Bool := x.result.isSome && rd x.word == r

/-- The youngest instruction of `l` that writes the register `r`. -/
def lastWriter (l : List Rec) (r : BitVec 5) : Option Rec := l.reverse.find? (Rec.writesTo r)

variable {image}

lemma mem_trace {x : Rec} {m : ℕ} (h : x ∈ trace image m) :
    ∃ σ i, decode (State.fetch image σ) = some i ∧ x = σ.recOf image i := by
  induction m with
  | zero => simp [trace] at h
  | succ m ih =>
    rw [trace_succ, List.mem_append] at h
    rcases h with h | h
    · exact ih h
    · unfold State.shown at h
      split at h
      · rename_i i hi
        split_ifs at h
        · exact ⟨_, i, hi, List.mem_singleton.mp h⟩
        · simp at h
      · simp at h

/-- **A register holds what its youngest writer produced.** -/
theorem run_regs (m : ℕ) {r : BitVec 5} (hr : r ≠ 0#5) :
    (run image m).regs r = ((lastWriter (trace image m) r).bind Rec.result).getD 0#32 := by
  induction m with
  | zero => rfl
  | succ m ih =>
    rw [run_succ, trace_succ]
    unfold State.shown State.step
    split
    · rename_i i hi
      split_ifs with hm
      · have hs := State.step_regs image hi hm hr
        rw [State.step_of_decode image _ hi hm] at hs
        rw [hs, ih]
        have hw : ((run image m).recOf image i).word = (run image m).fetch image := rfl
        by_cases hd : rd ((run image m).fetch image) = r
        · cases hres : ((run image m).recOf image i).result with
          | none => simp [lastWriter, Rec.writesTo, hres]
          | some v => simp [lastWriter, Rec.writesTo, hres, hw, hd]
        · simp [lastWriter, Rec.writesTo, hw, hd]
      · simpa using ih
    · simpa using ih

/-- The link of an executed JAL. -/
lemma result_of_jal {x : Rec} {m : ℕ} (h : x ∈ trace image m)
    (hj : opcode x.word = 0b1101111#7) : x.result = some (x.pc + 4#32) := by
  obtain ⟨σ, i, hi, rfl⟩ := mem_trace h
  have hop : opcode (σ.fetch image) = 0b1101111#7 := hj
  rw [opcode_of_decode hi] at hop
  cases i <;> simp [Instr.opcode] at hop
  rfl

variable (image)

/-! ### Executions from a state -/

/-- `Steps image σ l σ'`: from `σ` the interpreter executes the instructions `l` and is in `σ'`. -/
inductive Steps : State → List Rec → State → Prop
  | refl (σ : State) : Steps σ [] σ
  | cons {σ σ' : State} {l : List Rec} {i : Instr} (hi : decode (σ.fetch image) = some i)
      (hm : i.memFree = true) (h : Steps (σ.step image) l σ') :
      Steps σ (σ.recOf image i :: l) σ'

variable {image}

lemma Steps.single {σ : State} {i : Instr} (hi : decode (σ.fetch image) = some i)
    (hm : i.memFree = true) : Steps image σ [σ.recOf image i] (σ.step image) :=
  .cons hi hm (.refl _)

lemma Steps.append {σ σ' σ'' : State} {l l' : List Rec} (h : Steps image σ l σ')
    (h' : Steps image σ' l' σ'') : Steps image σ (l ++ l') σ'' := by
  induction h with
  | refl σ => exact h'
  | cons hi hm _ ih => exact .cons hi hm (ih h')

/-- An execution that starts where the interpreter is after `m` instructions continues its run. -/
theorem Steps.run_trace {σ σ' : State} {l : List Rec} (h : Steps image σ l σ') {m : ℕ}
    (hm : run image m = σ) :
    run image (m + l.length) = σ' ∧ trace image (m + l.length) = trace image m ++ l := by
  induction h generalizing m with
  | refl σ => exact ⟨hm, by simp⟩
  | @cons σ σ' l i hi hmem h ih =>
    have hr : run image (m + 1) = σ.step image := by rw [run_succ, hm]
    obtain ⟨h1, h2⟩ := ih hr
    rw [List.length_cons, Nat.add_comm _ 1, ← Nat.add_assoc]
    refine ⟨h1, ?_⟩
    rw [h2, trace_succ, hm, State.shown_of_decode image _ hi hmem, List.append_assoc,
      List.singleton_append]

end RiscvSoc.Isa
