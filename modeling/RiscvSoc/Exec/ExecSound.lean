import RiscvSoc.Exec.AluSound
import RiscvSoc.Rtl.Stages

/-!
# Decode and execute compute the instruction

For a word that encodes an instruction: what `ID_stage` says of it, and what `EX_stage` computes
for it from the values its operands take.
-/

namespace RiscvSoc.Rtl

open Isa

/-! ### What `ID_stage` says of a legal word -/

section Id

variable {w : BitVec 32} {i : Instr}

/-- The wires of `ID_stage` against the instruction a word encodes. -/
structure IdSpec (w : BitVec 32) (i : Instr) : Prop where
  useRs1 : (idStage w).useRs1 = i.rs1?.isSome
  useRs2 : (idStage w).useRs2 = i.rs2?.isSome
  regWriteEn : (idStage w).regWriteEn = i.rd?.isSome
  rs1 : ∀ r, i.rs1? = some r → r = (idStage w).rs1
  rs2 : ∀ r, i.rs2? = some r → r = (idStage w).rs2
  rd : ∀ r, i.rd? = some r → r = (idStage w).rd
  isJump : (idStage w).isJump = i.isJal
  redirects : (idStage w).isBranch = true ∨ (idStage w).isJalr = true → i.isBranchOrJalr = true
  memFree : i.memFree = true → (idStage w).isLoad = false ∧ (idStage w).isStore = false

/-- **`ID_stage` on a legal word.** -/
theorem idSpec (h : decode w = some i) : IdSpec w i := by
  have hop := opcode_of_decode h
  simp only [opcode] at hop
  cases encodes_of_decode h
  all_goals
    constructor <;>
      simp [idStage, hop, Instr.opcode, Instr.rs1?, Instr.rs2?, Instr.rd?, Instr.isJal,
        Instr.isBranchOrJalr, Instr.memFree, opcodeRType, opcodeIType, opcodeLoad, opcodeStore,
        opcodeBranch, opcodeJalr, opcodeJal, opcodeLui, opcodeAuipc, rs1, rs2, rd]

end Id

/-! ### What `EX_stage` computes -/

namespace ExIn

/-- The fields of ID/EX are those `ID_stage` gives for `w`, fetched from `pc`. -/
structure Decodes (x : ExIn) (w pc : BitVec 32) : Prop where
  exPc : x.exPc = pc
  exPcPlus4 : x.exPcPlus4 = pc + 4#32
  exFun7 : x.exFun7 = (idStage w).fun7
  exRs1 : x.exRs1 = (idStage w).rs1
  exRs2 : x.exRs2 = (idStage w).rs2
  exFuc3 : x.exFuc3 = (idStage w).fuc3
  exOpcode : x.exOpcode = (idStage w).opcode
  exImm : x.exImm = (idStage w).immOut
  exIsBranch : x.exIsBranch = (idStage w).isBranch
  exIsJalr : x.exIsJalr = (idStage w).isJalr
  exIsLoad : x.exIsLoad = (idStage w).isLoad
  exIsStore : x.exIsStore = (idStage w).isStore

variable {x : ExIn} {w pc : BitVec 32} {i : Instr}

/-! The code `EX_stage` picks, format by format. -/

lemma aluOp_op {o : AluOp} (hb : x.exIsBranch = false) (hop : x.exOpcode = opcodeRType)
    (hf : AluOp.ofFunct x.exFuc3 x.exFun7 = some o) : x.aluOp = aluCode o := by
  unfold AluOp.ofFunct at hf
  split_ifs at hf with h7 <;> simp only [Option.some.injEq] at hf <;> subst hf <;>
    simp_all [aluOp, aluCode, isM]

lemma aluOp_mulDiv (hb : x.exIsBranch = false) (hop : x.exOpcode = opcodeRType)
    (hf : x.exFun7 = 0b0000001#7) : x.aluOp = mulCode (MulOp.ofFunct x.exFuc3) := by
  unfold MulOp.ofFunct
  split_ifs <;> simp_all [aluOp, mulCode, isM]

/-- Bit 10 of the immediate tells the two right shifts apart. -/
lemma aluOp_opImm {o : AluOp} (hb : x.exIsBranch = false) (hop : x.exOpcode = opcodeIType)
    (hf : AluOp.ofFunctImm x.exFuc3 x.exFun7 = some o)
    (h10 : x.exImm.getLsbD 10 = x.exFun7.getLsbD 5) : x.aluOp = aluCode o := by
  have hr : ¬ opcodeIType = opcodeRType := by decide
  unfold AluOp.ofFunctImm at hf
  split_ifs at hf <;> simp only [Option.some.injEq] at hf <;> subst hf <;>
    simp_all [-BitVec.getLsbD_eq_getElem, aluOp, aluCode]

lemma aluOp_branch {o : BranchOp} (hb : x.exIsBranch = true)
    (hf : BranchOp.ofFunct x.exFuc3 = some o) : x.aluOp = branchCode o := by
  unfold BranchOp.ofFunct at hf
  split_ifs at hf <;> simp only [Option.some.injEq] at hf <;> subst hf <;>
    simp_all [aluOp, branchAluOp, branchCode]

/-! The immediate of a shift. -/

lemma immI_bit (w : BitVec 32) : (immI w).getLsbD 10 = (funct7 w).getLsbD 5 := by
  simp only [immI, funct7, BitVec.getLsbD_signExtend, BitVec.getLsbD_extractLsb']
  simp

lemma immI_shamt (w : BitVec 32) : shamt (immI w) = shamt ((rs2 w).setWidth 32) := by
  have h : ∀ b : BitVec 32, shamt b = (b.setWidth 5).toNat := fun b => by simp [shamt]
  rw [h, h]
  congr 1
  apply BitVec.eq_of_getLsbD_eq
  intro k hk
  simp only [immI, rs2, BitVec.getLsbD_setWidth, BitVec.getLsbD_signExtend,
    BitVec.getLsbD_extractLsb']
  simp [hk, show k < 12 by omega, show k < 32 by omega]

lemma eval_immOp (o : AluOp) (a w : BitVec 32) : o.eval a (immI w) = o.eval a (immOp o w) := by
  unfold immOp
  cases o <;> simp [AluOp.isShift, AluOp.eval, immI_shamt]

/-! The formats of the immediates. -/

lemma immGen_immI (h : opcode w = 0b0010011#7 ∨ opcode w = 0b1100111#7) : immGen w = immI w := by
  simp only [opcode] at h
  rcases h with h | h <;>
    simp [immGen, h, immI, opcodeStore, opcodeBranch, opcodeJal, opcodeLui, opcodeAuipc]

lemma immGen_immU (h : opcode w = 0b0110111#7 ∨ opcode w = 0b0010111#7) : immGen w = immU w := by
  simp only [opcode] at h
  rcases h with h | h <;>
    simp [immGen, h, immU, opcodeStore, opcodeBranch, opcodeJal, opcodeLui, opcodeAuipc]

lemma immGen_immB (h : opcode w = 0b1100011#7) : immGen w = immB w := by
  simp only [opcode] at h
  simp [immGen, h, immB, opcodeStore, opcodeBranch]

lemma immGen_immJ (h : opcode w = 0b1101111#7) : immGen w = immJ w := by
  simp only [opcode] at h
  simp [immGen, h, immJ, opcodeStore, opcodeBranch, opcodeJal]

/-- A JAL and its immediate. -/
lemma eq_jal_of_isJal (h : decode w = some i) (hj : i.isJal = true) :
    i = .jal (rd w) (immGen w) := by
  cases encodes_of_decode h <;> simp [Instr.isJal] at hj
  case jal hop => rw [immGen_immJ hop]

/-! The two ways to the result. -/

lemma exResult_alu (hv : x.instrValidFinal = true) (hl : x.exOpcode ≠ opcodeLui)
    (ha : x.exOpcode ≠ opcodeAuipc) (hj : x.exOpcode ≠ opcodeJalr) :
    x.exResult = x.alu.result := by
  simp [exResult, hv, hl, ha, hj]

lemma alu_op (hop : x.exOpcode = opcodeRType) :
    x.alu = ⟨x.rs1DataFinal, x.rs2DataFinal, x.aluOp⟩ := by
  simp [alu, hop]

lemma alu_opImm (hop : x.exOpcode = opcodeIType) (hb : x.exIsBranch = false) :
    x.alu = ⟨x.rs1DataFinal, x.exImm, x.aluOp⟩ := by
  have hr : ¬ opcodeIType = opcodeRType := by decide
  simp [alu, hop, hb, hr]

/-- **The result.** What `EX_stage` computes for an instruction that writes a register; a JAL is
not executed there. -/
theorem exResult_spec (hd : x.Decodes w pc) (hi : decode w = some i) (hj : i.isJal = false)
    (hv : x.instrValidFinal = true) {v : BitVec 32}
    (hr : i.result pc x.rs1DataFinal x.rs2DataFinal = some v) : x.exResult = v := by
  have hop' : x.exOpcode = opcode w := hd.exOpcode
  have hf3 : x.exFuc3 = funct3 w := hd.exFuc3
  have hf7 : x.exFun7 = funct7 w := hd.exFun7
  have himm : x.exImm = immGen w := hd.exImm
  have hbr : x.exIsBranch = (opcode w == opcodeBranch) := hd.exIsBranch
  cases encodes_of_decode hi
  all_goals simp only [Instr.result, Option.some.injEq, reduceCtorEq] at hr
  case mulDiv hop hf =>
    rw [hop] at hop' hbr
    rw [exResult_alu hv (by simp [hop', opcodeLui]) (by simp [hop', opcodeAuipc])
      (by simp [hop', opcodeJalr]), alu_op hop', aluOp_mulDiv hbr hop' (by rw [hf7, hf]),
      result_mulCode, hf3, hr]
  case op o hop hf =>
    rw [hop] at hop' hbr
    rw [exResult_alu hv (by simp [hop', opcodeLui]) (by simp [hop', opcodeAuipc])
      (by simp [hop', opcodeJalr]), alu_op hop', aluOp_op hbr hop' (by rw [hf3, hf7, hf]),
      result_aluCode, hr]
  case opImm o hop hf =>
    rw [hop] at hop' hbr
    have himm' : x.exImm = immI w := himm.trans (immGen_immI (.inl hop))
    rw [exResult_alu hv (by simp [hop', opcodeLui]) (by simp [hop', opcodeAuipc])
      (by simp [hop', opcodeJalr]), alu_opImm hop' hbr,
      aluOp_opImm hbr hop' (by rw [hf3, hf7, hf]) (by rw [himm', hf7, immI_bit]),
      result_aluCode, himm', eval_immOp, hr]
  case lui hop =>
    simp [exResult, hv, hop', hop, opcodeLui, himm, immGen_immU (.inl hop), hr]
  case auipc hop =>
    simp [exResult, hv, hop', hop, opcodeLui, opcodeAuipc, himm, immGen_immU (.inr hop), hd.exPc,
      hr]
  case jal => simp [Instr.isJal] at hj
  case jalr hop =>
    simp [exResult, hv, hop', hop, opcodeLui, opcodeAuipc, opcodeJalr, hd.exPcPlus4, hr]

/-- The condition of a branch. -/
lemma condition_spec {o : BranchOp} {r₁ r₂ : BitVec 5} {imm : BitVec 32} (hd : x.Decodes w pc)
    (hi : decode w = some (.branch o r₁ r₂ imm)) :
    x.alu.condition = o.holds x.rs1DataFinal x.rs2DataFinal := by
  have hf3 : x.exFuc3 = funct3 w := hd.exFuc3
  have hbr : x.exIsBranch = (opcode w == opcodeBranch) := hd.exIsBranch
  cases encodes_of_decode hi
  case branch hop hf =>
    rw [hop] at hbr
    have hb : x.exIsBranch = true := hbr
    rw [← condition_branchCode, ← aluOp_branch hb (by rw [hf3, hf])]
    simp [alu, hb]

/-- **The redirect.** The address `EX_stage` sends the fetch to, or the next one in line. -/
theorem nextPc_spec (hd : x.Decodes w pc) (hi : decode w = some i) (hj : i.isJal = false)
    (hv : x.instrValidFinal = true) :
    (if x.jalr then x.pcJalr else if x.branchTaken then x.pcBranch else pc + 4#32) =
      i.nextPc pc x.rs1DataFinal x.rs2DataFinal := by
  have himm : x.exImm = immGen w := hd.exImm
  have hbr : x.exIsBranch = (opcode w == opcodeBranch) := hd.exIsBranch
  have hjr : x.exIsJalr = (opcode w == opcodeJalr) := hd.exIsJalr
  have hbt : x.branchTaken = (x.exIsBranch && x.alu.condition) := by simp [branchTaken, hv]
  have hj' : x.jalr = x.exIsJalr := by simp [jalr, hv]
  rw [hbt, hj']
  cases encodes_of_decode hi
  case jalr hop =>
    simp [hjr, hop, opcodeJalr, pcJalr, himm, immGen_immI (.inr hop), Instr.nextPc]
  case branch o hop hf =>
    rw [hop] at hbr hjr
    have hb : x.exIsBranch = true := hbr
    have hjr' : x.exIsJalr = false := hjr
    simp [hb, hjr', condition_spec hd hi, pcBranch, himm, immGen_immB hop, hd.exPc, Instr.nextPc]
  all_goals
    rw [opcode_of_decode hi] at hbr hjr
    simp [hbr, hjr, Instr.opcode, opcodeBranch, opcodeJalr, Instr.nextPc, Instr.isJal] at hj ⊢

/-! ### Loads and stores -/

lemma immGen_immI_load (h : opcode w = 0b0000011#7) : immGen w = immI w := by
  simp only [opcode] at h
  simp [immGen, h, immI, opcodeStore, opcodeBranch, opcodeJal, opcodeLui, opcodeAuipc]

lemma immGen_immS (h : opcode w = 0b0100011#7) : immGen w = immS w := by
  simp only [opcode] at h
  simp [immGen, h, immS, opcodeStore]

/-- The address EX offers for a load or a store. -/
lemma memAddrOut_spec (hd : x.Decodes w pc) (hi : decode w = some i) {m : BitVec 32}
    (hm : i.memAddr x.rs1DataFinal = some m) : x.memAddrOut = m := by
  have himm : x.exImm = immGen w := hd.exImm
  cases encodes_of_decode hi
  all_goals simp only [Instr.memAddr, Option.some.injEq, reduceCtorEq] at hm
  case load hop hf => rw [memAddrOut, himm, immGen_immI_load hop, hm]
  case store hop hf => rw [memAddrOut, himm, immGen_immS hop, hm]

/-! ### The stage as a whole -/

/-- No forwarding register holds an operand: both are what the register file read. -/
structure NoForward (x : ExIn) : Prop where
  lockRs1 : x.lockHit x.exRs1 = false
  lockRs2 : x.lockHit x.exRs2 = false
  aluRs1 : x.aluHit x.exRs1 = false
  aluRs2 : x.aluHit x.exRs2 = false

lemma NoForward.rs1DataFinal (h : x.NoForward) : x.rs1DataFinal = x.rs1Data := by
  simp [ExIn.rs1DataFinal, dataFinal, h.lockRs1, h.aluRs1]

lemma NoForward.rs2DataFinal (h : x.NoForward) : x.rs2DataFinal = x.rs2Data := by
  simp [ExIn.rs2DataFinal, dataFinal, h.lockRs2, h.aluRs2]

/-- The wires of `EX_stage` against what an instruction at `pc` does with the operands `a` and
`b`. -/
structure Computes (x : ExIn) (i : Instr) (pc a b : BitVec 32) : Prop where
  exResult : ∀ v, i.result pc a b = some v → x.exResult = v
  branchTaken : x.branchTaken = i.taken a b
  jalr : x.jalr = i.isJalr
  memReadEn : x.memReadEn = i.isLoad
  memWriteEn : x.memWriteEn = i.isStore
  pcBranch : ∀ t, i.branchTarget pc = some t → x.pcBranch = t
  pcJalr : ∀ t, i.jalrTarget a = some t → x.pcJalr = t
  memAddrOut : ∀ m, i.memAddr a = some m → x.memAddrOut = m
  memWdata : ∀ v, i.memData b = some v → x.memWdata = v

/-- The kind of instruction in EX, wire by wire. -/
structure Kind (x : ExIn) (i : Instr) : Prop where
  isBranch : x.exIsBranch = (i.opcode == opcodeBranch)
  isJalr : x.exIsJalr = i.isJalr
  isLoad : x.exIsLoad = i.isLoad
  isStore : x.exIsStore = i.isStore

lemma kind_of_decode (hd : x.Decodes w pc) (hi : decode w = some i) : x.Kind i := by
  have hop : w.extractLsb' 0 7 = i.opcode := opcode_of_decode hi
  constructor
  · rw [hd.exIsBranch]
    simp [idStage, hop]
  · rw [hd.exIsJalr]
    cases i <;> simp [idStage, hop, Instr.opcode, Instr.isJalr, opcodeJalr]
  · rw [hd.exIsLoad]
    cases i <;> simp [idStage, hop, Instr.opcode, Instr.isLoad, opcodeLoad]
  · rw [hd.exIsStore]
    cases i <;> simp [idStage, hop, Instr.opcode, Instr.isStore, opcodeStore]

/-- **`EX_stage` on a decoded word.** -/
theorem computes_of_decode (hd : x.Decodes w pc) (hi : decode w = some i) (hj : i.isJal = false)
    (hv : x.instrValidFinal = true) : x.Computes i pc x.rs1DataFinal x.rs2DataFinal := by
  have hk := kind_of_decode hd hi
  have himm : x.exImm = immGen w := hd.exImm
  constructor
  · intro v hr
    exact exResult_spec hd hi hj hv hr
  · rw [ExIn.branchTaken, hv, hk.isBranch]
    cases i
    case branch o r₁ r₂ imm =>
      simp [Instr.opcode, opcodeBranch, Instr.taken, condition_spec hd hi]
    all_goals simp [Instr.opcode, opcodeBranch, Instr.taken]
  · rw [ExIn.jalr, hv, hk.isJalr, Bool.true_and]
  · rw [ExIn.memReadEn, hv, hk.isLoad, Bool.true_and]
  · rw [ExIn.memWriteEn, hv, hk.isStore, Bool.true_and]
  · intro t ht
    cases encodes_of_decode hi
    all_goals simp only [Instr.branchTarget, Option.some.injEq, reduceCtorEq] at ht
    case branch hop hf => rw [ExIn.pcBranch, hd.exPc, himm, immGen_immB hop, ht]
  · intro t ht
    cases encodes_of_decode hi
    all_goals simp only [Instr.jalrTarget, Option.some.injEq, reduceCtorEq] at ht
    case jalr hop => rw [ExIn.pcJalr, himm, immGen_immI (.inr hop), ht]
  · intro m hm
    exact memAddrOut_spec hd hi hm
  · intro v hm
    cases i
    all_goals simp only [Instr.memData, Option.some.injEq, reduceCtorEq] at hm
    case store => exact hm

/-- **Decode and execute compute the instruction.**  `ID_stage` fed into `EX_stage`, with a valid
instruction, no store lock and no forwarding, computes what the word it decodes to does with the
operands the register file gives. -/
theorem ex_stage_computes (hd : x.Decodes w pc) (hi : decode w = some i) (hj : i.isJal = false)
    (hv : x.exInstrValid = true) (hs : x.forwardStoreLockIn = false) (hf : x.NoForward) :
    x.Computes i pc x.rs1Data x.rs2Data := by
  have hv' : x.instrValidFinal = true := by simp [instrValidFinal, memReqBlock, hv, hs]
  have h := computes_of_decode hd hi hj hv'
  rwa [hf.rs1DataFinal, hf.rs2DataFinal] at h

end ExIn

/-- `EX_stage` fed by `ID_stage` on the word `w`, fetched from `pc`, with the operands `a` and `b`
and forwarding registers that hold nothing. -/
def exOfId (w pc a b : BitVec 32) : ExIn where
  exInstrValid := true
  exPc := pc
  exPcPlus4 := pc + 4#32
  exFun7 := (idStage w).fun7
  exRs1 := (idStage w).rs1
  exRs2 := (idStage w).rs2
  exFuc3 := (idStage w).fuc3
  exOpcode := (idStage w).opcode
  exImm := (idStage w).immOut
  exIsBranch := (idStage w).isBranch
  exIsJalr := (idStage w).isJalr
  exIsLoad := (idStage w).isLoad
  exIsStore := (idStage w).isStore
  rs1Data := a
  rs2Data := b
  forwardRdIn := 0#5
  forwardRdDataIn := 0#32
  forwardLoadLockIn := false
  forwardStoreLockIn := false
  forwardRdRegLoadIn := 0#5
  forwardRdDataRegLoadIn := 0#32

/-- `div x3, x1, x2` of `-2^31` by `-1`. -/
theorem ex_stage_computes_div :
    (exOfId 0x0220c1b3#32 0x80000000#32 0x80000000#32 0xffffffff#32).Computes
      (.mulDiv .div 3#5 1#5 2#5) 0x80000000#32 0x80000000#32 0xffffffff#32 :=
  ExIn.ex_stage_computes (x := exOfId 0x0220c1b3#32 0x80000000#32 0x80000000#32 0xffffffff#32)
    (w := 0x0220c1b3#32) ⟨rfl, rfl, rfl, rfl, rfl, rfl, rfl, rfl, rfl, rfl, rfl, rfl⟩
    (by decide) rfl rfl rfl ⟨rfl, rfl, rfl, rfl⟩

end RiscvSoc.Rtl
