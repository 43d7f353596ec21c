import RiscvSoc.Pipeline.MemFree
import RiscvSoc.Pipeline.Front
import RiscvSoc.Isa.Interp
import RiscvSoc.Exec.ExecSound

/-!
# The pipeline against the interpreter, without memory accesses

`Sim` ties a state of the core to the state of the interpreter before the instruction that EX
executes next.  A cycle executes what the valid instruction in EX does and then what a JAL in ID
does, so it is up to two steps of the interpreter.
-/

namespace RiscvSoc.Rtl

open Isa Sync

/-! ### What a cycle executes -/

namespace Core

variable (s : Core) (i : CoreIn)

/-- What EX shows of the instruction in it. -/
def exRec : Rec where
  pc := s.idEx.exPc
  word := s.idEx.exInstr
  op1 := if s.idEx.exUseRs1 then some (s.exIn i).rs1DataFinal else none
  op2 := if s.idEx.exUseRs2 then some (s.exIn i).rs2DataFinal else none
  result := if s.idEx.exRegWriteEn then some (s.exIn i).exResult else none

/-- The instruction that passes through EX as valid in the cycle. -/
def exShown : List Rec := if s.idEx.exInstrValid then [s.exRec i] else []

/-- What ID shows of a JAL, which is executed there. -/
def jalRec : Rec := ⟨s.ifId.idPc, s.ifId.instrOut, none, none, some s.ifId.idPcPlus4⟩

def jalShown : List Rec := if s.jumpIf then [s.jalRec] else []

/-- What the cycle executes, in program order. -/
def executed : List Rec := s.exShown i ++ s.jalShown

/-! ### The conditions on a JAL -/

/-- A JAL in ID does not meet a redirect of EX. -/
def JumpAlone : Prop := s.jumpIf = true → s.branchHazardEx i = false

/-- **A JAL in ID writes its link in order**: the instruction in EX does not write the same
register, and where the link preempts an older result the instruction in EX writes none. -/
structure LinkInOrder : Prop where
  otherRd : s.jalLinkWe = true → s.idEx.exRegWriteEn = true → s.idEx.exRd ≠ s.id.rd
  bufferFree : s.jalLinkWe = true → writesBack s.exWb → s.exWb.wbRd ≠ s.id.rd →
    s.idEx.exRegWriteEn = true → s.idEx.exRd = 0#5

end Core

/-! ### The simulation relation -/

section Relation

variable (image : BitVec 10 → BitVec 32)

/-- Every word of the image is a legal instruction that is neither a load nor a store. -/
def MemFreeImage : Prop := ∀ a, ∃ i, decode (image a) = some i ∧ i.memFree = true

/-- **How far the front of the pipeline is**: nothing is fetched of the instructions from the one
at `σ.pc` on; or that one is in ID; or it is in EX and the next one is in ID. -/
inductive Front (s : Core) (σ : State) : Prop
  | empty (ifId : s.ifId = IfIdReg.bubble) (exInstrValid : s.idEx.exInstrValid = false)
      (exRegWriteEn : s.idEx.exRegWriteEn = false) (pcReg : s.pcReg = σ.pc)
      (buffered : s.regfile.weBuf = true → ¬ Core.writesBack s.exWb)
  | fetched (ifId : s.ifId = fetchedAt (instMem image) σ.pc)
      (idEx : s.idEx = decodedOf IfIdReg.bubble)
      (pcReg : s.pcReg = σ.pc + 4#32) (weBuf : s.regfile.weBuf = false)
  | full (ifId : s.ifId = fetchedAt (instMem image) (σ.pc + 4#32))
      (idEx : s.idEx = decodedOf (fetchedAt (instMem image) σ.pc))
      (pcReg : s.pcReg = σ.pc + 4#32 + 4#32) (weBuf : s.regfile.weBuf = false)
      (notJal : ∀ i, decode (instMem image σ.pc) = some i → i.isJal = false)
      (forward : s.registerEx.rdReg ≠ 0#5 →
        s.registerEx.rdDataReg = σ.regs s.registerEx.rdReg)
      (tag : Core.writesBack s.exWb → s.registerEx.rdReg = s.exWb.wbRd)
      (raddr1 : s.regfile.raddr1Q = s.idEx.exRs1) (raddr2 : s.regfile.raddr2Q = s.idEx.exRs2)

/-- **The simulation relation.** -/
structure Sim (s : Core) (σ : State) : Prop where
  quiet : s.MemQuiet
  fresh : s.regfile.Fresh
  front : Front image s σ
  settled : ∀ r, r ≠ 0#5 → s.settled r = σ.regs r
  zero : σ.regs 0#5 = 0#32

lemma sim_reset : Sim image Core.reset State.init where
  quiet := Core.memQuiet_reset
  fresh := RegFileBram.fresh_init
  front := .empty rfl rfl rfl rfl (by simp [Core.reset, RegFileBram.init])
  settled := by
    intro r _
    rw [Core.settled_of_not_load rfl]
    simp [Core.reset, ExWbReg.reset, RegFileBram.held, RegFileBram.init, State.init]
  zero := rfl

end Relation

/-! ### What the relation says of EX -/

namespace Core

variable {image : BitVec 10 → BitVec 32} {s : Core} {σ : State} {b : BusIn} {i : Instr}

/-- The forwarding register or the file holds what the interpreter does. -/
lemma operand_eq (hq : s.MemQuiet) (hz : σ.regs 0#5 = 0#32)
    (hset : ∀ r, r ≠ 0#5 → s.settled r = σ.regs r) (hbuf : s.regfile.weBuf = false)
    (hfwd : s.registerEx.rdReg ≠ 0#5 → s.registerEx.rdDataReg = σ.regs s.registerEx.rdReg)
    (htag : writesBack s.exWb → s.registerEx.rdReg = s.exWb.wbRd)
    (hreg0 : s.regfile.regs 0#5 = 0#32) (rs : BitVec 5) :
    (s.exIn (b.pins (instMem image) s)).dataFinal rs (s.regfile.regs rs) = σ.regs rs := by
  unfold ExIn.dataFinal
  rw [hq.lockHit]
  simp only [Bool.false_eq_true, if_false]
  by_cases hit : (s.exIn (b.pins (instMem image) s)).aluHit rs = true
  · have ht : s.registerEx.rdReg ≠ 0#5 ∧ s.registerEx.rdReg = rs := by
      simpa [ExIn.aluHit, exIn] using hit
    rw [if_pos hit, ← ht.2]
    exact hfwd ht.1
  · rw [if_neg hit]
    by_cases h0 : rs = 0#5
    · rw [h0, hreg0, hz]
    · have hw : ¬ (s.exWb.wbRegWriteEn = true ∧ s.exWb.wbRd = rs) := by
        rintro ⟨he, rfl⟩
        exact hit (by simp [ExIn.aluHit, exIn, htag ⟨he, h0⟩, h0])
      rw [← hset rs h0, settled_of_not_load hq.wbIsLoad, if_neg hw]
      simp [RegFileBram.held, hbuf]

/-- The wires of EX belong to the word at the address of the interpreter. -/
lemma decodes_of_idEx (h : s.idEx = decodedOf (fetchedAt (instMem image) σ.pc)) (c : CoreIn) :
    (s.exIn c).Decodes (instMem image σ.pc) σ.pc := by
  constructor <;> simp [exIn, h, decodedOf, fetchedAt, IdExReg.ofId]

/-- **A valid instruction in EX is the interpreter's**: operands, result and redirect. -/
theorem exRec_eq (h : s.idEx = decodedOf (fetchedAt (instMem image) σ.pc)) (c : CoreIn)
    (hi : decode (instMem image σ.pc) = some i) (hm : i.memFree = true) (hj : i.isJal = false)
    (hv : (s.exIn c).instrValidFinal = true)
    (h1 : (s.exIn c).rs1DataFinal = σ.regs s.idEx.exRs1)
    (h2 : (s.exIn c).rs2DataFinal = σ.regs s.idEx.exRs2) :
    s.exRec c = σ.recOf image i ∧
      (if (s.exIn c).jalr then (s.exIn c).pcJalr
        else if (s.exIn c).branchTaken then (s.exIn c).pcBranch else σ.pc + 4#32) =
      i.nextPc σ.pc (σ.operand i.rs1?) (σ.operand i.rs2?) := by
  have hd := decodes_of_idEx h c
  have sp := idSpec hi
  have hr1 : s.idEx.exRs1 = (idStage (instMem image σ.pc)).rs1 := by rw [h]; rfl
  have hr2 : s.idEx.exRs2 = (idStage (instMem image σ.pc)).rs2 := by rw [h]; rfl
  have ha : i.rs1?.isSome → (s.exIn c).rs1DataFinal = σ.operand i.rs1? := by
    intro hs
    obtain ⟨r, hr⟩ := Option.isSome_iff_exists.mp hs
    rw [h1, hr1, ← sp.rs1 r hr, hr]; rfl
  have hb : i.rs2?.isSome → (s.exIn c).rs2DataFinal = σ.operand i.rs2? := by
    intro hs
    obtain ⟨r, hr⟩ := Option.isSome_iff_exists.mp hs
    rw [h2, hr2, ← sp.rs2 r hr, hr]; rfl
  obtain ⟨hres, hnext⟩ := Instr.congr_operands σ.pc ha hb
  refine ⟨?_, by rw [← hnext]; exact ExIn.nextPc_spec hd hi hj hv⟩
  have hu1 : s.idEx.exUseRs1 = i.rs1?.isSome := by rw [h]; exact sp.useRs1
  have hu2 : s.idEx.exUseRs2 = i.rs2?.isSome := by rw [h]; exact sp.useRs2
  have hwe : s.idEx.exRegWriteEn = i.rd?.isSome := by rw [h]; exact sp.regWriteEn
  have hop1 : (if s.idEx.exUseRs1 then some (s.exIn c).rs1DataFinal else none) =
      i.rs1?.map σ.regs := by
    rw [hu1]
    cases hr : i.rs1? with
    | none => rfl
    | some r => simp [h1, hr1, ← sp.rs1 r hr]
  have hop2 : (if s.idEx.exUseRs2 then some (s.exIn c).rs2DataFinal else none) =
      i.rs2?.map σ.regs := by
    rw [hu2]
    cases hr : i.rs2? with
    | none => rfl
    | some r => simp [h2, hr2, ← sp.rs2 r hr]
  have hval : (if s.idEx.exRegWriteEn then some (s.exIn c).exResult else none) =
      i.result σ.pc (σ.operand i.rs1?) (σ.operand i.rs2?) := by
    rw [← hres, hwe, ← Instr.result_isSome hm σ.pc (s.exIn c).rs1DataFinal
      (s.exIn c).rs2DataFinal]
    cases hv' : i.result σ.pc (s.exIn c).rs1DataFinal (s.exIn c).rs2DataFinal with
    | none => rfl
    | some v => simp [ExIn.exResult_spec hd hi hj hv hv']
  have hpc : s.idEx.exPc = σ.pc := by rw [h]; rfl
  have hword : s.idEx.exInstr = σ.fetch image := by rw [h]; rfl
  simp only [exRec, State.recOf, hpc, hword, hop1, hop2, hval]

/-! ### A JAL in ID -/

lemma jumpIf_eq {pc : BitVec 32} (h : s.ifId = fetchedAt (instMem image) pc)
    (hi : decode (instMem image pc) = some i) : s.jumpIf = i.isJal := by
  have hj : s.id.isJump = i.isJal := by
    simp only [Core.id, h, fetchedAt]; exact (idSpec hi).isJump
  simp [jumpIf, hj, h, fetchedAt]

/-- **A JAL in ID is the interpreter's**: what it shows, its target and its link. -/
theorem jalRec_eq (h : s.ifId = fetchedAt (instMem image) σ.pc)
    (hi : decode (instMem image σ.pc) = some i) (hj : i.isJal = true) :
    s.jalRec = σ.recOf image i ∧ s.pcJumpIf = (σ.step image).pc ∧
      ∀ r, r ≠ 0#5 → (σ.step image).regs r =
        if s.id.rd = r then s.ifId.idPcPlus4 else σ.regs r := by
  have hf : decode (σ.fetch image) = some i := hi
  have he := ExIn.eq_jal_of_isJal hi hj
  have hm : i.memFree = true := by rw [he]; rfl
  have hrd : s.id.rd = rd (σ.fetch image) := by simp [Core.id, h, fetchedAt, idStage]; rfl
  refine ⟨?_, ?_, ?_⟩
  · simp [jalRec, State.recOf, he, h, fetchedAt, Instr.rs1?, Instr.rs2?, Instr.result]
    rfl
  · rw [σ.step_of_decode image hf hm]
    simp [he, Instr.nextPc, pcJumpIf, h, fetchedAt, Core.id]
    rfl
  · intro r hr
    rw [State.step_regs image hf hm hr, hrd]
    simp [State.recOf, he, Instr.result, h, fetchedAt]

/-! ### One cycle -/

lemma settled_step (hq : s.MemQuiet) (hb : b.Calm)
    (hbuf : s.regfile.weBuf = true → s.jalLinkWe = false ∧ ¬ writesBack s.exWb) {r : BitVec 5}
    (hr : r ≠ 0#5) :
    (s.step (b.pins (instMem image) s)).settled r =
      if s.idEx.exRegWriteEn = true ∧ s.idEx.exRd = r then
        (s.exIn (b.pins (instMem image) s)).exResult
      else if s.jalLinkWe = true ∧ s.id.rd = r then s.ifId.idPcPlus4
      else s.settled r := by
  have hbuf' : s.regfile.weBuf = true → s.jalLinkWe = false ∧ ¬ s.portWrites := by
    intro hf
    rw [hq.portWrites_iff]
    exact hbuf hf
  have hwb : (s.step (b.pins (instMem image) s)).memWb.wbIsLoad = false := by
    simp [step, MemWbReg.step, hq.stallBack hb.stall, memWbIn, hq.memReadEn]
  rw [settled_of_not_load hwb, hq.step_exWb hb.stall, held_step hbuf' hr]
  rfl

end Core

section Step

variable {image : BitVec 10 → BitVec 32} {s : Core} {σ : State} {b : BusIn}

/-- **The operands of a valid instruction in EX** are the registers of the interpreter. -/
theorem Sim.operands (h : Sim image s σ) (hv : s.idEx.exInstrValid = true) :
    (s.exIn (b.pins (instMem image) s)).rs1DataFinal = σ.regs s.idEx.exRs1 ∧
      (s.exIn (b.pins (instMem image) s)).rs2DataFinal = σ.regs s.idEx.exRs2 := by
  cases h.front with
  | empty _ hv' => simp [hv'] at hv
  | fetched _ idEx => rw [idEx] at hv; simp [decodedOf, IdExReg.ofId, IfIdReg.bubble] at hv
  | full _ _ _ weBuf _ forward tag raddr1 raddr2 =>
    have hop : ∀ rs, (s.exIn (b.pins (instMem image) s)).dataFinal rs (s.regfile.regs rs) =
        σ.regs rs :=
      Core.operand_eq h.quiet h.zero h.settled weBuf forward tag h.fresh.zero
    have hp1 : (s.exIn (b.pins (instMem image) s)).rs1Data = s.regfile.regs s.idEx.exRs1 := by
      rw [← raddr1]; exact h.fresh.port1
    have hp2 : (s.exIn (b.pins (instMem image) s)).rs2Data = s.regfile.regs s.idEx.exRs2 := by
      rw [← raddr2]; exact h.fresh.port2
    rw [ExIn.rs1DataFinal, ExIn.rs2DataFinal, hp1, hp2]
    exact ⟨hop s.idEx.exRs1, hop s.idEx.exRs2⟩

/-- Nothing in the front: the next cycle has the instruction in ID. -/
theorem Sim.step_empty (h : Sim image s σ) (hb : b.Calm) (ifId : s.ifId = IfIdReg.bubble)
    (exInstrValid : s.idEx.exInstrValid = false) (exRegWriteEn : s.idEx.exRegWriteEn = false)
    (pcReg : s.pcReg = σ.pc) (buffered : s.regfile.weBuf = true → ¬ Core.writesBack s.exWb) :
    s.executed (b.pins (instMem image) s) = [] ∧
      Sim image (s.step (b.pins (instMem image) s)) σ := by
  have hj : s.jumpIf = false := by simp [Core.jumpIf, ifId, IfIdReg.bubble]
  have hl := Core.jalLinkWe_of_jumpIf hj
  have hx := h.quiet.branchHazardEx_of_invalid (b := b) (M := instMem image) exInstrValid
  have hr : s.redirect (b.pins (instMem image) s) = false := by simp [Core.redirect, hx, hj]
  have hn := Core.jalr_branchTaken_of_no_hazard hx
  refine ⟨by simp [Core.executed, Core.exShown, Core.jalShown, exInstrValid, hj], ?_⟩
  refine ⟨h.quiet.step hb.stall ?_ ?_, h.fresh.step _, ?_, ?_, h.zero⟩
  · rw [Core.id, ifId]; rfl
  · rw [Core.id, ifId]; rfl
  · refine .fetched ?_ ?_ ?_ (Core.weBuf_step_of_noLink _ hl)
    · rw [h.quiet.step_ifId hb, hr, pcReg]; rfl
    · rw [h.quiet.step_idEx hb.stall, hr, Core.id, ifId]; rfl
    · rw [h.quiet.step_pcReg hb, hn.1, hj, hn.2, pcReg]; rfl
  · intro r hr0
    rw [Core.settled_step h.quiet hb (fun hf => ⟨hl, buffered hf⟩) hr0, ← h.settled r hr0]
    simp [exRegWriteEn, hl]

/-- **The cycle up to ID**: what EX shows takes the interpreter from `σ` to `σ'`, and the registers
settle with those of `σ'` but for the link of a JAL in ID. -/
structure AfterEx (image : BitVec 10 → BitVec 32) (b : BusIn) (s : Core) (σ σ' : State) :
    Prop where
  steps : Steps image σ (s.exShown (b.pins (instMem image) s)) σ'
  settled : ∀ r, r ≠ 0#5 → (s.step (b.pins (instMem image) s)).settled r =
    if s.jalLinkWe = true ∧ s.id.rd = r then s.ifId.idPcPlus4 else σ'.regs r
  zero : σ'.regs 0#5 = 0#32

section AfterEx

variable {σ' : State} {i : Instr}

/-- A redirect leaves the front empty. -/
lemma Sim.front_empty (h : Sim image s σ) (hb : b.Calm)
    (hr : s.redirect (b.pins (instMem image) s) = true)
    (hpc : (s.step (b.pins (instMem image) s)).pcReg = σ'.pc)
    (hbuf : (s.step (b.pins (instMem image) s)).regfile.weBuf = true →
      ¬ Core.writesBack (s.step (b.pins (instMem image) s)).exWb) :
    Front image (s.step (b.pins (instMem image) s)) σ' := by
  refine .empty ?_ ?_ ?_ hpc hbuf
  · rw [h.quiet.step_ifId hb, hr]; rfl
  · rw [h.quiet.step_idEx hb.stall, hr]; rfl
  · rw [h.quiet.step_idEx hb.stall, hr]; rfl

/-- What is in ID keeps the memory out of the pipeline. -/
lemma Sim.step_quiet (h : Sim image s σ) (hb : b.Calm) {pc : BitVec 32}
    (ifId : s.ifId = fetchedAt (instMem image) pc) (hi : decode (instMem image pc) = some i)
    (hm : i.memFree = true) : (s.step (b.pins (instMem image) s)).MemQuiet := by
  have hid : s.id = idStage (instMem image pc) := by rw [Core.id, ifId]; rfl
  have hls := (idSpec hi).memFree hm
  rw [← hid] at hls
  exact h.quiet.step hb.stall hls.1 hls.2

/-- The instruction in ID moves on to EX. -/
lemma Sim.step_next (h : Sim image s σ) (hb : b.Calm) (ha : AfterEx image b s σ σ')
    (ifId : s.ifId = fetchedAt (instMem image) σ'.pc) (pcReg : s.pcReg = σ'.pc + 4#32)
    (hi : decode (instMem image σ'.pc) = some i) (hm : i.memFree = true) (hj : i.isJal = false)
    (hx : s.branchHazardEx (b.pins (instMem image) s) = false)
    (forward : (s.step (b.pins (instMem image) s)).registerEx.rdReg ≠ 0#5 →
      (s.step (b.pins (instMem image) s)).registerEx.rdDataReg =
        σ'.regs (s.step (b.pins (instMem image) s)).registerEx.rdReg)
    (tag : Core.writesBack (s.step (b.pins (instMem image) s)).exWb →
      (s.step (b.pins (instMem image) s)).registerEx.rdReg =
        (s.step (b.pins (instMem image) s)).exWb.wbRd) :
    ∃ σ', Steps image σ (s.executed (b.pins (instMem image) s)) σ' ∧
      Sim image (s.step (b.pins (instMem image) s)) σ' := by
  have hjump := Core.jumpIf_eq ifId hi
  rw [hj] at hjump
  have hl := Core.jalLinkWe_of_jumpIf hjump
  have hn := Core.jalr_branchTaken_of_no_hazard hx
  have hr : s.redirect (b.pins (instMem image) s) = false := by simp [Core.redirect, hx, hjump]
  have hidEx : (s.step (b.pins (instMem image) s)).idEx =
      decodedOf (fetchedAt (instMem image) σ'.pc) := by
    rw [h.quiet.step_idEx hb.stall, hr, ← ifId]; rfl
  refine ⟨σ', ?_, h.step_quiet hb ifId hi hm, h.fresh.step _, ?_,
    fun r hr0 => by rw [ha.settled r hr0]; simp [hl], ha.zero⟩
  · simpa [Core.executed, Core.jalShown, hjump] using ha.steps
  · refine .full ?_ hidEx ?_ (Core.weBuf_step_of_noLink _ hl) ?_ forward tag ?_ ?_
    · rw [h.quiet.step_ifId hb, hr, pcReg]; rfl
    · rw [h.quiet.step_pcReg hb, hn.1, hjump, hn.2, pcReg]; rfl
    · intro i' hi'
      rw [hi] at hi'
      cases hi'
      exact hj
    · rw [hidEx, ← ifId]; rfl
    · rw [hidEx, ← ifId]; rfl

/-- A JAL in ID is executed there. -/
lemma Sim.step_jal (h : Sim image s σ) (hb : b.Calm) (ha : AfterEx image b s σ σ')
    (ifId : s.ifId = fetchedAt (instMem image) σ'.pc)
    (hi : decode (instMem image σ'.pc) = some i) (hm : i.memFree = true) (hj : i.isJal = true)
    (hx : s.branchHazardEx (b.pins (instMem image) s) = false)
    (hbuf : (s.step (b.pins (instMem image) s)).regfile.weBuf = true →
      ¬ Core.writesBack (s.step (b.pins (instMem image) s)).exWb) :
    ∃ σ', Steps image σ (s.executed (b.pins (instMem image) s)) σ' ∧
      Sim image (s.step (b.pins (instMem image) s)) σ' := by
  have hjump := Core.jumpIf_eq ifId hi
  rw [hj] at hjump
  obtain ⟨hrec, htgt, hregs⟩ := Core.jalRec_eq ifId hi hj
  have hn := Core.jalr_branchTaken_of_no_hazard hx
  have hr : s.redirect (b.pins (instMem image) s) = true := by simp [Core.redirect, hjump]
  refine ⟨σ'.step image, ?_, h.step_quiet hb ifId hi hm, h.fresh.step _, ?_, ?_,
    State.step_regs_zero image ha.zero⟩
  · refine ha.steps.append ?_
    simp only [Core.jalShown, hjump, if_true, hrec]
    exact .single hi hm
  · refine h.front_empty hb hr ?_ hbuf
    rw [h.quiet.step_pcReg hb, hn.1, hjump, ← htgt]; rfl
  · intro r hr0
    rw [ha.settled r hr0, hregs r hr0]
    by_cases hd : s.id.rd = r
    · simp [Core.jalLinkWe, hjump, hd, hr0]
    · simp [hd]

end AfterEx

/-- The first instruction in ID, a bubble in EX. -/
theorem Sim.step_fetched (himg : MemFreeImage image) (h : Sim image s σ) (hb : b.Calm)
    (ifId : s.ifId = fetchedAt (instMem image) σ.pc) (idEx : s.idEx = decodedOf IfIdReg.bubble)
    (pcReg : s.pcReg = σ.pc + 4#32) (weBuf : s.regfile.weBuf = false) :
    ∃ σ', Steps image σ (s.executed (b.pins (instMem image) s)) σ' ∧
      Sim image (s.step (b.pins (instMem image) s)) σ' := by
  obtain ⟨i, hi, hm⟩ := himg (wordAddr σ.pc)
  change decode (instMem image σ.pc) = some i at hi
  have hv : s.idEx.exInstrValid = false := by rw [idEx]; rfl
  have hrd : s.idEx.exRd = 0#5 := by rw [idEx]; rfl
  have hx := h.quiet.branchHazardEx_of_invalid (b := b) (M := instMem image) hv
  have hexWb : ¬ Core.writesBack (s.step (b.pins (instMem image) s)).exWb := by
    rw [h.quiet.step_exWb hb.stall]
    exact fun hw => hw.2 hrd
  have ha : AfterEx image b s σ σ := by
    refine ⟨?_, ?_, h.zero⟩
    · simp only [Core.exShown, hv, Bool.false_eq_true, if_false]
      exact .refl σ
    · intro r hr
      rw [Core.settled_step h.quiet hb (fun hf => by simp [weBuf] at hf) hr, h.settled r hr,
        if_neg fun hw => hr (hw.2.symm.trans hrd)]
  cases hj : i.isJal
  · have hreg := h.quiet.step_rdReg hb (M := instMem image)
    have hwe : s.idEx.exRegWriteEn = true := by rw [idEx]; rfl
    rw [hx, hwe, hrd] at hreg
    simp only [Bool.false_eq_true, if_false, if_true, Prod.mk.injEq] at hreg
    exact h.step_next hb ha ifId pcReg hi hm hj hx (fun h0 => absurd hreg.1 h0)
      fun hw => absurd hw hexWb
  · exact h.step_jal hb ha ifId hi hm hj hx fun _ => hexWb

/-- **A valid instruction in EX** is executed as the interpreter does it. -/
lemma Sim.ex_full (himg : MemFreeImage image) (h : Sim image s σ)
    (idEx : s.idEx = decodedOf (fetchedAt (instMem image) σ.pc))
    (notJal : ∀ i, decode (instMem image σ.pc) = some i → i.isJal = false) :
    Steps image σ (s.exShown (b.pins (instMem image) s)) (σ.step image) ∧
      (if (s.exIn (b.pins (instMem image) s)).jalr then
          (s.exIn (b.pins (instMem image) s)).pcJalr
        else if (s.exIn (b.pins (instMem image) s)).branchTaken then
          (s.exIn (b.pins (instMem image) s)).pcBranch
        else σ.pc + 4#32) = (σ.step image).pc ∧
      ∀ r, r ≠ 0#5 → (σ.step image).regs r =
        if s.idEx.exRegWriteEn = true ∧ s.idEx.exRd = r then
          (s.exIn (b.pins (instMem image) s)).exResult
        else s.settled r := by
  obtain ⟨i, hi, hm⟩ := himg (wordAddr σ.pc)
  change decode (instMem image σ.pc) = some i at hi
  have hf : decode (σ.fetch image) = some i := hi
  have hv : s.idEx.exInstrValid = true := by rw [idEx]; rfl
  have hvf : (s.exIn (b.pins (instMem image) s)).instrValidFinal = true := by
    rw [h.quiet.instrValidFinal, hv]
  obtain ⟨h1, h2⟩ := h.operands (b := b) hv
  obtain ⟨hrec, hnext⟩ := Core.exRec_eq idEx _ hi hm (notJal i hi) hvf h1 h2
  have hrdw : s.idEx.exRd = rd (σ.fetch image) := by rw [idEx]; rfl
  refine ⟨?_, ?_, ?_⟩
  · simp only [Core.exShown, hv, if_true, hrec]
    exact .single hf hm
  · rw [hnext, σ.step_of_decode image hf hm]
  · intro r hr
    have hres : (σ.recOf image i).result = if s.idEx.exRegWriteEn then
        some (s.exIn (b.pins (instMem image) s)).exResult else none := by rw [← hrec]; rfl
    rw [State.step_regs image hf hm hr, hres, h.settled r hr, hrdw]
    by_cases hw : s.idEx.exRegWriteEn = true <;> simp [hw]

/-- An instruction in EX and the next one in ID. -/
theorem Sim.step_full (himg : MemFreeImage image) (h : Sim image s σ) (hb : b.Calm)
    (hja : s.JumpAlone (b.pins (instMem image) s)) (hlo : s.LinkInOrder)
    (ifId : s.ifId = fetchedAt (instMem image) (σ.pc + 4#32))
    (idEx : s.idEx = decodedOf (fetchedAt (instMem image) σ.pc))
    (pcReg : s.pcReg = σ.pc + 4#32 + 4#32) (weBuf : s.regfile.weBuf = false)
    (notJal : ∀ i, decode (instMem image σ.pc) = some i → i.isJal = false)
    (forward : s.registerEx.rdReg ≠ 0#5 → s.registerEx.rdDataReg = σ.regs s.registerEx.rdReg) :
    ∃ σ', Steps image σ (s.executed (b.pins (instMem image) s)) σ' ∧
      Sim image (s.step (b.pins (instMem image) s)) σ' := by
  obtain ⟨k, hk, hmk⟩ := himg (wordAddr (σ.pc + 4#32))
  change decode (instMem image (σ.pc + 4#32)) = some k at hk
  obtain ⟨hsteps, hnext, hregs⟩ := h.ex_full (b := b) himg idEx notJal
  have ha : AfterEx image b s σ (σ.step image) := by
    refine ⟨hsteps, ?_, State.step_regs_zero image h.zero⟩
    intro r hr
    rw [Core.settled_step h.quiet hb (fun hf => by simp [weBuf] at hf) hr, hregs r hr]
    by_cases hl : s.jalLinkWe = true ∧ s.id.rd = r
    · have hn : ¬ (s.idEx.exRegWriteEn = true ∧ s.idEx.exRd = r) := fun hw =>
        hlo.otherRd hl.1 hw.1 (hw.2.trans hl.2.symm)
      simp only [if_neg hn, if_pos hl]
    · simp only [if_neg hl]
  cases hx : s.branchHazardEx (b.pins (instMem image) s)
  · -- EX redirects nothing, so the instruction in ID is the next one.
    have hn := Core.jalr_branchTaken_of_no_hazard hx
    rw [hn.1, hn.2] at hnext
    simp only [Bool.false_eq_true, if_false] at hnext
    rw [hnext] at ifId hk pcReg
    cases hj : k.isJal
    · have hreg := h.quiet.step_rdReg hb (M := instMem image)
      rw [hx] at hreg
      refine h.step_next hb ha ifId pcReg hk hmk hj hx ?_ ?_
      · intro h0
        by_cases hw : s.idEx.exRegWriteEn = true
        · simp only [hw, Bool.false_eq_true, if_false, if_true, Prod.mk.injEq] at hreg
          rw [hreg.1] at h0 ⊢
          rw [hreg.2, hregs _ h0]
          simp [hw]
        · simp only [hw, Bool.false_eq_true, if_false, Prod.mk.injEq] at hreg
          rw [hreg.1] at h0 ⊢
          rw [hreg.2, hregs _ h0, forward h0, h.settled _ h0]
          simp [hw]
      · intro hw
        rw [h.quiet.step_exWb hb.stall] at hw ⊢
        have hw' : s.idEx.exRegWriteEn = true := hw.1
        simp only [hw', Bool.false_eq_true, if_false, if_true, Prod.mk.injEq] at hreg
        exact hreg.1
    · refine h.step_jal hb ha ifId hk hmk hj hx ?_
      rw [h.quiet.step_exWb hb.stall, Core.weBuf_step]
      rintro hp ⟨hw, hne⟩
      simp only [RegFileBram.preempted, Core.regFileIn, Bool.and_eq_true, bne_iff_ne] at hp
      obtain ⟨⟨⟨hl, hwe⟩, h0⟩, hd⟩ := hp
      obtain ⟨e1, e2, -⟩ := h.quiet.regFileIn
      simp only [Core.regFileIn] at e1 e2
      rw [e1] at hwe
      rw [e2] at h0 hd
      exact hne (hlo.bufferFree hl ⟨hwe, h0⟩ hd hw)
  · -- EX redirects, and the instruction in ID, which is no JAL, is dropped.
    have hjf : s.jumpIf = false := by
      by_contra hj
      simp [hja (by simpa using hj)] at hx
    have hl := Core.jalLinkWe_of_jumpIf hjf
    have hr : s.redirect (b.pins (instMem image) s) = true := by simp [Core.redirect, hx]
    refine ⟨σ.step image, ?_, h.step_quiet hb ifId hk hmk, h.fresh.step _, ?_,
      fun r hr0 => by rw [ha.settled r hr0]; simp [hl], ha.zero⟩
    · simpa [Core.executed, Core.jalShown, hjf] using ha.steps
    · refine h.front_empty hb hr ?_ (by simp [Core.weBuf_step_of_noLink _ hl])
      have hsome : (s.exIn (b.pins (instMem image) s)).jalr = true ∨
          (s.exIn (b.pins (instMem image) s)).branchTaken = true := by
        simpa [Core.branchHazardEx, HazardIn.branchHazardEx, Core.hazard, or_comm] using hx
      rw [h.quiet.step_pcReg hb, hjf, ← hnext]
      rcases hsome with hs | hs
      · simp [hs]
      · by_cases hs' : (s.exIn (b.pins (instMem image) s)).jalr = true <;> simp [hs, hs']

/-- **One cycle.** What the core executes in it the interpreter executes too, and the two states
are related again. -/
theorem Sim.step (himg : MemFreeImage image) (h : Sim image s σ) (hb : b.Calm)
    (hja : s.JumpAlone (b.pins (instMem image) s)) (hlo : s.LinkInOrder) :
    ∃ σ', Steps image σ (s.executed (b.pins (instMem image) s)) σ' ∧
      Sim image (s.step (b.pins (instMem image) s)) σ' := by
  cases h.front with
  | empty ifId exInstrValid exRegWriteEn pcReg buffered =>
    obtain ⟨he, hs⟩ := h.step_empty hb ifId exInstrValid exRegWriteEn pcReg buffered
    exact ⟨σ, by rw [he]; exact .refl σ, hs⟩
  | fetched ifId idEx pcReg weBuf => exact h.step_fetched himg hb ifId idEx pcReg weBuf
  | full ifId idEx pcReg weBuf notJal forward =>
    exact h.step_full himg hb hja hlo ifId idEx pcReg weBuf notJal forward

end Step

end RiscvSoc.Rtl
