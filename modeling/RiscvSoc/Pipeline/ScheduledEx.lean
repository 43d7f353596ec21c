import RiscvSoc.Pipeline.ScheduledBack

/-!
# The front of the pipeline under a scheduled program

What a cycle does to IF/ID and the PC, and that the instruction in EX is executed as the
interpreter does it.
-/

namespace RiscvSoc.Rtl

open Isa Sync

namespace SocBram

variable {image : BitVec 10 → BitVec 32} {s : SocBram} {f : ImemIn} {pc : BitVec 32}

/-! ### The front -/

/-- A NOP in ID neither jumps nor waits for a load. -/
lemma nop_waits_for_nothing (hi : s.core.ifId.instrOut = nop) (c : CoreIn) :
    s.core.jumpIf = false ∧ s.core.loadUseHazard c = false :=
  nop_in_id (fun _ => nop) hi

lemma loadUseHazard_of_idle (h : Free s) (hl : s.core.idEx.exIsLoad = false) (c : CoreIn) :
    s.core.loadUseHazard c = false := by
  simp [Core.loadUseHazard, HazardIn.loadUseHazard, Core.hazard, RegisterEx.loadPendingOut,
    h.not_busy, hl]

section Redirect

variable (hbr : s.core.branchHazardEx (s.fetchPins image f) = false)
  (hj : s.core.jumpIf = false)
include hbr hj

/-- Without a jump and a redirect, IF/ID stays and ID/EX gets a bubble for a load only. -/
lemma fetch_flush : s.core.flushIfid (s.fetchPins image f) = false ∧
    s.core.flushIdex (s.fetchPins image f) =
      (s.core.loadUseHazard (s.fetchPins image f) &&
        !s.core.stallBack (s.fetchPins image f)) := by
  constructor
  · rw [fetchPins, Core.flushIfid_pins, hj, ← fetchPins, hbr]
    rfl
  · rw [fetchPins, Core.flushIdex_pins, hj, ← fetchPins, hbr]
    simp

lemma fetch_pcReg : (s.fetchStep image f).core.pcReg =
    if s.core.stallFront (s.fetchPins image f) then s.core.pcReg else s.core.pcReg + 4#32 := by
  obtain ⟨h1, h2⟩ := Core.jalr_branchTaken_of_no_hazard hbr
  have hpc : (s.fetchStep image f).core.pcReg = s.core.pcNext (s.fetchPins image f) := rfl
  rw [hpc, fetchPins, Core.pcNext_pins, ← fetchPins, h1, h2, hj]
  rfl

/-- The front goes on when the instruction memory answers; ID hands on what is in it. -/
lemma FrontAt.fetch_go (h : FrontAt (instMem image) s.core pc)
    (hlu : s.core.loadUseHazard (s.fetchPins image f) = false)
    (hs : s.core.stallBack (s.fetchPins image f) = false) :
    FrontAt (instMem image) (s.fetchStep image f).core (if f.ready then pc + 4#32 else pc) ∧
      (s.fetchStep image f).core.idEx = decodedOf (fetchedAt (instMem image) pc) := by
  have hfront : s.core.stallFront (s.fetchPins image f) = !f.ready := by
    rw [Core.stallFront_eq, hs, hlu]
    rfl
  obtain ⟨hfd, hfx⟩ := fetch_flush hbr hj
  rw [hlu, Bool.false_and] at hfx
  have hidEx : (s.fetchStep image f).core.idEx = decodedOf (fetchedAt (instMem image) pc) := by
    simp only [fetchStep, Core.step, IdExReg.step, hfx, hs, Core.id, h.ifId]
    rfl
  have hifId : (s.fetchStep image f).core.ifId =
      s.core.ifId.step (s.core.stallFront (s.fetchPins image f))
        (s.core.flushIfid (s.fetchPins image f)) (s.core.fetched (s.fetchPins image f)) := rfl
  refine ⟨⟨?_, ?_⟩, hidEx⟩
  · cases hr : f.ready
    · rw [hifId, hfd, hfront, hr]
      exact h.ifId
    · have hgo : s.core.stallFront (s.fetchPins image f) = false := by rw [hfront, hr]; rfl
      rw [hifId, hfd, hgo]
      simp only [if_true]
      rw [← h.pcReg]
      exact Core.fetched_pins s.core _ (instMem image) hgo hfd
  · rw [fetch_pcReg hbr hj, hfront, h.pcReg]
    cases f.ready <;> rfl

/-- The front waits for the back. -/
lemma FrontAt.fetch_wait (h : FrontAt (instMem image) s.core pc)
    (hs : s.core.stallBack (s.fetchPins image f) = true) :
    FrontAt (instMem image) (s.fetchStep image f).core pc ∧
      (s.fetchStep image f).core.idEx = s.core.idEx := by
  have hfront : s.core.stallFront (s.fetchPins image f) = true := by
    rw [Core.stallFront_eq, hs]
    rfl
  obtain ⟨hfd, hfx⟩ := fetch_flush hbr hj
  rw [hs, Bool.not_true, Bool.and_false] at hfx
  refine ⟨⟨?_, ?_⟩, ?_⟩
  · simp only [fetchStep, Core.step, IfIdReg.step, hfd, hfront]
    exact h.ifId
  · rw [fetch_pcReg hbr hj, hfront, h.pcReg]
    rfl
  · simp only [fetchStep, Core.step, IdExReg.step, hfx, hs]
    rfl

end Redirect

/-- What a redirect leaves of the front. -/
lemma fetch_redirect (hs : s.core.stallBack (s.fetchPins image f) = false)
    (hr : s.core.redirect (s.fetchPins image f) = true) :
    (s.fetchStep image f).core.ifId = IfIdReg.bubble ∧
      (s.fetchStep image f).core.idEx = IdExReg.bubble := by
  have hfd : s.core.flushIfid (s.fetchPins image f) = true := hr
  have hfx : s.core.flushIdex (s.fetchPins image f) = true := by
    rw [fetchPins, Core.flushIdex_pins, ← fetchPins, hs]
    simp only [Core.redirect, Bool.or_eq_true] at hr
    rcases hr with hr | hr <;> simp [hr]
  constructor
  · simp only [fetchStep, Core.step, IfIdReg.step, hfd]
    rfl
  · simp only [fetchStep, Core.step, IdExReg.step, hfx]
    rfl

/-! ### EX -/

section Ex

variable {σ : MemState} {i : Instr}

/-- The address of an access in `data_mem`. -/
lemma wordAddr_dataAddr (σ : MemState) (rs1 : BitVec 5) (imm : BitVec 32) :
    wordAddr (σ.regs rs1 + imm) = (σ.dataAddr rs1 imm).extractLsb' 2 10 :=
  (dataAddr_word (σ.regs rs1 + imm)).symm

/-- An instruction has a result in EX just when it has a destination and is no load. -/
lemma result_isSome (i : Instr) (pc a b : BitVec 32) :
    (i.result pc a b).isSome = (i.rd?.isSome && !i.isLoad) := by
  cases i <;> rfl

/-- The forwarding register or the file holds what the interpreter does. -/
lemma operand_eq {rs : BitVec 5} (hv : Views s σ) (hfree : Free s)
    (hw : s.core.memWb.wbIsLoad = false) (hbuf : s.core.regfile.weBuf = false)
    (hfwd : s.core.registerEx.rdReg ≠ 0#5 →
      s.core.registerEx.rdDataReg = σ.regs s.core.registerEx.rdReg)
    (htag : Core.writesBack s.core.exWb → s.core.registerEx.rdReg = s.core.exWb.wbRd)
    (c : CoreIn) : (s.core.exIn c).dataFinal rs (s.core.regfile.regs rs) = σ.regs rs := by
  have hidle : s.core.registerEx.lstate = .idle := by simp [hfree.lstate, hw]
  have hlock : (s.core.exIn c).lockHit rs = false := by
    simp [ExIn.lockHit, Core.exIn, RegisterEx.loadLockOut, hidle]
  unfold ExIn.dataFinal
  rw [hlock]
  simp only [Bool.false_eq_true, if_false]
  by_cases hit : (s.core.exIn c).aluHit rs = true
  · have ht : s.core.registerEx.rdReg ≠ 0#5 ∧ s.core.registerEx.rdReg = rs := by
      simpa [ExIn.aluHit, Core.exIn] using hit
    rw [if_pos hit, ← ht.2]
    exact hfwd ht.1
  · rw [if_neg hit]
    by_cases h0 : rs = 0#5
    · rw [h0, hv.fresh.zero, hv.zero]
    · have hwb : ¬ (s.core.exWb.wbRegWriteEn = true ∧ s.core.exWb.wbRd = rs) := by
        rintro ⟨he, rfl⟩
        exact hit (by simp [ExIn.aluHit, Core.exIn, htag ⟨he, h0⟩, h0])
      rw [← hv.regs rs h0, regView, hfree.memReadEn, Core.settled_of_not_load hw, if_neg hwb,
        Core.held_of_empty hbuf]
      simp

/-- The instruction `i` is in EX, with the operands of the interpreter. -/
structure HasOperands (image : BitVec 10 → BitVec 32) (s : SocBram) (c : CoreIn) (σ : MemState)
    (i : Instr) : Prop where
  idEx : s.core.idEx = decodedOf (fetchedAt (instMem image) σ.pc)
  decode : decode (instMem image σ.pc) = some i
  notJal : i.isJal = false
  valid : (s.core.exIn c).instrValidFinal = true
  rs1 : (s.core.exIn c).rs1DataFinal = σ.regs s.core.idEx.exRs1
  rs2 : (s.core.exIn c).rs2DataFinal = σ.regs s.core.idEx.exRs2

section HasOperands

variable {c : CoreIn} (h : HasOperands image s c σ i)
include h

lemma HasOperands.operands :
    (i.rs1?.isSome → (s.core.exIn c).rs1DataFinal = σ.operand i.rs1?) ∧
      (i.rs2?.isSome → (s.core.exIn c).rs2DataFinal = σ.operand i.rs2?) := by
  have sp := idSpec h.decode
  constructor
  · intro hs
    obtain ⟨r, hr⟩ := Option.isSome_iff_exists.mp hs
    rw [h.rs1, h.idEx, hr]
    exact congrArg σ.regs (sp.rs1 r hr).symm
  · intro hs
    obtain ⟨r, hr⟩ := Option.isSome_iff_exists.mp hs
    rw [h.rs2, h.idEx, hr]
    exact congrArg σ.regs (sp.rs2 r hr).symm

lemma HasOperands.computes :
    (s.core.exIn c).Computes i σ.pc (s.core.exIn c).rs1DataFinal (s.core.exIn c).rs2DataFinal :=
  ExIn.computes_of_decode (Core.decodes_of_idEx h.idEx c) h.decode h.notJal h.valid

/-- The address EX sends the fetch to, or the next one. -/
lemma HasOperands.nextPc :
    (if (s.core.exIn c).jalr then (s.core.exIn c).pcJalr
      else if (s.core.exIn c).branchTaken then (s.core.exIn c).pcBranch else σ.pc + 4#32) =
      (σ.step image).pc := by
  have hstep : (σ.step image).pc = i.nextPc σ.pc (σ.operand i.rs1?) (σ.operand i.rs2?) := by
    rw [σ.step_of_decode image h.decode]
  obtain ⟨h1, h2⟩ := h.operands
  rw [hstep, ← (Instr.congr_operands σ.pc h1 h2).2]
  exact ExIn.nextPc_spec (Core.decodes_of_idEx h.idEx c) h.decode h.notJal h.valid

lemma HasOperands.kind : s.core.idEx.exRegWriteEn = i.rd?.isSome ∧
    s.core.idEx.exIsLoad = i.isLoad ∧ s.core.idEx.exIsStore = i.isStore ∧
      s.core.idEx.exRd = rd (instMem image σ.pc) := by
  have sp := idSpec h.decode
  have hk := ExIn.kind_of_decode (Core.decodes_of_idEx h.idEx c) h.decode
  refine ⟨?_, hk.isLoad, hk.isStore, ?_⟩
  · rw [h.idEx]
    exact sp.regWriteEn
  · rw [h.idEx]
    rfl

/-- **What leaves EX is the interpreter's**: the operands and the result. -/
theorem HasOperands.leaveRec_eq : s.core.leaveRec c = σ.recOf image i := by
  have sp := idSpec h.decode
  obtain ⟨h1, h2⟩ := h.operands
  obtain ⟨hwe, hload, -, -⟩ := h.kind
  have hu1 : s.core.idEx.exUseRs1 = i.rs1?.isSome := by rw [h.idEx]; exact sp.useRs1
  have hu2 : s.core.idEx.exUseRs2 = i.rs2?.isSome := by rw [h.idEx]; exact sp.useRs2
  have hop1 : (if s.core.idEx.exUseRs1 then some (s.core.exIn c).rs1DataFinal else none) =
      i.rs1?.map σ.regs := by
    rw [hu1]
    cases hr : i.rs1? with
    | none => rfl
    | some r => simp [h1 (by rw [hr]; rfl), hr, State.operand]
  have hop2 : (if s.core.idEx.exUseRs2 then some (s.core.exIn c).rs2DataFinal else none) =
      i.rs2?.map σ.regs := by
    rw [hu2]
    cases hr : i.rs2? with
    | none => rfl
    | some r => simp [h2 (by rw [hr]; rfl), hr, State.operand]
  have hval : (if s.core.idEx.exRegWriteEn && !s.core.idEx.exIsLoad then
      some (s.core.exIn c).exResult else none) =
      i.result σ.pc (σ.operand i.rs1?) (σ.operand i.rs2?) := by
    rw [hwe, hload, ← result_isSome i σ.pc (s.core.exIn c).rs1DataFinal
      (s.core.exIn c).rs2DataFinal, ← (Instr.congr_operands σ.pc h1 h2).1]
    cases hres : i.result σ.pc (s.core.exIn c).rs1DataFinal (s.core.exIn c).rs2DataFinal with
    | none => rfl
    | some v => simp [h.computes.exResult v hres]
  have hpc : s.core.idEx.exPc = σ.pc := by rw [h.idEx]; rfl
  have hword : s.core.idEx.exInstr = σ.fetch image := by rw [h.idEx]; rfl
  simp only [Core.leaveRec, Core.exRec, State.recOf, hpc, hword, hop1, hop2, hval]

/-- The address of an access is that of the interpreter. -/
lemma HasOperands.memAddrOut {m : BitVec 32} (hm : i.memAddr (σ.operand i.rs1?) = some m) :
    (s.core.exIn c).memAddrOut = m := by
  refine h.computes.memAddrOut m ?_
  cases hi : i with
  | load o rd rs1 imm =>
    rw [h.operands.1 (by rw [hi]; rfl), hi]
    rwa [hi] at hm
  | store o rs1 rs2 imm =>
    rw [h.operands.1 (by rw [hi]; rfl), hi]
    rwa [hi] at hm
  | _ => rw [hi] at hm; cases hm

end HasOperands

end Ex

end SocBram

end RiscvSoc.Rtl
