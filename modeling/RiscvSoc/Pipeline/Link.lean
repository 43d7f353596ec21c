import RiscvSoc.Pipeline.MemFreeRefines

/-!
# The early link write of JAL

A JAL writes its link in ID, before the instructions ahead of it have written their results.  The
run follows the interpreter as long as every link is written in order.
-/

namespace RiscvSoc.Rtl

open Isa Sync

/-! ### Programs of JALs and straight-line instructions -/

/-- Every word of the image is a legal R-type, I-type ALU, LUI, AUIPC or JAL. -/
def JalImage (image : BitVec 10 → BitVec 32) : Prop :=
  ∀ a, ∃ i, decode (image a) = some i ∧ i.memFree = true ∧ i.isBranchOrJalr = false

section JalImage

variable {image : BitVec 10 → BitVec 32}

lemma JalImage.memFree (h : JalImage image) : MemFreeImage image := fun a =>
  let ⟨i, hi, hm, _⟩ := h a
  ⟨i, hi, hm⟩

/-- EX never redirects. -/
lemma Sim.branchHazardEx_of_jalImage {s : Core} {σ : State} {b : BusIn} (himg : JalImage image)
    (h : Sim image s σ) : s.branchHazardEx (b.pins (instMem image) s) = false := by
  cases h.front with
  | empty _ hv => exact h.quiet.branchHazardEx_of_invalid hv
  | fetched _ idEx => exact h.quiet.branchHazardEx_of_invalid (by rw [idEx]; rfl)
  | full _ idEx =>
    obtain ⟨i, hi, _, hb⟩ := himg (wordAddr σ.pc)
    have hred := (idSpec (w := instMem image σ.pc) hi).redirects
    simp only [hb, Bool.false_eq_true, imp_false, not_or, Bool.not_eq_true] at hred
    have h1 : s.idEx.exIsBranch = false := by rw [idEx]; exact hred.1
    have h2 : s.idEx.exIsJalr = false := by rw [idEx]; exact hred.2
    simp [Core.branchHazardEx, HazardIn.branchHazardEx, Core.hazard, ExIn.branchTaken, ExIn.jalr,
      Core.exIn, h1, h2]

/-- **A NOP before each JAL is enough**: EX writes no register while ID holds a JAL. -/
lemma Sim.linkInOrder_of_nopBefore {s : Core} {σ : State} (himg : JalImage image)
    (hnop : ∀ a i, decode (image (a + 1#10)) = some i → i.isJal = true → image a = nop)
    (h : Sim image s σ) : s.LinkInOrder := by
  have key : s.jalLinkWe = true → s.idEx.exRegWriteEn = true → s.idEx.exRd = 0#5 := by
    intro hl hw
    cases h.front with
    | empty _ _ exRegWriteEn => simp [exRegWriteEn] at hw
    | fetched _ idEx => rw [idEx]; rfl
    | full ifId idEx =>
      have hj : (idStage (instMem image (σ.pc + 4#32))).isJump = true := by
        simp only [Core.jalLinkWe, Core.jumpIf, Core.id, ifId, Bool.and_eq_true] at hl
        exact hl.1.1
      obtain ⟨i, hi, -⟩ := himg (wordAddr σ.pc + 1#10)
      have hn := wordAddr_add σ.pc 1#10
      have hword : instMem image σ.pc = nop := by
        refine hnop _ i hi ?_
        rw [← (idSpec hi).isJump, ← hn]
        exact hj
      rw [idEx]
      change (idStage (instMem image σ.pc)).rd = 0#5
      rw [hword]
      decide
  refine ⟨?_, fun hl _ _ hw => key hl hw⟩
  intro hl hw he
  rw [key hl hw] at he
  simp [Core.jalLinkWe, ← he] at hl

end JalImage

/-! ### The link in the registers and at the operands -/

namespace SocBram

variable (image : BitVec 10 → BitVec 32) (d : DataMem)

/-- **The links of cycle `n`.** What has been executed is what the interpreter executes, and the
registers, with the writes that are about to reach them, are its own: no older result is missing
and none is over a younger link.  So a drained pipeline leaves the registers of the interpreter.  An
operand in EX whose youngest writer is a JAL is the address behind that JAL. -/
structure LinkRefines (n : ℕ) : Prop where
  trace : execTrace image d n = Isa.trace image (execTrace image d n).length
  settled : ∀ r, r ≠ 0#5 → (quietRun image d n).core.settled r =
    (Isa.run image (execTrace image d n).length).regs r
  drained : (quietRun image d n).core.Drained →
    (quietRun image d n).core.regfile.weBuf = false → ∀ r, r ≠ 0#5 →
    (quietRun image d n).core.regfile.regs r =
      (Isa.run image (execTrace image d n).length).regs r
  rs1 : (quietRun image d n).core.idEx.exInstrValid = true →
    (quietRun image d n).core.idEx.exUseRs1 = true →
    (quietRun image d n).core.idEx.exRs1 ≠ 0#5 →
    ∀ x, lastWriter (execTrace image d n) (quietRun image d n).core.idEx.exRs1 = some x →
      opcode x.word = opcodeJal →
      ((quietRun image d n).core.exIn ((quietRun image d n).coreIn image .quiet)).rs1DataFinal =
        x.pc + 4#32
  rs2 : (quietRun image d n).core.idEx.exInstrValid = true →
    (quietRun image d n).core.idEx.exUseRs2 = true →
    (quietRun image d n).core.idEx.exRs2 ≠ 0#5 →
    ∀ x, lastWriter (execTrace image d n) (quietRun image d n).core.idEx.exRs2 = some x →
      opcode x.word = opcodeJal →
      ((quietRun image d n).core.exIn ((quietRun image d n).coreIn image .quiet)).rs2DataFinal =
        x.pc + 4#32

variable {image}

/-- A register whose youngest writer is a JAL holds its link. -/
lemma run_regs_of_jal {m : ℕ} {r : BitVec 5} (hr : r ≠ 0#5) {x : Rec}
    (hx : lastWriter (Isa.trace image m) r = some x) (hj : opcode x.word = opcodeJal) :
    (Isa.run image m).regs r = x.pc + 4#32 := by
  have hmem : x ∈ Isa.trace image m := by
    have := List.mem_of_find?_eq_some hx
    simpa using this
  rw [run_regs m hr, hx]
  simp [result_of_jal hmem hj]

/-- The simulation along a run of such a program. -/
lemma sim_of_jalImage (himg : JalImage image)
    (hC : ∀ n σ, Sim image (quietRun image d n).core σ → (quietRun image d n).core.LinkInOrder)
    (n : ℕ) : Sim image (quietRun image d n).core (Isa.run image (execTrace image d n).length) ∧
      execTrace image d n = Isa.trace image (execTrace image d n).length := by
  refine sim_quietRun himg.memFree (fun k σ h => ⟨fun _ => ?_, hC k σ h⟩) n
  rw [coreIn_quiet]
  exact h.branchHazardEx_of_jalImage himg

/-- **The early link write refines the interpreter** in every run that writes its links in
order. -/
theorem linkRefines_of_linkInOrder (himg : JalImage image)
    (hC : ∀ n, (quietRun image d n).core.LinkInOrder) (n : ℕ) : LinkRefines image d n := by
  obtain ⟨hsim, htr⟩ := sim_of_jalImage (d := d) himg (fun k _ _ => hC k) n
  refine ⟨htr, hsim.settled, ?_, ?_, ?_⟩
  · intro hd hb r hr
    rw [← hd.settled_eq hb hr, hsim.settled r hr]
  · intro hv _ hr x hx hj
    rw [htr] at hx
    rw [coreIn_quiet, (hsim.operands hv).1, run_regs_of_jal hr hx hj]
  · intro hv _ hr x hx hj
    rw [htr] at hx
    rw [coreIn_quiet, (hsim.operands hv).2, run_regs_of_jal hr hx hj]

/-- `addi x2, x0, 7`, a NOP, `jal x1, 4` and `add x3, x1, x2`. -/
def linkAfterNop : BitVec 10 → BitVec 32 := fun a =>
  if a = 0#10 then 0x00700113#32 else if a = 2#10 then 0x004000EF#32
  else if a = 3#10 then 0x002081B3#32 else nop

/-- The link is written in the cycle in which the older result comes, which waits in the write
buffer; three cycles later both are operands in EX. -/
theorem linkRefines_linkAfterNop : LinkRefines linkAfterNop .zero 6 := by
  have hdec : ∀ a, (a = 2#10 ∧ decode (linkAfterNop a) = some (.jal 1#5 4#32)) ∨
      ∃ i, decode (linkAfterNop a) = some i ∧ i.memFree = true ∧ i.isBranchOrJalr = false ∧
        i.isJal = false := by
    intro a
    unfold linkAfterNop
    split_ifs with h0 h2 h3
    · exact .inr ⟨.opImm .add 2#5 0#5 7#32, by decide, rfl, rfl, rfl⟩
    · exact .inl ⟨h2, by decide⟩
    · exact .inr ⟨.op .add 3#5 1#5 2#5, by decide, rfl, rfl, rfl⟩
    · exact .inr ⟨.opImm .add 0#5 0#5 0#32, by decide, rfl, rfl, rfl⟩
  have himg : JalImage linkAfterNop := by
    intro a
    rcases hdec a with ⟨-, h⟩ | ⟨i, h, hm, hb, -⟩
    · exact ⟨_, h, rfl, rfl⟩
    · exact ⟨i, h, hm, hb⟩
  have hnop : ∀ a i, decode (linkAfterNop (a + 1#10)) = some i → i.isJal = true →
      linkAfterNop a = nop := by
    intro a i hi hj
    rcases hdec (a + 1#10) with ⟨ha, -⟩ | ⟨k, hk, -, -, hn⟩
    · have h1 : a = 1#10 := by bv_omega
      rw [h1]
      rfl
    · cases hk.symm.trans hi
      simp [hn] at hj
  refine linkRefines_of_linkInOrder .zero himg ?_ 6
  intro n
  exact (sim_of_jalImage (d := .zero) himg
    (fun _ _ h => h.linkInOrder_of_nopBefore himg hnop) n).1.linkInOrder_of_nopBefore himg hnop

/-- `addi x1, x0, 5` directly in front of `jal x1, 8`. -/
def linkRace : BitVec 10 → BitVec 32 := fun a =>
  if a = 0#10 then 0x00500093#32 else if a = 1#10 then 0x008000EF#32 else nop

/-- **The older result overwrites the link**: the pipeline has drained with 5 in `x1`, where the
interpreter has 8. -/
theorem linkRace_overwritten :
    ¬ ∀ image, JalImage image → ∀ d n, LinkRefines image d n := by
  intro h
  have himg : JalImage linkRace := by
    intro a
    unfold linkRace
    split_ifs
    · exact ⟨.opImm .add 1#5 0#5 5#32, by decide, rfl, rfl⟩
    · exact ⟨.jal 1#5 8#32, by decide, rfl, rfl⟩
    · exact ⟨.opImm .add 0#5 0#5 0#32, by decide, rfl, rfl⟩
  have hr := (h linkRace himg .zero 5).drained
    ⟨by left; decide +kernel, by left; decide +kernel, by decide +kernel, by decide +kernel,
      fun hw => hw.2 (by decide +kernel), by decide +kernel⟩ (by decide +kernel) 1#5 (by decide)
  revert hr
  decide +kernel

end SocBram

end RiscvSoc.Rtl
