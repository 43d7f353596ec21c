import RiscvSoc.Pipeline.Front
import RiscvSoc.Isa.Instr

/-!
# The registers behind the write-back

A result that has left EX may still be in EX/WB, in MEM/WB or in the write buffer of the register
file.  `settled` is the register file with what the write-back port and the buffer are about to
bring to it.
-/

namespace RiscvSoc.Rtl

namespace Core

variable (s : Core)

/-- The register `r` once the write-back of the cycle and the write buffer have reached it. -/
def settled (r : BitVec 5) : BitVec 32 :=
  if s.regFileIn.we = true ∧ s.regFileIn.waddr = r then s.regFileIn.wdata else s.regfile.held r

/-- The write that reaches the array at the end of the cycle. -/
def regWrites : List (BitVec 5 × BitVec 32) :=
  if s.regfile.weFinal s.regFileIn then
    [(s.regfile.waddrEff s.regFileIn, s.regfile.wdataEff s.regFileIn)]
  else []

/-- The write-back port has something for the array. -/
def portWrites : Prop := s.regFileIn.we = true ∧ s.regFileIn.waddr ≠ 0#5

variable {s}

/-- Behind a load in MEM/WB the port brings its data. -/
lemma settled_of_load (h : s.memWb.wbIsLoad = true) (r : BitVec 5) :
    s.settled r = if s.memWb.wbRd = r then s.memWb.wbLoadData else s.regfile.held r := by
  simp [settled, regFileIn, wbIn, WbIn.wbWeOut, WbIn.wbWaddrOut, WbIn.wbWdataOut, h]

/-- Otherwise it brings what EX/WB holds. -/
lemma settled_of_not_load (h : s.memWb.wbIsLoad = false) (r : BitVec 5) :
    s.settled r = if s.exWb.wbRegWriteEn = true ∧ s.exWb.wbRd = r then s.exWb.wbResult
      else s.regfile.held r := by
  simp [settled, regFileIn, wbIn, WbIn.wbWeOut, WbIn.wbWaddrOut, WbIn.wbWdataOut, h]

/-- **The array after an edge** holds what was settled, and the link of a JAL in ID over it, as
long as nothing writes while the buffer is full. -/
theorem held_step {i : CoreIn}
    (hb : s.regfile.weBuf = true → s.jalLinkWe = false ∧ ¬ s.portWrites) {r : BitVec 5}
    (hr : r ≠ 0#5) :
    (s.step i).regfile.held r =
      if s.jalLinkWe = true ∧ s.id.rd = r then s.ifId.idPcPlus4 else s.settled r := by
  have hb' : s.regfile.weBuf = true →
      s.regFileIn.we2 = false ∧ (s.regFileIn.we = true → s.regFileIn.waddr = 0#5) := by
    intro hf
    obtain ⟨hj, hw⟩ := hb hf
    refine ⟨hj, ?_⟩
    intro he
    by_contra h0
    exact hw ⟨he, h0⟩
  exact RegFileBram.held_step (i := s.regFileIn) hb' hr

/-! ### The write buffer -/

lemma weBuf_step (i : CoreIn) :
    (s.step i).regfile.weBuf = RegFileBram.preempted s.regFileIn := rfl

lemma weBuf_step_of_noLink (i : CoreIn) (h : s.jalLinkWe = false) :
    (s.step i).regfile.weBuf = false := by
  simp [weBuf_step, RegFileBram.preempted, regFileIn, h]

/-- Without links the array takes what is on the write-back port. -/
lemma regWrites_of_noLink (hb : s.regfile.weBuf = false) (hl : s.jalLinkWe = false) :
    s.regWrites = if s.regFileIn.we && s.regFileIn.waddr != 0#5 then
      [(s.regFileIn.waddr, s.regFileIn.wdata)] else [] := by
  have hl' : s.regFileIn.we2 = false := hl
  simp [regWrites, RegFileBram.weFinal, RegFileBram.weEff, RegFileBram.waddrEff,
    RegFileBram.wdataEff, hb, hl']

/-- Without a write buffer the array is what it holds. -/
lemma held_of_empty (h : s.regfile.weBuf = false) (r : BitVec 5) :
    s.regfile.held r = s.regfile.regs r := by
  simp [RegFileBram.held, h]

/-! ### One cycle without a JAL -/

/-- The instruction in EX writes the register `r`. -/
def exWritesTo (s : Core) (r : BitVec 5) : Prop :=
  s.idEx.exRegWriteEn = true ∧ s.idEx.exRd = r

section NoJal

variable {i : CoreIn} (hj : s.jumpIf = false) (hw : s.regfile.weBuf = false)
include hj hw

lemma held_step_of_noJal {r : BitVec 5} (hr : r ≠ 0#5) :
    (s.step i).regfile.held r = s.settled r := by
  have hl := jalLinkWe_of_jumpIf hj
  rw [held_step (fun hf => by simp [hw] at hf) hr]
  simp [hl]

/-- A register that EX does not write changes only with the load that leaves EX/MEM. -/
theorem settled_step_of_not_writes (hf : i.flush = false) {r : BitVec 5} (hr : r ≠ 0#5)
    (hn : ¬ s.exWritesTo r) :
    (s.step i).settled r =
      if s.stallBack i = false ∧ s.exMem.memReadEn = true ∧ s.exMem.rd = r then
        s.memLoadDataStub i
      else s.settled r := by
  have hheld := held_step_of_noJal hj hw (i := i) hr
  have hex : (s.step i).exWb = s.exWbIn i := exWb_step hf
  have hnot : ¬ ((s.step i).exWb.wbRegWriteEn = true ∧ (s.step i).exWb.wbRd = r) := by
    rw [hex]; exact hn
  have hmem := memWb_step (s := s) hf
  cases hs : s.stallBack i
  · rw [hs] at hmem
    simp only [Bool.false_eq_true, if_false] at hmem
    cases hl : s.exMem.memReadEn
    · rw [settled_of_not_load (by rw [hmem]; exact hl), if_neg hnot, hheld]
      simp
    · rw [settled_of_load (by rw [hmem]; exact hl), hmem, hheld]
      by_cases hd : s.exMem.rd = r <;> simp [memWbIn, hd]
  · rw [hs] at hmem
    simp only [if_true] at hmem
    cases hl : s.memWb.wbIsLoad
    · rw [settled_of_not_load (by rw [hmem]; exact hl), if_neg hnot, hheld]
      simp
    · rw [settled_of_load (by rw [hmem]; exact hl), hmem, hheld, settled_of_load hl]
      by_cases hd : s.memWb.wbRd = r <;> simp [hd]

end NoJal

/-! ### Drained pipelines -/

/-- A word that leaves no trace in the registers: the NOP or a JAL to `x0`. -/
def Inert (w : BitVec 32) : Prop := w = nop ∨ (Isa.opcode w = opcodeJal ∧ Isa.rd w = 0#5)

/-- Only NOPs, bubbles and JALs to `x0` are in flight. -/
structure Drained (s : Core) : Prop where
  ifId : Inert s.ifId.instrOut
  idEx : Inert s.idEx.exInstr
  memReadEn : s.exMem.memReadEn = false
  memWriteEn : s.exMem.memWriteEn = false
  exWb : ¬ (s.exWb.wbRegWriteEn = true ∧ s.exWb.wbRd ≠ 0#5)
  wbIsLoad : s.memWb.wbIsLoad = false

lemma Drained.settled_eq (h : s.Drained) (hb : s.regfile.weBuf = false) {r : BitVec 5}
    (hr : r ≠ 0#5) : s.settled r = s.regfile.regs r := by
  have hw : ¬ (s.exWb.wbRegWriteEn = true ∧ s.exWb.wbRd = r) := fun hw =>
    h.exWb ⟨hw.1, hw.2 ▸ hr⟩
  rw [settled_of_not_load h.wbIsLoad, if_neg hw, held_of_empty hb]

end Core

end RiscvSoc.Rtl
