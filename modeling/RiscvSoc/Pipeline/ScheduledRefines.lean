import RiscvSoc.Pipeline.ScheduledStep

/-!
# `soc_top_bram` refines the interpreter on scheduled programs

Whatever a scheduled program does, with its loads, its stores and its JALs, the system retires its
instructions in order and with the operands of the interpreter, and it never stops.
-/

namespace RiscvSoc.Rtl

open Isa Sync

/-- Every access that the interpreter makes over the data memory `mem` could take a whole word. -/
def AccessesFit (image : BitVec 10 → BitVec 32) (mem : BitVec 12 → BitVec 8) : Prop :=
  ∀ m i, decode ((memRun image mem m).fetch image) = some i → (memRun image mem m).Fits i

namespace SocBram

variable {image : BitVec 10 → BitVec 32} {s : SocBram} {σ : MemState} {w : ℕ}

/-! ### What has landed -/

/-- Nothing is under way to the register array or to the memory. -/
structure Landed (s : SocBram) : Prop where
  memReadEn : s.core.exMem.memReadEn = false
  memWriteEn : s.core.exMem.memWriteEn = false
  wbIsLoad : s.core.memWb.wbIsLoad = false
  exWb : ¬ Core.writesBack s.core.exWb
  weBuf : s.core.regfile.weBuf = false

lemma Landed.regView (h : Landed s) {r : BitVec 5} (hr : r ≠ 0#5) :
    s.regView r = s.core.regfile.regs r := by
  have hw : ¬ (s.core.exWb.wbRegWriteEn = true ∧ s.core.exWb.wbRd = r) :=
    fun hw => h.exWb ⟨hw.1, hw.2 ▸ hr⟩
  rw [SocBram.regView, h.memReadEn, Core.settled_of_not_load h.wbIsLoad, if_neg hw,
    Core.held_of_empty h.weBuf]
  simp

lemma Landed.memView (h : Landed s) : s.memView = s.dmem.word := by
  rw [SocBram.memView, h.memWriteEn]
  rfl

/-- **A system that is where the interpreter is.** -/
structure Agrees (s : SocBram) (σ : MemState) : Prop where
  regs : ∀ r, r ≠ 0#5 → s.regView r = σ.regs r
  mem : bytes s.memView = σ.mem
  landed : Landed s →
    (∀ r, r ≠ 0#5 → s.core.regfile.regs r = σ.regs r) ∧ s.dataBytes = σ.mem

lemma Views.agrees (h : Views s σ) : Agrees s σ := by
  refine ⟨h.regs, h.mem.symm, ?_⟩
  intro hl
  constructor
  · intro r hr
    rw [← hl.regView hr]
    exact h.regs r hr
  · rw [dataBytes, ← hl.memView]
    exact h.mem.symm

/-! ### Runs -/

lemma runs_reset (image : BitVec 10 → BitVec 32) (d : DataMem) :
    Runs image 2 ⟨Core.reset, d.reset⟩ (MemState.init (bytes d.word)) := by
  refine ⟨⟨?_, rfl, RegFileBram.fresh_init, rfl⟩, ?_⟩
  · intro r _
    have hs : Core.reset.settled r = 0#32 := by
      rw [Core.settled_of_not_load rfl]
      simp [Core.reset, ExWbReg.reset, RegFileBram.held, RegFileBram.init]
    rw [regView, if_neg fun hc => by cases hc.1]
    exact hs
  · refine .empty rfl rfl ⟨rfl, .inr ⟨rfl, rfl, rfl, rfl⟩⟩ ?_ ?_
    · constructor <;> simp [Core.reset, RegisterEx.reset, ExMemReg.reset, MemWbReg.reset]
    · simp [Core.reset, RegFileBram.init]

/-- The simulation relation at a state that the interpreter reaches over the memory `mem`. -/
def Follows (image : BitVec 10 → BitVec 32) (mem : BitVec 12 → BitVec 8) (w : ℕ) (s : SocBram)
    (σ : MemState) : Prop :=
  Runs image w s σ ∧ ∃ j, σ = memRun image mem j

variable (image) in
/-- What the system has retired before cycle `n`. -/
def retiredTrace (d : DataMem) (n : ℕ) : List Rec :=
  (machine image d).history (fun s x => s.core.retired (s.coreIn image x)) (fun _ => .quiet) n

/-- An instruction memory that always answers. -/
def alwaysReady : ImemIn := ⟨true, 0#32⟩

/-- A cycle of the system is matched by the interpreter. -/
lemma Follows.matched (hS : Scheduled image) {mem : BitVec 12 → BitVec 8}
    (hF : AccessesFit image mem) (h : Follows image mem w s σ) :
    Matched (MemState.step image) (MemState.shown image) (Follows image mem) 3 w
      (s.core.retired (s.coreIn image .quiet)) (s.step image .quiet) σ := by
  obtain ⟨hR, j, rfl⟩ := h
  obtain ⟨p, w', hret, hR', hpay⟩ := hR.step hS (f := alwaysReady) nofun (hF j)
  refine ⟨p, w', hret, ⟨hR', p + j, ?_⟩, hpay.resolve_right fun hc => by cases hc.1⟩
  exact (Function.iterate_add_apply _ p j _).symm

/-- **A scheduled program runs as it should.** In every cycle what has been retired is what the
interpreter shows of some number of instructions, at least one in three cycles but for the first
two; and the registers and the memory are its own, with what is under way to them. -/
theorem scheduled_refines (hS : Scheduled image) {d : DataMem}
    (hF : AccessesFit image (bytes d.word)) (n : ℕ) :
    ∃ m, retiredTrace image d n = memTrace image (bytes d.word) m ∧ n ≤ 3 * m + 2 ∧
      Agrees (quietRun image d n) (memRun image (bytes d.word) m) := by
  have href : ∃ m w, retiredTrace image d n = memTrace image (bytes d.word) m ∧
      Follows image (bytes d.word) w (quietRun image d n) (memRun image (bytes d.word) m) ∧
      n + w ≤ 3 * m + 2 :=
    refines (m := machine image d) ⟨runs_reset image d, 0, rfl⟩
      (fun _ _ _ h => h.matched hS hF) n
  obtain ⟨m, w, htr, hR, hw⟩ := href
  exact ⟨m, htr, by omega, hR.1.views.agrees⟩

/-! ### A program -/

/-- A loop that counts in the first word of the memory: `lw x1, 0(x0)`, `addi x1, x1, 1`,
`sw x1, 0(x0)` and `jal x0` back. -/
def counter : BitVec 10 → BitVec 32 := fun a =>
  if a = 0#10 then 0x00002083#32
  else if a = 4#10 then 0x00108093#32
  else if a = 5#10 then 0x00102023#32
  else if a = 9#10 then 0xfddff06f#32
  else nop

lemma counter_cases (a : BitVec 10) :
    (a = 0#10 ∧ decode (counter a) = some (.load .lw 1#5 0#5 0#32)) ∨
      (a = 5#10 ∧ decode (counter a) = some (.store .sw 0#5 1#5 0#32)) ∨
      (a = 9#10 ∧ decode (counter a) = some (.jal 0#5 (-36#32))) ∨
      ∃ o rd rs1 imm, decode (counter a) = some (.opImm o rd rs1 imm) := by
  unfold counter
  split_ifs with h0 h4 h5 h9
  · exact .inl ⟨h0, by decide⟩
  · exact .inr (.inr (.inr ⟨.add, 1#5, 1#5, 1#32, by decide⟩))
  · exact .inr (.inl ⟨h5, by decide⟩)
  · exact .inr (.inr (.inl ⟨h9, by decide⟩))
  · exact .inr (.inr (.inr ⟨.add, 0#5, 0#5, 0#32, by decide⟩))

lemma scheduled_counter : Scheduled counter := by
  refine ⟨?_, ?_, ?_⟩
  · intro a
    rcases counter_cases a with ⟨-, h⟩ | ⟨-, h⟩ | ⟨-, h⟩ | ⟨_, _, _, _, h⟩ <;> exact ⟨_, h⟩
  · intro a i hi hm
    rcases counter_cases a with ⟨rfl, h⟩ | ⟨rfl, h⟩ | ⟨-, h⟩ | ⟨_, _, _, _, h⟩
    · exact ⟨by decide, by decide⟩
    · exact ⟨by decide, by decide⟩
    · rw [h] at hi
      cases hi
      cases hm
    · rw [h] at hi
      cases hi
      cases hm
  · intro a i hi hj
    rcases counter_cases (a + 1#10) with ⟨-, h⟩ | ⟨-, h⟩ | ⟨ha, -⟩ | ⟨_, _, _, _, h⟩
    · rw [h] at hi
      cases hi
      cases hj
    · rw [h] at hi
      cases hi
      cases hj
    · rw [show a = 8#10 by rw [← BitVec.add_sub_cancel a 1#10, ha]; rfl]
      decide
    · rw [h] at hi
      cases hi
      cases hj

lemma fits_counter (h0 : σ.regs 0#5 = 0#32) {i : Instr}
    (hi : decode (σ.fetch counter) = some i) : σ.Fits i := by
  have haddr : (σ.dataAddr 0#5 0#32).toNat % 4 = 0 := by
    rw [MemState.dataAddr, h0]
    rfl
  rcases counter_cases (wordAddr σ.pc) with ⟨-, h⟩ | ⟨-, h⟩ | ⟨-, h⟩ | ⟨_, _, _, _, h⟩ <;>
    cases h.symm.trans hi
  · exact MemState.fits_lw haddr
  · exact MemState.fits_sw haddr
  · trivial
  · trivial

lemma accessesFit_counter (mem : BitVec 12 → BitVec 8) : AccessesFit counter mem :=
  fun m _ hi => fits_counter (memRun_regs_zero counter mem m) hi

/-- The counter over a memory of zeros, after a hundred cycles. -/
theorem scheduled_refines_counter :
    ∃ m, retiredTrace counter .zero 100 = memTrace counter (bytes DataMem.zero.word) m ∧
      100 ≤ 3 * m + 2 ∧
      Agrees (quietRun counter .zero 100) (memRun counter (bytes DataMem.zero.word) m) :=
  scheduled_refines scheduled_counter (accessesFit_counter _) 100

end SocBram

end RiscvSoc.Rtl
