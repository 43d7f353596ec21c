import RiscvSoc.Pipeline.SubWord
import RiscvSoc.Pipeline.Sequential
import RiscvSoc.Isa.MemInterp

/-!
# Scheduled programs

A program is scheduled when NOPs keep its loads, its stores and its JALs apart from what the
pipeline would let them meet.  Here are the condition, the core with `data_mem` behind an
instruction memory that may make it wait, and what holds of the two in every cycle of such a
program.
-/

namespace RiscvSoc.Rtl

open Isa Sync

/-! ### The condition on the program -/

/-- **The schedule**: every word is a legal instruction, two NOPs follow a load or a store, and a
NOP is before a JAL. -/
structure Scheduled (image : BitVec 10 → BitVec 32) : Prop where
  legal : ∀ a, ∃ i, decode (image a) = some i
  afterAccess : ∀ a i, decode (image a) = some i → i.memFree = false →
    image (a + 1#10) = nop ∧ image (a + 2#10) = nop
  beforeJal : ∀ a i, decode (image (a + 1#10)) = some i → i.isJal = true → image a = nop

section Schedule

variable {image : BitVec 10 → BitVec 32} (h : Scheduled image) {pc : BitVec 32} {i : Instr}
include h

lemma Scheduled.decodes (pc : BitVec 32) : ∃ i, decode (instMem image pc) = some i :=
  h.legal (wordAddr pc)

lemma Scheduled.nops (hi : decode (instMem image pc) = some i) (hm : i.memFree = false) :
    instMem image (pc + 4#32) = nop ∧ instMem image (pc + 4#32 + 4#32) = nop := by
  have h1 : wordAddr (pc + 4#32) = wordAddr pc + 1#10 := wordAddr_add pc 1#10
  have h2 : wordAddr (pc + 4#32 + 4#32) = wordAddr pc + 2#10 := by
    rw [BitVec.add_assoc]
    exact wordAddr_add pc 2#10
  rw [instMem, instMem, h1, h2]
  exact h.afterAccess _ _ hi hm

lemma Scheduled.nop_before (hi : decode (instMem image (pc + 4#32)) = some i)
    (hj : i.isJal = true) : instMem image pc = nop := by
  have h1 : wordAddr (pc + 4#32) = wordAddr pc + 1#10 := wordAddr_add pc 1#10
  rw [instMem, h1] at hi
  exact h.beforeJal _ _ hi hj

end Schedule

/-! ### The core behind an instruction memory -/

/-- What the instruction memory does in a cycle: whether it answers, and what its bus reads when
it does not. -/
structure ImemIn where
  ready : Bool
  bus : BitVec 32

/-- How many instructions the front takes in the cycle. -/
def ImemIn.steps (f : ImemIn) : ℕ := if f.ready then 1 else 0

/-- What leaves EX in the cycle, but for the NOPs; the value of a load is not known there. -/
def Core.leaveRec (s : Core) (c : CoreIn) : Rec :=
  { s.exRec c with
    result := if s.idEx.exRegWriteEn && !s.idEx.exIsLoad then some (s.exIn c).exResult else none }

def Core.leaving (s : Core) (c : CoreIn) : List Rec :=
  if s.idEx.exInstrValid && !s.stallBack c && s.idEx.exInstr != nop then [s.leaveRec c] else []

/-- What the cycle retires, in program order: what leaves EX, and the JAL in ID. -/
def Core.retired (s : Core) (c : CoreIn) : List Rec := s.leaving c ++ s.jalShown

namespace SocBram

variable (image : BitVec 10 → BitVec 32) (s : SocBram) (f : ImemIn)

/-- The pins of the core over `data_mem` and the instruction memory. -/
def fetchPins : CoreIn :=
  BusIn.pins ⟨false, f.ready, f.bus, s.dmem.ready, s.dmem.dataOut⟩ (instMem image) s.core

/-- The two after a clock edge. -/
def fetchStep : SocBram where
  core := s.core.step (s.fetchPins image f)
  dmem := s.dmem.step s.dmemIn

/-- An instruction memory that does not answer holds up nothing but a NOP. -/
def FetchOk : Prop := f.ready = false → s.core.ifId.instrOut = nop

/-! ### What the registers and the memory are about to be -/

/-- The words of `data_mem` once the store in EX/MEM has reached them. -/
def memView : BitVec 10 → BitVec 32 :=
  if s.core.exMem.memWriteEn then
    Function.update s.dmem.word (wordAddr s.core.exMem.memAddr) s.core.exMem.memWdata
  else s.dmem.word

/-- The registers once the load in EX/MEM and what is behind it have reached them. -/
def regView (r : BitVec 5) : BitVec 32 :=
  if s.core.exMem.memReadEn = true ∧ s.core.exMem.rd = r then
    s.dmem.word (wordAddr s.core.exMem.memAddr)
  else s.core.settled r

/-! ### How far an access is -/

/-- No access is in EX/MEM; the last one may be in MEM/WB. -/
structure Free (s : SocBram) : Prop where
  lstate : s.core.registerEx.lstate = if s.core.memWb.wbIsLoad then .release else .idle
  slock : s.core.registerEx.slock = false
  skip : s.core.registerEx.loadSkipStale = false
  memReadEn : s.core.exMem.memReadEn = false
  memWriteEn : s.core.exMem.memWriteEn = false
  saved : s.core.memWb.wbIsLoad = true → s.core.registerEx.rdRegLoad = s.core.memWb.wbRd ∧
    s.core.registerEx.rdDataLoadSaved = s.core.memWb.wbLoadData

/-- An access is in EX/MEM. -/
structure Under (s : SocBram) : Prop where
  valid : s.core.dmemValid = true
  single : s.core.exMem.memReadEn = true → s.core.exMem.memWriteEn = false
  lstate : s.core.registerEx.lstate = if s.core.exMem.memReadEn then .busy else .idle
  skip : s.core.registerEx.loadSkipStale = false
  rdRegLoad : s.core.exMem.memReadEn = true → s.core.registerEx.rdRegLoad = s.core.exMem.rd

/-- It has been answered. -/
structure Served (s : SocBram) : Prop extends Under s where
  ready : s.dmem.readyReg = true
  late : s.core.registerEx.dmemReadyD1 = false
  data : s.core.exMem.memReadEn = true →
    s.dmem.dataOut = s.dmem.word (wordAddr s.core.exMem.memAddr)

/-- EX holds nothing but a NOP or a bubble. -/
structure ExIdle (s : Core) : Prop where
  exInstr : s.idEx.exInstr = nop
  kind : s.NopInEx ∨ s.idEx.IsBubble

/-- **How far the pipeline is**, and how many cycles it takes at most until the next instruction of
the interpreter is in EX. -/
inductive Stage (image : BitVec 10 → BitVec 32) (s : SocBram) (σ : MemState) : ℕ → Prop
  | empty (ifId : s.core.ifId = IfIdReg.bubble) (pcReg : s.core.pcReg = σ.pc)
      (exIdle : ExIdle s.core) (free : Free s)
      (buffered : s.core.regfile.weBuf = true → ¬ s.core.portWrites) : Stage image s σ 2
  | fetched (front : FrontAt (instMem image) s.core σ.pc) (exIdle : ExIdle s.core)
      (exRegWriteEn : s.core.idEx.exRegWriteEn = true) (weBuf : s.core.regfile.weBuf = false)
      (free : Free s) : Stage image s σ 1
  | asked (front : FrontAt (instMem image) s.core σ.pc) (exIdle : ExIdle s.core)
      (exRegWriteEn : s.core.idEx.exRegWriteEn = true) (weBuf : s.core.regfile.weBuf = false)
      (inId : instMem image σ.pc = nop) (under : Under s) (ready : s.dmem.readyReg = false) :
      Stage image s σ 2
  | served (front : FrontAt (instMem image) s.core σ.pc) (exIdle : ExIdle s.core)
      (exRegWriteEn : s.core.idEx.exRegWriteEn = true) (weBuf : s.core.regfile.weBuf = false)
      (inId : instMem image σ.pc = nop) (served : Served s) : Stage image s σ 1
  | full (front : FrontAt (instMem image) s.core (σ.pc + 4#32))
      (idEx : s.core.idEx = decodedOf (fetchedAt (instMem image) σ.pc))
      (weBuf : s.core.regfile.weBuf = false)
      (notNop : instMem image σ.pc ≠ nop)
      (notJal : ∀ i, decode (instMem image σ.pc) = some i → i.isJal = false)
      (forward : s.core.registerEx.rdReg ≠ 0#5 →
        s.core.registerEx.rdDataReg = σ.regs s.core.registerEx.rdReg)
      (tag : Core.writesBack s.core.exWb → s.core.registerEx.rdReg = s.core.exWb.wbRd)
      (raddr1 : s.core.regfile.raddr1Q = s.core.idEx.exRs1)
      (raddr2 : s.core.regfile.raddr2Q = s.core.idEx.exRs2)
      (free : Free s) (wbIsLoad : s.core.memWb.wbIsLoad = false) : Stage image s σ 0

/-- The registers and the memory are about to be those of the interpreter. -/
structure Views (s : SocBram) (σ : MemState) : Prop where
  regs : ∀ r, r ≠ 0#5 → s.regView r = σ.regs r
  mem : σ.mem = bytes s.memView
  fresh : s.core.regfile.Fresh
  zero : σ.regs 0#5 = 0#32

/-- **The simulation relation**, with the cycles that are left. -/
structure Runs (image : BitVec 10 → BitVec 32) (w : ℕ) (s : SocBram) (σ : MemState) : Prop where
  views : Views s σ
  stage : Stage image s σ w

/-- **A cycle does what the interpreter does**: what it retires is what some steps show, and it
brings the next instruction closer unless the instruction memory makes the front wait. -/
def CycleOk (image : BitVec 10 → BitVec 32) (w : ℕ) (s : SocBram) (f : ImemIn) (σ : MemState) :
    Prop :=
  ∃ k w', s.core.retired (s.fetchPins image f) =
      emitted (MemState.step image) (MemState.shown image) k σ ∧
    Runs image w' (s.fetchStep image f) ((MemState.step image)^[k] σ) ∧
    (w' + 1 ≤ w + 3 * k ∨
      (f.ready = false ∧ k = 0 ∧ w' = w ∧ (s.fetchStep image f).core.pcReg = s.core.pcReg))

end SocBram

end RiscvSoc.Rtl
