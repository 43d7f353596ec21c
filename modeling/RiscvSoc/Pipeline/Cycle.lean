import RiscvSoc.Rtl.SocTopBram

/-!
# A cycle of the core over a program

What the hazard logic and the clock edge do when the core is neither flushed, nor interrupted,
nor excepted, and how `soc_top_bram` with quiet pins is such a core.
-/

namespace RiscvSoc.Rtl

open Sync

/-! ### The pins -/

section Pins

variable (b : BusIn) (M : BitVec 32 → BitVec 32) (s : Core)

@[simp] lemma BusIn.pins_stall : (b.pins M s).stall = b.stall := rfl
@[simp] lemma BusIn.pins_flush : (b.pins M s).flush = false := rfl
@[simp] lemma BusIn.pins_exception : (b.pins M s).exception = false := rfl
@[simp] lemma BusIn.pins_interrupt : (b.pins M s).interrupt = false := rfl
@[simp] lemma BusIn.pins_imemReady : (b.pins M s).imemReady = b.imemReady := rfl
@[simp] lemma BusIn.pins_dmemReady : (b.pins M s).dmemReady = b.dmemReady := rfl
@[simp] lemma BusIn.pins_dmemRdata : (b.pins M s).dmemRdata = b.dmemRdata := rfl

@[simp] lemma BusIn.pins_imemRdata (h : b.imemReady = true) :
    (b.pins M s).imemRdata = M s.pcReg := by
  simp [BusIn.pins, h, Core.imemAddr]

end Pins

/-! ### The hazards -/

namespace Core

section Hazards

variable (s : Core) (b : BusIn) (M : BitVec 32 → BitVec 32)

lemma stallBack_pins : s.stallBack (b.pins M s) = (b.stall || s.memStall (b.pins M s)) := rfl

lemma stallFront_pins :
    s.stallFront (b.pins M s) =
      (b.stall || s.loadUseHazard (b.pins M s) || s.memStall (b.pins M s) || !b.imemReady) := rfl

lemma flushIfid_pins :
    s.flushIfid (b.pins M s) = (s.branchHazardEx (b.pins M s) || s.jumpIf) := rfl

lemma flushIdex_pins :
    s.flushIdex (b.pins M s) =
      (s.branchHazardEx (b.pins M s) ||
        (s.loadUseHazard (b.pins M s) && !s.stallBack (b.pins M s)) ||
        (s.jumpIf && !s.stallBack (b.pins M s))) := rfl

lemma pcNext_pins :
    s.pcNext (b.pins M s) =
      if (s.exIn (b.pins M s)).jalr then (s.exIn (b.pins M s)).pcJalr
      else if s.jumpIf then s.pcJumpIf
      else if (s.exIn (b.pins M s)).branchTaken then (s.exIn (b.pins M s)).pcBranch
      else if s.stallFront (b.pins M s) then s.pcReg
      else s.pcReg + 4#32 := rfl

/-- The front waits for the back, for a load and for the instruction memory. -/
lemma stallFront_eq {s : Core} {i : CoreIn} : s.stallFront i =
    (s.stallBack i || s.loadUseHazard i || !i.imemReady) := by
  simp only [stallFront, HazardIn.stallFront, stallBack, HazardIn.stallBack, loadUseHazard,
    HazardIn.ifStall]
  have hs : (s.hazard i).stall = i.stall := rfl
  have hr : (s.hazard i).imemReady = i.imemReady := rfl
  rw [hs, hr, Bool.or_right_comm i.stall]

lemma imemReady_of_go {s : Core} {i : CoreIn} (hs : s.stallFront i = false) :
    i.imemReady = true := by
  rw [stallFront_eq] at hs
  simpa using (Bool.or_eq_false_iff.mp hs).2

/-- What is fetched when nothing keeps IF from handing it on. -/
lemma fetched_of_go {s : Core} {i : CoreIn} (hs : s.stallFront i = false)
    (hf : s.flushIfid i = false) :
    s.fetched i = ⟨s.pcReg, s.pcReg + 4#32, i.imemRdata, true⟩ := by
  simp [fetched, IfIn.instrOut, IfIn.instrValidOut, IfIn.instrInvalid, ifIn, hs, hf,
    imemReady_of_go hs]

/-- The word fetched from the program. -/
lemma fetched_pins (hs : s.stallFront (b.pins M s) = false)
    (hf : s.flushIfid (b.pins M s) = false) :
    s.fetched (b.pins M s) = ⟨s.pcReg, s.pcReg + 4#32, M s.pcReg, true⟩ := by
  rw [fetched_of_go hs hf, BusIn.pins_imemRdata b M s (imemReady_of_go hs)]

lemma jalLinkWe_of_jumpIf {s : Core} (h : s.jumpIf = false) : s.jalLinkWe = false := by
  simp [jalLinkWe, h]

lemma jalr_branchTaken_of_no_hazard {s : Core} {c : CoreIn} (h : s.branchHazardEx c = false) :
    (s.exIn c).jalr = false ∧ (s.exIn c).branchTaken = false := by
  simpa [branchHazardEx, HazardIn.branchHazardEx, hazard, and_comm] using h

end Hazards

/-! ### The wires of `register_EX` -/

section Wires

variable (s : Core) (i : CoreIn)

/-- What holds the back of the pipeline. -/
lemma stallBack_eq : s.stallBack i = (i.stall ||
    (((s.registerEx.lstate == .busy || s.registerEx.slock) && s.idEx.exIsStore) ||
      (s.dmemValid && !i.dmemReady) || s.registerEx.loadSkipStale)) := rfl

/-- The wires in a cycle without flush, in which the data memory brings `ready` and `rdata`. -/
structure Wires (ready : Bool) (rdata : BitVec 32) : Prop where
  flush : (s.registerExIn i).flush = s.branchHazardEx i
  loadEnable : (s.registerExIn i).loadEnable = s.idEx.exIsLoad
  storeEnable : (s.registerExIn i).storeEnable = s.idEx.exIsStore
  dmemReady : (s.registerExIn i).dmemReady = ready
  loadSuccess : (s.registerExIn i).loadSuccess = (ready && s.exMem.memReadEn)
  rdIn : (s.registerExIn i).rdIn = s.idEx.exRd
  rdMemRdataIn : (s.registerExIn i).rdMemRdataIn = rdata

variable {s i}

lemma wires (hf : i.flush = false) : s.Wires i i.dmemReady i.dmemRdata :=
  ⟨by simp [registerExIn, hf], rfl, rfl, rfl, rfl, rfl, rfl⟩

/-- **The forwarding register after a cycle**: a redirect of EX clears it, and unless the front is
held it takes the word of a load whose lock lets go, or the result of another writer in EX. -/
theorem step_rdReg (hf : i.flush = false) :
    ((s.step i).registerEx.rdReg, (s.step i).registerEx.rdDataReg) =
      if s.branchHazardEx i then (0#5, 0#32)
      else if s.stallFront i then (s.registerEx.rdReg, s.registerEx.rdDataReg)
      else if s.registerEx.lstate = .release then
        (s.registerEx.rdRegLoad, s.registerEx.rdDataLoadSaved)
      else if s.idEx.exIsLoad = false ∧ s.idEx.exRegWriteEn = true then
        (s.idEx.exRd, (s.exIn i).exResult)
      else (s.registerEx.rdReg, s.registerEx.rdDataReg) := by
  by_cases h1 : s.branchHazardEx i = true
  · simp [step, RegisterEx.step, registerExIn, h1]
  · by_cases h2 : s.stallFront i = true
    · simp [step, RegisterEx.step, registerExIn, hf, h1, h2]
    · by_cases h3 : s.registerEx.lstate = .release
      · simp [step, RegisterEx.step, registerExIn, hf, h1, h2, h3]
      · cases h4 : s.idEx.exIsLoad <;> cases h5 : s.idEx.exRegWriteEn <;>
          simp [step, RegisterEx.step, registerExIn, hf, h1, h2, h3, h4, h5]

/-- A skip keeps the load lock and ends its first cycle, whatever the pins read. -/
lemma busy_of_skip (h : (s.step i).registerEx.loadSkipStale = true) :
    (s.step i).registerEx.lstate = .busy ∧
      (s.step i).registerEx.firstCycleInBusy = false := by
  simp only [step, RegisterEx.step, Bool.and_eq_true, Bool.not_eq_true', beq_iff_eq] at h ⊢
  obtain ⟨⟨hf, hl⟩, hst⟩ := h
  have hst' := hst
  simp only [RegisterEx.staleReady, Bool.and_eq_true] at hst'
  obtain ⟨⟨hls, hfc⟩, hd1⟩ := hst'
  constructor
  · simp [RegisterEx.lstateStep, hf, hl, hst, hls, hfc, hd1]
  · simp [RegisterEx.firstCycleStep, hf, hl, hst, hls, hfc, hd1]

end Wires

/-! ### The registers behind EX -/

section Back

variable {s : Core} {i : CoreIn} (hf : i.flush = false)
include hf

lemma exWb_step : (s.step i).exWb = s.exWbIn i := by
  simp [step, ExWbReg.step, hf]

lemma exMem_step : (s.step i).exMem = if s.stallBack i then s.exMem else s.exMemIn i := by
  simp [step, ExMemReg.step, hf]

lemma memWb_step : (s.step i).memWb = if s.stallBack i then s.memWb else s.memWbIn i := by
  simp [step, MemWbReg.step, hf]

end Back

end Core

/-! ### `soc_top_bram` with quiet pins -/

namespace SocBram

variable (image : BitVec 10 → BitVec 32) (d : DataMem)

/-- What the two memories bring to the core. -/
def bus (s : SocBram) : BusIn := ⟨false, true, 0#32, s.dmem.ready, s.dmem.dataOut⟩

lemma coreIn_quiet (s : SocBram) :
    s.coreIn image .quiet = s.bus.pins (instMem image) s.core := rfl

lemma quietRun_succ (n : ℕ) :
    quietRun image d (n + 1) = (quietRun image d n).step image .quiet := rfl

lemma quietRun_succ_core (n : ℕ) :
    (quietRun image d (n + 1)).core = (quietRun image d n).core.step
      ((quietRun image d n).bus.pins (instMem image) (quietRun image d n).core) := rfl

/-- **The core of the BRAM system is a core over the program in its image.** -/
theorem quietRun_core (n : ℕ) :
    (quietRun image d n).core =
      (coreMachine (instMem image)).run (fun k => (quietRun image d k).bus) n := by
  induction n with
  | zero => rfl
  | succ n ih => rw [quietRun_succ, Machine.run_succ, ← ih]; rfl

/-! What a cycle does to the registers behind EX. -/

section Step

variable {image} {s : SocBram}

lemma step_exMem : (s.step image .quiet).core.exMem =
    if s.core.stallBack (s.coreIn image .quiet) then s.core.exMem
    else s.core.exMemIn (s.coreIn image .quiet) := rfl

lemma step_exWb :
    (s.step image .quiet).core.exWb = s.core.exWbIn (s.coreIn image .quiet) :=
  Core.exWb_step rfl

lemma step_memWb : (s.step image .quiet).core.memWb =
    if s.core.stallBack (s.coreIn image .quiet) then s.core.memWb
    else s.core.memWbIn (s.coreIn image .quiet) := rfl

lemma step_registerEx : (s.step image .quiet).core.registerEx =
    s.core.registerEx.step (s.core.registerExIn (s.coreIn image .quiet)) := rfl

lemma step_ready : (s.step image .quiet).dmem.readyReg = s.core.dmemValid := rfl

/-- The memory under a read of EX/MEM. -/
lemma step_dmem_of_read (hr : s.core.exMem.memReadEn = true)
    (hw : s.core.exMem.memWriteEn = false) :
    (s.step image .quiet).dmem.word = s.dmem.word ∧
      (s.step image .quiet).dmem.dataOut = s.dmem.word (wordAddr s.core.exMem.memAddr) := by
  have hv : s.dmemIn.valid = true := by simp [dmemIn, Core.dmemValid, hr]
  have hrn : s.dmemIn.readEn = true := hr
  have hsz : (s.step image .quiet).dmem.sizeQ = memSizeWord := by
    simp [SocBram.step, DataMem.step, hv, hrn]
    rfl
  refine ⟨DataMem.word_step_of_not_write hw, ?_⟩
  rw [DataMem.dataOut_of_word hsz]
  simp [SocBram.step, DataMem.step, hv, hrn]
  rfl

/-- The memory under a write of EX/MEM. -/
lemma step_word_of_write (hw : s.core.exMem.memWriteEn = true) :
    (s.step image .quiet).dmem.word = Function.update s.dmem.word
      (wordAddr s.core.exMem.memAddr) s.core.exMem.memWdata :=
  DataMem.word_step_of_write (i := s.dmemIn) rfl hw

end Step

end SocBram

end RiscvSoc.Rtl
