import RiscvSoc.Pipeline.Settled

/-!
# Cycles without memory accesses

While no load or store is in EX or behind it and the fetch answers at once, nothing stalls: the
core is a shift register with redirects.
-/

namespace RiscvSoc.Rtl

/-- Neither the external stall nor the fetch holds the core. -/
structure BusIn.Calm (b : BusIn) : Prop where
  stall : b.stall = false
  imemReady : b.imemReady = true

namespace Core

/-- No load or store is in EX or behind it, and no lock is held. -/
structure MemQuiet (s : Core) : Prop where
  exIsLoad : s.idEx.exIsLoad = false
  exIsStore : s.idEx.exIsStore = false
  lstate : s.registerEx.lstate = .idle
  slock : s.registerEx.slock = false
  loadSkipStale : s.registerEx.loadSkipStale = false
  memReadEn : s.exMem.memReadEn = false
  memWriteEn : s.exMem.memWriteEn = false
  wbIsLoad : s.memWb.wbIsLoad = false

lemma memQuiet_reset : MemQuiet reset := by constructor <;> rfl

variable {s : Core} {b : BusIn} {M : BitVec 32 → BitVec 32}

/-! ### The hazards -/

lemma MemQuiet.loadUseHazard (h : s.MemQuiet) : s.loadUseHazard (b.pins M s) = false := by
  simp [Core.loadUseHazard, HazardIn.loadUseHazard, hazard, RegisterEx.loadPendingOut, h.lstate,
    h.exIsLoad]

lemma MemQuiet.memStall (h : s.MemQuiet) : s.memStall (b.pins M s) = false := by
  simp [Core.memStall, HazardIn.memStall, hazard, RegisterEx.memStallReq, dmemValid, h.exIsStore,
    h.memReadEn, h.memWriteEn, h.loadSkipStale]

lemma MemQuiet.stallBack (h : s.MemQuiet) (hb : b.stall = false) :
    s.stallBack (b.pins M s) = false := by
  rw [stallBack_pins, hb, h.memStall]; rfl

lemma MemQuiet.stallFront (h : s.MemQuiet) (hb : b.Calm) : s.stallFront (b.pins M s) = false := by
  rw [stallFront_pins, hb.stall, h.loadUseHazard, h.memStall, hb.imemReady]; rfl

/-- The cycle's redirect, from EX or from ID: what empties the two front stages. -/
def redirect (s : Core) (i : CoreIn) : Bool := s.branchHazardEx i || s.jumpIf

lemma MemQuiet.flushIdex (h : s.MemQuiet) (hb : b.stall = false) :
    s.flushIdex (b.pins M s) = s.redirect (b.pins M s) := by
  rw [flushIdex_pins, h.loadUseHazard, h.stallBack hb]
  simp [redirect]

/-! ### EX -/

lemma MemQuiet.lockHit (h : s.MemQuiet) (rs : BitVec 5) :
    (s.exIn (b.pins M s)).lockHit rs = false := by
  simp [ExIn.lockHit, exIn, RegisterEx.loadLockOut, h.lstate]

lemma MemQuiet.instrValidFinal (h : s.MemQuiet) :
    (s.exIn (b.pins M s)).instrValidFinal = s.idEx.exInstrValid := by
  simp [ExIn.instrValidFinal, ExIn.memReqBlock, exIn, h.exIsStore]

/-- A bubble redirects nothing. -/
lemma MemQuiet.branchHazardEx_of_invalid (h : s.MemQuiet) (hv : s.idEx.exInstrValid = false) :
    s.branchHazardEx (b.pins M s) = false := by
  have hf := h.instrValidFinal (b := b) (M := M)
  simp [branchHazardEx, HazardIn.branchHazardEx, hazard, ExIn.branchTaken, ExIn.jalr, hf, hv]

/-! ### The clock edge -/

lemma MemQuiet.step_ifId (h : s.MemQuiet) (hb : b.Calm) :
    (s.step (b.pins M s)).ifId =
      if s.redirect (b.pins M s) then IfIdReg.bubble
      else ⟨s.pcReg, s.pcReg + 4#32, M s.pcReg, true⟩ := by
  have hs := h.stallFront hb (M := M)
  have hf : s.flushIfid (b.pins M s) = s.redirect (b.pins M s) := rfl
  cases hr : s.redirect (b.pins M s)
  · rw [hr] at hf
    simp [step, IfIdReg.step, hf, hs, fetched_pins s b M hs hf]
  · simp [step, IfIdReg.step, hf, hr]

lemma MemQuiet.step_idEx (h : s.MemQuiet) (hb : b.stall = false) :
    (s.step (b.pins M s)).idEx =
      if s.redirect (b.pins M s) then IdExReg.bubble else IdExReg.ofId s.ifId s.id := by
  simp [step, IdExReg.step, h.flushIdex hb, h.stallBack hb]

lemma MemQuiet.step_pcReg (h : s.MemQuiet) (hb : b.Calm) :
    (s.step (b.pins M s)).pcReg =
      if (s.exIn (b.pins M s)).jalr then (s.exIn (b.pins M s)).pcJalr
      else if s.jumpIf then s.pcJumpIf
      else if (s.exIn (b.pins M s)).branchTaken then (s.exIn (b.pins M s)).pcBranch
      else s.pcReg + 4#32 := by
  have hp : (s.step (b.pins M s)).pcReg = s.pcNext (b.pins M s) := rfl
  rw [hp, pcNext_pins, h.stallFront hb]
  rfl

lemma MemQuiet.step_exWb (h : s.MemQuiet) (hb : b.stall = false) :
    (s.step (b.pins M s)).exWb = s.exWbIn (b.pins M s) := by
  simp [step, ExWbReg.step, h.stallBack hb]

/-- The forwarding register takes what every writer leaves and is cleared by a redirect of EX. -/
lemma MemQuiet.step_rdReg (h : s.MemQuiet) (hb : b.Calm) :
    ((s.step (b.pins M s)).registerEx.rdReg, (s.step (b.pins M s)).registerEx.rdDataReg) =
      if s.branchHazardEx (b.pins M s) then (0#5, 0#32)
      else if s.idEx.exRegWriteEn then (s.idEx.exRd, (s.exIn (b.pins M s)).exResult)
      else (s.registerEx.rdReg, s.registerEx.rdDataReg) := by
  rw [Core.step_rdReg rfl, h.stallFront hb, h.lstate, h.exIsLoad]
  simp

/-- No access starts unless ID decodes one. -/
theorem MemQuiet.step (h : s.MemQuiet) (hb : b.stall = false) (hl : s.id.isLoad = false)
    (hs : s.id.isStore = false) : (s.step (b.pins M s)).MemQuiet where
  exIsLoad := by rw [h.step_idEx hb]; split_ifs <;> simp [IdExReg.bubble, IdExReg.ofId, hl]
  exIsStore := by rw [h.step_idEx hb]; split_ifs <;> simp [IdExReg.bubble, IdExReg.ofId, hs]
  lstate := by
    simp [Core.step, RegisterEx.step, RegisterEx.lstateStep, registerExIn, h.lstate, h.exIsLoad]
  slock := by
    simp [Core.step, RegisterEx.step, RegisterEx.slockNext, registerExIn, h.slock, h.exIsStore]
  loadSkipStale := by simp [Core.step, RegisterEx.step, registerExIn, h.lstate]
  memReadEn := by
    simp [Core.step, ExMemReg.step, h.stallBack hb, exMemIn, ExIn.memReadEn, exIn, h.exIsLoad]
  memWriteEn := by
    simp [Core.step, ExMemReg.step, h.stallBack hb, exMemIn, ExIn.memWriteEn, exIn, h.exIsStore]
  wbIsLoad := by simp [Core.step, MemWbReg.step, h.stallBack hb, memWbIn, h.memReadEn]

/-! ### Write-back -/

/-- An entry of EX/WB that reaches the array. -/
def writesBack (w : ExWbReg) : Prop := w.wbRegWriteEn = true ∧ w.wbRd ≠ 0#5

/-- The write-back port follows EX/WB. -/
lemma MemQuiet.regFileIn (h : s.MemQuiet) :
    s.regFileIn.we = s.exWb.wbRegWriteEn ∧ s.regFileIn.waddr = s.exWb.wbRd ∧
      s.regFileIn.wdata = s.exWb.wbResult := by
  simp [Core.regFileIn, wbIn, WbIn.wbWeOut, WbIn.wbWaddrOut, WbIn.wbWdataOut, h.wbIsLoad]

lemma MemQuiet.portWrites_iff (h : s.MemQuiet) : s.portWrites ↔ writesBack s.exWb := by
  obtain ⟨h1, h2, -⟩ := h.regFileIn
  rw [portWrites, h1, h2]
  rfl

end Core

end RiscvSoc.Rtl
