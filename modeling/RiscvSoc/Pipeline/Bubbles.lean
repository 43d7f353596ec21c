import RiscvSoc.Pipeline.Front

/-!
# Bubbles are inert

What the two front registers hold under every pattern of the pins: a valid entry is the instruction
at its pc, in ID/EX with the fields that `ID_stage` gives it, and an invalid entry is a NOP.
`register_EX` and the write-back read the flags of an entry and not its valid bit, so it is the NOP
that keeps an invalid entry from doing anything.
-/

namespace RiscvSoc.Rtl

open Sync

/-! ### The core with open pins -/

/-- The pins `i` with the instruction bus over the program `M`. -/
def CoreIn.fetching (i : CoreIn) (M : BitVec 32 → BitVec 32) (s : Core) : CoreIn :=
  { i with imemRdata := if i.imemReady then M s.imemAddr else i.imemRdata }

/-- The core over the program `M`, with every other pin left open. -/
def openMachine (M : BitVec 32 → BitVec 32) : Machine CoreIn Core where
  init := Core.reset
  next s i := s.step (i.fetching M s)

/-! ### Entries -/

/-- `ID_stage` gives no flag and no destination. -/
structure IdOut.Idle (d : IdOut) : Prop where
  isLoad : d.isLoad = false
  isStore : d.isStore = false
  isBranch : d.isBranch = false
  isJump : d.isJump = false
  isJalr : d.isJalr = false
  rd : d.rd = 0#5

/-- An entry of IF/ID that encodes a NOP. -/
structure IfIdReg.IsNop (r : IfIdReg) : Prop where
  instr : r.instrOut = nop
  idle : (idStage r.instrOut).Idle

/-- An entry of ID/EX that encodes a NOP. -/
structure IdExReg.IsNop (r : IdExReg) : Prop where
  instr : r.exInstr = nop
  exIsLoad : r.exIsLoad = false
  exIsStore : r.exIsStore = false
  exIsBranch : r.exIsBranch = false
  exIsJalr : r.exIsJalr = false
  exRd : r.exRd = 0#5

/-- An entry of IF/ID that is the instruction at its pc. -/
structure IfIdReg.IsFetched (M : BitVec 32 → BitVec 32) (r : IfIdReg) : Prop where
  instr : r.instrOut = M r.idPc
  plus4 : r.idPcPlus4 = r.idPc + 4#32

/-- An entry of ID/EX that is the instruction at its pc, decoded. -/
structure IdExReg.IsDecoded (M : BitVec 32 → BitVec 32) (r : IdExReg) : Prop where
  instr : r.exInstr = M r.exPc
  plus4 : r.exPcPlus4 = r.exPc + 4#32
  fields : r = IdExReg.ofId ⟨r.exPc, r.exPcPlus4, r.exInstr, r.exInstrValid⟩ (idStage r.exInstr)

/-- **The entry in EX does nothing** under the pins `i`: it redirects no fetch, takes no lock, asks
nothing of the memory and writes no register but `x0`. -/
structure Core.ExInert (s : Core) (i : CoreIn) : Prop where
  jalr : (s.exIn i).jalr = false
  branchTaken : (s.exIn i).branchTaken = false
  loadLock : s.registerEx.lstate ≠ .busy → (s.step i).registerEx.lstate ≠ .busy
  storeLock : s.registerEx.slock = false → (s.step i).registerEx.slock = false
  memReadEn : (s.exMemIn i).memReadEn = false
  memWriteEn : (s.exMemIn i).memWriteEn = false
  wbRd : (s.exWbIn i).wbRd = 0#5
  memRd : (s.exMemIn i).rd = 0#5

/-- **The front registers are coherent**, and an invalid entry in them does nothing. -/
structure PipeCoherent (M : BitVec 32 → BitVec 32) (s : Core) : Prop where
  ifIdValid : s.ifId.instrValidOut = true → s.ifId.IsFetched M
  idExValid : s.idEx.exInstrValid = true → s.idEx.IsDecoded M
  ifIdNop : s.ifId.instrValidOut = false → s.ifId.IsNop
  idExNop : s.idEx.exInstrValid = false → s.idEx.IsNop
  ifIdInert : s.ifId.instrValidOut = false → s.jumpIf = false ∧ s.jalLinkWe = false
  idExInert : s.idEx.exInstrValid = false → ∀ i, s.ExInert i

variable {M : BitVec 32 → BitVec 32} {s : Core}

/-! ### What an invalid entry is -/

lemma idle_nop : (idStage nop).Idle := by
  constructor <;> decide

lemma isNop_bubble : IdExReg.bubble.IsNop := ⟨rfl, rfl, rfl, rfl, rfl, rfl⟩

lemma isNop_reset : IdExReg.reset.IsNop := ⟨rfl, rfl, rfl, rfl, rfl, rfl⟩

/-- What ID makes of a bubble. -/
lemma isNop_decodedOf_bubble : (decodedOf IfIdReg.bubble).IsNop :=
  ⟨rfl, idle_nop.isLoad, idle_nop.isStore, idle_nop.isBranch, idle_nop.isJalr, idle_nop.rd⟩

/-- **One cycle of the invalid entries.** Whatever is invalid in ID/EX after the edge was flushed,
was there before, or comes from a bubble in IF/ID. -/
lemma isNop_step (h : FrontOk M s) (hn : s.idEx.exInstrValid = false → s.idEx.IsNop) (i : CoreIn)
    (hv : (s.step i).idEx.exInstrValid = false) : (s.step i).idEx.IsNop := by
  have hidEx : (s.step i).idEx =
      if s.flushIdex i then IdExReg.bubble
      else if s.stallBack i then s.idEx else decodedOf s.ifId := rfl
  rw [hidEx] at hv ⊢
  split_ifs at hv ⊢
  · exact isNop_bubble
  · exact hn hv
  · rcases h.ifId with hb | ⟨pc, hp⟩
    · rw [hb]
      exact isNop_decodedOf_bubble
    · rw [hp] at hv
      cases hv

/-- A NOP in EX that is not valid does nothing. -/
lemma IdExReg.IsNop.inert (h : s.idEx.IsNop) (hv : s.idEx.exInstrValid = false) (i : CoreIn) :
    s.ExInert i := by
  have hfinal : (s.exIn i).instrValidFinal = false := by
    have hx : (s.exIn i).exInstrValid = false := hv
    rw [ExIn.instrValidFinal, hx, Bool.false_and]
  refine ⟨?_, ?_, ?_, ?_, ?_, ?_, h.exRd, h.exRd⟩
  · rw [ExIn.jalr, hfinal, Bool.false_and]
  · rw [ExIn.branchTaken, hfinal, Bool.false_and, Bool.false_and]
  · intro hb
    have hl : (s.registerExIn i).loadEnable = false := h.exIsLoad
    have hs : (s.step i).registerEx.lstate = s.registerEx.lstateStep (s.registerExIn i) := rfl
    rw [hs, RegisterEx.lstateStep, hl]
    cases hst : s.registerEx.lstate
    · simp
    · exact absurd hst hb
    · simp
  · intro hb
    have hst : (s.registerExIn i).storeEnable = false := h.exIsStore
    have hs : (s.step i).registerEx.slock = s.registerEx.slockNext (s.registerExIn i) := rfl
    rw [hs, RegisterEx.slockNext, hst, hb]
    simp
  · change (s.exIn i).memReadEn = false
    rw [ExIn.memReadEn, hfinal, Bool.false_and]
  · change (s.exIn i).memWriteEn = false
    rw [ExIn.memWriteEn, hfinal, Bool.false_and]

/-! ### Runs -/

/-- The front registers along a run under any pins. -/
lemma frontOk_openRun (ins : ℕ → CoreIn) (n : ℕ) : FrontOk M ((openMachine M).run ins n) := by
  refine (openMachine M).invariant frontOk_reset ?_ ins n
  intro s i h
  refine h.step ?_
  intro hr
  have hr' : i.imemReady = true := hr
  simp [CoreIn.fetching, hr', Core.imemAddr]

lemma isNop_run (ins : ℕ → CoreIn) (n : ℕ) :
    ((openMachine M).run ins n).idEx.exInstrValid = false →
      ((openMachine M).run ins n).idEx.IsNop := by
  induction n with
  | zero => exact fun _ => isNop_reset
  | succ n ih => exact isNop_step (frontOk_openRun ins n) ih _

/-- **The front registers are coherent and bubbles are inert**, for every program and whatever the
pins read. -/
theorem pipe_coherent (M : BitVec 32 → BitVec 32) (ins : ℕ → CoreIn) (n : ℕ) :
    PipeCoherent M ((openMachine M).run ins n) := by
  have hf := frontOk_openRun (M := M) ins n
  have hn := isNop_run (M := M) ins n
  refine ⟨?_, ?_, ?_, hn, ?_, ?_⟩
  · intro hv
    rcases hf.ifId with hb | ⟨pc, hp⟩
    · rw [hb] at hv
      cases hv
    · rw [hp]
      exact ⟨rfl, rfl⟩
  · intro hv
    rcases hf.idEx with hb | ⟨pc, hp, -⟩
    · rw [hb.exInstrValid] at hv
      cases hv
    · rw [hp]
      exact ⟨rfl, rfl, rfl⟩
  · intro hv
    rcases hf.ifId with hb | ⟨pc, hp⟩
    · rw [hb]
      exact ⟨rfl, idle_nop⟩
    · rw [hp] at hv
      cases hv
  · intro hv
    have hj : ((openMachine M).run ins n).jumpIf = false := by
      rw [Core.jumpIf, hv, Bool.and_false]
    exact ⟨hj, Core.jalLinkWe_of_jumpIf hj⟩
  · intro hv
    exact (hn hv).inert hv

end RiscvSoc.Rtl
