import RiscvSoc.Pipeline.StoreLock
import RiscvSoc.Pipeline.MemFree

/-!
# A run of NOPs drains the pipeline

An observer counts the NOPs that have left ID one after the other.  Each of them pushes what was
there before it one stage further: after four nothing is left behind EX, and no lock is held,
whatever the program did before.
-/

namespace RiscvSoc.Rtl

open Sync

namespace Core

/-- The instruction in ID leaves it without being squashed: it jumps, or moves on to EX. -/
def leavesId (s : Core) (i : CoreIn) : Bool :=
  s.ifId.instrValidOut && !s.branchHazardEx i && (s.jumpIf || !s.stallFront i)

/-- EX holds a NOP. -/
def NopInEx (s : Core) : Prop := ∃ pc, s.idEx = decodedOf ⟨pc, pc + 4#32, nop, true⟩

/-- What EX holds touches no memory, no register and no address of the front. -/
structure ExRests (s : Core) : Prop where
  exIsLoad : s.idEx.exIsLoad = false
  exIsStore : s.idEx.exIsStore = false
  exRd : s.idEx.exRd = 0#5
  redirect : ∀ i, s.branchHazardEx i = false

end Core

namespace SocBram

/-- IF/ID holds the instruction at `pc`, and the next one is fetched. -/
structure FrontAt (M : BitVec 32 → BitVec 32) (s : Core) (pc : BitVec 32) : Prop where
  ifId : s.ifId = fetchedAt M pc
  pcReg : s.pcReg = pc + 4#32

section Observer

variable (image : BitVec 10 → BitVec 32) (regs : BitVec 5 → BitVec 32) (d : DataMem)

/-- `soc_top_bram` from reset over the data memory `d` and the registers `regs`: the register file
has no reset. -/
def presetMachine : Machine ExtIn SocBram where
  init := ⟨{ Core.reset with regfile := { RegFileBram.init with regs := regs } }, d.reset⟩
  next s x := s.step image x

/-- The state in cycle `n`, when no external pin is ever raised. -/
def presetRun (n : ℕ) : SocBram := (presetMachine image regs d).run (fun _ => .quiet) n

/-- How many NOPs have left ID one after the other when the cycle `n` begins. -/
def nopsBefore : ℕ → ℕ
  | 0 => 0
  | n + 1 =>
    let s := presetRun image regs d n
    if s.core.leavesId (s.coreIn image .quiet) then
      if s.core.ifId.instrOut = nop then nopsBefore n + 1 else 0
    else nopsBefore n

end Observer

/-- **What `k` NOPs in a row leave of the program before them.** -/
structure NopsOk (image : BitVec 10 → BitVec 32) (s : SocBram) (k : ℕ) : Prop where
  locks : LocksOk image s
  pc : s.core.ifId.instrValidOut = true → s.core.pcReg = s.core.ifId.idPc + 4#32
  inId : 1 ≤ k → s.core.ifId.instrValidOut = true
  inEx : 1 ≤ k → s.core.NopInEx ∨
    (s.core.idEx.IsBubble ∧ s.core.ifId.instrOut ≠ nop ∧ k ≤ 2)
  memReadEn : 2 ≤ k → s.core.exMem.memReadEn = false
  memWriteEn : 2 ≤ k → s.core.exMem.memWriteEn = false
  exWb : 2 ≤ k → s.core.exWb.wbRd = 0#5
  wbIsLoad : 3 ≤ k → s.core.memWb.wbIsLoad = false
  ready : 3 ≤ k → s.dmem.readyReg = false
  lstate : 4 ≤ k → s.core.registerEx.lstate = .idle
  weBuf : 4 ≤ k → s.core.regfile.weBuf = false

variable {image : BitVec 10 → BitVec 32} {s : SocBram} {k : ℕ} {pc : BitVec 32}

/-! ### What the NOPs hold off -/

/-- What `ID_stage` says of the NOP. -/
lemma idStage_nop : (idStage nop).isJump = false ∧ (idStage nop).isBranch = false ∧
    (idStage nop).isJalr = false ∧ (idStage nop).isLoad = false ∧
    (idStage nop).isStore = false ∧ (idStage nop).rd = 0#5 ∧ (idStage nop).rs1 = 0#5 ∧
    (idStage nop).useRs2 = false ∧ (idStage nop).regWriteEn = true := by
  decide

lemma exRests_of_nop {s : Core} (h : s.NopInEx) : s.ExRests := by
  obtain ⟨pc, h⟩ := h
  obtain ⟨-, hbranch, hjalr, hload, hstore, hrd, -, -, -⟩ := idStage_nop
  refine ⟨by rw [h]; exact hload, by rw [h]; exact hstore, by rw [h]; exact hrd, ?_⟩
  intro i
  have h1 : (s.exIn i).exIsBranch = false := by rw [← hbranch]; simp only [Core.exIn, h]; rfl
  have h2 : (s.exIn i).exIsJalr = false := by rw [← hjalr]; simp only [Core.exIn, h]; rfl
  simp [Core.branchHazardEx, HazardIn.branchHazardEx, Core.hazard, ExIn.branchTaken, ExIn.jalr,
    h1, h2]

lemma exRests_of_bubble {s : Core} (h : s.idEx.IsBubble) : s.ExRests := by
  refine ⟨h.exIsLoad, h.exIsStore, h.exRd, ?_⟩
  intro i
  have hv : (s.exIn i).exInstrValid = false := h.exInstrValid
  simp [Core.branchHazardEx, HazardIn.branchHazardEx, Core.hazard, ExIn.branchTaken, ExIn.jalr,
    ExIn.instrValidFinal, hv]

lemma NopsOk.rests (h : NopsOk image s k) (hk : 1 ≤ k) : s.core.ExRests := by
  rcases h.inEx hk with hn | ⟨hb, -, -⟩
  · exact exRests_of_nop hn
  · exact exRests_of_bubble hb

variable (image) in
/-- A NOP in ID neither jumps nor waits for a load. -/
lemma nop_in_id (hi : s.core.ifId.instrOut = nop) : s.core.jumpIf = false ∧
    s.core.loadUseHazard (s.coreIn image .quiet) = false := by
  obtain ⟨hjump, -, -, -, -, -, hrs1, huse2, -⟩ := idStage_nop
  have hid : s.core.id = idStage nop := by rw [Core.id, hi]
  constructor
  · rw [Core.jumpIf, hid, hjump, Bool.false_and]
  · simp only [Core.loadUseHazard, HazardIn.loadUseHazard, Core.hazard, hid, hrs1, huse2,
      Bool.false_and, Bool.or_false]
    by_contra hc
    simp only [Bool.not_eq_false, Bool.and_eq_true, bne_iff_ne, beq_iff_eq] at hc
    exact hc.1.2 hc.2.2.symm

/-! ### The front -/

/-- Without a jump and a redirect, IF/ID stays and ID/EX gets a bubble for a load only. -/
lemma flush_of_no_redirect (hbr : s.core.branchHazardEx (s.coreIn image .quiet) = false)
    (hj : s.core.jumpIf = false) : s.core.flushIfid (s.coreIn image .quiet) = false ∧
      s.core.flushIdex (s.coreIn image .quiet) =
        (s.core.loadUseHazard (s.coreIn image .quiet) &&
          !s.core.stallBack (s.coreIn image .quiet)) := by
  constructor
  · rw [coreIn_quiet, Core.flushIfid_pins, hj, ← coreIn_quiet, hbr]
    rfl
  · rw [coreIn_quiet, Core.flushIdex_pins, hj, ← coreIn_quiet, hbr]
    simp

/-- Without a jump and a redirect the pc waits or goes on. -/
lemma pcReg_step_of_no_redirect (hbr : s.core.branchHazardEx (s.coreIn image .quiet) = false)
    (hj : s.core.jumpIf = false) : (s.step image .quiet).core.pcReg =
      if s.core.stallFront (s.coreIn image .quiet) then s.core.pcReg else s.core.pcReg + 4#32 := by
  obtain ⟨h1, h2⟩ := Core.jalr_branchTaken_of_no_hazard hbr
  have hpc : (s.step image .quiet).core.pcReg = s.core.pcNext (s.coreIn image .quiet) := rfl
  rw [hpc, coreIn_quiet, Core.pcNext_pins, ← coreIn_quiet, h1, h2, hj]
  rfl

/-- The front goes on. -/
lemma FrontAt.go (h : FrontAt (instMem image) s.core pc)
    (hbr : s.core.branchHazardEx (s.coreIn image .quiet) = false) (hj : s.core.jumpIf = false)
    (hlu : s.core.loadUseHazard (s.coreIn image .quiet) = false)
    (hs : s.core.stallBack (s.coreIn image .quiet) = false) :
    FrontAt (instMem image) (s.step image .quiet).core (pc + 4#32) ∧
      (s.step image .quiet).core.idEx = decodedOf (fetchedAt (instMem image) pc) := by
  have hfront : s.core.stallFront (s.coreIn image .quiet) = false := by
    rw [Core.stallFront_eq, hs, hlu]
    rfl
  obtain ⟨hfd, hfx⟩ := flush_of_no_redirect hbr hj
  rw [hlu, Bool.false_and] at hfx
  refine ⟨⟨?_, ?_⟩, ?_⟩
  · simp only [step, Core.step, IfIdReg.step, hfd, hfront]
    rw [← h.pcReg]
    exact Core.fetched_pins s.core s.bus (instMem image) hfront hfd
  · rw [pcReg_step_of_no_redirect hbr hj, hfront, h.pcReg]
    rfl
  · simp only [step, Core.step, IdExReg.step, hfx, hs, Core.id, h.ifId]
    rfl

/-- The front waits for the back. -/
lemma FrontAt.wait (h : FrontAt (instMem image) s.core pc)
    (hbr : s.core.branchHazardEx (s.coreIn image .quiet) = false) (hj : s.core.jumpIf = false)
    (hs : s.core.stallBack (s.coreIn image .quiet) = true) :
    FrontAt (instMem image) (s.step image .quiet).core pc ∧
      (s.step image .quiet).core.idEx = s.core.idEx := by
  have hfront : s.core.stallFront (s.coreIn image .quiet) = true := by
    rw [Core.stallFront_eq, hs]
    rfl
  obtain ⟨hfd, hfx⟩ := flush_of_no_redirect hbr hj
  rw [hs, Bool.not_true, Bool.and_false] at hfx
  refine ⟨⟨?_, ?_⟩, ?_⟩
  · simp only [step, Core.step, IfIdReg.step, hfd, hfront]
    exact h.ifId
  · rw [pcReg_step_of_no_redirect hbr hj, hfront, h.pcReg]
    rfl
  · simp only [step, Core.step, IdExReg.step, hfx, hs]
    rfl

/-- A NOP at `pc` in ID. -/
lemma FrontAt.nop_in_id (h : FrontAt (instMem image) s.core pc) (hn : instMem image pc = nop) :
    s.core.jumpIf = false ∧ s.core.loadUseHazard (s.coreIn image .quiet) = false :=
  SocBram.nop_in_id image (by rw [h.ifId]; exact hn)

lemma nopInEx_of (h : s.core.idEx = decodedOf (fetchedAt (instMem image) pc))
    (hn : instMem image pc = nop) : s.core.NopInEx :=
  ⟨pc, by rw [h, fetchedAt, hn]⟩

/-! ### The locks -/

/-- After three NOPs the load lock waits for nothing. -/
lemma NopsOk.not_busy (h : NopsOk image s k) (hk : 3 ≤ k) :
    s.core.registerEx.lstate ≠ .busy := by
  intro hb
  rcases h.locks.busy hb with hl | hr | ⟨-, hr⟩
  · rw [(h.rests (by omega)).exIsLoad] at hl
    cases hl
  · rw [h.memReadEn (by omega)] at hr
    cases hr
  · rw [h.ready hk] at hr
    cases hr

/-- After three NOPs nothing stalls. -/
lemma NopsOk.go (h : NopsOk image s k) (hk : 3 ≤ k) :
    s.core.stallBack (s.coreIn image .quiet) = false ∧
      s.core.loadUseHazard (s.coreIn image .quiet) = false := by
  have hx := h.rests (by omega)
  have hnb := h.not_busy hk
  have hskip : s.core.registerEx.loadSkipStale = false := by
    by_contra hc
    exact hnb (h.locks.skip (by simpa using hc))
  have hbusy : (s.core.registerEx.lstate == .busy) = false := by simpa using hnb
  constructor
  · have hst : s.core.stallBack (s.coreIn image .quiet) = _ := stallBack_stalled (b := false)
    rw [hx.exIsStore, hskip] at hst
    simpa [Core.dmemValid, h.memReadEn (by omega), h.memWriteEn (by omega)] using hst
  · simp [Core.loadUseHazard, HazardIn.loadUseHazard, Core.hazard, RegisterEx.loadPendingOut,
      hbusy, hx.exIsLoad]

/-! ### One cycle -/

/-- IF/ID is followed by the PC. -/
lemma pc_step (h : s.core.ifId.instrValidOut = true → s.core.pcReg = s.core.ifId.idPc + 4#32)
    (hv : (s.step image .quiet).core.ifId.instrValidOut = true) :
    (s.step image .quiet).core.pcReg = (s.step image .quiet).core.ifId.idPc + 4#32 := by
  have hpc : (s.step image .quiet).core.pcReg = s.core.pcNext (s.coreIn image .quiet) := rfl
  have hif : (s.step image .quiet).core.ifId = s.core.ifId.step
      (s.core.stallFront (s.coreIn image .quiet)) (s.core.flushIfid (s.coreIn image .quiet))
      (s.core.fetched (s.coreIn image .quiet)) := rfl
  rw [hpc]
  rw [hif] at hv ⊢
  rw [coreIn_quiet] at hv ⊢
  cases hfl : s.core.flushIfid (s.bus.pins (instMem image) s.core)
  · have hflush := hfl
    rw [Core.flushIfid_pins, Bool.or_eq_false_iff] at hflush
    obtain ⟨hbr, hj⟩ := hflush
    obtain ⟨h1, h2⟩ := Core.jalr_branchTaken_of_no_hazard hbr
    rw [Core.pcNext_pins, h1, h2, hj]
    rw [hfl] at hv
    cases hs : s.core.stallFront (s.bus.pins (instMem image) s.core)
    · simp [IfIdReg.step, Core.fetched]
    · rw [hs] at hv
      simpa [IfIdReg.step] using h hv
  · rw [hfl] at hv
    cases hv

lemma locks_step (h : LocksOk image s) : LocksOk image (s.step image .quiet) :=
  h.step (b := false) fun hc => by cases hc.stall

variable (image) in
/-- Nothing goes on from an EX at rest. -/
lemma rests_step (hx : s.core.ExRests) :
    (s.step image .quiet).core.exWb.wbRd = 0#5 ∧
      (s.core.exMem.memReadEn = false ∨ s.core.stallBack (s.coreIn image .quiet) = false →
        (s.step image .quiet).core.exMem.memReadEn = false) ∧
      (s.core.exMem.memWriteEn = false ∨ s.core.stallBack (s.coreIn image .quiet) = false →
        (s.step image .quiet).core.exMem.memWriteEn = false) := by
  have hl : (s.core.exIn (s.coreIn image .quiet)).exIsLoad = false := hx.exIsLoad
  have hst : (s.core.exIn (s.coreIn image .quiet)).exIsStore = false := hx.exIsStore
  refine ⟨by rw [step_exWb]; exact hx.exRd, ?_, ?_⟩
  · intro h
    rw [step_exMem]
    split_ifs with hs
    · exact h.resolve_right (by simp [hs])
    · simp [Core.exMemIn, ExIn.memReadEn, hl]
  · intro h
    rw [step_exMem]
    split_ifs with hs
    · exact h.resolve_right (by simp [hs])
    · simp [Core.exMemIn, ExIn.memWriteEn, hst]

/-- Another NOP leaves ID. -/
lemma NopsOk.step_nop (h : NopsOk image s k) (hi : s.core.ifId.instrOut = nop)
    (hl : s.core.leavesId (s.coreIn image .quiet) = true) :
    NopsOk image (s.step image .quiet) (k + 1) := by
  obtain ⟨hj, hlu⟩ := nop_in_id image hi
  simp only [Core.leavesId, hj, Bool.false_or, Bool.and_eq_true, Bool.not_eq_true'] at hl
  obtain ⟨⟨hv, hbr⟩, hfront⟩ := hl
  have hback : s.core.stallBack (s.coreIn image .quiet) = false := by
    have hfr := hfront
    rw [Core.stallFront_eq, hlu, Bool.or_false, Bool.or_eq_false_iff] at hfr
    exact hfr.1
  obtain ⟨pc, hp⟩ := h.locks.front.ifId.resolve_left fun hb => by rw [hb] at hv; cases hv
  have hat : FrontAt (instMem image) s.core pc := by
    refine ⟨hp, ?_⟩
    rw [h.pc hv, hp]
    rfl
  obtain ⟨hfront', hidEx⟩ := hat.go hbr hj hlu hback
  rw [hp] at hi
  have hnop := nopInEx_of hidEx hi
  refine ⟨locks_step h.locks, pc_step h.pc, ?_, fun _ => .inl hnop, ?_, ?_, ?_, ?_, ?_,
    ?_, ?_⟩
  · intro _
    rw [hfront'.ifId]
    rfl
  · intro hk
    exact (rests_step image (h.rests (by omega))).2.1 (.inr hback)
  · intro hk
    exact (rests_step image (h.rests (by omega))).2.2 (.inr hback)
  · intro hk
    exact (rests_step image (h.rests (by omega))).1
  · intro hk
    rw [step_memWb, hback]
    exact h.memReadEn (by omega)
  · intro hk
    rw [ready_step, Core.dmemValid, h.memReadEn (by omega), h.memWriteEn (by omega)]
    rfl
  · intro hk
    have hb := h.not_busy (by omega)
    have hload := (h.rests (by omega)).exIsLoad
    simp only [step, Core.step, RegisterEx.step, RegisterEx.lstateStep, Core.registerExIn, hload]
    cases hst : s.core.registerEx.lstate
    · simp
    · exact absurd hst hb
    · simp
  · intro hk
    exact Core.weBuf_step_of_noLink _ (Core.jalLinkWe_of_jumpIf hj)

/-- The instruction in ID waits; after three NOPs none does. -/
lemma NopsOk.step_stay (h : NopsOk image s k)
    (hl : s.core.leavesId (s.coreIn image .quiet) = false) :
    NopsOk image (s.step image .quiet) k := by
  rcases Nat.eq_zero_or_pos k with rfl | hk
  · exact ⟨locks_step h.locks, pc_step h.pc, by omega, by omega, by omega, by omega, by omega,
      by omega, by omega, by omega, by omega⟩
  have hx := h.rests hk
  have hbr := hx.redirect (s.coreIn image .quiet)
  simp only [Core.leavesId, h.inId hk, hbr, Bool.not_false, Bool.and_self, Bool.true_and,
    Bool.or_eq_false_iff, Bool.not_eq_false'] at hl
  obtain ⟨hj, hfront⟩ := hl
  have hfront' := hfront
  rw [Core.stallFront_eq] at hfront'
  have hready : (s.coreIn image .quiet).imemReady = true := rfl
  rw [hready, Bool.not_true, Bool.or_false] at hfront'
  have hk2 : k ≤ 2 := by
    by_contra hk3
    obtain ⟨hs, hlu⟩ := h.go (by omega)
    rw [hs, hlu] at hfront'
    cases hfront'
  obtain ⟨hfd, hfx⟩ := flush_of_no_redirect hbr hj
  have hifId : (s.step image .quiet).core.ifId = s.core.ifId := by
    simp [step, Core.step, IfIdReg.step, hfd, hfront]
  refine ⟨locks_step h.locks, pc_step h.pc, ?_, ?_, ?_, ?_, ?_, by omega, by omega,
    by omega, by omega⟩
  · intro _
    rw [hifId]
    exact h.inId hk
  · intro _
    cases hs : s.core.stallBack (s.coreIn image .quiet)
    · -- A load is awaited, which a NOP never does.
      have hlu : s.core.loadUseHazard (s.coreIn image .quiet) = true := by
        simpa [hs] using hfront'
      right
      refine ⟨?_, ?_, hk2⟩
      · simp only [step, Core.step, IdExReg.step, hfx, hlu, hs]
        exact ⟨rfl, rfl, rfl, rfl⟩
      · rw [hifId]
        intro hi
        rw [(nop_in_id image hi).2] at hlu
        cases hlu
    · have hidEx : (s.step image .quiet).core.idEx = s.core.idEx := by
        simp [step, Core.step, IdExReg.step, hfx, hs]
      rw [Core.NopInEx, hidEx, hifId]
      exact h.inEx hk
  · intro h2
    exact (rests_step image hx).2.1 (.inl (h.memReadEn h2))
  · intro h2
    exact (rests_step image hx).2.2 (.inl (h.memWriteEn h2))
  · intro h2
    exact (rests_step image hx).1

/-- **One cycle of the count.** -/
theorem NopsOk.step (h : NopsOk image s k) : NopsOk image (s.step image .quiet)
    (if s.core.leavesId (s.coreIn image .quiet) then
      if s.core.ifId.instrOut = nop then k + 1 else 0
    else k) := by
  split_ifs with hl hi
  · exact h.step_nop hi hl
  · exact ⟨locks_step h.locks, pc_step h.pc, by omega, by omega, by omega, by omega, by omega,
      by omega, by omega, by omega, by omega⟩
  · exact h.step_stay (by simpa using hl)

/-- **The count of the NOPs along a run.** -/
theorem nopsOk_run (regs : BitVec 5 → BitVec 32) (d : DataMem) (n : ℕ) :
    NopsOk image (presetRun image regs d n) (nopsBefore image regs d n) := by
  induction n with
  | zero =>
    refine ⟨⟨⟨.inl rfl, .inl ⟨rfl, rfl, rfl, rfl⟩⟩, ?_, ?_, ?_⟩, ?_, ?_, ?_, ?_, ?_, ?_, ?_, ?_,
      ?_, ?_⟩
    all_goals intro h; cases h
  | succ n ih => exact ih.step

end SocBram

end RiscvSoc.Rtl
