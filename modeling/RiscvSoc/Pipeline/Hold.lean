import Mathlib.Data.Nat.Init
import RiscvSoc.Pipeline.Front
import RiscvSoc.Pipeline.Fetches

/-!
# Instructions held in EX

The register file samples the read addresses of ID in every cycle and has no hold, so an
instruction that is held in EX keeps an operand only if its source stays: the forwarding register,
or the file under the same address of the instruction that waits in ID.
-/

namespace RiscvSoc.Rtl

open Sync

/-! ### The sources of an operand -/

namespace RegisterEx

/-- The load lock forwards the register `rs`. -/
def locks (r : RegisterEx) (rs : BitVec 5) : Bool :=
  r.loadLockOut && r.rdRegLoad != 0#5 && r.rdRegLoad == rs

/-- The forwarding register holds the register `rs`. -/
def forwards (r : RegisterEx) (rs : BitVec 5) : Bool := r.rdReg != 0#5 && r.rdReg == rs

end RegisterEx

namespace Core

variable {s s' : Core} {i i' : CoreIn} {rs : BitVec 5}

lemma lockHit_eq : (s.exIn i).lockHit rs = s.registerEx.locks rs := by
  by_cases hl : s.registerEx.lstate = .idle
  · have ho : s.registerEx.loadLockOut = false := by rw [RegisterEx.loadLockOut, hl]; rfl
    simp [ExIn.lockHit, RegisterEx.locks, exIn, ho]
  · simp [ExIn.lockHit, RegisterEx.locks, exIn, RegisterEx.rdRegLoadOut, hl]

lemma aluHit_eq : (s.exIn i).aluHit rs = s.registerEx.forwards rs := rfl

/-- An operand that the lock does not forward. -/
lemma dataFinal_of_not_locks (h : s.registerEx.locks rs = false) (v : BitVec 32) :
    (s.exIn i).dataFinal rs v =
      if s.registerEx.forwards rs then s.registerEx.rdDataReg else v := by
  rw [ExIn.dataFinal, lockHit_eq, h, aluHit_eq]
  rfl

/-! ### What the result of EX depends on -/

section Fields

variable (h : s'.idEx = s.idEx)
include h

variable (i i') in
lemma aluOp_congr : (s'.exIn i').aluOp = (s.exIn i).aluOp := by
  simp [ExIn.aluOp, ExIn.branchAluOp, ExIn.isM, exIn, h]

/-- What decides the result of an instruction that writes a register. -/
lemma exResult_congr (hst : s.idEx.exIsStore = false)
    (hs : s.idEx.exOpcode = opcodeLui ∨ s.idEx.exOpcode = opcodeAuipc ∨
      s.idEx.exOpcode = opcodeJalr ∨ ((s'.exIn i').rs1DataFinal = (s.exIn i).rs1DataFinal ∧
        ((s.idEx.exOpcode = opcodeRType ∨ s.idEx.exIsBranch = true) →
          (s'.exIn i').rs2DataFinal = (s.exIn i).rs2DataFinal))) :
    (s'.exIn i').exResult = (s.exIn i).exResult := by
  have hvf : (s'.exIn i').instrValidFinal = (s.exIn i).instrValidFinal := by
    simp [ExIn.instrValidFinal, ExIn.memReqBlock, exIn, h, hst]
  have hop : (s'.exIn i').exOpcode = (s.exIn i).exOpcode := by simp [exIn, h]
  have himm : (s'.exIn i').exImm = (s.exIn i).exImm := by simp [exIn, h]
  have hpc : (s'.exIn i').exPc = (s.exIn i).exPc := by simp [exIn, h]
  have hpc4 : (s'.exIn i').exPcPlus4 = (s.exIn i).exPcPlus4 := by simp [exIn, h]
  rw [ExIn.exResult, ExIn.exResult, hvf, hop, himm, hpc, hpc4]
  have hop' : (s.exIn i).exOpcode = s.idEx.exOpcode := rfl
  rcases hs with ho | ho | ho | ⟨h1, h2⟩
  · simp [hop', ho]
  · simp [hop', ho]
  · simp [hop', ho, opcodeJalr, opcodeLui, opcodeAuipc]
  · have halu : (s'.exIn i').alu = (s.exIn i).alu := by
      have hbr : (s'.exIn i').exIsBranch = s.idEx.exIsBranch := by simp [exIn, h]
      have hbr' : (s.exIn i).exIsBranch = s.idEx.exIsBranch := rfl
      rw [ExIn.alu, ExIn.alu, aluOp_congr i i' h, h1, hop, himm, hop', hbr, hbr']
      by_cases hr : s.idEx.exOpcode = opcodeRType ∨ s.idEx.exIsBranch = true
      · rw [h2 hr]
      · have hr' : (s.idEx.exOpcode == opcodeRType || s.idEx.exIsBranch) = false := by
          simpa using hr
        rw [hr']
        rfl
    rw [halu]

/-- What decides a branch. -/
lemma branchTaken_congr (hst : s.idEx.exIsStore = false) (hb : s.idEx.exIsBranch = true)
    (h1 : (s'.exIn i').rs1DataFinal = (s.exIn i).rs1DataFinal)
    (h2 : (s'.exIn i').rs2DataFinal = (s.exIn i).rs2DataFinal) :
    (s'.exIn i').branchTaken = (s.exIn i).branchTaken := by
  have hvf : (s'.exIn i').instrValidFinal = (s.exIn i).instrValidFinal := by
    simp [ExIn.instrValidFinal, ExIn.memReqBlock, exIn, h, hst]
  have hbr : (s'.exIn i').exIsBranch = true := by simp [exIn, h, hb]
  have hbr' : (s.exIn i).exIsBranch = true := hb
  have halu : (s'.exIn i').alu = (s.exIn i).alu := by
    simp [ExIn.alu, aluOp_congr i i' h, h1, h2, hbr, hbr']
  rw [ExIn.branchTaken, ExIn.branchTaken, hvf, hbr, hbr', halu]

end Fields

/-! ### Held instructions -/

variable (s i)

/-- A valid instruction in EX that the edge leaves there. -/
def Held : Prop :=
  s.idEx.exInstrValid = true ∧ s.stallBack i = true ∧ s.flushIdex i = false

/-- **The operand `rs` keeps its source**: the load lock forwards it neither in this cycle nor in
the next, and it is in the forwarding register, or else the instruction in ID has it at the same
port and nothing is written to it at this edge. -/
structure KeepsSource (rs idRs : BitVec 5) : Prop where
  unlocked : s.registerEx.locks rs = false
  unlockedNext : (s.registerEx.step (s.registerExIn i)).locks rs = false
  source : s.registerEx.forwards rs = true ∨
    (idRs = rs ∧
      ¬ (s.regfile.weFinal s.regFileIn = true ∧ s.regfile.waddrEff s.regFileIn = rs))

/-- Every operand the instruction uses keeps its source. -/
structure KeepsSources : Prop where
  rs1 : s.idEx.exUseRs1 = true → s.KeepsSource i s.idEx.exRs1 s.id.rs1
  rs2 : s.idEx.exUseRs2 = true → s.KeepsSource i s.idEx.exRs2 s.id.rs2

/-- The ports show the file, and an operand that is not in the forwarding register is read. -/
structure PortsOk : Prop where
  fresh : s.regfile.Fresh
  raddr1 : s.idEx.exInstrValid = true → s.idEx.exUseRs1 = true →
    s.registerEx.forwards s.idEx.exRs1 = false → s.regfile.raddr1Q = s.idEx.exRs1
  raddr2 : s.idEx.exInstrValid = true → s.idEx.exUseRs2 = true →
    s.registerEx.forwards s.idEx.exRs2 = false → s.regfile.raddr2Q = s.idEx.exRs2

lemma portsOk_reset : PortsOk reset := ⟨RegFileBram.fresh_init, by simp [reset, IdExReg.reset,
  IdExReg.bubble], by simp [reset, IdExReg.reset, IdExReg.bubble]⟩

variable {s i} {b : BusIn} {M : BitVec 32 → BitVec 32}

lemma Held.step_idEx (h : s.Held i) : (s.step i).idEx = s.idEx := by
  simp [step, IdExReg.step, h.2.1, h.2.2]

/-- The forwarding register rests while an instruction is held. -/
lemma Held.step_rdReg (h : s.Held (b.pins M s)) :
    (s.step (b.pins M s)).registerEx.rdReg = s.registerEx.rdReg ∧
      (s.step (b.pins M s)).registerEx.rdDataReg = s.registerEx.rdDataReg := by
  have hf : s.stallFront (b.pins M s) = true := by
    have hb := h.2.1
    rw [stallBack_pins] at hb
    rw [stallFront_pins]
    cases hs : b.stall <;> simp [hs] at hb ⊢
    simp [hb]
  have hx : s.branchHazardEx (b.pins M s) = false := by
    have hn := h.2.2
    rw [flushIdex_pins] at hn
    cases hbr : s.branchHazardEx (b.pins M s)
    · rfl
    · simp [hbr] at hn
  have hreg := s.step_rdReg (i := b.pins M s) rfl
  rw [hx, hf] at hreg
  exact Prod.ext_iff.mp hreg

lemma Held.step_forwards (h : s.Held (b.pins M s)) (rs : BitVec 5) :
    (s.step (b.pins M s)).registerEx.forwards rs = s.registerEx.forwards rs := by
  simp [RegisterEx.forwards, h.step_rdReg.1]

theorem PortsOk.step (h : s.PortsOk) (hC : s.Held (b.pins M s) → s.KeepsSources (b.pins M s)) :
    (s.step (b.pins M s)).PortsOk := by
  have hcase : s.Held (b.pins M s) ∨ (s.step (b.pins M s)).idEx.exInstrValid = false ∨
      (s.step (b.pins M s)).idEx = IdExReg.ofId s.ifId s.id := by
    simp only [Held, Core.step, IdExReg.step]
    cases s.flushIdex (b.pins M s) <;> cases s.stallBack (b.pins M s) <;>
      simp [IdExReg.bubble]
    cases s.idEx.exInstrValid <;> simp
  refine ⟨h.fresh.step _, ?_, ?_⟩
  · intro hv hu hf
    have hq : (s.step (b.pins M s)).regfile.raddr1Q = s.id.rs1 := rfl
    rcases hcase with hh | hn | hd
    · rw [hh.step_idEx] at hu hf ⊢
      rw [hh.step_forwards] at hf
      rcases ((hC hh).rs1 hu).source with hs | hs
      · simp [hf] at hs
      · rw [hq, hs.1]
    · simp [hn] at hv
    · rw [hq, hd]; rfl
  · intro hv hu hf
    have hq : (s.step (b.pins M s)).regfile.raddr2Q = s.id.rs2 := rfl
    rcases hcase with hh | hn | hd
    · rw [hh.step_idEx] at hu hf ⊢
      rw [hh.step_forwards] at hf
      rcases ((hC hh).rs2 hu).source with hs | hs
      · simp [hf] at hs
      · rw [hq, hs.1]
    · simp [hn] at hv
    · rw [hq, hd]; rfl

/-- An operand that keeps its source keeps its value. -/
lemma KeepsSource.value_eq (hh : s.Held (b.pins M s)) {rs idRs : BitVec 5}
    (hk : s.KeepsSource (b.pins M s) rs idRs) {v v' : BitVec 32}
    (hv : s.registerEx.forwards rs = false → v = s.regfile.regs rs)
    (hv' : s.registerEx.forwards rs = false → v' = (s.step (b.pins M s)).regfile.regs rs) :
    ((s.step (b.pins M s)).exIn i').dataFinal rs v' = (s.exIn i).dataFinal rs v := by
  have hn : (s.step (b.pins M s)).registerEx.locks rs = false := hk.unlockedNext
  rw [dataFinal_of_not_locks hk.unlocked, dataFinal_of_not_locks hn, hh.step_forwards,
    hh.step_rdReg.2]
  cases hf : s.registerEx.forwards rs
  · have hw := (hk.source.resolve_left (by simp [hf])).2
    have hr : (s.step (b.pins M s)).regfile.regs rs = s.regfile.regs rs := by
      change s.regfile.regsStep s.regFileIn rs = _
      unfold RegFileBram.regsStep
      split_ifs with h1
      · exact Function.update_of_ne (fun e => hw ⟨h1, e.symm⟩) _ _
      · rfl
    simp [hv hf, hv' hf, hr]
  · rfl

/-- Over the edge of a held instruction both operands keep their values. -/
theorem PortsOk.operands_eq (h : s.PortsOk) (hh : s.Held (b.pins M s))
    (hk : s.KeepsSources (b.pins M s)) (i' : CoreIn) :
    (s.idEx.exUseRs1 = true → ((s.step (b.pins M s)).exIn i').rs1DataFinal =
        (s.exIn (b.pins M s)).rs1DataFinal) ∧
      (s.idEx.exUseRs2 = true → ((s.step (b.pins M s)).exIn i').rs2DataFinal =
        (s.exIn (b.pins M s)).rs2DataFinal) := by
  have hfresh := h.fresh.step s.regFileIn
  constructor
  · intro hu
    have hrs : ((s.step (b.pins M s)).exIn i').exRs1 = s.idEx.exRs1 := by
      rw [← hh.step_idEx]; rfl
    rw [ExIn.rs1DataFinal, ExIn.rs1DataFinal, hrs]
    refine (hk.rs1 hu).value_eq hh ?_ ?_
    · intro hf
      rw [← h.raddr1 hh.1 hu hf]; exact h.fresh.port1
    · intro hf
      rw [← (((hk.rs1 hu).source.resolve_left (by simp [hf])).1)]; exact hfresh.port1
  · intro hu
    have hrs : ((s.step (b.pins M s)).exIn i').exRs2 = s.idEx.exRs2 := by
      rw [← hh.step_idEx]; rfl
    rw [ExIn.rs2DataFinal, ExIn.rs2DataFinal, hrs]
    refine (hk.rs2 hu).value_eq hh ?_ ?_
    · intro hf
      rw [← h.raddr2 hh.1 hu hf]; exact h.fresh.port2
    · intro hf
      rw [← (((hk.rs2 hu).source.resolve_left (by simp [hf])).1)]; exact hfresh.port2

end Core

/-- The operands `ID_stage` reports for an instruction that EX writes a register for. -/
lemma idStage_writer {w : BitVec 32} (hw : (idStage w).regWriteEn = true)
    (hj : (idStage w).isJump = false) :
    (idStage w).isStore = false ∧ ((idStage w).opcode = opcodeLui ∨
      (idStage w).opcode = opcodeAuipc ∨ (idStage w).opcode = opcodeJalr ∨
      ((idStage w).useRs1 = true ∧ (((idStage w).opcode = opcodeRType ∨
        (idStage w).isBranch = true) → (idStage w).useRs2 = true))) := by
  simp only [idStage, Bool.or_eq_true, beq_iff_eq] at hw hj ⊢
  rcases hw with (((((h | h) | h) | h) | h) | h) | h <;> rw [h] at hj ⊢ <;> simp_all <;> decide

section Run

variable (M : BitVec 32 → BitVec 32) (ins : ℕ → BusIn) (n : ℕ)

/-- **Nothing of an instruction in EX changes over the edge of cycle `n`**: the operands it uses,
its result if it has one, its address and its store data if it accesses the memory, its target if
it is a JALR and its decision if it is a branch. -/
structure OperandsHeld : Prop where
  rs1 : (coreRun M ins n).idEx.exUseRs1 = true →
    ((coreRun M ins (n + 1)).exIn (corePins M ins (n + 1))).rs1DataFinal =
      ((coreRun M ins n).exIn (corePins M ins n)).rs1DataFinal
  rs2 : (coreRun M ins n).idEx.exUseRs2 = true →
    ((coreRun M ins (n + 1)).exIn (corePins M ins (n + 1))).rs2DataFinal =
      ((coreRun M ins n).exIn (corePins M ins n)).rs2DataFinal
  exResult : (coreRun M ins n).idEx.exRegWriteEn = true →
    ((coreRun M ins (n + 1)).exIn (corePins M ins (n + 1))).exResult =
      ((coreRun M ins n).exIn (corePins M ins n)).exResult
  memAddr : (coreRun M ins n).idEx.exIsLoad = true ∨ (coreRun M ins n).idEx.exIsStore = true →
    ((coreRun M ins (n + 1)).exIn (corePins M ins (n + 1))).memAddrOut =
      ((coreRun M ins n).exIn (corePins M ins n)).memAddrOut
  memWdata : (coreRun M ins n).idEx.exIsStore = true →
    ((coreRun M ins (n + 1)).exIn (corePins M ins (n + 1))).memWdata =
      ((coreRun M ins n).exIn (corePins M ins n)).memWdata
  pcJalr : (coreRun M ins n).idEx.exIsJalr = true →
    ((coreRun M ins (n + 1)).exIn (corePins M ins (n + 1))).pcJalr =
      ((coreRun M ins n).exIn (corePins M ins n)).pcJalr
  branch : (coreRun M ins n).idEx.exIsBranch = true →
    ((coreRun M ins (n + 1)).exIn (corePins M ins (n + 1))).branchTaken =
      ((coreRun M ins n).exIn (corePins M ins n)).branchTaken

variable {M ins}

lemma portsOk_run (hC : ∀ k, (coreRun M ins k).Held (corePins M ins k) →
    (coreRun M ins k).KeepsSources (corePins M ins k)) : (coreRun M ins n).PortsOk :=
  holds_along (I := fun k => (coreRun M ins k).PortsOk) Core.portsOk_reset
    (fun _ h hc => h.step hc) fun k _ => hC k

/-- **A held instruction keeps its operands** in a run whose held instructions all keep the
sources of theirs. -/
theorem operandsHeld_of_keepsSources
    (hC : ∀ k, (coreRun M ins k).Held (corePins M ins k) →
      (coreRun M ins k).KeepsSources (corePins M ins k))
    (hh : (coreRun M ins n).Held (corePins M ins n)) : OperandsHeld M ins n := by
  have hidEx : (coreRun M ins (n + 1)).idEx = (coreRun M ins n).idEx := hh.step_idEx
  obtain ⟨h1, h2⟩ := (portsOk_run n hC).operands_eq hh (hC n hh) (corePins M ins (n + 1))
  rw [← corePins, ← coreRun_succ] at h1 h2
  -- The fields of a valid entry are those `ID_stage` gives for a word that is no JAL.
  obtain ⟨pc, hpc, hj⟩ := (frontOk_run (M := M) ins n).idEx.resolve_left
    fun hb => by
      have := hh.1
      rw [coreRun, hb.exInstrValid] at this
      cases this
  change (coreRun M ins n).idEx = _ at hpc
  have hu1 : (coreRun M ins n).idEx.exUseRs1 = (idStage (M pc)).useRs1 := by rw [hpc]; rfl
  have hu2 : (coreRun M ins n).idEx.exUseRs2 = (idStage (M pc)).useRs2 := by rw [hpc]; rfl
  have hwe : (coreRun M ins n).idEx.exRegWriteEn = (idStage (M pc)).regWriteEn := by rw [hpc]; rfl
  have hst : (coreRun M ins n).idEx.exIsStore = (idStage (M pc)).isStore := by rw [hpc]; rfl
  have hld : (coreRun M ins n).idEx.exIsLoad = (idStage (M pc)).isLoad := by rw [hpc]; rfl
  have hbr : (coreRun M ins n).idEx.exIsBranch = (idStage (M pc)).isBranch := by rw [hpc]; rfl
  have hjr : (coreRun M ins n).idEx.exIsJalr = (idStage (M pc)).isJalr := by rw [hpc]; rfl
  have hop : (coreRun M ins n).idEx.exOpcode = (idStage (M pc)).opcode := by rw [hpc]; rfl
  have himm : ((coreRun M ins (n + 1)).exIn (corePins M ins (n + 1))).exImm =
      ((coreRun M ins n).exIn (corePins M ins n)).exImm := by simp [Core.exIn, hidEx]
  rw [hu1] at h1
  rw [hu2] at h2
  refine ⟨by rwa [hu1], by rwa [hu2], ?_, ?_, ?_, ?_, ?_⟩
  · intro hw
    rw [hwe] at hw
    obtain ⟨hs, hc⟩ := idStage_writer hw hj
    refine Core.exResult_congr hidEx (by rw [hst, hs]) ?_
    rw [hop, hbr]
    exact hc.imp id (Or.imp id (Or.imp id fun hu => ⟨h1 hu.1, fun hr => h2 (hu.2 hr)⟩))
  · intro hm
    rw [hld, hst] at hm
    have hu : (idStage (M pc)).useRs1 = true := by
      rcases hm with hm | hm <;> simp only [idStage] at hm ⊢ <;> simp [hm]
    rw [ExIn.memAddrOut, ExIn.memAddrOut, h1 hu, himm]
  · intro hm
    rw [hst] at hm
    have hu : (idStage (M pc)).useRs2 = true := by simp only [idStage] at hm ⊢; simp [hm]
    exact h2 hu
  · intro hm
    rw [hjr] at hm
    have hu : (idStage (M pc)).useRs1 = true := by simp only [idStage] at hm ⊢; simp [hm]
    rw [ExIn.pcJalr, ExIn.pcJalr, h1 hu, himm]
  · intro hm
    have hm' := hm
    rw [hbr] at hm
    have hu : (idStage (M pc)).useRs1 = true ∧ (idStage (M pc)).useRs2 = true ∧
        (idStage (M pc)).isStore = false := by
      simp only [idStage, beq_iff_eq] at hm ⊢
      rw [hm]
      decide
    exact Core.branchTaken_congr hidEx (by rw [hst, hu.2.2]) hm' (h1 hu.1) (h2 hu.2.1)

/-- An operand in the forwarding register keeps its source while the load lock is idle. -/
lemma keepsSource_of_forwards {s : Core} {i : CoreIn} {rs idRs : BitVec 5}
    (hl : s.registerEx.lstate = .idle) (hld : s.idEx.exIsLoad = false)
    (hf : s.registerEx.forwards rs = true) : s.KeepsSource i rs idRs := by
  have hnext : (s.registerEx.step (s.registerExIn i)).lstate = .idle := by
    simp [RegisterEx.step, RegisterEx.lstateStep, Core.registerExIn, hl, hld]
  refine ⟨?_, ?_, .inl hf⟩
  · simp [RegisterEx.locks, RegisterEx.loadLockOut, hl]
  · simp [RegisterEx.locks, RegisterEx.loadLockOut, hnext]

/-- `addi x1, x0, 5` and `addi x2, x1, 0` in front of NOPs. -/
def forwardedReader : BitVec 32 → BitVec 32 := fun a =>
  if a = 0#32 then 0x00500093#32 else if a = 4#32 then 0x00008113#32 else nop

/-- The external stall from the cycle on in which the reader is in EX. -/
def stallFromThree : ℕ → BusIn := fun n => ⟨decide (3 ≤ n), true, 0#32, false, 0#32⟩

/-- The reader waits with its operand in the forwarding register. -/
lemma forwardedReader_waits {n : ℕ} (hn : 3 ≤ n) :
    (coreRun forwardedReader stallFromThree n).idEx =
        (coreRun forwardedReader stallFromThree 3).idEx ∧
      (coreRun forwardedReader stallFromThree n).registerEx.rdReg = 1#5 ∧
      (coreRun forwardedReader stallFromThree n).registerEx.lstate = .idle ∧
      (coreRun forwardedReader stallFromThree n).Held
        (corePins forwardedReader stallFromThree n) := by
  induction n, hn using Nat.le_induction with
  | base =>
    exact ⟨rfl, by decide +kernel, by decide +kernel,
      ⟨by decide +kernel, by decide +kernel, by decide +kernel⟩⟩
  | succ n hn ih =>
    obtain ⟨hid, hrd, hl, hh⟩ := ih
    have hid' : (coreRun forwardedReader stallFromThree (n + 1)).idEx =
        (coreRun forwardedReader stallFromThree 3).idEx := hh.step_idEx.trans hid
    have hstall : (coreRun forwardedReader stallFromThree (n + 1)).stallBack
        (corePins forwardedReader stallFromThree (n + 1)) = true := by
      rw [corePins, Core.stallBack_eq, BusIn.pins_stall]
      simp [stallFromThree, show 3 ≤ n + 1 by omega]
    have hbr : (coreRun forwardedReader stallFromThree (n + 1)).branchHazardEx
        (corePins forwardedReader stallFromThree (n + 1)) = false := by
      have h1 : (coreRun forwardedReader stallFromThree 3).idEx.exIsBranch = false := by
        decide +kernel
      have h2 : (coreRun forwardedReader stallFromThree 3).idEx.exIsJalr = false := by
        decide +kernel
      simp [Core.branchHazardEx, HazardIn.branchHazardEx, Core.hazard, ExIn.branchTaken, ExIn.jalr,
        Core.exIn, hid', h1, h2]
    refine ⟨hid', hh.step_rdReg.1.trans hrd, ?_, ?_, hstall, ?_⟩
    · have hld : (coreRun forwardedReader stallFromThree n).idEx.exIsLoad = false := by
        rw [hid]
        decide +kernel
      simp [coreRun_succ, Core.step, RegisterEx.step, RegisterEx.lstateStep, Core.registerExIn, hl,
        hld]
    · rw [hid']
      decide +kernel
    · rw [corePins] at hbr hstall ⊢
      rw [Core.flushIdex_pins, hbr, hstall]
      simp

/-- The reader keeps `x1` from the forwarding register, although the NOP in ID reads `x0`. -/
theorem operandsHeld_forwardedReader : OperandsHeld forwardedReader stallFromThree 5 := by
  refine operandsHeld_of_keepsSources 5 (fun k hh => ?_)
    (forwardedReader_waits (by omega)).2.2.2
  by_cases hk : 3 ≤ k
  · obtain ⟨hid, hrd, hl, -⟩ := forwardedReader_waits hk
    constructor
    · intro _
      refine keepsSource_of_forwards hl ?_ ?_
      · rw [hid]
        decide +kernel
      · rw [RegisterEx.forwards, hrd, hid]
        decide +kernel
    · intro hu
      rw [hid] at hu
      exact absurd hu (by decide +kernel)
  · -- Before that nothing is held.
    obtain rfl | rfl | rfl : k = 0 ∨ k = 1 ∨ k = 2 := by omega
    all_goals exact absurd hh.2.1 (by decide +kernel)

/-- `addi x1, x0, 5`, three NOPs, and `addi x2, x1, 0` in front of more NOPs. -/
def heldReader : BitVec 32 → BitVec 32 := fun a =>
  if a = 0#32 then 0x00500093#32 else if a = 16#32 then 0x00008113#32 else nop

/-- **A held operand is lost**: the reader takes `x1` from the file, the external stall holds it
for a cycle, and the NOP in ID reads `x0` at its port. -/
theorem heldReader_loses : ¬ ∀ M ins n, (coreRun M ins n).Held (corePins M ins n) →
    OperandsHeld M ins n := by
  intro h
  have hr := (h heldReader (fun n => ⟨n == 6, true, 0#32, false, 0#32⟩) 6
    ⟨by decide +kernel, by decide +kernel, by decide +kernel⟩).rs1 (by decide +kernel)
  revert hr
  decide +kernel

end Run

end RiscvSoc.Rtl
