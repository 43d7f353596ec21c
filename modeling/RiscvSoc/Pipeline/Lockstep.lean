import RiscvSoc.Pipeline.Fetches
import RiscvSoc.Pipeline.Front
import RiscvSoc.Pipeline.MemFree

/-!
# The ALU forwarding register against EX

Without memory accesses nothing holds EX, but the instruction memory freezes the forwarding
register.  The register keeps up with EX exactly as long as it is not frozen when it should take a
new value.
-/

namespace RiscvSoc.Rtl

open Sync

/-- No word of the program is a load, a store or a JAL. -/
def AluProgram (M : BitVec 32 → BitVec 32) : Prop :=
  ∀ a, (idStage (M a)).isLoad = false ∧ (idStage (M a)).isStore = false ∧
    (idStage (M a)).isJump = false

namespace Core

section Defs

variable (s : Core) (i : CoreIn)

/-- A valid instruction that writes a register leaves ID/EX, and no redirect clears the
forwarding register. -/
structure WriterLeaves : Prop where
  valid : s.idEx.exInstrValid = true
  writes : s.idEx.exRegWriteEn = true
  stallBack : s.stallBack i = false
  noRedirect : s.branchHazardEx i = false

/-- The forwarding register already holds what the instruction in EX computes. -/
def HoldsResult : Prop :=
  s.registerEx.rdReg = s.idEx.exRd ∧ s.registerEx.rdDataReg = (s.exIn i).exResult

/-- **The forwarding register keeps up** in a cycle: when a writer leaves, the instruction memory
does not freeze it, or it has nothing new to take. -/
def KeepsUp : Prop := s.WriterLeaves i → i.imemReady = true ∨ s.HoldsResult i

end Defs

variable {s : Core} {b : BusIn} {M : BitVec 32 → BitVec 32}

/-! ### One cycle -/

/-- ID decodes no load and no store of such a program. -/
lemma id_of_aluProgram (hM : AluProgram M) (hf : FrontOk M s) :
    s.id.isLoad = false ∧ s.id.isStore = false := by
  rcases hf.ifId with hb | ⟨pc, hp⟩
  · rw [id, hb]
    exact ⟨rfl, rfl⟩
  · rw [id, hp]
    obtain ⟨hl, hs, -⟩ := hM pc
    exact ⟨hl, hs⟩

/-- A writer that leaves is taken by the forwarding register unless the fetch stalls. -/
lemma MemQuiet.step_rdReg_of_writer (h : s.MemQuiet) (hb : b.stall = false)
    (hw : s.WriterLeaves (b.pins M s)) :
    ((s.step (b.pins M s)).registerEx.rdReg, (s.step (b.pins M s)).registerEx.rdDataReg) =
      if b.imemReady then (s.idEx.exRd, (s.exIn (b.pins M s)).exResult)
      else (s.registerEx.rdReg, s.registerEx.rdDataReg) := by
  have hs : s.stallFront (b.pins M s) = !b.imemReady := by
    rw [stallFront_pins, hb, h.loadUseHazard, h.memStall]
    simp
  cases hr : b.imemReady <;>
    simp [Core.step, RegisterEx.step, registerExIn, hw.noRedirect, hw.writes, hs, hr, h.lstate,
      h.exIsLoad]

/-- **The forwarding register takes the result exactly when it keeps up.** -/
lemma MemQuiet.lockstep_iff (h : s.MemQuiet) (hb : b.stall = false)
    (hw : s.WriterLeaves (b.pins M s)) :
    ((s.step (b.pins M s)).registerEx.rdReg = s.idEx.exRd ∧
      (s.step (b.pins M s)).registerEx.rdDataReg = (s.exIn (b.pins M s)).exResult) ↔
      b.imemReady = true ∨ s.HoldsResult (b.pins M s) := by
  have hstep := h.step_rdReg_of_writer hb hw
  rw [Prod.mk.injEq] at hstep
  obtain ⟨h1, h2⟩ := hstep
  rw [h1, h2]
  cases b.imemReady <;> simp [HoldsResult]

/-- An operand that the forwarding register holds. -/
lemma MemQuiet.dataFinal_of_rdReg (h : s.MemQuiet) {rs : BitVec 5} (h0 : rs ≠ 0#5)
    (hr : s.registerEx.rdReg = rs) (v : BitVec 32) :
    (s.exIn (b.pins M s)).dataFinal rs v = s.registerEx.rdDataReg := by
  have ha : (s.exIn (b.pins M s)).aluHit rs = true := by
    simp [ExIn.aluHit, exIn, hr, h0]
  rw [ExIn.dataFinal, h.lockHit, ha]
  simp only [Bool.false_eq_true, if_false, if_true]
  rfl

end Core

/-! ### Runs -/

section Run

variable (M : BitVec 32 → BitVec 32) (ins : ℕ → BusIn)

/-- **In lockstep with EX**: when a writer leaves in cycle `n`, the forwarding register then holds
its register and its result, and the instruction that enters EX and names its register takes that
result. -/
structure Lockstep (n : ℕ) : Prop where
  chain : (coreRun M ins n).WriterLeaves (corePins M ins n) →
    (coreRun M ins (n + 1)).registerEx.rdReg = (coreRun M ins n).idEx.exRd ∧
      (coreRun M ins (n + 1)).registerEx.rdDataReg =
        ((coreRun M ins n).exIn (corePins M ins n)).exResult
  rs1 : (coreRun M ins n).WriterLeaves (corePins M ins n) →
    (coreRun M ins n).idEx.exRd ≠ 0#5 →
    (coreRun M ins (n + 1)).idEx.exRs1 = (coreRun M ins n).idEx.exRd →
    ((coreRun M ins (n + 1)).exIn (corePins M ins (n + 1))).rs1DataFinal =
      ((coreRun M ins n).exIn (corePins M ins n)).exResult
  rs2 : (coreRun M ins n).WriterLeaves (corePins M ins n) →
    (coreRun M ins n).idEx.exRd ≠ 0#5 →
    (coreRun M ins (n + 1)).idEx.exRs2 = (coreRun M ins n).idEx.exRd →
    ((coreRun M ins (n + 1)).exIn (corePins M ins (n + 1))).rs2DataFinal =
      ((coreRun M ins n).exIn (corePins M ins n)).exResult

variable {M ins}

/-- A core over such a program starts no access. -/
lemma memQuiet_run (hM : AluProgram M) (hs : ∀ n, (ins n).stall = false) (n : ℕ) :
    (coreRun M ins n).MemQuiet := by
  induction n with
  | zero => exact Core.memQuiet_reset
  | succ n ih =>
    obtain ⟨hl, hst⟩ := Core.id_of_aluProgram hM (frontOk_run ins n)
    exact ih.step (hs n) hl hst

/-- In one cycle the two agree exactly when the register keeps up. -/
lemma lockstep_iff_keepsUp_at (hM : AluProgram M) (hs : ∀ n, (ins n).stall = false) (n : ℕ) :
    Lockstep M ins n ↔ (coreRun M ins n).KeepsUp (corePins M ins n) := by
  have hq := memQuiet_run hM hs n
  have hq' := memQuiet_run hM hs (n + 1)
  constructor
  · intro h hw
    exact (hq.lockstep_iff (hs n) hw).mp (h.chain hw)
  · intro h
    have hc := fun hw => (hq.lockstep_iff (hs n) hw).mpr (h hw)
    refine ⟨hc, fun hw h0 hr => ?_, fun hw h0 hr => ?_⟩ <;>
    · obtain ⟨h1, h2⟩ := hc hw
      have hd := hq'.dataFinal_of_rdReg (b := ins (n + 1)) (M := M) h0 h1
      exact ((congrArg (fun r => ExIn.dataFinal _ r _) hr).trans (hd _)).trans h2

/-- **The forwarding register is in lockstep with EX exactly as long as it keeps up.** -/
theorem lockstep_iff_keepsUp (hM : AluProgram M) (hs : ∀ n, (ins n).stall = false) (n : ℕ) :
    (∀ k ≤ n, Lockstep M ins k) ↔ ∀ k ≤ n, (coreRun M ins k).KeepsUp (corePins M ins k) :=
  forall₂_congr fun k _ => lockstep_iff_keepsUp_at hM hs k

/-- `addi x1, x1, 1` at every address. -/
def addiLoop : BitVec 32 → BitVec 32 := fun _ => 0x00108093#32

lemma aluProgram_addiLoop : AluProgram addiLoop := by
  intro a
  unfold addiLoop
  decide

/-- The instruction memory waits while the first instruction is in EX. -/
def lateFetch : ℕ → BusIn := fun n => ⟨false, n != 2, 0#32, false, 0#32⟩

/-- With a fetch that always answers the register keeps up. -/
theorem lockstep_iff_keepsUp_addiLoop :
    (∀ k ≤ 4, Lockstep addiLoop (fun _ => ⟨false, true, 0#32, false, 0#32⟩) k) ↔
      ∀ k ≤ 4, (coreRun addiLoop (fun _ => ⟨false, true, 0#32, false, 0#32⟩) k).KeepsUp
        (corePins addiLoop (fun _ => ⟨false, true, 0#32, false, 0#32⟩) k) :=
  lockstep_iff_keepsUp aluProgram_addiLoop (fun _ => rfl) 4

/-- **The register falls behind**: the result of the `addi` that leaves in cycle 2 never gets
there. -/
theorem lateFetch_not_lockstep : ¬ ∀ M ins n, AluProgram M → (∀ n, (ins n).stall = false) →
    Lockstep M ins n := by
  intro h
  have hc := (h addiLoop lateFetch 2 aluProgram_addiLoop fun _ => rfl).chain
  have hw : (coreRun addiLoop lateFetch 2).WriterLeaves (corePins addiLoop lateFetch 2) := by
    constructor <;> decide +kernel
  obtain ⟨hr, -⟩ := hc hw
  revert hr
  decide +kernel

end Run

end RiscvSoc.Rtl
