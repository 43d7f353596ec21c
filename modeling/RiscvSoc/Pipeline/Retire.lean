import RiscvSoc.Pipeline.Settled
import RiscvSoc.Sync.WriteLog

/-!
# The log of the results that leave EX

An observer lists the register results in the order in which their instructions leave EX, which
is the order of the program.  The value of a load is awaited until EX/MEM releases it.
-/

namespace RiscvSoc.Rtl

open Sync

/-- The results that have left EX, youngest first; the kind tells whether it is of a load. -/
abbrev RetireLog := WriteLog (BitVec 5) Bool (BitVec 32)

namespace Core

variable (s : Core) (i : CoreIn)

/-- A valid instruction leaves EX: the back is not held, or its own redirect empties ID/EX. -/
def leavesEx : Bool := s.idEx.exInstrValid && (!s.stallBack i || s.flushIdex i)

/-- The result that leaves EX in the cycle, if it is for another register than `x0`. -/
def retiring : RetireLog :=
  if s.leavesEx i && s.idEx.exRegWriteEn && s.idEx.exRd != 0#5 then
    [⟨s.idEx.exRd, s.idEx.exIsLoad,
      if s.idEx.exIsLoad then none else some (s.exIn i).exResult⟩]
  else []

/-- EX/MEM releases a load. -/
def releasesLoad : Bool := s.exMem.memReadEn && !s.stallBack i

/-- The log after the cycle, in which a released load takes the value `lv`. -/
def retireStep (lv : BitVec 32) (l : RetireLog) : RetireLog :=
  s.retiring i ++ if s.releasesLoad i then l.resolve lv else l

variable {s i} {lv : BitVec 32} {l : RetireLog} {r : BitVec 5}

/-- What the log says of a register that EX does not write. -/
lemma youngest_retireStep_of_ne (h : ¬ s.exWritesTo r) :
    (s.retireStep i lv l).youngest r =
      if s.releasesLoad i then (l.youngest r).map (LogEntry.resolve lv) else l.youngest r := by
  have hrest : (s.retireStep i lv l).youngest r =
      WriteLog.youngest (if s.releasesLoad i then l.resolve lv else l) r := by
    unfold retireStep retiring
    by_cases hx : (s.leavesEx i && s.idEx.exRegWriteEn && s.idEx.exRd != 0#5) = true
    · rw [if_pos hx]
      simp only [Bool.and_eq_true] at hx
      exact WriteLog.youngest_cons_of_ne (fun e => h ⟨hx.1.2, e⟩) _
    · rw [if_neg hx]
      rfl
  rw [hrest]
  split_ifs
  · exact WriteLog.youngest_resolve lv l r
  · rfl

/-- What the log says of the register whose new result leaves EX. -/
lemma youngest_retireStep_of_leaves (h : s.exWritesTo r) (hr : r ≠ 0#5)
    (hl : s.leavesEx i = true) :
    (s.retireStep i lv l).youngest r = some ⟨r, s.idEx.exIsLoad,
      if s.idEx.exIsLoad then none else some (s.exIn i).exResult⟩ := by
  obtain ⟨hw, rfl⟩ := h
  have hx : (s.leavesEx i && s.idEx.exRegWriteEn && s.idEx.exRd != 0#5) = true := by
    simp [hl, hw, hr]
  rw [retireStep, retiring, if_pos hx]
  exact WriteLog.youngest_cons_self (LogEntry.mk s.idEx.exRd s.idEx.exIsLoad _) _

/-- A register that EX stops to write has been written by what leaves EX. -/
lemma leavesEx_of_not_writes_step {M : BitVec 32 → BitVec 32} {b : BusIn} (hf : FrontOk M s)
    (hw : s.exWritesTo r) (hr : r ≠ 0#5) (hn : ¬ (s.step (b.pins M s)).exWritesTo r) :
    s.leavesEx (b.pins M s) = true := by
  have hv : s.idEx.exInstrValid = true := hf.valid_of (.inl (by rw [hw.2]; exact hr))
  by_contra hc
  simp only [leavesEx, hv, Bool.true_and, Bool.or_eq_true, Bool.not_eq_true', not_or,
    Bool.not_eq_true, Bool.not_eq_false] at hc
  have hid : (s.step (b.pins M s)).idEx = s.idEx := by
    simp [step, IdExReg.step, hc.1, hc.2]
  exact hn (by rw [exWritesTo, hid]; exact hw)

/-- A load leaves EX only into EX/MEM. -/
lemma stallBack_of_load_leaves {M : BitVec 32 → BitVec 32} {b : BusIn} (hf : FrontOk M s)
    (hld : s.idEx.exIsLoad = true) (hl : s.leavesEx (b.pins M s) = true) :
    s.stallBack (b.pins M s) = false := by
  have hbr := hf.branchHazardEx_of_load hld (b.pins M s)
  rw [leavesEx, flushIdex_pins, hbr] at hl
  cases hs : s.stallBack (b.pins M s)
  · rfl
  · simp [hs] at hl

lemma memReadEn_of_load {M : BitVec 32 → BitVec 32} (hf : FrontOk M s)
    (hld : s.idEx.exIsLoad = true) (hl : s.leavesEx i = true) :
    (s.exIn i).memReadEn = true := by
  have hv : s.idEx.exInstrValid = true := by
    rw [leavesEx, Bool.and_eq_true] at hl
    exact hl.1
  simp [ExIn.memReadEn, ExIn.instrValidFinal, ExIn.memReqBlock, exIn, hv, hld,
    hf.not_load_and_store hld]

end Core

/-! ### Programs without JAL -/

/-- No word of the image is a JAL. -/
def NoJalImage (image : BitVec 10 → BitVec 32) : Prop := ∀ a, (idStage (image a)).isJump = false

namespace SocBram

variable {image : BitVec 10 → BitVec 32} {d : DataMem}

lemma jumpIf_of_noJal (himg : NoJalImage image) (n : ℕ) :
    (quietRun image d n).core.jumpIf = false := by
  rcases (frontOk_quietRun image d n).ifId with h | ⟨pc, h⟩
  · simp [Core.jumpIf, h, IfIdReg.bubble]
  · have hj : (quietRun image d n).core.id.isJump = false := by
      rw [Core.id, h]; exact himg (wordAddr pc)
    simp [Core.jumpIf, hj]

lemma weBuf_of_noJal (himg : NoJalImage image) (n : ℕ) :
    (quietRun image d n).core.regfile.weBuf = false := by
  cases n with
  | zero => rfl
  | succ n =>
    exact Core.weBuf_step_of_noLink _ (Core.jalLinkWe_of_jumpIf (jumpIf_of_noJal himg n))

variable (image d)

/-- The log before cycle `n`, where `lv` is the value a load takes when it is released. -/
def retireLog (lv : SocBram → BitVec 32) : ℕ → RetireLog
  | 0 => []
  | n + 1 => (quietRun image d n).core.retireStep ((quietRun image d n).coreIn image .quiet)
      (lv (quietRun image d n)) (retireLog lv n)

end SocBram

end RiscvSoc.Rtl
