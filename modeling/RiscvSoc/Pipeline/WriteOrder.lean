import RiscvSoc.Pipeline.Retire

/-!
# The order of the write-backs

The results of ALU instructions and of loads reach the register file on two paths that share a
port, where a load has priority and nothing waits.  As long as no result meets a load there, every
register ends with the result of its youngest writer.
-/

namespace RiscvSoc.Rtl

open Sync

namespace Core

variable (s : Core) (i : CoreIn)

/-- **A result that leaves EX meets no load on its way**: behind a load that EX/MEM releases, it
is for another register and has been written while it waited; and a JALR that leaves while the
back is held has no load in MEM/WB, and none for its register in EX/MEM. -/
structure MeetsNoLoad : Prop where
  behindLoad : s.stallBack i = false → s.exMem.memReadEn = true →
    s.exMem.rd ≠ s.idEx.exRd ∧ s.memWb.wbIsLoad = false ∧ s.exWb = s.exWbIn i
  duringStall : s.stallBack i = true →
    s.memWb.wbIsLoad = false ∧ (s.exMem.memReadEn = true → s.exMem.rd ≠ s.idEx.exRd)

/-- In this cycle a result of an ALU instruction or a JALR leaves EX. -/
def ResultLeaves : Prop :=
  s.leavesEx i = true ∧ s.idEx.exRegWriteEn = true ∧ s.idEx.exIsLoad = false ∧
    s.idEx.exRd ≠ 0#5

/-! ### The registers against the log -/

/-- **The register `r` is as the log says**: zero if it was never written, the value of its
youngest writer, or awaited from the load in EX/MEM. -/
def Agrees (l : RetireLog) (r : BitVec 5) : Prop :=
  match l.youngest r with
  | none => s.settled r = 0#32 ∧ ¬ (s.exMem.memReadEn = true ∧ s.exMem.rd = r)
  | some ⟨_, _, some v⟩ => s.settled r = v ∧ ¬ (s.exMem.memReadEn = true ∧ s.exMem.rd = r)
  | some ⟨_, _, none⟩ => s.exMem.memReadEn = true ∧ s.exMem.rd = r

variable {s i}

/-- A result that has left EX and met no load. -/
lemma settled_step_of_leaves (hj : s.jumpIf = false) (hw : s.regfile.weBuf = false)
    (hf : i.flush = false) (hr : s.ResultLeaves i) (hm : s.MeetsNoLoad i) :
    (s.step i).settled s.idEx.exRd = (s.exIn i).exResult ∧
      ¬ ((s.step i).exMem.memReadEn = true ∧ (s.step i).exMem.rd = s.idEx.exRd) := by
  obtain ⟨-, hwe, hld, hrd⟩ := hr
  have hheld := held_step_of_noJal hj hw (i := i) hrd
  have hex := exWb_step (s := s) hf
  have hmem := memWb_step (s := s) hf
  have hexm := exMem_step (s := s) hf
  have hpos : (s.step i).exWb.wbRegWriteEn = true ∧ (s.step i).exWb.wbRd = s.idEx.exRd := by
    rw [hex]; exact ⟨hwe, rfl⟩
  have hres : (s.step i).exWb.wbResult = (s.exIn i).exResult := by rw [hex]; rfl
  cases hs : s.stallBack i
  · rw [hs] at hmem hexm
    simp only [Bool.false_eq_true, if_false] at hmem hexm
    constructor
    · cases hl : s.exMem.memReadEn
      · rw [settled_of_not_load (by rw [hmem]; exact hl), if_pos hpos, hres]
      · -- The load takes the port, but the result was written in this cycle.
        obtain ⟨hne, hwb, heq⟩ := hm.behindLoad hs hl
        have hne' : ¬ (s.step i).memWb.wbRd = s.idEx.exRd := by rw [hmem]; exact hne
        rw [settled_of_load (by rw [hmem]; exact hl), if_neg hne', hheld,
          settled_of_not_load hwb, heq, if_pos ⟨hwe, rfl⟩]
        rfl
    · rw [hexm]
      simp [exMemIn, ExIn.memReadEn, exIn, hld]
  · rw [hs] at hmem hexm
    simp only [if_true] at hmem hexm
    obtain ⟨hwb, hne⟩ := hm.duringStall hs
    constructor
    · rw [settled_of_not_load (by rw [hmem]; exact hwb), if_pos hpos, hres]
    · rw [hexm]
      exact fun h => hne h.1 h.2

/-- **One cycle.** The registers that EX does not write are as the log says. -/
theorem Agrees.step {M : BitVec 32 → BitVec 32} {b : BusIn} {l : RetireLog} (hfr : FrontOk M s)
    (hj : s.jumpIf = false) (hw : s.regfile.weBuf = false)
    (hC : s.ResultLeaves (b.pins M s) → s.MeetsNoLoad (b.pins M s))
    (h : ∀ r, r ≠ 0#5 → ¬ s.exWritesTo r → s.Agrees l r) {r : BitVec 5} (hr : r ≠ 0#5)
    (hn : ¬ (s.step (b.pins M s)).exWritesTo r) :
    (s.step (b.pins M s)).Agrees
      (s.retireStep (b.pins M s) (s.memLoadDataStub (b.pins M s)) l) r := by
  have hexm := exMem_step (s := s) (i := b.pins M s) rfl
  by_cases hx : s.exWritesTo r
  · -- The instruction in EX, which has left it, is the youngest writer.
    have hlv := leavesEx_of_not_writes_step hfr hx hr hn
    rw [Agrees, youngest_retireStep_of_leaves hx hr hlv]
    cases hld : s.idEx.exIsLoad
    · have hres : s.ResultLeaves (b.pins M s) := ⟨hlv, hx.1, hld, by rw [hx.2]; exact hr⟩
      have hset := settled_step_of_leaves hj hw rfl hres (hC hres)
      rw [hx.2] at hset
      exact hset
    · -- A load that leaves EX is in EX/MEM.
      have hs := stallBack_of_load_leaves hfr hld hlv
      have hread : (s.exIn (b.pins M s)).memReadEn = true := memReadEn_of_load hfr hld hlv
      simp only [if_true]
      rw [hexm, hs]
      exact ⟨hread, hx.2⟩
  · -- Nothing has been added for it.
    have hset := settled_step_of_not_writes hj hw (i := b.pins M s) rfl hr hx
    have hA := h r hr hx
    rw [Agrees, youngest_retireStep_of_ne hx, releasesLoad]
    cases hs : s.stallBack (b.pins M s)
    · have hnew : ¬ ((s.step (b.pins M s)).exMem.memReadEn = true ∧
          (s.step (b.pins M s)).exMem.rd = r) := by
        rw [hexm, hs]
        rintro ⟨hread, hrd⟩
        simp only [Bool.false_eq_true, if_false, exMemIn, ExIn.memReadEn, Bool.and_eq_true] at hread
        exact hx ⟨hfr.regWriteEn_of_load hread.2, by rw [hexm, hs] at *; exact hrd⟩
      rw [hs] at hset
      by_cases hl : s.exMem.memReadEn = true ∧ s.exMem.rd = r
      · rw [if_pos ⟨rfl, hl.1, hl.2⟩] at hset
        rw [hl.1]
        unfold Agrees at hA
        cases hy : l.youngest r with
        | none => rw [hy] at hA; exact absurd hl hA.2
        | some e =>
          obtain ⟨k, q, v⟩ := e
          rw [hy] at hA
          cases v with
          | none => exact ⟨hset, hnew⟩
          | some v => exact absurd hl hA.2
      · rw [if_neg fun hh => hl hh.2] at hset
        unfold Agrees at hA
        cases hy : l.youngest r with
        | none =>
          rw [hy] at hA
          cases s.exMem.memReadEn <;> exact ⟨hset.trans hA.1, hnew⟩
        | some e =>
          obtain ⟨k, q, v⟩ := e
          rw [hy] at hA
          cases v with
          | none => exact absurd hA hl
          | some v => cases s.exMem.memReadEn <;> exact ⟨hset.trans hA.1, hnew⟩
    · rw [hs] at hset
      simp only [Bool.true_eq_false, false_and, if_false] at hset
      simp only [Bool.not_true, Bool.and_false, Bool.false_eq_true, if_false]
      rw [hs, if_pos rfl] at hexm
      rw [hset, hexm]
      exact hA

instance (s : Core) (i : CoreIn) : Decidable (s.ResultLeaves i) :=
  inferInstanceAs (Decidable (_ ∧ _))

instance (s : Core) (i : CoreIn) : Decidable (s.MeetsNoLoad i) :=
  decidable_of_iff
    ((s.stallBack i = false → s.exMem.memReadEn = true →
        s.exMem.rd ≠ s.idEx.exRd ∧ s.memWb.wbIsLoad = false ∧ s.exWb = s.exWbIn i) ∧
      (s.stallBack i = true →
        s.memWb.wbIsLoad = false ∧ (s.exMem.memReadEn = true → s.exMem.rd ≠ s.idEx.exRd)))
    ⟨fun h => ⟨h.1, h.2⟩, fun h => ⟨h.1, h.2⟩⟩

/-- An inert instruction in EX writes no register but `x0`. -/
lemma Drained.not_exWritesTo {M : BitVec 32 → BitVec 32} (hf : FrontOk M s) (h : s.Drained)
    {r : BitVec 5} (hr : r ≠ 0#5) : ¬ s.exWritesTo r := by
  rintro ⟨-, rfl⟩
  rcases hf.idEx with hb | ⟨pc, hp, -⟩
  · exact hr hb.exRd
  · have hin := h.idEx
    rw [hp] at hin hr
    change Isa.rd (M pc) ≠ 0#5 at hr
    rcases hin with hn | ⟨-, hrd⟩
    · change M pc = nop at hn
      exact hr (by rw [hn]; decide)
    · exact hr hrd

end Core

namespace SocBram

/-- The word a released load latches into MEM/WB. -/
def latchedWord (image : BitVec 10 → BitVec 32) (s : SocBram) : BitVec 32 :=
  s.core.memLoadDataStub (s.coreIn image .quiet)

variable {image : BitVec 10 → BitVec 32} {d : DataMem}

/-- The registers along a run, against the log of the results. -/
theorem agrees_quietRun (himg : NoJalImage image) {n : ℕ}
    (hC : ∀ k < n,
      (quietRun image d k).core.ResultLeaves ((quietRun image d k).coreIn image .quiet) →
      (quietRun image d k).core.MeetsNoLoad ((quietRun image d k).coreIn image .quiet))
    {r : BitVec 5} (hr : r ≠ 0#5) (hn : ¬ (quietRun image d n).core.exWritesTo r) :
    (quietRun image d n).core.Agrees (retireLog image d (latchedWord image) n) r := by
  induction n generalizing r with
  | zero =>
    refine ⟨?_, by simp [quietRun, machine, Core.reset, ExMemReg.reset]⟩
    rw [Core.settled_of_not_load rfl]
    simp [quietRun, machine, Core.reset, ExWbReg.reset, RegFileBram.held, RegFileBram.init]
  | succ n ih =>
    have hCn := hC n (Nat.lt_succ_self n)
    have hlog : retireLog image d (latchedWord image) (n + 1) =
        (quietRun image d n).core.retireStep ((quietRun image d n).coreIn image .quiet)
          ((quietRun image d n).core.memLoadDataStub ((quietRun image d n).coreIn image .quiet))
          (retireLog image d (latchedWord image) n) := rfl
    rw [quietRun_succ_core] at hn ⊢
    rw [hlog, coreIn_quiet]
    rw [coreIn_quiet] at hCn
    exact Core.Agrees.step (frontOk_quietRun image d n) (jumpIf_of_noJal himg n)
      (weBuf_of_noJal himg n) hCn
      (fun r hr hn => ih (fun k hk => hC k (Nat.lt_succ_of_lt hk)) hr hn) hr hn

/-- In a run in which no result meets a load a drained pipeline leaves in every register the value
of its youngest writer. -/
lemma regs_eq_youngest (himg : NoJalImage image) {n : ℕ}
    (hC : ∀ k < n,
      (quietRun image d k).core.ResultLeaves ((quietRun image d k).coreIn image .quiet) →
      (quietRun image d k).core.MeetsNoLoad ((quietRun image d k).coreIn image .quiet))
    (hd : (quietRun image d n).core.Drained) {r : BitVec 5} (hr : r ≠ 0#5) :
    (quietRun image d n).core.regfile.regs r =
      (((retireLog image d (latchedWord image) n).youngest r).bind LogEntry.value).getD 0#32 := by
  have hA := agrees_quietRun himg hC hr (hd.not_exWritesTo (frontOk_quietRun image d n) hr)
  rw [← hd.settled_eq (weBuf_of_noJal himg n) hr]
  unfold Core.Agrees at hA
  cases hy : (retireLog image d (latchedWord image) n).youngest r with
  | none => rw [hy] at hA; exact hA.1
  | some e =>
    obtain ⟨k, q, v⟩ := e
    rw [hy] at hA
    cases v with
    | none => simp [hd.memReadEn] at hA
    | some v => exact hA.1

end SocBram

end RiscvSoc.Rtl
