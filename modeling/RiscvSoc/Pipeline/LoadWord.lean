import RiscvSoc.Pipeline.Front
import RiscvSoc.Rtl.SocTopBram

/-!
# The words that loads deliver

`data_mem` answers in the cycle after a request, and its ready only says that there was one.  A
load that enters EX/MEM while another access is on the bus sees the ready of that access in its
first cycle there.
-/

namespace RiscvSoc.Rtl

open Sync

namespace SocBram

variable (image : BitVec 10 → BitVec 32) (d : DataMem)

/-! ### The stores, in program order -/

/-- The store that leaves EX in the cycle: its word address and its data. -/
def storeLeaving (s : SocBram) (x : ExtIn) : List (BitVec 10 × BitVec 32) :=
  if (s.core.exIn (s.coreIn image x)).memWriteEn && !s.core.stallBack (s.coreIn image x) then
    [(wordAddr (s.core.exIn (s.coreIn image x)).memAddrOut,
      (s.core.exIn (s.coreIn image x)).memWdata)]
  else []

/-- The stores that have left EX before cycle `n`, oldest first. -/
def storeTrace (n : ℕ) : List (BitVec 10 × BitVec 32) :=
  (machine image d).history (fun s x => s.storeLeaving image x) (fun _ => .quiet) n

/-- The words after a list of stores. -/
def applyStores (w : BitVec 10 → BitVec 32) (l : List (BitVec 10 × BitVec 32)) :
    BitVec 10 → BitVec 32 :=
  l.foldl (fun f p => Function.update f p.1 p.2) w

@[simp] lemma applyStores_nil (w : BitVec 10 → BitVec 32) : applyStores w [] = w := rfl

@[simp] lemma applyStores_singleton (w : BitVec 10 → BitVec 32) (p : BitVec 10 × BitVec 32) :
    applyStores w [p] = Function.update w p.1 p.2 := rfl

lemma applyStores_append (w : BitVec 10 → BitVec 32) (l l' : List (BitVec 10 × BitVec 32)) :
    applyStores w (l ++ l') = applyStores (applyStores w l) l' :=
  List.foldl_append

/-- **The load released from EX/MEM in cycle `n` delivers the word at its own address**, which is
what the stores ahead of it in the program have left there. -/
structure DeliversOwnWord (n : ℕ) : Prop where
  own : (quietRun image d n).core.memLoadDataStub ((quietRun image d n).coreIn image .quiet) =
    (quietRun image d n).dmem.word (wordAddr (quietRun image d n).core.dmemAddr)
  stores : (quietRun image d n).dmem.word (wordAddr (quietRun image d n).core.dmemAddr) =
    applyStores d.word (storeTrace image d n) (wordAddr (quietRun image d n).core.dmemAddr)

/-- A load in EX/MEM that the cycle releases. -/
def Releases (n : ℕ) : Prop :=
  (quietRun image d n).core.exMem.memReadEn = true ∧
    (quietRun image d n).core.stallBack ((quietRun image d n).coreIn image .quiet) = false

/-- **A load is overtaken by a ready**: it leaves EX while another access is on the bus, and the
next cycle already releases it. -/
def TakesStaleReady (n : ℕ) : Prop :=
  (quietRun image d n).core.dmemValid = true ∧
    (quietRun image d n).core.stallBack ((quietRun image d n).coreIn image .quiet) = false ∧
    ((quietRun image d n).core.exIn ((quietRun image d n).coreIn image .quiet)).memReadEn = true ∧
    (quietRun image d (n + 1)).core.stallBack
      ((quietRun image d (n + 1)).coreIn image .quiet) = false

instance (n : ℕ) : Decidable (TakesStaleReady image d n) := inferInstanceAs (Decidable (_ ∧ _))

/-! ### EX/MEM and the memory -/

section Step

variable {image d}

lemma exMem_succ (n : ℕ) : (quietRun image d (n + 1)).core.exMem =
    if (quietRun image d n).core.stallBack ((quietRun image d n).coreIn image .quiet) then
      (quietRun image d n).core.exMem
    else (quietRun image d n).core.exMemIn ((quietRun image d n).coreIn image .quiet) := rfl

lemma dmem_succ (n : ℕ) : (quietRun image d (n + 1)).dmem =
    (quietRun image d n).dmem.step (quietRun image d n).dmemIn := rfl

/-- EX/MEM never holds a load and a store at once. -/
lemma exMem_exclusive (n : ℕ) (h : (quietRun image d n).core.exMem.memReadEn = true) :
    (quietRun image d n).core.exMem.memWriteEn = false := by
  induction n with
  | zero => rfl
  | succ n ih =>
    rw [exMem_succ] at h ⊢
    split_ifs at h ⊢ with hs
    · exact ih h
    · have hl : (quietRun image d n).core.idEx.exIsLoad = true := by
        simp only [Core.exMemIn, ExIn.memReadEn, Bool.and_eq_true] at h
        exact h.2
      have hst := (frontOk_quietRun image d n).not_load_and_store hl
      simp [Core.exMemIn, ExIn.memWriteEn, Core.exIn, hst]

/-- A released access has the ready of the memory. -/
lemma ready_of_release {n : ℕ} (hv : (quietRun image d n).core.dmemValid = true)
    (hs : (quietRun image d n).core.stallBack ((quietRun image d n).coreIn image .quiet) = false) :
    (quietRun image d n).dmem.readyReg = true := by
  rw [coreIn_quiet, Core.stallBack_pins] at hs
  simp only [Bool.or_eq_false_iff, Core.memStall, HazardIn.memStall] at hs
  have hm := hs.2.1.2
  rw [Bool.and_eq_false_iff] at hm
  rcases hm with hm | hm
  · exact absurd hv (by simpa [Core.hazard] using hm)
  · simpa [Core.hazard, bus, DataMem.ready] using hm

/-- **The stores reach the memory in order**: what has left EX is in the memory, but for the store
that is in EX/MEM. -/
theorem applyStores_storeTrace (n : ℕ) :
    applyStores d.word (storeTrace image d n) =
      if (quietRun image d n).core.exMem.memWriteEn then
        Function.update (quietRun image d n).dmem.word
          (wordAddr (quietRun image d n).core.exMem.memAddr)
          (quietRun image d n).core.exMem.memWdata
      else (quietRun image d n).dmem.word := by
  induction n with
  | zero => rfl
  | succ n ih =>
    have hword : (quietRun image d (n + 1)).dmem.word =
        applyStores d.word (storeTrace image d n) := by
      rw [ih, dmem_succ]
      cases hw : (quietRun image d n).core.exMem.memWriteEn
      · exact DataMem.word_step_of_not_write hw
      · exact DataMem.word_step_of_write rfl hw
    have htr : storeTrace image d (n + 1) =
        storeTrace image d n ++ (quietRun image d n).storeLeaving image .quiet := rfl
    rw [hword, htr, exMem_succ, storeLeaving, applyStores_append]
    cases hs : (quietRun image d n).core.stallBack ((quietRun image d n).coreIn image .quiet)
    · cases hw : ((quietRun image d n).core.exIn
          ((quietRun image d n).coreIn image .quiet)).memWriteEn <;>
        simp [hw, Core.exMemIn]
    · cases hw : (quietRun image d n).core.exMem.memWriteEn
      · simp [hw]
      · rw [ih]
        simp [hw]

/-- What the memory shows to a load that is released. -/
lemma read_of_release {n : ℕ} (hC : ∀ k < n, ¬ TakesStaleReady image d k)
    (hr : Releases image d n) :
    (quietRun image d n).dmem.sizeQ = memSizeWord ∧ (quietRun image d n).dmem.memData =
      (quietRun image d n).dmem.word (wordAddr (quietRun image d n).core.exMem.memAddr) := by
  obtain ⟨hread, hgo⟩ := hr
  have hv : (quietRun image d n).core.dmemValid = true := by simp [Core.dmemValid, hread]
  have hready := ready_of_release hv hgo
  cases n with
  | zero => cases hread
  | succ n =>
    rw [exMem_succ] at hread
    split_ifs at hread with hs
    · -- It was in EX/MEM in the cycle before, so that cycle read its word.
      have hw := exMem_exclusive n hread
      have hvn : (quietRun image d n).dmemIn.valid = true := by
        simp [dmemIn, Core.dmemValid, hread]
      have hrn : (quietRun image d n).dmemIn.readEn = true := hread
      have hwd : (quietRun image d (n + 1)).dmem.word = (quietRun image d n).dmem.word :=
        DataMem.word_step_of_not_write hw
      rw [hwd, exMem_succ, if_pos hs, dmem_succ]
      simp only [DataMem.step, hvn, hrn, Bool.and_self, if_true]
      exact ⟨rfl, rfl⟩
    · -- It has just left EX, so the ready is that of another access.
      have hvn : (quietRun image d n).core.dmemValid = true := hready
      exact absurd ⟨hvn, by simpa using hs, hread, hgo⟩ (hC n (Nat.lt_succ_self n))

end Step

/-! ### Along a run -/

variable {image d}

/-- **Every load delivers the word at its own address** in a run in which none has been overtaken
by the ready of another access. -/
theorem deliversOwnWord_of_release {n : ℕ} (hC : ∀ k < n, ¬ TakesStaleReady image d k)
    (hr : Releases image d n) : DeliversOwnWord image d n := by
  obtain ⟨hsize, hdata⟩ := read_of_release hC hr
  have hw := exMem_exclusive n hr.1
  constructor
  · have hstub : (quietRun image d n).core.memLoadDataStub
        ((quietRun image d n).coreIn image .quiet) = (quietRun image d n).dmem.dataOut := by
      simp [Core.memLoadDataStub, hr.1, coreIn_quiet, bus]
    rw [hstub, DataMem.dataOut_of_word hsize, hdata]
    rfl
  · rw [applyStores_storeTrace, hw]
    rfl

/-- `lw x1, 0(x0)` at the head of a program. -/
theorem deliversOwnWord_lw :
    DeliversOwnWord (fun a => if a = 0#10 then 0x00002083#32 else nop) .zero 4 :=
  deliversOwnWord_of_release (by decide +kernel) ⟨by decide +kernel, by decide +kernel⟩

/-- `lw x1, 0(x0)` directly in front of `lw x2, 4(x0)`. -/
def twoLoads : BitVec 10 → BitVec 32 := fun a =>
  if a = 0#10 then 0x00002083#32 else if a = 1#10 then 0x00402103#32 else nop

/-- A memory with 1 in word 0 and 2 in all others. -/
def twoWords : DataMem := { DataMem.zero with mem0 := fun a => if a = 0#10 then 1#8 else 2#8 }

/-- **The second load delivers the word of the first.** -/
theorem twoLoads_stale :
    ¬ ∀ image d n, Releases image d n → DeliversOwnWord image d n := by
  intro h
  have ho := (h twoLoads twoWords 5 ⟨by decide +kernel, by decide +kernel⟩).own
  revert ho
  decide +kernel

end SocBram

end RiscvSoc.Rtl
