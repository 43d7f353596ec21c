import RiscvSoc.Pipeline.Sequential

/-!
# The pipeline refines the interpreter on programs without memory accesses and JALs

The run of `soc_top_bram` shows two sequences: the instructions that pass through EX, with their
operands and results, and the writes that reach the register array.  Both are those of the
interpreter.
-/

namespace RiscvSoc.Rtl

open Isa Sync

namespace SocBram

variable (image : BitVec 10 → BitVec 32) (d : DataMem)

/-- What has passed through EX before cycle `n`. -/
def exTrace (n : ℕ) : List Rec :=
  (machine image d).history (fun s x => s.core.exShown (s.coreIn image x)) (fun _ => .quiet) n

/-- What has been executed before cycle `n`, the JALs in their place. -/
def execTrace (n : ℕ) : List Rec :=
  (machine image d).history (fun s x => s.core.executed (s.coreIn image x)) (fun _ => .quiet) n

/-- The writes to the register array before cycle `n`. -/
def writeTrace (n : ℕ) : List (BitVec 5 × BitVec 32) :=
  (machine image d).history (fun s _ => s.core.regWrites) (fun _ => .quiet) n

/-! ### Runs -/

section Run

variable {image d}

lemma bus_calm (s : SocBram) : s.bus.Calm := ⟨rfl, rfl⟩

lemma execTrace_succ (n : ℕ) :
    execTrace image d (n + 1) = execTrace image d n ++
      (quietRun image d n).core.executed
        ((quietRun image d n).bus.pins (instMem image) (quietRun image d n).core) := rfl

/-- **The simulation along a run** whose JALs meet the two conditions in every cycle. -/
theorem sim_quietRun (himg : MemFreeImage image)
    (hC : ∀ n σ, Sim image (quietRun image d n).core σ →
      (quietRun image d n).core.JumpAlone ((quietRun image d n).coreIn image .quiet) ∧
      (quietRun image d n).core.LinkInOrder) (n : ℕ) :
    Sim image (quietRun image d n).core (Isa.run image (execTrace image d n).length) ∧
      execTrace image d n = Isa.trace image (execTrace image d n).length := by
  induction n with
  | zero => exact ⟨sim_reset image, rfl⟩
  | succ n ih =>
    obtain ⟨hsim, htr⟩ := ih
    obtain ⟨hja, hlo⟩ := hC n _ hsim
    obtain ⟨σ', hsteps, hsim'⟩ := hsim.step himg (bus_calm _) hja hlo
    obtain ⟨hr, ht⟩ := hsteps.run_trace rfl
    rw [execTrace_succ, List.length_append]
    exact ⟨by rw [hr]; exact hsim', by rw [ht, ← htr]⟩

end Run

end SocBram

/-! ### Without JALs -/

section JalFree

variable {image : BitVec 10 → BitVec 32}

/-- Every word of the image is a legal R-type, I-type ALU, LUI, AUIPC, branch or JALR. -/
def JalFreeImage (image : BitVec 10 → BitVec 32) : Prop :=
  ∀ a, ∃ i, decode (image a) = some i ∧ i.memFree = true ∧ i.isJal = false

lemma JalFreeImage.memFree (h : JalFreeImage image) : MemFreeImage image := fun a =>
  let ⟨i, hi, hm, _⟩ := h a
  ⟨i, hi, hm⟩

namespace Core

variable {s : Core} {σ : State} {b : BusIn}

/-- IF/ID holds a bubble or a word of the image. -/
lemma Sim.ifId_cases (h : Sim image s σ) :
    s.ifId = IfIdReg.bubble ∨ ∃ pc, s.ifId = fetchedAt (instMem image) pc := by
  cases h.front with
  | empty ifId => exact .inl ifId
  | fetched ifId => exact .inr ⟨_, ifId⟩
  | full ifId => exact .inr ⟨_, ifId⟩

lemma jumpIf_of_jalFree (himg : JalFreeImage image)
    (h : s.ifId = IfIdReg.bubble ∨ ∃ pc, s.ifId = fetchedAt (instMem image) pc) :
    s.jumpIf = false := by
  rcases h with h | ⟨pc, h⟩
  · simp [jumpIf, h, IfIdReg.bubble]
  · obtain ⟨i, hi, _, hj⟩ := himg (wordAddr pc)
    rw [jumpIf_eq h hi, hj]

/-- The write EX/WB is about to make. -/
def pendingWrite (w : ExWbReg) : List (BitVec 5 × BitVec 32) :=
  if w.wbRegWriteEn && w.wbRd != 0#5 then [(w.wbRd, w.wbResult)] else []

/-- What EX hands to EX/WB is the write of the instruction it shows. -/
lemma Sim.pendingWrite_exWbIn (h : Sim image s σ) (c : CoreIn) :
    pendingWrite (s.exWbIn c) = (s.exShown c).flatMap Rec.writes := by
  cases h.front with
  | empty _ hv hw => simp [pendingWrite, exWbIn, exShown, hv, hw]
  | fetched _ idEx =>
    have hv : s.idEx.exInstrValid = false := by rw [idEx]; rfl
    have hd : s.idEx.exRd = 0#5 := by rw [idEx]; rfl
    simp [pendingWrite, exWbIn, exShown, hv, hd]
  | full _ idEx =>
    have hv : s.idEx.exInstrValid = true := by rw [idEx]; rfl
    have hd : rd s.idEx.exInstr = s.idEx.exRd := by rw [idEx]; rfl
    by_cases hw : s.idEx.exRegWriteEn = true
    · by_cases h0 : s.idEx.exRd = 0#5 <;>
        simp [pendingWrite, exWbIn, exShown, hv, exRec, Rec.writes, hw, hd, h0]
    · simp [pendingWrite, exWbIn, exShown, hv, exRec, Rec.writes, hw]

/-- Without links and loads the array takes what EX/WB holds. -/
lemma MemQuiet.regWrites_eq (h : s.MemQuiet) (hb : s.regfile.weBuf = false)
    (hl : s.jalLinkWe = false) : s.regWrites = pendingWrite s.exWb := by
  obtain ⟨h1, h2, h3⟩ := h.regFileIn
  rw [regWrites_of_noLink hb hl, h1, h2, h3]
  rfl

end Core

namespace SocBram

variable {d : DataMem}

lemma jumpIf_of_sim (himg : JalFreeImage image) {s : Core} {σ : State} (h : Sim image s σ) :
    s.jumpIf = false := Core.jumpIf_of_jalFree himg (Core.Sim.ifId_cases h)

lemma sim_of_jalFree (himg : JalFreeImage image) (n : ℕ) :
    Sim image (quietRun image d n).core (Isa.run image (execTrace image d n).length) ∧
      execTrace image d n = Isa.trace image (execTrace image d n).length := by
  refine sim_quietRun himg.memFree ?_ n
  intro n σ h
  have hj := jumpIf_of_sim himg h
  have hl := Core.jalLinkWe_of_jumpIf hj
  exact ⟨fun h => by simp [hj] at h, by simp [hl], by simp [hl]⟩

lemma execTrace_of_jalFree (himg : JalFreeImage image) (n : ℕ) :
    execTrace image d n = exTrace image d n := by
  induction n with
  | zero => rfl
  | succ n ih =>
    have hj := jumpIf_of_sim himg (sim_of_jalFree (d := d) himg n).1
    rw [execTrace_succ, ih, Core.executed, Core.jalShown, hj]
    simp [exTrace, Machine.history_succ]
    rfl

lemma weBuf_of_jalFree (himg : JalFreeImage image) (n : ℕ) :
    (quietRun image d n).core.regfile.weBuf = false := by
  cases n with
  | zero => rfl
  | succ n =>
    have hj := jumpIf_of_sim himg (sim_of_jalFree (d := d) himg n).1
    exact Core.weBuf_step_of_noLink _ (Core.jalLinkWe_of_jumpIf hj)

/-- The writes run one cycle behind EX. -/
lemma writeTrace_of_jalFree (himg : JalFreeImage image) (n : ℕ) :
    writeTrace image d n ++ Core.pendingWrite (quietRun image d n).core.exWb =
      (exTrace image d n).flatMap Rec.writes := by
  induction n with
  | zero => rfl
  | succ n ih =>
    have hsim := (sim_of_jalFree (d := d) himg n).1
    have hj := jumpIf_of_sim himg hsim
    have hw := hsim.quiet.regWrites_eq (weBuf_of_jalFree himg n) (Core.jalLinkWe_of_jumpIf hj)
    have hex := hsim.quiet.step_exWb (M := instMem image) (bus_calm (quietRun image d n)).stall
    rw [← quietRun_succ_core] at hex
    have hwt : writeTrace image d (n + 1) =
        writeTrace image d n ++ (quietRun image d n).core.regWrites := rfl
    have het : exTrace image d (n + 1) = exTrace image d n ++ (quietRun image d n).core.exShown
      ((quietRun image d n).bus.pins (instMem image) (quietRun image d n).core) := rfl
    rw [hwt, het, hex, Core.Sim.pendingWrite_exWbIn hsim, List.flatMap_append, ← ih, hw]

/-- **The pipeline refines the interpreter.** -/
theorem exTrace_writeTrace_eq (himg : JalFreeImage image) (d : DataMem) (n : ℕ) :
    exTrace image d n = Isa.trace image (exTrace image d n).length ∧
      writeTrace image d n = Isa.writes image (exTrace image d (n - 1)).length := by
  have htr : ∀ k, exTrace image d k = Isa.trace image (exTrace image d k).length := by
    intro k
    rw [← execTrace_of_jalFree himg]
    exact (sim_of_jalFree himg k).2
  refine ⟨htr n, ?_⟩
  cases n with
  | zero => rfl
  | succ n =>
    have hsim := (sim_of_jalFree (d := d) himg n).1
    have hj := jumpIf_of_sim himg hsim
    have hw := hsim.quiet.regWrites_eq (weBuf_of_jalFree himg n) (Core.jalLinkWe_of_jumpIf hj)
    have hwt : writeTrace image d (n + 1) =
        writeTrace image d n ++ (quietRun image d n).core.regWrites := rfl
    rw [hwt, hw, writeTrace_of_jalFree himg, Nat.add_sub_cancel, Isa.writes, ← htr n]

/-- Five cycles of a program of `addi x1, x1, 1`: three have passed EX, two have been written. -/
theorem exTrace_writeTrace_addi :
    exTrace (fun _ => 0x00108093#32) .zero 5 = Isa.trace (fun _ => 0x00108093#32) 3 ∧
      writeTrace (fun _ => 0x00108093#32) .zero 5 = [(1#5, 1#32), (1#5, 2#32)] := by
  have hdec : decode 0x00108093#32 = some (.opImm .add 1#5 1#5 1#32) := by decide
  have himg : JalFreeImage fun _ => 0x00108093#32 := fun _ => ⟨_, hdec, rfl, rfl⟩
  obtain ⟨hex, hw⟩ := exTrace_writeTrace_eq himg .zero 5
  have h5 : (exTrace (fun _ => 0x00108093#32) .zero 5).length = 3 := by decide +kernel
  have h4 : (exTrace (fun _ => 0x00108093#32) .zero (5 - 1)).length = 2 := by decide +kernel
  rw [h5] at hex
  rw [h4] at hw
  exact ⟨hex, by rw [hw]; decide +kernel⟩

end SocBram

end JalFree

end RiscvSoc.Rtl
