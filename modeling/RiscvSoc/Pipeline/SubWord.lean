import RiscvSoc.Pipeline.NopRun
import RiscvSoc.Isa.ByteMem
import RiscvSoc.Exec.ExecSound

/-!
# Loads and stores among NOPs

The core asks `data_mem` for words, whatever the width of the instruction.  A load or a store that
has the pipeline for itself therefore reads or writes the whole word of its address, and this is
what it should do exactly when the word, or the register, happens to fit.
-/

namespace RiscvSoc.Rtl

open Isa Sync

namespace SocBram

/-- The register `r` as an instruction reads it. -/
def reg (s : SocBram) (r : BitVec 5) : BitVec 32 :=
  if r = 0#5 then 0#32 else s.core.regfile.regs r

/-- The bytes of `data_mem`. -/
def dataBytes (s : SocBram) : BitVec 12 → BitVec 8 := bytes s.dmem.word

/-- The address in `data_mem`, which leaves out the upper bits. -/
def dataAddr (a : BitVec 32) : BitVec 12 := a.setWidth 12

section Observer

variable (image : BitVec 10 → BitVec 32) (regs : BitVec 5 → BitVec 32) (d : DataMem)

/-- **The instruction at `pc` is alone in the pipeline**: it is in ID in cycle `n`, at least four
NOPs have left ID right before it, and four follow it. -/
structure Alone (pc : BitVec 32) (n : ℕ) : Prop where
  before : 4 ≤ nopsBefore image regs d n
  inId : (presetRun image regs d n).core.ifId = fetchedAt (instMem image) pc
  after : ∀ k < 4, instMem image (pc + BitVec.ofNat 32 (4 * (k + 1))) = nop

/-- The address of an access that is in ID in cycle `n`. -/
def accessAddr (rs1 : BitVec 5) (imm : BitVec 32) (n : ℕ) : BitVec 32 :=
  (presetRun image regs d n).reg rs1 + imm

/-- The word of `data_mem` at the address of an access that is in ID in cycle `n`. -/
def accessWord (rs1 : BitVec 5) (imm : BitVec 32) (n : ℕ) : BitVec 32 :=
  (presetRun image regs d n).dmem.word (wordAddr (accessAddr image regs d rs1 imm n))

/-- **A load that is in ID in cycle `n` leaves in its register what it should**, once the NOPs
behind it are in the pipeline. -/
def LoadRight (o : LoadOp) (rd rs1 : BitVec 5) (imm : BitVec 32) (n : ℕ) : Prop :=
  rd ≠ 0#5 → (presetRun image regs d (n + 5)).reg rd =
    o.value (presetRun image regs d n).dataBytes (dataAddr (accessAddr image regs d rs1 imm n))

/-- **A store that is in ID in cycle `n` leaves in the memory what it should**, once the NOPs
behind it are in the pipeline. -/
def StoreRight (o : StoreOp) (rs1 rs2 : BitVec 5) (imm : BitVec 32) (n : ℕ) : Prop :=
  (presetRun image regs d (n + 5)).dataBytes = o.apply (presetRun image regs d n).dataBytes
    (dataAddr (accessAddr image regs d rs1 imm n)) ((presetRun image regs d n).reg rs2)

end Observer

/-- The access that the word `w` asks for, as EX/MEM holds it. -/
def accessOf (s : SocBram) (w : BitVec 32) : ExMemReg where
  memReadEn := (idStage w).isLoad
  memWriteEn := (idStage w).isStore
  regWriteEn := (idStage w).regWriteEn
  rd := (idStage w).rd
  memAddr := s.reg (idStage w).rs1 + (idStage w).immOut
  memWdata := s.reg (idStage w).rs2

variable {image : BitVec 10 → BitVec 32} {regs : BitVec 5 → BitVec 32} {d : DataMem}
  {s s₀ : SocBram} {pc : BitVec 32}

/-! ### The access, stage by stage -/

/-- The access is in EX, and nothing is behind it. -/
structure InEx (image : BitVec 10 → BitVec 32) (s₀ s : SocBram) (pc : BitVec 32) : Prop where
  front : FrontAt (instMem image) s.core (pc + 4#32)
  idEx : s.core.idEx = decodedOf (fetchedAt (instMem image) pc)
  lstate : s.core.registerEx.lstate = .idle
  slock : s.core.registerEx.slock = false
  skip : s.core.registerEx.loadSkipStale = false
  rdReg : s.core.registerEx.rdReg = 0#5
  dmemValid : s.core.dmemValid = false
  rs1 : s.core.regfile.rdata1 = s₀.reg (idStage (instMem image pc)).rs1
  rs2 : s.core.regfile.rdata2 = s₀.reg (idStage (instMem image pc)).rs2
  word : s.dmem.word = s₀.dmem.word

/-- The access is in EX/MEM for the first cycle. -/
structure Asked (image : BitVec 10 → BitVec 32) (s₀ s : SocBram) (pc : BitVec 32) : Prop where
  front : FrontAt (instMem image) s.core (pc + 8#32)
  nopInEx : s.core.NopInEx
  exMem : s.core.exMem = s₀.accessOf (instMem image pc)
  ready : s.dmem.readyReg = false
  word : s.dmem.word = s₀.dmem.word

/-- The memory has answered it. -/
structure Answered (image : BitVec 10 → BitVec 32) (s₀ s : SocBram) (pc : BitVec 32) : Prop where
  front : FrontAt (instMem image) s.core (pc + 8#32)
  nopInEx : s.core.NopInEx
  exMem : s.core.exMem = s₀.accessOf (instMem image pc)
  skip : s.core.registerEx.loadSkipStale = false
  ready : s.dmem.readyReg = true
  read : s.core.exMem.memReadEn = true → s.dmem.word = s₀.dmem.word ∧
    s.dmem.dataOut = s₀.dmem.word (wordAddr s.core.exMem.memAddr)
  write : s.core.exMem.memWriteEn = true → s.dmem.word =
    Function.update s₀.dmem.word (wordAddr s.core.exMem.memAddr) s.core.exMem.memWdata

/-- It has left EX/MEM. -/
structure Done (image : BitVec 10 → BitVec 32) (s₀ s : SocBram) (pc : BitVec 32) : Prop where
  front : FrontAt (instMem image) s.core (pc + 12#32)
  memWriteEn : s.core.exMem.memWriteEn = false
  weBuf : s.core.regfile.weBuf = false
  load : (idStage (instMem image pc)).isLoad = true →
    s.core.memWb = ⟨true, (idStage (instMem image pc)).rd,
      s₀.dmem.word (wordAddr (s₀.accessOf (instMem image pc)).memAddr)⟩
  store : (idStage (instMem image pc)).isStore = true → s.dmem.word =
    Function.update s₀.dmem.word (wordAddr (s₀.accessOf (instMem image pc)).memAddr)
      (s₀.accessOf (instMem image pc)).memWdata

/-- The word asks for a load or a store. -/
def IsAccess (w : BitVec 32) : Prop := (idStage w).isLoad = true ∨ (idStage w).isStore = true

lemma IsAccess.not_both {w : BitVec 32} (h : (idStage w).isLoad = true) :
    (idStage w).isStore = false := by
  simp only [idStage, beq_iff_eq] at h ⊢
  rw [h]
  decide

lemma IsAccess.not_jump {w : BitVec 32} (h : IsAccess w) : (idStage w).isJump = false := by
  simp only [IsAccess, idStage, beq_iff_eq] at h ⊢
  rcases h with h | h <;> rw [h] <;> decide

/-- Behind four NOPs the access goes to EX with its registers. -/
lemma NopsOk.inEx_step {k : ℕ} (h : NopsOk image s k) (hk : 4 ≤ k)
    (hi : s.core.ifId = fetchedAt (instMem image) pc) (hw : IsAccess (instMem image pc)) :
    InEx image s (s.step image .quiet) pc := by
  have hx := h.rests (by omega)
  obtain ⟨hs, hlu⟩ := h.go (by omega)
  have hid : s.core.id = idStage (instMem image pc) := by rw [Core.id, hi]; rfl
  have hj : s.core.jumpIf = false := by rw [Core.jumpIf, hid, hw.not_jump]; rfl
  have hbr := hx.redirect (s.coreIn image .quiet)
  have hfront : FrontAt (instMem image) s.core pc := by
    refine ⟨hi, ?_⟩
    rw [h.pc (by rw [hi]; rfl), hi]
    rfl
  obtain ⟨hfront', hidEx⟩ := hfront.go hbr hj hlu hs
  have hdv : s.core.dmemValid = false := by
    rw [Core.dmemValid, h.memReadEn (by omega), h.memWriteEn (by omega)]
    rfl
  have hsl : s.core.registerEx.slock = false := by
    by_contra hc
    rcases h.locks.slock (by simpa using hc) with hv | hr
    · rw [hdv] at hv
      cases hv
    · rw [h.ready (by omega)] at hr
      cases hr
  have hrest := rests_step image hx
  -- Nothing is written in the cycle in which the register file is read.
  have hlink := Core.jalLinkWe_of_jumpIf hj
  have hport : s.core.regFileIn.we = true → s.core.regFileIn.waddr = 0#5 := by
    intro _
    simp [Core.regFileIn, Core.wbIn, WbIn.wbWaddrOut, h.wbIsLoad (by omega), h.exWb (by omega)]
  obtain ⟨hr1, hr2⟩ := RegFileBram.rdata_step_of_rest (f := s.core.regfile) (h.weBuf hk) hlink hport
  have hreg : (s.step image .quiet).core.regfile = s.core.regfile.step s.core.regFileIn := rfl
  have hflush : (s.core.registerExIn (s.coreIn image .quiet)).flush = false := hbr
  have hload : (s.core.registerExIn (s.coreIn image .quiet)).loadEnable = false := hx.exIsLoad
  have hstore : (s.core.registerExIn (s.coreIn image .quiet)).storeEnable = false := hx.exIsStore
  have hstall : (s.core.registerExIn (s.coreIn image .quiet)).stall = false := by
    show s.core.stallFront (s.coreIn image .quiet) = false
    rw [Core.stallFront_eq, hs, hlu]
    rfl
  refine ⟨hfront', hidEx, ?_, ?_, ?_, ?_, ?_, ?_, ?_, ?_⟩
  · simp [step_registerEx, RegisterEx.step, RegisterEx.lstateStep, h.lstate hk, hload]
  · simp [step_registerEx, RegisterEx.step, RegisterEx.slockNext, hsl, hstore]
  · simp [step_registerEx, RegisterEx.step, h.lstate hk]
  · have hn : s.core.NopInEx := (h.inEx (by omega)).resolve_right fun hb => by
      have hk2 := hb.2.2
      omega
    obtain ⟨p, hp⟩ := hn
    have hwe : (s.core.registerExIn (s.coreIn image .quiet)).regWriteEn = true := by
      show s.core.idEx.exRegWriteEn = true
      rw [hp]
      exact idStage_nop.2.2.2.2.2.2.2.2
    have hrd : (s.core.registerExIn (s.coreIn image .quiet)).rdIn = 0#5 := hx.exRd
    simp [step_registerEx, RegisterEx.step, hflush, hstall, h.lstate hk, hload, hwe, hrd]
  · rw [Core.dmemValid, hrest.2.1 (.inr hs), hrest.2.2 (.inr hs)]
    rfl
  · rw [hreg, hr1, reg, ← hid]
    rfl
  · rw [hreg, hr2, reg, ← hid]
    rfl
  · exact DataMem.word_step_of_not_write (h.memWriteEn (by omega))

/-- From EX it goes on to EX/MEM. -/
lemma InEx.asked_step (h : InEx image s₀ s pc) (hw : IsAccess (instMem image pc))
    (hn : instMem image (pc + 4#32) = nop) : Asked image s₀ (s.step image .quiet) pc := by
  have hshape : FrontShape s.core :=
    ⟨.inr ⟨pc + 4#32, _, h.front.ifId⟩, .inr ⟨pc, _, h.idEx⟩⟩
  have hacc : s.core.idEx.exIsLoad = true ∨ s.core.idEx.exIsStore = true := by
    rw [h.idEx]
    exact hw
  have hbr := hshape.branchHazardEx_of_access hacc (s.coreIn image .quiet)
  obtain ⟨hj, hlu⟩ := h.front.nop_in_id hn
  have hs : s.core.stallBack (s.coreIn image .quiet) = false := by
    have hst : s.core.stallBack (s.coreIn image .quiet) = _ := stallBack_stalled (b := false)
    rw [hst, h.lstate, h.slock, h.dmemValid, h.skip]
    rfl
  obtain ⟨hfront, hidEx⟩ := h.front.go hbr hj hlu hs
  have hread : s.core.exMem.memWriteEn = false := by
    have hdv := h.dmemValid
    rw [Core.dmemValid, Bool.or_eq_false_iff] at hdv
    exact hdv.1
  have hfwd : (s.core.exIn (s.coreIn image .quiet)).NoForward := by
    constructor <;>
      simp [ExIn.lockHit, ExIn.aluHit, Core.exIn, RegisterEx.loadLockOut, h.lstate, h.rdReg]
  have hvalid : (s.core.exIn (s.coreIn image .quiet)).instrValidFinal = true := by
    simp [ExIn.instrValidFinal, ExIn.memReqBlock, Core.exIn, h.slock, h.idEx, decodedOf,
      fetchedAt, IdExReg.ofId]
  refine ⟨?_, nopInEx_of hidEx hn, ?_, ?_, ?_⟩
  · rw [show pc + 8#32 = pc + 4#32 + 4#32 by rw [BitVec.add_assoc]; rfl]
    exact hfront
  · rw [step_exMem, hs]
    simp only [Core.exMemIn, ExIn.memReadEn, ExIn.memWriteEn, ExIn.memAddrOut, ExIn.memWdata,
      hvalid, hfwd.rs1DataFinal, hfwd.rs2DataFinal, accessOf, ← h.rs1, ← h.rs2]
    simp [Core.exIn, h.idEx, decodedOf, fetchedAt, IdExReg.ofId]
  · rw [step_ready, h.dmemValid]
  · rw [← h.word]
    exact DataMem.word_step_of_not_write hread

/-- The memory takes a cycle to answer. -/
lemma Asked.answered_step (h : Asked image s₀ s pc) (hw : IsAccess (instMem image pc))
    (hn : instMem image (pc + 8#32) = nop) : Answered image s₀ (s.step image .quiet) pc := by
  have hx := exRests_of_nop h.nopInEx
  have hdv : s.core.dmemValid = true := by
    rw [Core.dmemValid, h.exMem, Bool.or_comm, Bool.or_eq_true]
    exact hw
  have hs : s.core.stallBack (s.coreIn image .quiet) = true := by
    have hst : s.core.stallBack (s.coreIn image .quiet) = _ := stallBack_stalled (b := false)
    rw [hst, hdv, h.ready]
    simp
  obtain ⟨hfront, hidEx⟩ := h.front.wait (hx.redirect _) (h.front.nop_in_id hn).1 hs
  have hexMem : (s.step image .quiet).core.exMem = s.core.exMem := by
    rw [step_exMem, hs]
    rfl
  refine ⟨hfront, ?_, ?_, ?_, ?_, ?_, ?_⟩
  · rw [Core.NopInEx, hidEx]
    exact h.nopInEx
  · rw [hexMem, h.exMem]
  · have hsucc : (s.core.registerExIn (s.coreIn image .quiet)).loadSuccess = false := by
      show (s.dmem.readyReg && s.core.exMem.memReadEn) = false
      rw [h.ready]
      rfl
    simp [step_registerEx, RegisterEx.step, RegisterEx.staleReady, hsucc]
  · rw [step_ready, hdv]
  · intro hr
    rw [hexMem] at hr ⊢
    have hnw : s.core.exMem.memWriteEn = false := by
      rw [h.exMem] at hr ⊢
      exact IsAccess.not_both hr
    rw [← h.word]
    exact step_dmem_of_read hr hnw
  · intro hwr
    rw [hexMem] at hwr ⊢
    rw [← h.word]
    exact step_word_of_write hwr

/-- The answer lets it go. -/
lemma Answered.done_step (h : Answered image s₀ s pc) (hn : instMem image (pc + 8#32) = nop) :
    Done image s₀ (s.step image .quiet) pc := by
  have hx := exRests_of_nop h.nopInEx
  have hs : s.core.stallBack (s.coreIn image .quiet) = false := by
    have hst : s.core.stallBack (s.coreIn image .quiet) = _ := stallBack_stalled (b := false)
    rw [hst, h.ready, h.skip, hx.exIsStore]
    simp
  obtain ⟨hj, hlu⟩ := h.front.nop_in_id hn
  obtain ⟨hfront, -⟩ := h.front.go (hx.redirect _) hj hlu hs
  refine ⟨?_, (rests_step image hx).2.2 (.inr hs),
    Core.weBuf_step_of_noLink _ (Core.jalLinkWe_of_jumpIf hj), ?_, ?_⟩
  · rw [show pc + 12#32 = pc + 8#32 + 4#32 by rw [BitVec.add_assoc]; rfl]
    exact hfront
  · intro hl
    have hr : s.core.exMem.memReadEn = true := by rw [h.exMem]; exact hl
    have hdata := (h.read hr).2
    have hstub : s.core.memLoadDataStub (s.coreIn image .quiet) = s.dmem.dataOut := by
      rw [Core.memLoadDataStub, hr]
      rfl
    rw [step_memWb, hs, Core.memWbIn, hstub, hdata, hr, h.exMem]
    rfl
  · intro hst
    have hwr : s.core.exMem.memWriteEn = true := by rw [h.exMem]; exact hst
    rw [step_word_of_write hwr, h.write hwr, Function.update_idem, h.exMem]

/-- A load reaches its register. -/
lemma Done.load_step (h : Done image s₀ s pc) (hn : instMem image (pc + 12#32) = nop)
    (hl : (idStage (instMem image pc)).isLoad = true)
    (hrd : (idStage (instMem image pc)).rd ≠ 0#5) :
    (s.step image .quiet).reg (idStage (instMem image pc)).rd =
      s₀.dmem.word (wordAddr (s₀.accessOf (instMem image pc)).memAddr) := by
  have hlink := Core.jalLinkWe_of_jumpIf (h.front.nop_in_id hn).1
  have hregs : (s.step image .quiet).core.regfile.regs =
      s.core.regfile.regsStep s.core.regFileIn := rfl
  rw [reg, if_neg hrd, hregs, RegFileBram.regsStep_apply hrd]
  simp [RegFileBram.weEff, RegFileBram.waddrEff, RegFileBram.wdataEff, Core.regFileIn, hlink,
    h.weBuf, Core.wbIn, h.load hl, WbIn.wbWeOut, WbIn.wbWaddrOut, WbIn.wbWdataOut]

/-- A store has reached the memory. -/
lemma Done.store_step (h : Done image s₀ s pc)
    (hst : (idStage (instMem image pc)).isStore = true) :
    (s.step image .quiet).dmem.word =
      Function.update s₀.dmem.word (wordAddr (s₀.accessOf (instMem image pc)).memAddr)
        (s₀.accessOf (instMem image pc)).memWdata := by
  rw [← h.store hst]
  exact DataMem.word_step_of_not_write h.memWriteEn

/-! ### Along a run -/

section Run

variable {n : ℕ}

/-- **An access alone in the pipeline** leaves EX/MEM four cycles after it was in ID. -/
theorem Alone.done (h : Alone image regs d pc n) (hw : IsAccess (instMem image pc)) :
    Done image (presetRun image regs d n) (presetRun image regs d (n + 4)) pc := by
  have h1 : InEx image (presetRun image regs d n) (presetRun image regs d (n + 1)) pc :=
    (nopsOk_run regs d n).inEx_step h.before h.inId hw
  have h2 : Asked image (presetRun image regs d n) (presetRun image regs d (n + 2)) pc :=
    h1.asked_step hw (h.after 0 (by omega))
  have h3 : Answered image (presetRun image regs d n) (presetRun image regs d (n + 3)) pc :=
    h2.answered_step hw (h.after 1 (by omega))
  exact h3.done_step (h.after 1 (by omega))

lemma dataAddr_toNat (a : BitVec 32) : (dataAddr a).toNat = a.toNat % 4096 := by
  rw [dataAddr, BitVec.toNat_setWidth]

/-- The low bits of the address choose the lane. -/
lemma dataAddr_lane (a : BitVec 32) : (dataAddr a).toNat % 4 = a.toNat % 4 := by
  rw [dataAddr_toNat]
  omega

/-- An aligned access is aligned in `data_mem`. -/
lemma dataAddr_mod {a : BitVec 32} {size : ℕ} (hs : size = 1 ∨ size = 2 ∨ size = 4)
    (ha : a.toNat % size = 0) : (dataAddr a).toNat % size = 0 := by
  rw [dataAddr_toNat]
  rcases hs with rfl | rfl | rfl <;> omega

lemma dataAddr_word (a : BitVec 32) : (dataAddr a).extractLsb' 2 10 = wordAddr a := by
  apply BitVec.eq_of_toNat_eq
  rw [wordAddr, BitVec.extractLsb'_toNat, BitVec.extractLsb'_toNat, dataAddr_toNat,
    Nat.shiftRight_eq_div_pow, Nat.shiftRight_eq_div_pow]
  omega

/-- What `ID_stage` says of a load. -/
lemma idStage_load {w : BitVec 32} {o : LoadOp} {rd rs1 : BitVec 5} {imm : BitVec 32}
    (hi : decode w = some (.load o rd rs1 imm)) : (idStage w).isLoad = true ∧
      (idStage w).rd = rd ∧ (idStage w).rs1 = rs1 ∧ (idStage w).immOut = imm := by
  cases encodes_of_decode hi with
  | load hop hf => exact ⟨beq_iff_eq.mpr hop, rfl, rfl, ExIn.immGen_immI_load hop⟩

/-- What `ID_stage` says of a store. -/
lemma idStage_store {w : BitVec 32} {o : StoreOp} {rs1 rs2 : BitVec 5} {imm : BitVec 32}
    (hi : decode w = some (.store o rs1 rs2 imm)) : (idStage w).isStore = true ∧
      (idStage w).rs1 = rs1 ∧ (idStage w).rs2 = rs2 ∧ (idStage w).immOut = imm := by
  cases encodes_of_decode hi with
  | store hop hf => exact ⟨beq_iff_eq.mpr hop, rfl, rfl, ExIn.immGen_immS hop⟩

/-- The load takes the whole word. -/
lemma Alone.load (h : Alone image regs d pc n) {o : LoadOp} {rd rs1 : BitVec 5}
    {imm : BitVec 32} (hi : decode (instMem image pc) = some (.load o rd rs1 imm))
    (hrd : rd ≠ 0#5) :
    (presetRun image regs d (n + 5)).reg rd = accessWord image regs d rs1 imm n := by
  obtain ⟨hl, hd, h1, himm⟩ := idStage_load hi
  have hstep := (h.done (.inl hl)).load_step (h.after 2 (by omega)) hl (by rw [hd]; exact hrd)
  simp only [hd, accessOf, h1, himm] at hstep
  exact hstep

/-- The store writes the whole register. -/
lemma Alone.store (h : Alone image regs d pc n) {o : StoreOp} {rs1 rs2 : BitVec 5}
    {imm : BitVec 32} (hi : decode (instMem image pc) = some (.store o rs1 rs2 imm)) :
    (presetRun image regs d (n + 5)).dmem.word =
      Function.update (presetRun image regs d n).dmem.word
        (wordAddr (accessAddr image regs d rs1 imm n)) ((presetRun image regs d n).reg rs2) := by
  obtain ⟨hst, h1, h2, himm⟩ := idStage_store hi
  have hstep := (h.done (.inr hst)).store_step hst
  simp only [accessOf, h1, h2, himm] at hstep
  exact hstep

/-- **Loads and stores among NOPs do what they should exactly when their words fit**: the word
that a load finds, and the register that a store writes over the word that it finds. -/
theorem loadRight_storeRight_iff_fits (h : Alone image regs d pc n) :
    (∀ o rd rs1 imm, decode (instMem image pc) = some (.load o rd rs1 imm) →
      (accessAddr image regs d rs1 imm n).toNat % o.size = 0 →
      (LoadRight image regs d o rd rs1 imm n ↔ (rd ≠ 0#5 →
        o.Fits ((accessAddr image regs d rs1 imm n).toNat % 4)
          (accessWord image regs d rs1 imm n)))) ∧
    (∀ o rs1 rs2 imm, decode (instMem image pc) = some (.store o rs1 rs2 imm) →
      (accessAddr image regs d rs1 imm n).toNat % o.size = 0 →
      (StoreRight image regs d o rs1 rs2 imm n ↔
        o.Fits ((accessAddr image regs d rs1 imm n).toNat % 4)
          (accessWord image regs d rs1 imm n) ((presetRun image regs d n).reg rs2))) := by
  constructor
  · intro o rd rs1 imm hi ha
    have hmod : (dataAddr (accessAddr image regs d rs1 imm n)).toNat % o.size = 0 :=
      dataAddr_mod o.size_cases ha
    have hiff := LoadOp.value_eq_iff_fits (presetRun image regs d n).dmem.word
      (dataAddr (accessAddr image regs d rs1 imm n)) o hmod
    rw [dataAddr_word, dataAddr_lane] at hiff
    refine forall_congr' ?_
    intro hrd
    rw [h.load hi hrd]
    exact hiff
  · intro o rs1 rs2 imm hi ha
    have hmod : (dataAddr (accessAddr image regs d rs1 imm n)).toNat % o.size = 0 :=
      dataAddr_mod o.size_cases ha
    have hiff := StoreOp.update_eq_iff_fits (presetRun image regs d n).dmem.word
      (dataAddr (accessAddr image regs d rs1 imm n)) ((presetRun image regs d n).reg rs2) o hmod
    rw [dataAddr_word, dataAddr_lane, ← h.store hi] at hiff
    exact hiff

/-- The word `w` behind four NOPs, and NOPs behind it. -/
def amongNops (w : BitVec 32) : BitVec 10 → BitVec 32 := fun a => if a = 4#10 then w else nop

/-- A store of the byte 0x42 to a word of zeros. -/
theorem storeRight_sb :
    StoreRight (amongNops 0x00100023#32) (fun _ => 0x42#32) .zero .sb 0#5 1#5 0#32 5 :=
  ((loadRight_storeRight_iff_fits (show Alone (amongNops 0x00100023#32) (fun _ => 0x42#32) .zero
      16#32 5 from ⟨by decide +kernel, by decide +kernel, by decide +kernel⟩)).2 .sb 0#5 1#5 0#32
    (by decide +kernel) (by decide +kernel)).mpr ⟨by decide +kernel, by decide +kernel⟩

/-- A memory with 1 in the second byte of every word. -/
def secondBytes : DataMem := { DataMem.zero with mem1 := fun _ => 1#8 }

/-- **The store of a byte clears the second byte of its word.** -/
theorem sb_clears_word : ¬ ∀ image regs d pc n, Alone image regs d pc n →
    (∀ o rd rs1 imm, decode (instMem image pc) = some (.load o rd rs1 imm) →
      (accessAddr image regs d rs1 imm n).toNat % o.size = 0 →
      LoadRight image regs d o rd rs1 imm n) ∧
    (∀ o rs1 rs2 imm, decode (instMem image pc) = some (.store o rs1 rs2 imm) →
      (accessAddr image regs d rs1 imm n).toNat % o.size = 0 →
      StoreRight image regs d o rs1 rs2 imm n) := by
  intro h
  have hs := (h (amongNops 0x00100023#32) (fun _ => 0x42#32) secondBytes 16#32 5
    ⟨by decide +kernel, by decide +kernel, by decide +kernel⟩).2 .sb 0#5 1#5 0#32
    (by decide +kernel) (by decide +kernel)
  have hbyte := congrFun hs 1#12
  revert hbyte
  decide +kernel

end Run

end SocBram

end RiscvSoc.Rtl
