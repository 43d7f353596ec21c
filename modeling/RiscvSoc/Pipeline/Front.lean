import RiscvSoc.Pipeline.Cycle

/-!
# What the front registers hold

IF/ID holds a bubble or a word of the program, and ID/EX a bubble or what ID decoded of such a
word; a valid JAL never gets that far.
-/

namespace RiscvSoc.Rtl

/-- What IF/ID holds of the instruction at `pc`. -/
def fetchedAt (M : BitVec 32 → BitVec 32) (pc : BitVec 32) : IfIdReg := ⟨pc, pc + 4#32, M pc, true⟩

/-- What ID/EX holds of an entry of IF/ID. -/
def decodedOf (f : IfIdReg) : IdExReg := IdExReg.ofId f (idStage f.instrOut)

/-- An entry of ID/EX that stands for no instruction. -/
structure IdExReg.IsBubble (r : IdExReg) : Prop where
  exInstrValid : r.exInstrValid = false
  exRd : r.exRd = 0#5
  exIsLoad : r.exIsLoad = false
  exIsStore : r.exIsStore = false

/-- **The front registers**, whatever words have been fetched. -/
structure FrontShape (s : Core) : Prop where
  ifId : s.ifId = IfIdReg.bubble ∨ ∃ pc w, s.ifId = ⟨pc, pc + 4#32, w, true⟩
  idEx : s.idEx.IsBubble ∨ ∃ pc w, s.idEx = decodedOf ⟨pc, pc + 4#32, w, true⟩

/-- **The front registers** of a core over the program `M`. -/
structure FrontOk (M : BitVec 32 → BitVec 32) (s : Core) : Prop where
  ifId : s.ifId = IfIdReg.bubble ∨ ∃ pc, s.ifId = fetchedAt M pc
  idEx : s.idEx.IsBubble ∨
    ∃ pc, s.idEx = decodedOf (fetchedAt M pc) ∧ (idStage (M pc)).isJump = false

variable {M : BitVec 32 → BitVec 32} {s : Core} {b : BusIn}

/-! ### What may be in EX -/

namespace FrontShape

lemma reset : FrontShape Core.reset := ⟨.inl rfl, .inl ⟨rfl, rfl, rfl, rfl⟩⟩

theorem step (h : FrontShape s) : FrontShape (s.step (b.pins M s)) where
  ifId := by
    simp only [Core.step, IfIdReg.step]
    split_ifs with hf hs
    · exact .inl rfl
    · exact h.ifId
    · exact .inr ⟨s.pcReg, M s.pcReg,
        Core.fetched_pins s b M (by simpa using hs) (by simpa using hf)⟩
  idEx := by
    simp only [Core.step, IdExReg.step]
    split_ifs with hf hs
    · exact .inl ⟨rfl, rfl, rfl, rfl⟩
    · exact h.idEx
    · rw [Core.id]
      rcases h.ifId with hb | ⟨pc, w, hp⟩
      · left
        rw [hb]
        exact ⟨rfl, rfl, rfl, rfl⟩
      · right
        rw [hp]
        exact ⟨pc, w, rfl⟩

/-- A bubble in EX asks nothing of the rest of the core. -/
lemma valid_of (h : FrontShape s)
    (hx : s.idEx.exRd ≠ 0#5 ∨ s.idEx.exIsLoad = true ∨ s.idEx.exIsStore = true) :
    s.idEx.exInstrValid = true := by
  rcases h.idEx with hb | ⟨pc, w, hp⟩
  · simp [hb.exRd, hb.exIsLoad, hb.exIsStore] at hx
  · rw [hp]; rfl

/-- Nothing in EX is a load and a store. -/
lemma not_load_and_store (h : FrontShape s) (hl : s.idEx.exIsLoad = true) :
    s.idEx.exIsStore = false := by
  rcases h.idEx with hb | ⟨pc, w, hp⟩
  · exact hb.exIsStore
  · have hl' : (idStage w).isLoad = true := by rw [hp] at hl; exact hl
    have hs : (idStage w).isStore = false := by
      simp only [idStage, beq_iff_eq] at hl' ⊢
      rw [hl']
      decide
    rw [hp]
    exact hs

/-- A load or a store redirects nothing. -/
lemma branchHazardEx_of_access (h : FrontShape s)
    (ha : s.idEx.exIsLoad = true ∨ s.idEx.exIsStore = true) (i : CoreIn) :
    s.branchHazardEx i = false := by
  rcases h.idEx with hb | ⟨pc, w, hp⟩
  · simp [hb.exIsLoad, hb.exIsStore] at ha
  · have ha' : (idStage w).isLoad = true ∨ (idStage w).isStore = true := by
      rw [hp] at ha; exact ha
    have hx : (idStage w).isBranch = false ∧ (idStage w).isJalr = false := by
      simp only [idStage, beq_iff_eq] at ha' ⊢
      rcases ha' with hl | hl <;> rw [hl] <;> decide
    have h1 : (s.exIn i).exIsBranch = false := by rw [← hx.1]; simp only [Core.exIn, hp]; rfl
    have h2 : (s.exIn i).exIsJalr = false := by rw [← hx.2]; simp only [Core.exIn, hp]; rfl
    simp [Core.branchHazardEx, HazardIn.branchHazardEx, Core.hazard, ExIn.branchTaken, ExIn.jalr,
      h1, h2]

/-- A load writes a register. -/
lemma regWriteEn_of_load (h : FrontShape s) (hl : s.idEx.exIsLoad = true) :
    s.idEx.exRegWriteEn = true := by
  rcases h.idEx with hb | ⟨pc, w, hp⟩
  · simp [hb.exIsLoad] at hl
  · have hl' : (idStage w).isLoad = true := by rw [hp] at hl; exact hl
    have hw : (idStage w).regWriteEn = true := by
      simp only [idStage] at hl' ⊢
      simp [hl']
    rw [hp]
    exact hw

end FrontShape

/-! ### Over a program -/

lemma frontOk_reset : FrontOk M Core.reset := ⟨.inl rfl, .inl ⟨rfl, rfl, rfl, rfl⟩⟩

/-- A cycle that latches an instruction into ID/EX has no JAL in ID. -/
lemma Core.jumpIf_of_latch {i : CoreIn} (hf : s.flushIdex i = false) (hs : s.stallBack i = false) :
    s.jumpIf = false := by
  have hx : s.flushIdex i = (i.flush || s.branchHazardEx i ||
      (s.loadUseHazard i && !s.stallBack i) || (s.jumpIf && !s.stallBack i)) := rfl
  rw [hx, hs] at hf
  simpa using (Bool.or_eq_false_iff.mp hf).2

/-- **One cycle of the front registers**, whatever the other pins read. -/
theorem FrontOk.step (h : FrontOk M s) {i : CoreIn}
    (hi : i.imemReady = true → i.imemRdata = M s.pcReg) : FrontOk M (s.step i) where
  ifId := by
    simp only [Core.step, IfIdReg.step]
    split_ifs with hf hs
    · exact .inl rfl
    · exact h.ifId
    · refine .inr ⟨s.pcReg, ?_⟩
      have hs' : s.stallFront i = false := by simpa using hs
      rw [Core.fetched_of_go hs' (by simpa using hf), hi (Core.imemReady_of_go hs')]
      rfl
  idEx := by
    simp only [Core.step, IdExReg.step]
    split_ifs with hf hs
    · exact .inl ⟨rfl, rfl, rfl, rfl⟩
    · exact h.idEx
    · have hj : s.jumpIf = false :=
        Core.jumpIf_of_latch (i := i) (by simpa using hf) (by simpa using hs)
      rcases h.ifId with hb | ⟨pc, hp⟩
      · left
        rw [Core.id, hb]
        exact ⟨rfl, rfl, rfl, rfl⟩
      · refine .inr ⟨pc, by rw [Core.id, hp]; rfl, ?_⟩
        simpa [Core.jumpIf, Core.id, hp, fetchedAt] using hj

lemma FrontOk.shape (h : FrontOk M s) : FrontShape s :=
  ⟨h.ifId.imp_right fun ⟨pc, hp⟩ => ⟨pc, M pc, hp⟩,
    h.idEx.imp_right fun ⟨pc, hp, _⟩ => ⟨pc, M pc, hp⟩⟩

/-- A bubble in EX asks nothing of the rest of the core. -/
lemma FrontOk.valid_of (h : FrontOk M s)
    (hx : s.idEx.exRd ≠ 0#5 ∨ s.idEx.exIsLoad = true ∨ s.idEx.exIsStore = true) :
    s.idEx.exInstrValid = true := h.shape.valid_of hx

/-- **The front registers along a run.** -/
theorem frontOk_run (ins : ℕ → BusIn) (n : ℕ) : FrontOk M ((coreMachine M).run ins n) :=
  (coreMachine M).invariant frontOk_reset (fun s b h => h.step (b.pins_imemRdata M s)) ins n

lemma frontOk_quietRun (image : BitVec 10 → BitVec 32) (d : DataMem) (n : ℕ) :
    FrontOk (instMem image) (SocBram.quietRun image d n).core := by
  rw [SocBram.quietRun_core]
  exact frontOk_run _ n

/-- Nothing in EX is a load and a store. -/
lemma FrontOk.not_load_and_store (h : FrontOk M s) (hl : s.idEx.exIsLoad = true) :
    s.idEx.exIsStore = false := h.shape.not_load_and_store hl

/-- A load or a store redirects nothing. -/
lemma FrontOk.branchHazardEx_of_access (h : FrontOk M s)
    (ha : s.idEx.exIsLoad = true ∨ s.idEx.exIsStore = true) (i : CoreIn) :
    s.branchHazardEx i = false := h.shape.branchHazardEx_of_access ha i

lemma FrontOk.branchHazardEx_of_load (h : FrontOk M s) (hl : s.idEx.exIsLoad = true)
    (i : CoreIn) : s.branchHazardEx i = false := h.branchHazardEx_of_access (.inl hl) i

lemma FrontOk.branchHazardEx_of_store (h : FrontOk M s) (hs : s.idEx.exIsStore = true)
    (i : CoreIn) : s.branchHazardEx i = false := h.branchHazardEx_of_access (.inr hs) i

/-- A load writes a register. -/
lemma FrontOk.regWriteEn_of_load (h : FrontOk M s) (hl : s.idEx.exIsLoad = true) :
    s.idEx.exRegWriteEn = true := h.shape.regWriteEn_of_load hl

end RiscvSoc.Rtl
