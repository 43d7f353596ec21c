import RiscvSoc.Pipeline.LoadPath
import RiscvSoc.Pipeline.Retire
import RiscvSoc.Pipeline.Hold

/-!
# Load-use protection

An instruction that comes to EX finds the word of the load that wrote its operand, in the runs
where every load comes to EX alone.
-/

namespace RiscvSoc.Rtl

open Sync

namespace SocBram

variable {image : BitVec 10 → BitVec 32} {s : SocBram} {fresh : Bool}
  {last : BitVec 5 × BitVec 32}

/-! ### The registers that loads write -/

/-- The word at the address of the load in EX/MEM. -/
def ownWord (s : SocBram) : BitVec 32 := s.dmem.word (wordAddr s.core.dmemAddr)

/-- **The register `r` has the word `v`** of the load that is its youngest writer: it is on its
way to the array, no forwarding register holds an older value that the lock will not replace, and
an instruction that has just come to EX finds it. -/
structure HasWord (s : SocBram) (fresh : Bool) (r : BitVec 5) (v : BitVec 32) : Prop where
  settled : s.core.settled r = v
  arrived : ¬ (s.core.exMem.memReadEn = true ∧ s.core.exMem.rd = r)
  forward : s.core.registerEx.rdReg = r → s.core.registerEx.rdDataReg = v ∨
    (s.core.registerEx.lstate = .release ∧ s.core.registerEx.rdRegLoad = r)
  saved : s.core.registerEx.lstate = .release → s.core.registerEx.rdRegLoad = r →
    s.core.registerEx.rdDataLoadSaved = v
  file : fresh = true → s.core.idEx.exInstrValid = true → s.core.regfile.regs r = v ∨
    s.core.registerEx.rdReg = r ∨
    (s.core.registerEx.lstate = .release ∧ s.core.registerEx.rdRegLoad = r)

/-- The register `r` against the log: if its youngest writer is a load, it is held by a younger
writer in EX, or awaited from EX/MEM, or it has the word. -/
def LoadReg (s : SocBram) (fresh : Bool) (l : RetireLog) (r : BitVec 5) : Prop :=
  ∀ e, l.youngest r = some e → e.kind = true →
    (s.core.exWritesTo r ∧ fresh = false) ∨
    (e.value = none ∧ s.core.exMem.memReadEn = true ∧ s.core.exMem.rd = r) ∨
    ∃ v, e.value = some v ∧ HasWord s fresh r v

section Regs

variable {r : BitVec 5} {v : BitVec 32}

/-- A lock that lets go is held up by nothing. -/
lemma LoadPath.stallFront_of_release (h : LoadPath s fresh last)
    (hr : s.core.registerEx.lstate = .release) :
    s.core.stallFront (s.coreIn image .quiet) = false := by
  have hlu : s.core.loadUseHazard (s.coreIn image .quiet) = false :=
    loadUse_of_not_pending (by simp [RegisterEx.loadPendingOut, hr])
  have hready : (s.coreIn image .quiet).imemReady = true := rfl
  rw [Core.stallFront_eq, hlu, hready, stallBack_quiet h.skip, hr]
  cases h.phase with
  | quiet lstate => simp [hr] at lstate
  | asked lstate => simp [hr] at lstate
  | answered lstate => simp [hr] at lstate
  | landed _ slock read write => simp [slock, Core.dmemValid, read, write]
  | waiting _ slock _ ready => simp [slock, ready]
  | orphan lstate => simp [hr] at lstate

/-- The lock lets go for the load in EX/MEM only. -/
lemma LoadPath.release_of_step (h : LoadPath s fresh last)
    (hr : (s.step image .quiet).core.registerEx.lstate = .release) :
    s.core.exMem.memReadEn = true ∧
      (s.step image .quiet).core.registerEx.rdRegLoad = s.core.exMem.rd := by
  have hflush : s.core.branchHazardEx (s.coreIn image .quiet) = false := by
    by_contra hb
    rw [step_registerEx] at hr
    simp [RegisterEx.step, RegisterEx.lstateStep, registerExIn_flush, hb] at hr
  cases h.phase with
  | answered lstate readyD1 slock read ready tag =>
    exact ⟨read, (step_lock_of_answer lstate readyD1 read ready tag hflush).2.1⟩
  | quiet lstate =>
    rw [step_registerEx] at hr
    simp only [RegisterEx.step, RegisterEx.lstateStep, registerExIn_flush, hflush, lstate] at hr
    split_ifs at hr
  | orphan lstate =>
    rw [step_registerEx] at hr
    simp only [RegisterEx.step, RegisterEx.lstateStep, registerExIn_flush, hflush, lstate] at hr
    split_ifs at hr
  | landed lstate =>
    rw [step_registerEx] at hr
    simp [RegisterEx.step, RegisterEx.lstateStep, registerExIn_flush, hflush, lstate] at hr
  | waiting lstate =>
    rw [step_registerEx] at hr
    simp [RegisterEx.step, RegisterEx.lstateStep, registerExIn_flush, hflush, lstate] at hr
  | asked lstate firstCycle slock read ready =>
    rw [step_registerEx] at hr
    simp [RegisterEx.step, RegisterEx.lstateStep, registerExIn_flush, hflush, lstate,
      registerExIn_loadSuccess, ready, RegisterEx.staleReady, RegisterEx.lateReady,
      firstCycle] at hr

/-- Only a load for `r` brings `r` to EX/MEM. -/
lemma not_arriving (hf : FrontOk (instMem image) s.core) (hn : ¬ s.core.exWritesTo r)
    (h : s.core.stallBack (s.coreIn image .quiet) = false ∨
      ¬ (s.core.exMem.memReadEn = true ∧ s.core.exMem.rd = r)) :
    ¬ ((s.step image .quiet).core.exMem.memReadEn = true ∧
      (s.step image .quiet).core.exMem.rd = r) := by
  rw [step_exMem]
  split_ifs with hs
  · exact h.resolve_left (by simp [hs])
  · rintro ⟨hread, hrd⟩
    simp only [Core.exMemIn, ExIn.memReadEn, Bool.and_eq_true] at hread hrd
    exact hn ⟨hf.regWriteEn_of_load hread.2, hrd⟩

section NoJal

variable (hj : s.core.jumpIf = false) (hw : s.core.regfile.weBuf = false)
include hj hw

lemma step_settled (hr : r ≠ 0#5) (hn : ¬ s.core.exWritesTo r) :
    (s.step image .quiet).core.settled r =
      if s.core.stallBack (s.coreIn image .quiet) = false ∧ s.core.exMem.memReadEn = true ∧
          s.core.exMem.rd = r then s.core.memLoadDataStub (s.coreIn image .quiet)
      else s.core.settled r :=
  Core.settled_step_of_not_writes hj hw rfl hr hn

lemma step_regs (hr : r ≠ 0#5) : (s.step image .quiet).core.regfile.regs r = s.core.settled r := by
  have hb : (s.step image .quiet).core.regfile.weBuf = false :=
    Core.weBuf_step_of_noLink _ (Core.jalLinkWe_of_jumpIf hj)
  rw [← Core.held_of_empty hb]
  exact Core.held_step_of_noJal hj hw hr

/-- A register keeps the word of its load until EX writes it. -/
lemma HasWord.step (hx : HasWord s fresh r v) (h : LoadPath s fresh last)
    (hf : FrontOk (instMem image) s.core) (hr : r ≠ 0#5) (hn : ¬ s.core.exWritesTo r) :
    HasWord (s.step image .quiet) (s.core.entersEx (s.coreIn image .quiet)) r v := by
  have hset : (s.step image .quiet).core.settled r = _ := step_settled hj hw hr hn
  rw [if_neg fun hc => hx.arrived hc.2] at hset
  refine ⟨hset.trans hx.settled, not_arriving hf hn (.inr hx.arrived), ?_, ?_,
    fun _ _ => .inl ((step_regs hj hw hr).trans hx.settled)⟩
  · intro ht
    -- Whatever the forwarding register takes for `r` is the word.
    left
    have hreg : ((s.step image .quiet).core.registerEx.rdReg,
        (s.step image .quiet).core.registerEx.rdDataReg) = _ := Core.step_rdReg rfl
    rw [Prod.ext_iff] at hreg
    obtain ⟨h1, h2⟩ := hreg
    simp only at h1 h2
    rw [ht] at h1
    rw [h2]
    split_ifs at h1 ⊢ with hb hs hl hwr
    · exact absurd h1 hr
    · rcases hx.forward h1.symm with hv | ⟨hrel, -⟩
      · exact hv
      · simp [h.stallFront_of_release hrel] at hs
    · exact hx.saved hl h1.symm
    · exact absurd ⟨hwr.2, h1.symm⟩ hn
    · exact (hx.forward h1.symm).resolve_right fun hc => hl hc.1
  · intro hrel ht
    obtain ⟨hread, htag⟩ := h.release_of_step hrel
    exact absurd ⟨hread, htag.symm.trans ht⟩ hx.arrived

/-- The load that leaves EX/MEM brings its register the word at its address. -/
lemma hasWord_of_release (h : LoadPath s fresh last) (hf : FrontOk (instMem image) s.core)
    (hr : r ≠ 0#5) (hn : ¬ s.core.exWritesTo r) (read : s.core.exMem.memReadEn = true)
    (hrd : s.core.exMem.rd = r)
    (hgo : s.core.stallBack (s.coreIn image .quiet) = false) :
    HasWord (s.step image .quiet) (s.core.entersEx (s.coreIn image .quiet)) r s.ownWord := by
  have hset : (s.step image .quiet).core.settled r = _ := step_settled hj hw hr hn
  rw [if_pos ⟨hgo, read, hrd⟩] at hset
  have hstub : s.core.memLoadDataStub (s.coreIn image .quiet) = s.dmem.dataOut := by
    simp [Core.memLoadDataStub, read, coreIn_quiet, bus]
  rw [hstub] at hset
  have harr := not_arriving hf hn (.inl hgo)
  have hreg : ((s.step image .quiet).core.registerEx.rdReg,
      (s.step image .quiet).core.registerEx.rdDataReg) = _ := Core.step_rdReg rfl
  cases h.phase with
  | quiet _ read' => simp [read] at read'
  | landed _ _ read' => simp [read] at read'
  | asked _ _ _ _ ready =>
    rw [stallBack_quiet h.skip] at hgo
    simp [Core.dmemValid, read, ready] at hgo
  | answered lstate readyD1 slock _ ready tag data held =>
    cases hbr : s.core.branchHazardEx (s.coreIn image .quiet)
    · obtain ⟨hls, htag, hsaved⟩ := step_lock_of_answer lstate readyD1 read ready tag hbr
      rw [hrd] at htag
      exact ⟨hset.trans data, harr, fun _ => .inr ⟨hls, htag⟩, fun _ _ => hsaved.trans data,
        fun _ _ => .inr (.inr ⟨hls, htag⟩)⟩
    · have h0 : (s.step image .quiet).core.registerEx.rdReg = 0#5 := by
        rw [hbr] at hreg
        exact congrArg Prod.fst hreg
      have hls : (s.step image .quiet).core.registerEx.lstate = .idle := by
        rw [step_registerEx]
        simp [RegisterEx.step, RegisterEx.lstateStep, registerExIn_flush, hbr]
      have hfl := (Core.flush_of_redirect hbr).2
      exact ⟨hset.trans data, harr, fun ht => absurd (ht.symm.trans h0) hr,
        fun hrel => by simp [hls] at hrel, fun he => by simp [Core.entersEx, hfl] at he⟩
  | waiting lstate slock _ ready tag saved data store held =>
    have hbr := hf.branchHazardEx_of_store store (s.coreIn image .quiet)
    have hsf : s.core.stallFront (s.coreIn image .quiet) = false :=
      h.stallFront_of_release lstate
    rw [hbr, hsf, if_pos lstate] at hreg
    simp only [Bool.false_eq_true, if_false, Prod.mk.injEq] at hreg
    have hls : (s.step image .quiet).core.registerEx.lstate = .idle := by
      rw [step_registerEx]
      simp [RegisterEx.step, RegisterEx.lstateStep, lstate]
    have ht : (s.step image .quiet).core.registerEx.rdReg = r := by rw [hreg.1, tag, hrd]
    exact ⟨hset.trans data, harr, fun _ => .inl (hreg.2.trans saved),
      fun hrel => by simp [hls] at hrel, fun _ _ => .inr (.inl ht)⟩
  | orphan lstate slock _ ready data idEx ifId rdReg =>
    have h0 : (s.step image .quiet).core.registerEx.rdReg = 0#5 := by
      have hwe : ¬ (s.core.idEx.exIsLoad = false ∧ s.core.idEx.exRegWriteEn = true) := by
        rw [idEx]; simp [IdExReg.bubble]
      rw [if_neg hwe] at hreg
      have hfst := congrArg Prod.fst hreg
      simp only [lstate, reduceCtorEq, if_false] at hfst
      rw [hfst]
      split_ifs <;> simp [rdReg]
    have hls : (s.step image .quiet).core.registerEx.lstate ≠ .release := by
      rw [step_registerEx]
      have hl : s.core.idEx.exIsLoad = false := by rw [idEx]; rfl
      simp [RegisterEx.step, RegisterEx.lstateStep, lstate, registerExIn_loadEnable, hl]
    refine ⟨hset.trans data, harr, fun ht => absurd (ht.symm.trans h0) hr,
      fun hrel => absurd hrel hls, ?_⟩
    intro he hv
    simp only [Core.entersEx, Bool.and_eq_true, Bool.not_eq_true'] at he
    have hid : (s.step image .quiet).core.idEx = IdExReg.ofId s.core.ifId s.core.id := by
      simp [SocBram.step, Core.step, IdExReg.step, he.1, he.2]
    rw [hid, ifId] at hv
    simp [IdExReg.ofId, IfIdReg.bubble] at hv

/-- **One cycle of a register that a load writes.** -/
theorem LoadReg.step {l : RetireLog} (hx : LoadReg s fresh l r) (h : LoadPath s fresh last)
    (hf : FrontOk (instMem image) s.core) (hr : r ≠ 0#5) :
    LoadReg (s.step image .quiet) (s.core.entersEx (s.coreIn image .quiet))
      (s.core.retireStep (s.coreIn image .quiet) s.ownWord l) r := by
  intro e he hk
  by_cases hwr : s.core.exWritesTo r
  · by_cases hlv : s.core.leavesEx (s.coreIn image .quiet) = true
    · -- The writer in EX leaves it: it is the load `e`, which is now in EX/MEM.
      rw [Core.youngest_retireStep_of_leaves hwr hr hlv] at he
      cases he
      have hld : s.core.idEx.exIsLoad = true := hk
      have hgo : s.core.stallBack (s.coreIn image .quiet) = false := by
        rw [coreIn_quiet] at hlv ⊢
        exact Core.stallBack_of_load_leaves hf hld hlv
      refine .inr (.inl ⟨by simp [hld], ?_⟩)
      rw [step_exMem, hgo]
      exact ⟨Core.memReadEn_of_load hf hld hlv, hwr.2⟩
    · -- It is held there.
      have hv := hf.valid_of (.inl (by rw [hwr.2]; exact hr))
      simp only [Core.leavesEx, hv, Bool.true_and, Bool.or_eq_true, Bool.not_eq_true', not_or,
        Bool.not_eq_true, Bool.not_eq_false] at hlv
      have hid : (s.step image .quiet).core.idEx = s.core.idEx := by
        simp [SocBram.step, Core.step, IdExReg.step, hlv.1, hlv.2]
      refine .inl ⟨?_, by simp [Core.entersEx, hlv.1]⟩
      rw [Core.exWritesTo, hid]
      exact hwr
  · rw [Core.youngest_retireStep_of_ne hwr] at he
    have hold : ∀ e', l.youngest r = some e' → e'.kind = true → e'.value = none ∧
        s.core.exMem.memReadEn = true ∧ s.core.exMem.rd = r ∨
        ∃ v, e'.value = some v ∧ HasWord s fresh r v := fun e' he' hk' =>
      (hx e' he' hk').resolve_left fun hc => hwr hc.1
    by_cases hrel : s.core.releasesLoad (s.coreIn image .quiet) = true
    · rw [if_pos hrel, Option.map_eq_some_iff] at he
      obtain ⟨e', he', rfl⟩ := he
      simp only [Core.releasesLoad, Bool.and_eq_true, Bool.not_eq_true'] at hrel
      right; right
      rcases hold e' he' hk with ⟨hnone, hread, hrd⟩ | ⟨v, hsome, hv⟩
      · exact ⟨s.ownWord, by simp [hnone],
          hasWord_of_release hj hw h hf hr hwr hread hrd hrel.2⟩
      · exact ⟨v, by simp [hsome], hv.step hj hw h hf hr hwr⟩
    · rw [if_neg hrel] at he
      rcases hold e he hk with ⟨hnone, hread, hrd⟩ | ⟨v, hsome, hv⟩
      · have hst : s.core.stallBack (s.coreIn image .quiet) = true := by
          simpa [Core.releasesLoad, hread] using hrel
        refine .inr (.inl ⟨hnone, ?_⟩)
        rw [step_exMem, hst]
        exact ⟨hread, hrd⟩
      · exact .inr (.inr ⟨v, hsome, hv.step hj hw h hf hr hwr⟩)

end NoJal

end Regs

/-! ### The operands of what has just come to EX -/

/-- While the lock is held, what comes to EX does not use its register. -/
lemma LoadPath.lock_avoids (h : LoadPath s true last)
    (hl : s.core.registerEx.loadLockOut = true) : s.core.Avoids s.core.registerEx.rdRegLoad := by
  cases h.phase with
  | quiet lstate => simp [RegisterEx.loadLockOut, lstate] at hl
  | orphan lstate => simp [RegisterEx.loadLockOut, lstate] at hl
  | asked _ _ _ _ _ _ avoids => exact avoids rfl
  | landed _ _ _ _ _ _ avoids => exact avoids rfl
  | answered _ _ _ _ _ _ _ held => simp at held
  | waiting _ _ _ _ _ _ _ _ held => simp at held

/-- What comes to EX does not use the register of a load in EX/MEM. -/
lemma LoadPath.read_avoids (h : LoadPath s true last) (hv : s.core.idEx.exInstrValid = true)
    (hr : s.core.exMem.memReadEn = true) : s.core.Avoids s.core.exMem.rd := by
  cases h.phase with
  | quiet _ read => simp [hr] at read
  | landed _ _ read => simp [hr] at read
  | asked _ _ _ _ _ tag avoids => rw [← tag]; exact avoids rfl
  | answered _ _ _ _ _ _ _ held => simp at held
  | waiting _ _ _ _ _ _ _ _ held => simp at held
  | orphan _ _ _ _ _ idEx => simp [idEx, IdExReg.bubble] at hv

/-- The entry `e` of the log has the word `v` if it is a load. -/
def LoadIs (e : LogEntry (BitVec 5) Bool (BitVec 32)) (v : BitVec 32) : Prop :=
  e.kind = true → e.value = some v

/-- The operand `r` of what comes to EX, from a port that shows the file. -/
lemma LoadReg.operand {l : RetireLog} {r : BitVec 5} {v : BitVec 32} {i : CoreIn}
    (hx : LoadReg s true l r) (h : LoadPath s true last) (hv : s.core.idEx.exInstrValid = true)
    (hr : r ≠ 0#5) (hu : ∀ t, s.core.Avoids t → r ≠ t)
    (hp : v = s.core.regfile.regs r) :
    ∀ e, l.youngest r = some e → LoadIs e ((s.core.exIn i).dataFinal r v) := by
  intro e he hk
  have hfree : ∀ ht : s.core.registerEx.loadLockOut = true, s.core.registerEx.rdRegLoad ≠ r :=
    fun ht hc => hu _ (h.lock_avoids ht) hc.symm
  have hlock : s.core.registerEx.locks r = false := by
    by_contra hc
    simp only [RegisterEx.locks, Bool.not_eq_false, Bool.and_eq_true, beq_iff_eq] at hc
    exact hfree hc.1.1 hc.2
  have hrel : ¬ (s.core.registerEx.lstate = .release ∧ s.core.registerEx.rdRegLoad = r) :=
    fun hc => hfree (by simp [RegisterEx.loadLockOut, hc.1]) hc.2
  rcases hx e he hk with ⟨-, hc⟩ | ⟨-, hread, hrd⟩ | ⟨w, hw, hword⟩
  · simp at hc
  · exact absurd hrd.symm (hu _ (h.read_avoids hv hread))
  · rw [hw, Core.dataFinal_of_not_locks hlock, RegisterEx.forwards]
    by_cases ht : s.core.registerEx.rdReg = r
    · have hd := (hword.forward ht).resolve_right hrel
      simp [ht, hr, hd]
    · have hreg := ((hword.file rfl hv).resolve_right fun hc => hc.elim ht hrel)
      simp [ht, hp, hreg]

/-- The ports of what comes to EX show its registers. -/
lemma ports_of_enters (hf : s.core.regfile.Fresh)
    (he : s.core.entersEx (s.coreIn image .quiet) = true) :
    (s.step image .quiet).core.regfile.rdata1 = (s.step image .quiet).core.regfile.regs
        (s.step image .quiet).core.idEx.exRs1 ∧
      (s.step image .quiet).core.regfile.rdata2 = (s.step image .quiet).core.regfile.regs
        (s.step image .quiet).core.idEx.exRs2 := by
  simp only [Core.entersEx, Bool.and_eq_true, Bool.not_eq_true'] at he
  have hid : (s.step image .quiet).core.idEx = IdExReg.ofId s.core.ifId s.core.id := by
    simp [SocBram.step, Core.step, IdExReg.step, he.1, he.2]
  have hfr := hf.step s.core.regFileIn
  rw [hid]
  exact ⟨hfr.port1, hfr.port2⟩

/-! ### Along a run -/

section Run

variable (image) (d : DataMem)

/-- In cycle `n` EX holds what has just come there. -/
def firstCycle : ℕ → Bool
  | 0 => false
  | n + 1 => (quietRun image d n).core.entersEx ((quietRun image d n).coreIn image .quiet)

/-- The destination and the address of the newest load that has left EX before cycle `n`. -/
def lastLoad : ℕ → BitVec 5 × BitVec 32
  | 0 => (0#5, 0#32)
  | n + 1 => (quietRun image d n).lastStep image (lastLoad n)

/-- **Load-use protection holds in cycle `n`**: an operand of an instruction in its first cycle in
EX is the word of the load that is the youngest writer of its register, if it is a load; and a
lock that lets go has the tag and the word of one load, the newest. -/
structure LoadUseSafe (n : ℕ) : Prop where
  rs1 : firstCycle image d n = true → (quietRun image d n).core.idEx.exInstrValid = true →
    (quietRun image d n).core.idEx.exUseRs1 = true →
    (quietRun image d n).core.idEx.exRs1 ≠ 0#5 →
    ∀ e, (retireLog image d ownWord n).youngest (quietRun image d n).core.idEx.exRs1 = some e →
      LoadIs e ((quietRun image d n).core.exIn
        ((quietRun image d n).coreIn image .quiet)).rs1DataFinal
  rs2 : firstCycle image d n = true → (quietRun image d n).core.idEx.exInstrValid = true →
    (quietRun image d n).core.idEx.exUseRs2 = true →
    (quietRun image d n).core.idEx.exRs2 ≠ 0#5 →
    ∀ e, (retireLog image d ownWord n).youngest (quietRun image d n).core.idEx.exRs2 = some e →
      LoadIs e ((quietRun image d n).core.exIn
        ((quietRun image d n).coreIn image .quiet)).rs2DataFinal
  sameLoad : (quietRun image d n).core.registerEx.lstate = .release →
    (quietRun image d n).core.registerEx.rdRegLoad = (lastLoad image d n).1 ∧
      (quietRun image d n).core.registerEx.rdDataLoadSaved =
        (quietRun image d n).dmem.word (wordAddr (lastLoad image d n).2)

variable {image d}

lemma loadPath_run {n : ℕ} (hC : ∀ k < n, (quietRun image d k).LoadAlone) :
    LoadPath (quietRun image d n) (firstCycle image d n) (lastLoad image d n) :=
  holds_along
    (I := fun k => LoadPath (quietRun image d k) (firstCycle image d k) (lastLoad image d k))
    ⟨.quiet rfl rfl, rfl, nofun, nofun, nofun⟩
    (fun k h hk => h.step (frontOk_quietRun image d k) hk) hC

lemma loadReg_run (himg : NoJalImage image) {n : ℕ}
    (hC : ∀ k < n, (quietRun image d k).LoadAlone) {r : BitVec 5} (hr : r ≠ 0#5) :
    LoadReg (quietRun image d n) (firstCycle image d n) (retireLog image d ownWord n) r := by
  induction n with
  | zero => intro e he; cases he
  | succ n ih =>
    have hC' : ∀ k < n, (quietRun image d k).LoadAlone := fun k hk => hC k (Nat.lt_succ_of_lt hk)
    exact (ih hC').step (jumpIf_of_noJal himg n) (weBuf_of_noJal himg n) (loadPath_run hC')
      (frontOk_quietRun image d n) hr

lemma fresh_quietRun (n : ℕ) : (quietRun image d n).core.regfile.Fresh :=
  (machine image d).invariant (P := fun s => s.core.regfile.Fresh) RegFileBram.fresh_init
    (fun _ _ h => h.step _) _ n

/-- **Load-use protection is complete** in a run in which every load comes to EX alone. -/
theorem loadUseSafe_of_loadAlone (himg : NoJalImage image) {n : ℕ}
    (hC : ∀ k < n, (quietRun image d k).LoadAlone) : LoadUseSafe image d n := by
  have hpath := loadPath_run hC
  have hports : firstCycle image d n = true → (quietRun image d n).core.regfile.rdata1 =
      (quietRun image d n).core.regfile.regs (quietRun image d n).core.idEx.exRs1 ∧
      (quietRun image d n).core.regfile.rdata2 =
      (quietRun image d n).core.regfile.regs (quietRun image d n).core.idEx.exRs2 := by
    intro he
    cases n with
    | zero => simp [firstCycle] at he
    | succ n => exact ports_of_enters (fresh_quietRun n) he
  constructor
  · intro he hv hu hr
    have hreg := loadReg_run himg hC hr
    rw [he] at hreg hpath
    exact hreg.operand hpath hv hr (fun t ht e => hr (e.trans (ht.rs1 hu e))) (hports he).1
  · intro he hv hu hr
    have hreg := loadReg_run himg hC hr
    rw [he] at hreg hpath
    exact hreg.operand hpath hv hr (fun t ht e => hr (e.trans (ht.rs2 hu e))) (hports he).2
  · intro hrel
    have hlast := hpath.last
    cases hpath.phase with
    | landed _ _ _ _ tag saved => exact ⟨tag, saved⟩
    | waiting _ _ read _ tag saved =>
      rw [hlast read]
      exact ⟨tag, saved⟩
    | quiet lstate => simp [hrel] at lstate
    | asked lstate => simp [hrel] at lstate
    | answered lstate => simp [hrel] at lstate
    | orphan lstate => simp [hrel] at lstate

end Run

/-- `lw x1, 0(x0)` directly in front of `addi x2, x1, 0`. -/
def loadThenUse : BitVec 10 → BitVec 32 := fun a =>
  if a = 0#10 then 0x00002083#32 else if a = 1#10 then 0x00008113#32 else nop

/-- The reader behind a load is protected. -/
theorem loadUseSafe_loadThenUse : LoadUseSafe loadThenUse twoWords 6 := by
  have himg : NoJalImage loadThenUse := by
    intro a
    unfold loadThenUse
    split_ifs <;> decide
  exact loadUseSafe_of_loadAlone himg (by unfold LoadAlone; decide +kernel)

/-- `lw x1, 0(x0)`, a NOP, and `lw x2, 4(x0)` directly in front of `addi x3, x2, 0`. -/
def twoLoadsThenUse : BitVec 10 → BitVec 32 := fun a =>
  if a = 0#10 then 0x00002083#32 else if a = 2#10 then 0x00402103#32
  else if a = 3#10 then 0x00010193#32 else nop

/-- **The lock misses the second load**, which comes to EX while it lets go of the first: the
reader comes to EX before its word. -/
theorem twoLoadsThenUse_unprotected :
    ¬ ∀ image d n, NoJalImage image → LoadUseSafe image d n := by
  intro h
  have himg : NoJalImage twoLoadsThenUse := by
    intro a
    unfold twoLoadsThenUse
    split_ifs <;> decide
  have hv := (h twoLoadsThenUse twoWords 6 himg).rs1 (by decide +kernel) (by decide +kernel)
    (by decide +kernel) (by decide +kernel) ⟨2#5, true, none⟩ (by decide +kernel) rfl
  revert hv
  decide +kernel

end SocBram

end RiscvSoc.Rtl
