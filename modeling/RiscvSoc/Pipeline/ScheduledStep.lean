import RiscvSoc.Pipeline.ScheduledEx

/-!
# A cycle under a scheduled program

One lemma for each stage of the front: what the cycle retires is what the interpreter executes,
and the two are related again.
-/

namespace RiscvSoc.Rtl

open Isa Sync

namespace SocBram

variable {image : BitVec 10 → BitVec 32} {s : SocBram} {f : ImemIn} {σ : MemState} {i : Instr}
  {w : ℕ}

/-! ### The views after a cycle -/

/-- After an instruction in EX. -/
theorem HasOperands.views_step (h : HasOperands image s (s.fetchPins image f) σ i)
    (hv : Views s σ) (hfree : Free s) (hbuf : s.core.regfile.weBuf = false)
    (hj : s.core.jumpIf = false) (hfit : σ.Fits i) :
    Views (s.fetchStep image f) (σ.step image) := by
  have hl := Core.jalLinkWe_of_jumpIf hj
  obtain ⟨hwe, hload, hstore, hrd⟩ := h.kind
  have hread := h.computes.memReadEn
  have hwrite := h.computes.memWriteEn
  refine ⟨?_, ?_, hv.fresh.step _, MemState.step_regs_zero image hv.zero⟩
  · intro r hr
    have hword : rd (σ.fetch image) = s.core.idEx.exRd := hrd.symm
    rw [hfree.regView_step (fun hc => by simp [hbuf] at hc) hr,
      MemState.step_regs image h.decode hr, hv.regs r hr, hl, hword, hread]
    by_cases hd : s.core.idEx.exRd = r
    · cases hil : i.isLoad
      · have hres := congrArg Rec.result h.leaveRec_eq
        rw [σ.result_of_not_load image hil, ← hres]
        simp only [Core.leaveRec, hload, hil, hd]
        cases s.core.idEx.exRegWriteEn <;> simp
      · cases i with
        | load o rd rs1 imm =>
          have ha : (s.core.exIn (s.fetchPins image f)).memAddrOut = σ.regs rs1 + imm :=
            h.memAddrOut rfl
          have hval := MemState.value_of_fits hv.mem hfit
          simp [hd, ha, wordAddr_dataAddr, MemState.result, hval]
        | _ => cases hil
    · simp [hd]
  · rw [σ.step_of_decode image h.decode, memView_step, hfree.go, hwrite]
    cases i with
    | store o rs1 rs2 imm =>
      have ha : (s.core.exIn (s.fetchPins image f)).memAddrOut = σ.regs rs1 + imm :=
        h.memAddrOut rfl
      have hb : (s.core.exIn (s.fetchPins image f)).memWdata = σ.regs rs2 := h.operands.2 rfl
      have happ := MemState.apply_of_fits hv.mem hfit
      simp only [MemState.memAfter, happ, ha, hb, wordAddr_dataAddr, Instr.isStore, and_self,
        if_true]
    | _ => exact hv.mem

/-- After a cycle that brings nothing. -/
lemma Views.congr {s' : SocBram} (hv : Views s σ) (hfresh : s'.core.regfile.Fresh)
    (hr : ∀ r, r ≠ 0#5 → s'.regView r = s.regView r) (hm : s'.memView = s.memView) :
    Views s' σ := by
  refine ⟨?_, by rw [hm]; exact hv.mem, hfresh, hv.zero⟩
  intro r h0
  rw [hr r h0]
  exact hv.regs r h0

lemma ExIdle.memView_step (hx : ExIdle s.core) :
    (s.fetchStep image f).memView = s.memView := by
  rw [SocBram.memView_step, hx.no_access.2]
  simp

/-- With nothing in EX and no access behind it only a link is new. -/
lemma Free.regView_step_of_idle (hfree : Free s) (hx : ExIdle s.core)
    (hb : s.core.regfile.weBuf = true → s.core.jalLinkWe = false ∧ ¬ s.core.portWrites)
    {r : BitVec 5} (hr : r ≠ 0#5) : (s.fetchStep image f).regView r =
      if s.core.jalLinkWe = true ∧ s.core.id.rd = r then s.core.ifId.idPcPlus4
      else s.regView r := by
  have hn : ¬ (s.core.idEx.exRegWriteEn = true ∧ s.core.idEx.exRd = r) :=
    fun hw => hr (hw.2.symm.trans hx.rests.exRd)
  rw [hfree.regView_step hb hr, hx.no_access.1, if_neg hn]
  simp

lemma Free.views_idle (hfree : Free s) (hv : Views s σ) (hx : ExIdle s.core)
    (hj : s.core.jumpIf = false)
    (hb : s.core.regfile.weBuf = true → ¬ s.core.portWrites) :
    Views (s.fetchStep image f) σ := by
  have hl := Core.jalLinkWe_of_jumpIf hj
  refine hv.congr (hv.fresh.step _) ?_ hx.memView_step
  intro r hr
  rw [hfree.regView_step_of_idle hx (fun hc => ⟨hl, hb hc⟩) hr, hl]
  simp

lemma Views.idle_of_access (hv : Views s σ) (hu : Under s) (hx : ExIdle s.core)
    (hj : s.core.jumpIf = false) (hb : s.core.regfile.weBuf = false)
    (hdata : s.core.stallBack (s.fetchPins image f) = false → s.core.exMem.memReadEn = true →
      s.dmem.dataOut = s.dmem.word (wordAddr s.core.exMem.memAddr)) :
    Views (s.fetchStep image f) σ :=
  hv.congr (hv.fresh.step _) (fun _ hr => regView_step_of_access hj hb hx hu.single hdata hr)
    hx.memView_step

/-- After a NOP. -/
lemma Views.nop (hv : Views s σ) (hn : instMem image σ.pc = nop) : Views s (σ.step image) := by
  rw [MemState.step_of_nop image hn]
  exact ⟨hv.regs, hv.mem, hv.fresh, hv.zero⟩

/-! ### A NOP in ID -/

/-- The NOP in ID has moved on to EX, or stays in ID beside its copy in EX. -/
structure NopPassed (image : BitVec 10 → BitVec 32) (s : SocBram) (σ : MemState) : Prop where
  front : FrontAt (instMem image) s.core σ.pc
  exIdle : ExIdle s.core
  exRegWriteEn : s.core.idEx.exRegWriteEn = true
  weBuf : s.core.regfile.weBuf = false
  views : Views s σ

lemma pass_nop (hfront : FrontAt (instMem image) s.core σ.pc) (hn : instMem image σ.pc = nop)
    (hbr : s.core.branchHazardEx (s.fetchPins image f) = false)
    (hs : s.core.stallBack (s.fetchPins image f) = false)
    (hv : Views (s.fetchStep image f) σ) :
    emitted (MemState.step image) (MemState.shown image) f.steps σ = [] ∧
      NopPassed image (s.fetchStep image f) ((MemState.step image)^[f.steps] σ) ∧
      (((MemState.step image)^[f.steps] σ).pc = σ.pc ∨
        ((MemState.step image)^[f.steps] σ).pc = σ.pc + 4#32) := by
  obtain ⟨hj, hlu⟩ := nop_waits_for_nothing (s := s) (by rw [hfront.ifId]; exact hn)
    (s.fetchPins image f)
  obtain ⟨hfront', hidEx⟩ := hfront.fetch_go hbr hj hlu hs
  obtain ⟨hx, hwe⟩ := exIdle_of_nop hidEx hn
  have hbuf : (s.fetchStep image f).core.regfile.weBuf = false :=
    Core.weBuf_step_of_noLink _ (Core.jalLinkWe_of_jumpIf hj)
  unfold ImemIn.steps
  cases hr : f.ready
  · rw [hr] at hfront'
    exact ⟨rfl, ⟨hfront', hx, hwe, hbuf, hv⟩, .inl rfl⟩
  · rw [hr] at hfront'
    have hpc : (σ.step image).pc = σ.pc + 4#32 := by rw [MemState.step_of_nop image hn]
    refine ⟨?_, ⟨?_, hx, hwe, hbuf, hv.nop hn⟩, .inr hpc⟩
    · simp only [if_true, emitted_one]
      exact MemState.shown_of_nop image hn
    · simp only [if_true, Function.iterate_one, hpc]
      exact hfront'

/-! ### The stages -/

/-- A cycle that passes over a NOP with nothing in EX. -/
lemma NopPassed.cycleOk {k : ℕ} (hk : k = f.steps)
    (hret : s.core.retired (s.fetchPins image f) = [])
    (hem : emitted (MemState.step image) (MemState.shown image) k σ = [])
    (hp : NopPassed image (s.fetchStep image f) ((MemState.step image)^[k] σ))
    (hfree : Free (s.fetchStep image f)) (hpc : s.core.pcReg = σ.pc + 4#32) :
    CycleOk image 1 s f σ := by
  refine ⟨k, 1, by rw [hret, hem], ⟨hp.views, ?_⟩, ?_⟩
  · exact .fetched hp.front hp.exIdle hp.exRegWriteEn hp.weBuf hfree
  · subst hk
    unfold ImemIn.steps at hp ⊢
    cases hr : f.ready
    · right
      rw [hr] at hp
      refine ⟨rfl, rfl, rfl, ?_⟩
      rw [hp.front.pcReg, hpc]
      rfl
    · left
      simp

/-- Nothing retires without an instruction in EX and a JAL in ID. -/
lemma retired_of_idle (hx : ExIdle s.core) (hj : s.core.jumpIf = false) (c : CoreIn) :
    s.core.retired c = [] := by
  simp [Core.retired, hx.leaving, Core.jalShown, hj]

/-- Nothing in the front. -/
theorem step_empty (hv : Views s σ) (ifId : s.core.ifId = IfIdReg.bubble)
    (pcReg : s.core.pcReg = σ.pc) (hx : ExIdle s.core) (hfree : Free s)
    (hbuf : s.core.regfile.weBuf = true → ¬ s.core.portWrites) : CycleOk image 2 s f σ := by
  have hj : s.core.jumpIf = false := by simp [Core.jumpIf, ifId, IfIdReg.bubble]
  have hbr := hx.rests.redirect (s.fetchPins image f)
  have hlu := loadUseHazard_of_idle hfree hx.rests.exIsLoad (s.fetchPins image f)
  have hgo : s.core.stallBack (s.fetchPins image f) = false := hfree.go
  obtain ⟨hfd, hfx⟩ := fetch_flush hbr hj
  rw [hlu, Bool.false_and] at hfx
  have hfront : s.core.stallFront (s.fetchPins image f) = !f.ready := by
    rw [Core.stallFront_eq, hgo, hlu]
    rfl
  have hidEx : (s.fetchStep image f).core.idEx = decodedOf IfIdReg.bubble := by
    simp only [fetchStep, Core.step, IdExReg.step, hfx, hgo, Core.id, ifId]
    rfl
  have hifId : (s.fetchStep image f).core.ifId =
      s.core.ifId.step (s.core.stallFront (s.fetchPins image f))
        (s.core.flushIfid (s.fetchPins image f)) (s.core.fetched (s.fetchPins image f)) := rfl
  have hpc : (s.fetchStep image f).core.pcReg = _ := fetch_pcReg hbr hj
  have hbuf' : (s.fetchStep image f).core.regfile.weBuf = false :=
    Core.weBuf_step_of_noLink _ (Core.jalLinkWe_of_jumpIf hj)
  obtain ⟨hx', hwe⟩ := exIdle_of_decoded_bubble hidEx
  have hfree' : Free (s.fetchStep image f) :=
    (hfree.step hx.rests.exIsLoad hx.rests.exIsStore).1
  have hviews : Views (s.fetchStep image f) σ := hfree.views_idle hv hx hj hbuf
  cases hr : f.ready
  · rw [hfront, hr] at hpc
    refine ⟨0, 2, retired_of_idle hx hj _, ⟨hviews, ?_⟩, .inr ⟨hr, rfl, rfl, hpc⟩⟩
    refine .empty ?_ (hpc.trans pcReg) hx' hfree' (by simp [hbuf'])
    rw [hifId, hfd, hfront, hr]
    exact ifId
  · have hgo' : s.core.stallFront (s.fetchPins image f) = false := by rw [hfront, hr]; rfl
    rw [hgo'] at hpc
    refine ⟨0, 1, retired_of_idle hx hj _, ⟨hviews, ?_⟩, .inl (by omega)⟩
    refine .fetched ⟨?_, ?_⟩ hx' hwe hbuf' hfree'
    · rw [hifId, hfd, hgo']
      rw [Function.iterate_zero, id, ← pcReg]
      exact Core.fetched_pins s.core _ (instMem image) hgo' hfd
    · rw [hpc, pcReg]
      rfl

/-- An access in EX/MEM is answered in the next cycle. -/
lemma asked_step (hv : Views s σ) (hfront : FrontAt (instMem image) s.core σ.pc)
    (hx : ExIdle s.core) (hwe : s.core.idEx.exRegWriteEn = true)
    (hbuf : s.core.regfile.weBuf = false) (hn : instMem image σ.pc = nop) (hu : Under s)
    (hr : s.dmem.readyReg = false) : s.core.retired (s.fetchPins image f) = [] ∧
      Runs image 1 (s.fetchStep image f) σ := by
  obtain ⟨hj, -⟩ := nop_waits_for_nothing (s := s) (by rw [hfront.ifId]; exact hn)
    (s.fetchPins image f)
  have hs : s.core.stallBack (s.fetchPins image f) = true := hu.stalls hr
  obtain ⟨hfront', hidEx⟩ := hfront.fetch_wait (hx.rests.redirect _) hj hs
  refine ⟨retired_of_idle hx hj _, ?_, ?_⟩
  · exact hv.idle_of_access hu hx hj hbuf (fun hc => by simp [hs] at hc)
  · exact .served hfront' (hx.congr hidEx) (by rw [hidEx]; exact hwe)
      (Core.weBuf_step_of_noLink _ (Core.jalLinkWe_of_jumpIf hj)) hn (hu.step hr hx)

/-- The memory has answered it. -/
theorem step_served (hv : Views s σ) (hfront : FrontAt (instMem image) s.core σ.pc)
    (hx : ExIdle s.core) (hbuf : s.core.regfile.weBuf = false) (hn : instMem image σ.pc = nop)
    (hu : Served s) : CycleOk image 1 s f σ := by
  obtain ⟨hj, -⟩ := nop_waits_for_nothing (s := s) (by rw [hfront.ifId]; exact hn)
    (s.fetchPins image f)
  have hviews : Views (s.fetchStep image f) σ :=
    hv.idle_of_access hu.toUnder hx hj hbuf fun _ hl => hu.data hl
  obtain ⟨hem, hp, -⟩ := pass_nop hfront hn (hx.rests.redirect _) (hu.go hx) hviews
  exact hp.cycleOk rfl (retired_of_idle hx hj _) hem (hu.step hx) hfront.pcReg

/-- The instruction in ID goes to EX, where it finds what the cycle before it has left. -/
lemma enter_full (hS : Scheduled image) (hfront : FrontAt (instMem image) s.core σ.pc)
    (hnop : instMem image σ.pc ≠ nop) (hready : f.ready = true)
    (hbr : s.core.branchHazardEx (s.fetchPins image f) = false)
    (hj : s.core.jumpIf = false) (hlu : s.core.loadUseHazard (s.fetchPins image f) = false)
    (hs : s.core.stallBack (s.fetchPins image f) = false)
    (hv : Views (s.fetchStep image f) σ) (hfree : Free (s.fetchStep image f))
    (hw : (s.fetchStep image f).core.memWb.wbIsLoad = false)
    (forward : (s.fetchStep image f).core.registerEx.rdReg ≠ 0#5 →
      (s.fetchStep image f).core.registerEx.rdDataReg =
        σ.regs (s.fetchStep image f).core.registerEx.rdReg)
    (tag : Core.writesBack (s.fetchStep image f).core.exWb →
      (s.fetchStep image f).core.registerEx.rdReg = (s.fetchStep image f).core.exWb.wbRd) :
    Runs image 0 (s.fetchStep image f) σ := by
  obtain ⟨hfront', hidEx⟩ := hfront.fetch_go hbr hj hlu hs
  rw [hready] at hfront'
  obtain ⟨i, hi⟩ := hS.decodes σ.pc
  have hjump := Core.jumpIf_eq hfront.ifId hi
  rw [hj] at hjump
  have hr1 : (s.fetchStep image f).core.regfile.raddr1Q = s.core.id.rs1 := rfl
  have hr2 : (s.fetchStep image f).core.regfile.raddr2Q = s.core.id.rs2 := rfl
  refine ⟨hv, .full hfront' hidEx ?_ hnop ?_ forward tag ?_ ?_ hfree hw⟩
  · exact Core.weBuf_step_of_noLink _ (Core.jalLinkWe_of_jumpIf hj)
  · intro i' hi'
    rw [hi] at hi'
    cases hi'
    exact hjump.symm
  · rw [hr1, hidEx, Core.id, hfront.ifId]
    rfl
  · rw [hr2, hidEx, Core.id, hfront.ifId]
    rfl

/-- What the forwarding register takes in a cycle in which the front goes on. -/
lemma rdReg_step (hbr : s.core.branchHazardEx (s.fetchPins image f) = false)
    (hgo : s.core.stallFront (s.fetchPins image f) = false) :
    ((s.fetchStep image f).core.registerEx.rdReg,
        (s.fetchStep image f).core.registerEx.rdDataReg) =
      if s.core.registerEx.lstate = .release then
        (s.core.registerEx.rdRegLoad, s.core.registerEx.rdDataLoadSaved)
      else if s.core.idEx.exIsLoad = false ∧ s.core.idEx.exRegWriteEn = true then
        (s.core.idEx.exRd, (s.core.exIn (s.fetchPins image f)).exResult)
      else (s.core.registerEx.rdReg, s.core.registerEx.rdDataReg) := by
  have hstep := s.core.step_rdReg (i := s.fetchPins image f) rfl
  rw [hbr, hgo] at hstep
  exact hstep

/-- **A JAL in ID** is the next instruction of the interpreter. -/
lemma jal_in_id (hS : Scheduled image) (hfront : FrontAt (instMem image) s.core σ.pc)
    (hj : s.core.jumpIf = true) :
    s.core.jalShown = σ.shown image ∧ s.core.pcJumpIf = (σ.step image).pc ∧
      (σ.step image).mem = σ.mem ∧ ∀ r, r ≠ 0#5 → (σ.step image).regs r =
        if s.core.jalLinkWe = true ∧ s.core.id.rd = r then s.core.ifId.idPcPlus4
        else σ.regs r := by
  obtain ⟨i, hi⟩ := hS.decodes σ.pc
  have hjal : i.isJal = true := by rw [← Core.jumpIf_eq hfront.ifId hi, hj]
  have hm : i.memFree = true := by
    cases i <;> simp [Instr.isJal] at hjal
    rfl
  have hn : σ.fetch image ≠ nopWord := by
    intro hc
    have hi' : decode (σ.fetch image) = some i := hi
    rw [hc, MemState.decode_nopWord] at hi'
    cases hi'
    cases hjal
  obtain ⟨hrec, htgt, hregs⟩ : s.core.jalRec = σ.toState.recOf image i ∧
      s.core.pcJumpIf = (σ.toState.step image).pc ∧
      ∀ r, r ≠ 0#5 → (σ.toState.step image).regs r =
        if s.core.id.rd = r then s.core.ifId.idPcPlus4 else σ.regs r :=
    Core.jalRec_eq hfront.ifId hi hjal
  have hstep : σ.step image = { σ.toState.step image with mem := σ.mem } :=
    MemState.step_of_memFree image hi hm
  refine ⟨?_, by rw [hstep]; exact htgt, by rw [hstep], ?_⟩
  · rw [σ.shown_of_decode image hi hn]
    simp [Core.jalShown, hj, hrec]
  · intro r hr
    rw [hstep, hregs r hr]
    by_cases hd : s.core.id.rd = r
    · simp [Core.jalLinkWe, hj, hd, hr]
    · simp [hd]

/-- The first instruction in ID, nothing in EX. -/
theorem step_fetched (hS : Scheduled image) (hok : s.FetchOk f) (hv : Views s σ)
    (hfront : FrontAt (instMem image) s.core σ.pc) (hx : ExIdle s.core)
    (hwe : s.core.idEx.exRegWriteEn = true) (hbuf : s.core.regfile.weBuf = false)
    (hfree : Free s) : CycleOk image 1 s f σ := by
  obtain ⟨i, hi⟩ := hS.decodes σ.pc
  have hbr := hx.rests.redirect (s.fetchPins image f)
  have hlu := loadUseHazard_of_idle hfree hx.rests.exIsLoad (s.fetchPins image f)
  have hgo : s.core.stallBack (s.fetchPins image f) = false := hfree.go
  obtain ⟨hfree', hwb⟩ : Free (s.fetchStep image f) ∧
      (s.fetchStep image f).core.memWb.wbIsLoad = false :=
    hfree.step hx.rests.exIsLoad hx.rests.exIsStore
  have hjump := Core.jumpIf_eq hfront.ifId hi
  cases hj : i.isJal
  · rw [hj] at hjump
    have hviews : Views (s.fetchStep image f) σ :=
      hfree.views_idle hv hx hjump (by simp [hbuf])
    by_cases hn : instMem image σ.pc = nop
    · obtain ⟨hem, hp, -⟩ := pass_nop hfront hn hbr hgo hviews
      exact hp.cycleOk rfl (retired_of_idle hx hjump _) hem hfree' hfront.pcReg
    · have hready : f.ready = true := by
        by_contra hc
        have hnop := hok (by simpa using hc)
        rw [hfront.ifId] at hnop
        exact hn hnop
      have hfgo : s.core.stallFront (s.fetchPins image f) = false := by
        rw [Core.stallFront_eq, hgo, hlu]
        simp [fetchPins, hready]
      have hreg := rdReg_step hbr hfgo
      refine ⟨0, 0, retired_of_idle hx hjump _, ?_, .inl (by omega)⟩
      refine enter_full hS hfront hn hready hbr hjump hlu hgo hviews hfree' hwb ?_ ?_
      · -- The value of a load in MEM/WB is passed on; a bubble clears the register.
        intro h0
        cases hl : s.core.memWb.wbIsLoad
        · rw [if_neg (by simp [hfree.lstate, hl]), if_pos ⟨hx.rests.exIsLoad, hwe⟩] at hreg
          simp only [Prod.mk.injEq, hx.rests.exRd] at hreg
          exact absurd hreg.1 h0
        · rw [if_pos (by simp [hfree.lstate, hl])] at hreg
          simp only [Prod.mk.injEq, (hfree.saved hl).1, (hfree.saved hl).2] at hreg
          rw [hreg.1] at h0 ⊢
          rw [hreg.2, Function.iterate_zero, id, ← hv.regs _ h0, regView, hfree.memReadEn,
            Core.settled_of_load hl]
          simp
      · intro hw
        rw [fetch_exWb] at hw
        exact absurd hx.rests.exRd hw.2
  · -- A JAL is executed in ID.
    rw [hj] at hjump
    obtain ⟨hshown, htgt, hmem, hregs⟩ := jal_in_id hS hfront hjump
    have hr : s.core.redirect (s.fetchPins image f) = true := by simp [Core.redirect, hjump]
    obtain ⟨hifId, hidEx⟩ := fetch_redirect hgo hr
    have hnext := Core.jalr_branchTaken_of_no_hazard hbr
    refine ⟨1, 2, ?_, ⟨?_, .empty hifId ?_ (exIdle_of_bubble hidEx) hfree' ?_⟩, .inl (by omega)⟩
    · rw [emitted_one, ← hshown, Core.retired, hx.leaving]
      rfl
    · refine ⟨?_, ?_, hv.fresh.step _, MemState.step_regs_zero image hv.zero⟩
      · intro r hr0
        rw [hfree.regView_step_of_idle hx (fun hc => by simp [hbuf] at hc) hr0,
          Function.iterate_one, hregs r hr0, hv.regs r hr0]
      · rw [hx.memView_step, Function.iterate_one, hmem]
        exact hv.mem
    · have hpc : (s.fetchStep image f).core.pcReg = s.core.pcNext (s.fetchPins image f) := rfl
      rw [hpc, fetchPins, Core.pcNext_pins, ← fetchPins, hnext.1, hjump, Function.iterate_one]
      exact htgt
    · rintro - ⟨-, hw⟩
      refine hw ?_
      simp only [Core.regFileIn, Core.wbIn, WbIn.wbWaddrOut, hwb, fetch_exWb]
      exact hx.rests.exRd

/-! ### An instruction in EX -/

section Full

variable (hv : Views s σ)
  (idEx : s.core.idEx = decodedOf (fetchedAt (instMem image) σ.pc))
  (weBuf : s.core.regfile.weBuf = false) (hfree : Free s)
  (wbIsLoad : s.core.memWb.wbIsLoad = false)
  (forward : s.core.registerEx.rdReg ≠ 0#5 →
    s.core.registerEx.rdDataReg = σ.regs s.core.registerEx.rdReg)
  (tag : Core.writesBack s.core.exWb → s.core.registerEx.rdReg = s.core.exWb.wbRd)
  (raddr1 : s.core.regfile.raddr1Q = s.core.idEx.exRs1)
  (raddr2 : s.core.regfile.raddr2Q = s.core.idEx.exRs2)
include hv idEx weBuf hfree wbIsLoad forward tag raddr1 raddr2

/-- It has the operands of the interpreter. -/
lemma hasOperands_of_full (hi : decode (instMem image σ.pc) = some i) (hj : i.isJal = false) :
    HasOperands image s (s.fetchPins image f) σ i := by
  have hop : ∀ rs, (s.core.exIn (s.fetchPins image f)).dataFinal rs (s.core.regfile.regs rs) =
      σ.regs rs := fun rs => operand_eq hv hfree wbIsLoad weBuf forward tag _
  have hp1 : (s.core.exIn (s.fetchPins image f)).rs1Data =
      s.core.regfile.regs s.core.idEx.exRs1 := by
    rw [← raddr1]
    exact hv.fresh.port1
  have hp2 : (s.core.exIn (s.fetchPins image f)).rs2Data =
      s.core.regfile.regs s.core.idEx.exRs2 := by
    rw [← raddr2]
    exact hv.fresh.port2
  refine ⟨idEx, hi, hj, ?_, ?_, ?_⟩
  · simp [ExIn.instrValidFinal, ExIn.memReqBlock, Core.exIn, hfree.slock, idEx, decodedOf,
      fetchedAt, IdExReg.ofId]
  · rw [ExIn.rs1DataFinal, hp1]
    exact hop s.core.idEx.exRs1
  · rw [ExIn.rs2DataFinal, hp2]
    exact hop s.core.idEx.exRs2

end Full

variable {c : CoreIn}

/-- What it retires. -/
lemma HasOperands.retired_eq (h : HasOperands image s c σ i) (hn : instMem image σ.pc ≠ nop)
    (hs : s.core.stallBack c = false) (hj : s.core.jumpIf = false) :
    s.core.retired c = σ.shown image := by
  have hv : s.core.idEx.exInstrValid = true := by rw [h.idEx]; rfl
  have hne : (s.core.idEx.exInstr != nop) = true := by
    rw [h.idEx]
    exact bne_iff_ne.mpr hn
  rw [σ.shown_of_decode image h.decode hn, ← h.leaveRec_eq]
  simp [Core.retired, Core.leaving, Core.jalShown, hv, hs, hne, hj]

/-- The forwarding register behind an instruction that is no access. -/
lemma HasOperands.forward_step (h : HasOperands image s (s.fetchPins image f) σ i)
    (hv : Views s σ) (hv' : Views (s.fetchStep image f) (σ.step image)) (hfree : Free s)
    (hw : s.core.memWb.wbIsLoad = false) (weBuf : s.core.regfile.weBuf = false)
    (hm : i.memFree = true) (hj : s.core.jumpIf = false)
    (hbr : s.core.branchHazardEx (s.fetchPins image f) = false)
    (hgo : s.core.stallFront (s.fetchPins image f) = false)
    (forward : s.core.registerEx.rdReg ≠ 0#5 →
      s.core.registerEx.rdDataReg = σ.regs s.core.registerEx.rdReg) :
    ((s.fetchStep image f).core.registerEx.rdReg ≠ 0#5 →
      (s.fetchStep image f).core.registerEx.rdDataReg =
        (σ.step image).regs (s.fetchStep image f).core.registerEx.rdReg) ∧
    (Core.writesBack (s.fetchStep image f).core.exWb →
      (s.fetchStep image f).core.registerEx.rdReg = (s.fetchStep image f).core.exWb.wbRd) := by
  obtain ⟨-, hload, hstore, -⟩ := h.kind
  have hl : s.core.idEx.exIsLoad = false := by
    rw [hload]
    cases i <;> first | rfl | cases hm
  have hread : (s.core.exIn (s.fetchPins image f)).memReadEn = false := by
    rw [h.computes.memReadEn, ← hload, hl]
  have hreg := rdReg_step hbr hgo
  have hview : ∀ r, r ≠ 0#5 → (σ.step image).regs r =
      if s.core.idEx.exRegWriteEn = true ∧ s.core.idEx.exRd = r then
        (s.core.exIn (s.fetchPins image f)).exResult
      else σ.regs r := by
    intro r hr
    rw [← hv'.regs r hr, hfree.regView_step (fun hc => by simp [weBuf] at hc) hr, hread,
      Core.jalLinkWe_of_jumpIf hj, hv.regs r hr]
    simp
  rw [if_neg (by simp [hfree.lstate, hw])] at hreg
  constructor
  · intro h0
    by_cases hwe : s.core.idEx.exRegWriteEn = true
    · rw [if_pos ⟨hl, hwe⟩] at hreg
      simp only [Prod.mk.injEq] at hreg
      rw [hreg.1] at h0 ⊢
      rw [hreg.2, hview _ h0, if_pos ⟨hwe, rfl⟩]
    · rw [if_neg fun hc => hwe hc.2] at hreg
      simp only [Prod.mk.injEq] at hreg
      rw [hreg.1] at h0 ⊢
      rw [hreg.2, hview _ h0, if_neg fun hc => hwe hc.1]
      exact forward h0
  · intro hwb
    rw [fetch_exWb] at hwb ⊢
    rw [if_pos ⟨hl, hwb.1⟩] at hreg
    exact (Prod.mk.inj hreg).1

/-- **An instruction in EX**, the next one in ID. -/
theorem step_full (hS : Scheduled image) (hok : s.FetchOk f) (hv : Views s σ)
    (hO : HasOperands image s (s.fetchPins image f) σ i) (hfit : σ.Fits i)
    (hfront : FrontAt (instMem image) s.core (σ.pc + 4#32)) (weBuf : s.core.regfile.weBuf = false)
    (hnop : instMem image σ.pc ≠ nop) (hfree : Free s) (hw : s.core.memWb.wbIsLoad = false)
    (forward : s.core.registerEx.rdReg ≠ 0#5 →
      s.core.registerEx.rdDataReg = σ.regs s.core.registerEx.rdReg) :
    CycleOk image 0 s f σ := by
  obtain ⟨-, hload, hstore, -⟩ := hO.kind
  have hgo : s.core.stallBack (s.fetchPins image f) = false := hfree.go
  obtain ⟨k, hk⟩ := hS.decodes (σ.pc + 4#32)
  have hj : s.core.jumpIf = false := by
    rw [Core.jumpIf_eq hfront.ifId hk]
    by_contra hc
    exact hnop (hS.nop_before hk (by simpa using hc))
  have hviews : Views (s.fetchStep image f) (σ.step image) := hO.views_step hv hfree weBuf hj hfit
  have hbuf' : (s.fetchStep image f).core.regfile.weBuf = false :=
    Core.weBuf_step_of_noLink _ (Core.jalLinkWe_of_jumpIf hj)
  have hret := hO.retired_eq hnop hgo hj
  have hshape : FrontShape s.core := ⟨.inr ⟨_, _, hfront.ifId⟩, .inr ⟨_, _, hO.idEx⟩⟩
  have hacc : i.memFree = false → s.core.idEx.exIsLoad = true ∨ s.core.idEx.exIsStore = true := by
    intro hm
    rw [hload, hstore]
    cases i <;> simp [Instr.memFree, Instr.isLoad, Instr.isStore] at hm ⊢
  have hfreed : i.memFree = true → Free (s.fetchStep image f) ∧
      (s.fetchStep image f).core.memWb.wbIsLoad = false := by
    intro hm
    refine hfree.step ?_ ?_
    · rw [hload]
      cases i <;> first | rfl | cases hm
    · rw [hstore]
      cases i <;> first | rfl | cases hm
  have hpc : (s.fetchStep image f).core.pcReg = s.core.pcNext (s.fetchPins image f) := rfl
  have hnext := hO.nextPc
  cases hbr : s.core.branchHazardEx (s.fetchPins image f)
  · -- EX redirects nothing, and the instruction in ID is the next one.
    have hno := Core.jalr_branchTaken_of_no_hazard hbr
    rw [hno.1, hno.2] at hnext
    simp only [Bool.false_eq_true, if_false] at hnext
    rw [hnext] at hfront
    by_cases hn : instMem image (σ.step image).pc = nop
    · obtain ⟨hem, hp, hpcs⟩ := pass_nop hfront hn hbr hgo hviews
      have hret' : s.core.retired (s.fetchPins image f) =
          emitted (MemState.step image) (MemState.shown image) (f.steps + 1) σ := by
        rw [emitted_succ, hem, List.append_nil, hret]
      cases hm : i.memFree
      · obtain ⟨hu, hr⟩ : Under (s.fetchStep image f) ∧
            (s.fetchStep image f).dmem.readyReg = false :=
          hfree.step_access hw (hacc hm) hshape.not_load_and_store hO.valid hbr
        refine ⟨f.steps + 1, 2, hret', ⟨hp.views, ?_⟩, .inl (by omega)⟩
        refine .asked hp.front hp.exIdle hp.exRegWriteEn hp.weBuf ?_ hu hr
        obtain ⟨h1, h2⟩ := hS.nops hO.decode hm
        rw [hnext] at h1 h2
        rw [Function.iterate_succ_apply]
        rcases hpcs with hpcs | hpcs
        · rw [hpcs]
          exact h1
        · rw [hpcs]
          exact h2
      · refine ⟨f.steps + 1, 1, hret', ⟨hp.views, ?_⟩, .inl (by omega)⟩
        exact .fetched hp.front hp.exIdle hp.exRegWriteEn hp.weBuf (hfreed hm).1
    · have hm : i.memFree = true := by
        by_contra hc
        refine hn ?_
        rw [← hnext]
        exact (hS.nops hO.decode (by simpa using hc)).1
      have hready : f.ready = true := by
        by_contra hc
        have hstop := hok (by simpa using hc)
        rw [hfront.ifId] at hstop
        exact hn hstop
      obtain ⟨hfree', hwb⟩ := hfreed hm
      have hlu : s.core.loadUseHazard (s.fetchPins image f) = false := by
        refine loadUseHazard_of_idle hfree ?_ _
        rw [hload]
        cases i <;> first | rfl | cases hm
      have hfgo : s.core.stallFront (s.fetchPins image f) = false := by
        rw [Core.stallFront_eq, hgo, hlu]
        simp [fetchPins, hready]
      obtain ⟨hfwd, htag⟩ := hO.forward_step hv hviews hfree hw weBuf hm hj hbr hfgo forward
      refine ⟨1, 0, by rw [hret, emitted_one], ?_, .inl (by omega)⟩
      exact enter_full hS hfront hn hready hbr hj hlu hgo hviews hfree' hwb hfwd htag
  · -- EX redirects, and the instruction in ID is dropped.
    have hm : i.memFree = true := by
      by_contra hc
      have hno := hshape.branchHazardEx_of_access (hacc (by simpa using hc)) (s.fetchPins image f)
      rw [hbr] at hno
      cases hno
    have hr : s.core.redirect (s.fetchPins image f) = true := by simp [Core.redirect, hbr]
    obtain ⟨hifId, hidEx⟩ := fetch_redirect hgo hr
    refine ⟨1, 2, by rw [hret, emitted_one], ⟨hviews, ?_⟩, .inl (by omega)⟩
    refine .empty hifId ?_ (exIdle_of_bubble hidEx) (hfreed hm).1 (by simp [hbuf'])
    have hsome : (s.core.exIn (s.fetchPins image f)).jalr = true ∨
        (s.core.exIn (s.fetchPins image f)).branchTaken = true := by
      simpa [Core.branchHazardEx, HazardIn.branchHazardEx, Core.hazard, or_comm] using hbr
    rw [hpc, fetchPins, Core.pcNext_pins, ← fetchPins, hj, Function.iterate_one, ← hnext]
    rcases hsome with hs | hs
    · simp [hs]
    · by_cases hs' : (s.core.exIn (s.fetchPins image f)).jalr = true <;> simp [hs, hs']

/-- **One cycle of a scheduled program.** -/
theorem Runs.step (hS : Scheduled image) (hok : s.FetchOk f) (h : Runs image w s σ)
    (hfit : ∀ i, decode (instMem image σ.pc) = some i → σ.Fits i) : CycleOk image w s f σ := by
  obtain ⟨hv, hstage⟩ := h
  cases hstage with
  | empty ifId pcReg exIdle free buffered => exact step_empty hv ifId pcReg exIdle free buffered
  | fetched front exIdle exRegWriteEn weBuf free =>
    exact step_fetched hS hok hv front exIdle exRegWriteEn weBuf free
  | asked front exIdle exRegWriteEn weBuf inId under ready =>
    obtain ⟨hret, hR⟩ := asked_step hv front exIdle exRegWriteEn weBuf inId under ready
    exact ⟨0, 1, hret, hR, .inl (by omega)⟩
  | served front exIdle exRegWriteEn weBuf inId served =>
    exact step_served hv front exIdle weBuf inId served
  | full front idEx weBuf notNop notJal forward tag raddr1 raddr2 free wbIsLoad =>
    obtain ⟨i, hi⟩ := hS.decodes σ.pc
    have hO : HasOperands image s (s.fetchPins image f) σ i :=
      hasOperands_of_full hv idEx weBuf free wbIsLoad forward tag raddr1 raddr2 hi (notJal i hi)
    exact step_full hS hok hv hO (hfit i hi) front weBuf notNop free wbIsLoad forward

end SocBram

end RiscvSoc.Rtl
