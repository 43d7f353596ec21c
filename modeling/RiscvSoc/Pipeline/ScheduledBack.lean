import RiscvSoc.Pipeline.Scheduled

/-!
# The back of the pipeline under a scheduled program

What a cycle does to an access behind EX, to the registers and to the memory, seen with what is
about to reach them.
-/

namespace RiscvSoc.Rtl

open Isa Sync

namespace SocBram

variable {image : BitVec 10 → BitVec 32} {s : SocBram} {f : ImemIn} {pc : BitVec 32}

/-! ### A cycle -/

/-- What holds the back of the pipeline. -/
lemma fetch_stallBack : s.core.stallBack (s.fetchPins image f) =
    (((s.core.registerEx.lstate == .busy || s.core.registerEx.slock) && s.core.idEx.exIsStore) ||
      (s.core.dmemValid && !s.dmem.readyReg) || s.core.registerEx.loadSkipStale) :=
  s.core.stallBack_eq _

lemma fetch_exMem : (s.fetchStep image f).core.exMem =
    if s.core.stallBack (s.fetchPins image f) then s.core.exMem
    else s.core.exMemIn (s.fetchPins image f) := rfl

lemma fetch_memWb : (s.fetchStep image f).core.memWb =
    if s.core.stallBack (s.fetchPins image f) then s.core.memWb
    else s.core.memWbIn (s.fetchPins image f) := rfl

lemma fetch_exWb : (s.fetchStep image f).core.exWb = s.core.exWbIn (s.fetchPins image f) :=
  Core.exWb_step rfl

lemma fetch_registerEx : (s.fetchStep image f).core.registerEx =
    s.core.registerEx.step (s.core.registerExIn (s.fetchPins image f)) := rfl

lemma fetch_ready : (s.fetchStep image f).dmem.readyReg = s.core.dmemValid := rfl

variable (image f) in
lemma fetch_wires (s : SocBram) :
    s.core.Wires (s.fetchPins image f) s.dmem.readyReg s.dmem.dataOut := Core.wires rfl

/-! ### The memory -/

lemma fetch_word : (s.fetchStep image f).dmem.word = s.memView := by
  unfold memView
  split_ifs with hw
  · exact DataMem.word_step_of_write (i := s.dmemIn) rfl hw
  · have hw' : s.dmemIn.writeEn = false := Bool.eq_false_iff.mpr hw
    exact DataMem.word_step_of_not_write hw'

/-- **The memory changes with a store that leaves EX.** -/
theorem memView_step : (s.fetchStep image f).memView =
    if s.core.stallBack (s.fetchPins image f) = false ∧
        (s.core.exIn (s.fetchPins image f)).memWriteEn = true then
      Function.update s.memView (wordAddr (s.core.exIn (s.fetchPins image f)).memAddrOut)
        (s.core.exIn (s.fetchPins image f)).memWdata
    else s.memView := by
  rw [memView, fetch_word, fetch_exMem]
  cases hs : s.core.stallBack (s.fetchPins image f)
  · simp [Core.exMemIn]
  · cases hw : s.core.exMem.memWriteEn <;> simp [memView, hw, Function.update_idem]

/-! ### EX without an instruction -/

lemma exIdle_of_bubble {s : Core} (h : s.idEx = IdExReg.bubble) : ExIdle s :=
  ⟨by rw [h]; rfl, .inr (by rw [h]; exact ⟨rfl, rfl, rfl, rfl⟩)⟩

lemma exIdle_of_decoded_bubble {s : Core} (h : s.idEx = decodedOf IfIdReg.bubble) :
    ExIdle s ∧ s.idEx.exRegWriteEn = true :=
  ⟨⟨by rw [h]; rfl, .inr (by rw [h]; exact ⟨rfl, rfl, rfl, rfl⟩)⟩, by rw [h]; rfl⟩

lemma exIdle_of_nop {s : Core} {M : BitVec 32 → BitVec 32}
    (h : s.idEx = decodedOf (fetchedAt M pc)) (hn : M pc = nop) :
    ExIdle s ∧ s.idEx.exRegWriteEn = true := by
  rw [fetchedAt, hn] at h
  exact ⟨⟨by rw [h]; rfl, .inl ⟨pc, h⟩⟩, by rw [h]; rfl⟩

section Idle

variable {c : CoreIn} (h : ExIdle s.core)
include h

lemma ExIdle.rests : s.core.ExRests := h.kind.elim exRests_of_nop exRests_of_bubble

lemma ExIdle.congr {s' : SocBram} (he : s'.core.idEx = s.core.idEx) : ExIdle s'.core := by
  refine ⟨by rw [he]; exact h.exInstr, ?_⟩
  rw [Core.NopInEx, he]
  exact h.kind

lemma ExIdle.leaving : s.core.leaving c = [] := by simp [Core.leaving, h.exInstr]

lemma ExIdle.no_access : (s.core.exIn c).memReadEn = false ∧ (s.core.exIn c).memWriteEn = false := by
  have hl : (s.core.exIn c).exIsLoad = false := h.rests.exIsLoad
  have hs : (s.core.exIn c).exIsStore = false := h.rests.exIsStore
  simp [ExIn.memReadEn, ExIn.memWriteEn, hl, hs]

end Idle

/-! ### An access, cycle after cycle -/

lemma Free.not_busy (h : Free s) : (s.core.registerEx.lstate == .busy) = false := by
  rw [h.lstate]
  cases s.core.memWb.wbIsLoad <;> rfl

lemma Free.dmemValid (h : Free s) : s.core.dmemValid = false := by
  simp [Core.dmemValid, h.memReadEn, h.memWriteEn]

/-- Nothing holds the back. -/
lemma Free.go (h : Free s) : s.core.stallBack (s.fetchPins image f) = false := by
  rw [fetch_stallBack, h.not_busy, h.slock, h.skip, h.dmemValid]
  rfl

/-- Without an access in EX none comes. -/
lemma Free.step (h : Free s) (hl : s.core.idEx.exIsLoad = false)
    (hst : s.core.idEx.exIsStore = false) :
    Free (s.fetchStep image f) ∧ (s.fetchStep image f).core.memWb.wbIsLoad = false := by
  obtain ⟨hflush, hload, hstore, hready, hsucc, -, -⟩ := fetch_wires image f s
  have hwb : (s.fetchStep image f).core.memWb.wbIsLoad = false := by
    rw [fetch_memWb, h.go]
    exact h.memReadEn
  have hl' : (s.core.exIn (s.fetchPins image f)).exIsLoad = false := hl
  have hst' : (s.core.exIn (s.fetchPins image f)).exIsStore = false := hst
  refine ⟨⟨?_, ?_, ?_, ?_, ?_, by simp [hwb]⟩, hwb⟩
  · rw [hwb, fetch_registerEx]
    simp only [RegisterEx.step, RegisterEx.lstateStep, hload, hl, h.lstate]
    cases s.core.memWb.wbIsLoad <;> simp
  · rw [fetch_registerEx]
    simp [RegisterEx.step, RegisterEx.slockNext, hstore, hst, h.slock]
  · rw [fetch_registerEx]
    simp [RegisterEx.step, h.not_busy]
  · rw [fetch_exMem, h.go]
    simp [Core.exMemIn, ExIn.memReadEn, hl']
  · rw [fetch_exMem, h.go]
    simp [Core.exMemIn, ExIn.memWriteEn, hst']

/-- An access in EX goes on to EX/MEM. -/
lemma Free.step_access (h : Free s) (hw : s.core.memWb.wbIsLoad = false)
    (hacc : s.core.idEx.exIsLoad = true ∨ s.core.idEx.exIsStore = true)
    (hone : s.core.idEx.exIsLoad = true → s.core.idEx.exIsStore = false)
    (hv : (s.core.exIn (s.fetchPins image f)).instrValidFinal = true)
    (hbr : s.core.branchHazardEx (s.fetchPins image f) = false) :
    Under (s.fetchStep image f) ∧ (s.fetchStep image f).dmem.readyReg = false := by
  obtain ⟨hflush, hload, hstore, hready, hsucc, hrd, -⟩ := fetch_wires image f s
  rw [hbr] at hflush
  rw [h.memReadEn, Bool.and_false] at hsucc
  have hidle : s.core.registerEx.lstate = .idle := by simp [h.lstate, hw]
  have hr : (s.fetchStep image f).core.exMem.memReadEn = s.core.idEx.exIsLoad := by
    rw [fetch_exMem, h.go]
    simp [Core.exMemIn, ExIn.memReadEn, hv]
    rfl
  have hwr : (s.fetchStep image f).core.exMem.memWriteEn = s.core.idEx.exIsStore := by
    rw [fetch_exMem, h.go]
    simp [Core.exMemIn, ExIn.memWriteEn, hv]
    rfl
  have hd : (s.fetchStep image f).core.exMem.rd = s.core.idEx.exRd := by
    rw [fetch_exMem, h.go]
    rfl
  refine ⟨⟨?_, ?_, ?_, ?_, ?_⟩, by rw [fetch_ready, h.dmemValid]⟩
  · rw [Core.dmemValid, hr, hwr, Bool.or_comm, Bool.or_eq_true]
    exact hacc
  · rw [hr, hwr]
    exact hone
  · rw [hr, fetch_registerEx]
    simp [RegisterEx.step, RegisterEx.lstateStep, hflush, hidle, hload]
  · rw [fetch_registerEx]
    simp [RegisterEx.step, hidle]
  · rw [hr, hd, fetch_registerEx]
    intro hl
    simp [RegisterEx.step, RegisterEx.captureLate, hflush, hsucc, hidle, hload, hrd, hl]

/-- The memory takes a cycle to answer. -/
lemma Under.stalls (h : Under s) (hr : s.dmem.readyReg = false) :
    s.core.stallBack (s.fetchPins image f) = true := by
  simp [fetch_stallBack, h.valid, hr]

lemma Under.step (h : Under s) (hr : s.dmem.readyReg = false) (hx : ExIdle s.core) :
    Served (s.fetchStep image f) := by
  obtain ⟨hflush, hload, hstore, hready, hsucc, hrd, -⟩ := fetch_wires image f s
  rw [hx.rests.redirect] at hflush
  rw [hx.rests.exIsLoad] at hload
  rw [hr] at hready
  rw [hr, Bool.false_and] at hsucc
  have hexMem : (s.fetchStep image f).core.exMem = s.core.exMem := by
    rw [fetch_exMem, h.stalls hr]
    rfl
  refine ⟨⟨?_, ?_, ?_, ?_, ?_⟩, ?_, ?_, ?_⟩
  · rw [Core.dmemValid, hexMem]
    exact h.valid
  · rw [hexMem]
    exact h.single
  · rw [hexMem, fetch_registerEx]
    simp only [RegisterEx.step, RegisterEx.lstateStep, h.lstate]
    cases s.core.exMem.memReadEn <;>
      simp [hflush, hload, hsucc, hready, RegisterEx.staleReady, RegisterEx.lateReady]
  · rw [fetch_registerEx]
    simp [RegisterEx.step, RegisterEx.staleReady, hsucc]
  · rw [hexMem, fetch_registerEx]
    intro hl
    simp [RegisterEx.step, RegisterEx.captureLate, hflush, hsucc, hready, hload, h.rdRegLoad hl]
  · rw [fetch_ready, h.valid]
  · rw [fetch_registerEx]
    exact hready
  · rw [hexMem]
    intro hl
    have hvalid : s.dmemIn.valid = true := h.valid
    have hrn : s.dmemIn.readEn = true := hl
    have hsz : (s.fetchStep image f).dmem.sizeQ = memSizeWord := by
      simp [fetchStep, DataMem.step, hvalid, hrn]
      rfl
    rw [DataMem.dataOut_of_word hsz, fetch_word, memView, h.single hl]
    simp [fetchStep, DataMem.step, hvalid, hrn]
    rfl

/-- The answer lets it go. -/
lemma Served.go (h : Served s) (hx : ExIdle s.core) :
    s.core.stallBack (s.fetchPins image f) = false := by
  simp [fetch_stallBack, h.ready, h.skip, hx.rests.exIsStore]

lemma Served.step (h : Served s) (hx : ExIdle s.core) : Free (s.fetchStep image f) := by
  obtain ⟨hflush, hload, hstore, hready, hsucc, hrd, hdata⟩ := fetch_wires image f s
  rw [hx.rests.redirect] at hflush
  rw [hx.rests.exIsLoad] at hload
  rw [hx.rests.exIsStore] at hstore
  rw [h.ready] at hready
  rw [h.ready, Bool.true_and] at hsucc
  have hacc := hx.no_access (c := s.fetchPins image f)
  have hgo : s.core.stallBack (s.fetchPins image f) = false := h.go hx
  have hwb : (s.fetchStep image f).core.memWb = s.core.memWbIn (s.fetchPins image f) := by
    rw [fetch_memWb, hgo]
    rfl
  refine ⟨?_, ?_, ?_, ?_, ?_, ?_⟩
  · have hl : (s.fetchStep image f).core.memWb.wbIsLoad = s.core.exMem.memReadEn := by
      rw [hwb]
      rfl
    rw [hl, fetch_registerEx]
    simp only [RegisterEx.step, RegisterEx.lstateStep, h.lstate]
    cases hm : s.core.exMem.memReadEn <;> simp [hflush, hload, hsucc, hm, h.late]
  · rw [fetch_registerEx]
    simp [RegisterEx.step, RegisterEx.slockNext, hstore, hready]
  · rw [fetch_registerEx]
    simp [RegisterEx.step, RegisterEx.staleReady, h.late]
  · rw [fetch_exMem, hgo]
    exact hacc.1
  · rw [fetch_exMem, hgo]
    exact hacc.2
  · rw [hwb, fetch_registerEx]
    intro hl
    have hm : s.core.exMem.memReadEn = true := hl
    rw [hm] at hsucc
    constructor
    · simpa [RegisterEx.step, hflush, hsucc, Core.memWbIn] using h.rdRegLoad hm
    · simp [RegisterEx.step, hflush, hsucc, hdata, Core.memWbIn, Core.memLoadDataStub, hm]
      rfl

/-! ### The registers -/

/-- What a cycle brings to the registers when no access is in EX/MEM. -/
theorem Free.regView_step (h : Free s)
    (hb : s.core.regfile.weBuf = true → s.core.jalLinkWe = false ∧ ¬ s.core.portWrites)
    {r : BitVec 5} (hr : r ≠ 0#5) :
    (s.fetchStep image f).regView r =
      if (s.core.exIn (s.fetchPins image f)).memReadEn = true ∧ s.core.idEx.exRd = r then
        s.memView (wordAddr (s.core.exIn (s.fetchPins image f)).memAddrOut)
      else if s.core.idEx.exRegWriteEn = true ∧ s.core.idEx.exRd = r then
        (s.core.exIn (s.fetchPins image f)).exResult
      else if s.core.jalLinkWe = true ∧ s.core.id.rd = r then s.core.ifId.idPcPlus4
      else s.regView r := by
  have hwb : (s.fetchStep image f).core.memWb.wbIsLoad = false := by
    rw [fetch_memWb, h.go]
    exact h.memReadEn
  have hview : s.regView r = s.core.settled r := by
    rw [regView, h.memReadEn]
    simp
  have hheld : (s.fetchStep image f).core.regfile.held r =
      if s.core.jalLinkWe = true ∧ s.core.id.rd = r then s.core.ifId.idPcPlus4
      else s.core.settled r := Core.held_step hb hr
  rw [regView, fetch_word, fetch_exMem, h.go, Core.settled_of_not_load hwb, fetch_exWb, hheld,
    hview]
  rfl

/-- An access in EX/MEM brings no more than its own register is taken to be. -/
theorem regView_step_of_access (hj : s.core.jumpIf = false)
    (hb : s.core.regfile.weBuf = false) (hx : ExIdle s.core)
    (hw : s.core.exMem.memReadEn = true → s.core.exMem.memWriteEn = false)
    (hdata : s.core.stallBack (s.fetchPins image f) = false → s.core.exMem.memReadEn = true →
      s.dmem.dataOut = s.dmem.word (wordAddr s.core.exMem.memAddr))
    {r : BitVec 5} (hr : r ≠ 0#5) : (s.fetchStep image f).regView r = s.regView r := by
  have hnot : ¬ s.core.exWritesTo r := fun hw => hr (hw.2.symm.trans hx.rests.exRd)
  have hflush : (s.fetchPins image f).flush = false := rfl
  have hset : (s.fetchStep image f).core.settled r = _ :=
    Core.settled_step_of_not_writes hj hb hflush hr hnot
  have hacc := (hx.no_access (c := s.fetchPins image f)).1
  rw [regView, fetch_word, fetch_exMem, hset, regView]
  cases hs : s.core.stallBack (s.fetchPins image f)
  · have hexMem : (s.core.exMemIn (s.fetchPins image f)).memReadEn = false := hacc
    simp only [hexMem, Bool.false_eq_true, false_and, if_false, true_and]
    split_ifs with hl
    · rw [← hdata hs hl.1, Core.memLoadDataStub, if_pos hl.1]
      rfl
    · rfl
  · simp only [if_true, Bool.true_eq_false, false_and, if_false]
    split_ifs with hl
    · rw [memView, hw hl.1]
      rfl
    · rfl

end SocBram

end RiscvSoc.Rtl
