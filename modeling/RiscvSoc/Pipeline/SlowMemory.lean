import RiscvSoc.Pipeline.ScheduledRefines

/-!
# Scheduled programs over a slower data memory

Of the data memory the core sees the words and the two outputs.  A memory that answers an access
later than `data_mem` does, and then with the same word, makes it wait and changes nothing else.
-/

namespace RiscvSoc.Rtl

open Isa Sync

namespace DataMem

/-- A `data_mem` with the words `f` that shows `ready` and `data`. -/
def showing (f : BitVec 10 → BitVec 32) (ready : Bool) (data : BitVec 32) : DataMem where
  mem0 a := (f a).extractLsb' 0 8
  mem1 a := (f a).extractLsb' 8 8
  mem2 a := (f a).extractLsb' 16 8
  mem3 a := (f a).extractLsb' 24 8
  memData := data
  sizeQ := memSizeWord
  positionQ := 0#2
  readyReg := ready

variable (f : BitVec 10 → BitVec 32) (ready : Bool) (data : BitVec 32)

lemma showing_word : (showing f ready data).word = f := funext fun a => append_lanes (f a)

lemma showing_dataOut : (showing f ready data).dataOut = data := dataOut_of_word rfl

end DataMem

namespace SocBram

variable {image : BitVec 10 → BitVec 32} {s : SocBram} {f : ImemIn} {σ : MemState} {w : ℕ}
  {d : DataMem}

/-! ### Another memory -/

lemma memView_withMem (hd : d.word = s.dmem.word) : SocBram.memView ⟨s.core, d⟩ = s.memView := by
  unfold memView
  rw [hd]

lemma regView_withMem (hd : d.word = s.dmem.word) (r : BitVec 5) :
    SocBram.regView ⟨s.core, d⟩ r = s.regView r := by
  unfold regView
  rw [hd]

lemma Views.withMem (h : Views s σ) (hd : d.word = s.dmem.word) : Views ⟨s.core, d⟩ σ :=
  h.congr h.fresh (fun r _ => regView_withMem hd r) (memView_withMem hd)

lemma Free.withMem (h : Free s) : Free ⟨s.core, d⟩ :=
  ⟨h.lstate, h.slock, h.skip, h.memReadEn, h.memWriteEn, h.saved⟩

lemma Under.withMem (h : Under s) : Under ⟨s.core, d⟩ :=
  ⟨h.valid, h.single, h.lstate, h.skip, h.rdRegLoad⟩

/-- **Another memory with the same words** may take the place of `data_mem`, if an access finds it
as far as `data_mem`. -/
lemma Runs.withMem (h : Runs image w s σ) (hd : d.word = s.dmem.word)
    (hready : s.core.dmemValid = true → d.readyReg = s.dmem.readyReg)
    (hdata : s.core.exMem.memReadEn = true → d.readyReg = true →
      d.dataOut = d.word (wordAddr s.core.exMem.memAddr)) : Runs image w ⟨s.core, d⟩ σ := by
  obtain ⟨hv, hstage⟩ := h
  refine ⟨hv.withMem hd, ?_⟩
  cases hstage with
  | empty ifId pcReg exIdle free buffered => exact .empty ifId pcReg exIdle free.withMem buffered
  | fetched front exIdle exRegWriteEn weBuf free =>
    exact .fetched front exIdle exRegWriteEn weBuf free.withMem
  | asked front exIdle exRegWriteEn weBuf inId under ready =>
    exact .asked front exIdle exRegWriteEn weBuf inId under.withMem
      ((hready under.valid).trans ready)
  | served front exIdle exRegWriteEn weBuf inId served =>
    have hr : d.readyReg = true := (hready served.valid).trans served.ready
    exact .served front exIdle exRegWriteEn weBuf inId
      ⟨served.toUnder.withMem, hr, served.late, fun hl => hdata hl hr⟩
  | full front idEx weBuf notNop notJal forward tag raddr1 raddr2 free wbIsLoad =>
    exact .full front idEx weBuf notNop notJal forward tag raddr1 raddr2 free.withMem wbIsLoad

/-- **A memory that has not answered yet** makes the access wait. -/
lemma Runs.delay (h : Runs image 1 s σ) (hv : s.core.dmemValid = true)
    (hd : d.word = s.dmem.word) (hr : d.readyReg = false) : Runs image 2 ⟨s.core, d⟩ σ := by
  obtain ⟨hviews, hstage⟩ := h
  refine ⟨hviews.withMem hd, ?_⟩
  cases hstage with
  | fetched _ _ _ _ free => simp [free.dmemValid] at hv
  | served front exIdle exRegWriteEn weBuf inId served =>
    exact .asked front exIdle exRegWriteEn weBuf inId served.toUnder.withMem hr

/-! ### An access in EX/MEM -/

/-- An access in EX/MEM reads or writes. -/
lemma Runs.single (h : Runs image w s σ) (hr : s.core.exMem.memReadEn = true) :
    s.core.exMem.memWriteEn = false := by
  cases h.stage with
  | empty _ _ _ free => simp [free.memReadEn] at hr
  | fetched _ _ _ _ free => simp [free.memReadEn] at hr
  | asked _ _ _ _ _ under => exact under.single hr
  | served _ _ _ _ _ served => exact served.single hr
  | full _ _ _ _ _ _ _ _ _ free => simp [free.memReadEn] at hr

/-- An access that waits stays in EX/MEM, and `data_mem` would answer it now. -/
lemma Runs.access_asked (h : Runs image w s σ) (hv : s.core.dmemValid = true)
    (hr : s.dmem.readyReg = false) : w = 2 ∧
      s.core.retired (s.fetchPins image f) = [] ∧
      (s.fetchStep image f).core.exMem = s.core.exMem ∧ Runs image 1 (s.fetchStep image f) σ := by
  obtain ⟨hviews, hstage⟩ := h
  cases hstage with
  | empty _ _ _ free => simp [free.dmemValid] at hv
  | fetched _ _ _ _ free => simp [free.dmemValid] at hv
  | asked front exIdle exRegWriteEn weBuf inId under ready =>
    obtain ⟨hret, hR⟩ := asked_step hviews front exIdle exRegWriteEn weBuf inId under ready
    refine ⟨rfl, hret, ?_, hR⟩
    rw [fetch_exMem, under.stalls hr]
    rfl
  | served _ _ _ _ _ served => simp [served.ready] at hr
  | full _ _ _ _ _ _ _ _ _ free => simp [free.dmemValid] at hv

/-- An access that has been answered leaves EX/MEM, and none follows at once. -/
lemma Runs.access_served (h : Runs image w s σ) (hv : s.core.dmemValid = true)
    (hr : s.dmem.readyReg = true) : (s.fetchStep image f).core.dmemValid = false := by
  cases h.stage with
  | empty _ _ _ free => simp [free.dmemValid] at hv
  | fetched _ _ _ _ free => simp [free.dmemValid] at hv
  | asked _ _ _ _ _ _ ready => simp [ready] at hr
  | served front exIdle exRegWriteEn weBuf inId served => exact (served.step exIdle).dmemValid
  | full _ _ _ _ _ _ _ _ _ free => simp [free.dmemValid] at hv

lemma Runs.le_two (h : Runs image w s σ) : w ≤ 2 := by
  cases h.stage <;> omega

/-- **An access that comes to EX/MEM is the one of the interpreter.** -/
lemma Runs.access_step (hS : Scheduled image) (h : Runs image w s σ)
    (hv : s.core.dmemValid = false) (hv' : (s.fetchStep image f).core.dmemValid = true) :
    ∃ i a, decode (σ.fetch image) = some i ∧ i.memAddr (σ.operand i.rs1?) = some a ∧
      (s.fetchStep image f).core.exMem.memAddr = a ∧
      (s.fetchStep image f).core.exMem.memReadEn = i.isLoad := by
  obtain ⟨hviews, hstage⟩ := h
  have hnone : ExIdle s.core → Free s → False := by
    intro hx hfree
    have hfree' : Free (s.fetchStep image f) :=
      (hfree.step hx.rests.exIsLoad hx.rests.exIsStore).1
    rw [hfree'.dmemValid] at hv'
    cases hv'
  cases hstage with
  | empty _ _ exIdle free => exact (hnone exIdle free).elim
  | fetched _ exIdle _ _ free => exact (hnone exIdle free).elim
  | asked _ _ _ _ _ under => simp [under.valid] at hv
  | served _ _ _ _ _ served => simp [served.valid] at hv
  | full front idEx weBuf notNop notJal forward tag raddr1 raddr2 free wbIsLoad =>
    obtain ⟨i, hi⟩ := hS.decodes σ.pc
    have hO : HasOperands image s (s.fetchPins image f) σ i :=
      hasOperands_of_full hviews idEx weBuf free wbIsLoad forward tag raddr1 raddr2 hi
        (notJal i hi)
    have hexMem : (s.fetchStep image f).core.exMem = s.core.exMemIn (s.fetchPins image f) := by
      rw [fetch_exMem, free.go]
      rfl
    have hread := hO.computes.memReadEn
    have hwrite := hO.computes.memWriteEn
    have hacc : (i.memAddr (σ.operand i.rs1?)).isSome = true := by
      rw [Instr.memAddr_isSome, ← hread, ← hwrite]
      rw [Core.dmemValid, hexMem] at hv'
      exact hv'
    obtain ⟨a, ha⟩ := Option.isSome_iff_exists.mp hacc
    refine ⟨i, a, hi, ha, ?_, ?_⟩
    · rw [hexMem]
      exact hO.memAddrOut ha
    · rw [hexMem]
      exact hread

end SocBram

end RiscvSoc.Rtl
