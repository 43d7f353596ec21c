import RiscvSoc.Pipeline.LoadWord
import RiscvSoc.Pipeline.Redirect

/-!
# The load lock

One lock with one tag follows the loads.  It takes a load from EX only when it is idle, so it
protects the readers of every load in the runs where a load comes to EX only while the lock is
idle and the data bus is free.
-/

namespace RiscvSoc.Rtl

open Sync

namespace Core

/-- ID/EX latches what is in ID. -/
def entersEx (s : Core) (i : CoreIn) : Bool := !s.flushIdex i && !s.stallBack i

/-- The instruction in EX does not use the register `t`, or `t` is `x0`. -/
structure Avoids (s : Core) (t : BitVec 5) : Prop where
  rs1 : s.idEx.exUseRs1 = true → s.idEx.exRs1 = t → t = 0#5
  rs2 : s.idEx.exUseRs2 = true → s.idEx.exRs2 = t → t = 0#5

end Core

namespace SocBram

/-- **A load in EX finds the lock idle and the data bus free.** -/
def LoadAlone (s : SocBram) : Prop :=
  s.core.idEx.exIsLoad = true → s.core.registerEx.lstate = .idle ∧ s.core.dmemValid = false

/-! ### The way of a load -/

/-- **Where the newest load is**; `last` is its destination and its address, and `fresh` says
that EX holds its instruction for the first cycle.

* `quiet`: no load is under way.
* `asked`, `answered`: it is in EX/MEM for the first and the second cycle, and the lock waits.
* `landed`: it has gone to MEM/WB, and the lock has its word.
* `waiting`: the lock has its word, but a store in EX keeps it in EX/MEM.
* `orphan`: a redirect has cleared the lock, and the front is empty. -/
inductive LoadPhase (s : SocBram) (fresh : Bool) (last : BitVec 5 × BitVec 32) : Prop
  | quiet (lstate : s.core.registerEx.lstate = .idle) (read : s.core.exMem.memReadEn = false)
  | asked (lstate : s.core.registerEx.lstate = .busy)
      (firstCycle : s.core.registerEx.firstCycleInBusy = true)
      (slock : s.core.registerEx.slock = false) (read : s.core.exMem.memReadEn = true)
      (ready : s.dmem.readyReg = false) (tag : s.core.registerEx.rdRegLoad = s.core.exMem.rd)
      (avoids : fresh = true → s.core.Avoids s.core.registerEx.rdRegLoad)
  | answered (lstate : s.core.registerEx.lstate = .busy)
      (readyD1 : s.core.registerEx.dmemReadyD1 = false)
      (slock : s.core.registerEx.slock = false) (read : s.core.exMem.memReadEn = true)
      (ready : s.dmem.readyReg = true) (tag : s.core.registerEx.rdRegLoad = s.core.exMem.rd)
      (data : s.dmem.dataOut = s.dmem.word (wordAddr s.core.exMem.memAddr))
      (held : fresh = false)
  | landed (lstate : s.core.registerEx.lstate = .release)
      (slock : s.core.registerEx.slock = false) (read : s.core.exMem.memReadEn = false)
      (write : s.core.exMem.memWriteEn = false) (tag : s.core.registerEx.rdRegLoad = last.1)
      (saved : s.core.registerEx.rdDataLoadSaved = s.dmem.word (wordAddr last.2))
      (avoids : fresh = true → s.core.Avoids s.core.registerEx.rdRegLoad)
  | waiting (lstate : s.core.registerEx.lstate = .release)
      (slock : s.core.registerEx.slock = false) (read : s.core.exMem.memReadEn = true)
      (ready : s.dmem.readyReg = true) (tag : s.core.registerEx.rdRegLoad = s.core.exMem.rd)
      (saved : s.core.registerEx.rdDataLoadSaved = s.dmem.word (wordAddr s.core.exMem.memAddr))
      (data : s.dmem.dataOut = s.dmem.word (wordAddr s.core.exMem.memAddr))
      (store : s.core.idEx.exIsStore = true) (held : fresh = false)
  | orphan (lstate : s.core.registerEx.lstate = .idle)
      (slock : s.core.registerEx.slock = false) (read : s.core.exMem.memReadEn = true)
      (ready : s.dmem.readyReg = true)
      (data : s.dmem.dataOut = s.dmem.word (wordAddr s.core.exMem.memAddr))
      (idEx : s.core.idEx = IdExReg.bubble) (ifId : s.core.ifId = IfIdReg.bubble)
      (rdReg : s.core.registerEx.rdReg = 0#5)

/-- **The memory path of the core.** -/
structure LoadPath (s : SocBram) (fresh : Bool) (last : BitVec 5 × BitVec 32) : Prop where
  phase : LoadPhase s fresh last
  skip : s.core.registerEx.loadSkipStale = false
  slock : s.core.registerEx.slock = true → s.core.dmemValid = true
  exclusive : s.core.exMem.memReadEn = true → s.core.exMem.memWriteEn = false
  last : s.core.exMem.memReadEn = true → last = (s.core.exMem.rd, s.core.exMem.memAddr)

variable {image : BitVec 10 → BitVec 32} {s : SocBram} {fresh : Bool}
  {last : BitVec 5 × BitVec 32}

/-! ### What stalls -/

lemma stallBack_quiet (hskip : s.core.registerEx.loadSkipStale = false) :
    s.core.stallBack (s.coreIn image .quiet) =
      (((s.core.registerEx.lstate == .busy || s.core.registerEx.slock) && s.core.idEx.exIsStore) ||
        (s.core.dmemValid && !s.dmem.readyReg)) := by
  have hst : (s.coreIn image .quiet).stall = false := rfl
  rw [Core.stallBack_eq, hskip, hst, Bool.false_or, Bool.or_false]
  rfl

lemma loadUse_of_not_pending
    (h : s.core.registerEx.loadPendingOut s.core.idEx.exIsLoad = false) :
    s.core.loadUseHazard (s.coreIn image .quiet) = false := by
  simp [Core.loadUseHazard, HazardIn.loadUseHazard, Core.hazard, h]

/-- What ID hands to EX does not use the register of a pending load. -/
lemma avoids_of_enters {t : BitVec 5}
    (hp : s.core.registerEx.loadPendingOut s.core.idEx.exIsLoad = true)
    (ht : s.core.registerEx.rdRegLoadOut s.core.idEx.exIsLoad s.core.idEx.exRd = t)
    (he : s.core.entersEx (s.coreIn image .quiet) = true) :
    (s.step image .quiet).core.Avoids t := by
  simp only [Core.entersEx, Bool.and_eq_true, Bool.not_eq_true'] at he
  have hid : (s.step image .quiet).core.idEx = IdExReg.ofId s.core.ifId s.core.id := by
    simp [SocBram.step, Core.step, IdExReg.step, he.1, he.2]
  have hlu : s.core.loadUseHazard (s.coreIn image .quiet) = false := by
    have hf := he.1
    rw [coreIn_quiet, Core.flushIdex_pins, ← coreIn_quiet, he.2] at hf
    simp only [Bool.not_false, Bool.and_true, Bool.or_eq_false_iff] at hf
    exact hf.1.2
  simp only [Core.loadUseHazard, HazardIn.loadUseHazard, Core.hazard, hp, ht, Bool.true_and] at hlu
  constructor
  · intro hu hr
    rw [hid] at hu hr
    have hu' : s.core.id.useRs1 = true := hu
    have hr' : s.core.id.rs1 = t := hr
    by_contra h0
    simp [hu', hr', h0] at hlu
  · intro hu hr
    rw [hid] at hu hr
    have hu' : s.core.id.useRs2 = true := hu
    have hr' : s.core.id.rs2 = t := hr
    by_contra h0
    simp [hu', hr', h0] at hlu

/-! ### What a cycle does to the registers on the path -/

lemma wires_quiet : s.core.Wires (s.coreIn image .quiet) s.dmem.readyReg s.dmem.dataOut :=
  Core.wires rfl

lemma registerExIn_flush : (s.core.registerExIn (s.coreIn image .quiet)).flush =
    s.core.branchHazardEx (s.coreIn image .quiet) := wires_quiet.flush

lemma registerExIn_loadSuccess : (s.core.registerExIn (s.coreIn image .quiet)).loadSuccess =
    (s.dmem.readyReg && s.core.exMem.memReadEn) := wires_quiet.loadSuccess

lemma registerExIn_loadEnable : (s.core.registerExIn (s.coreIn image .quiet)).loadEnable =
    s.core.idEx.exIsLoad := wires_quiet.loadEnable

lemma registerExIn_storeEnable : (s.core.registerExIn (s.coreIn image .quiet)).storeEnable =
    s.core.idEx.exIsStore := wires_quiet.storeEnable

/-- Nothing that EX could hand to EX/MEM is a load. -/
lemma step_read_of_not_load (hl : s.core.idEx.exIsLoad = false)
    (h : s.core.stallBack (s.coreIn image .quiet) = false ∨ s.core.exMem.memReadEn = false) :
    (s.step image .quiet).core.exMem.memReadEn = false := by
  rw [step_exMem]
  split_ifs with hs
  · exact h.resolve_left (by simp [hs])
  · simp [Core.exMemIn, ExIn.memReadEn, Core.exIn, hl]

/-- The load that leaves EX is the newest one. -/
def lastStep (s : SocBram) (image : BitVec 10 → BitVec 32) (last : BitVec 5 × BitVec 32) :
    BitVec 5 × BitVec 32 :=
  if s.core.idEx.exIsLoad && !s.core.stallBack (s.coreIn image .quiet) then
    (s.core.idEx.exRd, (s.core.exIn (s.coreIn image .quiet)).memAddrOut)
  else last

lemma lastStep_of_not_load (hl : s.core.idEx.exIsLoad = false) : s.lastStep image last = last := by
  simp [lastStep, hl]

/-- A load in EX that finds the path free goes to EX/MEM. -/
lemma LoadPath.stallBack_of_load (h : LoadPath s fresh last) (hf : FrontOk (instMem image) s.core)
    (hk : s.LoadAlone) (hl : s.core.idEx.exIsLoad = true) :
    s.core.stallBack (s.coreIn image .quiet) = false := by
  rw [stallBack_quiet h.skip, hf.not_load_and_store hl, (hk hl).2]
  simp

lemma LoadPath.step_quiet_load (h : LoadPath s fresh last) (hf : FrontOk (instMem image) s.core)
    (hk : s.LoadAlone) (hl : s.core.idEx.exIsLoad = true)
    (lstate : s.core.registerEx.lstate = .idle) (read : s.core.exMem.memReadEn = false) :
    LoadPhase (s.step image .quiet) (s.core.entersEx (s.coreIn image .quiet))
      (s.lastStep image last) := by
  have hdv := (hk hl).2
  have hst := hf.not_load_and_store hl
  have hstall := h.stallBack_of_load hf hk hl
  have hbr := hf.branchHazardEx_of_load hl (s.coreIn image .quiet)
  have hv := hf.valid_of (.inr (.inl hl))
  have hsl : s.core.registerEx.slock = false := by
    by_contra hs
    simp [h.slock (by simpa using hs)] at hdv
  have hexm : (s.step image .quiet).core.exMem = s.core.exMemIn (s.coreIn image .quiet) := by
    rw [step_exMem, hstall]; rfl
  have htag : (s.step image .quiet).core.registerEx.rdRegLoad = s.core.idEx.exRd := by
    rw [step_registerEx]
    simp only [RegisterEx.step, registerExIn_flush, hbr, registerExIn_loadSuccess, read,
      RegisterEx.captureLate, lstate, registerExIn_loadEnable, hl]
    simp
    rfl
  refine .asked ?_ ?_ ?_ ?_ ?_ ?_ ?_
  · rw [step_registerEx]
    simp [RegisterEx.step, RegisterEx.lstateStep, registerExIn_flush, hbr, lstate,
      registerExIn_loadEnable, hl]
  · rw [step_registerEx]
    simp [RegisterEx.step, RegisterEx.firstCycleStep, registerExIn_flush, hbr, lstate,
      registerExIn_loadEnable, hl]
  · rw [step_registerEx]
    simp [RegisterEx.step, RegisterEx.slockNext, registerExIn_flush, hbr, hsl,
      registerExIn_storeEnable, hst]
  · rw [hexm]
    simp [Core.exMemIn, ExIn.memReadEn, ExIn.instrValidFinal, ExIn.memReqBlock, Core.exIn, hv, hst,
      hl]
  · rw [step_ready, hdv]
  · rw [htag, hexm]; rfl
  · rw [htag]
    refine avoids_of_enters ?_ ?_
    · simp [RegisterEx.loadPendingOut, lstate, hl]
    · simp [RegisterEx.rdRegLoadOut, lstate, hl]

/-- While the load lock waits, the store lock stays open. -/
lemma slock_step_of_busy (lstate : s.core.registerEx.lstate = .busy)
    (slock : s.core.registerEx.slock = false) :
    (s.step image .quiet).core.registerEx.slock = false := by
  rw [step_registerEx]
  simp [RegisterEx.step, RegisterEx.slockNext, slock, lstate]

/-- While the lock waits for an answer that has not come. -/
lemma LoadPath.step_asked (h : LoadPath s fresh last) (hl : s.core.idEx.exIsLoad = false)
    (lstate : s.core.registerEx.lstate = .busy)
    (firstCycle : s.core.registerEx.firstCycleInBusy = true)
    (slock : s.core.registerEx.slock = false) (read : s.core.exMem.memReadEn = true)
    (ready : s.dmem.readyReg = false) (tag : s.core.registerEx.rdRegLoad = s.core.exMem.rd) :
    LoadPhase (s.step image .quiet) (s.core.entersEx (s.coreIn image .quiet))
      (s.lastStep image last) := by
  have hdv : s.core.dmemValid = true := by simp [Core.dmemValid, read]
  have hstall : s.core.stallBack (s.coreIn image .quiet) = true := by
    rw [stallBack_quiet h.skip, hdv, ready]
    simp
  have hexm : (s.step image .quiet).core.exMem = s.core.exMem := by
    rw [step_exMem, hstall]; rfl
  obtain ⟨hword, hdata⟩ : (s.step image .quiet).dmem.word = s.dmem.word ∧ _ :=
    step_dmem_of_read read (h.exclusive read)
  have hdata' : (s.step image .quiet).dmem.dataOut =
      (s.step image .quiet).dmem.word (wordAddr (s.step image .quiet).core.exMem.memAddr) := by
    rw [hdata, hword, hexm]
  have hsl : (s.step image .quiet).core.registerEx.slock = false := slock_step_of_busy lstate slock
  cases hbr : s.core.branchHazardEx (s.coreIn image .quiet)
  · refine .answered ?_ ?_ hsl (by rw [hexm, read]) (by rw [step_ready, hdv]) ?_ hdata'
      (by simp [Core.entersEx, hstall])
    · rw [step_registerEx]
      simp [RegisterEx.step, RegisterEx.lstateStep, registerExIn_flush, hbr, lstate,
        registerExIn_loadSuccess, ready, RegisterEx.staleReady, RegisterEx.lateReady, firstCycle]
    · rw [step_registerEx]
      exact ready
    · rw [step_registerEx, hexm]
      simp [RegisterEx.step, registerExIn_flush, hbr, lstate, registerExIn_loadSuccess, ready,
        RegisterEx.captureLate, firstCycle, registerExIn_loadEnable, hl, tag]
  · obtain ⟨hfd, hfx⟩ := Core.flush_of_redirect hbr
    refine .orphan ?_ hsl (by rw [hexm, read]) (by rw [step_ready, hdv]) hdata' ?_ ?_ ?_
    · rw [step_registerEx]
      simp [RegisterEx.step, RegisterEx.lstateStep, registerExIn_flush, hbr]
    · simp [SocBram.step, Core.step, IdExReg.step, hfx]
    · simp [SocBram.step, Core.step, IfIdReg.step, hfd]
    · rw [step_registerEx]
      simp [RegisterEx.step, registerExIn_flush, hbr]

/-- The lock takes the answer to the load in EX/MEM. -/
lemma step_lock_of_answer (lstate : s.core.registerEx.lstate = .busy)
    (readyD1 : s.core.registerEx.dmemReadyD1 = false) (read : s.core.exMem.memReadEn = true)
    (ready : s.dmem.readyReg = true) (tag : s.core.registerEx.rdRegLoad = s.core.exMem.rd)
    (hbr : s.core.branchHazardEx (s.coreIn image .quiet) = false) :
    (s.step image .quiet).core.registerEx.lstate = .release ∧
      (s.step image .quiet).core.registerEx.rdRegLoad = s.core.exMem.rd ∧
      (s.step image .quiet).core.registerEx.rdDataLoadSaved = s.dmem.dataOut := by
  rw [step_registerEx]
  refine ⟨?_, ?_, ?_⟩
  · simp [RegisterEx.step, RegisterEx.lstateStep, registerExIn_flush, hbr, lstate,
      registerExIn_loadSuccess, ready, read, readyD1]
  · simp [RegisterEx.step, registerExIn_flush, hbr, registerExIn_loadSuccess, ready, read, tag]
  · simp [RegisterEx.step, registerExIn_flush, hbr, registerExIn_loadSuccess, ready, read]
    rfl

/-- The answer has come: the load goes on, unless a store in EX keeps it. -/
lemma LoadPath.step_answered (h : LoadPath s fresh last) (hf : FrontOk (instMem image) s.core)
    (hl : s.core.idEx.exIsLoad = false)
    (lstate : s.core.registerEx.lstate = .busy)
    (readyD1 : s.core.registerEx.dmemReadyD1 = false)
    (slock : s.core.registerEx.slock = false) (read : s.core.exMem.memReadEn = true)
    (ready : s.dmem.readyReg = true) (tag : s.core.registerEx.rdRegLoad = s.core.exMem.rd)
    (data : s.dmem.dataOut = s.dmem.word (wordAddr s.core.exMem.memAddr)) :
    LoadPhase (s.step image .quiet) (s.core.entersEx (s.coreIn image .quiet))
      (s.lastStep image last) := by
  have hdv : s.core.dmemValid = true := by simp [Core.dmemValid, read]
  have hstall : s.core.stallBack (s.coreIn image .quiet) = s.core.idEx.exIsStore := by
    rw [stallBack_quiet h.skip, hdv, ready, lstate]
    simp
  obtain ⟨hword, hdata⟩ : (s.step image .quiet).dmem.word = s.dmem.word ∧ _ :=
    step_dmem_of_read read (h.exclusive read)
  have hsl : (s.step image .quiet).core.registerEx.slock = false := slock_step_of_busy lstate slock
  cases hbr : s.core.branchHazardEx (s.coreIn image .quiet)
  · obtain ⟨hls, htag, hsaved⟩ := step_lock_of_answer lstate readyD1 read ready tag hbr
    rw [data] at hsaved
    cases hst : s.core.idEx.exIsStore
    · -- The load leaves EX/MEM, and no other access comes there.
      rw [hst] at hstall
      have hlast := h.last read
      refine .landed hls hsl (step_read_of_not_load hl (.inl hstall)) ?_ ?_ ?_ ?_
      · rw [step_exMem, hstall]
        simp [Core.exMemIn, ExIn.memWriteEn, Core.exIn, hst]
      · rw [htag, lastStep_of_not_load hl, hlast]
      · rw [hsaved, hword, lastStep_of_not_load hl, hlast]
      · rw [htag]
        refine avoids_of_enters ?_ ?_
        · simp [RegisterEx.loadPendingOut, lstate]
        · simp [RegisterEx.rdRegLoadOut, lstate, tag]
    · rw [hst] at hstall
      have hexm : (s.step image .quiet).core.exMem = s.core.exMem := by
        rw [step_exMem, hstall]; rfl
      have hfx : s.core.flushIdex (s.coreIn image .quiet) = false := by
        rw [coreIn_quiet] at hstall hbr ⊢
        rw [Core.flushIdex_pins, hbr, hstall]
        simp
      refine .waiting hls hsl (by rw [hexm, read]) (by rw [step_ready, hdv]) ?_ ?_ ?_ ?_ ?_
      · rw [htag, hexm]
      · rw [hsaved, hword, hexm]
      · rw [hdata, hword, hexm]
      · simp [SocBram.step, Core.step, IdExReg.step, hfx, hstall, hst]
      · simp [Core.entersEx, hstall]
  · -- A redirect clears the lock; the load leaves EX/MEM all the same.
    have hst : s.core.idEx.exIsStore = false := by
      by_contra hst
      have hb := hf.branchHazardEx_of_store (by simpa using hst) (s.coreIn image .quiet)
      simp [hb] at hbr
    rw [hst] at hstall
    refine .quiet ?_ (step_read_of_not_load hl (.inl hstall))
    rw [step_registerEx]
    simp [RegisterEx.step, RegisterEx.lstateStep, registerExIn_flush, hbr]

/-- **The way of a load, cycle by cycle.** -/
theorem LoadPath.step_phase (h : LoadPath s fresh last) (hf : FrontOk (instMem image) s.core)
    (hk : s.LoadAlone) :
    LoadPhase (s.step image .quiet) (s.core.entersEx (s.coreIn image .quiet))
      (s.lastStep image last) := by
  have hbusy : s.core.registerEx.lstate ≠ .idle → s.core.idEx.exIsLoad = false := by
    intro hn
    by_contra hl
    exact hn (hk (by simpa using hl)).1
  -- A lock that is let go is idle again.
  have hrel : s.core.registerEx.lstate = .release →
      (s.step image .quiet).core.registerEx.lstate = .idle := by
    intro hr
    rw [step_registerEx]
    simp [RegisterEx.step, RegisterEx.lstateStep, hr]
  cases h.phase with
  | quiet lstate read =>
    cases hl : s.core.idEx.exIsLoad
    · refine .quiet ?_ (step_read_of_not_load hl (.inr read))
      rw [step_registerEx]
      simp [RegisterEx.step, RegisterEx.lstateStep, lstate, registerExIn_loadEnable, hl]
    · exact h.step_quiet_load hf hk hl lstate read
  | asked lstate firstCycle slock read ready tag _ =>
    exact h.step_asked (hbusy (by simp [lstate])) lstate firstCycle slock read ready tag
  | answered lstate readyD1 slock read ready tag data _ =>
    exact h.step_answered hf (hbusy (by simp [lstate])) lstate readyD1 slock read ready tag data
  | landed lstate _ read =>
    exact .quiet (hrel lstate) (step_read_of_not_load (hbusy (by simp [lstate])) (.inr read))
  | waiting lstate slock read ready =>
    refine .quiet (hrel lstate) (step_read_of_not_load (hbusy (by simp [lstate])) (.inl ?_))
    rw [stallBack_quiet h.skip, lstate, slock, ready]
    simp
  | orphan lstate slock read ready data idEx =>
    have hl : s.core.idEx.exIsLoad = false := by rw [idEx]; rfl
    have hst : s.core.idEx.exIsStore = false := by rw [idEx]; rfl
    refine .quiet ?_ (step_read_of_not_load hl (.inl ?_))
    · rw [step_registerEx]
      simp [RegisterEx.step, RegisterEx.lstateStep, lstate, registerExIn_loadEnable, hl]
    · rw [stallBack_quiet h.skip, hst, ready]
      simp

/-- **One cycle of the memory path.** -/
theorem LoadPath.step (h : LoadPath s fresh last) (hf : FrontOk (instMem image) s.core)
    (hk : s.LoadAlone) :
    LoadPath (s.step image .quiet) (s.core.entersEx (s.coreIn image .quiet))
      (s.lastStep image last) where
  phase := h.step_phase hf hk
  skip := by
    rw [step_registerEx]
    cases h.phase with
    | asked lstate firstCycle slock read ready =>
      simp [RegisterEx.step, RegisterEx.staleReady, registerExIn_loadSuccess, ready]
    | answered lstate readyD1 =>
      simp [RegisterEx.step, RegisterEx.staleReady, readyD1]
    | quiet lstate => simp [RegisterEx.step, lstate]
    | landed lstate => simp [RegisterEx.step, lstate]
    | waiting lstate => simp [RegisterEx.step, lstate]
    | orphan lstate => simp [RegisterEx.step, lstate]
  slock hs := by
    have hstall : s.core.stallBack (s.coreIn image .quiet) = _ := stallBack_quiet h.skip
    -- What keeps an access on the bus for another cycle.
    have hkeep : s.core.dmemValid = true → s.core.stallBack (s.coreIn image .quiet) = true →
        (s.step image .quiet).core.dmemValid = true := by
      intro hd hst
      rw [Core.dmemValid, step_exMem, hst]; exact hd
    rcases RegisterEx.slockNext_cases hs with ⟨hsl, hr⟩ | ⟨hb, hst, hsl⟩
    · -- The lock is held for a store that the memory has not answered.
      have hd := h.slock hsl
      have hr' : s.dmem.readyReg = false := hr
      refine hkeep hd ?_
      rw [hstall, hd, hr']
      simp
    · -- A store in EX takes the lock: it leaves EX, or waits for an access on the bus.
      have hst' : s.core.idEx.exIsStore = true := hst
      have hv := hf.valid_of (.inr (.inr hst'))
      cases hgo : s.core.stallBack (s.coreIn image .quiet)
      · rw [Core.dmemValid, step_exMem, hgo]
        simp [Core.exMemIn, ExIn.memWriteEn, ExIn.instrValidFinal, ExIn.memReqBlock, Core.exIn, hv,
          hst', hsl]
      · refine hkeep ?_ hgo
        rw [hgo, hsl, beq_eq_false_iff_ne.mpr hb] at hstall
        by_contra hd
        simp [hd] at hstall
  exclusive hr := by
    rw [step_exMem] at hr ⊢
    split_ifs at hr ⊢ with hst
    · exact h.exclusive hr
    · have hl : s.core.idEx.exIsLoad = true := by
        simp only [Core.exMemIn, ExIn.memReadEn, Bool.and_eq_true] at hr
        exact hr.2
      simp [Core.exMemIn, ExIn.memWriteEn, Core.exIn, hf.not_load_and_store hl]
  last hr := by
    cases hl : s.core.idEx.exIsLoad
    · rw [lastStep_of_not_load hl]
      rw [step_exMem] at hr ⊢
      split_ifs at hr ⊢ with hst
      · exact h.last hr
      · simp [Core.exMemIn, ExIn.memReadEn, Core.exIn, hl] at hr
    · have hgo := h.stallBack_of_load hf hk hl
      rw [step_exMem, hgo, lastStep, hl, hgo]
      rfl

end SocBram

end RiscvSoc.Rtl
