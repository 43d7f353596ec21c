import RiscvSoc.Bus.CacheDelay
import RiscvSoc.Pipeline.Progress
import RiscvSoc.Rtl.SocTopDcache

/-!
# Progress through the data cache

With `L1_Cache_DATA` an answer lasts for a cycle and counts only in a cycle in which nothing holds
the back of the pipeline.  A store that comes right behind a store holds it in all of them; without
such a pair every program makes progress.
-/

namespace RiscvSoc.Rtl

open Sync

namespace SocDcache

variable (image : BitVec 10 → BitVec 32) (s : SocDcache)

lemma coreIn_undisturbed : (s.coreIn image .quiet).Undisturbed := ⟨rfl, rfl, rfl⟩

/-- **A store leaves EX and the next one is in ID.** -/
structure StorePair : Prop where
  first : s.core.idEx.exIsStore = true
  go : s.core.stallBack (s.coreIn image .quiet) = false
  second : s.core.id.isStore = true

/-- **What the locks wait for comes**, and no store is behind a store. -/
structure Live : Prop where
  front : FrontOk (instMem image) s.core
  serves : s.data.Serves
  single : s.core.exMem.memReadEn = true → s.core.exMem.memWriteEn = false
  skip : s.core.registerEx.loadSkipStale = true → s.core.registerEx.lstate = .busy ∧
    s.core.registerEx.firstCycleInBusy = false
  busy : s.core.registerEx.lstate = .busy → s.core.idEx.exIsLoad = true ∨
    s.core.exMem.memReadEn = true ∨ (s.core.registerEx.firstCycleInBusy = false ∧
      (s.dcache.dmemReadyReg = true ∨ s.dcache.pending = true))
  slock : s.core.registerEx.slock = true → s.core.dmemValid = true
  completed : s.dcache.completedAddrValid = true → s.core.registerEx.dmemReadyD1 = false
  apart : s.core.idEx.exIsStore = true → s.core.exMem.memWriteEn = false

/-! ### What is left to wait for -/

/-- The cycles that the load lock is still busy, at most. -/
def loadLeft : ℕ :=
  if s.core.registerEx.lstate = .busy then
    if s.core.answered (s.coreIn image .quiet) then 1
    else if s.dcache.dmemReadyReg then 4 else s.data.due s.req + 1
  else 0

/-- The cycles that a held load still waits in EX/MEM, at most: until it hits, and then until the
locks have had an answer. -/
def readLeft : ℕ :=
  if s.data.hitDue s.req = 0 then
    if s.core.registerEx.lstate = .busy ∧ s.core.skips (s.coreIn image .quiet) = true then 2 else 1
  else s.data.hitDue s.req + 2

/-- The cycles that the back of the pipeline is still held, at most. -/
def backLeft : ℕ :=
  if s.core.stallBack (s.coreIn image .quiet) then
    if s.core.exMem.memReadEn then s.readLeft image
    else if s.core.exMem.memWriteEn then s.data.storeDue s.req
    else s.loadLeft image
  else 0

variable {image s} {c : CacheData} {d : DataMem} {n : ℕ}

lemma stallBack_eq : s.core.stallBack (s.coreIn image .quiet) =
    (((s.core.registerEx.lstate == .busy || s.core.registerEx.slock) && s.core.idEx.exIsStore) ||
      (s.core.dmemValid && !s.dcache.dmemReadyReg) || s.core.registerEx.loadSkipStale) :=
  s.core.stallBack_eq _

lemma exMem_step : (s.step image .quiet).core.exMem =
    if s.core.stallBack (s.coreIn image .quiet) then s.core.exMem
    else s.core.exMemIn (s.coreIn image .quiet) :=
  Core.exMem_step rfl

lemma answered_eq : s.core.answered (s.coreIn image .quiet) = (s.dcache.dmemReadyReg &&
    (!s.core.registerEx.firstCycleInBusy ||
      (s.core.exMem.memReadEn && !s.core.registerEx.dmemReadyD1))) := rfl

lemma skips_eq : s.core.skips (s.coreIn image .quiet) = (s.dcache.dmemReadyReg &&
    s.core.exMem.memReadEn && s.core.registerEx.firstCycleInBusy &&
      s.core.registerEx.dmemReadyD1) := rfl

/-- The request of an access in EX/MEM. -/
lemma req_of_read (hr : s.core.exMem.memReadEn = true) :
    s.req.valid = true ∧ s.req.ren = true := by
  have hv : s.req.valid = (s.core.exMem.memWriteEn || s.core.exMem.memReadEn) := rfl
  exact ⟨by rw [hv, hr, Bool.or_true], hr⟩

lemma req_step_of_stall (hs : s.core.stallBack (s.coreIn image .quiet) = true) :
    (s.step image .quiet).req = s.req := by
  have hexMem : (s.step image .quiet).core.exMem = s.core.exMem := by
    rw [exMem_step, hs]
    rfl
  simp only [req, Core.dmemValid, Core.dmemRen, Core.dmemWen, Core.dmemAddr, Core.dmemWdata,
    hexMem]

/-! ### One cycle of the invariant -/

lemma live_reset : Live image ⟨Core.reset, c.reset, d.reset⟩ where
  front := frontOk_reset
  serves := DataPath.serves_reset c d
  single h := by simp [Core.reset, ExMemReg.reset] at h
  skip h := by simp [Core.reset, RegisterEx.reset] at h
  busy h := by simp [Core.reset, RegisterEx.reset] at h
  slock h := by simp [Core.reset, RegisterEx.reset] at h
  completed h := by simp [CacheData.reset] at h
  apart _ := rfl

/-- An answer that a busy lock does not take is skipped. -/
lemma Live.skips_of_ready (h : Live image s) (hl : s.core.idEx.exIsLoad = false)
    (hb : s.core.registerEx.lstate = .busy) (hna : s.core.answered (s.coreIn image .quiet) = false)
    (hr : s.dcache.dmemReadyReg = true) : s.core.skips (s.coreIn image .quiet) = true := by
  rw [answered_eq, hr] at hna
  rcases h.busy hb with hx | hread | ⟨hfc, -⟩
  · simp [hl] at hx
  · rw [hread] at hna
    rw [skips_eq, hr, hread]
    simpa using hna
  · simp [hfc] at hna

/-- A skipped answer is no completion, so the load that goes on is taken once more. -/
lemma Live.taken_of_skips (h : Live image s)
    (hk : s.core.skips (s.coreIn image .quiet) = true) :
    (s.step image .quiet).dcache.dmemReadyReg = true ∨
      (s.step image .quiet).dcache.pending = true := by
  rw [skips_eq] at hk
  simp only [Bool.and_eq_true] at hk
  obtain ⟨⟨⟨hr, hread⟩, -⟩, hd1⟩ := hk
  have hp : s.data.cache.pending = false := h.serves.ready hr
  have hj : s.data.cache.justCompleted (s.data.cacheIn s.req) = false := by
    have hg : s.dcache.completedAddrValid = false := by
      by_contra hg
      simp [h.completed (by simpa using hg)] at hd1
    have hcache : s.data.cache.completedAddrValid = false := hg
    simp [CacheData.justCompleted, hcache]
  obtain ⟨hv, hren⟩ := req_of_read hread
  rcases DataPath.taken_step hp hj hv (.inl hren) with ⟨-, hr'⟩ | ⟨-, hp'⟩
  · exact .inl hr'
  · exact .inr hp'

/-- The load lock keeps an answer in sight. -/
lemma Live.busy_step (h : Live image s)
    (hb' : (s.step image .quiet).core.registerEx.lstate = .busy) :
    (s.step image .quiet).core.idEx.exIsLoad = true ∨
      (s.step image .quiet).core.exMem.memReadEn = true ∨
      ((s.step image .quiet).core.registerEx.firstCycleInBusy = false ∧
        ((s.step image .quiet).dcache.dmemReadyReg = true ∨
          (s.step image .quiet).dcache.pending = true)) := by
  have hnf : s.core.branchHazardEx (s.coreIn image .quiet) = false := by
    by_contra hf
    rw [Bool.not_eq_false] at hf
    have hstep : (s.step image .quiet).core.registerEx.lstate =
      s.core.registerEx.lstateStep (s.core.registerExIn (s.coreIn image .quiet)) := rfl
    have hflush : (s.core.registerExIn (s.coreIn image .quiet)).flush = true := hf
    simp [hstep, RegisterEx.lstateStep, hflush] at hb'
  cases hl : s.core.idEx.exIsLoad
  · obtain ⟨hb, hna⟩ := (Core.busy_step_iff rfl hnf hl).mp hb'
    have hfirst : (s.step image .quiet).core.registerEx.firstCycleInBusy =
      (s.core.registerEx.firstCycleInBusy && !s.core.skips (s.coreIn image .quiet)) :=
      Core.firstCycle_step rfl hnf hb
    rcases h.busy hb with hx | hread | ⟨hfc, hcoming⟩
    · simp [hl] at hx
    · cases hs : s.core.stallBack (s.coreIn image .quiet)
      · -- It leaves EX/MEM on an answer that the lock skips.
        right; right
        have hv : s.core.dmemValid = true := by simp [Core.dmemValid, hread]
        have hr : s.dcache.dmemReadyReg = true := by
          rw [stallBack_eq, hv] at hs
          simp only [Bool.or_eq_false_iff, Bool.true_and, Bool.not_eq_false'] at hs
          exact hs.1.2
        have hk := h.skips_of_ready hl hb hna hr
        exact ⟨by rw [hfirst, hk]; simp, h.taken_of_skips hk⟩
      · right; left
        rw [exMem_step, hs]
        exact hread
    · -- The lock waits for the answer to a load that has left.
      right; right
      have hr : s.dcache.dmemReadyReg = false := by simpa [answered_eq, hfc] using hna
      have hp : s.dcache.pending = true := hcoming.resolve_left (by simp [hr])
      refine ⟨by rw [hfirst, hfc]; rfl, ?_⟩
      exact (h.serves.due_step (q := s.req) (p := s.req) hr (.inl hp)).2.symm
  · cases hs : s.core.stallBack (s.coreIn image .quiet)
    · right; left
      have hv : s.core.idEx.exInstrValid = true := h.front.valid_of (.inr (.inl hl))
      have hns := h.front.not_load_and_store hl
      rw [exMem_step, hs]
      simp [Core.exMemIn, ExIn.memReadEn, ExIn.instrValidFinal, ExIn.memReqBlock, Core.exIn, hl,
        hv, hns]
    · left
      have hkeep : (s.step image .quiet).core.idEx = s.core.idEx :=
        Core.idEx_step_of_stall rfl hnf hs
      rw [hkeep, hl]

/-- The store lock has its access. -/
lemma Live.slock_step (h : Live image s)
    (hs' : (s.step image .quiet).core.registerEx.slock = true) :
    (s.step image .quiet).core.dmemValid = true := by
  have hkeep : s.core.stallBack (s.coreIn image .quiet) = true → s.core.dmemValid = true →
      (s.step image .quiet).core.dmemValid = true := by
    intro hstall hv
    rw [Core.dmemValid, exMem_step, hstall]
    exact hv
  rcases RegisterEx.slockNext_cases hs' with ⟨hs, hr⟩ | ⟨hl, hst, hs⟩
  · have hv := h.slock hs
    have hr' : s.dcache.dmemReadyReg = false := hr
    refine hkeep ?_ hv
    rw [stallBack_eq, hv, hr']
    simp
  · -- Taken by the store in EX: it moves on, or an access holds it.
    have hst' : s.core.idEx.exIsStore = true := hst
    have hskip : s.core.registerEx.loadSkipStale = false := by
      by_contra hk
      exact hl (h.skip (by simpa using hk)).1
    cases hgo : s.core.stallBack (s.coreIn image .quiet)
    · have hv : s.core.idEx.exInstrValid = true := h.front.valid_of (.inr (.inr hst'))
      rw [Core.dmemValid, exMem_step, hgo]
      simp [Core.exMemIn, ExIn.memWriteEn, ExIn.instrValidFinal, ExIn.memReqBlock, Core.exIn, hst',
        hv, hs]
    · refine hkeep hgo ?_
      rw [stallBack_eq, hs, hskip] at hgo
      have hgo' : s.core.dmemValid = true ∧ s.dcache.dmemReadyReg = false := by
        simpa [hl] using hgo
      exact hgo'.1

/-- No store gets behind a store. -/
lemma Live.apart_step (h : Live image s) (hP : ¬ StorePair image s)
    (hst' : (s.step image .quiet).core.idEx.exIsStore = true) :
    (s.step image .quiet).core.exMem.memWriteEn = false := by
  have hidEx : (s.step image .quiet).core.idEx = s.core.idEx.step
    (s.core.stallBack (s.coreIn image .quiet)) (s.core.flushIdex (s.coreIn image .quiet))
      (IdExReg.ofId s.core.ifId s.core.id) := rfl
  have hf : s.core.flushIdex (s.coreIn image .quiet) = false := by
    by_contra hf
    rw [Bool.not_eq_false] at hf
    rw [hidEx, IdExReg.step, hf] at hst'
    cases hst'
  rw [hidEx, IdExReg.step, hf] at hst'
  rw [exMem_step]
  cases hs : s.core.stallBack (s.coreIn image .quiet)
  · rw [hs] at hst'
    by_contra hw
    rw [Bool.not_eq_false] at hw
    have hfirst : s.core.idEx.exIsStore = true := by
      simp only [Bool.false_eq_true, if_false, Core.exMemIn, ExIn.memWriteEn, Core.exIn,
        Bool.and_eq_true] at hw
      exact hw.2
    exact hP ⟨hfirst, hs, hst'⟩
  · rw [hs] at hst'
    exact h.apart hst'

/-- **One cycle**, unless it brings two stores together. -/
lemma Live.step (h : Live image s) (hP : ¬ StorePair image s) :
    Live image (s.step image .quiet) where
  front := h.front.step fun _ => rfl
  serves := h.serves.step
  single := by
    rw [exMem_step]
    split_ifs
    · exact h.single
    · intro hr
      simp only [Core.exMemIn, ExIn.memReadEn, Core.exIn, Bool.and_eq_true] at hr
      have hns := h.front.not_load_and_store hr.2
      simp [Core.exMemIn, ExIn.memWriteEn, Core.exIn, hns]
  skip := Core.busy_of_skip
  busy := h.busy_step
  slock := h.slock_step
  completed hg := by
    have hp : s.data.cache.pending = true := CacheData.completed_of_refill hg
    have hd1 : (s.step image .quiet).core.registerEx.dmemReadyD1 = s.data.cache.dmemReadyReg := rfl
    rw [hd1]
    by_contra hr
    have hno := h.serves.ready (by simpa using hr)
    simp [hp] at hno
  apart := h.apart_step hP

/-! ### The counts go down -/

section Cycle

variable (hbr : s.core.branchHazardEx (s.coreIn image .quiet) = false)
include hbr

/-- An answer that comes after a busy lock has gone without one, or has skipped one, is taken. -/
lemma Live.answered_step (h : Live image s) (hl : s.core.idEx.exIsLoad = false)
    (hb : s.core.registerEx.lstate = .busy) (hna : s.core.answered (s.coreIn image .quiet) = false)
    (hr' : (s.step image .quiet).dcache.dmemReadyReg = true) :
    (s.step image .quiet).core.answered ((s.step image .quiet).coreIn image .quiet) = true := by
  have hfirst : (s.step image .quiet).core.registerEx.firstCycleInBusy =
    (s.core.registerEx.firstCycleInBusy && !s.core.skips (s.coreIn image .quiet)) :=
    Core.firstCycle_step rfl hbr hb
  have hd1 : (s.step image .quiet).core.registerEx.dmemReadyD1 = s.dcache.dmemReadyReg := rfl
  rw [answered_eq, hr', hfirst, hd1]
  cases hr : s.dcache.dmemReadyReg
  · rcases h.busy hb with hx | hread | ⟨hfc, -⟩
    · simp [hl] at hx
    · -- The load waits for it in EX/MEM.
      have hs : s.core.stallBack (s.coreIn image .quiet) = true := by
        rw [stallBack_eq, hr]
        simp [Core.dmemValid, hread]
      have hread' : (s.step image .quiet).core.exMem.memReadEn = true := by
        rw [exMem_step, hs]
        exact hread
      simp [hread']
    · simp [hfc]
  · simp [h.skips_of_ready hl hb hna hr]

/-- **A busy load lock counts down.** -/
lemma Live.loadLeft_step (h : Live image s) (hl : s.core.idEx.exIsLoad = false) :
    (s.step image .quiet).loadLeft image ≤ s.loadLeft image - 1 := by
  by_cases hb' : (s.step image .quiet).core.registerEx.lstate = .busy
  swap
  · simp [loadLeft, hb']
  obtain ⟨hb, hna⟩ := (Core.busy_step_iff rfl hbr hl).mp hb'
  have hans := h.answered_step hbr hl hb hna
  unfold loadLeft
  simp only [hb', hb, if_true, hna, Bool.false_eq_true, if_false]
  cases hr : s.dcache.dmemReadyReg
  · -- The answer comes nearer.
    have hcoming : s.data.cache.pending = true ∨
        (s.req.valid = true ∧ (s.req.ren = true ∨ s.req.wen = true)) := by
      rcases h.busy hb with hx | hread | ⟨-, hc⟩
      · simp [hl] at hx
      · exact .inr ⟨(req_of_read hread).1, .inl (req_of_read hread).2⟩
      · exact .inl (hc.resolve_left (by simp [hr]))
    have hdue := (h.serves.due_step (p := (s.step image .quiet).req) hr hcoming).1
    have hdue' : (s.step image .quiet).data.due (s.step image .quiet).req + 1 ≤
      s.data.due s.req := hdue
    cases hr' : (s.step image .quiet).dcache.dmemReadyReg
    · simp only [Bool.false_eq_true, if_false]
      split_ifs <;> omega
    · simp only [hans hr', if_true, Bool.false_eq_true, if_false]
      omega
  · -- The lock has skipped an answer, and the load is taken once more.
    have hk := h.skips_of_ready hl hb hna hr
    cases hr' : (s.step image .quiet).dcache.dmemReadyReg
    · have hp' := (h.taken_of_skips hk).resolve_left (by simp [hr'])
      have hdue := DataPath.due_of_pending (s := (s.step image .quiet).data)
        (q := (s.step image .quiet).req) hp'
      simp only [Bool.false_eq_true, if_false, if_true]
      split_ifs <;> omega
    · simp [hans hr']

/-- The second of two answers in a row finds no lock taken. -/
lemma Live.go_of_hit (h : Live image s) (hs : s.core.stallBack (s.coreIn image .quiet) = true)
    (hr : s.dcache.dmemReadyReg = true) (hr' : (s.step image .quiet).dcache.dmemReadyReg = true)
    (hskip : ¬ (s.core.registerEx.lstate = .busy ∧
      s.core.skips (s.coreIn image .quiet) = true)) :
    (s.step image .quiet).core.stallBack ((s.step image .quiet).coreIn image .quiet) = false := by
  have hkeep : (s.step image .quiet).core.idEx = s.core.idEx :=
    Core.idEx_step_of_stall rfl hbr hs
  have hnk : (s.step image .quiet).core.registerEx.loadSkipStale = false := by
    have hstep : (s.step image .quiet).core.registerEx.loadSkipStale =
      (s.core.registerEx.lstate == .busy && s.core.skips (s.coreIn image .quiet)) :=
      Core.skip_step rfl hbr
    rw [hstep]
    simpa using hskip
  rw [stallBack_eq, hkeep, hr', hnk]
  cases hst : s.core.idEx.exIsStore
  · simp
  have hl : s.core.idEx.exIsLoad = false := by
    by_contra hl
    simp [h.front.not_load_and_store (by simpa using hl)] at hst
  have hnb : (s.step image .quiet).core.registerEx.lstate ≠ .busy := by
    intro hb'
    obtain ⟨hb, hna⟩ := (Core.busy_step_iff rfl hbr hl).mp hb'
    exact hskip ⟨hb, h.skips_of_ready hl hb hna hr⟩
  have hns : (s.step image .quiet).core.registerEx.slock = false := by
    have hstep : (s.step image .quiet).core.registerEx.slock =
      ((s.core.registerEx.slock && !s.dcache.dmemReadyReg) || (s.core.registerEx.lstate != .busy &&
        s.core.idEx.exIsStore && !s.core.registerEx.slock)) := Core.slock_step rfl hbr
    rw [hstep, hr, hst]
    cases hb : s.core.registerEx.lstate == .busy
    · -- Without the load lock it is the store lock that has held the store.
      have hk : s.core.registerEx.loadSkipStale = false := by
        by_contra hk
        simp [(h.skip (by simpa using hk)).1] at hb
      rw [stallBack_eq, hb, hr, hk, hst] at hs
      have hslock : s.core.registerEx.slock = true := by simpa using hs
      simp [hslock]
    · simp [bne, hb]
  simp [hnb, hns]

/-- **A load that is held leaves EX/MEM in the end.** -/
lemma Live.backLeft_step_read (h : Live image s) (hread : s.core.exMem.memReadEn = true)
    (hs : s.core.stallBack (s.coreIn image .quiet) = true) :
    (s.step image .quiet).backLeft image + 1 ≤ s.backLeft image := by
  obtain ⟨hv, hren⟩ := req_of_read hread
  have hreq : (s.step image .quiet).req = s.req := req_step_of_stall hs
  have hread' : (s.step image .quiet).core.exMem.memReadEn = true := by
    rw [exMem_step, hs]
    exact hread
  have hdue : (s.step image .quiet).data.hitDue s.req ≤ s.data.hitDue s.req - 1 :=
    h.serves.hitDue_step hv hren
  unfold backLeft readLeft
  rw [hs, hread, hread', hreq]
  simp only [if_true]
  by_cases h0 : s.data.hitDue s.req = 0
  swap
  · rw [if_neg h0]
    split_ifs <;> omega
  have h0' : (s.step image .quiet).data.hitDue s.req = 0 := by omega
  have hr : s.dcache.dmemReadyReg = true := DataPath.ready_of_hitDue h0
  have hr' : (s.step image .quiet).dcache.dmemReadyReg = true := DataPath.ready_of_hitDue h0'
  rw [if_pos h0, if_pos h0']
  by_cases hskip : s.core.registerEx.lstate = .busy ∧
      s.core.skips (s.coreIn image .quiet) = true
  · -- The next answer is not skipped.
    have hfirst : (s.step image .quiet).core.registerEx.firstCycleInBusy =
      (s.core.registerEx.firstCycleInBusy && !s.core.skips (s.coreIn image .quiet)) :=
      Core.firstCycle_step rfl hbr hskip.1
    have hno : (s.step image .quiet).core.skips ((s.step image .quiet).coreIn image .quiet) =
        false := by
      rw [skips_eq, hfirst, hskip.2]
      simp
    rw [if_pos hskip, hno]
    split_ifs <;> simp_all
  · rw [if_neg hskip, h.go_of_hit hbr hs hr hr' hskip]
    simp

/-- Without a load in EX/MEM no answer is skipped. -/
lemma skip_step_of_not_read (hread : s.core.exMem.memReadEn = false) :
    (s.step image .quiet).core.registerEx.loadSkipStale = false := by
  have hstep : (s.step image .quiet).core.registerEx.loadSkipStale =
    (s.core.registerEx.lstate == .busy && s.core.skips (s.coreIn image .quiet)) :=
    Core.skip_step rfl hbr
  rw [hstep, skips_eq, hread]
  simp

/-- **A store that is held leaves EX/MEM in the end.** -/
lemma Live.backLeft_step_write (h : Live image s) (hread : s.core.exMem.memReadEn = false)
    (hwrite : s.core.exMem.memWriteEn = true)
    (hs : s.core.stallBack (s.coreIn image .quiet) = true) :
    (s.step image .quiet).backLeft image + 1 ≤ s.backLeft image := by
  have hreq : (s.step image .quiet).req = s.req := req_step_of_stall hs
  have hexMem : (s.step image .quiet).core.exMem = s.core.exMem := by
    rw [exMem_step, hs]
    rfl
  have hkeep : (s.step image .quiet).core.idEx = s.core.idEx :=
    Core.idEx_step_of_stall rfl hbr hs
  have hst : s.core.idEx.exIsStore = false := by
    by_contra hst
    simp [h.apart (by simpa using hst)] at hwrite
  have hv : s.req.valid = true := by
    have hx : s.req.valid = (s.core.exMem.memWriteEn || s.core.exMem.memReadEn) := rfl
    rw [hx, hwrite]
    rfl
  have hpos := DataPath.storeDue_pos (s := s.data) (q := s.req)
  unfold backLeft
  rw [hs, hreq, hexMem, hread, hwrite]
  simp only [Bool.false_eq_true, if_false, if_true]
  rcases h.serves.storeDue_step hv hread hwrite with hr' | hdue
  · have hgo : (s.step image .quiet).core.stallBack ((s.step image .quiet).coreIn image .quiet) =
        false := by
      have hready : (s.step image .quiet).dcache.dmemReadyReg = true := hr'
      rw [stallBack_eq, hkeep, hst, hready, skip_step_of_not_read hbr hread]
      simp
    simp [hgo, hpos]
  · have hdue' : (s.step image .quiet).data.storeDue s.req + 1 ≤ s.data.storeDue s.req := hdue
    split_ifs <;> omega

/-- **A back that no access holds waits for the load lock.** -/
lemma Live.backLeft_step_none (h : Live image s) (hread : s.core.exMem.memReadEn = false)
    (hwrite : s.core.exMem.memWriteEn = false)
    (hs : s.core.stallBack (s.coreIn image .quiet) = true) :
    (s.step image .quiet).backLeft image + 1 ≤ s.backLeft image := by
  have hexMem : (s.step image .quiet).core.exMem = s.core.exMem := by
    rw [exMem_step, hs]
    rfl
  have hkeep : (s.step image .quiet).core.idEx = s.core.idEx :=
    Core.idEx_step_of_stall rfl hbr hs
  have hv : s.core.dmemValid = false := by simp [Core.dmemValid, hread, hwrite]
  have hslock : s.core.registerEx.slock = false := by
    by_contra hl
    simp [h.slock (by simpa using hl)] at hv
  have hb : s.core.registerEx.lstate = .busy := by
    by_contra hb
    have hk : s.core.registerEx.loadSkipStale = false := by
      by_contra hk
      exact hb (h.skip (by simpa using hk)).1
    rw [stallBack_eq, hslock, hv, hk] at hs
    simp [hb] at hs
  have hpos : 1 ≤ s.loadLeft image := by
    unfold loadLeft
    rw [if_pos hb]
    split_ifs <;> omega
  unfold backLeft
  rw [hs, hexMem, hread, hwrite]
  simp only [Bool.false_eq_true, if_false, if_true]
  cases hl : s.core.idEx.exIsLoad
  · have hload := h.loadLeft_step hbr hl
    split_ifs <;> omega
  · -- A load is held by a skip only.
    have hgo : (s.step image .quiet).core.stallBack ((s.step image .quiet).coreIn image .quiet) =
        false := by
      have hv' : (s.step image .quiet).core.dmemValid = false := by
        rw [Core.dmemValid, hexMem]
        exact hv
      rw [stallBack_eq, hkeep, h.front.not_load_and_store hl, hv', skip_step_of_not_read hbr hread]
      simp
    simp [hgo, hpos]

/-- **A held back counts down.** -/
lemma Live.backLeft_step (h : Live image s)
    (hs : s.core.stallBack (s.coreIn image .quiet) = true) :
    (s.step image .quiet).backLeft image + 1 ≤ s.backLeft image := by
  cases hread : s.core.exMem.memReadEn
  · cases hwrite : s.core.exMem.memWriteEn
    · exact h.backLeft_step_none hbr hread hwrite hs
    · exact h.backLeft_step_write hbr hread hwrite hs
  · exact h.backLeft_step_read hbr hread hs

omit hbr in
/-- A back that is let go by a bubble is held again by the load lock only. -/
lemma backLeft_step_of_go (hgo : s.core.stallBack (s.coreIn image .quiet) = false)
    (hl : s.core.idEx.exIsLoad = false) (hst : s.core.idEx.exIsStore = false) :
    (s.step image .quiet).backLeft image ≤ (s.step image .quiet).loadLeft image := by
  have hread : (s.step image .quiet).core.exMem.memReadEn = false := by
    rw [exMem_step, hgo]
    simp [Core.exMemIn, ExIn.memReadEn, Core.exIn, hl]
  have hwrite : (s.step image .quiet).core.exMem.memWriteEn = false := by
    rw [exMem_step, hgo]
    simp [Core.exMemIn, ExIn.memWriteEn, Core.exIn, hst]
  unfold backLeft
  rw [hread, hwrite]
  simp only [Bool.false_eq_true, if_false]
  split_ifs <;> omega

end Cycle

/-! ### The measure -/

/-- The cycles until an instruction takes effect, at most. -/
def wait (image : BitVec 10 → BitVec 32) (s : SocDcache) : ℕ :=
  s.core.wait (s.backLeft image) (s.loadLeft image)

/-- **A cycle in which no instruction takes effect lowers the measure.** -/
theorem Live.wait_step (h : Live image s)
    (hx : s.core.executes (s.coreIn image .quiet) = false) :
    wait image (s.step image .quiet) + 1 ≤ wait image s := by
  refine Core.wait_step h.front (coreIn_undisturbed image s) hx ?_ ?_ ?_ ?_
  · intro hs hbr _
    exact h.backLeft_step hbr hs
  · intro hv
    obtain ⟨hl, -, hbr⟩ := Core.bubble_of_invalid (i := s.coreIn image .quiet) h.front hv
    exact h.loadLeft_step hbr hl
  · intro hv hs
    obtain ⟨hl, hst, -⟩ := Core.bubble_of_invalid (i := s.coreIn image .quiet) h.front hv
    exact backLeft_step_of_go hs hl hst
  · intro hb
    unfold loadLeft
    rw [if_pos hb]
    split_ifs <;> omega

/-- The measure is at most twelve. -/
lemma wait_le : wait image s ≤ 12 := by
  have hdue := DataPath.due_le (s := s.data) (q := s.req)
  have hhit := DataPath.hitDue_le (s := s.data) (q := s.req)
  have hstore := DataPath.storeDue_le (s := s.data) (q := s.req)
  have hload : s.loadLeft image ≤ 4 := by
    unfold loadLeft
    split_ifs <;> omega
  have hback : s.backLeft image ≤ 10 := by
    unfold backLeft readLeft
    split_ifs <;> omega
  unfold wait Core.wait
  split_ifs <;> omega

/-! ### Runs -/

variable (image c d) in
/-- An instruction takes effect in cycle `n`. -/
def executesAt (n : ℕ) : Bool :=
  (quietRun image c d n).core.executes ((quietRun image c d n).coreIn image .quiet)

lemma live_run (hP : ∀ k < n, ¬ StorePair image (quietRun image c d k)) :
    Live image (quietRun image c d n) :=
  holds_along (I := fun k => Live image (quietRun image c d k)) live_reset
    (fun _ h hk => h.step hk) hP

/-- A cycle in which no instruction takes effect lowers the measure. -/
lemma wait_run_lt (hP : ∀ k ≤ n, ¬ StorePair image (quietRun image c d k))
    (hx : ¬ executesAt image c d n = true) :
    wait image (quietRun image c d (n + 1)) < wait image (quietRun image c d n) := by
  rw [executesAt, Bool.not_eq_true] at hx
  exact (live_run fun k hk => hP k (by omega)).wait_step hx

/-- **Progress through the data cache.** As long as no two stores come in a row, an instruction
takes effect in one of every thirteen cycles. -/
theorem dcache_executes_within (hP : ∀ k < n + 13, ¬ StorePair image (quietRun image c d k)) :
    ∃ k, n ≤ k ∧ k < n + 13 ∧ executesAt image c d k = true := by
  refine progress_within (r := fun k => wait image (quietRun image c d k))
    (Nat.lt_succ_of_le wait_le) ?_
  intro k _ hk
  exact wait_run_lt fun j hj => hP j (by omega)

/-- Loads at every address, over a data memory and a cache of zeros. -/
theorem dcache_executes_within_loads :
    ∃ k, 0 ≤ k ∧ k < 0 + 13 ∧ executesAt (fun _ => 0x00002003#32) .zero .zero k = true := by
  refine dcache_executes_within ?_
  have hno : ∀ k < 13,
      (quietRun (fun _ => 0x00002003#32) .zero .zero k).core.idEx.exIsStore = false := by
    decide +kernel
  intro k hk hp
  exact absurd ((hno k hk).symm.trans hp.first) (by simp)

/-! ### Two stores in a row -/

/-- **A store is held behind a store**: whenever the cache answers the first, the second has the
lock. -/
structure Deadlocked (image : BitVec 10 → BitVec 32) (s : SocDcache) : Prop where
  front : FrontOk (instMem image) s.core
  second : s.core.idEx.exIsStore = true
  first : s.core.exMem.memWriteEn = true
  single : s.core.exMem.memReadEn = false
  noLoad : s.core.registerEx.lstate ≠ .busy
  noSkip : s.core.registerEx.loadSkipStale = false
  locked : s.dcache.dmemReadyReg = true → s.core.registerEx.slock = true
  answered : s.dcache.dmemReadyReg = true → s.dcache.pending = false

/-- The locks with a store in EX and no load lock. -/
lemma locks_step (hfront : FrontOk (instMem image) s.core) (hst : s.core.idEx.exIsStore = true)
    (hb : s.core.registerEx.lstate ≠ .busy) :
    (s.step image .quiet).core.registerEx.lstate ≠ .busy ∧
      (s.step image .quiet).core.registerEx.loadSkipStale = false ∧
      ((s.core.registerEx.slock = true → s.dcache.dmemReadyReg = false) →
        (s.step image .quiet).core.registerEx.slock = true) := by
  have hl : s.core.idEx.exIsLoad = false := by
    by_contra hl
    simp [hfront.not_load_and_store (by simpa using hl)] at hst
  have hbr := hfront.branchHazardEx_of_store hst (s.coreIn image .quiet)
  refine ⟨?_, ?_, ?_⟩
  · intro hb'
    exact hb ((Core.busy_step_iff rfl hbr hl).mp hb').1
  · have hstep : (s.step image .quiet).core.registerEx.loadSkipStale =
      (s.core.registerEx.lstate == .busy && s.core.skips (s.coreIn image .quiet)) :=
      Core.skip_step rfl hbr
    simp [hstep, hb]
  · intro hfree
    have hstep : (s.step image .quiet).core.registerEx.slock =
      ((s.core.registerEx.slock && !s.dcache.dmemReadyReg) || (s.core.registerEx.lstate != .busy &&
        s.core.idEx.exIsStore && !s.core.registerEx.slock)) := Core.slock_step rfl hbr
    rw [hstep, hst]
    cases hs : s.core.registerEx.slock
    · simp [hb]
    · simp [hfree hs]

namespace Deadlocked

lemma holdsStore (h : Deadlocked image s) : s.core.HoldsStore (s.coreIn image .quiet) where
  front := h.front.shape
  store := h.second
  stall := by
    have hv : s.core.dmemValid = true := by simp [Core.dmemValid, h.first]
    rw [stallBack_eq, hv, h.second]
    cases hr : s.dcache.dmemReadyReg
    · simp
    · simp [h.locked hr]
  flush := rfl

/-- The first store stays in EX/MEM, with an answer or without. -/
lemma exMem_step (h : Deadlocked image s) :
    (s.step image .quiet).core.exMem = s.core.exMem := by
  rw [SocDcache.exMem_step, h.holdsStore.stall]
  rfl

/-- **One cycle**: without an answer the second store takes the lock, and the lock that an answer
frees is back before the next one. -/
lemma step (h : Deadlocked image s) : Deadlocked image (s.step image .quiet) := by
  obtain ⟨hb, hskip, hlock⟩ := locks_step h.front h.second h.noLoad
  have hidEx : (s.step image .quiet).core.idEx = s.core.idEx := h.holdsStore.idEx_step
  have hexMem := h.exMem_step
  have hcache : (s.step image .quiet).dcache = s.dcache.step (s.data.cacheIn s.req) := rfl
  refine ⟨h.front.step fun _ => rfl, by rw [hidEx, h.second], by rw [hexMem, h.first],
    by rw [hexMem, h.single], hb, hskip, ?_, CacheData.not_pending_of_ready⟩
  intro hr'
  refine hlock fun _ => ?_
  by_contra hr
  have hquiet := CacheData.not_ready_of_store (i := s.data.cacheIn s.req)
    (h.answered (by simpa using hr)) h.single
  rw [hcache, hquiet] at hr'
  cases hr'

end Deadlocked

/-- A store is no JAL. -/
lemma idStage_not_jump_of_store {w : BitVec 32} (h : (idStage w).isStore = true) :
    (idStage w).isJump = false := by
  simp only [idStage, beq_iff_eq] at h ⊢
  rw [h]
  decide

/-- **The second store of a pair gets behind the first.** -/
lemma StorePair.deadlocked_step (h : StorePair image s)
    (hfront : FrontOk (instMem image) s.core) : Deadlocked image (s.step image .quiet) := by
  have hl : s.core.idEx.exIsLoad = false := by
    have hst := h.first
    by_contra hl
    simp [hfront.not_load_and_store (by simpa using hl)] at hst
  have hgo := h.go
  rw [stallBack_eq, h.first, Bool.and_true] at hgo
  simp only [Bool.or_eq_false_iff, beq_eq_false_iff_ne] at hgo
  obtain ⟨⟨⟨hb, hs⟩, -⟩, -⟩ := hgo
  obtain ⟨hb', hskip, hlock⟩ := locks_step hfront h.first hb
  have hbr := hfront.branchHazardEx_of_store h.first (s.coreIn image .quiet)
  have hvalid : s.core.idEx.exInstrValid = true := hfront.valid_of (.inr (.inr h.first))
  have hidEx : (s.step image .quiet).core.idEx = IdExReg.ofId s.core.ifId s.core.id := by
    have hlu : s.core.loadUseHazard (s.coreIn image .quiet) = false := by
      simp [Core.loadUseHazard, HazardIn.loadUseHazard, Core.hazard, RegisterEx.loadPendingOut, hb,
        hl]
    have hj : s.core.jumpIf = false := by
      have hnj : s.core.id.isJump = false := idStage_not_jump_of_store h.second
      rw [Core.jumpIf, hnj, Bool.false_and]
    have hstep : (s.step image .quiet).core.idEx = _ :=
      Core.idEx_step (coreIn_undisturbed image s) hbr hj
    rw [hstep, h.go, hlu]
    rfl
  refine ⟨hfront.step fun _ => rfl, by rw [hidEx]; exact h.second, ?_, ?_, hb', hskip, ?_,
    CacheData.not_pending_of_ready⟩
  · rw [exMem_step, h.go]
    simp [Core.exMemIn, ExIn.memWriteEn, ExIn.instrValidFinal, ExIn.memReqBlock, Core.exIn,
      h.first, hvalid, hs]
  · rw [exMem_step, h.go]
    simp [Core.exMemIn, ExIn.memReadEn, Core.exIn, hl]
  · exact fun _ => hlock fun hs' => by simp [hs] at hs'

/-- The front registers hold words of the program. -/
lemma frontOk_quietRun (n : ℕ) : FrontOk (instMem image) (quietRun image c d n).core := by
  induction n with
  | zero => exact frontOk_reset
  | succ n ih => exact ih.step fun _ => rfl

variable (image c d) in
/-- **The first store of a pair rests in EX/MEM** from cycle `k` on, whatever the cache answers: the
second one stays in EX, and at most one more instruction takes effect, a JAL. -/
structure PairRests (k : ℕ) : Prop where
  first : (quietRun image c d k).core.exMem.memWriteEn = true
  stays : ∀ n ≥ k, (quietRun image c d n).core.exMem = (quietRun image c d k).core.exMem
  second : Core.RestsFrom (fun n => (quietRun image c d n).core)
    (fun n => (quietRun image c d n).coreIn image .quiet) k

/-- From a pair on, the second store holds the first. -/
lemma pairRests_of_storePair {k : ℕ} (h : StorePair image (quietRun image c d k)) :
    PairRests image c d (k + 1) := by
  have hheld : ∀ m ≥ k + 1, Deadlocked image (quietRun image c d m) := by
    intro m hm
    induction m, hm using Nat.le_induction with
    | base => exact h.deadlocked_step (frontOk_quietRun k)
    | succ m _ ih => exact ih.step
  refine ⟨(hheld (k + 1) le_rfl).first, ?_, Core.restsFrom_of_holdsStore (fun _ => rfl)
    fun m hm => (hheld m hm).holdsStore⟩
  intro m hm
  induction m, hm using Nat.le_induction with
  | base => rfl
  | succ m hm ih => exact (hheld m hm).exMem_step.trans ih

variable (image c d) in
/-- **The system with the data cache goes on for ever exactly when no two stores come in a row**;
and when they do, the second holds the first for ever. -/
theorem dcache_executes_forever_iff :
    ((∀ n, ∃ k ≥ n, executesAt image c d k = true) ↔
      ∀ k, ¬ StorePair image (quietRun image c d k)) ∧
    ∀ k, StorePair image (quietRun image c d k) → PairRests image c d (k + 1) := by
  refine ⟨recurs_iff (r := fun k => wait image (quietRun image c d k)) 0 ?_ ?_,
    fun k hp => pairRests_of_storePair hp⟩
  · intro k _ hp
    obtain ⟨m, hrest⟩ := (pairRests_of_storePair hp).second.rests
    exact ⟨m, fun n hn => by simpa [executesAt] using hrest n hn⟩
  · intro hP k _
    exact wait_run_lt fun j _ => hP j

end SocDcache

end RiscvSoc.Rtl
