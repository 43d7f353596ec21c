import Mathlib.Logic.Function.Iterate
import RiscvSoc.Pipeline.Front

/-!
# The store lock under external stalls

A store takes the lock by being in EX, whether it moves on or not, and only an answer of the data
memory frees it.  The lock outlives its accesses exactly when the external stall catches a store
that would take it while no access is under way.
-/

namespace RiscvSoc.Rtl

open Sync

/-- Of the external pins only `stall` may be raised. -/
def ExtIn.stalled (stall : Bool) : ExtIn := { ExtIn.quiet with stall := stall }

namespace SocBram

/-- The state in cycle `n`, when the external stall follows the pattern `st`. -/
def stallRun (image : BitVec 10 → BitVec 32) (d : DataMem) (st : ℕ → Bool) (n : ℕ) : SocBram :=
  (machine image d).run (fun k => .stalled (st k)) n

/-- **Stuck**: a store in EX is held by a lock, EX/MEM is empty, and without any external input
nothing changes any more. -/
structure Stuck (image : BitVec 10 → BitVec 32) (s : SocBram) : Prop where
  stalled : s.core.registerEx.memStallReq s.core.idEx.exIsStore = true
  empty : s.core.dmemValid = false
  still : ∀ m, (fun t : SocBram => t.step image .quiet)^[m] s = s

/-- **The lock serves its store** in cycle `n`: while it holds a store back an access is under way
or the memory answers, now or in the next cycle; and the core is not stuck. -/
structure LockServes (image : BitVec 10 → BitVec 32) (d : DataMem) (st : ℕ → Bool) (n : ℕ) :
    Prop where
  freed : (stallRun image d st n).core.registerEx.slock = true →
    (stallRun image d st n).core.idEx.exIsStore = true →
    (stallRun image d st n).core.dmemValid = true ∨
      (stallRun image d st n).dmem.ready = true ∨ (stallRun image d st (n + 1)).dmem.ready = true
  live : ¬ Stuck image (stallRun image d st n)

/-- **The external stall catches a store** that takes the lock while no access is under way. -/
structure CatchesStore (s : SocBram) (stall : Bool) : Prop where
  stall : stall = true
  store : s.core.idEx.exIsStore = true
  free : s.core.registerEx.slock = false
  noLoad : s.core.registerEx.lstate ≠ .busy
  empty : s.core.dmemValid = false

/-- **The locks have an end in sight**: the store lock an access or its answer, the load lock its
load or the answer it still waits for. -/
structure LocksOk (image : BitVec 10 → BitVec 32) (s : SocBram) : Prop where
  front : FrontOk (instMem image) s.core
  skip : s.core.registerEx.loadSkipStale = true → s.core.registerEx.lstate = .busy
  busy : s.core.registerEx.lstate = .busy → s.core.idEx.exIsLoad = true ∨
    s.core.exMem.memReadEn = true ∨
      (s.core.registerEx.firstCycleInBusy = false ∧ s.dmem.readyReg = true)
  slock : s.core.registerEx.slock = true → s.core.dmemValid = true ∨ s.dmem.readyReg = true

variable {image : BitVec 10 → BitVec 32} {d : DataMem} {st : ℕ → Bool} {s : SocBram} {b : Bool}
  {n : ℕ}

/-! ### One cycle -/

lemma coreIn_stalled (s : SocBram) (b : Bool) :
    s.coreIn image (.stalled b) = { s.bus with stall := b }.pins (instMem image) s.core := rfl

lemma stallRun_succ (n : ℕ) :
    stallRun image d st (n + 1) = (stallRun image d st n).step image (.stalled (st n)) := rfl

/-- The memory is ready for what was valid in the cycle before. -/
lemma ready_step (x : ExtIn) : (s.step image x).dmem.readyReg = s.core.dmemValid := rfl

/-- What holds the back of the pipeline. -/
lemma stallBack_stalled : s.core.stallBack (s.coreIn image (.stalled b)) =
    (b || (((s.core.registerEx.lstate == .busy || s.core.registerEx.slock) &&
      s.core.idEx.exIsStore) || (s.core.dmemValid && !s.dmem.readyReg) ||
        s.core.registerEx.loadSkipStale)) := s.core.stallBack_eq _

/-- A held EX/MEM keeps its access. -/
lemma exMem_step_of_stall (h : s.core.stallBack (s.coreIn image (.stalled b)) = true) :
    (s.step image (.stalled b)).core.exMem = s.core.exMem :=
  (Core.exMem_step (s := s.core) rfl).trans (by rw [h]; rfl)

/-- What leaves EX is in EX/MEM. -/
lemma exMem_step_of_go (h : s.core.stallBack (s.coreIn image (.stalled b)) = false) :
    (s.step image (.stalled b)).core.exMem = s.core.exMemIn (s.coreIn image (.stalled b)) :=
  (Core.exMem_step (s := s.core) rfl).trans (by rw [h]; rfl)

/-- A held load or store stays in EX: nothing redirects, and the other flushes wait. -/
lemma LocksOk.idEx_step_of_stall (h : LocksOk image s)
    (ha : s.core.idEx.exIsLoad = true ∨ s.core.idEx.exIsStore = true)
    (hs : s.core.stallBack (s.coreIn image (.stalled b)) = true) :
    (s.step image (.stalled b)).core.idEx = s.core.idEx := by
  have hf : s.core.flushIdex (s.coreIn image (.stalled b)) = false := by
    rw [coreIn_stalled, Core.flushIdex_pins, ← coreIn_stalled,
      h.front.branchHazardEx_of_access ha, hs]
    simp
  simp [step, Core.step, IdExReg.step, hf, hs]

variable (image b) in
lemma wires_stalled (s : SocBram) :
    s.core.Wires (s.coreIn image (.stalled b)) s.dmem.readyReg s.dmem.dataOut := Core.wires rfl

/-- A skip keeps the load lock. -/
lemma skip_step (s : SocBram)
    (h : (s.step image (.stalled b)).core.registerEx.loadSkipStale = true) :
    (s.step image (.stalled b)).core.registerEx.lstate = .busy :=
  (Core.busy_of_skip (s := s.core) h).1

/-- **The load lock keeps an end in sight.** -/
lemma LocksOk.busy_step (h : LocksOk image s)
    (hb : (s.step image (.stalled b)).core.registerEx.lstate = .busy) :
    (s.step image (.stalled b)).core.idEx.exIsLoad = true ∨
      (s.step image (.stalled b)).core.exMem.memReadEn = true ∨
      ((s.step image (.stalled b)).core.registerEx.firstCycleInBusy = false ∧
        (s.step image (.stalled b)).dmem.readyReg = true) := by
  obtain ⟨hflush, hload, -, hready, hsucc⟩ := wires_stalled image b s
  cases hl : s.core.idEx.exIsLoad
  · -- The load is behind EX, and has not been answered.
    have hwas : s.core.registerEx.lstate = .busy := by
      have hb' := hb
      simp only [step, Core.step, RegisterEx.step, RegisterEx.lstateStep, hload, hl] at hb'
      cases hst : s.core.registerEx.lstate <;> simp [hst] at hb' ⊢
    have hnf : s.core.branchHazardEx (s.coreIn image (.stalled b)) = false := by
      have hb' := hb
      simp only [step, Core.step, RegisterEx.step, RegisterEx.lstateStep, hflush] at hb'
      by_contra hf
      rw [Bool.not_eq_false] at hf
      simp [hf] at hb'
    have hb' := hb
    simp only [step, Core.step, RegisterEx.step, RegisterEx.lstateStep, hflush, hnf, hwas,
      hsucc] at hb'
    rcases h.busy hwas with hx | hr | ⟨hfc, hr⟩
    · simp [hl] at hx
    · cases hs : s.core.stallBack (s.coreIn image (.stalled b))
      · -- It leaves EX/MEM on a ready that the lock skips.
        right; right
        have hv : s.core.dmemValid = true := by simp [Core.dmemValid, hr]
        have hrd : s.dmem.readyReg = true := by
          rw [stallBack_stalled, hv] at hs
          simp only [Bool.or_eq_false_iff, Bool.true_and, Bool.not_eq_false'] at hs
          exact hs.2.1.2
        refine ⟨?_, by rw [ready_step, hv]⟩
        rw [hrd, hr] at hb'
        simp only [step, Core.step, RegisterEx.step, RegisterEx.firstCycleStep, hflush, hnf, hwas,
          RegisterEx.staleReady, hsucc, hrd, hr]
        cases hfc : s.core.registerEx.firstCycleInBusy <;>
          cases hd : s.core.registerEx.dmemReadyD1 <;> simp [hfc, hd] at hb' ⊢
      · right; left
        rw [exMem_step_of_stall hs, hr]
    · cases hm : s.core.exMem.memReadEn
      · simp [RegisterEx.lateReady, RegisterEx.staleReady, hready, hsucc, hm, hfc, hr] at hb'
      · simp [hm, hfc, hr] at hb'
  · cases hs : s.core.stallBack (s.coreIn image (.stalled b))
    · right; left
      have hv : s.core.idEx.exInstrValid = true := h.front.valid_of (.inr (.inl hl))
      have hns := h.front.not_load_and_store hl
      rw [exMem_step_of_go hs]
      simp [Core.exMemIn, ExIn.memReadEn, ExIn.instrValidFinal, ExIn.memReqBlock, Core.exIn, hl,
        hv, hns]
    · left
      rw [h.idEx_step_of_stall (.inl hl) hs, hl]

/-- **The store lock keeps an end in sight** unless the stall catches its store. -/
lemma LocksOk.slock_step (h : LocksOk image s) (hC : ¬ s.CatchesStore b)
    (hb : (s.step image (.stalled b)).core.registerEx.slock = true) :
    (s.step image (.stalled b)).core.dmemValid = true := by
  rcases RegisterEx.slockNext_cases hb with ⟨hs, hr⟩ | ⟨hl, hst, hs⟩
  · -- Not answered yet: the access stays.
    have hr' : s.dmem.readyReg = false := hr
    have hv : s.core.dmemValid = true := by
      rcases h.slock hs with hv | hv
      · exact hv
      · rw [hr'] at hv
        cases hv
    have hstall : s.core.stallBack (s.coreIn image (.stalled b)) = true := by
      rw [stallBack_stalled, hv, hr']
      simp
    rw [Core.dmemValid, exMem_step_of_stall hstall]
    exact hv
  · -- Taken by the store in EX: it moves on, or another access holds it.
    have hst' : s.core.idEx.exIsStore = true := hst
    cases hgo : s.core.stallBack (s.coreIn image (.stalled b))
    · have hv : s.core.idEx.exInstrValid = true := h.front.valid_of (.inr (.inr hst'))
      rw [Core.dmemValid, exMem_step_of_go hgo]
      simp [Core.exMemIn, ExIn.memWriteEn, ExIn.instrValidFinal, ExIn.memReqBlock, Core.exIn, hst',
        hv, hs]
    · rw [Core.dmemValid, exMem_step_of_stall hgo]
      by_contra hv
      have hv' : s.core.dmemValid = false := by simpa [Core.dmemValid] using hv
      have hskip : s.core.registerEx.loadSkipStale = false := by
        by_contra hk
        exact hl (h.skip (by simpa using hk))
      have hb1 : b = true := by
        rw [stallBack_stalled, hs, hskip, hv'] at hgo
        simpa [hl] using hgo
      exact hC ⟨hb1, hst', hs, hl, hv'⟩

/-- **One cycle of the locks.** -/
theorem LocksOk.step (h : LocksOk image s) (hC : ¬ s.CatchesStore b) :
    LocksOk image (s.step image (.stalled b)) where
  front := h.front.step fun _ => rfl
  skip := skip_step s
  busy := h.busy_step
  slock hb := .inl (h.slock_step hC hb)

/-! ### The lock serves its store -/

lemma locksOk_reset : LocksOk image ⟨Core.reset, d.reset⟩ where
  front := frontOk_reset
  skip h := by simp [Core.reset, RegisterEx.reset] at h
  busy h := by simp [Core.reset, RegisterEx.reset] at h
  slock h := by simp [Core.reset, RegisterEx.reset] at h

/-- A lock with an end in sight changes, so the core is not stuck. -/
lemma LocksOk.not_stuck (h : LocksOk image s) : ¬ Stuck image s := by
  rintro ⟨hreq, hempty, hstill⟩
  have hfix : s.step image (.stalled false) = s := hstill 1
  simp only [RegisterEx.memStallReq, Bool.and_eq_true, Bool.or_eq_true, beq_iff_eq] at hreq
  obtain ⟨hlock, hst⟩ := hreq
  have hnf : s.core.branchHazardEx (s.coreIn image (.stalled false)) = false :=
    h.front.branchHazardEx_of_store hst _
  have hread : s.core.exMem.memReadEn = false := by
    simp only [Core.dmemValid, Bool.or_eq_false_iff] at hempty
    exact hempty.2
  obtain ⟨hflush, -, -, hready, hsucc⟩ := wires_stalled image false s
  rcases hlock with hbusy | hs
  · -- The answer that the load waits for frees the load lock.
    have hnl : s.core.idEx.exIsLoad = false := by
      by_contra hl
      simp [h.front.not_load_and_store (by simpa using hl)] at hst
    have hwait : s.core.registerEx.firstCycleInBusy = false ∧ s.dmem.readyReg = true := by
      rcases h.busy hbusy with hl | hr | hw
      · simp [hnl] at hl
      · simp [hread] at hr
      · exact hw
    have hnext : (s.step image (.stalled false)).core.registerEx.lstate = .release := by
      simp [SocBram.step, Core.step, RegisterEx.step, RegisterEx.lstateStep, RegisterEx.lateReady,
        RegisterEx.staleReady, hflush, hnf, hready, hsucc, hbusy, hread, hwait.1, hwait.2]
    rw [hfix, hbusy] at hnext
    cases hnext
  · -- The answer of the access before frees the store lock.
    have hr : s.dmem.readyReg = true := by
      rcases h.slock hs with hv | hr
      · simp [hempty] at hv
      · exact hr
    have hnext : (s.step image (.stalled false)).core.registerEx.slock = false := by
      simp [SocBram.step, Core.step, RegisterEx.step, RegisterEx.slockNext, hflush, hnf, hready,
        hs, hr]
    rw [hfix, hs] at hnext
    cases hnext

/-- A caught store has the lock and nothing that could free it. -/
lemma CatchesStore.lock_step (hc : s.CatchesStore b) (h : LocksOk image s) :
    (s.step image (.stalled b)).core.registerEx.slock = true ∧
      (s.step image (.stalled b)).core.idEx.exIsStore = true ∧
      (s.step image (.stalled b)).core.dmemValid = false ∧
      (s.step image (.stalled b)).dmem.readyReg = false := by
  have hstall : s.core.stallBack (s.coreIn image (.stalled b)) = true := by
    rw [stallBack_stalled, hc.stall]
    rfl
  have hnf := h.front.branchHazardEx_of_store hc.store (s.coreIn image (.stalled b))
  obtain ⟨hflush, -, hstore, -, -⟩ := wires_stalled image b s
  refine ⟨?_, ?_, ?_, by rw [ready_step, hc.empty]⟩
  · simp [SocBram.step, Core.step, RegisterEx.step, RegisterEx.slockNext, hflush, hnf, hstore,
      hc.store, hc.free, hc.noLoad]
  · rw [h.idEx_step_of_stall (.inr hc.store) hstall, hc.store]
  · rw [Core.dmemValid, exMem_step_of_stall hstall]
    exact hc.empty

/-- **After a cycle the lock serves its store exactly when the stall has not caught it.** -/
lemma LocksOk.lockServes_succ_iff (h : LocksOk image (stallRun image d st n)) :
    LockServes image d st (n + 1) ↔ ¬ (stallRun image d st n).CatchesStore (st n) := by
  constructor
  · intro hs hc
    obtain ⟨hl, hst, hv, hr⟩ := hc.lock_step h
    rcases hs.freed hl hst with hx | hx | hx
    · rw [stallRun_succ, hv] at hx
      cases hx
    · exact absurd (hr.symm.trans hx) (by simp)
    · exact absurd (hv.symm.trans hx) (by simp)
  · intro hC
    have h' := h.step hC
    refine ⟨?_, h'.not_stuck⟩
    intro hl _
    rcases h'.slock hl with hv | hr
    · exact .inl hv
    · exact .inr (.inl hr)

lemma lockServes_zero : LockServes image d st 0 := by
  refine ⟨?_, locksOk_reset.not_stuck⟩
  intro h
  exact absurd h (by simp [stallRun, machine, Core.reset, RegisterEx.reset])

variable (image d st n) in
/-- **The store lock serves its store exactly as long as no external stall catches a store.** -/
theorem lockServes_iff_not_catchesStore :
    (∀ k ≤ n + 1, LockServes image d st k) ↔
      ∀ k ≤ n, ¬ (stallRun image d st k).CatchesStore (st k) := by
  have hiff := forall_le_iff (P := fun k => LockServes image d st (k + 1))
    (C := fun k => ¬ (stallRun image d st k).CatchesStore (st k))
    (I := fun k => LocksOk image (stallRun image d st k)) locksOk_reset
    (fun _ h hC => h.step hC) (fun _ h => h.lockServes_succ_iff) n
  rw [← hiff]
  constructor
  · intro h k hk
    exact h (k + 1) (by omega)
  · intro h k hk
    cases k with
    | zero => exact lockServes_zero
    | succ k => exact h k (by omega)

/-- `sw x0, 0(x0)` at every address, and a stall in cycle 2, when the first is in EX. -/
theorem caughtStore_not_served : ¬ ∀ image d st n, LockServes image d st n := by
  intro h
  have hf := (h (fun _ => 0x00002023#32) .zero (fun n => n == 2) 3).freed
  revert hf
  decide +kernel

end SocBram

end RiscvSoc.Rtl
