import Mathlib.Data.Nat.Find
import RiscvSoc.Pipeline.Progress
import RiscvSoc.Pipeline.StoreLock

/-!
# Every program makes progress on `soc_top_bram`

What holds the pipeline ends by itself.  A store that the external stall has caught is the only
thing that waits for ever.
-/

namespace RiscvSoc.Rtl

open Sync

lemma SocBram.coreIn_undisturbed (image : BitVec 10 → BitVec 32) (s : SocBram) :
    (s.coreIn image .quiet).Undisturbed := ⟨rfl, rfl, rfl⟩

namespace SocBram

variable (image : BitVec 10 → BitVec 32) (s : SocBram)

/-! ### What is left to wait for -/

/-- The cycles that the load lock is still busy. -/
def loadLeft : ℕ :=
  if s.core.registerEx.lstate = .busy then
    if s.core.answered (s.coreIn image .quiet) then 1 else 2
  else 0

/-- A store in EX finds a lock taken in the next cycle too. -/
def lockedNext : Bool :=
  s.core.idEx.exIsStore &&
    ((s.core.registerEx.lstate == .busy && !s.core.answered (s.coreIn image .quiet)) ||
      (s.core.registerEx.slock && !s.dmem.readyReg) ||
      (s.core.registerEx.lstate != .busy && !s.core.registerEx.slock))

/-- The cycles that the back of the pipeline is still held. -/
def backLeft : ℕ :=
  if s.core.stallBack (s.coreIn image .quiet) then if s.lockedNext image then 2 else 1 else 0

/-- **The locks end by themselves**, and a skipped answer is the first that a lock sees. -/
structure Live : Prop where
  locks : LocksOk image s
  skipFirst : s.core.registerEx.loadSkipStale = true →
    s.core.registerEx.firstCycleInBusy = false

variable {image s} {d : DataMem} {st : ℕ → Bool} {b : Bool} {n : ℕ}

lemma live_reset : Live image ⟨Core.reset, d.reset⟩ where
  locks := locksOk_reset
  skipFirst h := by simp [Core.reset, RegisterEx.reset] at h

lemma Live.step (h : Live image s) (hC : ¬ s.CatchesStore b) :
    Live image (s.step image (.stalled b)) where
  locks := h.locks.step hC
  skipFirst hk := (Core.busy_of_skip hk).2

/-! ### The locks in a cycle without a redirect -/

lemma stallBack_eq : s.core.stallBack (s.coreIn image .quiet) =
    (((s.core.registerEx.lstate == .busy || s.core.registerEx.slock) && s.core.idEx.exIsStore) ||
      (s.core.dmemValid && !s.dmem.readyReg) || s.core.registerEx.loadSkipStale) :=
  s.core.stallBack_eq _

section Cycle

variable (hbr : s.core.branchHazardEx (s.coreIn image .quiet) = false)
include hbr

lemma busy_step_iff (hl : s.core.idEx.exIsLoad = false) :
    (s.step image .quiet).core.registerEx.lstate = .busy ↔
      s.core.registerEx.lstate = .busy ∧ s.core.answered (s.coreIn image .quiet) = false :=
  Core.busy_step_iff rfl hbr hl

lemma slock_step_eq : (s.step image .quiet).core.registerEx.slock =
    ((s.core.registerEx.slock && !s.dmem.readyReg) || (s.core.registerEx.lstate != .busy &&
      s.core.idEx.exIsStore && !s.core.registerEx.slock)) :=
  Core.slock_step rfl hbr

/-- The answer after one that a busy lock has not taken is its own. -/
lemma Live.answered_step (h : Live image s) (hl : s.core.idEx.exIsLoad = false)
    (hb : s.core.registerEx.lstate = .busy)
    (hna : s.core.answered (s.coreIn image .quiet) = false) :
    (s.step image .quiet).core.answered ((s.step image .quiet).coreIn image .quiet) = true := by
  have hans : s.core.answered (s.coreIn image .quiet) = (s.dmem.readyReg &&
    (!s.core.registerEx.firstCycleInBusy ||
      (s.core.exMem.memReadEn && !s.core.registerEx.dmemReadyD1))) := rfl
  rw [hans] at hna
  have hread : s.core.exMem.memReadEn = true := by
    rcases h.locks.busy hb with hx | hr | ⟨hfc, hr⟩
    · simp [hl] at hx
    · exact hr
    · simp [hfc, hr] at hna
  have hv : s.core.dmemValid = true := by simp [Core.dmemValid, hread]
  have hready : ((s.step image .quiet).coreIn image .quiet).dmemReady = true := hv
  have hd1 : (s.step image .quiet).core.registerEx.dmemReadyD1 = s.dmem.readyReg := rfl
  have hfirst : (s.step image .quiet).core.registerEx.firstCycleInBusy = _ :=
    Core.firstCycle_step rfl hbr hb
  unfold Core.answered
  rw [hready, hd1, hfirst]
  cases hr : s.dmem.readyReg
  · -- The load waits for it in EX/MEM.
    have hstall : s.core.stallBack (s.coreIn image .quiet) = true := by
      rw [stallBack_eq, hv, hr]
      simp
    have hkeep : (s.step image .quiet).core.exMem = s.core.exMem := exMem_step_of_stall hstall
    simp [hkeep, hread]
  · -- The lock has skipped this one.
    have hskip : s.core.skips (s.coreIn image .quiet) = true := by
      have hx : s.core.skips (s.coreIn image .quiet) = (s.dmem.readyReg &&
        s.core.exMem.memReadEn && s.core.registerEx.firstCycleInBusy &&
          s.core.registerEx.dmemReadyD1) := rfl
      rw [hx, hr, hread]
      simpa [hr, hread] using hna
    simp [hskip]

/-- **A busy load lock counts down.** -/
lemma Live.loadLeft_step (h : Live image s) (hl : s.core.idEx.exIsLoad = false) :
    (s.step image .quiet).loadLeft image ≤ s.loadLeft image - 1 := by
  have hiff := busy_step_iff hbr hl
  by_cases hb' : (s.step image .quiet).core.registerEx.lstate = .busy
  · obtain ⟨hb, hna⟩ := hiff.mp hb'
    have hans := h.answered_step hbr hl hb hna
    simp [loadLeft, hb', hb, hna, hans]
  · simp [loadLeft, hb']

/-- A store lock that is taken has an answer coming. -/
lemma Live.ready_of_slock (h : Live image s)
    (hs : (s.step image .quiet).core.registerEx.slock = true)
    (hstall : s.core.stallBack (s.coreIn image .quiet) = true) :
    (s.step image .quiet).dmem.readyReg = true := by
  have hready : (s.step image .quiet).dmem.readyReg = s.core.dmemValid := rfl
  rw [hready]
  rw [slock_step_eq hbr] at hs
  by_contra hv
  rw [Bool.not_eq_true] at hv
  cases hslock : s.core.registerEx.slock
  · -- Only an access or a skip holds the back when no lock does.
    have hskip : s.core.registerEx.loadSkipStale = false := by
      by_contra hk
      have hb := h.locks.skip (by simpa using hk)
      simp [hslock, hb] at hs
    rw [stallBack_eq, hslock, hv, hskip] at hstall
    simp only [hslock, Bool.false_and, Bool.false_or, Bool.not_false, Bool.and_true,
      Bool.and_eq_true, bne_iff_ne] at hs
    simp [hs.1] at hstall
  · rcases h.locks.slock hslock with hx | hr
    · simp [hv] at hx
    · simp [hslock, hr] at hs

/-- A store is locked out in the next cycle exactly when a lock is taken then. -/
lemma lockedNext_eq (hst : s.core.idEx.exIsStore = true) (hl : s.core.idEx.exIsLoad = false) :
    s.lockedNext image = ((s.step image .quiet).core.registerEx.lstate == .busy ||
      (s.step image .quiet).core.registerEx.slock) := by
  have hbusy : ((s.step image .quiet).core.registerEx.lstate == .busy) =
      (s.core.registerEx.lstate == .busy && !s.core.answered (s.coreIn image .quiet)) := by
    rw [Bool.eq_iff_iff]
    simpa using busy_step_iff hbr hl
  unfold lockedNext
  rw [hbusy, slock_step_eq hbr, hst, Bool.true_and, Bool.and_true, Bool.or_assoc]

/-- What holds the back of the pipeline in the next cycle, when it is held in this one. -/
lemma Live.stallBack_step (h : Live image s)
    (hstall : s.core.stallBack (s.coreIn image .quiet) = true)
    (hkeep : (s.step image .quiet).core.idEx = s.core.idEx) :
    (s.step image .quiet).core.stallBack ((s.step image .quiet).coreIn image .quiet) =
      (((s.step image .quiet).core.registerEx.lstate == .busy ||
        (s.step image .quiet).core.registerEx.slock) && s.core.idEx.exIsStore) := by
  have hexMem : (s.step image .quiet).core.exMem = s.core.exMem := exMem_step_of_stall hstall
  have hvalid : (s.step image .quiet).core.dmemValid = s.core.dmemValid := by
    rw [Core.dmemValid, hexMem, Core.dmemValid]
  have hready : (s.step image .quiet).dmem.readyReg = s.core.dmemValid := rfl
  -- A skip needs an answer in the first cycle of the lock, and then nothing else holds.
  have hskip : (s.step image .quiet).core.registerEx.loadSkipStale = true →
      (s.step image .quiet).core.registerEx.lstate = .busy ∧ s.core.idEx.exIsStore = true := by
    intro hk
    refine ⟨(Core.busy_of_skip hk).1, ?_⟩
    have hstep : (s.step image .quiet).core.registerEx.loadSkipStale =
      (s.core.registerEx.lstate == .busy && (s.dmem.readyReg && s.core.exMem.memReadEn &&
        s.core.registerEx.firstCycleInBusy && s.core.registerEx.dmemReadyD1)) :=
      Core.skip_step rfl hbr
    rw [hstep] at hk
    simp only [Bool.and_eq_true] at hk
    obtain ⟨-, ⟨⟨hr, -⟩, hfc⟩, -⟩ := hk
    have hnk : s.core.registerEx.loadSkipStale = false := by
      by_contra hk'
      simp [h.skipFirst (by simpa using hk')] at hfc
    rw [stallBack_eq, hr, hnk] at hstall
    simp only [Bool.not_true, Bool.and_false, Bool.or_false, Bool.and_eq_true] at hstall
    exact hstall.2
  rw [stallBack_eq, hkeep, hvalid, hready, Bool.and_not_self, Bool.or_false]
  cases hk : (s.step image .quiet).core.registerEx.loadSkipStale
  · rw [Bool.or_false]
  · obtain ⟨hb, hst⟩ := hskip hk
    simp [hb, hst]

/-- **A held back counts down**: what is in EX stays there, and the locks and the memory make
way. -/
lemma Live.backLeft_step (h : Live image s)
    (hstall : s.core.stallBack (s.coreIn image .quiet) = true)
    (hkeep : (s.step image .quiet).core.idEx = s.core.idEx) :
    (s.step image .quiet).backLeft image + 1 ≤ s.backLeft image := by
  unfold backLeft
  rw [h.stallBack_step hbr hstall hkeep, hstall]
  cases hst : s.core.idEx.exIsStore
  · simp [lockedNext, hst]
  · have hl : s.core.idEx.exIsLoad = false := by
      by_contra hl
      simp [h.locks.front.not_load_and_store (by simpa using hl)] at hst
    have hlocked := lockedNext_eq hbr hst hl
    rw [← hlocked, Bool.and_true]
    cases hn : s.lockedNext image
    · simp
    · -- The lock that is taken then has its answer.
      have hfree : (s.step image .quiet).lockedNext image = false := by
        rw [hn] at hlocked
        unfold lockedNext
        cases hb' : (s.step image .quiet).core.registerEx.lstate == .busy
        · rw [hb', Bool.false_or] at hlocked
          have hr := h.ready_of_slock hbr hlocked.symm hstall
          simp [hr, hlocked.symm, bne, hb']
        · obtain ⟨hb, hna⟩ := (busy_step_iff hbr hl).mp (by simpa using hb')
          have hans := h.answered_step hbr hl hb hna
          have hr : (s.step image .quiet).core.registerEx.slock = true →
              (s.step image .quiet).dmem.readyReg = true := fun hs => h.ready_of_slock hbr hs hstall
          simp only [hans, bne, hb']
          cases hs' : (s.step image .quiet).core.registerEx.slock
          · simp
          · simp [hr hs']
      simp [hfree]

/-- **A back that is let go** is held again by what the load lock waits for only. -/
lemma Live.backLeft_step_of_go (h : Live image s)
    (hgo : s.core.stallBack (s.coreIn image .quiet) = false)
    (hl : s.core.idEx.exIsLoad = false) (hst : s.core.idEx.exIsStore = false) :
    (s.step image .quiet).backLeft image ≤ (s.step image .quiet).loadLeft image := by
  have hvalid : (s.step image .quiet).core.dmemValid = false := by
    have hexMem : (s.step image .quiet).core.exMem = s.core.exMemIn (s.coreIn image .quiet) :=
      exMem_step_of_go hgo
    rw [Core.dmemValid, hexMem]
    simp [Core.exMemIn, ExIn.memWriteEn, ExIn.memReadEn, Core.exIn, hl, hst]
  have hslock : (s.step image .quiet).core.registerEx.slock = false := by
    rw [slock_step_eq hbr, hst]
    cases hs : s.core.registerEx.slock
    · simp
    · have hr : s.dmem.readyReg = true := by
        rcases h.locks.slock hs with hv | hr
        · rw [stallBack_eq, hv] at hgo
          simpa using (Bool.or_eq_false_iff.mp (Bool.or_eq_false_iff.mp hgo).1).2
        · exact hr
      simp [hr]
  unfold backLeft loadLeft lockedNext
  rw [stallBack_eq, hslock, hvalid]
  cases hb' : (s.step image .quiet).core.registerEx.lstate == .busy
  · have hk : (s.step image .quiet).core.registerEx.loadSkipStale = false := by
      by_contra hk
      rw [Bool.not_eq_false] at hk
      have hb : (s.step image .quiet).core.registerEx.lstate = .busy := (Core.busy_of_skip hk).1
      simp [hb] at hb'
    simp [hk]
  · rw [beq_iff_eq] at hb'
    simp only [hb', if_true]
    split_ifs <;> simp_all

end Cycle

/-! ### The measure -/

/-- The cycles until an instruction takes effect, at most. -/
def wait (image : BitVec 10 → BitVec 32) (s : SocBram) : ℕ :=
  s.core.wait (s.backLeft image) (s.loadLeft image)

/-- **A cycle in which no instruction takes effect lowers the measure.** -/
theorem Live.wait_step (h : Live image s)
    (hx : s.core.executes (s.coreIn image .quiet) = false) :
    wait image (s.step image .quiet) + 1 ≤ wait image s := by
  refine Core.wait_step h.locks.front (coreIn_undisturbed image s) hx ?_ ?_ ?_ ?_
  · intro hs hbr hkeep
    exact h.backLeft_step hbr hs hkeep
  · intro hv
    obtain ⟨hl, -, hbr⟩ := Core.bubble_of_invalid (i := s.coreIn image .quiet) h.locks.front hv
    exact h.loadLeft_step hbr hl
  · intro hv hs
    obtain ⟨hl, hst, hbr⟩ := Core.bubble_of_invalid (i := s.coreIn image .quiet) h.locks.front hv
    exact h.backLeft_step_of_go hbr hs hl hst
  · intro hb
    unfold loadLeft
    rw [if_pos hb]
    split_ifs <;> omega

/-- The measure is at most three. -/
lemma Live.wait_le (h : Live image s) : wait image s ≤ 3 := by
  have hback : s.backLeft image ≤ 2 := by
    unfold backLeft
    split_ifs <;> omega
  have hload : s.loadLeft image ≤ 2 := by
    unfold loadLeft
    split_ifs <;> omega
  unfold wait Core.wait
  cases hv : s.core.idEx.exInstrValid
  · -- Only a store is held for two cycles.
    obtain ⟨-, hst, -⟩ := Core.bubble_of_invalid (i := s.coreIn image .quiet) h.locks.front hv
    have hone : s.backLeft image ≤ 1 := by
      unfold backLeft lockedNext
      rw [hst, Bool.false_and]
      split_ifs <;> simp at *
    simp only [Bool.false_eq_true, if_false]
    split_ifs <;> omega
  · simp only [if_true]
    omega

/-! ### Runs -/

variable (image d st n) in
/-- An instruction takes effect in cycle `n`. -/
def executesAt : Bool :=
  (stallRun image d st n).core.executes ((stallRun image d st n).coreIn image (.stalled (st n)))

lemma live_run (hC : ∀ k < n, ¬ (stallRun image d st k).CatchesStore (st k)) :
    Live image (stallRun image d st n) :=
  holds_along (I := fun k => Live image (stallRun image d st k)) live_reset
    (fun _ h hk => h.step hk) hC

/-- A cycle without external stall in which no instruction takes effect lowers the measure. -/
lemma wait_run_lt (hC : ∀ k < n, ¬ (stallRun image d st k).CatchesStore (st k)) (hq : st n = false)
    (hx : ¬ executesAt image d st n = true) :
    wait image (stallRun image d st (n + 1)) < wait image (stallRun image d st n) := by
  rw [executesAt, hq, Bool.not_eq_true] at hx
  rw [stallRun_succ, hq]
  exact (live_run hC).wait_step hx

/-- **No program stops the pipeline.** As long as the external stall has caught no store, an
instruction takes effect in one of every four cycles in a row without it. -/
theorem bram_executes_within (hC : ∀ k < n, ¬ (stallRun image d st k).CatchesStore (st k))
    (hq : ∀ k, n ≤ k → k < n + 4 → st k = false) :
    ∃ k, n ≤ k ∧ k < n + 4 ∧ executesAt image d st k = true := by
  have hcatch : ∀ k < n + 4, ¬ (stallRun image d st k).CatchesStore (st k) := by
    intro k hk hc
    by_cases hkn : k < n
    · exact hC k hkn hc
    · rw [hq k (by omega) hk] at hc
      exact Bool.false_ne_true hc.stall
  have hstart : wait image (stallRun image d st n) < 4 :=
    Nat.lt_succ_of_le (live_run hC).wait_le
  refine progress_within (r := fun k => wait image (stallRun image d st k)) hstart ?_
  intro k hk hkn
  exact wait_run_lt (fun j hj => hcatch j (by omega)) (hq k hk hkn)

/-- Stores at every address, with a stall in cycle 0. -/
theorem bram_executes_within_stores :
    ∃ k, 1 ≤ k ∧ k < 1 + 4 ∧
      executesAt (fun _ => 0x00002023#32) .zero (fun k => k == 0) k = true := by
  refine bram_executes_within ?_ ?_
  · intro k hk hc
    obtain rfl : k = 0 := by omega
    cases hc.store
  · intro k hk _
    exact beq_false_of_ne (by omega)

/-! ### A store that is caught -/

/-- **A caught store is in EX for ever**: it has the lock, and no access is under way that could
free it. -/
structure Caught (image : BitVec 10 → BitVec 32) (s : SocBram) : Prop where
  front : FrontOk (instMem image) s.core
  store : s.core.idEx.exIsStore = true
  locked : s.core.registerEx.slock = true
  empty : s.core.dmemValid = false
  unanswered : s.dmem.readyReg = false

lemma CatchesStore.caught_step (hc : s.CatchesStore b) (h : LocksOk image s) :
    Caught image (s.step image (.stalled b)) := by
  obtain ⟨hl, hst, hv, hr⟩ := hc.lock_step h
  exact ⟨h.front.step fun _ => rfl, hst, hl, hv, hr⟩

/-- The stall holds the store that it catches. -/
lemma CatchesStore.holdsStore (hc : s.CatchesStore b) (hf : FrontOk (instMem image) s.core) :
    s.core.HoldsStore (s.coreIn image (.stalled b)) where
  front := hf.shape
  store := hc.store
  stall := by
    rw [stallBack_stalled, hc.stall, Bool.true_or]
  flush := rfl

namespace Caught

lemma holdsStore (h : Caught image s) : s.core.HoldsStore (s.coreIn image (.stalled b)) where
  front := h.front.shape
  store := h.store
  stall := by
    rw [stallBack_stalled, h.locked, h.store]
    simp
  flush := rfl

lemma step (h : Caught image s) : Caught image (s.step image (.stalled b)) := by
  have hnf := h.front.branchHazardEx_of_store h.store (s.coreIn image (.stalled b))
  have hkeep : (s.step image (.stalled b)).core.idEx = s.core.idEx := h.holdsStore.idEx_step
  have hslock : (s.step image (.stalled b)).core.registerEx.slock =
    ((s.core.registerEx.slock && !s.dmem.readyReg) || (s.core.registerEx.lstate != .busy &&
      s.core.idEx.exIsStore && !s.core.registerEx.slock)) := Core.slock_step rfl hnf
  refine ⟨h.front.step fun _ => rfl, by rw [hkeep, h.store], ?_, ?_, ?_⟩
  · rw [hslock, h.locked, h.unanswered]
    rfl
  · rw [Core.dmemValid, exMem_step_of_stall h.holdsStore.stall]
    exact h.empty
  · rw [ready_step, h.empty]

end Caught

/-- From the first store that is caught on, it stays caught. -/
lemma caught_run {k : ℕ} (hC : ∀ j < k, ¬ (stallRun image d st j).CatchesStore (st j))
    (hc : (stallRun image d st k).CatchesStore (st k)) (m : ℕ) :
    Caught image (stallRun image d st (k + 1 + m)) := by
  induction m with
  | zero => exact hc.caught_step (live_run hC).locks
  | succ m ih => exact ih.step

/-- From the first store that is caught on, it is held in EX. -/
lemma restsFrom_of_caught {k : ℕ} (hC : ∀ j < k, ¬ (stallRun image d st j).CatchesStore (st j))
    (hc : (stallRun image d st k).CatchesStore (st k)) :
    Core.RestsFrom (fun n => (stallRun image d st n).core)
      (fun n => (stallRun image d st n).coreIn image (.stalled (st n))) k := by
  refine Core.restsFrom_of_holdsStore (fun _ => rfl) ?_
  intro n hn
  rcases Nat.eq_or_lt_of_le hn with rfl | hlt
  · exact hc.holdsStore (live_run hC).locks.front
  · obtain ⟨m, rfl⟩ := Nat.exists_eq_add_of_le hlt
    exact (caught_run hC hc m).holdsStore

/-- **A run goes on for ever exactly when no store is caught**, if the external stall is low from
some cycle on; and a store that is caught stays in EX, with at most one more instruction that takes
effect, a JAL. -/
theorem bram_executes_forever_iff {N : ℕ} (hq : ∀ k ≥ N, st k = false) :
    ((∀ n, ∃ k ≥ n, executesAt image d st k = true) ↔
      ∀ k, ¬ (stallRun image d st k).CatchesStore (st k)) ∧
    ∀ k, (stallRun image d st k).CatchesStore (st k) →
      Core.RestsFrom (fun n => (stallRun image d st n).core)
        (fun n => (stallRun image d st n).coreIn image (.stalled (st n))) k := by
  constructor
  · refine recurs_iff (r := fun k => wait image (stallRun image d st k)) N ?_ ?_
    · intro k hC hc
      obtain ⟨m, hrest⟩ := (restsFrom_of_caught hC hc).rests
      exact ⟨m, fun n hn => by simpa [executesAt] using hrest n hn⟩
    · intro hC k hk
      exact wait_run_lt (fun j _ => hC j) (hq k hk)
  · intro k hc
    -- The first store that is caught is held from then on.
    classical
    have hex : ∃ j, (stallRun image d st j).CatchesStore (st j) := ⟨k, hc⟩
    have hfirst := restsFrom_of_caught (fun j hj => Nat.find_min hex hj) (Nat.find_spec hex)
    exact hfirst.mono (Nat.find_min' hex hc)

/-- Stores at every address, with a stall in cycle 2: the first one is caught, and in the end
nothing takes effect any more. -/
theorem bram_stops_of_caughtStore :
    ¬ ∀ n, ∃ k ≥ n, executesAt (fun _ => 0x00002023#32) .zero (fun k => k == 2) k = true := by
  intro h
  refine (bram_executes_forever_iff (N := 3) fun k hk => beq_false_of_ne (by omega)).1.mp h 2 ?_
  exact ⟨rfl, by decide +kernel, by decide +kernel, by decide +kernel, by decide +kernel⟩

end SocBram

end RiscvSoc.Rtl
