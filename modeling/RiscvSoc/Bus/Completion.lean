import Mathlib.Data.Nat.Init
import RiscvSoc.Pipeline.Front
import RiscvSoc.Rtl.SocTop

/-!
# The answers of the data bus

`soc_top` answers an access with one cycle of `dmem_ready`.  The core hears the answer unless a
store waits in EX behind the access: the store then holds a lock, the lock holds the back of the
pipeline, and the bridge does the access again.
-/

namespace RiscvSoc.Rtl

open Sync

/-! ### The bridge -/

namespace AxiDmem

variable {r : AxiDmem} {i : AxiDmemIn}

/-- `dmem_ready` comes with the return to `S_IDLE`. -/
lemma state_step_of_ready (h : (r.step i).dmemReady = true) : (r.step i).state = .idle := by
  unfold step at h ⊢
  cases hs : r.state <;> simp only [hs] at h ⊢
  case idle => simp only [stepIdle] at h; split_ifs at h
  all_goals split_ifs at h ⊢ <;> simp_all

/-- An idle bridge does not answer in the next cycle. -/
lemma ready_step_of_idle (h : r.state = .idle) : (r.step i).dmemReady = false := by
  simp only [step, h, stepIdle]
  split_ifs <;> rfl

/-- The bridge has yet to be given the address of its transaction. -/
def Early (r : AxiDmem) : Prop := r.state = .idle ∨ r.state = .rAr ∨ r.state = .wAw

lemma early_step_of_idle (h : r.state = .idle) : (r.step i).Early := by
  simp only [Early, step, h, stepIdle]
  split_ifs <;> simp

lemma Early.ready_step (h : r.Early) : (r.step i).dmemReady = false := by
  rcases h with h | h | h
  · exact ready_step_of_idle h
  · simp only [step, h]
    split_ifs <;> rfl
  · simp only [step, h]
    split_ifs <;> rfl

end AxiDmem

namespace SocTop

/-! ### What is kept -/

/-- **The answers and the locks**: an answer is a single cycle, long after the one before; and
behind the access that is answered, a store in EX meets a lock. -/
structure AnswersApart (s : SocTop) : Prop where
  front : FrontShape s.core
  pulse : s.axiDmem.dmemReady = true → s.axiDmem.state = .idle
  release : s.core.registerEx.lstate = .release → s.axiDmem.Early
  apart : s.core.registerEx.dmemReadyD1 = true → s.axiDmem.dmemReady = false
  skip : s.core.registerEx.loadSkipStale = false
  behind : s.core.dmemValid = true → s.axiDmem.dmemReady = true → s.core.idEx.exIsStore = true →
    s.core.registerEx.slock = true ∨ s.core.registerEx.lstate = .busy

variable {s : SocTop} {a : SlaveIn}

/-- What a cycle brings to the core. -/
def bus (s : SocTop) : BusIn :=
  ⟨false, s.icache.imemReady s.icacheIn, s.icache.imemRdata s.icacheIn, s.axiDmem.dmemReady,
    s.axiDmem.dmemRdata⟩

/-- In one cycle the core cannot tell the cache from a program of one word. -/
lemma coreIn_quiet (s : SocTop) :
    s.coreIn .quiet = s.bus.pins (fun _ => s.icache.imemRdata s.icacheIn) s.core := by
  unfold BusIn.pins
  split_ifs <;> rfl

lemma stallBack_quiet : s.core.stallBack (s.coreIn .quiet) =
    (((s.core.registerEx.lstate == .busy || s.core.registerEx.slock) && s.core.idEx.exIsStore) ||
      (s.core.dmemValid && !s.axiDmem.dmemReady) || s.core.registerEx.loadSkipStale) :=
  s.core.stallBack_eq _

lemma wires_quiet (s : SocTop) :
    s.core.Wires (s.coreIn .quiet) s.axiDmem.dmemReady s.axiDmem.dmemRdata := Core.wires rfl

/-! ### One cycle -/

/-- The load lock is released by an answer. -/
lemma ready_of_release (h : (s.step .quiet a).core.registerEx.lstate = .release) :
    s.axiDmem.dmemReady = true := by
  obtain ⟨-, -, -, hready, hsucc⟩ := wires_quiet s
  by_contra hr
  rw [Bool.not_eq_true] at hr
  rw [hr] at hready hsucc
  exact RegisterEx.lstateStep_ne_release hready (by rw [hsucc]; rfl) h

/-- Without an answer the locks that stand behind a store in EX stay, or one is taken. -/
lemma lock_step_of_store (hf : FrontShape s.core) (hr : s.axiDmem.dmemReady = false)
    (hst : s.core.idEx.exIsStore = true) :
    (s.step .quiet a).core.registerEx.slock = true ∨
      (s.step .quiet a).core.registerEx.lstate = .busy := by
  obtain ⟨hflush, -, hstore, hready, hsucc⟩ := wires_quiet s
  rw [hf.branchHazardEx_of_access (.inr hst)] at hflush
  rw [hr] at hready hsucc
  rw [Bool.false_and] at hsucc
  by_cases hl : s.core.registerEx.lstate = .busy
  · right
    simp [SocTop.step, Core.step, RegisterEx.step, RegisterEx.lstateStep, RegisterEx.staleReady,
      RegisterEx.lateReady, hflush, hready, hsucc, hl]
  · left
    cases hs : s.core.registerEx.slock <;>
      simp [SocTop.step, Core.step, RegisterEx.step, RegisterEx.slockNext, hflush, hready, hstore,
        hst, hs, hl]

/-- An access that leaves EX while no answer comes takes a lock, or comes just after an answer. -/
lemma AnswersApart.lock_step_of_leaves (h : s.AnswersApart) (hr : s.axiDmem.dmemReady = false)
    (ha : s.core.idEx.exIsLoad = true ∨ s.core.idEx.exIsStore = true) :
    (s.step .quiet a).core.registerEx.slock = true ∨
      (s.step .quiet a).core.registerEx.lstate = .busy ∨
      (s.step .quiet a).axiDmem.dmemReady = false := by
  rcases ha with hl | hst
  · obtain ⟨hflush, hload, -, hready, hsucc⟩ := wires_quiet s
    rw [h.front.branchHazardEx_of_access (.inl hl)] at hflush
    rw [hr] at hready hsucc
    rw [Bool.false_and] at hsucc
    cases hls : s.core.registerEx.lstate with
    | idle =>
      right; left
      simp [SocTop.step, Core.step, RegisterEx.step, RegisterEx.lstateStep, hflush, hload, hl,
        hls]
    | busy =>
      right; left
      simp [SocTop.step, Core.step, RegisterEx.step, RegisterEx.lstateStep, RegisterEx.staleReady,
        RegisterEx.lateReady, hflush, hready, hsucc, hls]
    | release =>
      right; right
      exact (h.release hls).ready_step
  · rcases lock_step_of_store h.front hr hst with hx | hx
    · exact .inl hx
    · exact .inr (.inl hx)

/-- **Behind the access that is answered, a store in EX meets a lock.** -/
lemma AnswersApart.behind_step (h : s.AnswersApart)
    (hv : (s.step .quiet a).core.dmemValid = true)
    (hrd : (s.step .quiet a).axiDmem.dmemReady = true)
    (hst : (s.step .quiet a).core.idEx.exIsStore = true) :
    (s.step .quiet a).core.registerEx.slock = true ∨
      (s.step .quiet a).core.registerEx.lstate = .busy := by
  have hr : s.axiDmem.dmemReady = false := by
    by_contra hr
    have hno := AxiDmem.ready_step_of_idle (i := s.axiDmemIn a) (h.pulse (by simpa using hr))
    rw [step, hno] at hrd
    cases hrd
  have hflush : s.core.flushIdex (s.coreIn .quiet) = false := by
    by_contra hfl
    rw [Bool.not_eq_false] at hfl
    simp [step, Core.step, IdExReg.step, hfl, IdExReg.bubble] at hst
  cases hs : s.core.stallBack (s.coreIn .quiet)
  · -- The access has just left EX, and the store has come behind it.
    have ha : s.core.idEx.exIsLoad = true ∨ s.core.idEx.exIsStore = true := by
      have hx : (s.coreIn .quiet).flush = false := rfl
      simp only [step, Core.step, Core.dmemValid, ExMemReg.step, hs, hx, Core.exMemIn,
        ExIn.memReadEn, ExIn.memWriteEn, Core.exIn, Bool.false_eq_true, if_false, Bool.or_eq_true,
        Bool.and_eq_true] at hv
      rcases hv with ⟨-, hx⟩ | ⟨-, hx⟩
      · exact .inr hx
      · exact .inl hx
    rcases h.lock_step_of_leaves (a := a) hr ha with hx | hx | hx
    · exact .inl hx
    · exact .inr hx
    · rw [hrd] at hx
      cases hx
  · -- The store has waited in EX.
    refine lock_step_of_store h.front hr ?_
    simpa [step, Core.step, IdExReg.step, hflush, hs] using hst

/-- **One cycle of `soc_top`.** -/
theorem AnswersApart.step (h : s.AnswersApart) : (s.step .quiet a).AnswersApart where
  front := by
    have hf := h.front.step (b := s.bus) (M := fun _ => s.icache.imemRdata s.icacheIn)
    rwa [← coreIn_quiet] at hf
  pulse := AxiDmem.state_step_of_ready
  release hl := AxiDmem.early_step_of_idle (h.pulse (ready_of_release hl))
  apart hd := AxiDmem.ready_step_of_idle (h.pulse hd)
  skip := by
    obtain ⟨-, -, -, -, hsucc⟩ := wires_quiet s
    simp only [SocTop.step, Core.step, RegisterEx.step, RegisterEx.staleReady, hsucc]
    cases hd : s.core.registerEx.dmemReadyD1
    · simp
    · simp [h.apart hd]
  behind := h.behind_step

/-! ### Runs -/

section Run

variable (c : CacheInst) (ins : ℕ → SlaveIn)

/-- The state in cycle `n`. -/
def topRun (n : ℕ) : SocTop := (machine c).run ins n

/-- **The answer is heard** in cycle `n`: the access that is answered leaves EX/MEM. -/
def Heard (n : ℕ) : Prop :=
  (topRun c ins n).core.dmemValid = true → (topRun c ins n).axiDmem.dmemReady = true →
    (topRun c ins n).core.stallBack ((topRun c ins n).coreIn .quiet) = false

/-- **A livelock**: from some cycle on one access stays in EX/MEM, and its answers keep coming. -/
def Livelock : Prop :=
  ∃ n, ∀ m ≥ n, (topRun c ins m).core.dmemValid = true ∧
    (topRun c ins m).core.stallBack ((topRun c ins m).coreIn .quiet) = true ∧
      ∃ k ≥ m, (topRun c ins k).axiDmem.dmemReady = true

/-- **A store is in EX behind the access that is answered.** -/
def StoreBehind (n : ℕ) : Prop :=
  (topRun c ins n).core.dmemValid = true ∧ (topRun c ins n).axiDmem.dmemReady = true ∧
    (topRun c ins n).core.idEx.exIsStore = true

lemma answersApart_run (n : ℕ) : (topRun c ins n).AnswersApart := by
  induction n with
  | zero =>
    refine ⟨FrontShape.reset, nofun, nofun, nofun, rfl, nofun⟩
  | succ n ih => exact ih.step

variable {c ins}

/-- **The answer is heard exactly when no store is in EX behind the access.** -/
lemma heard_iff (n : ℕ) : Heard c ins n ↔ ¬ StoreBehind c ins n := by
  have h := answersApart_run c ins n
  constructor
  · rintro hh ⟨hv, hr, hst⟩
    have hs := hh hv hr
    rw [stallBack_quiet, hv, hr, hst, h.skip] at hs
    rcases h.behind hv hr hst with hx | hx <;> simp [hx] at hs
  · intro hno hv hr
    have hst : (topRun c ins n).core.idEx.exIsStore = false := by
      by_contra hst
      exact hno ⟨hv, hr, by simpa using hst⟩
    rw [stallBack_quiet, hv, hr, hst, h.skip]
    simp

/-- What holds the back of the pipeline keeps the access and the store behind it where they are. -/
lemma step_of_stall {s : SocTop} {a : SlaveIn} (hf : FrontShape s.core)
    (hs : s.core.stallBack (s.coreIn .quiet) = true) (hst : s.core.idEx.exIsStore = true) :
    (s.step .quiet a).core.dmemValid = s.core.dmemValid ∧
      (s.step .quiet a).core.idEx.exIsStore = true := by
  have hx : (s.coreIn .quiet).flush = false := rfl
  have hflush : s.core.flushIdex (s.coreIn .quiet) = false := by
    rw [coreIn_quiet, Core.flushIdex_pins, ← coreIn_quiet,
      hf.branchHazardEx_of_access (.inr hst), hs]
    simp
  constructor
  · simp [step, Core.step, Core.dmemValid, ExMemReg.step, hs, hx]
  · simp [step, Core.step, IdExReg.step, hflush, hs, hst]

/-- **An answer that is not heard is the first of a livelock**: the access never leaves EX/MEM. -/
theorem StoreBehind.stays {n : ℕ} (h : StoreBehind c ins n) {m : ℕ} (hm : n ≤ m) :
    (topRun c ins m).core.dmemValid = true ∧
      (topRun c ins m).core.stallBack ((topRun c ins m).coreIn .quiet) = true ∧
      (topRun c ins m).core.idEx.exIsStore = true := by
  have hstall : ∀ k, (topRun c ins k).core.dmemValid = true →
      (topRun c ins k).core.idEx.exIsStore = true →
      (topRun c ins k).core.stallBack ((topRun c ins k).coreIn .quiet) = true := by
    intro k hv hst
    cases hr : (topRun c ins k).axiDmem.dmemReady
    · rw [stallBack_quiet, hv, hr]
      simp
    · by_contra hs
      exact (heard_iff k).mp (fun _ _ => by simpa using hs) ⟨hv, hr, hst⟩
  induction m, hm using Nat.le_induction with
  | base => exact ⟨h.1, hstall n h.1 h.2.2, h.2.2⟩
  | succ m hm ih =>
    obtain ⟨hv, hs, hst⟩ := ih
    obtain ⟨hv', hst'⟩ := step_of_stall (a := ins m) (answersApart_run c ins m).front hs hst
    rw [hv] at hv'
    exact ⟨hv', hstall (m + 1) hv' hst', hst'⟩

variable (c ins) in
/-- **Every answer is heard, and no livelock is reached, exactly in the runs in which no store is
ever in EX behind an access that is answered.** -/
theorem answers_heard_iff_not_storeBehind :
    (∀ n, Heard c ins n) ∧ ¬ Livelock c ins ↔ ∀ n, ¬ StoreBehind c ins n := by
  constructor
  · rintro ⟨hh, -⟩ n
    exact (heard_iff n).mp (hh n)
  · intro hno
    refine ⟨fun n => (heard_iff n).mpr (hno n), ?_⟩
    rintro ⟨n, hn⟩
    obtain ⟨-, -, k, hk, hr⟩ := hn n (Nat.le_refl n)
    obtain ⟨hv, hs, -⟩ := hn k hk
    have hheard := (heard_iff k).mpr (hno k) hv hr
    rw [hs] at hheard
    cases hheard

/-- `sw x0, 0(x0)` comes for every fetch, and the slaves are always prompt. -/
def twoStores : ℕ → SlaveIn :=
  fun _ => ⟨true, 0x00002023#32, true, true, true, true, true, 0#32, true⟩

/-- **An answer is not heard**: the second store waits in EX when the first is answered. -/
theorem twoStores_notHeard : ¬ ∀ c ins, (∀ n, Heard c ins n) ∧ ¬ Livelock c ins := by
  intro h
  have hh := (h .zero twoStores).1 21
  revert hh
  rw [heard_iff, StoreBehind]
  decide +kernel

end Run

end SocTop

end RiscvSoc.Rtl
