import RiscvSoc.Pipeline.Cycle

/-!
# Following the fetched instructions

An observer beside the core numbers the instructions that IF/ID latches and follows each of them:
where it is, and in which cycles it is issued to EX, jumps from ID, or is squashed there by a
redirect of EX.
-/

namespace RiscvSoc.Rtl

open Sync

/-- An instruction that IF/ID has latched: its number in the order of fetch, and its word. -/
structure Fetch where
  num : ℕ
  word : BitVec 32
  deriving DecidableEq

namespace Fetch

/-- The instruction is a JAL. -/
def isJal (f : Fetch) : Bool := (idStage f.word).isJump

end Fetch

/-- What the observer keeps: the instructions fetched so far, the two in ID and EX, and, once for
every cycle in which it happens, which was issued, jumped or was squashed; newest first. -/
structure Fetches where
  fetched : List Fetch
  ifId : Option Fetch
  idEx : Option Fetch
  issued : List Fetch
  jumped : List Fetch
  squashed : List Fetch

namespace Fetches

def init : Fetches := ⟨[], none, none, [], [], []⟩

variable (t : Fetches) (s : Core) (i : CoreIn)

/-- The instruction that IF/ID latches. -/
def latched : Option Fetch :=
  if s.flushIfid i || s.stallFront i then none
  else if (s.fetched i).instrValidOut then some ⟨t.fetched.length, (s.fetched i).instrOut⟩
  else none

/-- What the observer sees of a cycle. -/
def step : Fetches where
  fetched := (t.latched s i).toList ++ t.fetched
  ifId := if s.flushIfid i then none else if s.stallFront i then t.ifId else t.latched s i
  idEx := if s.flushIdex i then none else if s.stallBack i then t.idEx else t.ifId
  issued := if s.flushIdex i || s.stallBack i then t.issued else t.ifId.toList ++ t.issued
  jumped :=
    if s.jumpIf && !s.branchHazardEx i then t.ifId.toList ++ t.jumped else t.jumped
  squashed := if s.branchHazardEx i then t.ifId.toList ++ t.squashed else t.squashed

/-! ### What the numbers stand for -/

/-- The observer has the instructions of IF/ID and ID/EX, and every number is given once. -/
structure Tracks (t : Fetches) (s : Core) : Prop where
  ifId : ∀ f, t.ifId = some f → s.ifId.instrOut = f.word
  ifIdValid : t.ifId.isSome = s.ifId.instrValidOut
  idEx : ∀ f, t.idEx = some f → s.idEx.exInstr = f.word
  idExValid : t.idEx.isSome = s.idEx.exInstrValid
  num : ∀ f ∈ t.fetched, f.num < t.fetched.length
  ifIdFetched : ∀ f, t.ifId = some f → f ∈ t.fetched
  idExFetched : ∀ f, t.idEx = some f → f ∈ t.fetched

lemma tracks_init : Tracks init Core.reset := by
  constructor <;> simp [init] <;> rfl

variable {t s i}

lemma latched_num {f : Fetch} (h : t.latched s i = some f) : f.num = t.fetched.length := by
  unfold latched at h
  split_ifs at h
  cases h
  rfl

lemma not_mem_of_latched (ht : t.Tracks s) {f : Fetch} (h : t.latched s i = some f) :
    f ∉ t.fetched := by
  intro hm
  have := ht.num f hm
  rw [latched_num h] at this
  exact absurd this (Nat.lt_irrefl _)

lemma mem_fetched_step {f : Fetch} :
    f ∈ (t.step s i).fetched ↔ t.latched s i = some f ∨ f ∈ t.fetched := by
  simp only [step, List.mem_append, Option.mem_toList]

/-- What is in ID after the edge was there before it or has just been latched. -/
lemma step_ifId {f : Fetch} (h : (t.step s i).ifId = some f) :
    (t.latched s i = some f) ∨ (t.ifId = some f ∧ s.stallFront i = true ∧
      s.flushIfid i = false) := by
  simp only [step] at h
  split_ifs at h with h1 h2
  · exact .inr ⟨h, h2, by simpa using h1⟩
  · exact .inl h

/-- What is in EX after the edge was there or in ID before it. -/
lemma step_idEx {f : Fetch} (h : (t.step s i).idEx = some f) :
    (t.idEx = some f ∧ s.stallBack i = true) ∨ (t.ifId = some f ∧ s.stallBack i = false) := by
  simp only [step] at h
  split_ifs at h with h1 h2
  · exact .inl ⟨h, h2⟩
  · exact .inr ⟨h, by simpa using h2⟩

theorem Tracks.step (h : t.Tracks s) : (t.step s i).Tracks (s.step i) where
  ifId f hf := by
    rcases step_ifId hf with hl | ⟨hl, hs, hn⟩
    · unfold latched at hl
      split_ifs at hl with h1 h2
      cases hl
      simp only [Bool.or_eq_true, not_or, Bool.not_eq_true] at h1
      simp [Core.step, IfIdReg.step, h1]
    · simp [Core.step, IfIdReg.step, hs, hn, h.ifId f hl]
  ifIdValid := by
    simp only [Fetches.step, latched, Core.step, IfIdReg.step]
    cases hfl : s.flushIfid i <;> cases hst : s.stallFront i <;>
      simp [h.ifIdValid, IfIdReg.bubble]
    cases hv : (s.fetched i).instrValidOut <;> simp
  idEx f hf := by
    have hn : s.flushIdex i = false := by
      by_contra hn
      simp [Fetches.step, hn] at hf
    rcases step_idEx hf with ⟨hl, hs⟩ | ⟨hl, hs⟩
    · simp [Core.step, IdExReg.step, hn, hs, h.idEx f hl]
    · simp [Core.step, IdExReg.step, hn, hs, IdExReg.ofId, h.ifId f hl]
  idExValid := by
    simp only [Fetches.step, Core.step, IdExReg.step]
    cases hfl : s.flushIdex i <;> cases hst : s.stallBack i <;>
      simp [h.ifIdValid, h.idExValid, IdExReg.bubble, IdExReg.ofId]
  num f hf := by
    simp only [Fetches.step, List.length_append]
    rcases mem_fetched_step.mp hf with hl | hm
    · rw [latched_num hl, hl]
      simp
    · exact Nat.lt_of_lt_of_le (h.num f hm) (Nat.le_add_left _ _)
  ifIdFetched f hf := by
    rw [mem_fetched_step]
    rcases step_ifId hf with hl | ⟨hl, -⟩
    · exact .inl hl
    · exact .inr (h.ifIdFetched f hl)
  idExFetched f hf := by
    rw [mem_fetched_step]
    rcases step_idEx hf with ⟨hl, -⟩ | ⟨hl, -⟩
    · exact .inr (h.idExFetched f hl)
    · exact .inr (h.ifIdFetched f hl)

/-- An instruction that has left ID and EX stays out. -/
lemma gone_step (ht : t.Tracks s) {f : Fetch} (hm : f ∈ t.fetched) (hd : t.ifId ≠ some f)
    (hx : t.idEx ≠ some f) :
    f ∈ (t.step s i).fetched ∧ (t.step s i).ifId ≠ some f ∧ (t.step s i).idEx ≠ some f := by
  refine ⟨mem_fetched_step.mpr (.inr hm), ?_, ?_⟩
  · intro h
    rcases step_ifId h with hl | ⟨hl, -⟩
    · exact not_mem_of_latched ht hl hm
    · exact hd hl
  · intro h
    rcases step_idEx h with ⟨hl, -⟩ | ⟨hl, -⟩
    · exact hx hl
    · exact hd hl

end Fetches

/-! ### The core with the observer -/

section Run

variable (M : BitVec 32 → BitVec 32) (ins : ℕ → BusIn)

/-- The core over the program `M` in cycle `n`. -/
def coreRun (n : ℕ) : Core := (coreMachine M).run ins n

/-- Its pins in cycle `n`. -/
def corePins (n : ℕ) : CoreIn := (ins n).pins M (coreRun M ins n)

/-- What has been seen of its instructions before cycle `n`. -/
def fetchesRun : ℕ → Fetches
  | 0 => .init
  | n + 1 => (fetchesRun n).step (coreRun M ins n) (corePins M ins n)

lemma coreRun_succ (n : ℕ) : coreRun M ins (n + 1) = (coreRun M ins n).step (corePins M ins n) :=
  rfl

lemma fetchesRun_succ (n : ℕ) :
    fetchesRun M ins (n + 1) = (fetchesRun M ins n).step (coreRun M ins n) (corePins M ins n) :=
  rfl

/-- **The observer follows the core.** -/
theorem tracks_run (n : ℕ) : (fetchesRun M ins n).Tracks (coreRun M ins n) := by
  induction n with
  | zero => exact Fetches.tracks_init
  | succ n ih => exact ih.step

variable {M ins}

lemma gone_run {n : ℕ} {f : Fetch} (hm : f ∈ (fetchesRun M ins n).fetched)
    (hd : (fetchesRun M ins n).ifId ≠ some f) (hx : (fetchesRun M ins n).idEx ≠ some f) (k : ℕ) :
    f ∈ (fetchesRun M ins (n + k)).fetched ∧ (fetchesRun M ins (n + k)).ifId ≠ some f ∧
      (fetchesRun M ins (n + k)).idEx ≠ some f := by
  induction k with
  | zero => exact ⟨hm, hd, hx⟩
  | succ k ih => exact Fetches.gone_step (tracks_run M ins (n + k)) ih.1 ih.2.1 ih.2.2

end Run

end RiscvSoc.Rtl
