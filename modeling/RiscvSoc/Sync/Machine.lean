import Mathlib.Tactic.Common
import Mathlib.Logic.Function.Basic

/-!
# Synchronous machines

A clocked circuit is a machine that takes one step a cycle: its registers are the state, what
its pins read in the cycle is the input.  Here are its runs, the induction rules for what holds
along a run, and the histories of what a run shows.
-/

namespace RiscvSoc.Sync

/-! ### Properties of the cycles -/

section Cycles

variable {P C I : ℕ → Prop}

/-- **The run rule.** What holds in cycle 0 and is kept by every step that meets a condition holds
as long as all steps have met it. -/
theorem holds_along (h0 : I 0) (hs : ∀ k, I k → C k → I (k + 1)) {n : ℕ}
    (hC : ∀ k < n, C k) : I n := by
  induction n with
  | zero => exact h0
  | succ n ih =>
    exact hs n (ih fun k hk => hC k (Nat.lt_succ_of_lt hk)) (hC n (Nat.lt_succ_self n))

/-- **The first failure.** If under an invariant a property is equivalent to a condition, and the
condition keeps the invariant, then up to every cycle the property holds exactly when the condition
does. -/
theorem forall_le_iff (h0 : I 0) (hs : ∀ k, I k → C k → I (k + 1))
    (hP : ∀ k, I k → (P k ↔ C k)) (n : ℕ) : (∀ k ≤ n, P k) ↔ ∀ k ≤ n, C k := by
  have hle : ∀ {j k}, j < k → k ≤ n → j ≤ n := fun hj hk => Nat.le_of_lt (Nat.lt_of_lt_of_le hj hk)
  constructor
  · intro h k hk
    induction k using Nat.strongRecOn with
    | ind k ih => exact (hP k (holds_along h0 hs fun j hj => ih j hj (hle hj hk))).mp (h k hk)
  · intro h k hk
    exact (hP k (holds_along h0 hs fun j hj => h j (hle hj hk))).mpr (h k hk)

/-- Something happens for the first time in one cycle only. -/
lemma first_unique {n m : ℕ} (hn : P n) (hn' : ∀ k < n, ¬ P k) (hm : P m)
    (hm' : ∀ k < m, ¬ P k) : n = m := by
  rcases Nat.lt_trichotomy n m with h | h | h
  · exact absurd hn (hm' n h)
  · exact h
  · exact absurd hm (hn' m h)

/-- **The measure rule.** Where every cycle without progress lowers a measure, there is progress
before the measure is used up. -/
theorem progress_within {r : ℕ → ℕ} {n K : ℕ} (hn : r n < K)
    (h : ∀ k, n ≤ k → k < n + K → ¬ P k → r (k + 1) < r k) :
    ∃ k, n ≤ k ∧ k < n + K ∧ P k := by
  induction K generalizing n with
  | zero => omega
  | succ K ih =>
    by_cases hP : P n
    · exact ⟨n, Nat.le_refl n, by omega, hP⟩
    · have hlow := h n (Nat.le_refl n) (by omega) hP
      obtain ⟨k, hk, hkn, hPk⟩ := ih (n := n + 1) (by omega)
        fun k hk hkn => h k (by omega) (by omega)
      exact ⟨k, by omega, by omega, hPk⟩

/-- **What goes on for ever.** Something that comes to rest once a bad cycle has come, and that some
measure drives where none comes, is seen again and again exactly when no cycle is bad. -/
theorem recurs_iff {r : ℕ → ℕ} {Q : ℕ → Prop} (N : ℕ)
    (hrest : ∀ k, (∀ j < k, ¬ Q j) → Q k → ∃ m, ∀ n ≥ m, ¬ P n)
    (hlow : (∀ k, ¬ Q k) → ∀ k ≥ N, ¬ P k → r (k + 1) < r k) :
    (∀ n, ∃ k ≥ n, P k) ↔ ∀ k, ¬ Q k := by
  constructor
  · intro hrun k
    induction k using Nat.strongRecOn with
    | ind k ih =>
      intro hQ
      obtain ⟨m, hm⟩ := hrest k ih hQ
      obtain ⟨n, hn, hP⟩ := hrun m
      exact hm n hn hP
  · intro hno n
    obtain ⟨k, hk, -, hP⟩ := progress_within (n := max n N) (Nat.lt_succ_self (r (max n N)))
      fun k hk _ => hlow hno k (by omega)
    exact ⟨k, by omega, hP⟩

end Cycles

/-! ### Registers over the cycles -/

section Registers

variable {α : Type*} {x : ℕ → α} {u : ℕ → Option α}

/-- A register that is given a value holds it until it is given the next. -/
lemma eq_of_update (h : ∀ n, x (n + 1) = (u n).getD (x n)) {k n : ℕ} {v : α} (hk : k < n)
    (hv : u k = some v) (hnone : ∀ j, k < j → j < n → u j = none) : x n = v := by
  induction n with
  | zero => exact absurd hk (Nat.not_lt_zero k)
  | succ n ih =>
    by_cases hkn : k = n
    · rw [h, ← hkn, hv, Option.getD_some]
    · have hlt : k < n := by omega
      rw [h, hnone n hlt (Nat.lt_succ_self n), Option.getD_none]
      exact ih hlt fun j hj hjn => hnone j hj (Nat.lt_succ_of_lt hjn)

/-- **The last update.** A register that takes what it is given, and else keeps its value, holds
what it was given last, or what it held first. -/
theorem last_update (h : ∀ n, x (n + 1) = (u n).getD (x n)) (n : ℕ) :
    (∃ k < n, u k = some (x n) ∧ ∀ j, k < j → j < n → u j = none) ∨
      ((∀ j < n, u j = none) ∧ x n = x 0) := by
  induction n with
  | zero => exact .inr ⟨fun j hj => absurd hj (Nat.not_lt_zero j), rfl⟩
  | succ n ih =>
    cases hu : u n with
    | some v =>
      have hx : x (n + 1) = v := by rw [h, hu, Option.getD_some]
      refine .inl ⟨n, Nat.lt_succ_self n, by rw [hx, hu], ?_⟩
      intro j hj hjn
      omega
    | none =>
      have hx : x (n + 1) = x n := by rw [h, hu, Option.getD_none]
      have hnone : ∀ {j}, j < n + 1 → ¬ j < n → u j = none := by
        intro j hj hjn
        rw [show j = n by omega, hu]
      rcases ih with ⟨k, hk, hv, hlast⟩ | ⟨hall, hfirst⟩
      · refine .inl ⟨k, Nat.lt_succ_of_lt hk, by rw [hx, hv], ?_⟩
        intro j hj hjn
        by_cases hlt : j < n
        · exact hlast j hj hlt
        · exact hnone hjn hlt
      · refine .inr ⟨?_, hx.trans hfirst⟩
        intro j hj
        by_cases hlt : j < n
        · exact hall j hlt
        · exact hnone hj hlt

end Registers

/-! ### Machines -/

/-- A clocked machine: the state after reset, and the state after a clock edge. -/
structure Machine (ι σ : Type*) where
  init : σ
  next : σ → ι → σ

namespace Machine

variable {ι σ ρ : Type*} (m : Machine ι σ)

/-- The state in cycle `n` of the run over the inputs `ins`. -/
def run (ins : ℕ → ι) : ℕ → σ
  | 0 => m.init
  | n + 1 => m.next (run ins n) (ins n)

@[simp] lemma run_zero (ins : ℕ → ι) : m.run ins 0 = m.init := rfl

lemma run_succ (ins : ℕ → ι) (n : ℕ) : m.run ins (n + 1) = m.next (m.run ins n) (ins n) := rfl

/-! ### Invariants -/

/-- **The invariant rule.** What holds after reset and is kept by every step holds throughout. -/
theorem invariant {P : σ → Prop} (h0 : P m.init) (hs : ∀ s i, P s → P (m.next s i))
    (ins : ℕ → ι) (n : ℕ) : P (m.run ins n) := by
  induction n with
  | zero => exact h0
  | succ n ih => exact hs _ _ ih

/-! ### Histories -/

/-- What the run has shown before cycle `n`, oldest first, when a step shows `obs`. -/
def history (obs : σ → ι → List ρ) (ins : ℕ → ι) : ℕ → List ρ
  | 0 => []
  | n + 1 => history obs ins n ++ obs (m.run ins n) (ins n)

@[simp] lemma history_zero (obs : σ → ι → List ρ) (ins : ℕ → ι) : m.history obs ins 0 = [] := rfl

lemma history_succ (obs : σ → ι → List ρ) (ins : ℕ → ι) (n : ℕ) :
    m.history obs ins (n + 1) = m.history obs ins n ++ obs (m.run ins n) (ins n) := rfl

end Machine

end RiscvSoc.Sync
