import Mathlib.Logic.Function.Iterate
import RiscvSoc.Sync.Machine

/-!
# Clocked machines against sequential references

A reference takes one step after the other and shows something at each.  A machine refines it when
every cycle is matched by some number of its steps, none included.  The relation carries a
potential, which bounds how many cycles go without one: a cycle costs a unit, and a step of the
reference brings `K`.
-/

namespace RiscvSoc.Sync

/-! ### References -/

section Reference

variable {τ ρ : Type*} (next : τ → τ) (shown : τ → List ρ)

/-- What `k` steps from `t` show, oldest first. -/
def emitted : ℕ → τ → List ρ
  | 0, _ => []
  | k + 1, t => shown t ++ emitted k (next t)

@[simp] lemma emitted_zero (t : τ) : emitted next shown 0 t = [] := rfl

lemma emitted_succ (k : ℕ) (t : τ) :
    emitted next shown (k + 1) t = shown t ++ emitted next shown k (next t) := rfl

@[simp] lemma emitted_one (t : τ) : emitted next shown 1 t = shown t := List.append_nil _

lemma emitted_add (j k : ℕ) (t : τ) :
    emitted next shown (j + k) t =
      emitted next shown j t ++ emitted next shown k (next^[j] t) := by
  induction j generalizing t with
  | zero => rw [Nat.zero_add]; rfl
  | succ j ih =>
    rw [Nat.add_right_comm, emitted_succ, ih, emitted_succ, List.append_assoc,
      Function.iterate_succ_apply]

end Reference

/-! ### The refinement rule -/

section Refinement

variable {ι σ τ ρ : Type*} (next : τ → τ) (shown : τ → List ρ) (R : ℕ → σ → τ → Prop)

/-- **A cycle is matched**: some steps of the reference from `t` show `l` and lead to a state that
is related to the next one of the machine, and their number pays for the cycle. -/
def Matched (K w : ℕ) (l : List ρ) (s' : σ) (t : τ) : Prop :=
  ∃ k w', l = emitted next shown k t ∧ R w' s' (next^[k] t) ∧ w' + 1 ≤ w + K * k

variable {next shown R} {m : Machine ι σ} {obs : σ → ι → List ρ} {ins : ℕ → ι} {t₀ : τ} {K w₀ : ℕ}

/-- **The refinement rule.** If every cycle is matched, what the machine has shown is what the
reference shows in some number of steps, and these are at least the cycles over `K`. -/
theorem refines (h0 : R w₀ m.init t₀)
    (hs : ∀ n w t, R w (m.run ins n) t →
      Matched next shown R K w (obs (m.run ins n) (ins n)) (m.run ins (n + 1)) t) (n : ℕ) :
    ∃ j w, m.history obs ins n = emitted next shown j t₀ ∧ R w (m.run ins n) (next^[j] t₀) ∧
      n + w ≤ K * j + w₀ := by
  induction n with
  | zero => exact ⟨0, w₀, rfl, h0, by omega⟩
  | succ n ih =>
    obtain ⟨j, w, hl, hr, hw⟩ := ih
    obtain ⟨k, w', hl', hr', hw'⟩ := hs n w _ hr
    refine ⟨j + k, w', ?_, ?_, ?_⟩
    · rw [Machine.history_succ, hl, hl', emitted_add]
    · rw [Nat.add_comm j k, Function.iterate_add_apply]
      exact hr'
    · rw [Nat.mul_add]
      omega

end Refinement

/-- What a reference shows in some steps is shown by every machine that keeps pace with it. -/
lemma exists_prefix_of_pace {ρ : Type*} {ref trace : ℕ → List ρ} {K c : ℕ} (hK : 0 < K)
    (href : ∀ m m', m ≤ m' → ref m <+: ref m')
    (h : ∀ n, ∃ m, trace n = ref m ∧ n ≤ K * m + c) (m : ℕ) : ∃ n, ref m <+: trace n := by
  obtain ⟨m', hm', hle⟩ := h (K * m + c)
  refine ⟨K * m + c, ?_⟩
  rw [hm']
  exact href _ _ (Nat.le_of_mul_le_mul_left (by omega) hK)

end RiscvSoc.Sync
