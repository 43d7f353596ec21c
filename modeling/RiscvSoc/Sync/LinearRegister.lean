import Mathlib.Dynamics.PeriodicPts.Lemmas
import Mathlib.Data.Nat.Count
import Mathlib.Data.Nat.Prime.Basic
import Mathlib.Order.Interval.Finset.Nat
import Mathlib.Tactic.Ring

/-!
# Linear feedback registers

A register whose next value is a linear function of its bits.  Its value after any number of steps
comes from the columns of its map, which are squared once for each binary digit of the number; so
its period can be computed, and a register with the longest possible period goes through all words
but zero.
-/

namespace RiscvSoc.Sync

open Function

/-! ### Periods -/

/-- **The period of a point** is `N` when it comes back after `N` steps and after none of the
numbers `N / p` for a prime `p`. -/
theorem minimalPeriod_eq_of_primes {α : Type*} {f : α → α} {x : α} {N : ℕ}
    (h : f^[N] x = x) (hp : ∀ p, p.Prime → p ∣ N → f^[N / p] x ≠ x) :
    minimalPeriod f x = N := by
  have hdvd : minimalPeriod f x ∣ N := IsPeriodicPt.minimalPeriod_dvd h
  by_contra hne
  obtain ⟨k, hk⟩ := hdvd
  have hk1 : k ≠ 1 := by
    rintro rfl
    exact hne (by omega)
  obtain ⟨p, hprime, m, rfl⟩ := Nat.exists_prime_and_dvd hk1
  refine hp p hprime ⟨minimalPeriod f x * m, by rw [hk]; ring⟩ ?_
  have hdiv : N / p = minimalPeriod f x * m := by
    rw [hk, show minimalPeriod f x * (p * m) = p * (minimalPeriod f x * m) by ring]
    exact Nat.mul_div_cancel_left _ hprime.pos
  rw [hdiv]
  exact (isPeriodicPt_minimalPeriod f x).mul_const m

/-! ### Linear maps of words -/

variable {w : ℕ} {f g : BitVec w → BitVec w}

/-- A map of words that respects `xor`. -/
def IsLinear (f : BitVec w → BitVec w) : Prop := ∀ x y, f (x ^^^ y) = f x ^^^ f y

lemma IsLinear.zero (hf : IsLinear f) : f 0#w = 0#w := by
  have h := hf 0#w 0#w
  rwa [BitVec.xor_self, BitVec.xor_self] at h

lemma IsLinear.comp (hf : IsLinear f) (hg : IsLinear g) : IsLinear (f ∘ g) := by
  intro x y
  simp only [comp_apply]
  rw [hg, hf]

/-- The sum of the columns that the bits of `x` from bit `i` on select. -/
def combine : List (BitVec w) → BitVec w → ℕ → BitVec w
  | [], _, _ => 0#w
  | c :: cs, x, i => (if x.getLsbD i then c else 0#w) ^^^ combine cs x (i + 1)

variable (w) in
/-- The words with a single bit. -/
def units : List (BitVec w) := (List.range w).map (BitVec.twoPow w)

lemma IsLinear.apply_combine (hf : IsLinear f) (cs : List (BitVec w)) (x : BitVec w) (i : ℕ) :
    f (combine cs x i) = combine (cs.map f) x i := by
  induction cs generalizing i with
  | nil => exact hf.zero
  | cons c cs ih =>
    rw [combine, hf, ih, List.map_cons, combine]
    cases x.getLsbD i
    · simp [hf.zero]
    · rfl

lemma getLsbD_combine_units (x : BitVec w) (j : ℕ) (k i : ℕ) (hi : i + k = w) :
    (combine ((List.range' i k).map (BitVec.twoPow w)) x i).getLsbD j =
      (decide (i ≤ j) && x.getLsbD j) := by
  induction k generalizing i with
  | zero =>
    have hj : (decide (i ≤ j) && x.getLsbD j) = false := by
      by_cases h : i ≤ j
      · rw [BitVec.getLsbD_of_ge x j (by omega), Bool.and_false]
      · simp [h]
    rw [hj]
    exact BitVec.getLsbD_zero
  | succ k ih =>
    rw [List.range'_succ, List.map_cons, combine, BitVec.getLsbD_xor, ih (i + 1) (by omega)]
    rcases Nat.lt_trichotomy i j with h | rfl | h
    · have hlow : (if x.getLsbD i then BitVec.twoPow w i else 0#w).getLsbD j = false := by
        cases x.getLsbD i <;> simp [BitVec.getLsbD_twoPow, Nat.ne_of_lt h]
      simp [hlow, Nat.le_of_lt h, Nat.succ_le_of_lt h]
    · have hiw : i < w := by omega
      cases x.getLsbD i
      · simp
      · simp [hiw]
    · cases x.getLsbD i <;>
        simp [BitVec.getLsbD_twoPow, Nat.ne_of_gt h, Nat.not_le_of_lt h,
          Nat.not_le_of_lt (Nat.lt_succ_of_lt h)]

/-- A word is the sum of its bits. -/
lemma combine_units (x : BitVec w) : combine (units w) x 0 = x := by
  refine BitVec.eq_of_getLsbD_eq fun j _ => ?_
  rw [units, List.range_eq_range', getLsbD_combine_units x j w 0 (by omega)]
  simp

/-- **A linear map is the combination of its columns.** -/
lemma IsLinear.combine_columns (hf : IsLinear f) (x : BitVec w) :
    combine ((units w).map f) x 0 = f x := by
  rw [← hf.apply_combine, combine_units]

/-! ### Many steps at once -/

/-- `k n`, with the number computed first: a word that is used more than once is evaluated once. -/
def strictly {α : Type*} (n : ℕ) (k : ℕ → α) : α :=
  match n with
  | 0 => k 0
  | n + 1 => k (n + 1)

lemma strictly_eq {α : Type*} (n : ℕ) (k : ℕ → α) : strictly n k = k n := by
  cases n <;> rfl

/-- `k cs`, with the words of `cs` computed first. -/
def strictlyAll {α : Type*} : List (BitVec w) → (List (BitVec w) → α) → α
  | [], k => k []
  | c :: cs, k => strictly c.toNat fun n => strictlyAll cs fun cs => k (BitVec.ofNat w n :: cs)

lemma strictlyAll_eq {α : Type*} (cs : List (BitVec w)) (k : List (BitVec w) → α) :
    strictlyAll cs k = k cs := by
  induction cs generalizing k with
  | nil => rfl
  | cons c cs ih => rw [strictlyAll, strictly_eq, ih, BitVec.ofNat_toNat, BitVec.setWidth_eq]

/-- The columns of a map taken twice. -/
def square (cs : List (BitVec w)) : List (BitVec w) := cs.map fun c => combine cs c 0

/-- `n` steps of the map with the columns `cs`, for a number `n` of `k` binary digits. -/
def jump : ℕ → List (BitVec w) → ℕ → BitVec w → BitVec w
  | 0, _, _, x => x
  | k + 1, cs, n, x =>
    strictly (if n % 2 = 1 then combine cs x 0 else x).toNat fun y =>
      strictlyAll (square cs) fun cs => jump k cs (n / 2) (BitVec.ofNat w y)

lemma IsLinear.square_columns (hf : IsLinear f) :
    square ((units w).map f) = (units w).map (f ∘ f) := by
  unfold square
  rw [List.map_map]
  refine List.map_congr_left fun u _ => ?_
  exact hf.combine_columns (f u)

/-- **A jump is as many steps as it says.** -/
theorem IsLinear.jump_eq (hf : IsLinear f) {k n : ℕ} (hn : n < 2 ^ k) (x : BitVec w) :
    jump k ((units w).map f) n x = f^[n] x := by
  induction k generalizing f n x with
  | zero =>
    obtain rfl : n = 0 := by simpa using hn
    rfl
  | succ k ih =>
    rw [jump, strictly_eq, strictlyAll_eq, BitVec.ofNat_toNat, BitVec.setWidth_eq,
      hf.square_columns, ih (hf.comp hf) (by rw [pow_succ] at hn; omega)]
    have htwice : (f ∘ f)^[n / 2] = f^[2 * (n / 2)] := by
      rw [iterate_mul]
      rfl
    rw [htwice]
    split_ifs with hodd
    · rw [hf.combine_columns, ← iterate_succ_apply]
      congr 2
      omega
    · congr 1
      omega

/-! ### All words but zero -/

section Orbit

variable {x : BitVec w} (hper : minimalPeriod f x = 2 ^ w - 1)
include hper

/-- Within a period no word comes twice. -/
lemma orbit_injOn (n : ℕ) :
    Set.InjOn (fun j => (f^[n + j] x).toNat) (Finset.range (2 ^ w - 1)) := by
  intro i hi j hj hij
  rw [Finset.coe_range, Set.mem_Iio] at hi hj
  have hmem : x ∈ periodicPts f := by
    rw [← minimalPeriod_pos_iff_mem_periodicPts, hper]
    omega
  have hperiod : minimalPeriod f (f^[n] x) = 2 ^ w - 1 := by
    rw [minimalPeriod_apply_iterate hmem, hper]
  have heq : f^[i] (f^[n] x) = f^[j] (f^[n] x) := by
    rw [← iterate_add_apply, ← iterate_add_apply, Nat.add_comm i, Nat.add_comm j]
    exact BitVec.eq_of_toNat_eq hij
  exact (iterate_eq_iterate_iff_of_lt_minimalPeriod (by omega) (by omega)).mp heq

variable (hf : IsLinear f) (hx : x ≠ 0#w)
include hf hx

/-- Zero is not reached, since it is never left. -/
lemma IsLinear.iterate_ne_zero (j : ℕ) : f^[j] x ≠ 0#w := by
  have hw : 2 ≤ 2 ^ w := by
    cases w with
    | zero => exact absurd (BitVec.eq_nil x) (by simpa using hx)
    | succ w =>
      rw [pow_succ]
      have := Nat.one_le_two_pow (n := w)
      omega
  intro hzero
  have hstay : ∀ k, f^[k] (0#w) = 0#w := by
    intro k
    induction k with
    | zero => rfl
    | succ k ih => rw [iterate_succ_apply, hf.zero, ih]
  have hback : f^[minimalPeriod f x * (j + 1)] x = x :=
    (isPeriodicPt_minimalPeriod f x).mul_const (j + 1)
  have hle : j ≤ minimalPeriod f x * (j + 1) := by
    rw [hper]
    calc j ≤ 1 * (j + 1) := by omega
      _ ≤ (2 ^ w - 1) * (j + 1) := Nat.mul_le_mul_right _ (by omega)
  obtain ⟨k, hk⟩ := Nat.exists_eq_add_of_le hle
  rw [hk, Nat.add_comm, iterate_add_apply, hzero, hstay] at hback
  exact hx hback.symm

/-- **A register with the longest period goes through all words but zero**, from any step on. -/
theorem IsLinear.image_orbit (n : ℕ) :
    (Finset.range (2 ^ w - 1)).image (fun j => (f^[n + j] x).toNat) = Finset.Ioo 0 (2 ^ w) := by
  refine Finset.eq_of_subset_of_card_le ?_ ?_
  · intro v hv
    obtain ⟨j, -, rfl⟩ := Finset.mem_image.mp hv
    refine Finset.mem_Ioo.mpr ⟨?_, BitVec.isLt _⟩
    refine Nat.pos_of_ne_zero fun h => hf.iterate_ne_zero hper hx (n + j) ?_
    exact BitVec.eq_of_toNat_eq (by simpa using h)
  · rw [Nat.card_Ioo, Finset.card_image_of_injOn (orbit_injOn hper n), Finset.card_range]
    omega

/-- How often the words of a period have a property. -/
theorem IsLinear.count_orbit (P : ℕ → Prop) [DecidablePred P] (n : ℕ) :
    Nat.count (fun j => P (f^[n + j] x).toNat) (2 ^ w - 1) =
      ((Finset.Ioo 0 (2 ^ w)).filter P).card := by
  rw [Nat.count_eq_card_filter_range, ← hf.image_orbit hper hx n, Finset.filter_image,
    Finset.card_image_of_injOn]
  exact (orbit_injOn hper n).mono (by exact_mod_cast Finset.filter_subset _ _)

end Orbit

/-! ### Registers that wait -/

section Enabled

variable {α : Type*} {F : α → α} {r : ℕ → α} {en : ℕ → Bool}
  (hr : ∀ n, r (n + 1) = if en n then F (r n) else r n)
include hr

/-- A register that steps when it is enabled. -/
lemma eq_iterate_count (n : ℕ) : r n = F^[Nat.count (fun k => en k = true) n] (r 0) := by
  induction n with
  | zero => rfl
  | succ n ih =>
    rw [hr, Nat.count_succ]
    cases en n
    · simpa using ih
    · simp only [if_true]
      rw [iterate_succ_apply', ← ih]

/-- **What an enabled register shows** when it steps is what its steps show. -/
theorem count_enabled (P : α → Prop) [DecidablePred P] (n : ℕ) :
    Nat.count (fun k => en k = true ∧ P (r k)) n =
      Nat.count (fun j => P (F^[j] (r 0))) (Nat.count (fun k => en k = true) n) := by
  induction n with
  | zero => rfl
  | succ n ih =>
    rw [Nat.count_succ, Nat.count_succ (fun k => en k = true), ih]
    cases hen : en n
    · simp
    · simp only [true_and, if_true]
      rw [Nat.count_succ, ← eq_iterate_count hr n]

end Enabled

end RiscvSoc.Sync
