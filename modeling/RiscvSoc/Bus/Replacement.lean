import RiscvSoc.Bus.InstCache
import RiscvSoc.Rtl.CacheData
import RiscvSoc.Sync.LinearRegister
import Mathlib.Data.Int.CardIntervalMod
import Mathlib.Tactic.NormNum.Prime

/-!
# Which ways the caches give up

The register of `lfsr16_inst` and `lfsr16_data` has the longest period that sixteen bits allow, so
over a period it offers all ways equally often, but the way 0 once less.
-/

namespace RiscvSoc.Rtl

open Sync Function

/-! ### `lfsr16_inst` and `lfsr16_data` -/

namespace Lfsr

/-- An edge with `advance`. -/
def next (s : BitVec 16) : BitVec 16 := step s true

lemma step_eq (s : BitVec 16) (advance : Bool) :
    step s advance = if advance then next s else s := by
  cases advance <;> rfl

lemma isLinear_next : IsLinear next := by
  intro x y
  have hfb : fb (x ^^^ y) = (fb x ^^ fb y) := by
    simp only [fb, BitVec.getElem_xor]
    cases x[0] <;> cases y[0] <;> cases x[2] <;> cases y[2] <;> cases x[3] <;> cases y[3] <;>
      cases x[5] <;> cases y[5] <;> rfl
  simp only [next, step, if_true]
  rw [hfb, BitVec.extractLsb'_xor, ← BitVec.ofBool_xor_ofBool, BitVec.xor_append]

/-- The state after `n` edges, for the numbers of sixteen binary digits. -/
lemma jump_eq {n : ℕ} (hn : n < 2 ^ 16) :
    jump 16 ((units 16).map next) n reset = next^[n] reset :=
  isLinear_next.jump_eq hn reset

/-- The primes of the period. -/
lemma prime_of_dvd {p : ℕ} (hp : p.Prime) (h : p ∣ 65535) :
    p = 3 ∨ p = 5 ∨ p = 17 ∨ p = 257 := by
  have heq : ∀ {q : ℕ}, q.Prime → p ∣ q → p = q :=
    fun hq h => (Nat.prime_dvd_prime_iff_eq hp hq).mp h
  rw [show 65535 = 3 * (5 * (17 * 257)) by rfl, hp.dvd_mul, hp.dvd_mul, hp.dvd_mul] at h
  rcases h with h | h | h | h
  · exact .inl (heq (by norm_num) h)
  · exact .inr (.inl (heq (by norm_num) h))
  · exact .inr (.inr (.inl (heq (by norm_num) h)))
  · exact .inr (.inr (.inr (heq (by norm_num) h)))

/-- **The register has the longest period.** -/
theorem minimalPeriod_next : minimalPeriod next reset = 2 ^ 16 - 1 := by
  refine minimalPeriod_eq_of_primes ?_ ?_
  · rw [← jump_eq (by omega)]
    decide +kernel
  · intro p hp hdvd
    rcases prime_of_dvd hp hdvd with rfl | rfl | rfl | rfl <;>
      · rw [← jump_eq (by omega)]
        decide +kernel

/-- The way that a state offers: its two low bits. -/
def way (s : BitVec 16) : BitVec 2 := s.extractLsb' 0 2

lemma way_eq_iff (s : BitVec 16) (w : BitVec 2) : way s = w ↔ s.toNat % 4 = w.toNat := by
  rw [way, ← BitVec.toNat_inj]
  simp

/-- How often a way is offered by the words but zero. -/
lemma card_way (w : BitVec 2) : ((Finset.Ioo 0 (2 ^ 16)).filter fun v => v % 4 = w.toNat).card =
    if w = 0#2 then 16383 else 16384 := by
  have hall : ((Finset.range (2 ^ 16)).filter fun v => v % 4 = w.toNat).card = 16384 := by
    have hlt : w.toNat % 4 = w.toNat := Nat.mod_eq_of_lt w.isLt
    have h := Nat.count_modEq_card (2 ^ 16) (show 0 < 4 by omega) w.toNat
    simp only [Nat.ModEq, hlt] at h
    rw [← Nat.count_eq_card_filter_range, h]
    rfl
  have hzero : Finset.Ioo 0 (2 ^ 16) = (Finset.range (2 ^ 16)).erase 0 := by
    ext v
    simp only [Finset.mem_Ioo, Finset.mem_erase, Finset.mem_range]
    omega
  rw [hzero, Finset.filter_erase, Finset.card_erase_eq_ite, hall]
  have hmem : 0 ∈ (Finset.range (2 ^ 16)).filter (fun v => v % 4 = w.toNat) ↔ w = 0#2 := by
    simp only [Finset.mem_filter, Finset.mem_range, ← BitVec.toNat_inj]
    simp [eq_comm]
  simp only [hmem]

/-- **Over a period all ways are offered**, from any step on. -/
theorem count_way (w : BitVec 2) (n : ℕ) :
    Nat.count (fun j => way (next^[n + j] reset) = w) 65535 =
      if w = 0#2 then 16383 else 16384 := by
  have h := isLinear_next.count_orbit minimalPeriod_next (by decide) (fun v => v % 4 = w.toNat) n
  rw [card_way] at h
  simp only [way_eq_iff]
  exact h

end Lfsr

/-! ### The caches -/

/-- **The ways are chosen fairly**: while the register steps 65535 times, it offers every way 16384
times when it steps, and the way 0 once less. -/
def Fair (advance : ℕ → Bool) (way : ℕ → BitVec 2) : Prop :=
  ∀ n m w,
    Nat.count (fun k => advance k = true) m = Nat.count (fun k => advance k = true) n + 65535 →
      Nat.count (fun k => advance k = true ∧ way k = w) m =
        Nat.count (fun k => advance k = true ∧ way k = w) n + if w = 0#2 then 16383 else 16384

/-- A register that takes the steps of the LFSR from its reset on is fair and never zero. -/
lemma fair_of_step {r : ℕ → BitVec 16} {advance : ℕ → Bool} (h0 : r 0 = Lfsr.reset)
    (hr : ∀ n, r (n + 1) = Lfsr.step (r n) (advance n)) :
    (∀ n, r n ≠ 0#16) ∧ Fair advance fun n => (r n).extractLsb' 0 2 := by
  have hr' : ∀ n, r (n + 1) = if advance n then Lfsr.next (r n) else r n :=
    fun n => (hr n).trans (Lfsr.step_eq _ _)
  constructor
  · intro n
    rw [eq_iterate_count hr' n, h0]
    exact Lfsr.isLinear_next.iterate_ne_zero Lfsr.minimalPeriod_next (by decide) _
  · intro n m w hm
    have hcount : ∀ n, Nat.count (fun k => advance k = true ∧ (r k).extractLsb' 0 2 = w) n = _ :=
      count_enabled hr' (fun s => Lfsr.way s = w)
    rw [hcount m, hcount n, hm, h0, Nat.count_add, Lfsr.count_way]

/-- `L1_Cache_DATA` from reset, whatever the arrays hold, with every input left open. -/
def CacheData.machine (c : CacheData) : Machine CacheDataIn CacheData where
  init := c.reset
  next s i := s.step i

/-- **Both caches choose the ways fairly**, whatever their arrays hold and whatever comes from above
and from below: their registers are never zero, and over a period, as often as they step, all ways
are offered. -/
theorem caches_choose_fairly :
    (∀ (c : CacheInst) (ins : ℕ → CacheInstIn), (∀ n, (c.machine.run ins n).lfsr ≠ 0#16) ∧
      Fair (fun n => (ins n).imemReq) fun n => (c.machine.run ins n).victimWay) ∧
    ∀ (c : CacheData) (ins : ℕ → CacheDataIn), (∀ n, (c.machine.run ins n).lfsr ≠ 0#16) ∧
      Fair (fun n => (c.machine.run ins n).lfsrAdvance (ins n))
        fun n => (c.machine.run ins n).victimWay := by
  constructor
  · intro c ins
    exact fair_of_step (r := fun n => (c.machine.run ins n).lfsr) rfl fun _ => rfl
  · intro c ins
    exact fair_of_step (r := fun n => (c.machine.run ins n).lfsr) rfl fun _ => rfl

end RiscvSoc.Rtl
