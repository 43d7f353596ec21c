import RiscvSoc.Pipeline.Fetches
import Mathlib.Data.List.Nodup

/-!
# Every instruction is issued once

The front of the pipeline waits for the instruction memory, the back does not.  As long as no
instruction goes from ID to EX in a cycle that keeps it in IF/ID, every instruction is issued
once, jumps once or is squashed.
-/

namespace RiscvSoc.Rtl

open Sync

namespace Core

variable (s : Core) (i : CoreIn)

/-- **IF/ID keeps an instruction that ID/EX takes**: nothing holds the back, and only the
instruction memory holds the front. -/
def Reissues : Prop :=
  s.ifId.instrValidOut = true ∧ s.jumpIf = false ∧ s.branchHazardEx i = false ∧
    s.stallBack i = false ∧ s.loadUseHazard i = false ∧ i.imemReady = false

end Core

namespace Fetches

variable {t : Fetches} {s : Core} {b : BusIn} {M : BitVec 32 → BitVec 32}

/-! ### What becomes of the instruction in ID -/

/-- **The fate of the instruction in ID** in a cycle that does not issue what it keeps: it is
issued, or jumps, or is squashed, or stays; and only when it does not stay another is latched. -/
theorem step_fate (ht : t.Tracks s) (hC : ¬ s.Reissues (b.pins M s)) :
    ∃ issue jump squash stay : List Fetch,
      (t.step s (b.pins M s)).issued = issue ++ t.issued ∧
      (t.step s (b.pins M s)).jumped = jump ++ t.jumped ∧
      (t.step s (b.pins M s)).squashed = squash ++ t.squashed ∧
      (t.step s (b.pins M s)).ifId.toList = stay ++ (t.latched s (b.pins M s)).toList ∧
      issue ++ jump ++ squash ++ stay = t.ifId.toList ∧
      (∀ f ∈ issue, f.isJal = false) ∧ (∀ f ∈ jump, f.isJal = true) := by
  have hkind : ∀ f ∈ t.ifId.toList, f.isJal = s.jumpIf := by
    intro f hf
    rw [Option.mem_toList] at hf
    have hv : s.ifId.instrValidOut = true := by rw [← ht.ifIdValid, hf]; rfl
    simp [Fetch.isJal, Core.jumpIf, Core.id, hv, ht.ifId f hf]
  have hfd := Core.flushIfid_pins s b M
  have hfx := Core.flushIdex_pins s b M
  cases hb : s.branchHazardEx (b.pins M s)
  · cases hj : s.jumpIf
    · rw [hj] at hkind
      rw [hb, hj] at hfd hfx
      simp only [Bool.or_false, Bool.false_or, Bool.false_and] at hfd hfx
      have hfront := Core.stallFront_eq (s := s) (i := b.pins M s)
      by_cases hgo : s.stallBack (b.pins M s) = false ∧ s.loadUseHazard (b.pins M s) = false
      · -- Issued, so nothing is left in IF/ID.
        rw [hgo.2, Bool.false_and] at hfx
        refine ⟨t.ifId.toList, [], [], [], ?_, ?_, ?_, ?_, by simp, hkind, by simp⟩
        · simp [step, hfx, hgo.1]
        · simp [step, hj]
        · simp [step, hb]
        · cases hv : t.ifId with
          | none =>
            cases hs : s.stallFront (b.pins M s) <;> simp [step, hfd, hs, hv, latched]
          | some f =>
            have hr : b.imemReady = true := by
              by_contra hr
              refine hC ⟨?_, hj, hb, hgo.1, hgo.2, by simpa using hr⟩
              rw [← ht.ifIdValid, hv]; rfl
            rw [hgo.1, hgo.2] at hfront
            simp [step, hfd, hfront, hr]
      · -- Held in ID.
        have hs : s.stallFront (b.pins M s) = true := by
          rw [hfront]
          cases h1 : s.stallBack (b.pins M s) <;> cases h2 : s.loadUseHazard (b.pins M s) <;>
            simp_all
        have hx : (s.flushIdex (b.pins M s) || s.stallBack (b.pins M s)) = true := by
          rw [hfx]
          cases h1 : s.stallBack (b.pins M s) <;> cases h2 : s.loadUseHazard (b.pins M s) <;>
            simp_all
        refine ⟨[], [], [], t.ifId.toList, ?_, ?_, ?_, ?_, by simp, by simp, by simp⟩
        · simp [step, hx]
        · simp [step, hj]
        · simp [step, hb]
        · simp [step, hfd, hs, latched]
    · -- A JAL jumps, held or not.
      rw [hj] at hkind
      rw [hb, hj] at hfd hfx
      have hx : (s.flushIdex (b.pins M s) || s.stallBack (b.pins M s)) = true := by
        rw [hfx]
        cases s.stallBack (b.pins M s) <;> simp
      refine ⟨[], t.ifId.toList, [], [], ?_, ?_, ?_, ?_, by simp, by simp, hkind⟩
      · simp [step, hx]
      · simp [step, hj, hb]
      · simp [step, hb]
      · simp [step, hfd, latched]
  · -- Squashed.
    rw [hb] at hfd hfx
    simp only [Bool.true_or] at hfd hfx
    refine ⟨[], [], t.ifId.toList, [], ?_, ?_, ?_, ?_, by simp, by simp, by simp⟩
    · simp [step, hfx]
    · simp [step, hb]
    · simp [step, hb]
    · simp [step, hfd, latched]

/-! ### The count -/

/-- **Every instruction is counted once**: it is in ID, or has been issued, or has jumped, or has
been squashed. -/
structure Counted (t : Fetches) : Prop where
  nodup : t.fetched.Nodup
  count : ∀ f, t.issued.count f + t.jumped.count f + t.squashed.count f + t.ifId.toList.count f =
    t.fetched.count f
  issued : ∀ f ∈ t.issued, f.isJal = false
  jumped : ∀ f ∈ t.jumped, f.isJal = true

lemma counted_init : Counted init := by constructor <;> simp [init]

theorem Counted.step (h : t.Counted) (ht : t.Tracks s) (hC : ¬ s.Reissues (b.pins M s)) :
    (t.step s (b.pins M s)).Counted := by
  obtain ⟨issue, jump, squash, stay, hi, hj, hs, hd, hall, hki, hkj⟩ := step_fate ht hC
  have hf : (t.step s (b.pins M s)).fetched = (t.latched s (b.pins M s)).toList ++ t.fetched := rfl
  refine ⟨?_, ?_, ?_, ?_⟩
  · rw [hf]
    refine List.nodup_append.mpr ⟨?_, h.nodup, ?_⟩
    · cases t.latched s (b.pins M s) <;> simp
    · rintro f hm g hg rfl
      exact not_mem_of_latched ht (Option.mem_toList.mp hm) hg
  · intro f
    have hc := congrArg (List.count f) hall
    simp only [List.count_append] at hc
    rw [hi, hj, hs, hd, hf]
    simp only [List.count_append]
    have := h.count f
    omega
  · intro f hf
    rw [hi, List.mem_append] at hf
    exact hf.elim (hki f) (h.issued f)
  · intro f hf
    rw [hj, List.mem_append] at hf
    exact hf.elim (hkj f) (h.jumped f)

end Fetches

/-! ### Runs -/

section Run

variable (M : BitVec 32 → BitVec 32) (ins : ℕ → BusIn)

/-- **Every instruction is consumed once**, seen before cycle `n`: of those that are neither
squashed nor still in ID, a JAL has jumped in one cycle and was never issued, and every other one
has been issued in one cycle and never jumped; none is issued twice; and in cycle `n` a JAL that
is not squashed sends the PC to its target and writes its link. -/
structure ConsumedOnce (n : ℕ) : Prop where
  jal : ∀ f ∈ (fetchesRun M ins n).fetched, f ∉ (fetchesRun M ins n).squashed →
    (fetchesRun M ins n).ifId ≠ some f → f.isJal = true →
    (fetchesRun M ins n).jumped.count f = 1 ∧ (fetchesRun M ins n).issued.count f = 0
  other : ∀ f ∈ (fetchesRun M ins n).fetched, f ∉ (fetchesRun M ins n).squashed →
    (fetchesRun M ins n).ifId ≠ some f → f.isJal = false →
    (fetchesRun M ins n).issued.count f = 1 ∧ (fetchesRun M ins n).jumped.count f = 0
  noReissue : ∀ f, (fetchesRun M ins n).issued.count f ≤ 1
  jump : (coreRun M ins n).jumpIf = true →
    (coreRun M ins n).branchHazardEx (corePins M ins n) = false →
    (coreRun M ins n).pcNext (corePins M ins n) = (coreRun M ins n).pcJumpIf ∧
      (coreRun M ins n).jalLinkWe = ((coreRun M ins n).id.rd != 0#5)

variable {M ins}

/-- **Every fetched instruction is issued once** in a run that never issues what it keeps in
IF/ID. -/
theorem consumedOnce_of_not_reissues
    (hC : ∀ n, ¬ (coreRun M ins n).Reissues (corePins M ins n)) (n : ℕ) :
    ConsumedOnce M ins n := by
  obtain ⟨hnd, hc, hi, hj⟩ : (fetchesRun M ins n).Counted :=
    holds_along (I := fun k => (fetchesRun M ins k).Counted) Fetches.counted_init
      (fun k h hk => h.step (tracks_run M ins k) hk) fun k _ => hC k
  have hone : ∀ f ∈ (fetchesRun M ins n).fetched, f ∉ (fetchesRun M ins n).squashed →
      (fetchesRun M ins n).ifId ≠ some f →
      (fetchesRun M ins n).issued.count f + (fetchesRun M ins n).jumped.count f = 1 := by
    intro f hf hs hd
    have h1 := hc f
    have h2 : (fetchesRun M ins n).ifId.toList.count f = 0 := by
      rw [List.count_eq_zero, Option.mem_toList]
      exact hd
    rw [List.count_eq_one_of_mem hnd hf, List.count_eq_zero.mpr hs, h2] at h1
    omega
  constructor
  · intro f hf hs hd hk
    have h0 : (fetchesRun M ins n).issued.count f = 0 :=
      List.count_eq_zero.mpr fun hm => by simp [hi f hm] at hk
    have h1 := hone f hf hs hd
    omega
  · intro f hf hs hd hk
    have h0 : (fetchesRun M ins n).jumped.count f = 0 :=
      List.count_eq_zero.mpr fun hm => by simp [hj f hm] at hk
    have h1 := hone f hf hs hd
    omega
  · intro f
    have h1 := hc f
    have h2 := List.nodup_iff_count_le_one.mp hnd f
    omega
  · intro hjump hb
    have hn : ((coreRun M ins n).exIn (corePins M ins n)).jalr = false := by
      simp only [Core.branchHazardEx, HazardIn.branchHazardEx, Core.hazard,
        Bool.or_eq_false_iff] at hb
      exact hb.2
    refine ⟨?_, by simp [Core.jalLinkWe, hjump]⟩
    rw [corePins] at hn ⊢
    rw [Core.pcNext_pins, hn, hjump]
    rfl

/-- `jal x0, 8` in front of NOPs. -/
def jumpAhead : BitVec 32 → BitVec 32 := fun a => if a = 0#32 then 0x0080006F#32 else nop

/-- The JAL jumps in cycle 1, and the instruction memory keeps the empty ID waiting in cycle 2. -/
theorem consumedOnce_jumpAhead :
    ConsumedOnce jumpAhead (fun n => ⟨false, n != 2, 0#32, false, 0#32⟩) 6 := by
  refine consumedOnce_of_not_reissues (fun n h => ?_) 6
  obtain ⟨hv, -, -, -, -, hr⟩ := h
  obtain rfl : n = 2 := by simpa [corePins] using hr
  exact absurd hv (by decide +kernel)

/-- **Issued twice**: `addi x1, x1, 1` waits in ID for one cycle of the instruction memory, and
goes to EX in both cycles. -/
theorem addi_reissued : ¬ ∀ M ins n, ConsumedOnce M ins n := by
  intro h
  have hn := (h (fun _ => 0x00108093#32) (fun n => ⟨false, n != 1, 0#32, false, 0#32⟩) 3).noReissue
    ⟨0, 0x00108093#32⟩
  revert hn
  decide +kernel

end Run

end RiscvSoc.Rtl
