import RiscvSoc.Pipeline.Fetches

/-!
# Redirects in the order of age

A taken branch or a JALR in EX is older than what ID holds.  It drops the instruction in ID, but
the PC and the register file also listen to a JAL in ID.
-/

namespace RiscvSoc.Rtl

open Sync

namespace Core

variable (s : Core) (i : CoreIn)

/-- The target of the redirect in EX. -/
def exTarget : BitVec 32 :=
  if (s.exIn i).jalr then (s.exIn i).pcJalr else (s.exIn i).pcBranch

/-- **A JAL in ID does no harm to a redirect in EX**: it links to `x0`, and EX holds a JALR or a
branch to the target of the JAL. -/
def JumpHarmless : Prop :=
  s.jumpIf = true → s.id.rd = 0#5 ∧
    (s.idEx.exIsJalr = true ∨ s.ifId.idPc + s.id.immOut = s.idEx.exPc + s.idEx.exImm)

variable {s i}

lemma instrValidFinal_of_redirect (h : s.branchHazardEx i = true) :
    (s.exIn i).instrValidFinal = true := by
  simp only [branchHazardEx, HazardIn.branchHazardEx, hazard, ExIn.branchTaken, ExIn.jalr,
    Bool.or_eq_true, Bool.and_eq_true] at h
  rcases h with h | h
  · exact h.1.1
  · exact h.1

lemma jalr_of_redirect (h : s.branchHazardEx i = true) :
    (s.exIn i).jalr = s.idEx.exIsJalr := by
  rw [ExIn.jalr, instrValidFinal_of_redirect h, Bool.true_and]
  rfl

lemma branchTaken_of_redirect (h : s.branchHazardEx i = true) (hj : s.idEx.exIsJalr = false) :
    (s.exIn i).branchTaken = true := by
  rw [← jalr_of_redirect h] at hj
  simpa [branchHazardEx, HazardIn.branchHazardEx, hazard, hj] using h

/-- A redirect in EX empties both front registers, whatever stalls. -/
lemma flush_of_redirect (h : s.branchHazardEx i = true) :
    s.flushIfid i = true ∧ s.flushIdex i = true := by
  have h' : (s.hazard i).branchHazardEx = true := h
  simp [flushIfid, flushIdex, HazardIn.flushIfid, HazardIn.flushIdex, h']

end Core

section Redirect

variable (M : BitVec 32 → BitVec 32) (ins : ℕ → BusIn) (n : ℕ)

/-- **The redirect in EX goes first**: the next PC is its target, no link is written, and the
instruction in ID never enters EX. -/
structure RedirectFirst : Prop where
  pcNext : (coreRun M ins n).pcNext (corePins M ins n) =
    (coreRun M ins n).exTarget (corePins M ins n)
  noLink : (coreRun M ins n).jalLinkWe = false
  dropped : ∀ f, (fetchesRun M ins n).ifId = some f → ∀ m, n < m →
    (fetchesRun M ins m).idEx ≠ some f

variable {M ins n}

/-- What ID holds in the cycle of a redirect is dropped. -/
theorem dropped_of_redirect
    (h : (coreRun M ins n).branchHazardEx (corePins M ins n) = true) {f : Fetch}
    (hf : (fetchesRun M ins n).ifId = some f) {m : ℕ} (hm : n < m) :
    (fetchesRun M ins m).idEx ≠ some f := by
  obtain ⟨hd, hx⟩ := Core.flush_of_redirect h
  have hmem : f ∈ (fetchesRun M ins (n + 1)).fetched :=
    Fetches.mem_fetched_step.mpr (.inr ((tracks_run M ins n).ifIdFetched f hf))
  have hd' : (fetchesRun M ins (n + 1)).ifId ≠ some f := by
    simp [fetchesRun_succ, Fetches.step, hd]
  have hx' : (fetchesRun M ins (n + 1)).idEx ≠ some f := by
    simp [fetchesRun_succ, Fetches.step, hx]
  have hg := gone_run hmem hd' hx' (m - (n + 1))
  rw [Nat.add_sub_cancel' hm] at hg
  exact hg.2.2

/-- **When a redirect goes first**: just when a JAL in ID does it no harm. -/
theorem redirectFirst_iff (h : (coreRun M ins n).branchHazardEx (corePins M ins n) = true) :
    RedirectFirst M ins n ↔ (coreRun M ins n).JumpHarmless := by
  set s := coreRun M ins n with hs
  have hpc : s.pcNext (corePins M ins n) =
      if s.idEx.exIsJalr then (s.exIn (corePins M ins n)).pcJalr
      else if s.jumpIf then s.pcJumpIf
      else (s.exIn (corePins M ins n)).pcBranch := by
    rw [corePins, Core.pcNext_pins, ← hs]
    rw [corePins, ← hs] at h
    rw [Core.jalr_of_redirect h]
    cases hj : s.idEx.exIsJalr
    · simp [Core.branchTaken_of_redirect h hj]
    · rfl
  have htgt : s.exTarget (corePins M ins n) =
      if s.idEx.exIsJalr then (s.exIn (corePins M ins n)).pcJalr
      else (s.exIn (corePins M ins n)).pcBranch := by
    rw [Core.exTarget, Core.jalr_of_redirect h]
  constructor
  · rintro ⟨hp, hl, -⟩ hjump
    have hrd : s.id.rd = 0#5 := by simpa [Core.jalLinkWe, ← hs, hjump] using hl
    refine ⟨hrd, ?_⟩
    cases hj : s.idEx.exIsJalr
    · rw [← hs, hpc, htgt, hj, hjump] at hp
      exact .inr hp
    · exact .inl rfl
  · intro hc
    refine ⟨?_, ?_, fun f hf m hm => dropped_of_redirect h hf hm⟩
    · rw [← hs, hpc, htgt]
      cases hj : s.idEx.exIsJalr
      · cases hjump : s.jumpIf
        · rfl
        · rcases (hc hjump).2 with hx | hx
          · simp [hj] at hx
          · exact hx
      · rfl
    · rw [← hs, Core.jalLinkWe]
      cases hjump : s.jumpIf
      · rfl
      · simp [(hc hjump).1]

end Redirect

/-- A taken `beq x0, x0, 8` in front of a NOP goes first. -/
theorem redirectFirst_beq :
    RedirectFirst (fun a => if a = 0#32 then 0x00000463#32 else nop)
      (fun _ => ⟨false, true, 0#32, false, 0#32⟩) 2 :=
  (redirectFirst_iff (by decide +kernel)).mpr
    fun h => absurd h (by decide +kernel)

/-- `beq x0, x0, 8` directly in front of `jal x1, 16`. -/
def branchThenJal : BitVec 32 → BitVec 32 := fun a =>
  if a = 0#32 then 0x00000463#32 else if a = 4#32 then 0x010000EF#32 else nop

/-- **The squashed JAL jumps**: with the taken branch in EX the next PC is the target of the JAL
behind it, which also writes its link. -/
theorem branchThenJal_jumps :
    ¬ ∀ M ins n, (coreRun M ins n).branchHazardEx (corePins M ins n) = true →
      RedirectFirst M ins n := by
  intro h
  have hr := h branchThenJal (fun _ => ⟨false, true, 0#32, false, 0#32⟩) 2 (by decide +kernel)
  have hl := hr.noLink
  revert hl
  decide +kernel

end RiscvSoc.Rtl
