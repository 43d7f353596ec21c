import RiscvSoc.Bus.InstCache
import RiscvSoc.Rtl.SocTopIcache
import RiscvSoc.Pipeline.ScheduledRefines

/-!
# Fetching through the instruction cache

When the front waits for a line, the core repeats what is in ID in every cycle of the wait.  A
program that has a NOP in the last word of every line, and no branch and no JALR in the word before
it, has nothing else there, and the line it waits for is the one that it refills.
-/

namespace RiscvSoc.Rtl

open Isa Sync

/-- **The schedule for the instruction cache.** -/
structure LineScheduled (image : BitVec 10 → BitVec 32) : Prop extends Scheduled image where
  lineEnd : ∀ a, a.toNat % 4 = 3 → image a = nop
  noRedirect : ∀ a i, a.toNat % 4 = 2 → decode (image a) = some i → i.isBranchOrJalr = false

/-! ### Lines -/

lemma wordAddr_mod (a : BitVec 32) : (wordAddr a).toNat % 4 = (lineWord a).toNat := by
  rw [wordAddr, BitVec.extractLsb'_toNat, lineWord_toNat, Nat.shiftRight_eq_div_pow]
  omega

/-- The next word is in the same line, but for the last one. -/
lemma lineBase_next {a : BitVec 32} (h : (lineWord a).toNat ≠ 3) :
    lineBase (a + 4#32) = lineBase a := by
  rw [lineWord_toNat] at h
  have ha := a.isLt
  apply BitVec.eq_of_toNat_eq
  rw [lineBase_toNat, lineBase_toNat, BitVec.toNat_add]
  simp only [BitVec.toNat_ofNat]
  omega

/-- The word before the last one of a line. -/
lemma lineWord_prev {a : BitVec 32} (h : (lineWord (a + 4#32)).toNat = 3) :
    (lineWord a).toNat = 2 := by
  rw [lineWord_toNat, BitVec.toNat_add] at h
  rw [lineWord_toNat]
  have ha := a.isLt
  simp only [BitVec.toNat_ofNat] at h
  omega

section Words

variable {image : BitVec 10 → BitVec 32} (h : LineScheduled image) {pc : BitVec 32}
include h

lemma LineScheduled.nop_at (hl : (lineWord pc).toNat = 3) : instMem image pc = nop :=
  h.lineEnd _ ((wordAddr_mod pc).trans hl)

lemma LineScheduled.no_redirect_at (hl : (lineWord pc).toNat = 2) {i : Instr}
    (hi : decode (instMem image pc) = some i) : i.isBranchOrJalr = false :=
  h.noRedirect _ i ((wordAddr_mod pc).trans hl) hi

end Words

namespace CacheInst

/-- The line of the address is in the cache. -/
def Holds (c : CacheInst) (a : BitVec 32) : Prop :=
  ∃ w, (c.cacheAddr (groupIndex a) w).valid = true ∧
    (c.cacheAddr (groupIndex a) w).addr.extractLsb' 4 28 = a.extractLsb' 4 28

variable {c : CacheInst} {i : CacheInstIn}

lemma extract_lineBase (a : BitVec 32) : (lineBase a).extractLsb' 4 28 = a.extractLsb' 4 28 :=
  BitVec.extractLsb'_append_eq_left

/-- The cache holds a line as a whole. -/
lemma Holds.congr {a b : BitVec 32} (h : c.Holds a) (hl : lineBase b = lineBase a) :
    c.Holds b := by
  have hg : groupIndex b = groupIndex a := by rw [← groupIndex_lineBase, hl, groupIndex_lineBase]
  have ht : b.extractLsb' 4 28 = a.extractLsb' 4 28 := by
    rw [← extract_lineBase, hl, extract_lineBase]
  rw [Holds, hg, ht]
  exact h

lemma Holds.of_tags {c' : CacheInst} {a : BitVec 32} (h : c.Holds a)
    (ht : c'.cacheAddr = c.cacheAddr) : c'.Holds a := by
  rw [Holds, ht]
  exact h

lemma hitFound_iff (hr : i.imemReq = true) : c.hitFound i = true ↔ c.Holds i.imemAddr := by
  simp only [hitFound, hr, Bool.true_and, Bool.or_eq_true, hitWay, Bool.and_eq_true, beq_iff_eq]
  constructor
  · rintro (((h | h) | h) | h) <;> exact ⟨_, h⟩
  · rintro ⟨w, h⟩
    rcases bitVec_two_cases w with rfl | rfl | rfl | rfl
    · exact .inl (.inl (.inl h))
    · exact .inl (.inl (.inr h))
    · exact .inl (.inr h)
    · exact .inr h

/-- A line that has been filled is held. -/
lemma holds_of_fill {M : BitVec 30 → BitVec 32} (hc : c.Coherent M) (hf : c.fillsLine i = true)
    {a : BitVec 32} (ha : c.refillBaseAddr = lineBase a) : (c.step i).Holds a := by
  rcases step_cases c i with ⟨-, hr, -⟩ | ⟨-, -, h3, -⟩ | ⟨-, e⟩ | ⟨hm, -⟩ | ⟨hp, -, -⟩
  · simp [fillsLine, hr] at hf
  · simp [fillsLine, h3] at hf
  · have hp : c.missPending = true := by
      simp only [fillsLine, Bool.and_eq_true] at hf
      exact hf.1.1
    have hbase : lineBase c.addrReg = lineBase a := (hc.base hp).symm.trans ha
    have hg : groupIndex a = c.refillGroupIndex := by
      rw [hc.set hp, ← groupIndex_lineBase, ← hbase, groupIndex_lineBase]
    refine ⟨c.refillWay, ?_, ?_⟩
    · rw [e, hg]
      simp
    · rw [e, hg]
      simp only [Function.update_self]
      rw [hbase, extract_lineBase]
  · simp only [fillsLine, findsMiss, Bool.and_eq_true, Bool.not_eq_true'] at hf hm
    rw [hm.1.1] at hf
    exact absurd hf.1.1 (by simp)
  · simp [fillsLine, hp] at hf

end CacheInst

end RiscvSoc.Rtl
