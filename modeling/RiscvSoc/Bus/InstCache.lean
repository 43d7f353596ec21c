import Mathlib.Tactic.IntervalCases
import RiscvSoc.Sync.Machine
import RiscvSoc.Rtl.CacheInst

/-!
# The instruction cache is transparent

`L1_Cache_INST` over a lower level that answers every accepted beat with the word of a fixed
memory, after any delay, while the fetch address changes as it likes.  The hit works on the address
of the cycle and the refill on the one it has latched; the invariant keeps the two apart.
-/

namespace RiscvSoc.Rtl

open Sync

/-- The beats of a refill, in order. -/
def lineBeats (base : BitVec 32) : List (BitVec 32) :=
  [base, base + 4#32, base + 8#32, base + 12#32]

namespace CacheInst

/-! ### Over a lower level -/

/-- The cache from reset, whatever its arrays hold. -/
def machine (c : CacheInst) : Machine CacheInstIn CacheInst where
  init := c.reset
  next s i := s.step i

section Observers

variable (s : CacheInst) (i : CacheInstIn)

/-- The lower level and the cache agree on a beat. -/
def acceptsBeat : Bool := s.memReq && i.memReady

/-- The cache finds a miss. -/
def findsMiss : Bool := !s.missPending && i.imemReq && !s.hitFound i

/-- The last word of a line is taken: the line becomes valid. -/
def fillsLine : Bool := s.missPending && i.memReady && s.refillWordIdx == 3#2

/-- The address of the beat of this cycle. -/
def beatObs : List (BitVec 32) := if s.acceptsBeat i then [s.memAddr] else []

/-- The line whose miss is found in this cycle. -/
def missObs : List (BitVec 32) := if s.findsMiss i then [lineBase i.imemAddr] else []

/-- The line that becomes valid at this edge. -/
def fillObs : List (BitVec 32) := if s.fillsLine i then [s.refillBaseAddr] else []

/-- The words taken so far of the line being refilled. -/
def beatsTaken : List (BitVec 32) :=
  if s.missPending then (lineBeats s.refillBaseAddr).take s.refillWordIdx.toNat else []

end Observers

/-- A line in its set with the words of its address. -/
structure HoldsLine (M : BitVec 30 → BitVec 32) (g : BitVec 4) (a : BitVec 32)
    (line : CacheLine) : Prop where
  base : lineBase a = a
  set : groupIndex a = g
  words : ∀ k, line k = M (wordIndex (wordOfLine a k))

/-- **The invariant of the cache**: a request is up exactly during a refill, every valid line has
the words of its address, and the words buffered are the first ones of the line refilled. -/
structure Coherent (M : BitVec 30 → BitVec 32) (s : CacheInst) : Prop where
  memReq : s.memReqReg = s.missPending
  ready : s.imemReadyReg = false
  line : ∀ g w, (s.cacheAddr g w).valid = true →
    HoldsLine M g (s.cacheAddr g w).addr (s.cacheInst g w)
  base : s.missPending = true → s.refillBaseAddr = lineBase s.addrReg
  set : s.missPending = true → s.refillGroupIndex = groupIndex s.addrReg
  buf : s.missPending = true → ∀ k : BitVec 2, k.toNat < s.refillWordIdx.toNat →
    s.refillLineBuf k = M (wordIndex (wordOfLine s.refillBaseAddr k))

variable {M : BitVec 30 → BitVec 32} {s : CacheInst} {i : CacheInstIn}

/-! ### The hit -/

/-- A way that hits has the word of the address. -/
lemma Coherent.word_of_hitWay (h : s.Coherent M) {w : BitVec 2} (hw : s.hitWay i w = true) :
    s.cacheInst (groupIndex i.imemAddr) w (i.imemAddr.extractLsb' 2 2) =
      M (wordIndex i.imemAddr) := by
  simp only [hitWay, Bool.and_eq_true, beq_iff_eq] at hw
  obtain ⟨hv, ht⟩ := hw
  have hl := h.line _ _ hv
  have hb : (s.cacheAddr (groupIndex i.imemAddr) w).addr = lineBase i.imemAddr := by
    rw [← hl.base]
    exact lineBase_congr ht
  rw [hl.words, hb, wordIndex_wordOfLine]

/-- **A ready word is the word of the memory.** -/
theorem Coherent.imemRdata_of_imemReady (h : s.Coherent M) (hr : s.imemReady i = true) :
    s.imemRdata i = M (wordIndex i.imemAddr) := by
  have hf : s.hitFound i = true := by
    rw [imemReady, h.ready] at hr
    split_ifs at hr with hf
    exact hf
  rw [imemRdata, if_pos hf]
  simp only [hitFound, Bool.and_eq_true, Bool.or_eq_true] at hf
  obtain ⟨hreq, hw⟩ := hf
  simp only [hitData, hreq, Bool.not_true, Bool.false_eq_true, if_false]
  split_ifs with h3 h2 h1 h0
  · exact h.word_of_hitWay h3
  · exact h.word_of_hitWay h2
  · exact h.word_of_hitWay h1
  · exact h.word_of_hitWay h0
  · rcases hw with ((hw | hw) | hw) | hw <;> contradiction

/-! ### One cycle -/

/-- What the lower level owes the cache in a cycle. -/
def Answers (M : BitVec 30 → BitVec 32) (s : CacheInst) (i : CacheInstIn) : Prop :=
  s.memReq = true → i.memReady = true → i.memRdata = M (wordIndex s.memAddr)

lemma coherent_reset (c : CacheInst) : c.reset.Coherent M where
  memReq := rfl
  ready := rfl
  line _ _ h := by simp [reset] at h
  base h := by simp [reset] at h
  set h := by simp [reset] at h
  buf h := by simp [reset] at h

/-- **What an edge does to the cache**: it waits, takes a word, fills a line or finds a miss. -/
theorem step_cases (s : CacheInst) (i : CacheInstIn) :
    (s.missPending = true ∧ i.memReady = false ∧ s.step i = { s with
        memReqReg := true, imemReadyReg := false, lfsr := Lfsr.step s.lfsr i.imemReq }) ∨
    (s.missPending = true ∧ i.memReady = true ∧ s.refillWordIdx ≠ 3#2 ∧ s.step i = { s with
        memReqReg := true, imemReadyReg := false, lfsr := Lfsr.step s.lfsr i.imemReq
        refillWordIdx := s.refillWordIdx + 1#2, refillLineBuf := s.refillLineNext i }) ∨
    (s.fillsLine i = true ∧ s.step i = { s with
        memReqReg := false, imemReadyReg := false, lfsr := Lfsr.step s.lfsr i.imemReq
        missPending := false, refillWordIdx := 0#2, refillLineBuf := fun _ => 0#32
        cacheAddr := Function.update s.cacheAddr s.refillGroupIndex
          (Function.update (s.cacheAddr s.refillGroupIndex) s.refillWay ⟨true, lineBase s.addrReg⟩)
        cacheInst := Function.update s.cacheInst s.refillGroupIndex
          (Function.update (s.cacheInst s.refillGroupIndex) s.refillWay (s.refillLineNext i)) }) ∨
    (s.findsMiss i = true ∧ s.step i = { s.stepMiss i with
        imemReadyReg := false, lfsr := Lfsr.step s.lfsr i.imemReq }) ∨
    (s.missPending = false ∧ s.findsMiss i = false ∧ ∃ a, s.step i = { s with
        memReqReg := false, addrReg := a, imemReadyReg := false
        lfsr := Lfsr.step s.lfsr i.imemReq }) := by
  cases hp : s.missPending
  · right; right; right
    cases hr : i.imemReq
    · right
      exact ⟨rfl, by simp [findsMiss, hr], s.addrReg, by simp [step, hp, hr]⟩
    · cases hf : s.hitFound i
      · left
        exact ⟨by simp [findsMiss, hp, hr, hf], by simp [step, hp, hr, hf]⟩
      · right
        exact ⟨rfl, by simp [findsMiss, hf], i.imemAddr, by simp [step, hp, hr, hf]⟩
  · cases hr : i.memReady
    · left
      exact ⟨rfl, rfl, by simp [step, hp, hr]⟩
    · right
      by_cases h3 : s.refillWordIdx = 3#2
      · right; left
        exact ⟨by simp [fillsLine, hp, hr, h3], by simp [step, stepBeat, hp, hr, h3]⟩
      · left
        exact ⟨rfl, rfl, h3, by simp [step, stepBeat, hp, hr, h3]⟩

/-- The line with the word of a beat has one more word of its address. -/
lemma Coherent.refillLineNext_eq (h : s.Coherent M) (ha : Answers M s i)
    (hp : s.missPending = true) (hr : i.memReady = true) {k : BitVec 2}
    (hk : k.toNat ≤ s.refillWordIdx.toNat) :
    s.refillLineNext i k = M (wordIndex (wordOfLine s.refillBaseAddr k)) := by
  have hreq : s.memReq = true := h.memReq.trans hp
  rw [refillLineNext, Function.update_apply]
  split_ifs with he
  · rw [ha hreq hr, memAddr, if_pos hp, he, wordOfLine]
  · have hne : k.toNat ≠ s.refillWordIdx.toNat := fun e => he (BitVec.eq_of_toNat_eq e)
    exact h.buf hp k (by omega)

/-- **One cycle keeps the cache coherent.** -/
theorem Coherent.step (h : s.Coherent M) (ha : Answers M s i) : (s.step i).Coherent M := by
  rcases step_cases s i with ⟨hp, -, e⟩ | ⟨hp, hr, h3, e⟩ | ⟨hf, e⟩ | ⟨hf, e⟩ | ⟨hp, -, a, e⟩
  · rw [e]
    exact ⟨hp.symm, rfl, h.line, h.base, h.set, h.buf⟩
  · rw [e]
    refine ⟨hp.symm, rfl, h.line, h.base, h.set, ?_⟩
    intro _ k hk
    have hidx : ∀ j : BitVec 2, j ≠ 3#2 → (j + 1#2).toNat = j.toNat + 1 := by decide
    have hk' : k.toNat < (s.refillWordIdx + 1#2).toNat := hk
    rw [hidx _ h3] at hk'
    exact h.refillLineNext_eq ha hp hr (by omega)
  · rw [e]
    simp only [fillsLine, Bool.and_eq_true, beq_iff_eq] at hf
    obtain ⟨⟨hp, hr⟩, h3⟩ := hf
    refine ⟨rfl, rfl, ?_, nofun, nofun, nofun⟩
    intro g w hv
    by_cases hg : g = s.refillGroupIndex
    · subst hg
      by_cases hw : w = s.refillWay
      · subst hw
        simp only [Function.update_self]
        refine ⟨lineBase_lineBase _, ?_, ?_⟩
        · rw [groupIndex_lineBase, h.set hp]
        · intro k
          rw [← h.base hp]
          have hlt := k.isLt
          exact h.refillLineNext_eq ha hp hr (by rw [h3]; simp; omega)
      · simp only [Function.update_self, Function.update_of_ne hw] at hv ⊢
        exact h.line _ _ hv
    · simp only [Function.update_of_ne hg] at hv ⊢
      exact h.line _ _ hv
  · rw [e]
    refine ⟨rfl, rfl, h.line, fun _ => rfl, fun _ => rfl, ?_⟩
    intro _ k hk
    simp [stepMiss] at hk
  · rw [e]
    refine ⟨hp.symm, rfl, h.line, fun hm => ?_, fun hm => ?_, fun hm => ?_⟩ <;>
      exact absurd (hp.symm.trans hm) (by simp)

/-! ### The beats of a refill -/

/-- What a cycle adds to the beats, the misses and the lines filled. -/
structure Logged (s s' : CacheInst) (beats misses fills : List (BitVec 32)) : Prop where
  beats : s.beatsTaken ++ beats = fills.flatMap lineBeats ++ s'.beatsTaken
  misses : (if s.missPending then [s.refillBaseAddr] else []) ++ misses =
    fills ++ if s'.missPending then [s'.refillBaseAddr] else []

/-- The beats of a line are the addresses of its words. -/
lemma lineBeats_take_succ (b : BitVec 32) {k : BitVec 2} (h3 : k ≠ 3#2) :
    (lineBeats b).take k.toNat ++ [wordOfLine b k] = (lineBeats b).take (k + 1#2).toNat := by
  have hk : k = 0#2 ∨ k = 1#2 ∨ k = 2#2 := by
    revert k
    decide
  rcases hk with rfl | rfl | rfl <;> simp [lineBeats, wordOfLine]

lemma lineBeats_take_three (b : BitVec 32) :
    (lineBeats b).take 3 ++ [wordOfLine b 3#2] = lineBeats b := by
  simp [lineBeats, wordOfLine]

/-- **One cycle of the logs.** -/
theorem Coherent.logged (h : s.Coherent M) :
    Logged s (s.step i) (s.beatObs i) (s.missObs i) (s.fillObs i) := by
  have hreq : s.memReq = s.missPending := h.memReq
  rcases step_cases s i with ⟨hp, hr, e⟩ | ⟨hp, hr, h3, e⟩ | ⟨hf, e⟩ | ⟨hf, e⟩ | ⟨hp, hf, a, e⟩
  · constructor <;>
      simp [e, beatObs, missObs, fillObs, acceptsBeat, findsMiss, fillsLine, beatsTaken, hr, hp]
  · have hb := lineBeats_take_succ s.refillBaseAddr h3
    constructor
    · simpa [e, beatObs, fillObs, acceptsBeat, fillsLine, beatsTaken, hr, hp, h3, hreq, memAddr,
        wordOfLine] using hb
    · simp [e, missObs, fillObs, findsMiss, fillsLine, hp, h3]
  · have hb := lineBeats_take_three s.refillBaseAddr
    have hf' := hf
    simp only [fillsLine, Bool.and_eq_true, beq_iff_eq] at hf'
    obtain ⟨⟨hp, hr⟩, h3⟩ := hf'
    constructor
    · simpa [e, beatObs, fillObs, acceptsBeat, hf, beatsTaken, hr, hp, h3, hreq, memAddr,
        wordOfLine] using hb
    · simp [e, missObs, fillObs, findsMiss, hf, hp]
  · have hf' := hf
    simp only [findsMiss, Bool.and_eq_true, Bool.not_eq_true'] at hf'
    obtain ⟨⟨hp, -⟩, -⟩ := hf'
    constructor
    · simp [e, beatObs, fillObs, acceptsBeat, fillsLine, beatsTaken, hp, hreq, stepMiss]
    · simp [e, missObs, fillObs, fillsLine, hf, hp, stepMiss]
  · constructor <;>
      simp [e, beatObs, missObs, fillObs, acceptsBeat, fillsLine, beatsTaken, hp, hf, hreq]

/-- An entry of the cache changes only when its line is filled. -/
theorem Coherent.entry_step (h : s.Coherent M) (g : BitVec 4) (w : BitVec 2) :
    ((s.step i).cacheAddr g w = s.cacheAddr g w ∧ (s.step i).cacheInst g w = s.cacheInst g w) ∨
      ((s.step i).cacheAddr g w).valid = true ∧
        s.fillObs i = [((s.step i).cacheAddr g w).addr] := by
  rcases step_cases s i with ⟨-, -, e⟩ | ⟨-, -, -, e⟩ | ⟨hf, e⟩ | ⟨-, e⟩ | ⟨-, -, a, e⟩
  · exact .inl (by rw [e]; exact ⟨rfl, rfl⟩)
  · exact .inl (by rw [e]; exact ⟨rfl, rfl⟩)
  · have hp : s.missPending = true := by
      simp only [fillsLine, Bool.and_eq_true] at hf
      exact hf.1.1
    rw [e]
    by_cases hg : g = s.refillGroupIndex
    · subst hg
      by_cases hw : w = s.refillWay
      · subst hw
        right
        simp [fillObs, hf, h.base hp]
      · exact .inl (by simp [Function.update_of_ne hw])
    · exact .inl (by simp [Function.update_of_ne hg])
  · exact .inl (by rw [e]; exact ⟨rfl, rfl⟩)
  · exact .inl (by rw [e]; exact ⟨rfl, rfl⟩)

/-! ### The runs -/

section Runs

variable (M) (c : CacheInst) (ins : ℕ → CacheInstIn)

/-- **The cache is transparent in cycle `n`**: a ready word is the word of the memory at the fetch
address; every valid line is in its set with the words of its address; the beats so far are, line
by line and in order, the four of every line that has become valid and then those of the line being
refilled; a refill is of the line missed and nothing else; and an entry changes only when its line
is filled. -/
structure Transparent (n : ℕ) : Prop where
  rdata : ((machine c).run ins n).imemReady (ins n) = true →
    ((machine c).run ins n).imemRdata (ins n) = M (wordIndex (ins n).imemAddr)
  line : ∀ g w, (((machine c).run ins n).cacheAddr g w).valid = true →
    HoldsLine M g (((machine c).run ins n).cacheAddr g w).addr
      (((machine c).run ins n).cacheInst g w)
  beats : (machine c).history beatObs ins n =
    ((machine c).history fillObs ins n).flatMap lineBeats ++ ((machine c).run ins n).beatsTaken
  misses : (machine c).history missObs ins n = (machine c).history fillObs ins n ++
    if ((machine c).run ins n).missPending then [((machine c).run ins n).refillBaseAddr] else []
  entry : ∀ g w,
    (((machine c).run ins (n + 1)).cacheAddr g w = ((machine c).run ins n).cacheAddr g w ∧
      ((machine c).run ins (n + 1)).cacheInst g w = ((machine c).run ins n).cacheInst g w) ∨
    (((machine c).run ins (n + 1)).cacheAddr g w).valid = true ∧
      (machine c).history fillObs ins (n + 1) = (machine c).history fillObs ins n ++
        [(((machine c).run ins (n + 1)).cacheAddr g w).addr]

variable {M c ins}

/-- The cache is coherent throughout. -/
lemma coherent_run (hM : ∀ n, Answers M ((machine c).run ins n) (ins n)) (n : ℕ) :
    ((machine c).run ins n).Coherent M := by
  induction n with
  | zero => exact coherent_reset c
  | succ n ih => exact ih.step (hM n)

/-- The beats of the run, line by line. -/
lemma history_beatObs (hM : ∀ n, Answers M ((machine c).run ins n) (ins n)) (n : ℕ) :
    (machine c).history beatObs ins n = ((machine c).history fillObs ins n).flatMap lineBeats ++
      ((machine c).run ins n).beatsTaken := by
  induction n with
  | zero => rfl
  | succ n ih =>
    have hl := ((coherent_run hM n).logged (i := ins n)).beats
    rw [Machine.history_succ, Machine.history_succ, ih, List.append_assoc, hl,
      List.flatMap_append, List.append_assoc]
    rfl

/-- Each refill answers the miss it comes from. -/
lemma history_missObs (hM : ∀ n, Answers M ((machine c).run ins n) (ins n)) (n : ℕ) :
    (machine c).history missObs ins n = (machine c).history fillObs ins n ++
      if ((machine c).run ins n).missPending then [((machine c).run ins n).refillBaseAddr]
      else [] := by
  induction n with
  | zero => rfl
  | succ n ih =>
    have hl := ((coherent_run hM n).logged (i := ins n)).misses
    rw [Machine.history_succ, Machine.history_succ, ih, List.append_assoc, hl, List.append_assoc]
    rfl

/-- **The instruction cache is transparent**, whatever is fetched and however the lower level
takes its time. -/
theorem instruction_cache_transparent
    (hM : ∀ n, Answers M ((machine c).run ins n) (ins n)) (n : ℕ) : Transparent M c ins n where
  rdata := (coherent_run hM n).imemRdata_of_imemReady
  line := (coherent_run hM n).line
  beats := history_beatObs hM n
  misses := history_missObs hM n
  entry g w := by
    rw [Machine.history_succ, Machine.run_succ, List.append_cancel_left_eq]
    exact (coherent_run hM n).entry_step g w

/-- The core fetches from `0x100`, from a memory whose words are their own addresses. -/
def lineFetch : ℕ → CacheInstIn :=
  fun n => ⟨0x100#32, true, 0x100#32 + BitVec.ofNat 32 (4 * (n - 1)), decide (1 ≤ n ∧ n ≤ 4)⟩

/-- After four beats the line is valid and the fetch hits. -/
theorem instruction_cache_transparent_lineFetch :
    Transparent (fun k => k ++ 0#2) zero lineFetch 5 ∧
      ((machine zero).run lineFetch 5).imemReady (lineFetch 5) = true := by
  refine ⟨instruction_cache_transparent ?_ 5, by decide +kernel⟩
  intro n hq hr
  have hn : 1 ≤ n ∧ n ≤ 4 := by simpa [lineFetch] using hr
  obtain ⟨h1, h4⟩ := hn
  clear hq hr
  interval_cases n <;> decide +kernel

end Runs

end CacheInst

end RiscvSoc.Rtl
