import RiscvSoc.Bus.InstCache
import RiscvSoc.Bus.Refill

/-!
# What the lines of `soc_top` hold

The bridge takes a request again in the cycle in which it hands over a word, so from the first miss
on it is one read ahead of the cache.  Each line gets the words before its own: its first word is
read for it twice, or was read for the line before it.
-/

namespace RiscvSoc.Rtl

open Sync

/-! ### The misses and their lines -/

/-- A miss: its line, and whether the bridge was still at work when it was found. -/
structure Miss where
  base : BitVec 32
  late : Bool
  deriving DecidableEq

/-- Where the word `k` of the line comes from, after a miss of the line at `prev`. -/
def Miss.source (prev : BitVec 32) (m : Miss) (k : BitVec 2) : BitVec 32 :=
  if k = 0#2 then if m.late then wordOfLine prev 3#2 else m.base else wordOfLine m.base (k - 1#2)

/-- The lines that the misses of a list bring, the first one after a miss of the line at `prev`. -/
def lateLines (M : BitVec 32 → BitVec 32) : BitVec 32 → List Miss → List (BitVec 32 × CacheLine)
  | _, [] => []
  | prev, m :: ms => (m.base, fun k => M (m.source prev k)) :: lateLines M m.base ms

/-- The line of the last miss of a list. -/
def lastBase : BitVec 32 → List Miss → BitVec 32
  | prev, [] => prev
  | _, m :: ms => lastBase m.base ms

section Lists

variable {M : BitVec 32 → BitVec 32} {prev : BitVec 32} {m : Miss} {ms : List Miss}

lemma lateLines_append : lateLines M prev (ms ++ [m]) =
    lateLines M prev ms ++ [(m.base, fun k => M (m.source (lastBase prev ms) k))] := by
  induction ms generalizing prev with
  | nil => rfl
  | cons m' ms ih => rw [List.cons_append, lateLines, ih, lateLines, lastBase, List.cons_append]

lemma lastBase_append : lastBase prev (ms ++ [m]) = m.base := by
  induction ms generalizing prev with
  | nil => rfl
  | cons m' ms ih => exact ih

/-- A line of the list is that of a miss; its first word is of a line of the list, but for the
first miss. -/
lemma mem_lateLines {l : BitVec 32 × CacheLine} (h : l ∈ lateLines M prev ms) :
    ∃ m ∈ ms, ∃ p, l = (m.base, fun k => M (m.source p k)) ∧
      ((p = prev ∧ ms.head? = some m) ∨ ∃ m' ∈ ms, p = m'.base) := by
  induction ms generalizing prev with
  | nil => exact absurd h List.not_mem_nil
  | cons m ms ih =>
    rw [lateLines] at h
    rcases List.mem_cons.mp h with rfl | h
    · exact ⟨m, List.mem_cons_self, prev, rfl, .inl ⟨rfl, rfl⟩⟩
    · obtain ⟨m', hm', p, rfl, hp⟩ := ih h
      refine ⟨m', List.mem_cons_of_mem m hm', p, rfl, .inr ?_⟩
      rcases hp with ⟨rfl, -⟩ | ⟨m'', hm'', rfl⟩
      · exact ⟨m, List.mem_cons_self, rfl⟩
      · exact ⟨m'', List.mem_cons_of_mem m hm'', rfl⟩

end Lists

/-- The word after the one that has come for word `k`. -/
lemma source_succ {prev : BitVec 32} {m : Miss} {k : BitVec 2} (h3 : k ≠ 3#2) :
    m.source prev (k + 1#2) = wordOfLine m.base k := by
  have hk : ∀ k : BitVec 2, k ≠ 3#2 → k + 1#2 ≠ 0#2 ∧ k + 1#2 - 1#2 = k := by decide
  rw [Miss.source, if_neg (hk k h3).1, (hk k h3).2]

lemma wordOfLine_zero (a : BitVec 32) : wordOfLine a 0#2 = a := by
  rw [wordOfLine, show (0#28 ++ 0#2 ++ 0#2 : BitVec 32) = 0#32 by rfl, BitVec.add_zero]

/-! ### The bridge and the slave -/

/-- The address of the word that the bridge is reading or hands over. -/
def AxiImem.awaited (b : AxiImem) : Option (BitVec 32) :=
  if b.state = .idle ∧ b.memReady = false then none else some b.araddr

namespace FetchPath

variable {M : BitVec 32 → BitVec 32} {s : FetchPath} {x : FetchIn}

/-- **The slave owes the bridge the word that it waits for**, and nothing else. -/
inductive Synced (M : BitVec 32 → BitVec 32) (s : FetchPath) : Prop
  | idle (state : s.bridge.state = .idle) (arvalid : s.bridge.arvalid = false)
      (rready : s.bridge.rready = false) (pending : s.pending = [])
      (rdata : s.bridge.memReady = true → s.bridge.memRdata = M s.bridge.araddr)
  | ar (state : s.bridge.state = .ar) (arvalid : s.bridge.arvalid = true)
      (rready : s.bridge.rready = false) (ready : s.bridge.memReady = false)
      (pending : s.pending = [])
  | r (state : s.bridge.state = .r) (arvalid : s.bridge.arvalid = false)
      (rready : s.bridge.rready = true) (ready : s.bridge.memReady = false)
      (pending : s.pending = [s.bridge.araddr])

/-- A word that is handed over is the one that was read. -/
lemma Synced.of_ready (h : s.Synced M) (hr : s.bridge.memReady = true) :
    s.bridge.state = .idle ∧ s.bridge.memRdata = M s.bridge.araddr := by
  cases h with
  | idle state _ _ _ rdata => exact ⟨state, rdata hr⟩
  | ar _ _ _ ready | r _ _ _ ready => simp [ready] at hr

/-- **One cycle of the bridge.** -/
theorem Synced.step (h : s.Synced M) : (s.step M x).Synced M := by
  have hb : (s.step M x).bridge = s.bridge.step (s.bridgeIn M x) := rfl
  have hp : (s.step M x).pending = s.pendingStep M x := rfl
  cases h with
  | idle state arvalid rready pending =>
    have hpend : (s.step M x).pending = [] := by simp [hp, pendingStep, rready, arvalid, pending]
    cases hq : s.cache.memReqReg
    · have hc := hb.trans (AxiImem.step_of_no_req state hq)
      refine .idle ?_ ?_ ?_ hpend ?_ <;> rw [hc]
      · exact state
      · intro hr
        cases hr
    · have hc := hb.trans (AxiImem.step_of_req state hq)
      refine .ar ?_ ?_ ?_ ?_ hpend <;> rw [hc]
  | ar state arvalid rready ready pending =>
    cases hg : x.arready
    · have hc := hb.trans (AxiImem.step_of_no_arready state hg)
      have hpend : (s.step M x).pending = [] := by simp [hp, pendingStep, rready, pending, hg]
      refine .ar ?_ ?_ ?_ ?_ hpend <;> rw [hc]
      · exact state
      · exact arvalid
      · exact rready
    · have hc := hb.trans (AxiImem.step_of_arready state arvalid hg)
      have hpend : (s.step M x).pending = [s.bridge.araddr] := by
        simp [hp, pendingStep, rready, arvalid, pending, hg]
      refine .r ?_ ?_ ?_ ?_ ?_ <;> rw [hc]
      exact hpend
  | r state arvalid rready ready pending =>
    cases hg : x.answer
    · have hv : (s.bridgeIn M x).rvalid = false := by simp [bridgeIn, hg]
      have hc := hb.trans (AxiImem.step_of_no_rvalid state hv)
      have hpend : (s.step M x).pending = [s.bridge.araddr] := by
        simp [hp, pendingStep, arvalid, pending, hv]
      refine .r ?_ ?_ ?_ ?_ ?_ <;> rw [hc]
      · exact state
      · exact arvalid
      · exact hpend
    · have hv : (s.bridgeIn M x).rvalid = true := by simp [bridgeIn, hg, pending]
      have hc := hb.trans (AxiImem.step_of_rvalid state rready hv)
      have hpend : (s.step M x).pending = [] := by
        simp [hp, pendingStep, rready, arvalid, pending, hv]
      refine .idle ?_ ?_ ?_ hpend ?_ <;> rw [hc]
      · exact arvalid
      · intro _
        simp [bridgeIn, pending]

/-- **What the bridge waits for next**: at rest it takes a request, whatever it hands over. -/
theorem Synced.awaited_step (h : s.Synced M) : (s.step M x).bridge.awaited =
    if s.bridge.state = .idle then
      if s.cache.memReqReg then some (wordAlign s.cache.memAddr) else none
    else s.bridge.awaited := by
  have hb : (s.step M x).bridge = s.bridge.step (s.bridgeIn M x) := rfl
  unfold AxiImem.awaited
  cases h with
  | idle state =>
    rw [if_pos state]
    cases hq : s.cache.memReqReg
    · rw [hb, AxiImem.step_of_no_req state hq]
      simp [state]
    · rw [hb, AxiImem.step_of_req state hq]
      simp [bridgeIn, CacheInst.memReq]
  | ar state arvalid =>
    cases hg : x.arready
    · rw [hb, AxiImem.step_of_no_arready state hg]
      simp [state]
    · rw [hb, AxiImem.step_of_arready state arvalid hg]
      simp [state]
  | r state _ rready =>
    cases hv : (s.bridgeIn M x).rvalid
    · rw [hb, AxiImem.step_of_no_rvalid state hv]
      simp [state]
    · rw [hb, AxiImem.step_of_rvalid state rready hv]
      simp [state]

/-! ### The cache -/

/-- The miss that is found in a cycle. -/
def missObs (s : FetchPath) (x : FetchIn) : List Miss :=
  if s.findsMiss x then [⟨lineBase x.imemAddr, s.bridge.state ≠ .idle⟩] else []

/-- The line that is put in the cache at an edge. -/
def fillObs (s : FetchPath) (x : FetchIn) : List (BitVec 32 × CacheLine) :=
  if s.cache.fillsLine (s.cacheIn x) then
    [(lineBase s.cache.addrReg, s.cache.refillLineNext (s.cacheIn x))]
  else []

/-- **The refill for the miss `m`**, after a miss of the line at `prev`: the words taken so far are
those of its sources, and the bridge has the next one, unless it has yet to begin. -/
structure RefillsFor (M : BitVec 32 → BitVec 32) (prev : BitVec 32) (m : Miss)
    (s : FetchPath) : Prop where
  base : s.cache.refillBaseAddr = m.base
  addr : lineBase s.cache.addrReg = m.base
  awaited : s.bridge.awaited = some (m.source prev s.cache.refillWordIdx) ∨
    (s.cache.refillWordIdx = 0#2 ∧ m.late = false ∧ s.bridge.awaited = none)
  buf : ∀ k : BitVec 2, k.toNat < s.cache.refillWordIdx.toNat →
    s.cache.refillLineBuf k = M (m.source prev k)

/-- **The cache a word behind the bridge**, after the misses `ms` and the lines `fs`. -/
structure Behind (M : BitVec 32 → BitVec 32) (ms : List Miss) (fs : List (BitVec 32 × CacheLine))
    (s : FetchPath) : Prop where
  synced : s.Synced M
  memReq : s.cache.memReqReg = s.cache.missPending
  quiet : s.cache.imemReadyReg = false
  based : ∀ m ∈ ms, lineBase m.base = m.base
  first : ∀ m ∈ ms.head?, m.late = false
  line : ∀ g w, (s.cache.cacheAddr g w).valid = true →
    ((s.cache.cacheAddr g w).addr, s.cache.cacheInst g w) ∈ fs
  rest : s.cache.missPending = false → fs = lateLines M 0#32 ms ∧
    ∀ a ∈ s.bridge.awaited, ms ≠ [] ∧ a = wordOfLine (lastBase 0#32 ms) 3#2
  refill : s.cache.missPending = true → ∃ ms' m, ms = ms' ++ [m] ∧ fs = lateLines M 0#32 ms' ∧
    RefillsFor M (lastBase 0#32 ms') m s

lemma behind_reset (c : CacheInst) : Behind M [] [] (machine M c).init where
  synced := .idle rfl rfl rfl rfl (by intro h; cases h)
  memReq := rfl
  quiet := rfl
  based _ h := absurd h List.not_mem_nil
  first _ h := by cases h
  line _ _ h := by cases h
  rest _ := ⟨rfl, by intro a h; cases h⟩
  refill h := by cases h

/-- A word that comes is the one that the line gets. -/
lemma RefillsFor.word {prev : BitVec 32} {m : Miss} (h : RefillsFor M prev m s) (hs : s.Synced M)
    (hr : s.bridge.memReady = true) :
    s.bridge.memRdata = M (m.source prev s.cache.refillWordIdx) := by
  obtain ⟨-, hw⟩ := hs.of_ready hr
  have hsome : s.bridge.awaited = some s.bridge.araddr := by simp [AxiImem.awaited, hr]
  rcases h.awaited with hx | ⟨-, -, hx⟩
  · rw [hw, Option.some.inj (hsome.symm.trans hx)]
  · rw [hsome] at hx
    cases hx

/-- The line with the word that comes. -/
lemma RefillsFor.refillLineNext_eq {prev : BitVec 32} {m : Miss} (h : RefillsFor M prev m s)
    (hs : s.Synced M) (hr : s.bridge.memReady = true) {k : BitVec 2}
    (hk : k.toNat ≤ s.cache.refillWordIdx.toNat) :
    s.cache.refillLineNext (s.cacheIn x) k = M (m.source prev k) := by
  rw [CacheInst.refillLineNext, Function.update_apply]
  split_ifs with he
  · rw [he]
    exact h.word hs hr
  · refine h.buf k ?_
    have hne : k.toNat ≠ s.cache.refillWordIdx.toNat := fun e => he (BitVec.eq_of_toNat_eq e)
    omega

/-- The address that the cache shows during a refill. -/
lemma RefillsFor.wordAlign_memAddr {prev : BitVec 32} {m : Miss} (h : RefillsFor M prev m s)
    (hp : s.cache.missPending = true) :
    wordAlign s.cache.memAddr = wordOfLine m.base s.cache.refillWordIdx := by
  have hm : s.cache.memAddr = wordOfLine (lineBase s.cache.addrReg) s.cache.refillWordIdx := by
    rw [CacheInst.memAddr, if_pos hp, h.base, h.addr, wordOfLine]
  rw [hm, RefillRun.wordAlign_word, h.addr]

/-- The cache in a cycle without a word. -/
lemma cache_wait (hp : s.cache.missPending = true) (hr : s.bridge.memReady = false) :
    (s.step M x).cache = { s.cache with
      memReqReg := true, imemReadyReg := false, lfsr := Lfsr.step s.cache.lfsr x.imemReq } := by
  simp [step, CacheInst.step, cacheIn, hp, hr]

/-- The cache with a word that is not the last of its line. -/
lemma cache_word (hp : s.cache.missPending = true) (hr : s.bridge.memReady = true)
    (h3 : s.cache.refillWordIdx ≠ 3#2) : (s.step M x).cache = { s.cache with
      memReqReg := true, imemReadyReg := false, lfsr := Lfsr.step s.cache.lfsr x.imemReq
      refillWordIdx := s.cache.refillWordIdx + 1#2
      refillLineBuf := s.cache.refillLineNext (s.cacheIn x) } := by
  simp [step, CacheInst.step, CacheInst.stepBeat, cacheIn, hp, hr, h3]

/-- A cycle without a word. -/
lemma RefillsFor.step_wait {prev : BitVec 32} {m : Miss} (h : RefillsFor M prev m s)
    (hs : s.Synced M) (hp : s.cache.missPending = true) (hq : s.cache.memReqReg = true)
    (hr : s.bridge.memReady = false) : RefillsFor M prev m (s.step M x) := by
  have hcache := cache_wait (M := M) (x := x) hp hr
  refine ⟨by rw [hcache]; exact h.base, by rw [hcache]; exact h.addr, .inl ?_, ?_⟩
  · rw [hs.awaited_step, hcache, if_pos hq]
    split_ifs with hi
    · -- The bridge is free and hands over nothing: the word is the first one.
      have hnone : s.bridge.awaited = none := by simp [AxiImem.awaited, hi, hr]
      rcases h.awaited with hx | ⟨h0, hl, -⟩
      · rw [hnone] at hx
        cases hx
      · rw [h.wordAlign_memAddr hp]
        simp [h0, Miss.source, hl, wordOfLine_zero]
    · rcases h.awaited with hx | ⟨-, -, hx⟩
      · exact hx
      · simp [AxiImem.awaited, hi] at hx
  · rw [hcache]
    exact h.buf

/-- A word that is not the last of its line. -/
lemma RefillsFor.step_word {prev : BitVec 32} {m : Miss} (h : RefillsFor M prev m s)
    (hs : s.Synced M) (hp : s.cache.missPending = true) (hq : s.cache.memReqReg = true)
    (hr : s.bridge.memReady = true) (h3 : s.cache.refillWordIdx ≠ 3#2) :
    RefillsFor M prev m (s.step M x) := by
  have hcache := cache_word (M := M) (x := x) hp hr h3
  refine ⟨by rw [hcache]; exact h.base, by rw [hcache]; exact h.addr, .inl ?_, ?_⟩
  · rw [hs.awaited_step, hcache, if_pos (hs.of_ready hr).1, if_pos hq, h.wordAlign_memAddr hp]
    exact congrArg some (source_succ h3).symm
  · rw [hcache]
    intro k hk
    have hidx : ∀ j : BitVec 2, j ≠ 3#2 → (j + 1#2).toNat = j.toNat + 1 := by decide
    have hk' : k.toNat < (s.cache.refillWordIdx + 1#2).toNat := hk
    rw [hidx _ h3] at hk'
    exact h.refillLineNext_eq hs hr (by omega)

variable {ms : List Miss} {fs : List (BitVec 32 × CacheLine)}

/-- A refill that does not end. -/
lemma Behind.step_refill (h : Behind M ms fs s) (hp : s.cache.missPending = true)
    (hf : s.cache.fillsLine (s.cacheIn x) = false) : Behind M ms fs (s.step M x) := by
  obtain ⟨ms', m, hms, hfs, hm⟩ := h.refill hp
  have hq : s.cache.memReqReg = true := h.memReq.trans hp
  cases hr : s.bridge.memReady
  · have hcache := cache_wait (M := M) (x := x) hp hr
    refine ⟨h.synced.step, by rw [hcache]; exact hp.symm, by rw [hcache], h.based, h.first,
      by rw [hcache]; exact h.line, ?_, ?_⟩
    · rw [hcache]
      intro hx
      cases hp.symm.trans hx
    · exact fun _ => ⟨ms', m, hms, hfs, hm.step_wait h.synced hp hq hr⟩
  · have h3 : s.cache.refillWordIdx ≠ 3#2 := by
      intro h3
      simp [CacheInst.fillsLine, cacheIn, hp, hr, h3] at hf
    have hcache := cache_word (M := M) (x := x) hp hr h3
    refine ⟨h.synced.step, by rw [hcache]; exact hp.symm, by rw [hcache], h.based, h.first,
      by rw [hcache]; exact h.line, ?_, ?_⟩
    · rw [hcache]
      intro hx
      cases hp.symm.trans hx
    · exact fun _ => ⟨ms', m, hms, hfs, hm.step_word h.synced hp hq hr h3⟩

/-- The last word puts the line in the cache. -/
lemma Behind.step_fill (h : Behind M ms fs s) (hf : s.cache.fillsLine (s.cacheIn x) = true) :
    Behind M ms (fs ++ s.fillObs x) (s.step M x) := by
  have hf' := hf
  simp only [CacheInst.fillsLine, Bool.and_eq_true, beq_iff_eq] at hf'
  obtain ⟨⟨hp, hr⟩, h3⟩ := hf'
  have hr' : s.bridge.memReady = true := hr
  obtain ⟨ms', m, rfl, rfl, hm⟩ := h.refill hp
  have hline : s.cache.refillLineNext (s.cacheIn x) =
      fun k => M (m.source (lastBase 0#32 ms') k) := by
    funext k
    have hlt := k.isLt
    exact hm.refillLineNext_eq h.synced hr' (by rw [h3]; simp; omega)
  have hcache : (s.step M x).cache = { s.cache with
      memReqReg := false, imemReadyReg := false, lfsr := Lfsr.step s.cache.lfsr x.imemReq
      missPending := false, refillWordIdx := 0#2, refillLineBuf := fun _ => 0#32
      cacheAddr := Function.update s.cache.cacheAddr s.cache.refillGroupIndex
        (Function.update (s.cache.cacheAddr s.cache.refillGroupIndex) s.cache.refillWay
          ⟨true, m.base⟩)
      cacheInst := Function.update s.cache.cacheInst s.cache.refillGroupIndex
        (Function.update (s.cache.cacheInst s.cache.refillGroupIndex) s.cache.refillWay
          fun k => M (m.source (lastBase 0#32 ms') k)) } := by
    rw [← hline, ← hm.addr]
    simp [step, CacheInst.step, CacheInst.stepBeat, hp, hr, h3]
    rfl
  rw [fillObs, if_pos hf, hline, hm.addr]
  refine ⟨h.synced.step, by rw [hcache], by rw [hcache], h.based, h.first, ?_, ?_, ?_⟩
  · rw [hcache]
    intro g w hv
    by_cases hg : g = s.cache.refillGroupIndex
    · subst hg
      by_cases hw : w = s.cache.refillWay
      · subst hw
        simp
      · simp only [Function.update_self, Function.update_of_ne hw] at hv ⊢
        exact List.mem_append_left _ (h.line _ _ hv)
    · simp only [Function.update_of_ne hg] at hv ⊢
      exact List.mem_append_left _ (h.line _ _ hv)
  · intro _
    refine ⟨lateLines_append.symm, ?_⟩
    rw [h.synced.awaited_step, if_pos (h.synced.of_ready hr').1, h.memReq, if_pos hp,
      hm.wordAlign_memAddr hp, h3, lastBase_append]
    intro a ha
    exact ⟨by simp, (Option.mem_some_iff.mp ha).symm⟩
  · rw [hcache]
    intro hx
    cases hx

/-- A miss begins a refill. -/
lemma Behind.step_miss (h : Behind M ms fs s) (hf : s.findsMiss x = true) :
    Behind M (ms ++ s.missObs x) fs (s.step M x) := by
  have hf' := hf
  simp only [findsMiss_eq, Bool.and_eq_true, Bool.not_eq_true'] at hf'
  obtain ⟨⟨hp, hreq⟩, hhit⟩ := hf'
  obtain ⟨rfl, hrest⟩ := h.rest hp
  have hcache : (s.step M x).cache = { s.cache.stepMiss (s.cacheIn x) with
      imemReadyReg := false, lfsr := Lfsr.step s.cache.lfsr x.imemReq } := by
    have hreq' : (s.cacheIn x).imemReq = true := hreq
    simp [step, CacheInst.step, hp, hreq, hreq', hhit]
  rw [missObs, if_pos hf]
  refine ⟨h.synced.step, by rw [hcache]; rfl, by rw [hcache], ?_, ?_, ?_, ?_, ?_⟩
  · intro m hm
    rcases List.mem_append.mp hm with hm | hm
    · exact h.based m hm
    · rw [List.mem_singleton.mp hm]
      exact lineBase_lineBase _
  · intro m hm
    cases hms : ms with
    | nil =>
      rw [hms] at hm
      obtain rfl := Option.mem_some_iff.mp hm
      by_contra hl
      have hs : s.bridge.state ≠ .idle := by simpa using hl
      have hsome : s.bridge.awaited = some s.bridge.araddr := by simp [AxiImem.awaited, hs]
      exact (hrest _ hsome).1 hms
    | cons m' ms' =>
      refine h.first m ?_
      rw [hms] at hm ⊢
      exact hm
  · rw [hcache]
    exact h.line
  · rw [hcache]
    intro hx
    cases hx
  · intro _
    refine ⟨_, _, rfl, rfl, by rw [hcache]; rfl, by rw [hcache]; rfl, ?_, ?_⟩
    · rw [h.synced.awaited_step, hcache]
      split_ifs with hs hq
      · rw [h.memReq, hp] at hq
        cases hq
      · exact .inr ⟨rfl, by simp [hs], rfl⟩
      · left
        have hsome : s.bridge.awaited = some s.bridge.araddr := by simp [AxiImem.awaited, hs]
        rw [hsome, (hrest _ hsome).2]
        simp [CacheInst.stepMiss, Miss.source, hs]
    · rw [hcache]
      intro k hk
      simp [CacheInst.stepMiss] at hk

/-- Nothing is missed. -/
lemma Behind.step_rest (h : Behind M ms fs s) (hp : s.cache.missPending = false)
    (hf : s.findsMiss x = false) : Behind M ms fs (s.step M x) := by
  have hcache : ∃ a, (s.step M x).cache = { s.cache with
      memReqReg := false, addrReg := a, imemReadyReg := false
      lfsr := Lfsr.step s.cache.lfsr x.imemReq } := by
    rcases CacheInst.step_cases s.cache (s.cacheIn x) with
      ⟨hx, -⟩ | ⟨hx, -⟩ | ⟨hx, -⟩ | ⟨hx, -⟩ | ⟨-, -, e⟩
    · cases hp.symm.trans hx
    · cases hp.symm.trans hx
    · simp [CacheInst.fillsLine, hp] at hx
    · cases hf.symm.trans hx
    · exact e
  obtain ⟨a, hcache⟩ := hcache
  refine ⟨h.synced.step, by rw [hcache]; exact hp.symm, by rw [hcache], h.based, h.first,
    by rw [hcache]; exact h.line, ?_, ?_⟩
  · intro _
    refine ⟨(h.rest hp).1, ?_⟩
    rw [h.synced.awaited_step, h.memReq, hp]
    split_ifs with hs hq
    · cases hq
    · intro a ha
      cases ha
    · exact (h.rest hp).2
  · rw [hcache]
    intro hx
    cases hp.symm.trans hx

/-- **One cycle keeps the cache a word behind.** -/
theorem Behind.step (h : Behind M ms fs s) :
    Behind M (ms ++ s.missObs x) (fs ++ s.fillObs x) (s.step M x) := by
  cases hp : s.cache.missPending
  · have hfill : s.fillObs x = [] := by simp [fillObs, CacheInst.fillsLine, hp]
    rw [hfill, List.append_nil]
    cases hf : s.findsMiss x
    · have hmiss : s.missObs x = [] := by simp [missObs, hf]
      rw [hmiss, List.append_nil]
      exact h.step_rest hp hf
    · exact h.step_miss hf
  · have hmiss : s.missObs x = [] := by simp [missObs, findsMiss_eq, hp]
    rw [hmiss, List.append_nil]
    cases hf : s.cache.fillsLine (s.cacheIn x)
    · have hfill : s.fillObs x = [] := by simp [fillObs, hf]
      rw [hfill, List.append_nil]
      exact h.step_refill hp hf
    · exact h.step_fill hf

/-! ### The fetch -/

/-- A ready word is in a way that holds the line of its address. -/
lemma exists_way_of_ready {c : CacheInst} {i : CacheInstIn} (hq : c.imemReadyReg = false)
    (hr : c.imemReady i = true) : ∃ w, c.hitWay i w = true ∧
      c.imemRdata i = c.cacheInst (groupIndex i.imemAddr) w (lineWord i.imemAddr) := by
  have hf : c.hitFound i = true := by
    rw [CacheInst.imemReady, hq] at hr
    split_ifs at hr with hf
    exact hf
  rw [CacheInst.imemRdata, if_pos hf]
  simp only [CacheInst.hitFound, Bool.and_eq_true, Bool.or_eq_true] at hf
  obtain ⟨hreq, hw⟩ := hf
  simp only [CacheInst.hitData, hreq, Bool.not_true, Bool.false_eq_true, if_false]
  split_ifs with h3 h2 h1 h0
  · exact ⟨3#2, h3, rfl⟩
  · exact ⟨2#2, h2, rfl⟩
  · exact ⟨1#2, h1, rfl⟩
  · exact ⟨0#2, h0, rfl⟩
  · rcases hw with ((hw | hw) | hw) | hw <;> contradiction

/-- **What a fetch gets**: the word of a source of its line. -/
lemma Behind.fetch (h : Behind M ms fs s) (hr : s.cache.imemReady (s.cacheIn x) = true) :
    ∃ m ∈ ms, m.base = lineBase x.imemAddr ∧ ∃ p,
      s.cache.imemRdata (s.cacheIn x) = M (m.source p (lineWord x.imemAddr)) ∧
      (m.late = false ∨ ∃ m' ∈ ms, p = m'.base) := by
  obtain ⟨w, hw, hdata⟩ := exists_way_of_ready h.quiet hr
  simp only [CacheInst.hitWay, Bool.and_eq_true, beq_iff_eq] at hw
  obtain ⟨hv, ht⟩ := hw
  have hmem := h.line _ _ hv
  -- The lines so far are those of the misses, but the one under way.
  have hlines : ∃ ms', fs = lateLines M 0#32 ms' ∧ (∀ m ∈ ms', m ∈ ms) ∧
      ∀ m ∈ ms'.head?, m.late = false := by
    cases hp : s.cache.missPending
    · exact ⟨ms, (h.rest hp).1, fun _ hm => hm, h.first⟩
    · obtain ⟨ms', m, rfl, hfs, -⟩ := h.refill hp
      refine ⟨ms', hfs, fun _ hm => List.mem_append_left _ hm, ?_⟩
      intro m' hm'
      refine h.first m' ?_
      cases ms' with
      | nil => cases hm'
      | cons m'' ms'' => exact hm'
  obtain ⟨ms', rfl, hsub, hfirst⟩ := hlines
  obtain ⟨m, hm, p, heq, hp⟩ := mem_lateLines hmem
  rw [Prod.mk.injEq] at heq
  have hbase : m.base = lineBase x.imemAddr := by
    rw [← h.based m (hsub m hm), ← heq.1]
    exact lineBase_congr ht
  refine ⟨m, hsub m hm, hbase, p, by rw [hdata]; exact congrFun heq.2 _, ?_⟩
  rcases hp with ⟨-, hhead⟩ | ⟨m', hm', rfl⟩
  · exact .inl (hfirst m (Option.mem_def.mpr hhead))
  · exact .inr ⟨m', hsub m' hm', rfl⟩

/-! ### The runs -/

section Runs

variable (M) (c : CacheInst) (ins : ℕ → FetchIn)

/-- The misses found before cycle `n`, oldest first. -/
def missed (n : ℕ) : List Miss := (machine M c).history missObs ins n

/-- The lines put in the cache before cycle `n`, oldest first. -/
def filled (n : ℕ) : List (BitVec 32 × CacheLine) := (machine M c).history fillObs ins n

/-- **The lines are late in cycle `n`**: each miss that is over has brought the late line of its
address, in the order of the misses, and every valid line is one of them; so a fetch gets the word
before the one at its address, and at the start of a line that word itself or the last one of a
line missed before. -/
structure LinesLate (n : ℕ) : Prop where
  filled : filled M c ins n = lateLines M 0#32
    (if ((machine M c).run ins n).cache.missPending then (missed M c ins n).dropLast
      else missed M c ins n)
  held : ∀ g w, (((machine M c).run ins n).cache.cacheAddr g w).valid = true →
    ((((machine M c).run ins n).cache.cacheAddr g w).addr,
      ((machine M c).run ins n).cache.cacheInst g w) ∈ FetchPath.filled M c ins n
  fetch : ((machine M c).run ins n).cache.imemReady
      (((machine M c).run ins n).cacheIn (ins n)) = true → lineWord (ins n).imemAddr ≠ 0#2 →
    ((machine M c).run ins n).cache.imemRdata (((machine M c).run ins n).cacheIn (ins n)) =
      M (wordOfLine (lineBase (ins n).imemAddr) (lineWord (ins n).imemAddr - 1#2))
  first : ((machine M c).run ins n).cache.imemReady
      (((machine M c).run ins n).cacheIn (ins n)) = true → lineWord (ins n).imemAddr = 0#2 →
    ((machine M c).run ins n).cache.imemRdata (((machine M c).run ins n).cacheIn (ins n)) =
        M (lineBase (ins n).imemAddr) ∨
      ∃ m ∈ missed M c ins n,
        ((machine M c).run ins n).cache.imemRdata (((machine M c).run ins n).cacheIn (ins n)) =
          M (wordOfLine m.base 3#2)

lemma behind_run (n : ℕ) :
    Behind M (missed M c ins n) (filled M c ins n) ((machine M c).run ins n) := by
  induction n with
  | zero => exact behind_reset c
  | succ n ih => exact ih.step

/-- **All lines of `soc_top` are late**, for every program, every sequence of fetches, every delay
of the slave and every prior content of the cache. -/
theorem lines_late (n : ℕ) : LinesLate M c ins n := by
  have h := behind_run M c ins n
  refine ⟨?_, h.line, ?_, ?_⟩
  · cases hp : ((machine M c).run ins n).cache.missPending
    · exact (h.rest hp).1
    · obtain ⟨ms', m, hms, hfs, -⟩ := h.refill hp
      rw [hfs, hms]
      simp
  · intro hr h0
    obtain ⟨m, -, hbase, p, hdata, -⟩ := h.fetch hr
    rw [hdata, Miss.source, if_neg h0, hbase]
  · intro hr h0
    obtain ⟨m, -, hbase, p, hdata, hp⟩ := h.fetch hr
    rw [hdata, Miss.source, if_pos h0, hbase]
    cases hl : m.late
    · exact .inl rfl
    · rcases hp with hx | ⟨m', hm', rfl⟩
      · rw [hl] at hx
        cases hx
      · exact .inr ⟨m', hm', rfl⟩

end Runs

end FetchPath

end RiscvSoc.Rtl
