import RiscvSoc.Bus.LoadedWords

/-!
# The data cache as a memory that takes its time

How far the cache is with a request, if a request is held until it is answered and none follows at
once: it has not taken it, it has passed it on, or it has answered it.  A load that hits is
answered twice, the second time when nobody asks.
-/

namespace RiscvSoc.Rtl

open Sync

namespace DataPath

/-- **How far a request is.** -/
inductive Stands (s : DataPath) (q : DataReq) : Prop
  | rest (pending : s.cache.pending = false)
      (quiet : q.valid = true → s.cache.dmemReadyReg = false)
  | waiting (pending : s.cache.pending = true) (valid : q.valid = true)
      (addr : s.cache.reqAddrReg = q.addr) (read : s.cache.pendingReadMiss = q.ren)
      (stored : q.wen = true → s.view (wordAddr q.addr) = q.wdata)
  | answered (valid : q.valid = true) (ready : s.cache.dmemReadyReg = true)
      (guard : s.cache.completedAddrValid = true) (addr : s.cache.completedAddr = q.addr)
      (rdata : q.ren = true → s.cache.dmemRdataReg = s.view (wordAddr q.addr))
      (stored : q.wen = true → s.view (wordAddr q.addr) = q.wdata)
  | hit (valid : q.valid = true) (ren : q.ren = true) (ready : s.cache.dmemReadyReg = true)
      (guard : s.cache.completedAddrValid = false)
      (line : s.cache.hitsLine (s.cacheIn q) = true)
      (rdata : s.cache.dmemRdataReg = s.view (wordAddr q.addr))

/-- How many cycles a request waits at most beyond the one that every memory takes. -/
def left (s : DataPath) : ℕ := if s.cache.pending then (if s.mem.ready then 0 else 1) else 2

variable {U : BitVec 10 → Prop} {s : DataPath} {q q' : DataReq}

/-! ### What the cache takes -/

lemma LoadsOk.guard_of_quiet (h : LoadsOk U s) (hr : s.cache.dmemReadyReg = false) :
    s.cache.completedAddrValid = false := by
  by_contra hg
  have hc := h.completed (by simpa using hg)
  rw [hr] at hc
  cases hc

lemma LoadsOk.quiet_of_pending (h : LoadsOk U s) (hp : s.cache.pending = true) :
    s.cache.dmemReadyReg = false := by
  by_contra hr
  have hc := h.ready (by simpa using hr)
  rw [hp] at hc
  cases hc

lemma takes_of_no_guard (hq : Asks U q) (hp : s.cache.pending = false)
    (hg : s.cache.completedAddrValid = false) (hv : q.valid = true) :
    s.cache.takes (s.cacheIn q) = true := by
  have hk := hq.oneKind hv
  cases hr : q.ren <;>
    simp [CacheData.takes, CacheData.justCompleted, cacheIn, hp, hg, hv, hk, hr]

lemma not_takes_of_guard (hg : s.cache.completedAddrValid = true)
    (ha : s.cache.completedAddr = q.addr) : s.cache.takes (s.cacheIn q) = false := by
  simp [CacheData.takes, CacheData.justCompleted, cacheIn, hg, ha]

lemma not_takes_of_invalid (hv : q.valid = false) : s.cache.takes (s.cacheIn q) = false := by
  simp [CacheData.takes, cacheIn, hv]

/-- A cache at rest to which nobody speaks says nothing. -/
lemma step_of_not_takes (hp : s.cache.pending = false)
    (ht : s.cache.takes (s.cacheIn q) = false) :
    (s.step q).cache.pending = false ∧ (s.step q).cache.dmemReadyReg = false := by
  have hc : (s.step q).cache = s.cache.step (s.cacheIn q) := rfl
  rw [CacheData.step_rest hp ht] at hc
  rw [hc]
  exact ⟨hp, rfl⟩

/-! ### One cycle -/

section Step

variable (h : LoadsOk U s) (hq : Asks U q)
include h hq

/-- **The words after a cycle**: a store is in them as soon as it is asked for. -/
theorem Stands.view_step (hs : Stands s q) : (s.step q).view =
    if q.valid && q.wen then Function.update s.view (wordAddr q.addr) q.wdata else s.view := by
  rw [h.view_step hq]
  have hdone : s.cache.takes (s.cacheIn q) = false → q.valid = true →
      (q.wen = true → s.view (wordAddr q.addr) = q.wdata) →
      (if (s.cache.takes (s.cacheIn q) && q.wen) = true then
          Function.update s.view (wordAddr q.addr) q.wdata else s.view) =
        if (q.valid && q.wen) = true then
          Function.update s.view (wordAddr q.addr) q.wdata else s.view := by
    intro ht hv hw
    rw [ht, hv]
    cases hwen : q.wen
    · rfl
    · rw [← hw hwen]
      simp
  cases hs with
  | rest pending quiet =>
    cases hv : q.valid
    · rw [not_takes_of_invalid hv]
    · rw [takes_of_no_guard hq pending (h.guard_of_quiet (quiet hv)) hv]
  | waiting pending valid _ _ stored =>
    exact hdone (by simp [CacheData.takes, pending]) valid stored
  | answered valid _ guard addr _ stored =>
    exact hdone (not_takes_of_guard guard addr) valid stored
  | hit valid ren => rw [hq.not_wen valid ren, Bool.and_false, Bool.and_false]

/-- A request that has not been answered waits, or is answered now. -/
lemma Stands.step_held (hs : Stands s q) (hv : q.valid = true)
    (hr : s.cache.dmemReadyReg = false) : Stands (s.step q) q ∧
      ((s.step q).cache.dmemReadyReg = true ∨ (s.step q).left + 1 = s.left) := by
  have hc : (s.step q).cache = s.cache.step (s.cacheIn q) := rfl
  have hready : (s.step q).mem.ready = s.cache.memValidReg := rfl
  have hview : (s.step q).view = _ := hs.view_step h hq
  rw [hv, Bool.true_and] at hview
  have hstored : q.wen = true → (s.step q).view (wordAddr q.addr) = q.wdata := by
    intro hw
    rw [hview, if_pos hw, Function.update_self]
  have hsame : q.ren = true → (s.step q).view = s.view := by
    intro hren
    rw [hview, hq.not_wen hv hren]
    rfl
  cases hs with
  | rest pending quiet =>
    have hg := h.guard_of_quiet hr
    have ht := takes_of_no_guard hq pending hg hv
    cases CacheData.edge s.cache (s.cacheIn q) with
    | wait hp => simp [pending] at hp
    | refill hp => simp [CacheData.pending_of_read hp] at pending
    | written _ hp => simp [CacheData.pending_of_write hp] at pending
    | rest _ hn => simp [ht] at hn
    | readHit _ _ ren hit =>
      have hword := h.hitWord hq ren hit
      rw [CacheData.step_readHit ht ren hit] at hc
      refine ⟨.hit hv ren (by rw [hc]) (by rw [hc]) ?_ ?_, .inl (by rw [hc])⟩
      · simp only [CacheData.hitNow, Bool.and_eq_true] at hit
        rw [hc]
        exact hit.2
      · have hsize : (s.cacheIn q).req.size = memSizeWord := hq.size hv
        rw [hc, hsame ren, hsize, cacheReadData_word, hword]
    | readMiss _ _ ren hit =>
      have hren : q.ren = true := ren
      rw [CacheData.step_readMiss ht ren hit] at hc
      have hp' : (s.step q).cache.pending = true := by simp [hc, CacheData.pending]
      refine ⟨.waiting hp' hv (by rw [hc]; rfl) (by rw [hc, hren]) hstored, .inr ?_⟩
      rw [left, left, hp', hready, h.memValid, pending]
      rfl
    | write _ _ ren wen =>
      have hren : q.ren = false := ren
      rw [CacheData.step_write ht ren wen] at hc
      have hp' : (s.step q).cache.pending = true := by simp [hc, CacheData.pending]
      refine ⟨.waiting hp' hv (by rw [hc]; rfl) ?_ hstored, .inr ?_⟩
      · simp only [CacheData.pending, Bool.or_eq_false_iff] at pending
        rw [hc, hren]
        exact pending.1
      · rw [left, left, hp', hready, h.memValid, pending]
        rfl
  | waiting pending valid addr read stored =>
    cases CacheData.edge s.cache (s.cacheIn q) with
    | wait _ ready =>
      rw [CacheData.step_wait pending ready] at hc
      have hp' : (s.step q).cache.pending = true := by rw [hc]; exact pending
      have hnow : s.mem.ready = false := ready
      refine ⟨.waiting hp' hv (by rw [hc]; exact addr) (by rw [hc]; exact read) hstored, .inr ?_⟩
      rw [left, left, hp', hready, h.memValid, pending, hnow]
      rfl
    | refill hread ready =>
      have hren : q.ren = true := by rw [← read, hread]
      have hword := h.answer hread ready
      rw [CacheData.step_refill hread ready] at hc
      refine ⟨.answered hv (by rw [hc]) (by rw [hc]) (by rw [hc]; exact addr) ?_ hstored,
        .inl (by rw [hc])⟩
      intro _
      rw [hc, hsame hren, h.readSize hread, cacheReadData_word,
        view_of_not_write (h.exclusive hread), ← addr]
      exact hword
    | written hread write ready =>
      rw [CacheData.step_written hread write ready] at hc
      refine ⟨.answered hv (by rw [hc]) (by rw [hc]) (by rw [hc]; exact addr) ?_ hstored,
        .inl (by rw [hc])⟩
      intro hren
      rw [← read, hread] at hren
      cases hren
    | rest hp => simp [pending] at hp
    | readHit hp => simp [pending] at hp
    | readMiss hp => simp [pending] at hp
    | write hp => simp [pending] at hp
  | answered _ ready => simp [hr] at ready
  | hit _ _ ready => simp [hr] at ready

/-- A request that has been answered is over. -/
lemma Stands.step_gone (hs : Stands s q) (hv : q.valid = true)
    (hr : s.cache.dmemReadyReg = true) (hgone : q'.valid = false) : Stands (s.step q) q' := by
  have hc : (s.step q).cache = s.cache.step (s.cacheIn q) := rfl
  have hp := h.ready hr
  cases hs with
  | rest _ quiet => simp [quiet hv] at hr
  | waiting pending => simp [hp] at pending
  | answered _ _ guard addr =>
    exact .rest (step_of_not_takes hp (not_takes_of_guard guard addr)).1 (by simp [hgone])
  | hit _ ren _ guard line =>
    have ht := takes_of_no_guard hq hp guard hv
    have hit : s.cache.hitNow (s.cacheIn q) = true := by
      have hv' : (s.cacheIn q).req.valid = true := hv
      have hren : (s.cacheIn q).req.ren = true := ren
      simp [CacheData.hitNow, hv', hren, hp, line]
    rw [CacheData.step_readHit ht ren hit] at hc
    exact .rest (by rw [hc]; exact hp) (by simp [hgone])

end Step

/-- Nobody asks. -/
lemma Stands.step_none (hs : Stands s q) (hv : q.valid = false) :
    Stands (s.step q) q' ∧ (s.step q).cache.dmemReadyReg = false := by
  cases hs with
  | rest pending _ =>
    obtain ⟨hp, hr⟩ := step_of_not_takes pending (not_takes_of_invalid hv)
    exact ⟨.rest hp fun _ => hr, hr⟩
  | waiting _ valid => simp [hv] at valid
  | answered valid => simp [hv] at valid
  | hit valid => simp [hv] at valid

/-- The answer to a load is its word. -/
lemma Stands.rdata (h : LoadsOk U s) (hs : Stands s q) (hv : q.valid = true)
    (hr : s.cache.dmemReadyReg = true) (hren : q.ren = true) :
    s.cache.dmemRdataReg = s.view (wordAddr q.addr) := by
  cases hs with
  | rest _ quiet => simp [quiet hv] at hr
  | waiting pending => simp [h.quiet_of_pending pending] at hr
  | answered _ _ _ _ rdata => exact rdata hren
  | hit _ _ _ _ _ rdata => exact rdata

end DataPath

end RiscvSoc.Rtl
