import RiscvSoc.Bus.DataCache

/-!
# How long the data cache takes

Whatever it has done before, the cache answers a request that is held within a few cycles.  A load
that is held longer hits in the end, and from then on it is answered in every cycle; a store that is
held is written again and again, and never answered twice in a row.
-/

namespace RiscvSoc.Rtl

open Sync

namespace CacheData

variable {c : CacheData} {i : CacheDataIn}

/-- What the cache has answered is not under way. -/
lemma not_pending_of_ready (h : (c.step i).dmemReadyReg = true) :
    (c.step i).pending = false := by
  cases c.edge i with
  | wait hp hr => simp [step_wait hp hr] at h
  | refill hm hr => rw [step_refill hm hr]; rfl
  | written hm hw hr => rw [step_written hm hw hr]; rfl
  | rest hp ht => simp [step_rest hp ht] at h
  | readHit hp ht hr hh =>
    rw [step_readHit ht hr hh]
    exact hp
  | readMiss _ ht hr hh => simp [step_readMiss ht hr hh] at h
  | write _ ht hr hw => simp [step_write ht hr hw] at h

/-- A store is not answered in the cycle after an answer. -/
lemma not_ready_of_store (hp : c.pending = false) (hr : i.req.ren = false) :
    (c.step i).dmemReadyReg = false := by
  cases c.edge i with
  | wait hp' _ => simp [hp] at hp'
  | refill hm _ => simp [pending, hm] at hp
  | written _ hw _ => simp [pending, hw] at hp
  | rest _ ht => rw [step_rest hp ht]
  | readHit _ _ hren _ => simp [hr] at hren
  | readMiss _ _ hren _ => simp [hr] at hren
  | write _ ht _ hw => rw [step_write ht hr hw]

/-- An access of the memory below is over when it is answered. -/
lemma completed_of_refill (h : (c.step i).completedAddrValid = true) : c.pending = true := by
  cases c.edge i with
  | wait hp hr => exact hp
  | refill hm _ => exact pending_of_read hm
  | written _ hw _ => exact pending_of_write hw
  | rest hp ht => simp [step_rest hp ht] at h
  | readHit _ ht hr hh => simp [step_readHit ht hr hh] at h
  | readMiss _ ht hr hh => simp [step_readMiss ht hr hh] at h
  | write _ ht hr hw => simp [step_write ht hr hw] at h

/-- Tags that stay hit the same. -/
lemma hitsLine_congr {c' : CacheData} {i' : CacheDataIn} (hc : c'.cacheAddr = c.cacheAddr)
    (hi : i'.req.addr = i.req.addr) : c'.hitsLine i' = c.hitsLine i := by
  unfold hitsLine hitsWay
  rw [hc, hi]

end CacheData

namespace DataPath

variable (s : DataPath) (q : DataReq)

/-! ### The answer to a request that is held -/

/-- The cycles until the cache answers. -/
def due : ℕ :=
  if s.cache.dmemReadyReg then 0
  else if s.cache.pending then if s.mem.ready then 1 else 2
  else if q.ren && s.cache.hitsLine (s.cacheIn q) then 1 else 3

variable {s q} {p : DataReq}

lemma due_le : s.due q ≤ 3 := by
  unfold due
  split_ifs <;> omega

/-- The memory is ready for what was under way in the cycle before. -/
lemma Serves.ready_step (h : s.Serves) : (s.step q).mem.ready = s.cache.pending := h.memValid

/-- What the cache passes on is answered within two cycles, whatever is asked then. -/
lemma due_of_pending (hp : s.cache.pending = true) : s.due q ≤ 2 := by
  unfold due
  simp only [hp, if_true]
  split_ifs <;> omega

/-- **A request that is not completed is answered, or on its way.** -/
lemma taken_step (hp : s.cache.pending = false)
    (hj : s.cache.justCompleted (s.cacheIn q) = false) (hv : q.valid = true)
    (hk : q.ren = true ∨ q.wen = true) :
    (q.ren && s.cache.hitsLine (s.cacheIn q)) = true ∧ (s.step q).cache.dmemReadyReg = true ∨
      (q.ren && s.cache.hitsLine (s.cacheIn q)) = false ∧ (s.step q).cache.pending = true := by
  have hc : (s.step q).cache = s.cache.step (s.cacheIn q) := rfl
  have ht : s.cache.takes (s.cacheIn q) = true := CacheData.takes_of_free hp hj hv hk
  have hv' : (s.cacheIn q).req.valid = true := hv
  cases CacheData.edge s.cache (s.cacheIn q) with
  | wait hp' => simp [hp] at hp'
  | refill hp' => simp [CacheData.pending_of_read hp'] at hp
  | written _ hp' => simp [CacheData.pending_of_write hp'] at hp
  | rest _ hn => simp [ht] at hn
  | readHit _ _ ren hit =>
    rw [CacheData.step_readHit ht ren hit] at hc
    simp only [CacheData.hitNow, Bool.and_eq_true] at hit
    have hren : q.ren = true := ren
    exact .inl ⟨by rw [hren, hit.2]; rfl, by rw [hc]⟩
  | readMiss _ _ ren hit =>
    rw [CacheData.step_readMiss ht ren hit] at hc
    have hren : q.ren = true := ren
    have hno : s.cache.hitsLine (s.cacheIn q) = false := by
      simpa [CacheData.hitNow, hv', ren, hp] using hit
    exact .inr ⟨by rw [hno, Bool.and_false], by simp [hc, CacheData.pending]⟩
  | write _ _ ren wen =>
    rw [CacheData.step_write ht ren wen] at hc
    have hren : q.ren = false := ren
    exact .inr ⟨by rw [hren, Bool.false_and], by simp [hc, CacheData.pending]⟩

/-- **The answer comes nearer**, whatever is asked in the next cycle. -/
lemma Serves.due_step (h : s.Serves) (hr : s.cache.dmemReadyReg = false)
    (hw : s.cache.pending = true ∨ (q.valid = true ∧ (q.ren = true ∨ q.wen = true))) :
    (s.step q).due p + 1 ≤ s.due q ∧
      ((s.step q).cache.pending = true ∨ (s.step q).cache.dmemReadyReg = true) := by
  have hc : (s.step q).cache = s.cache.step (s.cacheIn q) := rfl
  have hm : (s.step q).mem.ready = s.cache.pending := h.ready_step
  cases hp : s.cache.pending
  · -- The cache takes the request.
    have hj : s.cache.justCompleted (s.cacheIn q) = false := by
      cases hg : s.cache.completedAddrValid
      · simp [CacheData.justCompleted, hg]
      · simp [h.completed hg] at hr
    obtain ⟨hv, hk⟩ := hw.resolve_left (by simp [hp])
    rcases taken_step hp hj hv hk with ⟨hhit, hr'⟩ | ⟨hhit, hp'⟩
    · refine ⟨?_, .inr hr'⟩
      simp [due, hr, hp, hhit, hr']
    · have hle := due_of_pending (q := p) hp'
      refine ⟨?_, .inl hp'⟩
      have hnow : s.due q = 3 := by simp [due, hr, hp, hhit]
      omega
  · cases hready : s.mem.ready
    · have hwait := CacheData.step_wait (i := s.cacheIn q) hp hready
      rw [hwait] at hc
      have hp' : (s.step q).cache.pending = true := by rw [hc]; exact hp
      have hr' : (s.step q).cache.dmemReadyReg = false := by rw [hc]
      refine ⟨?_, .inl hp'⟩
      simp [due, hr, hp, hready, hr', hp', hm]
    · have hr' : (s.step q).cache.dmemReadyReg = true := by
        cases hread : s.cache.pendingReadMiss
        · have hwrite : s.cache.pendingWriteThrough = true := by
            simpa [CacheData.pending, hread] using hp
          rw [hc, CacheData.step_written hread hwrite hready]
        · rw [hc, CacheData.step_refill hread hready]
      refine ⟨?_, .inr hr'⟩
      simp [due, hr, hp, hready, hr']

/-! ### A load that is held -/

variable (s q) in
/-- What is under way is the refill for the request. -/
def refillsOwn : Bool := s.cache.pendingReadMiss && s.cache.reqAddrReg == q.addr

variable (s q) in
/-- The cycles until a load that is held hits and is answered in every cycle. -/
def hitDue : ℕ :=
  if s.cache.pending then
    if s.refillsOwn q then (if s.mem.ready then 3 else 4) else (if s.mem.ready then 7 else 8)
  else if s.cache.hitsLine (s.cacheIn q) then
    if s.cache.justCompleted (s.cacheIn q) then 2 else if s.cache.dmemReadyReg then 0 else 1
  else if s.cache.justCompleted (s.cacheIn q) then 6 else 5

lemma hitDue_le : s.hitDue q ≤ 8 := by
  unfold hitDue
  split_ifs <;> omega

lemma hitDue_of_not_pending (hp : s.cache.pending = false) : s.hitDue q ≤ 6 := by
  unfold hitDue
  simp only [hp, Bool.false_eq_true, if_false]
  split_ifs <;> omega

/-- A load that hits has no other refill under way, and is answered. -/
lemma ready_of_hitDue (h : s.hitDue q = 0) : s.cache.dmemReadyReg = true := by
  unfold hitDue at h
  split_ifs at h
  assumption

/-- After its refill a load hits. -/
lemma Serves.hitsLine_of_refill (h : s.Serves) (hm : s.cache.pendingReadMiss = true)
    (hr : s.mem.ready = true) (ha : s.cache.reqAddrReg = q.addr) :
    (s.step q).cache.hitsLine ((s.step q).cacheIn q) = true := by
  have hc : (s.step q).cache = s.cache.step (s.cacheIn q) := rfl
  obtain ⟨hgroup, -⟩ := h.refill hm
  rw [CacheData.step_refill hm hr] at hc
  have hq : ((s.step q).cacheIn q).req.addr = q.addr := rfl
  refine CacheData.hitsLine_of_hitsWay (w := s.cache.refillWay) ?_
  unfold CacheData.hitsWay
  rw [hq, hc]
  simp only [hgroup, ha, Function.update_self, Bool.true_and, beq_iff_eq]
  rw [lineBase, BitVec.extractLsb'_append_eq_left]

/-- **A load that is held comes nearer to its hits.** -/
theorem Serves.hitDue_step (h : s.Serves) (hv : q.valid = true) (hren : q.ren = true) :
    (s.step q).hitDue q ≤ s.hitDue q - 1 := by
  have hc : (s.step q).cache = s.cache.step (s.cacheIn q) := rfl
  have hm : (s.step q).mem.ready = s.cache.pending := h.ready_step
  have hq : ((s.step q).cacheIn q).req.addr = (s.cacheIn q).req.addr := rfl
  have hren' : (s.cacheIn q).req.ren = true := hren
  cases CacheData.edge s.cache (s.cacheIn q) with
  | wait hp hr =>
    rw [CacheData.step_wait hp hr] at hc
    have hp' : (s.step q).cache.pending = true := by rw [hc]; exact hp
    have hown : (s.step q).refillsOwn q = s.refillsOwn q := by
      unfold refillsOwn
      rw [hc]
    have hr' : s.mem.ready = false := hr
    unfold hitDue
    rw [hp', hown, hm, hp, hr']
    cases s.refillsOwn q <;> simp
  | refill hread hr =>
    have hp := CacheData.pending_of_read hread
    have hr' : s.mem.ready = true := hr
    have hp' : (s.step q).cache.pending = false := by
      rw [hc, CacheData.step_refill hread hr]
      rfl
    cases hown : s.refillsOwn q
    · have hle := hitDue_of_not_pending (q := q) hp'
      have hnow : s.hitDue q = 7 := by simp [hitDue, hp, hown, hr']
      omega
    · -- The line of the load is there, and the load has just been completed.
      have ha : s.cache.reqAddrReg = q.addr := by
        simpa [refillsOwn, hread] using hown
      have hline := h.hitsLine_of_refill hread hr' ha
      have hj : (s.step q).cache.justCompleted ((s.step q).cacheIn q) = true := by
        have haddr : ((s.step q).cacheIn q).req.addr = q.addr := rfl
        rw [CacheData.step_refill hread hr] at hc
        simp [CacheData.justCompleted, haddr, hc, ha]
      simp [hitDue, hp', hline, hj, hp, hown, hr']
  | written hread hwrite hr =>
    have hp := CacheData.pending_of_write hwrite
    have hr' : s.mem.ready = true := hr
    have hp' : (s.step q).cache.pending = false := by
      rw [hc, CacheData.step_written hread hwrite hr]
      rfl
    have hown : s.refillsOwn q = false := by simp [refillsOwn, hread]
    have hle := hitDue_of_not_pending (q := q) hp'
    have hnow : s.hitDue q = 7 := by simp [hitDue, hp, hown, hr']
    omega
  | rest hp ht =>
    have hj : s.cache.justCompleted (s.cacheIn q) = true := by
      by_contra hj
      have hfree := CacheData.takes_of_free hp (by simpa using hj) hv (.inl hren')
      simp [hfree] at ht
    rw [CacheData.step_rest hp ht] at hc
    have hp' : (s.step q).cache.pending = false := by rw [hc]; exact hp
    have hj' : (s.step q).cache.justCompleted ((s.step q).cacheIn q) = false := by
      simp [CacheData.justCompleted, hc]
    have hline : (s.step q).cache.hitsLine ((s.step q).cacheIn q) =
        s.cache.hitsLine (s.cacheIn q) := CacheData.hitsLine_congr (by rw [hc]) hq
    have hr' : (s.step q).cache.dmemReadyReg = false := by rw [hc]
    unfold hitDue
    rw [hp', hj', hline, hr', hp, hj]
    cases s.cache.hitsLine (s.cacheIn q) <;> simp
  | readHit hp ht ren hit =>
    rw [CacheData.step_readHit ht ren hit] at hc
    have hp' : (s.step q).cache.pending = false := by rw [hc]; exact hp
    have hj' : (s.step q).cache.justCompleted ((s.step q).cacheIn q) = false := by
      simp [CacheData.justCompleted, hc]
    have hline : (s.step q).cache.hitsLine ((s.step q).cacheIn q) = true := by
      simp only [CacheData.hitNow, Bool.and_eq_true] at hit
      rw [← hit.2]
      exact CacheData.hitsLine_congr (by rw [hc]) hq
    have hr' : (s.step q).cache.dmemReadyReg = true := by rw [hc]
    simp [hitDue, hp', hj', hline, hr']
  | readMiss hp ht ren hit =>
    have hj : s.cache.justCompleted (s.cacheIn q) = false := (CacheData.of_takes ht).2.1
    have hno : s.cache.hitsLine (s.cacheIn q) = false := by
      have hv' : (s.cacheIn q).req.valid = true := hv
      simpa [CacheData.hitNow, hv', ren, hp] using hit
    rw [CacheData.step_readMiss ht ren hit] at hc
    have hp' : (s.step q).cache.pending = true := by simp [hc, CacheData.pending]
    have hown : (s.step q).refillsOwn q = true := by
      have ha : (s.cacheIn q).req.addr = q.addr := rfl
      simp [refillsOwn, hc, ha]
    simp [hitDue, hp', hown, hm, hp, hj, hno]
  | write _ _ ren => simp [hren'] at ren

/-! ### A store that is held -/

variable (s q) in
/-- The cycles until a store that is held is answered, if the answer now does not count. -/
def storeDue : ℕ :=
  if s.cache.pending then if s.mem.ready then 1 else 2
  else if s.cache.justCompleted (s.cacheIn q) then 4 else 3

lemma storeDue_pos : 1 ≤ s.storeDue q := by
  unfold storeDue
  split_ifs <;> omega

lemma storeDue_le : s.storeDue q ≤ 4 := by
  unfold storeDue
  split_ifs <;> omega

/-- **A store that is held is answered, or its answer comes nearer.** -/
theorem Serves.storeDue_step (h : s.Serves) (hv : q.valid = true) (hren : q.ren = false)
    (hwen : q.wen = true) :
    (s.step q).cache.dmemReadyReg = true ∨ (s.step q).storeDue q + 1 ≤ s.storeDue q := by
  have hc : (s.step q).cache = s.cache.step (s.cacheIn q) := rfl
  have hm : (s.step q).mem.ready = s.cache.pending := h.ready_step
  cases CacheData.edge s.cache (s.cacheIn q) with
  | wait hp hr =>
    right
    rw [CacheData.step_wait hp hr] at hc
    have hp' : (s.step q).cache.pending = true := by rw [hc]; exact hp
    have hr' : s.mem.ready = false := hr
    simp [storeDue, hp', hm, hp, hr']
  | refill hread hr => exact .inl (by rw [hc, CacheData.step_refill hread hr])
  | written hread hwrite hr => exact .inl (by rw [hc, CacheData.step_written hread hwrite hr])
  | rest hp ht =>
    right
    have hj : s.cache.justCompleted (s.cacheIn q) = true := by
      by_contra hj
      have hfree := CacheData.takes_of_free hp (by simpa using hj) hv (.inr hwen)
      simp [hfree] at ht
    rw [CacheData.step_rest hp ht] at hc
    have hp' : (s.step q).cache.pending = false := by rw [hc]; exact hp
    have hj' : (s.step q).cache.justCompleted ((s.step q).cacheIn q) = false := by
      simp [CacheData.justCompleted, hc]
    simp [storeDue, hp', hj', hp, hj]
  | readHit _ _ ren _ => exact absurd (hren.symm.trans ren) (by simp)
  | readMiss _ _ ren _ => exact absurd (hren.symm.trans ren) (by simp)
  | write hp ht ren wen =>
    right
    have hj : s.cache.justCompleted (s.cacheIn q) = false := (CacheData.of_takes ht).2.1
    rw [CacheData.step_write ht ren wen] at hc
    have hp' : (s.step q).cache.pending = true := by simp [hc, CacheData.pending]
    simp [storeDue, hp', hm, hp, hj]

end DataPath

end RiscvSoc.Rtl
