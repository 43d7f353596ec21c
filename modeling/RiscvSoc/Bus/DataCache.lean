import RiscvSoc.Rtl.CacheData

/-!
# The data cache at work

What every cycle of `L1_Cache_DATA` over `data_mem` keeps, whatever is asked: the memory sees the
request that the cache has latched, and the word it answers with is the word it holds.  And the
requests of the core: each is held until the cycle in which `dmem_ready` is high.
-/

namespace RiscvSoc.Rtl

open Sync

namespace CacheData

/-- A request is taken unless it has just been completed. -/
lemma takes_of_free {c : CacheData} {i : CacheDataIn} (hp : c.pending = false)
    (hj : c.justCompleted i = false) (hv : i.req.valid = true)
    (hk : i.req.ren = true ∨ i.req.wen = true) : c.takes i = true := by
  simpa [takes, hp, hj, hv] using hk

end CacheData

namespace DataPath

/-! ### The cache against the memory -/

/-- The words of the memory with the store under way. -/
def view (s : DataPath) : BitVec 10 → BitVec 32 :=
  if s.cache.pendingWriteThrough then
    Function.update s.mem.word (wordAddr s.cache.reqAddrReg) s.cache.reqWdataReg
  else s.mem.word

/-- **The memory serves the latched request.** -/
structure Serves (s : DataPath) : Prop where
  exclusive : s.cache.pendingReadMiss = true → s.cache.pendingWriteThrough = false
  kind : s.cache.pending = true → s.cache.reqIsReadReg = s.cache.pendingReadMiss
  memValid : s.cache.memValidReg = s.cache.pending
  memRead : s.cache.memReadEnReg = s.cache.pendingReadMiss
  memWrite : s.cache.memWriteEnReg = s.cache.pendingWriteThrough
  memAddr : s.cache.pending = true → s.cache.memAddrReg = s.cache.reqAddrReg
  memData : s.cache.pendingWriteThrough = true → s.cache.memWdataReg = s.cache.reqWdataReg
  memSize : s.cache.pending = true → s.cache.memSizeReg = s.cache.reqSizeReg
  readSize : s.cache.pendingReadMiss = true → s.cache.reqSizeReg = memSizeWord
  refill : s.cache.pendingReadMiss = true →
    s.cache.refillGroupIndex = groupIndex s.cache.reqAddrReg ∧
      s.cache.refillWordOffset.extractLsb' 2 2 = lineWord s.cache.reqAddrReg
  ready : s.cache.dmemReadyReg = true → s.cache.pending = false
  completed : s.cache.completedAddrValid = true → s.cache.dmemReadyReg = true
  answer : s.cache.pendingReadMiss = true → s.mem.ready = true →
    s.mem.dataOut = s.mem.word (wordAddr s.cache.reqAddrReg)

variable {s : DataPath} {q : DataReq}

/-- Without a store under way the bytes of the memory stay. -/
lemma Serves.word_step_of_not_write (h : s.Serves)
    (hw : s.cache.pendingWriteThrough = false) : (s.step q).mem.word = s.mem.word :=
  DataMem.word_step_of_not_write (i := s.memIn) (h.memWrite.trans hw)

/-- A store under way writes its word, again in every cycle. -/
lemma Serves.word_step_of_write (h : s.Serves) (hw : s.cache.pendingWriteThrough = true)
    (hs : s.cache.reqSizeReg = memSizeWord) : (s.step q).mem.word =
      Function.update s.mem.word (wordAddr s.cache.reqAddrReg) s.cache.reqWdataReg := by
  have hp := CacheData.pending_of_write hw
  have hstep := DataMem.word_step_of_write (m := s.mem) (i := s.memIn)
    ((h.memSize hp).trans hs) (h.memWrite.trans hw)
  rw [show s.memIn.wordAddr = wordAddr s.cache.reqAddrReg from congrArg wordAddr (h.memAddr hp),
    show s.memIn.dataIn = s.cache.reqWdataReg from h.memData hw] at hstep
  exact hstep

lemma serves_reset (c : CacheData) (d : DataMem) : Serves ⟨c.reset, d.reset⟩ := by
  constructor <;> simp [CacheData.reset, CacheData.pending]

/-- While a load is under way the memory reads the word of its address. -/
lemma Serves.answer_step (h : s.Serves) (hp : s.cache.pendingReadMiss = true) :
    (s.step q).mem.dataOut = (s.step q).mem.word (wordAddr s.cache.reqAddrReg) := by
  have hpend := CacheData.pending_of_read hp
  have hv : s.memIn.valid = true := h.memValid.trans hpend
  have hre : s.memIn.readEn = true := h.memRead.trans hp
  have hsz : s.memIn.size = memSizeWord := (h.memSize hpend).trans (h.readSize hp)
  have ha : s.memIn.wordAddr = wordAddr s.cache.reqAddrReg :=
    congrArg wordAddr (h.memAddr hpend)
  have hq : (s.step q).mem.sizeQ = memSizeWord := by
    simp [step, DataMem.step, hv, hre, hsz]
  have hd : (s.step q).mem.memData = s.mem.word (wordAddr s.cache.reqAddrReg) := by
    simp [step, DataMem.step, hv, hre, ha]
  rw [DataMem.dataOut_of_word hq, hd, h.word_step_of_not_write (h.exclusive hp)]

/-- A request that has just been taken is not answered. -/
lemma Serves.not_ready_step (h : s.Serves) (hp : s.cache.pending = false) :
    (s.step q).mem.ready = false := h.memValid.trans hp

/-- **One cycle of the data side.** -/
theorem Serves.step (h : s.Serves) : (s.step q).Serves := by
  have hc : (s.step q).cache = s.cache.step (s.cacheIn q) := rfl
  have hans := h.answer_step (q := q)
  have hnot := h.not_ready_step (q := q)
  cases CacheData.edge s.cache (s.cacheIn q) with
  | wait pending ready =>
    rw [CacheData.step_wait pending ready] at hc
    have hk := h.kind pending
    have hkw : (!s.cache.pendingReadMiss) = s.cache.pendingWriteThrough := by
      have hex := h.exclusive
      simp only [CacheData.pending] at pending
      cases hr : s.cache.pendingReadMiss <;> simp_all
    constructor <;> simp only [hc]
    · exact h.exclusive
    · exact fun _ => hk
    · exact pending.symm
    · exact hk
    · rw [hk, hkw]
    · exact fun _ => trivial
    · exact fun _ => trivial
    · exact fun _ => trivial
    · exact h.readSize
    · exact h.refill
    · intro hr
      cases hr
    · intro hg
      cases hg
    · exact fun hp _ => hans hp
  | refill read ready =>
    rw [CacheData.step_refill read ready] at hc
    constructor <;> simp [hc, CacheData.pending]
  | written read write ready =>
    rw [CacheData.step_written read write ready] at hc
    constructor <;> simp [hc, CacheData.pending]
  | rest pending takes =>
    rw [CacheData.step_rest pending takes] at hc
    simp only [CacheData.pending, Bool.or_eq_false_iff] at pending
    constructor <;> simp [hc, CacheData.pending, pending.1, pending.2]
  | readHit pending takes ren hit =>
    rw [CacheData.step_readHit takes ren hit] at hc
    simp only [CacheData.pending, Bool.or_eq_false_iff] at pending
    constructor <;> simp [hc, CacheData.pending, pending.1, pending.2]
  | readMiss pending takes ren hit =>
    rw [CacheData.step_readMiss takes ren hit] at hc
    have hnr := hnot pending
    simp only [CacheData.pending, Bool.or_eq_false_iff] at pending
    constructor <;> simp [hc, CacheData.pending, pending.2, hnr, memSizeWord, lineWord]
  | write pending takes ren wen =>
    rw [CacheData.step_write takes ren wen] at hc
    simp only [CacheData.pending, Bool.or_eq_false_iff] at pending
    constructor <;> simp [hc, CacheData.pending, pending.1]

end DataPath

/-! ### The requests of the core -/

namespace DataRun

variable (c : CacheData) (d : DataMem) (ins : ℕ → DataReq)

/-- The data side in cycle `n`. -/
def path (n : ℕ) : DataPath := (DataPath.machine c d).run ins n

/-- `dmem_ready` in cycle `n`. -/
def ready (n : ℕ) : Bool := (path c d ins n).cache.dmemReadyReg

/-- **The handshake of the core**: a request reads or writes, and it is held until the cycle in
which `dmem_ready` is high; the next one, or none, follows in the next cycle. -/
structure Handshake : Prop where
  oneKind : ∀ n, (ins n).valid = true → (ins n).wen = !(ins n).ren
  held : ∀ n, (ins n).valid = true → ready c d ins n = false → ins (n + 1) = ins n

/-- A request of the core begins: the one before it is over, or there was none. -/
def begins : ℕ → Bool
  | 0 => (ins 0).valid
  | n + 1 => (ins (n + 1)).valid && (!(ins n).valid || ready c d ins n)

/-- The cache takes the request of cycle `n`. -/
def takes (n : ℕ) : Bool :=
  (path c d ins n).cache.takes ((path c d ins n).cacheIn (ins n))

/-- The request of cycle `n` has been taken in a cycle before. -/
def taken : ℕ → Bool
  | 0 => false
  | n + 1 =>
    (ins (n + 1)).valid && !begins c d ins (n + 1) && (taken n || takes c d ins n)

variable {c d ins} {n : ℕ}

lemma path_succ : path c d ins (n + 1) = (path c d ins n).step (ins n) := rfl

variable (c d ins) in
lemma serves (n : ℕ) : (path c d ins n).Serves := by
  induction n with
  | zero => exact DataPath.serves_reset c d
  | succ n ih => exact ih.step

/-- A request that goes on was there in the cycle before and was not answered. -/
lemma goes_on (hv : (ins (n + 1)).valid = true) (hb : begins c d ins (n + 1) = false) :
    (ins n).valid = true ∧ ready c d ins n = false := by
  simp only [begins, hv, Bool.true_and, Bool.or_eq_false_iff, Bool.not_eq_false'] at hb
  exact hb

lemma begins_succ_of_ready (h : ready c d ins n = true) :
    begins c d ins (n + 1) = (ins (n + 1)).valid := by
  simp [begins, h]

/-- A request that is not answered goes on. -/
lemma Handshake.goes_on (h : Handshake c d ins) (hv : (ins n).valid = true)
    (hr : ready c d ins n = false) :
    ins (n + 1) = ins n ∧ begins c d ins (n + 1) = false := by
  refine ⟨h.held n hv hr, ?_⟩
  simp [begins, hv, hr]

/-- The handshake of a sequence that ends is checked up to its end. -/
lemma handshake_of_end {N : ℕ} (hend : ∀ n, N ≤ n → (ins n).valid = false)
    (hkind : ∀ n < N, (ins n).valid = true → (ins n).wen = !(ins n).ren)
    (hheld : ∀ n < N, (ins n).valid = true → ready c d ins n = false → ins (n + 1) = ins n) :
    Handshake c d ins where
  oneKind n hv := by
    rcases Nat.lt_or_ge n N with hn | hn
    · exact hkind n hn hv
    · rw [hend n hn] at hv
      cases hv
  held n hv hr := by
    rcases Nat.lt_or_ge n N with hn | hn
    · exact hheld n hn hv hr
    · rw [hend n hn] at hv
      cases hv

lemma taken_succ_of_ready (h : ready c d ins n = true) : taken c d ins (n + 1) = false := by
  rw [taken, begins_succ_of_ready h]
  cases (ins (n + 1)).valid <;> simp

/-! ### What the cache takes -/

lemma not_takes_of_pending (h : (path c d ins n).cache.pending = true) :
    takes c d ins n = false := by
  simp [takes, CacheData.takes, h]

lemma not_takes_of_invalid (h : (ins n).valid = false) : takes c d ins n = false := by
  simp [takes, CacheData.takes, DataPath.cacheIn, h]

/-- The guard keeps a request from being taken. -/
lemma not_takes_of_guard (hg : (path c d ins n).cache.completedAddrValid = true)
    (ha : (path c d ins n).cache.completedAddr = (ins n).addr) : takes c d ins n = false := by
  simp [takes, CacheData.takes, CacheData.justCompleted, DataPath.cacheIn, hg, ha]

/-- A load is not a store. -/
lemma Handshake.not_wen_of_ren (hh : Handshake c d ins) (hv : (ins n).valid = true)
    (hr : (ins n).ren = true) : (ins n).wen = false := by
  rw [hh.oneKind n hv, hr]
  rfl

/-- A cache at rest without a guard takes what comes. -/
lemma takes_of_free (hh : Handshake c d ins) (hp : (path c d ins n).cache.pending = false)
    (hg : (path c d ins n).cache.completedAddrValid = false) (hv : (ins n).valid = true) :
    takes c d ins n = true := by
  have hj : (path c d ins n).cache.justCompleted ((path c d ins n).cacheIn (ins n)) = false := by
    simp [CacheData.justCompleted, hg]
  have hk := hh.oneKind n hv
  refine CacheData.takes_of_free hp hj hv ?_
  cases hr : (ins n).ren
  · exact .inr (hk.trans (by rw [hr]; rfl))
  · exact .inl hr

lemma not_guard_of_not_ready (h : ready c d ins n = false) :
    (path c d ins n).cache.completedAddrValid = false := by
  by_contra hg
  have hr := (serves c d ins n).completed (by simpa using hg)
  rw [ready] at h
  rw [h] at hr
  cases hr

/-! ### What a cycle does to the request -/

variable (c d ins n) in
/-- The cache after a cycle. -/
lemma cache_succ : (path c d ins (n + 1)).cache =
    (path c d ins n).cache.step ((path c d ins n).cacheIn (ins n)) := rfl

/-- A request at the memory stays there or is answered. -/
lemma step_of_pending (hp : (path c d ins n).cache.pending = true) :
    ((path c d ins (n + 1)).cache.pendingWriteThrough =
        (path c d ins n).cache.pendingWriteThrough ∧
      (path c d ins (n + 1)).cache.pending = true ∧ ready c d ins (n + 1) = false ∧
      (path c d ins (n + 1)).cache.reqAddrReg = (path c d ins n).cache.reqAddrReg) ∨
    (ready c d ins (n + 1) = true ∧ (path c d ins (n + 1)).cache.completedAddrValid = true ∧
      (path c d ins (n + 1)).cache.completedAddr = (path c d ins n).cache.reqAddrReg) := by
  have hc := cache_succ c d ins n
  cases CacheData.edge (path c d ins n).cache ((path c d ins n).cacheIn (ins n)) with
  | wait pending ready =>
    rw [CacheData.step_wait pending ready] at hc
    left
    exact ⟨by rw [hc], by rw [hc]; exact hp, by simp [DataRun.ready, hc], by rw [hc]⟩
  | refill read ready =>
    rw [CacheData.step_refill read ready] at hc
    right
    exact ⟨by simp [DataRun.ready, hc], by rw [hc], by rw [hc]⟩
  | written read write ready =>
    rw [CacheData.step_written read write ready] at hc
    right
    exact ⟨by simp [DataRun.ready, hc], by rw [hc], by rw [hc]⟩
  | rest pending _ => rw [hp] at pending; cases pending
  | readHit pending _ _ _ => rw [hp] at pending; cases pending
  | readMiss pending _ _ _ => rw [hp] at pending; cases pending
  | write pending _ _ _ => rw [hp] at pending; cases pending

/-- A cache that takes nothing is free. -/
lemma step_of_rest (hp : (path c d ins n).cache.pending = false)
    (ht : takes c d ins n = false) :
    (path c d ins (n + 1)).cache.pending = false ∧ ready c d ins (n + 1) = false := by
  have hc := cache_succ c d ins n
  rw [CacheData.step_rest hp ht] at hc
  exact ⟨by rw [hc]; exact hp, by simp [ready, hc]⟩

end DataRun

end RiscvSoc.Rtl
