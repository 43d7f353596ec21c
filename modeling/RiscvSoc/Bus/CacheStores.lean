import RiscvSoc.Bus.DataCache

/-!
# The stores through the data cache

A store goes on to the memory when the cache takes it.  After a load that hits, the answers run one
request ahead of the cache, and a store may be answered in the cycle in which another access is
completed at its address: the guard then takes it for that access, and it is lost.
-/

namespace RiscvSoc.Rtl

open Sync

namespace DataRun

section Observer

variable (c : CacheData) (d : DataMem) (ins : ℕ → DataReq)

/-- **The core asks for words** below address 4096. -/
structure WordRequests : Prop extends Handshake c d ins where
  size : ∀ n, (ins n).valid = true → (ins n).size = memSizeWord
  below : ∀ n, (ins n).valid = true → (ins n).addr.toNat < 4096

/-- The initial memory with all stores presented before cycle `n`, in their order. -/
def written : ℕ → BitVec 10 → BitVec 32
  | 0 => d.word
  | n + 1 =>
    if begins c d ins n && (ins n).wen then
      Function.update (written n) (wordAddr (ins n).addr) (ins n).wdata
    else written n

/-- In cycle `n` a store is settled: it is taken or answered, whichever is first. -/
def settles (n : ℕ) : Bool :=
  (ins n).valid && (ins n).wen && !taken c d ins n && (takes c d ins n || ready c d ins n)

/-- The initial memory with all stores settled before cycle `n`, in their order. -/
def settled : ℕ → BitVec 10 → BitVec 32
  | 0 => d.word
  | n + 1 =>
    if settles c d ins n then
      Function.update (settled n) (wordAddr (ins n).addr) (ins n).wdata
    else settled n

/-- The memory in cycle `n` once the store under way has reached it. -/
def view (n : ℕ) : BitVec 10 → BitVec 32 := (path c d ins n).view

/-- **The stores are kept** in cycle `n`: the memory, with the store under way, has all stores
that were taken or answered, in their order; so when no request is left and the cache is idle, it
has all the stores that were presented. -/
structure StoresKept (n : ℕ) : Prop where
  underway : view c d ins n = settled c d ins n
  idle : (ins n).valid = false → (path c d ins n).cache.pending = false →
    (path c d ins n).mem.word = written c d ins n

/-- **A store is dropped** in cycle `n`: it has not been taken, `dmem_ready` is high for the
access just completed at its address, and it would change the memory. -/
structure DropsStore (n : ℕ) : Prop where
  valid : (ins n).valid = true
  wen : (ins n).wen = true
  notTaken : taken c d ins n = false
  ready : ready c d ins n = true
  guard : (path c d ins n).cache.completedAddrValid = true
  addr : (path c d ins n).cache.completedAddr = (ins n).addr
  wdata : (path c d ins n).mem.word (wordAddr (ins n).addr) ≠ (ins n).wdata

end Observer

variable {c : CacheData} {d : DataMem} {ins : ℕ → DataReq} {n : ℕ}

/-! ### The stores presented and the stores settled -/

lemma taken_of_begins (h : begins c d ins n = true) : taken c d ins n = false := by
  cases n with
  | zero => rfl
  | succ n => simp [taken, h]

/-- A store that has come before cycle `n` and is not settled is still there. -/
lemma written_eq (hh : Handshake c d ins) (n : ℕ) : written c d ins n =
    if (ins n).valid && !begins c d ins n && !taken c d ins n && (ins n).wen then
      Function.update (settled c d ins n) (wordAddr (ins n).addr) (ins n).wdata
    else settled c d ins n := by
  induction n with
  | zero =>
    have hb : (!begins c d ins 0) = !(ins 0).valid := rfl
    rw [hb]
    cases (ins 0).valid <;> rfl
  | succ n ih =>
    -- With the request of cycle `n` the stores presented are those settled and perhaps its own.
    have hnow : written c d ins (n + 1) =
        if (ins n).valid && !taken c d ins n && (ins n).wen then
          Function.update (settled c d ins n) (wordAddr (ins n).addr) (ins n).wdata
        else settled c d ins n := by
      rw [written, ih]
      cases hb : begins c d ins n
      · simp
      · have hv : (ins n).valid = true := by
          cases n with
          | zero => exact hb
          | succ n =>
            simp only [begins, Bool.and_eq_true] at hb
            exact hb.1
        simp [hv, taken_of_begins hb]
    rw [hnow, settled, settles]
    by_cases hu : ((ins n).valid && !taken c d ins n && (ins n).wen) = true
    · simp only [Bool.and_eq_true, Bool.not_eq_true'] at hu
      obtain ⟨⟨hv, htk⟩, hw⟩ := hu
      cases hr : ready c d ins n
      · obtain ⟨hins, hb⟩ := hh.goes_on hv hr
        cases ht : takes c d ins n <;>
          simp [hv, htk, hw, hins, hb, taken, ht]
      · have hb := begins_succ_of_ready hr
        cases hv' : (ins (n + 1)).valid <;> simp [hv, htk, hw, hb, hv']
    · rw [Bool.not_eq_true] at hu
      have hs : ((ins n).valid && (ins n).wen && !taken c d ins n &&
          (takes c d ins n || ready c d ins n)) = false := by
        rw [Bool.and_right_comm (ins n).valid, hu, Bool.false_and]
      rw [hu, hs]
      simp only [Bool.false_eq_true, if_false]
      -- What goes on goes on as it was.
      rw [if_neg]
      intro hc
      simp only [Bool.and_eq_true, Bool.not_eq_true'] at hc
      obtain ⟨⟨⟨hv, hb⟩, htk⟩, hw⟩ := hc
      obtain ⟨hv', hr⟩ := goes_on hv hb
      obtain ⟨hins, -⟩ := hh.goes_on hv' hr
      have htk' : taken c d ins n = false := by
        simp only [taken, hv, hb, Bool.not_false, Bool.true_and, Bool.or_eq_false_iff] at htk
        exact htk.1
      rw [hins] at hw
      simp [hv', htk', hw] at hu

/-! ### What the cache takes -/

lemma view_of_write (h : (path c d ins n).cache.pendingWriteThrough = true) :
    view c d ins n = Function.update (path c d ins n).mem.word
      (wordAddr (path c d ins n).cache.reqAddrReg) (path c d ins n).cache.reqWdataReg := by
  rw [view, DataPath.view, if_pos h]

lemma view_of_not_write (h : (path c d ins n).cache.pendingWriteThrough = false) :
    view c d ins n = (path c d ins n).mem.word := by
  rw [view, DataPath.view, h]
  rfl

lemma not_write_of_not_pending (h : (path c d ins n).cache.pending = false) :
    (path c d ins n).cache.pendingWriteThrough = false := by
  simp only [CacheData.pending, Bool.or_eq_false_iff] at h
  exact h.2

lemma view_of_not_pending (h : (path c d ins n).cache.pending = false) :
    view c d ins n = (path c d ins n).mem.word :=
  view_of_not_write (not_write_of_not_pending h)

/-- The word of a store under way has the size of a word. -/
lemma reqSize_of_write (hh : WordRequests c d ins) (n : ℕ) :
    (path c d ins n).cache.pendingWriteThrough = true →
      (path c d ins n).cache.reqSizeReg = memSizeWord := by
  induction n with
  | zero => intro h; cases h
  | succ n ih =>
    have hc := cache_succ c d ins n
    intro h
    rw [hc] at h ⊢
    cases CacheData.edge (path c d ins n).cache ((path c d ins n).cacheIn (ins n)) with
    | wait pending ready =>
      rw [CacheData.step_wait pending ready] at h ⊢
      exact ih h
    | refill read ready => rw [CacheData.step_refill read ready] at h; cases h
    | written read write ready => rw [CacheData.step_written read write ready] at h; cases h
    | rest pending takes =>
      rw [CacheData.step_rest pending takes] at h ⊢
      exact ih h
    | readHit pending takes ren hit =>
      rw [CacheData.step_readHit takes ren hit] at h ⊢
      exact ih h
    | readMiss pending takes ren hit =>
      rw [CacheData.step_readMiss takes ren hit] at h
      exact absurd h (by simp [not_write_of_not_pending pending])
    | write pending takes ren wen =>
      rw [CacheData.step_write takes ren wen]
      exact hh.size n (CacheData.of_takes takes).2.2

/-- **A store reaches the memory when it is taken**, and nothing else does. -/
theorem view_succ (hh : WordRequests c d ins) (n : ℕ) : view c d ins (n + 1) =
    if takes c d ins n && (ins n).wen then
      Function.update (view c d ins n) (wordAddr (ins n).addr) (ins n).wdata
    else view c d ins n := by
  have hc := cache_succ c d ins n
  have hserves := serves c d ins n
  have hmem := hserves.word_step_of_not_write (q := ins n)
  cases CacheData.edge (path c d ins n).cache ((path c d ins n).cacheIn (ins n)) with
  | wait pending ready =>
    have ht : takes c d ins n = false := not_takes_of_pending pending
    rw [CacheData.step_wait pending ready] at hc
    rw [ht, Bool.false_and, if_neg (by simp)]
    cases hw : (path c d ins n).cache.pendingWriteThrough
    · rw [view_of_not_write (by rw [hc]; exact hw), view_of_not_write hw, ← hmem hw]
      rfl
    · have hstore := hserves.word_step_of_write (q := ins n) hw (reqSize_of_write hh n hw)
      rw [view_of_write (by rw [hc]; exact hw), view_of_write hw, hc, path_succ, hstore]
      exact Function.update_idem _ _ _
  | refill read ready =>
    have ht : takes c d ins n = false :=
      not_takes_of_pending (CacheData.pending_of_read read)
    have hw := hserves.exclusive read
    rw [CacheData.step_refill read ready] at hc
    rw [ht, Bool.false_and, if_neg (by simp), view_of_not_write (by rw [hc]),
      view_of_not_write hw, ← hmem hw]
    rfl
  | written read write ready =>
    have ht : takes c d ins n = false :=
      not_takes_of_pending (CacheData.pending_of_write write)
    have hstore := hserves.word_step_of_write (q := ins n) write (reqSize_of_write hh n write)
    rw [CacheData.step_written read write ready] at hc
    rw [ht, Bool.false_and, if_neg (by simp), view_of_not_write (by rw [hc]), view_of_write write]
    exact hstore
  | rest pending takes =>
    have ht : DataRun.takes c d ins n = false := takes
    have hw := not_write_of_not_pending pending
    rw [CacheData.step_rest pending takes] at hc
    rw [ht, Bool.false_and, if_neg (by simp), view_of_not_write (by rw [hc]; exact hw),
      view_of_not_write hw, ← hmem hw]
    rfl
  | readHit pending takes ren hit =>
    have hw := not_write_of_not_pending pending
    have hwen := hh.not_wen_of_ren (CacheData.of_takes takes).2.2 ren
    rw [CacheData.step_readHit takes ren hit] at hc
    rw [hwen, Bool.and_false, if_neg (by simp), view_of_not_write (by rw [hc]; exact hw),
      view_of_not_write hw, ← hmem hw]
    rfl
  | readMiss pending takes ren hit =>
    have hw := not_write_of_not_pending pending
    have hwen := hh.not_wen_of_ren (CacheData.of_takes takes).2.2 ren
    rw [CacheData.step_readMiss takes ren hit] at hc
    rw [hwen, Bool.and_false, if_neg (by simp), view_of_not_write (by rw [hc]; exact hw),
      view_of_not_write hw, ← hmem hw]
    rfl
  | write pending takes ren wen =>
    have hw := not_write_of_not_pending pending
    have ht : DataRun.takes c d ins n = true := takes
    have hwen : (ins n).wen = true := wen
    rw [CacheData.step_write takes ren wen] at hc
    rw [ht, hwen, Bool.and_self, if_pos rfl, view_of_write (by rw [hc]), view_of_not_write hw,
      ← hmem hw, hc]
    rfl

/-- **A store that has been taken is under way or just completed.** -/
theorem taken_cases (hh : Handshake c d ins) (n : ℕ) : taken c d ins n = true →
    (ins n).wen = true →
    ((path c d ins n).cache.pendingWriteThrough = true ∧
      (path c d ins n).cache.reqAddrReg = (ins n).addr) ∨
    ((path c d ins n).cache.completedAddrValid = true ∧
      (path c d ins n).cache.completedAddr = (ins n).addr) := by
  induction n with
  | zero => intro h; cases h
  | succ n ih =>
    intro ht hwen
    simp only [taken, Bool.and_eq_true, Bool.not_eq_true', Bool.or_eq_true] at ht
    obtain ⟨⟨hv, hb⟩, ht⟩ := ht
    obtain ⟨hv', hr⟩ := goes_on hv hb
    have hins := (hh.goes_on hv' hr).1
    rw [hins] at hwen ⊢
    have hc := cache_succ c d ins n
    rcases ht with ht | ht
    · have hpw := ih ht hwen
      have hg := not_guard_of_not_ready hr
      rw [hg] at hpw
      obtain ⟨hw, ha⟩ : _ ∧ _ := hpw.resolve_right (by simp)
      have hp := CacheData.pending_of_write hw
      rcases step_of_pending hp with ⟨hx, -, -, hy⟩ | ⟨-, hx, hy⟩
      · exact .inl ⟨hx.trans hw, hy.trans ha⟩
      · exact .inr ⟨hx, hy.trans ha⟩
    · have hren : (ins n).ren = false := by
        have hk := hh.oneKind n hv'
        rw [hwen] at hk
        simpa using hk.symm
      left
      rw [CacheData.step_write ht hren hwen] at hc
      rw [hc]
      exact ⟨rfl, rfl⟩

lemma not_takes_of_taken (hh : Handshake c d ins) (ht : taken c d ins n = true)
    (hw : (ins n).wen = true) : takes c d ins n = false := by
  rcases taken_cases hh n ht hw with ⟨hp, -⟩ | ⟨hg, ha⟩
  · exact not_takes_of_pending (CacheData.pending_of_write hp)
  · exact not_takes_of_guard hg ha

/-! ### The stores are kept -/

/-- A store that is taken is settled then. -/
lemma settles_of_takes (hh : Handshake c d ins) (ht : takes c d ins n = true)
    (hw : (ins n).wen = true) : settles c d ins n = true := by
  have hv : (ins n).valid = true := (CacheData.of_takes ht).2.2
  cases htk : taken c d ins n
  · simp [settles, hv, hw, htk, ht]
  · rw [not_takes_of_taken hh htk hw] at ht
    cases ht

/-- A store settled without being taken is kept out by the guard. -/
lemma guard_of_settles (hs : settles c d ins n = true)
    (ht : takes c d ins n = false) :
    ((ins n).valid = true ∧ (ins n).wen = true ∧ taken c d ins n = false ∧
      ready c d ins n = true) ∧ (path c d ins n).cache.completedAddrValid = true ∧
      (path c d ins n).cache.completedAddr = (ins n).addr := by
  simp only [settles, ht, Bool.false_or, Bool.and_eq_true, Bool.not_eq_true'] at hs
  obtain ⟨⟨⟨hv, hw⟩, htk⟩, hr⟩ := hs
  refine ⟨⟨hv, hw, htk, hr⟩, ?_⟩
  have hp := (serves c d ins n).ready hr
  have hj : (path c d ins n).cache.justCompleted ((path c d ins n).cacheIn (ins n)) = true := by
    simpa [takes, CacheData.takes, hp, DataPath.cacheIn, hv, hw] using ht
  simp only [CacheData.justCompleted, Bool.and_eq_true, beq_iff_eq] at hj
  exact ⟨hj.1, hj.2.symm⟩

/-- **One cycle keeps the stores exactly when it drops none.** -/
theorem view_succ_eq_settled_iff (hh : WordRequests c d ins)
    (h : view c d ins n = settled c d ins n) :
    view c d ins (n + 1) = settled c d ins (n + 1) ↔ ¬ DropsStore c d ins n := by
  have hv := view_succ hh n
  cases hs : settles c d ins n
  · -- Nothing is settled, and no store is taken.
    have hset : settled c d ins (n + 1) = settled c d ins n := by simp [settled, hs]
    have ht : (takes c d ins n && (ins n).wen) = false := by
      by_contra ht
      rw [Bool.not_eq_false, Bool.and_eq_true] at ht
      rw [settles_of_takes hh.toHandshake ht.1 ht.2] at hs
      cases hs
    rw [hv, ht, hset]
    refine iff_of_true h ?_
    intro hd
    simp [settles, hd.valid, hd.wen, hd.notTaken, hd.ready] at hs
  · have hset : settled c d ins (n + 1) =
        Function.update (settled c d ins n) (wordAddr (ins n).addr) (ins n).wdata := by
      simp [settled, hs]
    cases ht : takes c d ins n
    · -- Answered and not taken: the memory has its word already, or it is lost.
      obtain ⟨⟨hval, hw, htk, hr⟩, hg, ha⟩ := guard_of_settles hs ht
      have hmem := view_of_not_pending ((serves c d ins n).ready hr)
      rw [hv, ht, Bool.false_and, if_neg (by simp), hset, ← h]
      constructor
      · intro he hd
        have hword := congrFun he (wordAddr (ins n).addr)
        rw [Function.update_self, hmem] at hword
        exact hd.wdata hword
      · intro hno
        have hd : (ins n).wdata = view c d ins n (wordAddr (ins n).addr) := by
          by_contra hd
          rw [hmem] at hd
          exact hno ⟨hval, hw, htk, hr, hg, ha, fun e => hd e.symm⟩
        rw [hd, Function.update_eq_self]
    · have hw : (ins n).wen = true := by
        simp only [settles, Bool.and_eq_true] at hs
        exact hs.1.1.2
      rw [hv, ht, hw, Bool.and_self, if_pos rfl, hset, h]
      refine iff_of_true rfl ?_
      intro hd
      rw [takes, CacheData.takes, CacheData.justCompleted] at ht
      simp [DataPath.cacheIn, hd.guard, hd.addr] at ht

lemma storesKept_iff (hh : Handshake c d ins) (n : ℕ) :
    StoresKept c d ins n ↔ view c d ins n = settled c d ins n := by
  constructor
  · exact fun h => h.underway
  · intro h
    refine ⟨h, ?_⟩
    intro hv hp
    rw [written_eq hh, hv, ← h, view_of_not_pending hp]
    rfl

/-- **The stores are kept exactly as long as none is dropped.** -/
theorem storesKept_iff_not_dropsStore (hh : WordRequests c d ins) (n : ℕ) :
    (∀ k ≤ n + 1, StoresKept c d ins k) ↔ ∀ k ≤ n, ¬ DropsStore c d ins k := by
  have hiff := forall_le_iff (P := fun k => view c d ins (k + 1) = settled c d ins (k + 1))
    (C := fun k => ¬ DropsStore c d ins k)
    (I := fun k => view c d ins k = settled c d ins k) rfl
    (fun k h hno => (view_succ_eq_settled_iff hh h).mpr hno)
    (fun k h => view_succ_eq_settled_iff hh h) n
  rw [← hiff]
  constructor
  · intro h k hk
    exact (h (k + 1) (by omega)).underway
  · intro h k hk
    rw [storesKept_iff hh.toHandshake]
    cases k with
    | zero => rfl
    | succ k => exact h k (by omega)

/-- A load that misses, and one that hits; then the words 1 and `v` are stored at address 4. -/
def storesAfterHit (v : BitVec 32) : ℕ → DataReq := fun n =>
  if n < 6 then .load 0#32 else if n < 7 then .store 4#32 1#32
  else if n < 10 then .store 4#32 v else .none

lemma storesAfterHit_end (v : BitVec 32) {n : ℕ} (hn : 10 ≤ n) :
    (storesAfterHit v n).valid = false := by
  rw [storesAfterHit, if_neg (by omega), if_neg (by omega), if_neg (by omega)]
  rfl

lemma wordRequests_of_end {N : ℕ} (hh : Handshake c d ins)
    (hend : ∀ n, N ≤ n → (ins n).valid = false)
    (hword : ∀ n < N, (ins n).valid = true →
      (ins n).size = memSizeWord ∧ (ins n).addr.toNat < 4096) : WordRequests c d ins where
  toHandshake := hh
  size n hv := by
    rcases Nat.lt_or_ge n N with hn | hn
    · exact (hword n hn hv).1
    · rw [hend n hn] at hv
      cases hv
  below n hv := by
    rcases Nat.lt_or_ge n N with hn | hn
    · exact (hword n hn hv).2
    · rw [hend n hn] at hv
      cases hv

/-- The same word stored twice may be dropped once. -/
theorem storesKept_iff_not_dropsStore_storesAfterHit :
    (∀ k ≤ 11, StoresKept .zero .zero (storesAfterHit 1#32) k) ↔
      ∀ k ≤ 10, ¬ DropsStore .zero .zero (storesAfterHit 1#32) k :=
  storesKept_iff_not_dropsStore (wordRequests_of_end (N := 10)
    (handshake_of_end (N := 10) (fun _ => storesAfterHit_end _) (by decide +kernel)
      (by decide +kernel)) (fun _ => storesAfterHit_end _) (by decide +kernel)) 10

/-- **A store is lost**: the memory is left with the 1 where 2 was stored after it. -/
theorem storesAfterHit_lost :
    ¬ ∀ c d ins, WordRequests c d ins → ∀ n, StoresKept c d ins n := by
  intro h
  have hw : WordRequests .zero .zero (storesAfterHit 2#32) :=
    wordRequests_of_end (N := 10)
      (handshake_of_end (N := 10) (fun _ => storesAfterHit_end _) (by decide +kernel)
        (by decide +kernel)) (fun _ => storesAfterHit_end _) (by decide +kernel)
  have hidle := congrFun ((h _ _ _ hw 10).idle rfl (by decide +kernel)) 1#10
  revert hidle
  decide +kernel

end DataRun

end RiscvSoc.Rtl
