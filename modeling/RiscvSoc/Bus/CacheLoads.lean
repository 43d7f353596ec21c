import RiscvSoc.Bus.CacheLines

/-!
# The loads through the data cache

With a pause after every request the answers and the requests keep together, no store is dropped,
and what a load gets is right as long as the valid lines are.
-/

namespace RiscvSoc.Rtl

open Sync

namespace DataRun

section Observer

variable (c : CacheData) (d : DataMem) (ins : ℕ → DataReq)

/-- **The core pauses** for two cycles after every request. -/
structure PausedRequests : Prop extends WordRequests c d ins where
  pause : ∀ n, (ins n).valid = true → ready c d ins n = true →
    (ins (n + 1)).valid = false ∧ (ins (n + 2)).valid = false

/-- **The cache is transparent to loads** in cycle `n`: a load that is answered gets the word that
the stores before it have left; and unless a store is under way, the words of every valid line are
those of the memory. -/
structure LoadsRight (n : ℕ) : Prop where
  load : (ins n).valid = true → (ins n).ren = true → ready c d ins n = true →
    (path c d ins n).cache.dmemRdataReg = written c d ins n (wordAddr (ins n).addr)
  line : (path c d ins n).cache.pendingWriteThrough = false →
    ∀ g w k, ((path c d ins n).cache.cacheAddr g w).valid = true →
      (path c d ins n).cache.cacheData g w k = (path c d ins n).mem.word
        (wordAddr (wordOfLine ((path c d ins n).cache.cacheAddr g w).addr k))

/-- **Where the core and the cache stand** in cycle `n` if the core pauses: nothing goes on; the
second answer of a hit comes while the core pauses; a request is at the memory; it is answered from
there; or a load is answered by a hit. -/
inductive PausedPhase (n : ℕ) : Prop
  | free (pending : (path c d ins n).cache.pending = false) (ready : ready c d ins n = false)
      (taken : taken c d ins n = false)
  | surplus (pending : (path c d ins n).cache.pending = false) (valid : (ins n).valid = false)
      (ready : ready c d ins n = true)
  | waiting (pending : (path c d ins n).cache.pending = true) (valid : (ins n).valid = true)
      (taken : taken c d ins n = true)
      (addr : (path c d ins n).cache.reqAddrReg = (ins n).addr)
      (read : (path c d ins n).cache.pendingReadMiss = (ins n).ren)
  | answered (valid : (ins n).valid = true) (taken : taken c d ins n = true)
      (ready : ready c d ins n = true)
      (guard : (path c d ins n).cache.completedAddrValid = true)
      (addr : (path c d ins n).cache.completedAddr = (ins n).addr)
      (rdata : (ins n).ren = true → (path c d ins n).cache.dmemRdataReg =
        (path c d ins n).mem.word (wordAddr (ins n).addr))
  | hit (valid : (ins n).valid = true) (ren : (ins n).ren = true)
      (taken : taken c d ins n = true) (ready : ready c d ins n = true)
      (guard : (path c d ins n).cache.completedAddrValid = false)
      (line : (path c d ins n).cache.hitsLine ((path c d ins n).cacheIn (ins n)) = true)
      (rdata : (path c d ins n).cache.dmemRdataReg =
        (path c d ins n).mem.word (wordAddr (ins n).addr))

end Observer

variable {c : CacheData} {d : DataMem} {ins : ℕ → DataReq} {n : ℕ}

/-! ### The phases -/

/-- A request that is taken and not answered at once goes on as one that has been taken. -/
lemma taken_succ (hh : Handshake c d ins) (ht : takes c d ins n = true)
    (hr : ready c d ins n = false) : taken c d ins (n + 1) = true := by
  have hv : (ins n).valid = true := (CacheData.of_takes ht).2.2
  obtain ⟨hins, hb⟩ := hh.goes_on hv hr
  rw [taken, hins, hv, hb, ht]
  simp

/-- The word that a hit finds is the word of the memory. -/
lemma LinesOk.hitWord (h : LinesOk c d ins n)
    (hp : (path c d ins n).cache.pending = false)
    (hit : (path c d ins n).cache.hitNow ((path c d ins n).cacheIn (ins n)) = true) :
    (path c d ins n).cache.hitWord ((path c d ins n).cacheIn (ins n)) =
      (path c d ins n).mem.word (wordAddr (ins n).addr) := by
  have hline : (path c d ins n).cache.hitsLine ((path c d ins n).cacheIn (ins n)) = true := by
    simp only [CacheData.hitNow, Bool.and_eq_true] at hit
    exact hit.2
  obtain ⟨hvw, ha⟩ := h.addr_of_hitsWay (CacheData.hitsWay_hitWay hline)
  have hw := (h.line _ _ hvw).words (lineWord (ins n).addr)
  rw [ha, wordAddr_wordOfLine, view_of_not_pending hp] at hw
  rw [CacheData.hitWord, if_pos hit]
  exact hw

/-- A free cache takes the request or stays free. -/
lemma step_of_free (hh : WordRequests c d ins) (hl : LinesOk c d ins n)
    (hp : (path c d ins n).cache.pending = false) (hr : ready c d ins n = false)
    (htk : taken c d ins n = false) : PausedPhase c d ins (n + 1) := by
  have hc := cache_succ c d ins n
  have hmem := (serves c d ins n).word_step_of_not_write (q := ins n)
    (not_write_of_not_pending hp)
  cases CacheData.edge (path c d ins n).cache ((path c d ins n).cacheIn (ins n)) with
  | wait pending _ => rw [hp] at pending; cases pending
  | refill read _ => simp [CacheData.pending, read] at hp
  | written _ write _ => simp [CacheData.pending, write] at hp
  | rest _ takes =>
    have ht : DataRun.takes c d ins n = false := takes
    obtain ⟨hp', hr'⟩ := step_of_rest hp ht
    exact .free hp' hr' (by simp [taken, htk, ht])
  | readHit _ takes ren hit =>
    have hv : (ins n).valid = true := (CacheData.of_takes takes).2.2
    have htk' := taken_succ hh.toHandshake takes hr
    have hins := (hh.toHandshake.goes_on hv hr).1
    have hword := hl.hitWord hp hit
    rw [CacheData.step_readHit takes ren hit] at hc
    refine .hit (by rw [hins, hv]) (by rw [hins]; exact ren) htk' (by simp [ready, hc])
      (by rw [hc]) ?_ ?_
    · simp only [CacheData.hitNow, Bool.and_eq_true] at hit
      rw [hc, hins]
      exact hit.2
    · have hsize : ((path c d ins n).cacheIn (ins n)).req.size = memSizeWord := hh.size n hv
      rw [hc, hins, path_succ, hmem, hsize, cacheReadData_word]
      exact hword
  | readMiss _ takes ren hit =>
    have hv : (ins n).valid = true := (CacheData.of_takes takes).2.2
    have htk' := taken_succ hh.toHandshake takes hr
    have hins := (hh.toHandshake.goes_on hv hr).1
    have hren : (ins n).ren = true := ren
    rw [CacheData.step_readMiss takes ren hit] at hc
    exact .waiting (by simp [hc, CacheData.pending]) (by rw [hins, hv]) htk'
      (by rw [hc, hins]; rfl) (by rw [hc, hins, hren])
  | write _ takes ren wen =>
    have hv : (ins n).valid = true := (CacheData.of_takes takes).2.2
    have htk' := taken_succ hh.toHandshake takes hr
    have hins := (hh.toHandshake.goes_on hv hr).1
    have hren : (ins n).ren = false := ren
    simp only [CacheData.pending, Bool.or_eq_false_iff] at hp
    rw [CacheData.step_write takes ren wen] at hc
    exact .waiting (by simp [hc, CacheData.pending]) (by rw [hins, hv]) htk'
      (by rw [hc, hins]; rfl) (by rw [hc, hins, hren]; exact hp.1)

/-- A request at the memory waits or is answered. -/
lemma step_of_waiting (hh : WordRequests c d ins)
    (hp : (path c d ins n).cache.pending = true) (hv : (ins n).valid = true)
    (htk : taken c d ins n = true) (ha : (path c d ins n).cache.reqAddrReg = (ins n).addr)
    (hread : (path c d ins n).cache.pendingReadMiss = (ins n).ren) :
    PausedPhase c d ins (n + 1) := by
  have hserves := serves c d ins n
  have hr : ready c d ins n = false := by
    by_contra hr
    rw [hserves.ready (by simpa [ready] using hr)] at hp
    cases hp
  obtain ⟨hins, hb⟩ := hh.toHandshake.goes_on hv hr
  have htk' : taken c d ins (n + 1) = true := by simp [taken, hins, hv, hb, htk]
  have hc := cache_succ c d ins n
  cases CacheData.edge (path c d ins n).cache ((path c d ins n).cacheIn (ins n)) with
  | wait pending ready =>
    rw [CacheData.step_wait pending ready] at hc
    exact .waiting (by rw [hc]; exact pending) (by rw [hins, hv]) htk' (by rw [hc, hins]; exact ha)
      (by rw [hc, hins]; exact hread)
  | refill read ready =>
    have hmem := hserves.word_step_of_not_write (q := ins n) (hserves.exclusive read)
    have hdata := hserves.answer read ready
    rw [CacheData.step_refill read ready] at hc
    refine .answered (by rw [hins, hv]) htk' (by simp [DataRun.ready, hc]) (by rw [hc])
      (by rw [hc, hins]; exact ha) ?_
    intro _
    rw [hc, hserves.readSize read, cacheReadData_word, hins, path_succ, hmem, ← ha]
    exact hdata
  | written read write ready =>
    rw [CacheData.step_written read write ready] at hc
    refine .answered (by rw [hins, hv]) htk' (by simp [DataRun.ready, hc]) (by rw [hc])
      (by rw [hc, hins]; exact ha) ?_
    intro hren
    rw [hins, ← hread, read] at hren
    cases hren
  | rest pending _ => rw [hp] at pending; cases pending
  | readHit pending _ _ _ => rw [hp] at pending; cases pending
  | readMiss pending _ _ _ => rw [hp] at pending; cases pending
  | write pending _ _ _ => rw [hp] at pending; cases pending

/-- A load answered by a hit hits once more. -/
lemma step_of_hit (hh : PausedRequests c d ins) (hv : (ins n).valid = true)
    (hren : (ins n).ren = true) (hr : ready c d ins n = true)
    (hg : (path c d ins n).cache.completedAddrValid = false)
    (hline : (path c d ins n).cache.hitsLine ((path c d ins n).cacheIn (ins n)) = true) :
    PausedPhase c d ins (n + 1) := by
  have hp := (serves c d ins n).ready hr
  have ht := takes_of_free hh.toHandshake hp hg hv
  have hit : (path c d ins n).cache.hitNow ((path c d ins n).cacheIn (ins n)) = true := by
    have hv' : ((path c d ins n).cacheIn (ins n)).req.valid = true := hv
    have hren' : ((path c d ins n).cacheIn (ins n)).req.ren = true := hren
    simp [CacheData.hitNow, hv', hren', hp, hline]
  have hc := cache_succ c d ins n
  rw [CacheData.step_readHit ht hren hit] at hc
  exact .surplus (by rw [hc]; exact hp) (hh.pause n hv hr).1 (by simp [ready, hc])

/-- **One cycle of the phases.** -/
theorem PausedPhase.step (h : PausedPhase c d ins n) (hh : PausedRequests c d ins)
    (hl : LinesOk c d ins n) : PausedPhase c d ins (n + 1) := by
  have hserves := serves c d ins n
  cases h with
  | free pending ready taken => exact step_of_free hh.toWordRequests hl pending ready taken
  | surplus pending valid ready =>
    obtain ⟨hp, hr⟩ := step_of_rest pending (not_takes_of_invalid valid)
    exact .free hp hr (taken_succ_of_ready ready)
  | waiting pending valid taken addr read =>
    exact step_of_waiting hh.toWordRequests pending valid taken addr read
  | answered valid taken ready guard addr rdata =>
    obtain ⟨hp, hr⟩ := step_of_rest (hserves.ready ready) (not_takes_of_guard guard addr)
    exact .free hp hr (taken_succ_of_ready ready)
  | hit valid ren taken ready guard line rdata =>
    exact step_of_hit hh valid ren ready guard line

/-- A core that pauses drops no store. -/
lemma PausedPhase.not_dropsStore (h : PausedPhase c d ins n) : ¬ DropsStore c d ins n := by
  intro hd
  cases h with
  | free _ ready _ => rw [hd.ready] at ready; cases ready
  | surplus _ valid _ => rw [hd.valid] at valid; cases valid
  | waiting _ _ taken _ _ => rw [hd.notTaken] at taken; cases taken
  | answered _ taken _ _ _ _ => rw [hd.notTaken] at taken; cases taken
  | hit _ _ taken _ _ _ _ => rw [hd.notTaken] at taken; cases taken

/-- A load that is answered gets the word of the memory. -/
lemma PausedPhase.rdata (h : PausedPhase c d ins n) (hv : (ins n).valid = true)
    (hren : (ins n).ren = true) (hr : ready c d ins n = true) :
    (path c d ins n).cache.dmemRdataReg =
      (path c d ins n).mem.word (wordAddr (ins n).addr) := by
  cases h with
  | free _ ready _ => rw [hr] at ready; cases ready
  | surplus _ valid _ => rw [hv] at valid; cases valid
  | waiting pending _ _ _ _ =>
    rw [(serves c d ins n).ready hr] at pending
    cases pending
  | answered _ _ _ _ _ rdata => exact rdata hren
  | hit _ _ _ _ _ _ rdata => exact rdata

lemma pausedPhase_zero : PausedPhase c d ins 0 := .free rfl rfl rfl

/-! ### The loads -/

/-- What the refills that find the rest of their lines keep. -/
structure Transparent (c : CacheData) (d : DataMem) (ins : ℕ → DataReq) (n : ℕ) : Prop where
  lines : LinesOk c d ins n
  phase : PausedPhase c d ins n
  kept : view c d ins n = settled c d ins n

lemma transparent_zero : Transparent c d ins 0 := ⟨linesOk_zero, pausedPhase_zero, rfl⟩

lemma Transparent.step (h : Transparent c d ins n) (hh : PausedRequests c d ins)
    (hrest : FindsRest c d ins n) : Transparent c d ins (n + 1) where
  lines := h.lines.step hh.toWordRequests hrest
  phase := h.phase.step hh h.lines
  kept := (view_succ_eq_settled_iff hh.toWordRequests h.kept).mpr h.phase.not_dropsStore

lemma Transparent.loadsRight (h : Transparent c d ins n) (hh : PausedRequests c d ins) :
    LoadsRight c d ins n where
  load hv hren hr := by
    have hp := (serves c d ins n).ready hr
    have hwen := hh.not_wen_of_ren hv hren
    rw [h.phase.rdata hv hren hr, written_eq hh.toHandshake, hwen, Bool.and_false,
      if_neg (by simp), ← h.kept, view_of_not_pending hp]
  line hw g w k hv := by
    rw [(h.lines.line g w hv).words k, view_of_not_write hw]

/-- A refill that leaves its line right has found the rest of it. -/
lemma findsRest_of_line (h : LoadsRight c d ins (n + 1)) : FindsRest c d ins n := by
  intro hread hready k hk
  have hserves := serves c d ins n
  have hmem := hserves.word_step_of_not_write (q := ins n) (hserves.exclusive hread)
  have hoff := (hserves.refill hread).2
  have hc := cache_succ c d ins n
  rw [CacheData.step_refill hread hready] at hc
  have hline := h.line (by rw [hc]) (path c d ins n).cache.refillGroupIndex
    (path c d ins n).cache.refillWay k
  rw [hc, path_succ, hmem] at hline
  simp only [CacheData.setWord, Function.update_self, hoff, Function.update_of_ne hk,
    forall_const] at hline
  exact hline

/-- **The cache is transparent to loads exactly as long as every refill finds the rest of its
line.** -/
theorem loadsRight_iff_findsRest (hh : PausedRequests c d ins) (n : ℕ) :
    (∀ k ≤ n + 1, LoadsRight c d ins k) ↔ ∀ k ≤ n, FindsRest c d ins k := by
  have hiff := forall_le_iff (P := fun k => LoadsRight c d ins (k + 1))
    (C := fun k => FindsRest c d ins k) (I := fun k => Transparent c d ins k)
    transparent_zero (fun _ h hrest => h.step hh hrest)
    (fun _ h => ⟨findsRest_of_line, fun hrest => (h.step hh hrest).loadsRight hh⟩) n
  rw [← hiff]
  constructor
  · intro h k hk
    exact h (k + 1) (by omega)
  · intro h k hk
    cases k with
    | zero => exact transparent_zero.loadsRight hh
    | succ k => exact h k (by omega)

/-- The words 0 and 1 of a line are loaded, with a pause of two cycles. -/
def loadLine : ℕ → DataReq := fun n =>
  if n < 4 then .load 0#32 else if n < 6 then .none else if n < 8 then .load 4#32 else .none

lemma loadLine_end {n : ℕ} (hn : 8 ≤ n) : (loadLine n).valid = false := by
  rw [loadLine, if_neg (by omega), if_neg (by omega), if_neg (by omega)]
  rfl

lemma pausedRequests_of_end {N : ℕ} (hh : WordRequests c d ins)
    (hend : ∀ n, N ≤ n → (ins n).valid = false)
    (hpause : ∀ n < N, (ins n).valid = true → ready c d ins n = true →
      (ins (n + 1)).valid = false ∧ (ins (n + 2)).valid = false) : PausedRequests c d ins where
  toWordRequests := hh
  pause n hv hr := by
    rcases Nat.lt_or_ge n N with hn | hn
    · exact hpause n hn hv hr
    · rw [hend n hn] at hv
      cases hv

/-- From a memory of zeros the two loads get what they should. -/
theorem loadsRight_iff_findsRest_loadLine :
    (∀ k ≤ 9, LoadsRight .zero .zero loadLine k) ↔ ∀ k ≤ 8, FindsRest .zero .zero loadLine k :=
  loadsRight_iff_findsRest (pausedRequests_of_end (N := 8)
    (wordRequests_of_end (N := 8) (handshake_of_end (N := 8) (fun _ => loadLine_end)
      (by decide +kernel) (by decide +kernel)) (fun _ => loadLine_end) (by decide +kernel))
    (fun _ => loadLine_end) (by decide +kernel)) 8

/-- A memory with a 1 at address 4. -/
def oneAtFour : DataMem := { DataMem.zero with mem0 := Function.update (fun _ => 0#8) 1#10 1#8 }

/-- **A load gets what the cache held before reset** instead of the 1 of the memory. -/
theorem loadLine_stale : ¬ ∀ c d ins, PausedRequests c d ins → ∀ n, LoadsRight c d ins n := by
  intro h
  have hp : PausedRequests .zero oneAtFour loadLine :=
    pausedRequests_of_end (N := 8)
      (wordRequests_of_end (N := 8) (handshake_of_end (N := 8) (fun _ => loadLine_end)
        (by decide +kernel) (by decide +kernel)) (fun _ => loadLine_end) (by decide +kernel))
      (fun _ => loadLine_end) (by decide +kernel)
  have hload := (h _ _ _ hp 7).load rfl rfl (by decide +kernel)
  revert hload
  decide +kernel

end DataRun

end RiscvSoc.Rtl
