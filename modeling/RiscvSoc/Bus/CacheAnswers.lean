import RiscvSoc.Bus.DataCache

/-!
# The answers of the data cache

A request that goes to the memory is taken once and answered once: in the cycle of the answer the
cache knows it by its address.  A load that hits is answered at once, has no such guard, and is
taken again in the cycle of its answer.
-/

namespace RiscvSoc.Rtl

open Sync

namespace DataRun

section Observer

variable (c : CacheData) (d : DataMem) (ins : ℕ → DataReq)

/-- How many requests have been presented, the one of cycle `n` included. -/
def number : ℕ → ℕ
  | 0 => if begins c d ins 0 then 1 else 0
  | n + 1 => number n + if begins c d ins (n + 1) then 1 else 0

/-- The requests taken before cycle `n`, by their numbers, oldest first. -/
def accepted : ℕ → List ℕ
  | 0 => []
  | n + 1 => accepted n ++ if takes c d ins n then [number c d ins n] else []

/-- The requests whose cycle had `dmem_ready` high, before cycle `n`. -/
def answers : ℕ → List ℕ
  | 0 => []
  | n + 1 => answers n ++ if ready c d ins n then [number c d ins n] else []

/-- **One answer a request** in cycle `n`: there have been no more answers than requests; no
request has been taken twice, and one that is over has been taken once; and an answer is for the
request of its cycle, which has been taken before and not been answered. -/
structure OneAnswer (n : ℕ) : Prop where
  length : (answers c d ins (n + 1)).length ≤ number c d ins n
  atMost : ∀ m, (accepted c d ins (n + 1)).count m ≤ 1
  once : ∀ m, 1 ≤ m → m < number c d ins n ∨ (m = number c d ins n ∧ ready c d ins n = true) →
    (accepted c d ins (n + 1)).count m = 1
  own : ready c d ins n = true → (ins n).valid = true ∧
    number c d ins n ∈ accepted c d ins n ∧ number c d ins n ∉ answers c d ins n

/-- **A load hits**: the cache takes a load whose line it holds. -/
structure LoadHits (n : ℕ) : Prop where
  takes : takes c d ins n = true
  ren : (ins n).ren = true
  hit : (path c d ins n).cache.hitNow ((path c d ins n).cacheIn (ins n)) = true

/-- **Where the request of the cycle is**, after `m` requests that are over: there is none or it
has just come, or it is at the memory, or it is answered. -/
inductive Phase (n m : ℕ) : Prop
  | free (pending : (path c d ins n).cache.pending = false) (ready : ready c d ins n = false)
      (number : number c d ins n = m + if (ins n).valid then 1 else 0)
      (accepted : accepted c d ins n = List.range' 1 m)
      (answers : answers c d ins n = List.range' 1 m)
  | waiting (pending : (path c d ins n).cache.pending = true) (ready : ready c d ins n = false)
      (valid : (ins n).valid = true)
      (addr : (path c d ins n).cache.reqAddrReg = (ins n).addr)
      (number : number c d ins n = m + 1) (accepted : accepted c d ins n = List.range' 1 (m + 1))
      (answers : answers c d ins n = List.range' 1 m)
  | answered (ready : ready c d ins n = true) (valid : (ins n).valid = true)
      (guard : (path c d ins n).cache.completedAddrValid = true)
      (addr : (path c d ins n).cache.completedAddr = (ins n).addr)
      (number : number c d ins n = m + 1) (accepted : accepted c d ins n = List.range' 1 (m + 1))
      (answers : answers c d ins n = List.range' 1 m)

end Observer

variable {c : CacheData} {d : DataMem} {ins : ℕ → DataReq} {n m : ℕ}

/-! ### One cycle -/

lemma number_succ_of_goes_on (h : begins c d ins (n + 1) = false) :
    number c d ins (n + 1) = number c d ins n := by
  simp [number, h]

lemma range'_succ_append (m : ℕ) : List.range' 1 m ++ [m + 1] = List.range' 1 (m + 1) := by
  rw [List.range'_1_concat, Nat.add_comm 1 m]

lemma accepted_succ_of_not (h : takes c d ins n = false) :
    accepted c d ins (n + 1) = accepted c d ins n := by
  simp [accepted, h]

lemma answers_succ_of_not (h : ready c d ins n = false) :
    answers c d ins (n + 1) = answers c d ins n := by
  simp [answers, h]

/-- What is taken and does not hit goes to the memory. -/
lemma pending_step_of_takes (ht : takes c d ins n = true) (hno : ¬ LoadHits c d ins n) :
    (path c d ins (n + 1)).cache.pending = true ∧ ready c d ins (n + 1) = false ∧
      (path c d ins (n + 1)).cache.reqAddrReg = (ins n).addr := by
  have hc := cache_succ c d ins n
  cases CacheData.edge (path c d ins n).cache ((path c d ins n).cacheIn (ins n)) with
  | wait pending _ => rw [not_takes_of_pending pending] at ht; cases ht
  | refill read _ =>
    rw [not_takes_of_pending (CacheData.pending_of_read read)] at ht
    cases ht
  | written _ write _ =>
    rw [not_takes_of_pending (CacheData.pending_of_write write)] at ht
    cases ht
  | rest _ takes => exact absurd (ht.symm.trans takes) (by simp)
  | readHit _ takes ren hit => exact absurd ⟨takes, ren, hit⟩ hno
  | readMiss _ takes ren hit =>
    rw [CacheData.step_readMiss takes ren hit] at hc
    exact ⟨by simp [hc, CacheData.pending], by simp [ready, hc], by rw [hc]; rfl⟩
  | write _ takes ren wen =>
    rw [CacheData.step_write takes ren wen] at hc
    exact ⟨by simp [hc, CacheData.pending], by simp [ready, hc], by rw [hc]; rfl⟩

/-- **One cycle without a load that hits.** -/
theorem Phase.step (hh : Handshake c d ins) (h : Phase c d ins n m)
    (hno : ¬ LoadHits c d ins n) : ∃ m', Phase c d ins (n + 1) m' := by
  cases h with
  | free pending ready number accepted answers =>
    have hans := (answers_succ_of_not ready).trans answers
    cases hv : (ins n).valid
    · have ht := not_takes_of_invalid (c := c) (d := d) hv
      obtain ⟨hp, hr⟩ := step_of_rest pending ht
      refine ⟨m, .free hp hr ?_ ((accepted_succ_of_not ht).trans accepted) hans⟩
      rw [DataRun.number, number, hv, begins, hv]
      simp
    · have ht := takes_of_free hh pending (not_guard_of_not_ready ready) hv
      obtain ⟨hp, hr, ha⟩ := pending_step_of_takes ht hno
      obtain ⟨hins, hb⟩ := hh.goes_on hv ready
      rw [hv, if_pos rfl] at number
      refine ⟨m, .waiting hp hr ?_ ?_ ?_ ?_ hans⟩
      · rw [hins, hv]
      · rw [ha, hins]
      · rw [number_succ_of_goes_on hb, number]
      · rw [DataRun.accepted, ht, if_pos rfl, accepted, number, range'_succ_append]
  | waiting pending ready valid addr number accepted answers =>
    have ht := not_takes_of_pending pending
    have hans := (answers_succ_of_not ready).trans answers
    have hacc := (accepted_succ_of_not ht).trans accepted
    obtain ⟨hins, hb⟩ := hh.goes_on valid ready
    have hnum := (number_succ_of_goes_on hb).trans number
    have hv : (ins (n + 1)).valid = true := by rw [hins, valid]
    rcases step_of_pending pending with ⟨-, hp, hr, ha⟩ | ⟨hr, hg, ha⟩
    · exact ⟨m, .waiting hp hr hv (by rw [ha, addr, hins]) hnum hacc hans⟩
    · exact ⟨m, .answered hr hv hg (by rw [ha, addr, hins]) hnum hacc hans⟩
  | answered ready valid guard addr number accepted answers =>
    have ht := not_takes_of_guard guard addr
    obtain ⟨hp, hr⟩ := step_of_rest ((serves c d ins n).ready ready) ht
    refine ⟨m + 1, .free hp hr ?_ ((accepted_succ_of_not ht).trans accepted) ?_⟩
    · rw [DataRun.number, number, begins_succ_of_ready ready]
    · rw [DataRun.answers, ready, if_pos rfl, answers, number, range'_succ_append]

/-! ### One answer a request -/

/-- Every request that has come has been taken once. -/
lemma Phase.accepted_succ (hh : Handshake c d ins) (h : Phase c d ins n m) :
    accepted c d ins (n + 1) = List.range' 1 (number c d ins n) := by
  cases h with
  | free pending ready number accepted answers =>
    cases hv : (ins n).valid
    · rw [accepted_succ_of_not (not_takes_of_invalid hv), accepted, number, hv]
      rfl
    · have ht := takes_of_free hh pending (not_guard_of_not_ready ready) hv
      rw [hv, if_pos rfl] at number
      rw [DataRun.accepted, ht, if_pos rfl, accepted, number, range'_succ_append]
  | waiting pending ready valid addr number accepted answers =>
    rw [accepted_succ_of_not (not_takes_of_pending pending), accepted, number]
  | answered ready valid guard addr number accepted answers =>
    rw [accepted_succ_of_not (not_takes_of_guard guard addr), accepted, number]

/-- **In every phase the answers are right so far.** -/
theorem Phase.oneAnswer (hh : Handshake c d ins) (h : Phase c d ins n m) :
    OneAnswer c d ins n := by
  have hacc := h.accepted_succ hh
  refine ⟨?_, ?_, ?_, ?_⟩
  · cases h with
    | free pending ready number accepted answers =>
      rw [answers_succ_of_not ready, answers, number, List.length_range']
      omega
    | waiting pending ready valid addr number accepted answers =>
      rw [answers_succ_of_not ready, answers, number, List.length_range']
      omega
    | answered ready valid guard addr number accepted answers =>
      have hlen : (DataRun.answers c d ins (n + 1)).length = m + 1 := by
        rw [DataRun.answers, ready, if_pos rfl, answers, number, range'_succ_append,
          List.length_range']
      omega
  · intro j
    rw [hacc, List.count_range_1']
    split_ifs <;> omega
  · intro j h1 hj
    rw [hacc, List.count_range_1', if_pos]
    omega
  · intro hr
    cases h with
    | free pending ready _ _ _ => rw [ready] at hr; cases hr
    | waiting pending ready _ _ _ _ _ => rw [ready] at hr; cases hr
    | answered ready valid guard addr number accepted answers =>
      refine ⟨valid, ?_, ?_⟩
      · rw [accepted, number, List.mem_range'_1]
        omega
      · rw [answers, number, List.mem_range'_1]
        omega

/-- **A load that hits is taken twice**: nothing keeps it out in the cycle of its answer. -/
theorem Phase.not_oneAnswer_of_loadHits (hh : Handshake c d ins) (h : Phase c d ins n m)
    (hl : LoadHits c d ins n) : ¬ OneAnswer c d ins (n + 1) := by
  intro ho
  have hacc := h.accepted_succ hh
  cases h with
  | free pending ready number accepted answers =>
    have hv : (ins n).valid = true := (CacheData.of_takes hl.takes).2.2
    obtain ⟨hins, hb⟩ := hh.goes_on hv ready
    have hc := cache_succ c d ins n
    rw [CacheData.step_readHit hl.takes hl.ren hl.hit] at hc
    have hp : (path c d ins (n + 1)).cache.pending = false := by rw [hc]; exact pending
    have ht : takes c d ins (n + 1) = true :=
      takes_of_free hh hp (by rw [hc]) (by rw [hins, hv])
    have hnum := number_succ_of_goes_on hb
    rw [hv, if_pos rfl] at number
    have hcount := ho.atMost (m + 1)
    rw [DataRun.accepted, ht, if_pos rfl, hacc, hnum, number, List.count_append,
      List.count_range_1'] at hcount
    simp at hcount
  | waiting pending _ _ _ _ _ _ =>
    have ht := hl.takes
    rw [not_takes_of_pending pending] at ht
    cases ht
  | answered _ _ guard addr _ _ _ =>
    have ht := hl.takes
    rw [not_takes_of_guard guard addr] at ht
    cases ht

lemma phase_zero : Phase c d ins 0 0 := by
  refine .free rfl rfl ?_ rfl rfl
  rw [number, begins]
  simp

/-- **Each request is answered once exactly as long as no load hits.** -/
theorem oneAnswer_iff_not_loadHits (hh : Handshake c d ins) (n : ℕ) :
    (∀ k ≤ n + 1, OneAnswer c d ins k) ↔ ∀ k ≤ n, ¬ LoadHits c d ins k := by
  have hiff := forall_le_iff (P := fun k => OneAnswer c d ins (k + 1))
    (C := fun k => ¬ LoadHits c d ins k) (I := fun k => ∃ m, Phase c d ins k m)
    ⟨0, phase_zero⟩ (fun k ⟨_, h⟩ hno => h.step hh hno)
    (fun k ⟨_, h⟩ => ⟨fun ho hl => h.not_oneAnswer_of_loadHits hh hl ho, fun hno =>
      let ⟨_, h'⟩ := h.step hh hno
      h'.oneAnswer hh⟩) n
  rw [← hiff]
  constructor
  · intro h k hk
    exact h (k + 1) (by omega)
  · intro h k hk
    cases k with
    | zero => exact phase_zero.oneAnswer hh
    | succ k => exact h k (by omega)

/-- A load that misses, and another of the same word. -/
def loadTwice : ℕ → DataReq := fun n => if n < 6 then .load 0#32 else .none

lemma handshake_loadTwice : Handshake .zero .zero loadTwice := by
  refine handshake_of_end (N := 6) ?_ (by decide +kernel) (by decide +kernel)
  intro n hn
  rw [loadTwice, if_neg (by omega)]
  rfl

/-- The first load is answered in cycle 3. -/
theorem oneAnswer_iff_not_loadHits_loadTwice :
    (∀ k ≤ 4, OneAnswer .zero .zero loadTwice k) ↔ ∀ k ≤ 3, ¬ LoadHits .zero .zero loadTwice k :=
  oneAnswer_iff_not_loadHits handshake_loadTwice 3

/-- **Answered twice**: the second load is taken in cycle 4, and again in cycle 5. -/
theorem loadTwice_takenTwice : ¬ ∀ c d ins, Handshake c d ins → ∀ n, OneAnswer c d ins n := by
  intro h
  have hc := (h _ _ _ handshake_loadTwice 5).atMost 2
  revert hc
  decide +kernel

end DataRun

end RiscvSoc.Rtl
