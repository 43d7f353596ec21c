import RiscvSoc.Bus.AxiChannels

/-!
# The write data waits for the write address

`axi_if_dmem_master` raises WVALID in the cycle after the AW handshake.  So the cycle of its first
WVALID is that of the slave's AWREADY and one, and a slave that first waits for WVALID, as it may,
waits for ever.
-/

namespace RiscvSoc.Rtl

open Sync

namespace AxiDmem

section Runs

variable (ins ins' : ℕ → AxiDmemIn)

/-- Two runs differ in AWREADY only. -/
def SameButAwready : Prop := ∀ n, ins' n = { ins n with awready := (ins' n).awready }

/-- WVALID is first asserted in cycle `n`. -/
def FirstWvalid (n : ℕ) : Prop :=
  (machine.run ins n).wvalid = true ∧ ∀ k < n, (machine.run ins k).wvalid = false

/-- The first write waits for AWREADY in cycle `n`: no address has been accepted before. -/
def AwaitsAwready (n : ℕ) : Prop :=
  (machine.run ins n).state = .wAw ∧
    ∀ k < n, (machine.run ins k).state = .wAw → (ins k).awready = false

/-- The slave raises AWREADY only once it has seen WVALID. -/
def AwreadyAfterWvalid : Prop :=
  ∀ n, (ins n).awready = true → ∃ k ≤ n, (machine.run ins k).wvalid = true

/-- The master takes a store in cycle `n`. -/
def TakesStore (n : ℕ) : Prop :=
  (machine.run ins n).state = .idle ∧ (ins n).dmemValid = true ∧ (ins n).dmemWen = true ∧
    (ins n).dmemRen = false

/-- Every store leaves `S_W_AW`. -/
def LeavesAw : Prop :=
  ∀ n, (machine.run ins n).state = .wAw → ∃ m > n, (machine.run ins m).state ≠ .wAw

end Runs

variable {ins ins' : ℕ → AxiDmemIn} {r : AxiDmem} {i : AxiDmemIn} {n : ℕ}

/-! ### One cycle -/

/-- AWREADY decides nothing outside `S_W_AW`. -/
lemma step_congr_awready (hs : r.state ≠ .wAw) (a : Bool) :
    r.step { i with awready := a } = r.step i := by
  cases h : r.state with
  | wAw => exact absurd h hs
  | _ => simp [AxiDmem.step, h, stepIdle]

/-- The state after an edge. -/
lemma state_step (r : AxiDmem) (i : AxiDmemIn) : (r.step i).state = match r.state with
    | .idle =>
      if i.dmemValid && i.dmemRen then .rAr else if i.dmemValid && i.dmemWen then .wAw else .idle
    | .rAr => if r.arvalid && i.arready then .rR else .rAr
    | .rR => if i.rvalid && r.rready then .idle else .rR
    | .wAw => if r.awvalid && i.awready then .wW else .wAw
    | .wW => if r.wvalid && i.wready then .wB else .wW
    | .wB => if i.bvalid && r.bready then .idle else .wB := by
  cases hs : r.state <;> simp only [AxiDmem.step, stepIdle, hs] <;> split_ifs <;> rfl

/-- A store comes to `S_W_AW` from `S_IDLE`. -/
lemma state_step_eq_wAw (h : (r.step i).state = .wAw) : r.state = .wAw ∨
    (r.state = .idle ∧ i.dmemValid = true ∧ i.dmemWen = true ∧ i.dmemRen = false) := by
  rw [state_step] at h
  cases hs : r.state with
  | wAw => exact .inl rfl
  | idle =>
    right
    simp only [hs] at h
    split_ifs at h with hr hw
    simp only [Bool.and_eq_true, not_and, Bool.not_eq_true] at hr hw
    exact ⟨rfl, hw.1, hw.2, hr hw.1⟩
  | _ =>
    simp only [hs] at h
    split_ifs at h

/-- The data comes up after the AW handshake. -/
lemma state_step_eq_wW (h : (r.step i).state = .wW) :
    r.state = .wW ∨ (r.state = .wAw ∧ i.awready = true) := by
  rw [state_step] at h
  cases hs : r.state with
  | wW => exact .inl rfl
  | wAw =>
    right
    simp only [hs] at h
    split_ifs at h with ha
    simp only [Bool.and_eq_true] at ha
    exact ⟨rfl, ha.2⟩
  | _ =>
    simp only [hs] at h
    split_ifs at h

lemma wvalid_iff (n : ℕ) :
    (machine.run ins n).wvalid = true ↔ (machine.run ins n).state = .wW := by
  rw [(wires_run ins n).wvalid, decide_eq_true_eq]

/-- In `S_W_AW` the data comes up in the cycle after AWREADY. -/
lemma wvalid_succ_of_wAw (hs : (machine.run ins n).state = .wAw) :
    (machine.run ins (n + 1)).wvalid = (ins n).awready := by
  have ha := (wires_run ins n).awvalid
  have hw := (wires_run ins n).wvalid
  rw [hs] at ha hw
  have hstep : machine.run ins (n + 1) = (machine.run ins n).step (ins n) := rfl
  cases hr : (ins n).awready
  · rw [run_of_offer ins (.inr (.inl ⟨hs, hr⟩))]
    exact hw
  · rw [hstep, step_of_awready hs ha hr]

/-- No data has come up as long as no address has been accepted. -/
lemma not_wvalid_iff (n : ℕ) : (∀ k ≤ n, (machine.run ins k).wvalid = false) ↔
    ∀ k < n, (machine.run ins k).state = .wAw → (ins k).awready = false := by
  constructor
  · intro h k hk hs
    rw [← wvalid_succ_of_wAw hs]
    exact h (k + 1) hk
  · intro h k hk
    induction k with
    | zero => rfl
    | succ k ih =>
      by_contra hc
      rcases state_step_eq_wW ((wvalid_iff (k + 1)).mp (by simpa using hc)) with hw | ⟨hs, ha⟩
      · have hv := ih (by omega)
        rw [(wvalid_iff k).mpr hw] at hv
        cases hv
      · rw [h k hk hs] at ha
        cases ha

/-- The first WVALID comes in the cycle after AWREADY. -/
lemma AwaitsAwready.firstWvalid_succ (h : AwaitsAwready ins n) :
    FirstWvalid ins (n + 1) ↔ (ins n).awready = true := by
  obtain ⟨hs, hno⟩ := h
  have hbefore := (not_wvalid_iff n).mpr hno
  rw [FirstWvalid, wvalid_succ_of_wAw hs]
  exact ⟨And.left, fun hr => ⟨hr, fun k hk => hbefore k (by omega)⟩⟩

/-! ### Two runs -/

/-- **Two runs stay together** until both raise WVALID, as long as AWREADY is the same while the
first write waits for it. -/
lemma run_eq_or_firstWvalid (h : SameButAwready ins ins')
    (hC : ∀ k < n, AwaitsAwready ins k → (ins k).awready = (ins' k).awready) :
    (∀ k ≤ n, machine.run ins' k = machine.run ins k) ∨
      ∃ k < n, FirstWvalid ins k ∧ FirstWvalid ins' k := by
  induction n with
  | zero =>
    left
    intro k hk
    rw [Nat.le_zero.mp hk]
    rfl
  | succ n ih =>
    rcases ih fun k hk => hC k (Nat.lt_succ_of_lt hk) with heq | ⟨k, hk, hf⟩
    · by_cases hw : ∃ k, k ≤ n ∧ (machine.run ins k).wvalid = true
      · right
        obtain ⟨hkn, hkw⟩ := Nat.find_spec hw
        have hmin : ∀ j < Nat.find hw, (machine.run ins j).wvalid = false := by
          intro j hj
          by_contra hc
          exact Nat.find_min hw hj ⟨by omega, by simpa using hc⟩
        refine ⟨Nat.find hw, by omega, ⟨hkw, hmin⟩, ?_, ?_⟩
        · rw [heq _ hkn]
          exact hkw
        · intro j hj
          rw [heq j (by omega)]
          exact hmin j hj
      · left
        have hquiet : ∀ k ≤ n, (machine.run ins k).wvalid = false := by
          intro k hk
          by_contra hc
          exact hw ⟨k, hk, by simpa using hc⟩
        have hno := (not_wvalid_iff n).mp hquiet
        intro k hk
        rcases Nat.lt_or_ge k (n + 1) with hlt | hge
        · exact heq k (by omega)
        · have hkn : k = n + 1 := by omega
          rw [hkn, Machine.run_succ, Machine.run_succ, heq n le_rfl, h n]
          by_cases hs : (machine.run ins n).state = .wAw
          · rw [← hC n (Nat.lt_succ_self n) ⟨hs, hno⟩]
          · exact step_congr_awready hs _
    · exact .inr ⟨k, Nat.lt_succ_of_lt hk, hf⟩

lemma FirstWvalid.eq {m : ℕ} (h : FirstWvalid ins n) (h' : FirstWvalid ins m) : n = m :=
  first_unique (P := fun k => (machine.run ins k).wvalid = true) h.1
    (fun k hk => by rw [h.2 k hk]; simp) h'.1 (fun k hk => by rw [h'.2 k hk]; simp)

/-- Runs that agree up to a cycle agree on what the first write has done there. -/
lemma firstWvalid_congr (h : ∀ k ≤ n, machine.run ins' k = machine.run ins k) :
    FirstWvalid ins' n ↔ FirstWvalid ins n := by
  have hb : (∀ k < n, (machine.run ins' k).wvalid = false) ↔
      ∀ k < n, (machine.run ins k).wvalid = false :=
    forall₂_congr fun k hk => by rw [h k (Nat.le_of_lt hk)]
  rw [FirstWvalid, FirstWvalid, h n le_rfl, hb]

/-- **When the first WVALID does not depend on AWREADY.** -/
lemma firstWvalid_iff (h : SameButAwready ins ins') :
    (∀ n, FirstWvalid ins n ↔ FirstWvalid ins' n) ↔
      ∀ n, AwaitsAwready ins n → (ins n).awready = (ins' n).awready := by
  constructor
  · intro hf n
    induction n using Nat.strongRecOn with
    | ind n ih =>
      intro hw
      rcases run_eq_or_firstWvalid h ih with heq | ⟨k, hk, hk', -⟩
      · have hw' : AwaitsAwready ins' n := by
          refine ⟨by rw [heq n le_rfl]; exact hw.1, (not_wvalid_iff n).mp ?_⟩
          intro k hk
          rw [heq k hk]
          exact (not_wvalid_iff n).mpr hw.2 k hk
        rw [Bool.eq_iff_iff, ← hw.firstWvalid_succ, ← hw'.firstWvalid_succ]
        exact hf (n + 1)
      · have hno := (not_wvalid_iff n).mpr hw.2 k (Nat.le_of_lt hk)
        rw [hk'.1] at hno
        cases hno
  · intro hC n
    rcases run_eq_or_firstWvalid (n := n) h fun k _ => hC k with heq | ⟨k, hk, hw, hw'⟩
    · exact (firstWvalid_congr heq).symm
    · constructor
      · intro hn
        rw [hn.eq hw] at hk
        omega
      · intro hn
        rw [hn.eq hw'] at hk
        omega

/-! ### A slave that waits for WVALID -/

/-- Such a slave never sees it. -/
lemma AwreadyAfterWvalid.not_wvalid (h : AwreadyAfterWvalid ins) (n : ℕ) :
    ∀ k ≤ n, (machine.run ins k).wvalid = false := by
  induction n with
  | zero =>
    intro k hk
    rw [Nat.le_zero.mp hk]
    rfl
  | succ n ih =>
    intro k hk
    rcases Nat.lt_or_ge k (n + 1) with hlt | hge
    · exact ih k (by omega)
    · have hkn : k = n + 1 := by omega
      rw [hkn]
      by_contra hc
      have hs := (wvalid_iff (n + 1)).mp (by simpa using hc)
      rcases state_step_eq_wW hs with hw | ⟨-, ha⟩
      · have hv := ih n le_rfl
        rw [(wvalid_iff n).mpr hw] at hv
        cases hv
      · obtain ⟨k, hk, hv⟩ := h n ha
        rw [ih k hk] at hv
        cases hv

/-- So a store in `S_W_AW` stays there. -/
lemma AwreadyAfterWvalid.stuck (h : AwreadyAfterWvalid ins)
    (hs : (machine.run ins n).state = .wAw) (k : ℕ) :
    (machine.run ins (n + k)).state = .wAw := by
  induction k with
  | zero => exact hs
  | succ k ih =>
    have ha : (ins (n + k)).awready = false := by
      by_contra hc
      obtain ⟨j, hj, hv⟩ := h (n + k) (by simpa using hc)
      rw [h.not_wvalid (n + k) j hj] at hv
      cases hv
    rw [← Nat.add_assoc, run_of_offer ins (.inr (.inl ⟨ih, ha⟩))]
    exact ih

/-- **When no store is stuck.** -/
lemma AwreadyAfterWvalid.leavesAw_iff (h : AwreadyAfterWvalid ins) :
    LeavesAw ins ↔ ∀ n, ¬ TakesStore ins n := by
  constructor
  · rintro hl n ⟨hs, hv, hw, hr⟩
    have hs' : (machine.run ins (n + 1)).state = .wAw := by
      have hstep : machine.run ins (n + 1) = (machine.run ins n).step (ins n) := rfl
      rw [hstep, step_of_idle hs]
      simp [stepIdle, hv, hw, hr]
    obtain ⟨m, hm, hne⟩ := hl (n + 1) hs'
    obtain ⟨k, rfl⟩ := Nat.exists_eq_add_of_lt hm
    exact hne (h.stuck hs' (k + 1))
  · intro hno n hs
    have hnever : ∀ n, (machine.run ins n).state ≠ .wAw := by
      intro n
      induction n with
      | zero => exact fun hc => by cases hc
      | succ n ih =>
        intro hc
        rcases state_step_eq_wAw hc with hw | ht
        · exact ih hw
        · exact hno n ht
    exact absurd hs (hnever n)

/-- **When write data does not wait for the write address**: the cycle of the first WVALID is the
same in two runs that differ in AWREADY exactly when AWREADY is the same in every cycle in which
the first write waits for it; and over a slave that raises AWREADY only after WVALID a store leaves
`S_W_AW` exactly when there is none. -/
theorem write_data_free_iff (ins ins' : ℕ → AxiDmemIn) :
    (SameButAwready ins ins' → ((∀ n, FirstWvalid ins n ↔ FirstWvalid ins' n) ↔
      ∀ n, AwaitsAwready ins n → (ins n).awready = (ins' n).awready)) ∧
    (AwreadyAfterWvalid ins → (LeavesAw ins ↔ ∀ n, ¬ TakesStore ins n)) :=
  ⟨firstWvalid_iff, AwreadyAfterWvalid.leavesAw_iff⟩

/-- A store is asked for; AWREADY is high from cycle `t` on, if ever. -/
def storeUntil (t : Option ℕ) : ℕ → AxiDmemIn := fun n =>
  ⟨true, false, true, 0#32, 0#32, t.any fun t => decide (t ≤ n), true, true, true, 0#32, true⟩

lemma sameButAwready_storeUntil (t t' : Option ℕ) :
    SameButAwready (storeUntil t) (storeUntil t') := fun _ => rfl

lemma awreadyAfterWvalid_storeUntil : AwreadyAfterWvalid (storeUntil none) := by
  intro n hn
  cases hn

/-- A slave that never raises AWREADY, and one that does from cycle 1 on. -/
theorem write_data_free_iff_storeUntil :
    ((∀ n, FirstWvalid (storeUntil none) n ↔ FirstWvalid (storeUntil (some 1)) n) ↔
      ∀ n, AwaitsAwready (storeUntil none) n →
        (storeUntil none n).awready = (storeUntil (some 1) n).awready) ∧
    (LeavesAw (storeUntil none) ↔ ∀ n, ¬ TakesStore (storeUntil none) n) := by
  have h := write_data_free_iff (storeUntil none) (storeUntil (some 1))
  exact ⟨h.1 (sameButAwready_storeUntil _ _), h.2 awreadyAfterWvalid_storeUntil⟩

/-- **The write data waits**: with AWREADY high from cycle 1 on WVALID comes in cycle 2, with
AWREADY high from cycle 2 on it does not; and a slave that waits for WVALID leaves the store in
`S_W_AW`. -/
theorem storeUntil_waits :
    (¬ ∀ ins ins', SameButAwready ins ins' → ∀ n, FirstWvalid ins n ↔ FirstWvalid ins' n) ∧
      ¬ ∀ ins, AwreadyAfterWvalid ins → LeavesAw ins := by
  constructor
  · intro h
    have hf := h _ _ (sameButAwready_storeUntil (some 1) (some 2)) 2
    have h1 : FirstWvalid (storeUntil (some 1)) 2 := ⟨by decide +kernel, by decide +kernel⟩
    have h2 := (hf.mp h1).1
    revert h2
    decide +kernel
  · intro h
    have hno := awreadyAfterWvalid_storeUntil.leavesAw_iff.mp (h _ awreadyAfterWvalid_storeUntil) 0
    exact hno ⟨rfl, rfl, rfl, rfl⟩

end AxiDmem

end RiscvSoc.Rtl
