import RiscvSoc.Bus.CachePort
import RiscvSoc.Pipeline.SlowMemory
import RiscvSoc.Rtl.SocTopDcache

/-!
# Scheduled programs through the data cache

`soc_top_bram_dcache` runs a scheduled program like the system without the cache, if its loads keep
to one word of each line: the other words of a line that has been refilled are not right.
-/

namespace RiscvSoc.Rtl

open Isa Sync SocBram

/-- The words of the data memory that the interpreter loads. -/
def Loads (image : BitVec 10 → BitVec 32) (mem : BitVec 12 → BitVec 8) (x : BitVec 10) : Prop :=
  ∃ m i a, decode ((memRun image mem m).fetch image) = some i ∧ i.isLoad = true ∧
    i.memAddr ((memRun image mem m).operand i.rs1?) = some a ∧ wordAddr a = x

/-- **The accesses suit the data cache**: they are below address 4096, and the loads keep to one
word of each line. -/
structure SuitsDcache (image : BitVec 10 → BitVec 32) (mem : BitVec 12 → BitVec 8) : Prop where
  below : ∀ m i a, decode ((memRun image mem m).fetch image) = some i →
    i.memAddr ((memRun image mem m).operand i.rs1?) = some a → a.toNat < 4096
  onePerLine : OnePerLine (Loads image mem)

namespace SocDcache

variable {image : BitVec 10 → BitVec 32} {s : SocDcache} {σ : MemState} {w : ℕ}
  {U : BitVec 10 → Prop} {mem : BitVec 12 → BitVec 8}

/-! ### What the core sees -/

/-- The words below the cache and the outputs of the cache, as a `data_mem`. -/
def seen (s : SocDcache) : SocBram :=
  ⟨s.core, .showing s.data.view s.dcache.dmemReadyReg s.dcache.dmemRdataReg⟩

lemma seen_word (s : SocDcache) : s.seen.dmem.word = s.data.view := DataMem.showing_word _ _ _

variable (image s) in
lemma coreIn_eq : s.coreIn image .quiet = s.seen.fetchPins image alwaysReady := by
  have hdata : s.seen.dmem.dataOut = s.dcache.dmemRdataReg := DataMem.showing_dataOut _ _ _
  rw [fetchPins, hdata]
  rfl

variable (image s) in
lemma seen_step : (s.step image .quiet).core = (s.seen.fetchStep image alwaysReady).core := by
  rw [step, coreIn_eq]
  rfl

/-- **The data side is right**, and the request of the core is one that it can serve. -/
structure DataInv (U : BitVec 10 → Prop) (s : SocDcache) : Prop where
  loads : s.data.LoadsOk U
  asks : DataPath.Asks U s.req
  stands : s.data.Stands s.req

/-- The words after a cycle are those after a cycle of `data_mem`. -/
lemma DataInv.word_step (h : DataInv U s) : (s.step image .quiet).seen.dmem.word =
    (s.seen.fetchStep image alwaysReady).dmem.word := by
  have hview : (s.step image .quiet).data.view = _ := h.stands.view_step h.loads h.asks
  have hwen : (s.req.valid && s.req.wen) = s.core.exMem.memWriteEn := by
    have hv : s.req.valid = (s.core.exMem.memWriteEn || s.core.exMem.memReadEn) := rfl
    have hw : s.req.wen = s.core.exMem.memWriteEn := rfl
    rw [hv, hw]
    cases s.core.exMem.memWriteEn <;> simp
  rw [fetch_word, seen_word, hview, hwen, memView, seen_word]
  rfl

/-! ### Runs -/

/-- How many cycles the access in EX/MEM waits longer than it does for `data_mem`. -/
def waits (s : SocDcache) : ℕ :=
  if s.core.dmemValid && !s.dcache.dmemReadyReg then s.data.left else 0

/-- The simulation relation with the cache, at a state that the interpreter reaches. -/
structure Follows (image : BitVec 10 → BitVec 32) (mem : BitVec 12 → BitVec 8) (w : ℕ)
    (s : SocDcache) (σ : MemState) : Prop where
  data : DataInv (Loads image mem) s
  runs : ∃ w', Runs image w' s.seen σ ∧ w = w' + s.waits
  reached : ∃ j, σ = memRun image mem j

/-- A request of the core is for a word. -/
lemma asks_of_access (hone : s.core.exMem.memReadEn = true → s.core.exMem.memWriteEn = false)
    (hbelow : s.core.dmemValid = true → s.core.exMem.memAddr.toNat < 4096)
    (hload : s.core.exMem.memReadEn = true → U (wordAddr s.core.exMem.memAddr)) :
    DataPath.Asks U s.req := by
  refine ⟨?_, fun _ => rfl, hbelow, fun _ => hload⟩
  intro hv
  have hv' : (s.core.exMem.memWriteEn || s.core.exMem.memReadEn) = true := hv
  have hw : s.req.wen = s.core.exMem.memWriteEn := rfl
  have hr : s.req.ren = s.core.exMem.memReadEn := rfl
  rw [hw, hr]
  cases hm : s.core.exMem.memReadEn
  · simpa [hm] using hv'
  · simpa using hone hm

section Cycle

variable (hS : Scheduled image) (hF : AccessesFit image mem) (hD : SuitsDcache image mem)

variable (image s) in
/-- What the core sees after a cycle: its state after a cycle over `data_mem`, with another
memory. -/
lemma seen_eq : (s.step image .quiet).seen =
    ⟨(s.seen.fetchStep image alwaysReady).core, (s.step image .quiet).seen.dmem⟩ := by
  rw [← seen_step]
  rfl

variable (image) in
lemma reached_iterate (j k : ℕ) :
    ∃ n, (MemState.step image)^[k] (memRun image mem j) = memRun image mem n :=
  ⟨k + j, (Function.iterate_add_apply _ k j _).symm⟩

include hD

/-- The request after a cycle without one. -/
lemma Follows.asks_step (hS : Scheduled image) (h : Follows image mem w s σ)
    (hv : s.core.dmemValid = false) {w' : ℕ} {τ : MemState}
    (hR : Runs image w' (s.seen.fetchStep image alwaysReady) τ) :
    DataPath.Asks (Loads image mem) (s.step image .quiet).req := by
  obtain ⟨-, ⟨v, hR0, -⟩, j, rfl⟩ := h
  have hcore := seen_step image s
  cases hv' : (s.step image .quiet).core.dmemValid
  · refine asks_of_access ?_ (fun hc => by simp [hv'] at hc) ?_
    · rw [hcore]
      exact hR.single
    · intro hr
      simp [Core.dmemValid, hr] at hv'
  · rw [hcore] at hv'
    obtain ⟨i, a, hi, ha, haddr, hread⟩ := hR0.access_step hS hv hv'
    refine asks_of_access ?_ ?_ ?_
    · rw [hcore]
      exact hR.single
    · intro _
      rw [hcore, haddr]
      exact hD.below j i a hi ha
    · rw [hcore, haddr, hread]
      exact fun hl => ⟨j, i, a, hi, hl, ha, rfl⟩

include hS hF

/-- Without an access in EX/MEM. -/
lemma Follows.matched_none (h : Follows image mem w s σ) (hv : s.core.dmemValid = false) :
    Matched (MemState.step image) (MemState.shown image) (Follows image mem) 5 w
      (s.core.retired (s.coreIn image .quiet)) (s.step image .quiet) σ := by
  have hword : (s.step image .quiet).seen.dmem.word =
    (s.seen.fetchStep image alwaysReady).dmem.word := h.data.word_step
  have hasks : ∀ {w' : ℕ} {τ : MemState}, Runs image w' (s.seen.fetchStep image alwaysReady) τ →
      DataPath.Asks (Loads image mem) (s.step image .quiet).req :=
    fun hR => h.asks_step hD hS hv hR
  obtain ⟨hI, ⟨v, hR, rfl⟩, j, rfl⟩ := h
  obtain ⟨k, w', hret, hR', hpay⟩ := hR.step hS (f := alwaysReady) nofun (hF j)
  obtain ⟨hstands, hready⟩ : (s.step image .quiet).data.Stands (s.step image .quiet).req ∧
    (s.step image .quiet).dcache.dmemReadyReg = false := hI.stands.step_none hv
  have hsame : (s.seen.fetchStep image alwaysReady).dmem.readyReg = false := hv
  have hshown : (s.step image .quiet).seen.dmem.readyReg = false := hready
  have hseen : Runs image w' (s.step image .quiet).seen
      ((MemState.step image)^[k] (memRun image mem j)) := by
    rw [seen_eq]
    refine hR'.withMem hword (fun _ => hshown.trans hsame.symm) ?_
    intro _ hc
    simp [hshown] at hc
  refine ⟨k, _, by rw [coreIn_eq]; exact hret,
    ⟨⟨hI.loads.step hD.onePerLine hI.asks, hasks hR', hstands⟩, ⟨w', hseen, rfl⟩,
      reached_iterate image j k⟩, ?_⟩
  have hpay' := hpay.resolve_right fun hc => by cases hc.1
  have hw : s.waits = 0 := by simp [waits, hv]
  rw [hw, waits]
  cases hv' : (s.step image .quiet).core.dmemValid
  · simp
    omega
  · -- An access that comes has been executed by the interpreter.
    have hnew : w' = 2 := (hseen.access_asked (f := alwaysReady) hv' hshown).1
    have hv2 := hR.le_two
    have hleft : (s.step image .quiet).data.left ≤ 2 := by
      unfold DataPath.left
      split_ifs <;> omega
    rw [hready]
    simp only [Bool.not_false, Bool.and_self, if_true]
    omega

omit hS hF in
/-- With an access that waits. -/
lemma Follows.matched_asked (h : Follows image mem w s σ) (hv : s.core.dmemValid = true)
    (hr : s.dcache.dmemReadyReg = false) :
    Matched (MemState.step image) (MemState.shown image) (Follows image mem) 5 w
      (s.core.retired (s.coreIn image .quiet)) (s.step image .quiet) σ := by
  have hword : (s.step image .quiet).seen.dmem.word =
    (s.seen.fetchStep image alwaysReady).dmem.word := h.data.word_step
  obtain ⟨hI, ⟨v, hR, rfl⟩, j, rfl⟩ := h
  obtain ⟨rfl, hret, hheld, hR'⟩ := hR.access_asked (f := alwaysReady) hv hr
  have hexMem : (s.step image .quiet).core.exMem = s.core.exMem := by
    rw [seen_step]
    exact hheld
  have hreq : (s.step image .quiet).req = s.req := by
    simp only [req, Core.dmemValid, Core.dmemRen, Core.dmemWen, Core.dmemAddr, Core.dmemWdata,
      hexMem]
  have hv' : (s.step image .quiet).core.dmemValid = true := by
    rw [Core.dmemValid, hexMem]
    exact hv
  obtain ⟨hstands, hleft⟩ := hI.stands.step_held hI.loads hI.asks hv hr
  have hdata : (s.step image .quiet).data = s.data.step s.req := rfl
  have hinv : DataInv (Loads image mem) (s.step image .quiet) := by
    refine ⟨hI.loads.step hD.onePerLine hI.asks, ?_, ?_⟩
    · rw [hreq]
      exact hI.asks
    · rw [hreq]
      exact hstands
  have hwait : s.waits = s.data.left := by simp [waits, hv, hr]
  cases hr' : (s.step image .quiet).dcache.dmemReadyReg
  · have hseen : Runs image 2 (s.step image .quiet).seen (memRun image mem j) := by
      rw [seen_eq]
      exact hR'.delay (by rw [← seen_step]; exact hv') hword hr'
    refine ⟨0, _, by rw [coreIn_eq]; exact hret, ⟨hinv, ⟨2, hseen, rfl⟩, j, rfl⟩, ?_⟩
    have hless : (s.step image .quiet).data.left + 1 = s.data.left :=
      hleft.resolve_left fun hc => by
        have hr'' : (s.data.step s.req).cache.dmemReadyReg = false := hr'
        simp [hr''] at hc
    rw [hwait]
    simp only [waits, hv', hr', Bool.not_false, Bool.and_self, if_true]
    omega
  · have hseen : Runs image 1 (s.step image .quiet).seen (memRun image mem j) := by
      rw [seen_eq]
      refine hR'.withMem hword (fun _ => ?_) ?_
      · have hvalid : (s.seen.fetchStep image alwaysReady).dmem.readyReg = true := hv
        exact hr'.trans hvalid.symm
      · intro hread _
        rw [← seen_step] at hread ⊢
        rw [seen_word]
        exact (DataMem.showing_dataOut _ _ _).trans
          (hinv.stands.rdata hinv.loads hv' hr' hread)
    refine ⟨0, _, by rw [coreIn_eq]; exact hret, ⟨hinv, ⟨1, hseen, rfl⟩, j, rfl⟩, ?_⟩
    simp only [waits, hv', hr', Bool.not_true, Bool.and_false, Bool.false_eq_true, if_false]
    omega

/-- With an access that has been answered. -/
lemma Follows.matched_served (h : Follows image mem w s σ) (hv : s.core.dmemValid = true)
    (hr : s.dcache.dmemReadyReg = true) :
    Matched (MemState.step image) (MemState.shown image) (Follows image mem) 5 w
      (s.core.retired (s.coreIn image .quiet)) (s.step image .quiet) σ := by
  have hword : (s.step image .quiet).seen.dmem.word =
    (s.seen.fetchStep image alwaysReady).dmem.word := h.data.word_step
  obtain ⟨hI, ⟨v, hR, rfl⟩, j, rfl⟩ := h
  obtain ⟨k, w', hret, hR', hpay⟩ := hR.step hS (f := alwaysReady) nofun (hF j)
  have hgone : (s.step image .quiet).core.dmemValid = false := by
    rw [seen_step]
    exact hR.access_served hv hr
  have hread : (s.step image .quiet).core.exMem.memReadEn = false := by
    simp only [Core.dmemValid, Bool.or_eq_false_iff] at hgone
    exact hgone.2
  have hinv : DataInv (Loads image mem) (s.step image .quiet) := by
    refine ⟨hI.loads.step hD.onePerLine hI.asks, ?_,
      hI.stands.step_gone hI.loads hI.asks hv hr hgone⟩
    exact asks_of_access (fun hc => by simp [hread] at hc) (fun hc => by simp [hgone] at hc)
      (fun hc => by simp [hread] at hc)
  have hseen : Runs image w' (s.step image .quiet).seen
      ((MemState.step image)^[k] (memRun image mem j)) := by
    rw [seen_eq]
    rw [seen_step] at hgone hread
    exact hR'.withMem hword (fun hc => by simp [hgone] at hc) (fun hc => by simp [hread] at hc)
  refine ⟨k, _, by rw [coreIn_eq]; exact hret, ⟨hinv, ⟨w', hseen, rfl⟩, reached_iterate image j k⟩,
    ?_⟩
  have hpay' := hpay.resolve_right fun hc => by cases hc.1
  have hw' : (s.step image .quiet).waits = 0 := by simp [waits, hgone]
  omega

/-- **A cycle of the system is matched by the interpreter.** -/
theorem Follows.matched (h : Follows image mem w s σ) :
    Matched (MemState.step image) (MemState.shown image) (Follows image mem) 5 w
      (s.core.retired (s.coreIn image .quiet)) (s.step image .quiet) σ := by
  cases hv : s.core.dmemValid
  · exact h.matched_none hS hF hD hv
  · cases hr : s.dcache.dmemReadyReg
    · exact h.matched_asked hD hv hr
    · exact h.matched_served hS hF hD hv hr

end Cycle

/-- **A system that is where the interpreter is**, as the core sees it; and with nothing under way
the memory itself has the bytes of the interpreter. -/
structure Agrees (s : SocDcache) (σ : MemState) : Prop where
  seen : SocBram.Agrees s.seen σ
  landed : Landed s.seen → bytes s.dmem.word = σ.mem

lemma DataInv.agrees (h : DataInv U s) (hR : Runs image w s.seen σ) : Agrees s σ := by
  have hseen := hR.views.agrees
  refine ⟨hseen, ?_⟩
  intro hl
  have hv : s.req.valid = false := by
    have hvalid : s.req.valid = (s.core.exMem.memWriteEn || s.core.exMem.memReadEn) := rfl
    have hw : s.core.exMem.memWriteEn = false := hl.memWriteEn
    have hr : s.core.exMem.memReadEn = false := hl.memReadEn
    rw [hvalid, hw, hr]
    rfl
  have hp : s.data.cache.pending = false := by
    cases h.stands with
    | rest pending => exact pending
    | waiting _ valid => simp [hv] at valid
    | answered valid => simp [hv] at valid
    | hit valid => simp [hv] at valid
  have hbytes : bytes s.seen.dmem.word = σ.mem := (hseen.landed hl).2
  rwa [seen_word, DataPath.view_of_not_pending hp] at hbytes

variable (image) in
/-- What the system has retired before cycle `n`. -/
def retiredTrace (c : CacheData) (d : DataMem) (n : ℕ) : List Rec :=
  (machine image c d).history (fun s x => s.core.retired (s.coreIn image x)) (fun _ => .quiet) n

lemma follows_reset (image : BitVec 10 → BitVec 32) (c : CacheData) (d : DataMem) :
    Follows image (bytes d.word) 2 ⟨Core.reset, c.reset, d.reset⟩
      (MemState.init (bytes d.word)) := by
  refine ⟨⟨DataPath.loadsOk_reset _ c d, ?_, .rest rfl fun _ => rfl⟩, ⟨2, ?_, rfl⟩, 0, rfl⟩
  · exact asks_of_access nofun nofun nofun
  · have hR := runs_reset image d
    refine hR.withMem (d := _) ?_ nofun nofun
    exact DataMem.showing_word _ _ _

/-- **A scheduled program runs through the data cache as it should**, whatever the cache held
before reset and whichever ways it gives up, if its loads keep to one word of each line. -/
theorem dcache_refines (hS : Scheduled image) {d : DataMem}
    (hF : AccessesFit image (bytes d.word)) (hD : SuitsDcache image (bytes d.word)) (c : CacheData)
    (n : ℕ) :
    ∃ m, retiredTrace image c d n = memTrace image (bytes d.word) m ∧ n ≤ 5 * m + 2 ∧
      Agrees (quietRun image c d n) (memRun image (bytes d.word) m) := by
  have href : ∃ m w, retiredTrace image c d n = memTrace image (bytes d.word) m ∧
      Follows image (bytes d.word) w (quietRun image c d n) (memRun image (bytes d.word) m) ∧
      n + w ≤ 5 * m + 2 :=
    refines (m := machine image c d) (follows_reset image c d)
      (fun _ _ _ h => h.matched hS hF hD) n
  obtain ⟨m, w, htr, ⟨hI, ⟨w', hR, -⟩, -⟩, hw⟩ := href
  exact ⟨m, htr, by omega, hI.agrees hR⟩

/-- **The data cache changes the time and nothing else**: what the system with it has retired the
one without retires too, and the other way round. -/
theorem dcache_invisible (hS : Scheduled image) {d : DataMem}
    (hF : AccessesFit image (bytes d.word)) (hD : SuitsDcache image (bytes d.word))
    (c : CacheData) :
    (∀ n, ∃ n', retiredTrace image c d n <+: SocBram.retiredTrace image d n') ∧
      ∀ n, ∃ n', SocBram.retiredTrace image d n <+: retiredTrace image c d n' := by
  have hmono : ∀ m m', m ≤ m' →
      memTrace image (bytes d.word) m <+: memTrace image (bytes d.word) m' :=
    fun _ _ => memTrace_prefix image (bytes d.word)
  constructor
  · intro n
    obtain ⟨m, hm, -, -⟩ := dcache_refines hS hF hD c n
    rw [hm]
    refine exists_prefix_of_pace (K := 3) (c := 2) (by omega) hmono ?_ m
    intro n'
    obtain ⟨m', hm', hle, -⟩ := scheduled_refines hS hF n'
    exact ⟨m', hm', hle⟩
  · intro n
    obtain ⟨m, hm, -, -⟩ := scheduled_refines hS hF n
    rw [hm]
    refine exists_prefix_of_pace (K := 5) (c := 2) (by omega) hmono ?_ m
    intro n'
    obtain ⟨m', hm', hle, -⟩ := dcache_refines hS hF hD c n'
    exact ⟨m', hm', hle⟩

/-- The counter loads and stores at address 0. -/
lemma memAddr_counter (m : ℕ) {i : Instr} {a : BitVec 32}
    (hi : decode ((memRun counter mem m).fetch counter) = some i)
    (ha : i.memAddr ((memRun counter mem m).operand i.rs1?) = some a) : a = 0#32 := by
  have hz := memRun_regs_zero counter mem m
  rcases counter_cases (wordAddr (memRun counter mem m).pc) with
    ⟨-, h⟩ | ⟨-, h⟩ | ⟨-, h⟩ | ⟨_, _, _, _, h⟩ <;> cases h.symm.trans hi
  · simpa [Instr.memAddr, Instr.rs1?, State.operand, hz] using ha.symm
  · simpa [Instr.memAddr, Instr.rs1?, State.operand, hz] using ha.symm
  · cases ha
  · cases ha

lemma suitsDcache_counter (mem : BitVec 12 → BitVec 8) : SuitsDcache counter mem := by
  refine ⟨?_, ?_⟩
  · intro m i a hi ha
    rw [memAddr_counter m hi ha]
    decide
  · rintro x y ⟨m, i, a, hi, -, ha, rfl⟩ ⟨m', i', a', hi', -, ha', rfl⟩ -
    rw [memAddr_counter m hi ha, memAddr_counter m' hi' ha']

/-- The counter through a data cache of zeros, after a hundred cycles. -/
theorem dcache_refines_counter :
    ∃ m, retiredTrace counter .zero .zero 100 =
        memTrace counter (bytes DataMem.zero.word) m ∧ 100 ≤ 5 * m + 2 ∧
      Agrees (quietRun counter .zero .zero 100) (memRun counter (bytes DataMem.zero.word) m) :=
  dcache_refines scheduled_counter (accessesFit_counter _) (suitsDcache_counter _) .zero 100

/-- The counter retires the same through the data cache. -/
theorem dcache_invisible_counter :
    (∀ n, ∃ n', retiredTrace counter .zero .zero n <+: SocBram.retiredTrace counter .zero n') ∧
      ∀ n, ∃ n', SocBram.retiredTrace counter .zero n <+: retiredTrace counter .zero .zero n' :=
  dcache_invisible scheduled_counter (accessesFit_counter _) (suitsDcache_counter _) .zero

end SocDcache

end RiscvSoc.Rtl
