import RiscvSoc.Pipeline.IcacheFetch

/-!
# `soc_top_bram_icache` refines the interpreter

With the schedule for the instruction cache a program runs through the cache as it should, and a
fetch that misses makes it wait for five cycles at most.
-/

namespace RiscvSoc.Rtl

open Isa Sync SocBram

/-! ### The front registers -/

section Front

variable {image : BitVec 10 → BitVec 32} {s : SocBram} {f : ImemIn} {σ : MemState} {w : ℕ}

/-- IF/ID holds a bubble, or the word before the one that is fetched. -/
lemma SocBram.Runs.ifId_cases (h : Runs image w s σ) :
    s.core.ifId = IfIdReg.bubble ∨ ∃ pc, FrontAt (instMem image) s.core pc := by
  cases h.stage with
  | empty ifId => exact .inl ifId
  | fetched front => exact .inr ⟨_, front⟩
  | asked front => exact .inr ⟨_, front⟩
  | served front => exact .inr ⟨_, front⟩
  | full front => exact .inr ⟨_, front⟩

/-- EX holds nothing, or the instruction before the one in ID. -/
lemma SocBram.Runs.idEx_cases (h : Runs image w s σ) :
    ExIdle s.core ∨ ∃ pc, FrontAt (instMem image) s.core (pc + 4#32) ∧
      s.core.idEx = decodedOf (fetchedAt (instMem image) pc) ∧ Free s := by
  cases h.stage with
  | empty _ _ exIdle => exact .inl exIdle
  | fetched _ exIdle => exact .inl exIdle
  | asked _ exIdle => exact .inl exIdle
  | served _ exIdle => exact .inl exIdle
  | full front idEx _ _ _ _ _ _ _ free => exact .inr ⟨_, front, idEx, free⟩

/-- What IF/ID holds after a cycle, if it is valid: what it held, or the word at the PC. -/
lemma SocBram.ifId_step (hv : (s.fetchStep image f).core.ifId.instrValidOut = true) :
    ((s.fetchStep image f).core.ifId = s.core.ifId ∧
        (s.fetchStep image f).core.pcReg = s.core.pcReg) ∨
      ((s.fetchStep image f).core.ifId.idPc = s.core.pcReg ∧
        (s.fetchStep image f).core.pcReg = s.core.pcReg + 4#32) := by
  have hifId : (s.fetchStep image f).core.ifId = s.core.ifId.step
      (s.core.stallFront (s.fetchPins image f)) (s.core.flushIfid (s.fetchPins image f))
      (s.core.fetched (s.fetchPins image f)) := rfl
  cases hfl : s.core.flushIfid (s.fetchPins image f)
  · have hflush := hfl
    rw [fetchPins, Core.flushIfid_pins, ← fetchPins, Bool.or_eq_false_iff] at hflush
    obtain ⟨hbr, hj⟩ := hflush
    rw [fetch_pcReg hbr hj, hifId, hfl]
    cases s.core.stallFront (s.fetchPins image f)
    · exact .inr ⟨rfl, rfl⟩
    · exact .inl ⟨rfl, rfl⟩
  · rw [hifId, hfl] at hv
    cases hv

/-- **A cycle of waiting** for the instruction memory leaves the front as it is, and no more than a
NOP in EX. -/
lemma SocBram.Runs.wait_step (h : Runs image w s σ) (hr : f.ready = false)
    (hn : s.core.ifId.instrOut = nop)
    (hbr : s.core.branchHazardEx (s.fetchPins image f) = false) :
    (s.fetchStep image f).core.ifId = s.core.ifId ∧
      (s.fetchStep image f).core.pcReg = s.core.pcReg ∧ ExIdle (s.fetchStep image f).core := by
  obtain ⟨hj, hlu⟩ := nop_waits_for_nothing hn (s.fetchPins image f)
  have hfront : s.core.stallFront (s.fetchPins image f) = true := by
    rw [Core.stallFront_eq]
    simp [fetchPins, hr]
  obtain ⟨hfd, hfx⟩ := fetch_flush hbr hj
  rw [hlu, Bool.false_and] at hfx
  refine ⟨?_, ?_, ?_⟩
  · simp [fetchStep, Core.step, IfIdReg.step, hfd, hfront]
  · rw [fetch_pcReg hbr hj, hfront]
    rfl
  · have hidEx : (s.fetchStep image f).core.idEx =
        if s.core.stallBack (s.fetchPins image f) then s.core.idEx
        else IdExReg.ofId s.core.ifId s.core.id := by
      simp [fetchStep, Core.step, IdExReg.step, hfx]
    cases hs : s.core.stallBack (s.fetchPins image f)
    · rw [hs] at hidEx
      rcases h.ifId_cases with hb | ⟨pc, hp⟩
      · refine (exIdle_of_decoded_bubble ?_).1
        rw [hidEx, Core.id, hb]
        rfl
      · rw [hp.ifId] at hn
        refine (exIdle_of_nop (M := instMem image) ?_ hn).1
        rw [hidEx, Core.id, hp.ifId]
        rfl
    · rw [hs] at hidEx
      rcases h.idEx_cases with hx | ⟨_, _, _, hfree⟩
      · exact hx.congr hidEx
      · rw [hfree.go] at hs
        cases hs

end Front

namespace SocIcache

variable {image : BitVec 10 → BitVec 32} {s : SocIcache} {σ : MemState} {w : ℕ}

/-! ### The cache as an instruction memory -/

/-- The words behind the cache. -/
def cacheImage (image : BitVec 10 → BitVec 32) : BitVec 30 → BitVec 32 :=
  fun k => image (k.extractLsb' 0 10)

lemma cacheImage_wordIndex (a : BitVec 32) : cacheImage image (wordIndex a) = instMem image a := by
  have h : (wordIndex a).extractLsb' 0 10 = wordAddr a := by
    apply BitVec.eq_of_toNat_eq
    simp only [wordIndex, wordAddr, BitVec.extractLsb'_toNat, Nat.shiftRight_eq_div_pow]
    omega
  rw [cacheImage, instMem, h]

variable (image s) in
/-- What the cache brings to the core. -/
def answer : ImemIn :=
  ⟨s.icache.imemReady (s.icacheIn image), s.icache.imemRdata (s.icacheIn image)⟩

/-- How many cycles the fetch takes. -/
def wait (s : SocIcache) (image : BitVec 10 → BitVec 32) : ℕ :=
  if s.icache.hitFound (s.icacheIn image) then 0
  else if s.icache.missPending then 4 - s.icache.refillWordIdx.toNat
  else 5

/-- **What a fetch waits for**: a refill is of the line at the PC, with nothing but a NOP in ID and
in EX; and with another word of its line in ID the PC is in the cache. -/
structure FetchInv (image : BitVec 10 → BitVec 32) (s : SocIcache) : Prop where
  coherent : s.icache.Coherent (cacheImage image)
  base : s.icache.missPending = true → s.icache.refillBaseAddr = lineBase s.core.pcReg
  absent : s.icache.missPending = true → ¬ s.icache.Holds s.core.pcReg
  idle : s.icache.missPending = true → ExIdle s.core
  inId : s.icache.missPending = true → s.core.ifId.instrOut = nop
  inLine : s.core.ifId.instrValidOut = true → (lineWord s.core.ifId.idPc).toNat ≠ 3 →
    s.icache.Holds s.core.pcReg

lemma answers (s : SocIcache) :
    CacheInst.Answers (cacheImage image) s.icache (s.icacheIn image) :=
  fun _ _ => (cacheImage_wordIndex s.icache.memAddr).symm

lemma hit_iff (s : SocIcache) :
    s.icache.hitFound (s.icacheIn image) = true ↔ s.icache.Holds s.core.pcReg :=
  CacheInst.hitFound_iff (i := s.icacheIn image) rfl

lemma FetchInv.ready_iff (h : FetchInv image s) :
    (s.answer image).ready = true ↔ s.icache.Holds s.core.pcReg := by
  have hr : (s.answer image).ready = s.icache.hitFound (s.icacheIn image) := by
    rw [answer, CacheInst.imemReady, h.coherent.ready]
    cases s.icache.hitFound (s.icacheIn image) <;> rfl
  rw [hr, hit_iff]

lemma FetchInv.coreIn_eq (h : FetchInv image s) :
    s.coreIn image .quiet = s.bram.fetchPins image (s.answer image) := by
  have hdata : s.icache.imemRdata (s.icacheIn image) =
      if (s.answer image).ready then instMem image s.core.pcReg
      else s.icache.imemRdata (s.icacheIn image) := by
    split_ifs with hr
    · rw [h.coherent.imemRdata_of_imemReady hr]
      exact cacheImage_wordIndex s.core.pcReg
    · rfl
  rw [coreIn, hdata]
  rfl

/-- **The core behind the cache is the core behind an instruction memory** that answers when it
likes. -/
theorem FetchInv.bram_step (h : FetchInv image s) :
    (s.step image .quiet).bram = s.bram.fetchStep image (s.answer image) := by
  rw [bram, step, h.coreIn_eq]
  rfl

/-! ### A cycle of the cache -/

/-- On a miss ID holds a NOP. -/
lemma FetchInv.nop_of_miss (h : FetchInv image s) (hL : LineScheduled image)
    (hR : Runs image w s.bram σ) (hm : ¬ s.icache.Holds s.core.pcReg) :
    s.core.ifId.instrOut = nop := by
  rcases hR.ifId_cases with hb | ⟨pc, hp⟩
  · rw [show s.core.ifId = IfIdReg.bubble from hb]
    rfl
  · have hifId : s.core.ifId = fetchedAt (instMem image) pc := hp.ifId
    rw [hifId]
    refine hL.nop_at ?_
    by_contra hl
    exact hm (h.inLine (by rw [hifId]; rfl) (by rw [hifId]; exact hl))

/-- On a miss EX redirects nothing. -/
lemma FetchInv.no_redirect_of_miss (h : FetchInv image s) (hL : LineScheduled image)
    (hR : Runs image w s.bram σ) (hm : ¬ s.icache.Holds s.core.pcReg) (c : CoreIn) :
    s.core.branchHazardEx c = false := by
  rcases hR.idEx_cases with hx | ⟨pc, hp, hidEx, -⟩
  · exact hx.rests.redirect c
  · have hifId : s.core.ifId = fetchedAt (instMem image) (pc + 4#32) := hp.ifId
    have hl : (lineWord (pc + 4#32)).toNat = 3 := by
      by_contra hl
      exact hm (h.inLine (by rw [hifId]; rfl) (by rw [hifId]; exact hl))
    obtain ⟨i, hi⟩ := hL.decodes pc
    have hno := hL.no_redirect_at (lineWord_prev hl) hi
    have sp := idSpec hi
    have hkind : (idStage (instMem image pc)).isBranch = false ∧
        (idStage (instMem image pc)).isJalr = false := by
      constructor
      · by_contra hc
        rw [sp.redirects (.inl (by simpa using hc))] at hno
        cases hno
      · by_contra hc
        rw [sp.redirects (.inr (by simpa using hc))] at hno
        cases hno
    have hidEx' : s.core.idEx = decodedOf (fetchedAt (instMem image) pc) := hidEx
    have h1 : (s.core.exIn c).exIsBranch = false := by
      rw [← hkind.1]
      simp only [Core.exIn, hidEx']
      rfl
    have h2 : (s.core.exIn c).exIsJalr = false := by
      rw [← hkind.2]
      simp only [Core.exIn, hidEx']
      rfl
    simp [Core.branchHazardEx, HazardIn.branchHazardEx, Core.hazard, ExIn.branchTaken, ExIn.jalr,
      h1, h2]

/-- **A cycle of a miss**: the line comes nearer, and the core waits for it. -/
lemma FetchInv.step_miss (h : FetchInv image s) (hL : LineScheduled image)
    (hR : Runs image w s.bram σ) (hm : ¬ s.icache.Holds s.core.pcReg) :
    FetchInv image (s.step image .quiet) ∧
      (s.step image .quiet).core.pcReg = s.core.pcReg ∧
      (s.step image .quiet).wait image + 1 = s.wait image := by
  have hn := h.nop_of_miss hL hR hm
  have hready : (s.answer image).ready = false := by
    by_contra hc
    exact hm (h.ready_iff.mp (by simpa using hc))
  obtain ⟨hifId, hpc, hx⟩ := hR.wait_step hready hn (h.no_redirect_of_miss hL hR hm _)
  rw [← h.bram_step] at hifId hpc hx
  have hifId' : (s.step image .quiet).core.ifId = s.core.ifId := hifId
  have hpc' : (s.step image .quiet).core.pcReg = s.core.pcReg := hpc
  have hcache : (s.step image .quiet).icache = s.icache.step (s.icacheIn image) := rfl
  have hcoh := h.coherent.step (answers s)
  have hhit : s.icache.hitFound (s.icacheIn image) = false := by
    by_contra hc
    exact hm ((hit_iff s).mp (by simpa using hc))
  have hholds : (s.step image .quiet).icache.hitFound ((s.step image .quiet).icacheIn image) =
      true ↔ (s.icache.step (s.icacheIn image)).Holds s.core.pcReg := by
    rw [hit_iff, hcache, hpc']
  have hin : ∀ P : Prop, (s.step image .quiet).core.ifId.instrValidOut = true →
      (lineWord (s.step image .quiet).core.ifId.idPc).toNat ≠ 3 → P := by
    intro P hv hl
    rw [hifId'] at hv hl
    exact absurd (h.inLine hv hl) hm
  have hinv : ((s.icache.step (s.icacheIn image)).missPending = true →
      (s.icache.step (s.icacheIn image)).refillBaseAddr = lineBase s.core.pcReg ∧
        ¬ (s.icache.step (s.icacheIn image)).Holds s.core.pcReg) →
      FetchInv image (s.step image .quiet) := by
    intro hp
    refine ⟨hcoh, fun hq => ?_, fun hq => ?_, fun _ => hx, fun _ => by rw [hifId']; exact hn,
      hin _⟩
    · rw [hpc']
      exact (hp hq).1
    · rw [hpc']
      exact (hp hq).2
  rcases CacheInst.step_cases s.icache (s.icacheIn image) with
    ⟨-, hr, -⟩ | ⟨hp, -, h3, e⟩ | ⟨hf, e⟩ | ⟨hf, e⟩ | ⟨hp, hf, -⟩
  · cases hr
  · -- A word of the line.
    have htags : (s.icache.step (s.icacheIn image)).cacheAddr = s.icache.cacheAddr := by rw [e]
    have habs : ¬ (s.icache.step (s.icacheIn image)).Holds s.core.pcReg :=
      fun hc => hm (hc.of_tags htags.symm)
    have hidx : ∀ k : BitVec 2, k ≠ 3#2 → 4 - (k + 1#2).toNat + 1 = 4 - k.toNat := by decide
    refine ⟨hinv fun _ => ⟨by rw [e]; exact h.base hp, habs⟩, hpc', ?_⟩
    rw [wait, if_neg (fun hc => habs (hholds.mp hc)), wait, hhit, hp, hcache, e]
    simpa [hp] using hidx _ h3
  · -- The last one.
    have hfill := hf
    simp only [CacheInst.fillsLine, Bool.and_eq_true, beq_iff_eq] at hf
    obtain ⟨⟨hp, -⟩, h3⟩ := hf
    have hnow := CacheInst.holds_of_fill h.coherent hfill (h.base hp)
    have hdone : (s.icache.step (s.icacheIn image)).missPending = false := by rw [e]
    refine ⟨hinv fun hq => absurd (hdone.symm.trans hq) (by simp), hpc', ?_⟩
    rw [wait, if_pos (hholds.mpr hnow), wait, hhit, hp, h3]
    rfl
  · -- The miss is found.
    have htags : (s.icache.step (s.icacheIn image)).cacheAddr = s.icache.cacheAddr := by
      rw [e]
      rfl
    have habs : ¬ (s.icache.step (s.icacheIn image)).Holds s.core.pcReg :=
      fun hc => hm (hc.of_tags htags.symm)
    have hp : s.icache.missPending = false := by
      simp only [CacheInst.findsMiss, Bool.and_eq_true, Bool.not_eq_true'] at hf
      exact hf.1.1
    refine ⟨hinv fun _ => ⟨by rw [e]; rfl, habs⟩, hpc', ?_⟩
    rw [wait, if_neg (fun hc => habs (hholds.mp hc)), wait, hhit, hp, hcache, e]
    rfl
  · have hreq : (s.icacheIn image).imemReq = true := rfl
    simp [CacheInst.findsMiss, hp, hhit, hreq] at hf

/-- **A cycle of a hit** leaves the cache as it is. -/
lemma FetchInv.step_hit (h : FetchInv image s) (hm : s.icache.Holds s.core.pcReg) :
    FetchInv image (s.step image .quiet) := by
  have hp : s.icache.missPending = false := by
    by_contra hc
    exact h.absent (by simpa using hc) hm
  have hhit : s.icache.hitFound (s.icacheIn image) = true :=
    (hit_iff s).mpr hm
  have hcache : (s.step image .quiet).icache = s.icache.step (s.icacheIn image) := rfl
  obtain ⟨htags, hp'⟩ : (s.icache.step (s.icacheIn image)).cacheAddr = s.icache.cacheAddr ∧
      (s.icache.step (s.icacheIn image)).missPending = false := by
    rcases CacheInst.step_cases s.icache (s.icacheIn image) with
      ⟨hq, -⟩ | ⟨hq, -⟩ | ⟨hf, -⟩ | ⟨hf, -⟩ | ⟨-, -, a, e⟩
    · rw [hp] at hq
      cases hq
    · rw [hp] at hq
      cases hq
    · simp [CacheInst.fillsLine, hp] at hf
    · simp [CacheInst.findsMiss, hhit] at hf
    · rw [e]
      exact ⟨rfl, hp⟩
  refine ⟨h.coherent.step (answers s), ?_, ?_, ?_, ?_, ?_⟩
  · intro hq
    rw [hcache, hp'] at hq
    cases hq
  · intro hq
    rw [hcache, hp'] at hq
    cases hq
  · intro hq
    rw [hcache, hp'] at hq
    cases hq
  · intro hq
    rw [hcache, hp'] at hq
    cases hq
  · intro hv hl
    have hbram : (s.step image .quiet).core = (s.bram.fetchStep image (s.answer image)).core := by
      rw [← h.bram_step]
      rfl
    refine CacheInst.Holds.of_tags ?_ htags
    rw [hbram] at hv hl ⊢
    rcases SocBram.ifId_step hv with ⟨-, hpc⟩ | ⟨hid, hpc⟩
    · rw [hpc]
      exact hm
    · rw [hid] at hl
      rw [hpc]
      exact hm.congr (lineBase_next hl)

/-! ### Runs -/

lemma fetchInv_reset (image : BitVec 10 → BitVec 32) (c : CacheInst) (d : DataMem) :
    FetchInv image ⟨Core.reset, c.reset, d.reset⟩ :=
  ⟨CacheInst.coherent_reset c, nofun, nofun, nofun, nofun, nofun⟩

/-- The simulation relation with the cache, at a state that the interpreter reaches. -/
def Follows (image : BitVec 10 → BitVec 32) (mem : BitVec 12 → BitVec 8) (w : ℕ) (s : SocIcache)
    (σ : MemState) : Prop :=
  FetchInv image s ∧ (∃ w', Runs image w' s.bram σ ∧ w = 6 * w' + s.wait image) ∧
    ∃ j, σ = memRun image mem j

variable (image) in
lemma wait_le (s : SocIcache) : s.wait image ≤ 5 := by
  unfold wait
  split_ifs <;> omega

/-- A cycle of the system is matched by the interpreter. -/
lemma Follows.matched (hL : LineScheduled image) {mem : BitVec 12 → BitVec 8}
    (hF : AccessesFit image mem) (h : Follows image mem w s σ) :
    Matched (MemState.step image) (MemState.shown image) (Follows image mem) 18 w
      (s.core.retired (s.coreIn image .quiet)) (s.step image .quiet) σ := by
  obtain ⟨hI, ⟨v, hR, rfl⟩, j, rfl⟩ := h
  have hok : s.bram.FetchOk (s.answer image) := by
    intro hr
    refine hI.nop_of_miss hL hR ?_
    rw [← hI.ready_iff, hr]
    simp
  obtain ⟨p, w', hret, hR', hpay⟩ := hR.step hL.toScheduled hok (hF j)
  rw [← hI.bram_step] at hR' hpay
  have hpins : s.coreIn image .quiet = s.bram.fetchPins image (s.answer image) := hI.coreIn_eq
  have hreach : ∃ k, (MemState.step image)^[p] (memRun image mem j) = memRun image mem k :=
    ⟨p + j, (Function.iterate_add_apply _ p j _).symm⟩
  by_cases hm : s.icache.Holds s.core.pcReg
  · have hready := hI.ready_iff.mpr hm
    have hwait := wait_le image (s.step image .quiet)
    refine ⟨p, _, by rw [hpins]; exact hret, ⟨hI.step_hit hm, ⟨w', hR', rfl⟩, hreach⟩, ?_⟩
    have hpay' := hpay.resolve_right fun hc => by simp [hready] at hc
    omega
  · obtain ⟨hI', -, hwait⟩ := hI.step_miss hL hR hm
    have hle := wait_le image (s.step image .quiet)
    refine ⟨p, _, by rw [hpins]; exact hret, ⟨hI', ⟨w', hR', rfl⟩, hreach⟩, ?_⟩
    rcases hpay with hpay | ⟨-, hp, hw, -⟩
    · omega
    · subst hp hw
      omega

variable (image) in
/-- What the system has retired before cycle `n`. -/
def retiredTrace (c : CacheInst) (d : DataMem) (n : ℕ) : List Rec :=
  (machine image c d).history (fun s x => s.core.retired (s.coreIn image x)) (fun _ => .quiet) n

/-- **A program scheduled for the instruction cache runs as it should**, whatever the cache held
before reset and whichever ways its lines take. -/
theorem icache_refines (hL : LineScheduled image) {d : DataMem}
    (hF : AccessesFit image (bytes d.word)) (c : CacheInst) (n : ℕ) :
    ∃ m, retiredTrace image c d n = memTrace image (bytes d.word) m ∧ n ≤ 18 * m + 17 ∧
      Agrees (quietRun image c d n).bram (memRun image (bytes d.word) m) := by
  have href : ∃ m w, retiredTrace image c d n = memTrace image (bytes d.word) m ∧
      Follows image (bytes d.word) w (quietRun image c d n) (memRun image (bytes d.word) m) ∧
      n + w ≤ 18 * m + 17 := by
    refine refines (m := machine image c d) ?_ (fun _ _ _ h => h.matched hL hF) n
    refine ⟨fetchInv_reset image c d, ⟨2, runs_reset image d, ?_⟩, 0, rfl⟩
    simp [wait, machine, CacheInst.hitFound, CacheInst.hitWay, CacheInst.reset]
  obtain ⟨m, w, htr, ⟨-, ⟨w', hR, -⟩, -⟩, hw⟩ := href
  exact ⟨m, htr, by omega, hR.views.agrees⟩

/-- **The instruction cache changes the time and nothing else**: what the system with it has retired
the one without retires too, and the other way round. -/
theorem icache_invisible (hL : LineScheduled image) {d : DataMem}
    (hF : AccessesFit image (bytes d.word)) (c : CacheInst) :
    (∀ n, ∃ n', retiredTrace image c d n <+: SocBram.retiredTrace image d n') ∧
      ∀ n, ∃ n', SocBram.retiredTrace image d n <+: retiredTrace image c d n' := by
  have hmono : ∀ m m', m ≤ m' →
      memTrace image (bytes d.word) m <+: memTrace image (bytes d.word) m' :=
    fun _ _ => memTrace_prefix image (bytes d.word)
  constructor
  · intro n
    obtain ⟨m, hm, -, -⟩ := icache_refines hL hF c n
    rw [hm]
    refine exists_prefix_of_pace (K := 3) (c := 2) (by omega) hmono ?_ m
    intro n'
    obtain ⟨m', hm', hle, -⟩ := scheduled_refines hL.toScheduled hF n'
    exact ⟨m', hm', hle⟩
  · intro n
    obtain ⟨m, hm, -, -⟩ := scheduled_refines hL.toScheduled hF n
    rw [hm]
    refine exists_prefix_of_pace (K := 18) (c := 17) (by omega) hmono ?_ m
    intro n'
    obtain ⟨m', hm', hle, -⟩ := icache_refines hL hF c n'
    exact ⟨m', hm', hle⟩

lemma lineScheduled_counter : LineScheduled counter := by
  refine ⟨scheduled_counter, ?_, ?_⟩
  · intro a ha
    have hne : ∀ k : BitVec 10, k.toNat % 4 ≠ 3 → a ≠ k := fun k hk he => hk (he ▸ ha)
    rw [counter, if_neg (hne 0#10 (by decide)), if_neg (hne 4#10 (by decide)),
      if_neg (hne 5#10 (by decide)), if_neg (hne 9#10 (by decide))]
  · intro a i _ hi
    rcases counter_cases a with ⟨-, h⟩ | ⟨-, h⟩ | ⟨-, h⟩ | ⟨_, _, _, _, h⟩ <;>
      cases h.symm.trans hi <;> rfl

/-- The counter through a cache of zeros, after a hundred cycles. -/
theorem icache_refines_counter :
    ∃ m, retiredTrace counter .zero .zero 100 =
        memTrace counter (bytes DataMem.zero.word) m ∧ 100 ≤ 18 * m + 17 ∧
      Agrees (quietRun counter .zero .zero 100).bram
        (memRun counter (bytes DataMem.zero.word) m) :=
  icache_refines lineScheduled_counter (accessesFit_counter _) .zero 100

/-- The counter retires the same through the cache. -/
theorem icache_invisible_counter :
    (∀ n, ∃ n', retiredTrace counter .zero .zero n <+: SocBram.retiredTrace counter .zero n') ∧
      ∀ n, ∃ n', SocBram.retiredTrace counter .zero n <+: retiredTrace counter .zero .zero n' :=
  icache_invisible lineScheduled_counter (accessesFit_counter _) .zero

end SocIcache

end RiscvSoc.Rtl
