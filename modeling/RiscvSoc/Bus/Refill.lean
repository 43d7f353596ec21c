import RiscvSoc.Rtl.AxiImem
import RiscvSoc.Bus.InstCache

/-!
# The refill of the instruction cache

`L1_Cache_INST` over `axi_if_imem_master`, as `soc_top` wires them, with a slave that answers every
read it has accepted, in order and after any delay.  The bridge takes a request again in the cycle
in which it hands over a word, under the address of that word, so each beat but the first brings
the word before its own.
-/

namespace RiscvSoc.Rtl

open Sync

/-! ### The circuit -/

/-- The instruction side of `soc_top`; `pending` are the reads the slave has yet to answer. -/
structure FetchPath where
  cache : CacheInst
  bridge : AxiImem
  pending : List (BitVec 32)

/-- The fetch of the core in a cycle, and whether the slave would take an address or answer. -/
structure FetchIn where
  imemAddr : BitVec 32
  imemReq : Bool
  arready : Bool
  answer : Bool

namespace FetchPath

variable (M : BitVec 32 → BitVec 32) (s : FetchPath) (x : FetchIn)

def cacheIn : CacheInstIn where
  imemAddr := x.imemAddr
  imemReq := x.imemReq
  memRdata := s.bridge.memRdata
  memReady := s.bridge.memReady

def bridgeIn : AxiImemIn where
  memReq := s.cache.memReq
  memAddr := s.cache.memAddr
  arready := x.arready
  rdata := M (s.pending.headD 0#32)
  rvalid := x.answer && !s.pending.isEmpty

/-- The reads of the slave after a clock edge. -/
def pendingStep : List (BitVec 32) :=
  (if s.bridge.rready && (s.bridgeIn M x).rvalid then s.pending.tail else s.pending) ++
    if s.bridge.arvalid && x.arready then [s.bridge.araddr] else []

/-- The instruction side after a clock edge. -/
def step : FetchPath where
  cache := s.cache.step (s.cacheIn x)
  bridge := s.bridge.step (s.bridgeIn M x)
  pending := s.pendingStep M x

/-- The instruction side from reset, whatever the arrays of the cache hold. -/
def machine (c : CacheInst) : Machine FetchIn FetchPath where
  init := ⟨c.reset, AxiImem.reset, []⟩
  next s x := s.step M x

/-- The cache takes a word of the line it refills. -/
def takesBeat : Prop := s.cache.missPending = true ∧ s.bridge.memReady = true

instance : Decidable s.takesBeat := inferInstanceAs (Decidable (_ ∧ _))

/-- The cache finds a miss. -/
def findsMiss : Bool := s.cache.findsMiss (s.cacheIn x)

lemma findsMiss_eq : s.findsMiss x =
    (!s.cache.missPending && x.imemReq && !s.cache.hitFound (s.cacheIn x)) := rfl

/-- The bridge issues a read. -/
def issuesRead : Bool := !s.bridge.arvalid && (s.bridge.step (s.bridgeIn M x)).arvalid

end FetchPath

/-! ### What an observer counts -/

namespace RefillRun

variable (M : BitVec 32 → BitVec 32) (c : CacheInst) (ins : ℕ → FetchIn)

/-- The instruction side in cycle `n`. -/
def path (n : ℕ) : FetchPath := (FetchPath.machine M c).run ins n

/-- How many misses have been found before cycle `n`. -/
def misses : ℕ → ℕ
  | 0 => 0
  | n + 1 => misses n + if (path M c ins n).findsMiss (ins n) then 1 else 0

/-- The misses for which the reads before cycle `n` were issued, oldest first. -/
def reads : ℕ → List ℕ
  | 0 => []
  | n + 1 => reads n ++ if (path M c ins n).issuesRead M (ins n) then [misses M c ins n] else []

/-- How many words the bridge has handed over before cycle `n`. -/
def answered : ℕ → ℕ
  | 0 => 0
  | n + 1 => answered n + if (path M c ins n).bridge.memReady then 1 else 0

/-- **The refill is right in cycle `n`**: every valid line has the words of its address; a beat
brings the word at the address shown; no miss has more than four reads, and one that is over has
four; and the word of a beat answers a read of the miss that takes it. -/
structure RefillOk (n : ℕ) : Prop where
  line : ∀ g w k, ((path M c ins n).cache.cacheAddr g w).valid = true →
    (path M c ins n).cache.cacheInst g w k =
      M (((path M c ins n).cache.cacheAddr g w).addr + (0#28 ++ k ++ 0#2))
  beat : (path M c ins n).takesBeat →
    (path M c ins n).bridge.memRdata = M (path M c ins n).cache.memAddr
  atMost : ∀ m, (reads M c ins (n + 1)).count m ≤ 4
  four : ∀ m, 1 ≤ m → m < misses M c ins n ∨
      (m = misses M c ins n ∧ (path M c ins n).cache.missPending = false) →
    (reads M c ins (n + 1)).count m = 4
  own : (path M c ins n).takesBeat →
    (reads M c ins n)[answered M c ins n]? = some (misses M c ins n)

/-- **A beat that goes well**: it is not the fourth of its line, and unless it is the first its
word is the same as the one before it in the memory. -/
def BeatFine (s : FetchPath) : Prop :=
  s.takesBeat → s.cache.refillWordIdx ≠ 3#2 ∧
    (s.cache.refillWordIdx ≠ 0#2 → M s.cache.memAddr = M (s.cache.memAddr - 4#32))

/-! ### The first miss -/

/-- The word that the bridge reads while the cache waits for the word `refill_word_idx`. -/
def readAddr (c : CacheInst) : BitVec 32 :=
  if c.refillWordIdx = 0#2 then c.memAddr else c.memAddr - 4#32

/-- **The cache refills its first line**: the reads issued so far are all for its miss, one more
than the words it has taken. -/
structure Filling (n : ℕ) : Prop where
  missPending : (path M c ins n).cache.missPending = true
  memReq : (path M c ins n).cache.memReqReg = true
  base : ∃ a, (path M c ins n).cache.refillBaseAddr = lineBase a
  noLine : ∀ g w, ((path M c ins n).cache.cacheAddr g w).valid = false
  misses : misses M c ins n = 1
  answered : answered M c ins n = (path M c ins n).cache.refillWordIdx.toNat

/-- The reads issued while the cache waits for the word `refill_word_idx`. -/
def ReadsAhead (n : ℕ) : Prop :=
  reads M c ins n = List.replicate ((path M c ins n).cache.refillWordIdx.toNat + 1) 1

/-- **Where the refill is**: no miss has come, or it is at one of the steps of a read. -/
inductive Phase (n : ℕ) : Prop
  | quiet (missPending : (path M c ins n).cache.missPending = false)
      (memReq : (path M c ins n).cache.memReqReg = false)
      (noLine : ∀ g w, ((path M c ins n).cache.cacheAddr g w).valid = false)
      (state : (path M c ins n).bridge.state = .idle)
      (arvalid : (path M c ins n).bridge.arvalid = false)
      (ready : (path M c ins n).bridge.memReady = false)
      (pending : (path M c ins n).pending = [])
      (misses : misses M c ins n = 0) (reads : reads M c ins n = [])
      (answered : answered M c ins n = 0)
  | start (fill : Filling M c ins n) (idx : (path M c ins n).cache.refillWordIdx = 0#2)
      (state : (path M c ins n).bridge.state = .idle)
      (arvalid : (path M c ins n).bridge.arvalid = false)
      (ready : (path M c ins n).bridge.memReady = false)
      (pending : (path M c ins n).pending = []) (reads : reads M c ins n = [])
  | ar (fill : Filling M c ins n) (state : (path M c ins n).bridge.state = .ar)
      (arvalid : (path M c ins n).bridge.arvalid = true)
      (araddr : (path M c ins n).bridge.araddr = readAddr (path M c ins n).cache)
      (ready : (path M c ins n).bridge.memReady = false)
      (rready : (path M c ins n).bridge.rready = false)
      (pending : (path M c ins n).pending = []) (reads : ReadsAhead M c ins n)
  | r (fill : Filling M c ins n) (state : (path M c ins n).bridge.state = .r)
      (arvalid : (path M c ins n).bridge.arvalid = false)
      (rready : (path M c ins n).bridge.rready = true)
      (ready : (path M c ins n).bridge.memReady = false)
      (pending : (path M c ins n).pending = [readAddr (path M c ins n).cache])
      (reads : ReadsAhead M c ins n)
  | beat (fill : Filling M c ins n) (state : (path M c ins n).bridge.state = .idle)
      (arvalid : (path M c ins n).bridge.arvalid = false)
      (rready : (path M c ins n).bridge.rready = false)
      (ready : (path M c ins n).bridge.memReady = true)
      (rdata : (path M c ins n).bridge.memRdata = M (readAddr (path M c ins n).cache))
      (pending : (path M c ins n).pending = []) (reads : ReadsAhead M c ins n)

variable {M c ins} {n : ℕ}

lemma path_succ : path M c ins (n + 1) = (path M c ins n).step M (ins n) := rfl

lemma bridge_succ : (path M c ins (n + 1)).bridge =
    (path M c ins n).bridge.step ((path M c ins n).bridgeIn M (ins n)) := rfl

/-- The bridge issues a read where it begins to show an address. -/
lemma reads_succ_of_no_issue (h : (path M c ins n).bridge.arvalid = true ∨
      (path M c ins (n + 1)).bridge.arvalid = false) :
    reads M c ins (n + 1) = reads M c ins n := by
  have hi : (path M c ins n).issuesRead M (ins n) = false := by
    rw [FetchPath.issuesRead, ← bridge_succ]
    rcases h with h | h <;> simp [h]
  rw [reads, hi]
  exact List.append_nil _

/-- The addresses of the words of a line are word-aligned. -/
lemma wordAlign_word (a : BitVec 32) (k : BitVec 2) :
    wordAlign (wordOfLine (lineBase a) k) = wordOfLine (lineBase a) k := by
  have ha := a.isLt
  have hlt := k.isLt
  apply BitVec.eq_of_toNat_eq
  rw [wordAlign, BitVec.toNat_append, ← Nat.shiftLeft_add_eq_or_of_lt (BitVec.isLt (0#2))]
  simp only [BitVec.extractLsb'_toNat, wordOfLine_toNat, Nat.shiftLeft_eq,
    Nat.shiftRight_eq_div_pow, BitVec.toNat_ofNat]
  omega

/-- The address that the cache shows is that of a word. -/
lemma Filling.wordAlign_memAddr (f : Filling M c ins n) :
    wordAlign (path M c ins n).cache.memAddr = (path M c ins n).cache.memAddr := by
  obtain ⟨a, ha⟩ := f.base
  rw [CacheInst.memAddr, if_pos f.missPending, ha]
  exact wordAlign_word a _

lemma misses_succ_of_pending (h : (path M c ins n).cache.missPending = true) :
    misses M c ins (n + 1) = misses M c ins n := by
  simp [misses, FetchPath.findsMiss_eq, h]

/-- Without a word from the bridge the cache waits. -/
lemma Filling.wait (f : Filling M c ins n) (h : (path M c ins n).bridge.memReady = false) :
    Filling M c ins (n + 1) ∧ (path M c ins (n + 1)).cache.refillWordIdx =
        (path M c ins n).cache.refillWordIdx ∧
      readAddr (path M c ins (n + 1)).cache = readAddr (path M c ins n).cache := by
  have hc : (path M c ins (n + 1)).cache = { (path M c ins n).cache with
      memReqReg := true, imemReadyReg := false
      lfsr := Lfsr.step (path M c ins n).cache.lfsr (ins n).imemReq } := by
    simp [path_succ, FetchPath.step, CacheInst.step, FetchPath.cacheIn, f.missPending, h]
  refine ⟨⟨?_, ?_, ?_, ?_, ?_, ?_⟩, ?_, ?_⟩
  · rw [hc]; exact f.missPending
  · rw [hc]
  · rw [hc]; exact f.base
  · rw [hc]; exact f.noLine
  · rw [misses_succ_of_pending f.missPending, f.misses]
  · rw [hc]; simp [RefillRun.answered, h, f.answered]
  · rw [hc]
  · rw [hc]; rfl

/-- A word that is not the last of its line. -/
lemma Filling.take (f : Filling M c ins n) (h : (path M c ins n).bridge.memReady = true)
    (h3 : (path M c ins n).cache.refillWordIdx ≠ 3#2) :
    Filling M c ins (n + 1) ∧ (path M c ins (n + 1)).cache.refillWordIdx.toNat =
        (path M c ins n).cache.refillWordIdx.toNat + 1 ∧
      readAddr (path M c ins (n + 1)).cache = (path M c ins n).cache.memAddr := by
  have hc : (path M c ins (n + 1)).cache = { (path M c ins n).cache with
      memReqReg := true, imemReadyReg := false
      refillWordIdx := (path M c ins n).cache.refillWordIdx + 1#2
      refillLineBuf := (path M c ins n).cache.refillLineNext ((path M c ins n).cacheIn (ins n))
      lfsr := Lfsr.step (path M c ins n).cache.lfsr (ins n).imemReq } := by
    simp [path_succ, FetchPath.step, CacheInst.step, CacheInst.stepBeat, FetchPath.cacheIn,
      f.missPending, h, h3]
  have hidx : ∀ k : BitVec 2, k ≠ 3#2 → (k + 1#2).toNat = k.toNat + 1 ∧ k + 1#2 ≠ 0#2 ∧
      (0#28 ++ (k + 1#2) ++ 0#2) = (0#28 ++ k ++ 0#2) + 4#32 := by decide
  obtain ⟨hnat, hne, hadd⟩ := hidx _ h3
  refine ⟨⟨?_, ?_, ?_, ?_, ?_, ?_⟩, ?_, ?_⟩
  · rw [hc]; exact f.missPending
  · rw [hc]
  · rw [hc]; exact f.base
  · rw [hc]; exact f.noLine
  · rw [misses_succ_of_pending f.missPending, f.misses]
  · rw [hc]; simp only [RefillRun.answered, h, f.answered, hnat, if_true]
  · rw [hc]; exact hnat
  · rw [hc, readAddr]
    simp only [hne, if_false, CacheInst.memAddr, f.missPending, if_true]
    rw [hadd, ← BitVec.add_assoc, BitVec.add_sub_cancel]

/-! ### What a cycle does to the bridge and the slave -/

lemma reads_succ_of_idle (hs : (path M c ins n).bridge.state = .idle)
    (ha : (path M c ins n).bridge.arvalid = false)
    (hr : (path M c ins n).cache.memReqReg = true) :
    reads M c ins (n + 1) = reads M c ins n ++ [misses M c ins n] := by
  have hb := AxiImem.step_of_req (i := (path M c ins n).bridgeIn M (ins n)) hs hr
  simp [reads, FetchPath.issuesRead, hb, ha]

/-- The idle bridge takes the address that the cache shows. -/
lemma Filling.step_idle (f : Filling M c ins n) (hs : (path M c ins n).bridge.state = .idle) :
    (path M c ins (n + 1)).bridge.state = .ar ∧
      (path M c ins (n + 1)).bridge.arvalid = true ∧
      (path M c ins (n + 1)).bridge.araddr = (path M c ins n).cache.memAddr ∧
      (path M c ins (n + 1)).bridge.memReady = false ∧
      (path M c ins (n + 1)).bridge.rready = false := by
  rw [bridge_succ, AxiImem.step_of_req hs f.memReq]
  exact ⟨rfl, rfl, f.wordAlign_memAddr, rfl, rfl⟩

/-- The idle bridge stays so while the cache asks for nothing. -/
lemma bridge_succ_of_no_req (hs : (path M c ins n).bridge.state = .idle)
    (hr : (path M c ins n).cache.memReqReg = false) :
    (path M c ins (n + 1)).bridge.state = .idle ∧
      (path M c ins (n + 1)).bridge.arvalid = false ∧
      (path M c ins (n + 1)).bridge.memReady = false := by
  rw [bridge_succ, AxiImem.step_of_no_req hs hr]
  exact ⟨hs, rfl, rfl⟩

/-- The bridge that waits for a word shows no address. -/
lemma arvalid_succ_of_r (hs : (path M c ins n).bridge.state = .r)
    (ha : (path M c ins n).bridge.arvalid = false) :
    (path M c ins (n + 1)).bridge.arvalid = false := by
  rw [bridge_succ, AxiImem.step, hs]
  dsimp only
  split_ifs <;> exact ha

lemma pending_succ_of_idle (ha : (path M c ins n).bridge.arvalid = false)
    (hp : (path M c ins n).pending = []) : (path M c ins (n + 1)).pending = [] := by
  simp [path_succ, FetchPath.step, FetchPath.pendingStep, ha, hp]

/-! ### One cycle -/

lemma phase_zero : Phase M c ins 0 :=
  .quiet rfl rfl (fun _ _ => rfl) rfl rfl rfl rfl rfl rfl rfl

/-- The first miss is found, or nothing comes. -/
lemma step_quiet (missPending : (path M c ins n).cache.missPending = false)
    (memReq : (path M c ins n).cache.memReqReg = false)
    (noLine : ∀ g w, ((path M c ins n).cache.cacheAddr g w).valid = false)
    (state : (path M c ins n).bridge.state = .idle)
    (arvalid : (path M c ins n).bridge.arvalid = false)
    (ready : (path M c ins n).bridge.memReady = false)
    (pending : (path M c ins n).pending = [])
    (misses : misses M c ins n = 0) (reads : reads M c ins n = [])
    (answered : answered M c ins n = 0) : Phase M c ins (n + 1) := by
  obtain ⟨hst, har, hrd⟩ := bridge_succ_of_no_req state memReq
  have hreads : RefillRun.reads M c ins (n + 1) = [] :=
    (reads_succ_of_no_issue (.inr har)).trans reads
  have hans : RefillRun.answered M c ins (n + 1) = 0 := by
    simp [RefillRun.answered, answered, ready]
  have hpend := pending_succ_of_idle arvalid pending
  cases hf : (path M c ins n).findsMiss (ins n)
  · have hno : (ins n).imemReq = true →
        (path M c ins n).cache.hitFound ((path M c ins n).cacheIn (ins n)) = true := by
      intro hr
      simpa [FetchPath.findsMiss_eq, missPending, hr] using hf
    have hcache : (path M c ins (n + 1)).cache.missPending = false ∧
        (path M c ins (n + 1)).cache.memReqReg = false ∧
        (path M c ins (n + 1)).cache.cacheAddr = (path M c ins n).cache.cacheAddr := by
      cases hr : (ins n).imemReq
      · simp [path_succ, FetchPath.step, CacheInst.step, FetchPath.cacheIn, missPending, hr]
      · have hh := hno hr
        simp only [FetchPath.cacheIn, hr] at hh
        simp [path_succ, FetchPath.step, CacheInst.step, FetchPath.cacheIn, missPending, hr, hh]
    refine .quiet hcache.1 hcache.2.1 ?_ hst har hrd hpend ?_ hreads hans
    · rw [hcache.2.2]; exact noLine
    · simp [RefillRun.misses, misses, hf]
  · have hboth : (ins n).imemReq = true ∧
        (path M c ins n).cache.hitFound ((path M c ins n).cacheIn (ins n)) = false := by
      simpa [FetchPath.findsMiss_eq, missPending] using hf
    have hcache : (path M c ins (n + 1)).cache = { (path M c ins n).cache.stepMiss
        ((path M c ins n).cacheIn (ins n)) with
        imemReadyReg := false
        lfsr := Lfsr.step (path M c ins n).cache.lfsr (ins n).imemReq } := by
      have hr : ((path M c ins n).cacheIn (ins n)).imemReq = true := hboth.1
      simp only [path_succ, FetchPath.step, CacheInst.step, missPending, hr, hboth.2,
        Bool.not_false, if_true, Bool.false_eq_true, if_false, hboth.1]
    refine .start ⟨?_, ?_, ?_, ?_, ?_, ?_⟩ ?_ hst har hrd hpend hreads
    · rw [hcache]; rfl
    · rw [hcache]; rfl
    · rw [hcache]; exact ⟨(ins n).imemAddr, rfl⟩
    · rw [hcache]; exact noLine
    · simp [RefillRun.misses, misses, hf]
    · rw [hcache, hans]; rfl
    · rw [hcache]; rfl

/-- **One cycle of the refill.** -/
theorem Phase.step (hp : Phase M c ins n) (hf : BeatFine M (path M c ins n)) :
    Phase M c ins (n + 1) := by
  cases hp with
  | quiet missPending memReq noLine state arvalid ready pending misses reads answered =>
    exact step_quiet missPending memReq noLine state arvalid ready pending misses reads answered
  | start fill idx state arvalid ready pending reads =>
    obtain ⟨hfill, hidx, hread⟩ := fill.wait ready
    obtain ⟨hst, har, haddr, hrd, hrr⟩ := fill.step_idle state
    refine .ar hfill hst har ?_ hrd hrr (pending_succ_of_idle arvalid pending) ?_
    · rw [haddr, hread, readAddr, if_pos idx]
    · rw [ReadsAhead, reads_succ_of_idle state arvalid fill.memReq, reads, fill.misses, hidx, idx]
      rfl
  | ar fill state arvalid araddr ready rready pending reads =>
    obtain ⟨hfill, hidx, hread⟩ := fill.wait ready
    have hra : ReadsAhead M c ins (n + 1) := by
      rw [ReadsAhead, reads_succ_of_no_issue (.inl arvalid), hidx]
      exact reads
    cases hg : (ins n).arready
    · have hb := bridge_succ.trans (AxiImem.step_of_no_arready state hg)
      refine .ar hfill ?_ ?_ ?_ ?_ ?_ ?_ hra
      · rw [hb]; exact state
      · rw [hb]; exact arvalid
      · rw [hb, hread]; exact araddr
      · rw [hb]
      · rw [hb]; exact rready
      · simp [path_succ, FetchPath.step, FetchPath.pendingStep, rready, pending, hg]
    · have hb := bridge_succ.trans (AxiImem.step_of_arready state arvalid hg)
      refine .r hfill ?_ ?_ ?_ ?_ ?_ hra
      · rw [hb]
      · rw [hb]
      · rw [hb]
      · rw [hb]
      · rw [hread, ← araddr]
        simp [path_succ, FetchPath.step, FetchPath.pendingStep, rready, arvalid, pending, hg]
  | r fill state arvalid rready ready pending reads =>
    obtain ⟨hfill, hidx, hread⟩ := fill.wait ready
    have hra : ReadsAhead M c ins (n + 1) := by
      rw [ReadsAhead, reads_succ_of_no_issue (.inr (arvalid_succ_of_r state arvalid)), hidx]
      exact reads
    cases hg : (ins n).answer
    · have hv : ((path M c ins n).bridgeIn M (ins n)).rvalid = false := by
        simp [FetchPath.bridgeIn, hg]
      have hb := bridge_succ.trans (AxiImem.step_of_no_rvalid state hv)
      refine .r hfill ?_ ?_ ?_ ?_ ?_ hra
      · rw [hb]; exact state
      · rw [hb]; exact arvalid
      · rw [hb]
      · rw [hb]
      · rw [hread]
        simp [path_succ, FetchPath.step, FetchPath.pendingStep, arvalid, pending, hv]
    · have hv : ((path M c ins n).bridgeIn M (ins n)).rvalid = true := by
        simp [FetchPath.bridgeIn, pending, hg]
      have hb := bridge_succ.trans (AxiImem.step_of_rvalid state rready hv)
      refine .beat hfill ?_ ?_ ?_ ?_ ?_ ?_ hra
      · rw [hb]
      · rw [hb]; exact arvalid
      · rw [hb]
      · rw [hb]
      · rw [hb, hread]
        simp [FetchPath.bridgeIn, pending]
      · simp [path_succ, FetchPath.step, FetchPath.pendingStep, arvalid, rready, pending, hv]
  | beat fill state arvalid rready ready rdata pending reads =>
    -- The bridge takes the address of the word it hands over.
    obtain ⟨h3, -⟩ := hf ⟨fill.missPending, ready⟩
    obtain ⟨hfill, hidx, hread⟩ := fill.take ready h3
    obtain ⟨hst, har, haddr, hrd, hrr⟩ := fill.step_idle state
    refine .ar hfill hst har (haddr.trans hread.symm) hrd hrr
      (pending_succ_of_idle arvalid pending) ?_
    rw [ReadsAhead, reads_succ_of_idle state arvalid fill.memReq, reads, fill.misses, hidx]
    exact List.replicate_succ'.symm

/-! ### When the refill is right -/

/-- Without a beat the refill of the first line is right: it has at most four reads. -/
lemma Filling.refillOk (f : Filling M c ins n) (hr : (path M c ins n).bridge.memReady = false)
    {k : ℕ} (hk : k ≤ 4) (hreads : reads M c ins (n + 1) = List.replicate k 1) :
    RefillOk M c ins n where
  line g w _ hv := by simp [f.noLine g w] at hv
  beat h := by simp [FetchPath.takesBeat, hr] at h
  atMost m := by
    rw [hreads, List.count_replicate]
    split_ifs <;> omega
  four m hm h := by
    rw [f.misses] at h
    rcases h with h | ⟨-, h⟩
    · omega
    · simp [f.missPending] at h
  own h := by simp [FetchPath.takesBeat, hr] at h

/-- **In the first refill the condition is exact.** -/
theorem Phase.refillOk_iff (hp : Phase M c ins n) :
    RefillOk M c ins n ↔ BeatFine M (path M c ins n) := by
  have hfine : (path M c ins n).bridge.memReady = false → BeatFine M (path M c ins n) :=
    fun hr h => by simp [FetchPath.takesBeat, hr] at h
  have hlt := (path M c ins n).cache.refillWordIdx.isLt
  cases hp with
  | quiet missPending memReq noLine state arvalid ready pending misses reads answered =>
    obtain ⟨-, har, -⟩ := bridge_succ_of_no_req state memReq
    have hreads : RefillRun.reads M c ins (n + 1) = [] :=
      (reads_succ_of_no_issue (.inr har)).trans reads
    refine iff_of_true ⟨fun g w _ hv => by simp [noLine g w] at hv, ?_, ?_, ?_, ?_⟩
      (hfine ready)
    · intro h
      simp [FetchPath.takesBeat, ready] at h
    · intro m
      simp [hreads]
    · intro m hm h
      omega
    · intro h
      simp [FetchPath.takesBeat, ready] at h
  | start fill idx state arvalid ready pending reads =>
    refine iff_of_true (fill.refillOk (k := 1) ready (by omega) ?_) (hfine ready)
    rw [reads_succ_of_idle state arvalid fill.memReq, reads, fill.misses]
    rfl
  | ar fill state arvalid araddr ready rready pending reads =>
    exact iff_of_true (fill.refillOk ready (by omega)
      ((reads_succ_of_no_issue (.inl arvalid)).trans reads)) (hfine ready)
  | r fill state arvalid rready ready pending reads =>
    have har := arvalid_succ_of_r state arvalid
    exact iff_of_true (fill.refillOk ready (by omega)
      ((reads_succ_of_no_issue (.inr har)).trans reads)) (hfine ready)
  | beat fill state arvalid rready ready rdata pending reads =>
    have hb : (path M c ins n).takesBeat := ⟨fill.missPending, ready⟩
    have hreads : RefillRun.reads M c ins (n + 1) =
        List.replicate ((path M c ins n).cache.refillWordIdx.toNat + 2) 1 := by
      rw [reads_succ_of_idle state arvalid fill.memReq, reads, fill.misses]
      exact List.replicate_succ'.symm
    refine ⟨fun ho _ => ⟨fun h3 => ?_, fun h0 => ?_⟩, fun hf => ⟨?_, fun _ => ?_, fun m => ?_,
      fun m hm h => ?_, fun _ => ?_⟩⟩
    · -- With the fourth word goes a fifth read.
      have hc := ho.atMost 1
      rw [hreads, h3] at hc
      simp at hc
    · have hw := ho.beat hb
      rw [rdata, readAddr, if_neg h0] at hw
      exact hw.symm
    · exact fun g w _ hv => by simp [fill.noLine g w] at hv
    · rw [rdata, readAddr]
      split_ifs with h0
      · rfl
      · exact ((hf hb).2 h0).symm
    · have h3 : (path M c ins n).cache.refillWordIdx.toNat ≠ 3 := fun e =>
        (hf hb).1 (BitVec.eq_of_toNat_eq e)
      rw [hreads, List.count_replicate]
      split_ifs <;> omega
    · rw [fill.misses] at h
      rcases h with h | ⟨-, h⟩
      · omega
      · simp [fill.missPending] at h
    · rw [reads, fill.answered, fill.misses]
      simp

variable (M c ins n) in
/-- **The refill is right exactly as long as every beat goes well.** -/
theorem refillOk_iff_beatFine :
    (∀ k ≤ n, RefillOk M c ins k) ↔ ∀ k ≤ n, BeatFine M (path M c ins k) :=
  forall_le_iff phase_zero (fun _ hp hf => hp.step hf) (fun _ hp => hp.refillOk_iff) n

/-- The core fetches from `0x100`, and the slave is always prompt. -/
def promptFetch : ℕ → FetchIn := fun _ => ⟨0x100#32, true, true, true⟩

/-- **A line is filled wrongly**: of a memory in which every word is its own address, the line
`0x100` gets the word `0x100` twice. -/
theorem promptFetch_wrongLine : ¬ ∀ M c ins n, RefillOk M c ins n := by
  intro h
  have hl := (h (fun a => a) .zero promptFetch 14).line 0#4 1#2 1#2
  revert hl
  decide +kernel

end RefillRun

end RiscvSoc.Rtl
