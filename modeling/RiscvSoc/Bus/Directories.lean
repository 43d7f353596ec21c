import RiscvSoc.Sync.Directory
import RiscvSoc.Bus.InstCache
import RiscvSoc.Bus.DataCache

/-!
# The directories of the caches

Both caches order a fill when they find a miss, into a way that an LFSR gives, and make the entry
when the words have come.  Whatever the LFSR gives and whatever is asked in the meantime, no line
has two ways; so the search for the first way that matches and the search for the last one find the
same way.
-/

namespace RiscvSoc.Rtl

open Sync

/-- The array `Cache_addr` of a cache. -/
abbrev CacheTags := BitVec 4 → BitVec 2 → CacheTag

namespace CacheTags

variable (t : CacheTags)

/-- What `Cache_addr` says of a way. -/
def entry (g : BitVec 4) (w : BitVec 2) : Option (BitVec 32) :=
  if (t g w).valid then some (t g w).addr else none

/-- The way holds the line of the address. -/
def matchesWay (a : BitVec 32) (w : BitVec 2) : Bool :=
  (t (groupIndex a) w).valid && (t (groupIndex a) w).addr.extractLsb' 4 28 == a.extractLsb' 4 28

/-- The ways, in the order of the loops. -/
def ways : List (BitVec 2) := [0#2, 1#2, 2#2, 3#2]

/-- The search that stops at the first way that matches. -/
def firstWay (a : BitVec 32) : Option (BitVec 2) := ways.find? (t.matchesWay a)

/-- The search that goes on to the last way that matches. -/
def lastWay (a : BitVec 32) : Option (BitVec 2) := ways.reverse.find? (t.matchesWay a)

/-- **The directory is right**: a valid entry has the base address of a line of its set, no two
valid entries of a set have one tag, and so at most one way matches an address and both searches
find it. -/
structure OneWay : Prop where
  base : ∀ g w, (t g w).valid = true →
    (t g w).addr.extractLsb' 4 4 = g ∧ (t g w).addr.extractLsb' 0 4 = 0#4
  unique : ∀ g w w', (t g w).valid = true → (t g w').valid = true →
    (t g w).addr.extractLsb' 4 28 = (t g w').addr.extractLsb' 4 28 → w = w'
  oneMatch : ∀ a w w', t.matchesWay a w = true → t.matchesWay a w' = true → w = w'
  search : ∀ a, t.firstWay a = t.lastWay a

end CacheTags

/-- A base address may be in a set. -/
def LineOfSet (a : BitVec 32) (g : BitVec 4) : Prop :=
  a.extractLsb' 4 4 = g ∧ a.extractLsb' 0 4 = 0#4

lemma lineOfSet_lineBase (a : BitVec 32) : LineOfSet (lineBase a) (groupIndex a) :=
  ⟨groupIndex_lineBase a, BitVec.extractLsb'_append_eq_right⟩

lemma LineOfSet.lineBase_eq {a : BitVec 32} {g : BitVec 4} (h : LineOfSet a g) :
    lineBase a = a := by
  rw [lineBase, ← h.2]
  exact @BitVec.extractLsb'_append_extractLsb' 28 4 a

namespace CacheTags

variable {t : CacheTags}

lemma entry_eq_some_iff {g : BitVec 4} {w : BitVec 2} {a : BitVec 32} :
    t.entry g w = some a ↔ (t g w).valid = true ∧ (t g w).addr = a := by
  rw [entry]
  cases (t g w).valid <;> simp

/-- The entries once a line has been put in a way. -/
lemma entry_update (g : BitVec 4) (w : BitVec 2) (a : BitVec 32) :
    entry (Function.update t g (Function.update (t g) w ⟨true, a⟩)) =
      Function.update t.entry g (Function.update (t.entry g) w (some a)) := by
  funext g' w'
  by_cases hg : g' = g
  · subst hg
    by_cases hw : w' = w
    · subst hw
      simp [entry]
    · simp [entry, Function.update_of_ne hw]
  · simp [entry, Function.update_of_ne hg]

/-- A line that no way matches has no entry. -/
lemma entry_ne_of_no_match {a : BitVec 32} (h : ∀ w, t.matchesWay a w = false) (w : BitVec 2) :
    t.entry (groupIndex a) w ≠ some (lineBase a) := by
  rw [Ne, entry_eq_some_iff]
  rintro ⟨hv, ha⟩
  have hw := h w
  rw [matchesWay, hv, ha, lineBase, BitVec.extractLsb'_append_eq_left] at hw
  simp at hw

/-- **A directory that is right has one way for a line.** -/
theorem oneWay_of_ok {f : Option (Fill (BitVec 4) (BitVec 2) (BitVec 32))}
    (h : Directory.Ok LineOfSet ⟨t.entry, f⟩) : t.OneWay := by
  have hbase : ∀ g w, (t g w).valid = true → LineOfSet (t g w).addr g :=
    fun g w hv => h.atHome g w _ (entry_eq_some_iff.mpr ⟨hv, rfl⟩)
  have hunique : ∀ g w w', (t g w).valid = true → (t g w').valid = true →
      (t g w).addr.extractLsb' 4 28 = (t g w').addr.extractLsb' 4 28 → w = w' := by
    intro g w w' hv hv' ht
    have ha : (t g w).addr = (t g w').addr := by
      rw [← (hbase g w hv).lineBase_eq, ← (hbase g w' hv').lineBase_eq]
      exact lineBase_congr ht
    exact h.unique g w w' _ (entry_eq_some_iff.mpr ⟨hv, ha⟩) (entry_eq_some_iff.mpr ⟨hv', rfl⟩)
  have hone : ∀ a w w', t.matchesWay a w = true → t.matchesWay a w' = true → w = w' := by
    intro a w w' hw hw'
    simp only [matchesWay, Bool.and_eq_true, beq_iff_eq] at hw hw'
    exact hunique _ w w' hw.1 hw'.1 (hw.2.trans hw'.2.symm)
  exact ⟨hbase, hunique, hone, fun a =>
    (find?_reverse_of_unique fun w _ w' _ hw hw' => hone a w w' hw hw').symm⟩

lemma mem_ways : ∀ w : BitVec 2, w ∈ ways := by decide

/-- A way that matches is the one that is found. -/
lemma OneWay.firstWay_eq (h : t.OneWay) {a : BitVec 32} {w : BitVec 2}
    (hw : t.matchesWay a w = true) : t.firstWay a = some w := by
  cases hf : t.firstWay a with
  | none =>
    rw [firstWay, List.find?_eq_none] at hf
    exact absurd hw (hf w (mem_ways w))
  | some w' => rw [h.oneMatch a w' w (List.find?_some hf) hw]

end CacheTags

/-! ### `L1_Cache_INST` -/

namespace CacheInst

variable (c : CacheInst)

/-- The cache from reset with an LFSR that shows any values at all: `v` first, and after each edge
what the input says. -/
def anyLfsr (v : BitVec 16) : Machine (BitVec 16 × CacheInstIn) CacheInst where
  init := { c.reset with lfsr := v }
  next s i := { s.step i.2 with lfsr := i.1 }

/-- The directory of the cache. -/
def directory (s : CacheInst) : Directory (BitVec 4) (BitVec 2) (BitVec 32) where
  entry := CacheTags.entry s.cacheAddr
  fill :=
    if s.missPending then some ⟨s.refillGroupIndex, s.refillWay, lineBase s.addrReg⟩ else none

/-- **The cache searches for one way**: the hit takes its word from the last way that matches, and
that is the way that matches. -/
structure SearchesOneWay (s : CacheInst) : Prop where
  oneWay : CacheTags.OneWay s.cacheAddr
  last : ∀ i, i.imemReq = true → s.hitData i =
    ((CacheTags.lastWay s.cacheAddr i.imemAddr).map fun w =>
      s.cacheInst (groupIndex i.imemAddr) w (lineWord i.imemAddr)).getD 0#32
  word : ∀ i w, i.imemReq = true → CacheTags.matchesWay s.cacheAddr i.imemAddr w = true →
    s.hitData i = s.cacheInst (groupIndex i.imemAddr) w (lineWord i.imemAddr)

variable {c} {s : CacheInst} {i : CacheInstIn}

/-- **An edge of the cache is a step of its directory.** -/
theorem directory_step (s : CacheInst) (i : CacheInstIn) :
    Directory.Step LineOfSet s.directory (s.step i).directory := by
  rcases step_cases s i with ⟨hp, -, e⟩ | ⟨hp, -, -, e⟩ | ⟨hf, e⟩ | ⟨hf, e⟩ | ⟨hp, -, a, e⟩
  · rw [e]
    exact .keep _
  · rw [e]
    exact .keep _
  · simp only [fillsLine, Bool.and_eq_true] at hf
    have hdir : (s.step i).directory =
        ⟨Function.update s.directory.entry s.refillGroupIndex
          (Function.update (s.directory.entry s.refillGroupIndex) s.refillWay
            (some (lineBase s.addrReg))), none⟩ := by
      rw [e, directory, CacheTags.entry_update]
      rfl
    rw [hdir]
    exact .fill _ ⟨s.refillGroupIndex, s.refillWay, lineBase s.addrReg⟩ (by
      rw [directory, hf.1.1, if_pos rfl])
  · simp only [findsMiss, Bool.and_eq_true, Bool.not_eq_true'] at hf
    obtain ⟨⟨hp, hreq⟩, hmiss⟩ := hf
    rw [e]
    refine .miss _ ⟨groupIndex i.imemAddr, s.victimWay, lineBase i.imemAddr⟩ ?_
      (lineOfSet_lineBase _) (CacheTags.entry_ne_of_no_match ?_)
    · rw [directory, hp]
      rfl
    · intro w
      simp only [hitFound, hreq, Bool.true_and, Bool.or_eq_false_iff] at hmiss
      obtain ⟨⟨⟨h0, h1⟩, h2⟩, h3⟩ := hmiss
      rcases bitVec_two_cases w with rfl | rfl | rfl | rfl
      · exact h0
      · exact h1
      · exact h2
      · exact h3
  · have hdir : (s.step i).directory = s.directory := by
      rw [e, directory, directory, hp]
      rfl
    rw [hdir]
    exact .keep _

/-- The hit keeps the last way that matches. -/
lemma hitData_eq_lastWay (hr : i.imemReq = true) : s.hitData i =
    ((CacheTags.lastWay s.cacheAddr i.imemAddr).map fun w =>
      s.cacheInst (groupIndex i.imemAddr) w (lineWord i.imemAddr)).getD 0#32 := by
  have hw : s.hitWay i = CacheTags.matchesWay s.cacheAddr i.imemAddr := rfl
  have hlast : CacheTags.lastWay s.cacheAddr i.imemAddr =
      [3#2, 2#2, 1#2, 0#2].find? (CacheTags.matchesWay s.cacheAddr i.imemAddr) := rfl
  rw [hlast]
  simp only [hitData, hr, hw, List.find?_cons, List.find?_nil, Bool.not_true, Bool.false_eq_true,
    if_false]
  cases CacheTags.matchesWay s.cacheAddr i.imemAddr 3#2
  · cases CacheTags.matchesWay s.cacheAddr i.imemAddr 2#2
    · cases CacheTags.matchesWay s.cacheAddr i.imemAddr 1#2
      · cases CacheTags.matchesWay s.cacheAddr i.imemAddr 0#2 <;> rfl
      · rfl
    · rfl
  · rfl

/-- The directory along a run. -/
lemma directory_run (c : CacheInst) (v : BitVec 16) (ins : ℕ → BitVec 16 × CacheInstIn) (n : ℕ) :
    ((c.anyLfsr v).run ins n).directory.Ok LineOfSet :=
  Directory.ok_run (c.anyLfsr v) directory (Directory.ok_of_empty (fun _ _ => rfl) rfl)
    (fun s i => directory_step s i.2) ins n

/-- **In every state of every run** the cache searches for one way. -/
theorem searchesOneWay (c : CacheInst) (v : BitVec 16) (ins : ℕ → BitVec 16 × CacheInstIn)
    (n : ℕ) : ((c.anyLfsr v).run ins n).SearchesOneWay := by
  have hone := CacheTags.oneWay_of_ok (directory_run c v ins n)
  refine ⟨hone, fun i hr => hitData_eq_lastWay hr, ?_⟩
  intro i w hr hw
  rw [hitData_eq_lastWay hr, ← hone.search, hone.firstWay_eq hw]
  rfl

end CacheInst

/-! ### `L1_Cache_DATA` -/

namespace CacheData

variable (c : CacheData)

/-- The cache from reset with an LFSR that shows any values at all: `v` first, and after each edge
what the input says. -/
def anyLfsr (v : BitVec 16) : Machine (BitVec 16 × CacheDataIn) CacheData where
  init := { c.reset with lfsr := v }
  next s i := { s.step i.2 with lfsr := i.1 }

/-- The directory of the cache. -/
def directory (s : CacheData) : Directory (BitVec 4) (BitVec 2) (BitVec 32) where
  entry := CacheTags.entry s.cacheAddr
  fill :=
    if s.pendingReadMiss then some ⟨s.refillGroupIndex, s.refillWay, lineBase s.reqAddrReg⟩
    else none

/-- **The cache searches for one way**: the hit takes its word from the first way that matches,
and that is the way that matches; and a store that hits merges its word there, in the only way
that holds it, and nowhere else. -/
structure SearchesOneWay (s : CacheData) : Prop where
  oneWay : CacheTags.OneWay s.cacheAddr
  first : ∀ i, s.hitWay i = (CacheTags.firstWay s.cacheAddr i.req.addr).getD 0#2
  way : ∀ i w, CacheTags.matchesWay s.cacheAddr i.req.addr w = true → s.hitWay i = w
  write : ∀ i, s.takes i = true → i.req.ren = false → i.req.wen = true → s.hitNow i = true →
    ∃ w, (∀ w', CacheTags.matchesWay s.cacheAddr i.req.addr w' = true ↔ w' = w) ∧
      (s.step i).cacheAddr = s.cacheAddr ∧
      (s.step i).cacheData = s.setWord (groupIndex i.req.addr) w (lineWord i.req.addr)
        (cacheWriteWord (s.cacheData (groupIndex i.req.addr) w (lineWord i.req.addr))
          i.req.wdata i.req.size (bytePos i.req.addr))

variable {c} {s : CacheData} {i : CacheDataIn}

/-- An edge that neither finds a miss nor refills leaves the directory as it is. -/
lemma directory_congr {s' : CacheData} (ha : s'.cacheAddr = s.cacheAddr)
    (hm : s'.pendingReadMiss = s.pendingReadMiss)
    (hr : s.pendingReadMiss = true → s'.refillGroupIndex = s.refillGroupIndex ∧
      s'.refillWay = s.refillWay ∧ s'.reqAddrReg = s.reqAddrReg) :
    s'.directory = s.directory := by
  rw [directory, directory, ha, hm]
  cases hp : s.pendingReadMiss
  · rfl
  · obtain ⟨hg, hw, hq⟩ := hr hp
    rw [hg, hw, hq]

/-- **An edge of the cache is a step of its directory.** -/
theorem directory_step (s : CacheData) (i : CacheDataIn) :
    Directory.Step LineOfSet s.directory (s.step i).directory := by
  have hkeep : (s.step i).directory = s.directory →
      Directory.Step LineOfSet s.directory (s.step i).directory := by
    intro h
    rw [h]
    exact .keep _
  have hnone : s.pending = false → s.pendingReadMiss = false := by
    intro hp
    simp only [pending, Bool.or_eq_false_iff] at hp
    exact hp.1
  cases edge s i with
  | wait pending ready =>
    rw [step_wait pending ready] at hkeep ⊢
    exact hkeep (directory_congr rfl rfl fun _ => ⟨rfl, rfl, rfl⟩)
  | refill read ready =>
    have hdir : (s.step i).directory =
        ⟨Function.update s.directory.entry s.refillGroupIndex
          (Function.update (s.directory.entry s.refillGroupIndex) s.refillWay
            (some (lineBase s.reqAddrReg))), none⟩ := by
      rw [step_refill read ready, directory, CacheTags.entry_update]
      rfl
    rw [hdir]
    exact .fill _ ⟨s.refillGroupIndex, s.refillWay, lineBase s.reqAddrReg⟩ (by
      rw [directory, read, if_pos rfl])
  | written read write ready =>
    rw [step_written read write ready] at hkeep ⊢
    exact hkeep (directory_congr rfl read.symm fun h => absurd h (by simp [read]))
  | rest pending takes =>
    rw [step_rest pending takes] at hkeep ⊢
    exact hkeep (directory_congr rfl rfl fun _ => ⟨rfl, rfl, rfl⟩)
  | readHit pending takes ren hit =>
    rw [step_readHit takes ren hit] at hkeep ⊢
    exact hkeep (directory_congr rfl rfl fun _ => ⟨rfl, rfl, rfl⟩)
  | readMiss pending takes ren hit =>
    obtain ⟨-, -, hv⟩ := of_takes takes
    rw [step_readMiss takes ren hit]
    refine .miss _ ⟨groupIndex i.req.addr, s.victimWay, lineBase i.req.addr⟩ ?_
      (lineOfSet_lineBase _) (CacheTags.entry_ne_of_no_match ?_)
    · rw [directory, hnone pending]
      rfl
    · intro w
      by_contra hw
      rw [Bool.not_eq_false] at hw
      have hline := hitsLine_of_hitsWay (c := s) (i := i) hw
      simp [hitNow, hv, ren, pending, hline] at hit
  | write pending takes ren wen =>
    rw [step_write takes ren wen] at hkeep ⊢
    refine hkeep (directory_congr rfl rfl fun h => absurd h ?_)
    simp [hnone pending]

/-- The hit stops at the first way that matches. -/
lemma hitWay_eq_firstWay (s : CacheData) (i : CacheDataIn) :
    s.hitWay i = (CacheTags.firstWay s.cacheAddr i.req.addr).getD 0#2 := by
  have hw : s.hitsWay i = CacheTags.matchesWay s.cacheAddr i.req.addr := rfl
  have hfirst : CacheTags.firstWay s.cacheAddr i.req.addr =
      [0#2, 1#2, 2#2, 3#2].find? (CacheTags.matchesWay s.cacheAddr i.req.addr) := rfl
  rw [hfirst]
  simp only [hitWay, hw, List.find?_cons, List.find?_nil]
  cases CacheTags.matchesWay s.cacheAddr i.req.addr 0#2
  · cases CacheTags.matchesWay s.cacheAddr i.req.addr 1#2
    · cases CacheTags.matchesWay s.cacheAddr i.req.addr 2#2
      · cases CacheTags.matchesWay s.cacheAddr i.req.addr 3#2 <;> rfl
      · rfl
    · rfl
  · rfl

/-- The directory along a run. -/
lemma directory_run (c : CacheData) (v : BitVec 16) (ins : ℕ → BitVec 16 × CacheDataIn) (n : ℕ) :
    ((c.anyLfsr v).run ins n).directory.Ok LineOfSet :=
  Directory.ok_run (c.anyLfsr v) directory (Directory.ok_of_empty (fun _ _ => rfl) rfl)
    (fun s i => directory_step s i.2) ins n

/-- **In every state of every run** the cache searches for one way. -/
theorem searchesOneWay (c : CacheData) (v : BitVec 16) (ins : ℕ → BitVec 16 × CacheDataIn)
    (n : ℕ) : ((c.anyLfsr v).run ins n).SearchesOneWay := by
  have hone := CacheTags.oneWay_of_ok (directory_run c v ins n)
  have hway : ∀ i w, CacheTags.matchesWay ((c.anyLfsr v).run ins n).cacheAddr i.req.addr w = true →
      ((c.anyLfsr v).run ins n).hitWay i = w := by
    intro i w hw
    rw [hitWay_eq_firstWay, hone.firstWay_eq hw]
    rfl
  refine ⟨hone, hitWay_eq_firstWay _, hway, ?_⟩
  intro i ht hren hwen hit
  have hline : ((c.anyLfsr v).run ins n).hitsLine i = true := by
    simp only [hitNow, Bool.and_eq_true] at hit
    exact hit.2
  have hmatch := hitsWay_hitWay hline
  refine ⟨((c.anyLfsr v).run ins n).hitWay i, ?_, ?_, ?_⟩
  · intro w
    constructor
    · intro hw
      exact (hway i w hw).symm
    · rintro rfl
      exact hmatch
  · rw [step_write ht hren hwen]
  · rw [step_write ht hren hwen]
    simp only [mergedLines, hitWord, hit, if_true]

end CacheData

namespace DataRun

variable {c : CacheData} {d : DataMem} {ins : ℕ → DataReq}

/-- The cache over `data_mem` is the cache with one of these inputs. -/
lemma path_cache_eq_anyLfsr (n : ℕ) : (path c d ins n).cache = (c.anyLfsr Lfsr.reset).run
    (fun k => ((path c d ins (k + 1)).cache.lfsr, (path c d ins k).cacheIn (ins k))) n := by
  induction n with
  | zero => rfl
  | succ n ih =>
    rw [(c.anyLfsr Lfsr.reset).run_succ, ← ih]
    rfl

lemma directory_path (n : ℕ) : (path c d ins n).cache.directory.Ok LineOfSet := by
  rw [path_cache_eq_anyLfsr]
  exact CacheData.directory_run c _ _ n

/-- A line has one way in the cache over `data_mem`. -/
lemma way_unique (n : ℕ) : ∀ g w w', ((path c d ins n).cache.cacheAddr g w).valid = true →
    ((path c d ins n).cache.cacheAddr g w').valid = true →
    ((path c d ins n).cache.cacheAddr g w).addr = ((path c d ins n).cache.cacheAddr g w').addr →
    w = w' := by
  intro g w w' hv hv' ha
  exact (directory_path n).unique g w w' _ (CacheTags.entry_eq_some_iff.mpr ⟨hv, ha⟩)
    (CacheTags.entry_eq_some_iff.mpr ⟨hv', rfl⟩)

/-- The line of a load that has missed has no way. -/
lemma way_missing (n : ℕ) : (path c d ins n).cache.pendingReadMiss = true → ∀ w,
    ((path c d ins n).cache.cacheAddr (groupIndex (path c d ins n).cache.reqAddrReg) w).valid =
      true →
    ((path c d ins n).cache.cacheAddr (groupIndex (path c d ins n).cache.reqAddrReg) w).addr ≠
      lineBase (path c d ins n).cache.reqAddrReg := by
  intro hp w hv ha
  have hfill : (path c d ins n).cache.directory.fill =
      some ⟨(path c d ins n).cache.refillGroupIndex, (path c d ins n).cache.refillWay,
        lineBase (path c d ins n).cache.reqAddrReg⟩ := by
    rw [CacheData.directory, hp, if_pos rfl]
  refine (directory_path n).missing _ hfill w (CacheTags.entry_eq_some_iff.mpr ?_)
  rw [((serves c d ins n).refill hp).1]
  exact ⟨hv, ha⟩

end DataRun

/-- **In both caches a line has one way**, and each search finds it, in every state of every run,
whatever comes from above and from below and whatever the LFSR shows. -/
theorem caches_search_one_way :
    (∀ (c : CacheInst) (v : BitVec 16) (ins : ℕ → BitVec 16 × CacheInstIn) (n : ℕ),
      ((c.anyLfsr v).run ins n).SearchesOneWay) ∧
    ∀ (c : CacheData) (v : BitVec 16) (ins : ℕ → BitVec 16 × CacheDataIn) (n : ℕ),
      ((c.anyLfsr v).run ins n).SearchesOneWay :=
  ⟨CacheInst.searchesOneWay, CacheData.searchesOneWay⟩

end RiscvSoc.Rtl
