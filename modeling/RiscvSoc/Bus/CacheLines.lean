import RiscvSoc.Bus.CacheStores
import RiscvSoc.Bus.Directories

/-!
# The lines of the data cache

A store merges its word into the line that holds it; a refill makes a whole line valid with one
word of it.  So the valid lines have the words of the memory as long as every refill finds the
other three words of its line in the way that it fills.
-/

namespace RiscvSoc.Rtl

open Sync

/-! ### Addresses of the memory -/

lemma wordAddr_toNat (a : BitVec 32) : (wordAddr a).toNat = a.toNat / 4 % 1024 := by
  rw [wordAddr, BitVec.extractLsb'_toNat, Nat.shiftRight_eq_div_pow]

lemma wordAddr_wordOfLine (a : BitVec 32) :
    wordAddr (wordOfLine (lineBase a) (lineWord a)) = wordAddr a := by
  apply BitVec.eq_of_toNat_eq
  rw [wordAddr_toNat, wordAddr_toNat, wordOfLine_toNat, lineWord_toNat]
  omega

/-- Below address 4096 a word belongs to one line. -/
lemma eq_of_wordAddr_eq {a b : BitVec 32} {k : BitVec 2} (hbase : lineBase a = a)
    (ha : a.toNat < 4096) (hb : b.toNat < 4096)
    (h : wordAddr (wordOfLine a k) = wordAddr b) : a = lineBase b ∧ k = lineWord b := by
  have hk := k.isLt
  have hbase' := congrArg BitVec.toNat hbase
  have h' := congrArg BitVec.toNat h
  rw [← hbase, wordAddr_toNat, wordAddr_toNat, wordOfLine_toNat] at h'
  rw [lineBase_toNat] at hbase'
  constructor
  · apply BitVec.eq_of_toNat_eq
    rw [lineBase_toNat]
    omega
  · apply BitVec.eq_of_toNat_eq
    rw [lineWord_toNat]
    omega

namespace DataRun

section Observer

variable (c : CacheData) (d : DataMem) (ins : ℕ → DataReq)

/-- **A refill that finds the rest of its line**: the way that it fills has the other three words
already. -/
def FindsRest (n : ℕ) : Prop :=
  (path c d ins n).cache.pendingReadMiss = true → (path c d ins n).mem.ready = true →
    ∀ k, k ≠ lineWord (path c d ins n).cache.reqAddrReg →
      (path c d ins n).cache.cacheData (path c d ins n).cache.refillGroupIndex
          (path c d ins n).cache.refillWay k =
        (path c d ins n).mem.word
          (wordAddr (wordOfLine (lineBase (path c d ins n).cache.reqAddrReg) k))

/-- A line of the cache, with the words of a memory. -/
structure HoldsWords (f : BitVec 10 → BitVec 32) (g : BitVec 4) (a : BitVec 32)
    (line : CacheLine) : Prop where
  base : lineBase a = a
  set : groupIndex a = g
  below : a.toNat < 4096
  words : ∀ k, line k = f (wordAddr (wordOfLine a k))

/-- **The lines of the cache**: each is right but for the store under way, and none is there
twice or about to be. -/
structure LinesOk (n : ℕ) : Prop where
  line : ∀ g w, ((path c d ins n).cache.cacheAddr g w).valid = true →
    HoldsWords (view c d ins n) g ((path c d ins n).cache.cacheAddr g w).addr
      ((path c d ins n).cache.cacheData g w)
  unique : ∀ g w w', ((path c d ins n).cache.cacheAddr g w).valid = true →
    ((path c d ins n).cache.cacheAddr g w').valid = true →
    ((path c d ins n).cache.cacheAddr g w).addr = ((path c d ins n).cache.cacheAddr g w').addr →
    w = w'
  missBelow : (path c d ins n).cache.pendingReadMiss = true →
    (path c d ins n).cache.reqAddrReg.toNat < 4096
  missing : (path c d ins n).cache.pendingReadMiss = true → ∀ w,
    ((path c d ins n).cache.cacheAddr (groupIndex (path c d ins n).cache.reqAddrReg) w).valid =
      true →
    ((path c d ins n).cache.cacheAddr (groupIndex (path c d ins n).cache.reqAddrReg) w).addr ≠
      lineBase (path c d ins n).cache.reqAddrReg

end Observer

variable {c : CacheData} {d : DataMem} {ins : ℕ → DataReq} {n : ℕ}

/-! ### The lines -/

/-- A way that hits holds the line of the request. -/
lemma LinesOk.addr_of_hitsWay (h : LinesOk c d ins n) {w : BitVec 2}
    (hw : (path c d ins n).cache.hitsWay ((path c d ins n).cacheIn (ins n)) w = true) :
    ((path c d ins n).cache.cacheAddr (groupIndex (ins n).addr) w).valid = true ∧
      ((path c d ins n).cache.cacheAddr (groupIndex (ins n).addr) w).addr =
        lineBase (ins n).addr := by
  simp only [CacheData.hitsWay, DataPath.cacheIn, Bool.and_eq_true, beq_iff_eq] at hw
  obtain ⟨hv, ht⟩ := hw
  refine ⟨hv, ?_⟩
  rw [← (h.line _ _ hv).base]
  exact lineBase_congr ht

/-- A valid line of the request hits. -/
lemma hitsWay_of_addr {w : BitVec 2}
    (hv : ((path c d ins n).cache.cacheAddr (groupIndex (ins n).addr) w).valid = true)
    (ha : ((path c d ins n).cache.cacheAddr (groupIndex (ins n).addr) w).addr =
      lineBase (ins n).addr) :
    (path c d ins n).cache.hitsWay ((path c d ins n).cacheIn (ins n)) w = true := by
  simp only [CacheData.hitsWay, DataPath.cacheIn, Bool.and_eq_true, beq_iff_eq]
  refine ⟨hv, ?_⟩
  rw [ha, lineBase, BitVec.extractLsb'_append_eq_left]

/-- A line whose word the request does not name keeps its words. -/
lemma HoldsWords.of_ne {f : BitVec 10 → BitVec 32} {g : BitVec 4} {a b v : BitVec 32}
    {line : CacheLine} (h : HoldsWords f g a line) (hb : b.toNat < 4096) (hne : a ≠ lineBase b) :
    HoldsWords (Function.update f (wordAddr b) v) g a line where
  base := h.base
  set := h.set
  below := h.below
  words k := by
    rw [Function.update_of_ne, h.words]
    intro he
    exact hne (eq_of_wordAddr_eq h.base h.below hb he).1

/-- A line whose word is changed with the memory. -/
lemma HoldsWords.update {f : BitVec 10 → BitVec 32} {g : BitVec 4} {b v : BitVec 32}
    {line : CacheLine} (h : HoldsWords f g (lineBase b) line) (hb : b.toNat < 4096) :
    HoldsWords (Function.update f (wordAddr b) v) g (lineBase b)
      (Function.update line (lineWord b) v) where
  base := h.base
  set := h.set
  below := h.below
  words k := by
    by_cases hk : k = lineWord b
    · subst hk
      rw [Function.update_self, wordAddr_wordOfLine, Function.update_self]
    · rw [Function.update_of_ne hk, Function.update_of_ne, h.words]
      intro he
      exact hk (eq_of_wordAddr_eq h.base h.below hb he).2

/-- Nothing happens to the lines. -/
lemma LinesOk.same (h : LinesOk c d ins n)
    (haddr : (path c d ins (n + 1)).cache.cacheAddr = (path c d ins n).cache.cacheAddr)
    (hdata : (path c d ins (n + 1)).cache.cacheData = (path c d ins n).cache.cacheData)
    (hview : view c d ins (n + 1) = view c d ins n)
    (hmiss : (path c d ins (n + 1)).cache.pendingReadMiss = true →
      (path c d ins n).cache.pendingReadMiss = true ∧
        (path c d ins (n + 1)).cache.reqAddrReg = (path c d ins n).cache.reqAddrReg) :
    LinesOk c d ins (n + 1) where
  line := by
    rw [haddr, hdata, hview]
    exact h.line
  unique := way_unique (n + 1)
  missBelow hp := by
    obtain ⟨hp', ha⟩ := hmiss hp
    rw [ha]
    exact h.missBelow hp'
  missing := way_missing (n + 1)

/-- A load that misses finds its line in no way. -/
lemma LinesOk.step_readMiss (h : LinesOk c d ins n) (hh : WordRequests c d ins)
    (ht : takes c d ins n = true) (hren : (ins n).ren = true)
    (hit : (path c d ins n).cache.hitNow ((path c d ins n).cacheIn (ins n)) = false)
    (hview : view c d ins (n + 1) = view c d ins n) : LinesOk c d ins (n + 1) := by
  obtain ⟨hp, -, hv⟩ := CacheData.of_takes ht
  have hc := cache_succ c d ins n
  rw [CacheData.step_readMiss ht hren hit] at hc
  refine ⟨?_, way_unique (n + 1), ?_, way_missing (n + 1)⟩
  · rw [hc, hview]
    exact h.line
  · intro _
    rw [hc]
    exact hh.below n hv

/-- **A refill keeps the lines right** if it finds the rest of its line. -/
lemma LinesOk.step_refill (h : LinesOk c d ins n)
    (hread : (path c d ins n).cache.pendingReadMiss = true)
    (hready : (path c d ins n).mem.ready = true) (hrest : FindsRest c d ins n)
    (hview : view c d ins (n + 1) = view c d ins n) : LinesOk c d ins (n + 1) := by
  have hserves := serves c d ins n
  obtain ⟨hgroup, hoff⟩ := hserves.refill hread
  have hmem := view_of_not_write (hserves.exclusive hread)
  have hc := cache_succ c d ins n
  rw [CacheData.step_refill hread hready] at hc
  refine ⟨?_, way_unique (n + 1), ?_, way_missing (n + 1)⟩
  · intro g w hv
    rw [hc] at hv ⊢
    rw [hview]
    simp only [CacheData.setWord] at hv ⊢
    by_cases hg : g = (path c d ins n).cache.refillGroupIndex
    · subst hg
      by_cases hw : w = (path c d ins n).cache.refillWay
      · subst hw
        simp only [Function.update_self]
        refine ⟨lineBase_lineBase _, ?_, ?_, ?_⟩
        · rw [groupIndex_lineBase, hgroup]
        · have hb := h.missBelow hread
          rw [lineBase_toNat]
          omega
        · intro k
          rw [hmem]
          by_cases hk : k = lineWord (path c d ins n).cache.reqAddrReg
          · rw [hoff, hk, Function.update_self, wordAddr_wordOfLine]
            exact hserves.answer hread hready
          · rw [hoff, Function.update_of_ne hk]
            exact hrest hread hready k hk
      · simp only [Function.update_self, Function.update_of_ne hw] at hv ⊢
        exact h.line _ _ hv
    · simp only [Function.update_of_ne hg] at hv ⊢
      exact h.line _ _ hv
  · intro hp
    rw [hc] at hp
    cases hp

/-- **A store keeps the lines right**: the way that hits takes its word, and no other has it. -/
lemma LinesOk.step_write (h : LinesOk c d ins n) (hh : WordRequests c d ins)
    (ht : takes c d ins n = true) (hren : (ins n).ren = false) (hwen : (ins n).wen = true) :
    LinesOk c d ins (n + 1) := by
  obtain ⟨hp, -, hv⟩ := CacheData.of_takes ht
  have hbelow := hh.below n hv
  have hview := view_succ hh n
  rw [ht, hwen, Bool.and_self, if_pos rfl] at hview
  have hc := cache_succ c d ins n
  rw [CacheData.step_write ht hren hwen] at hc
  have hreq : ((path c d ins n).cacheIn (ins n)).req = ins n := rfl
  have hsize : ((path c d ins n).cacheIn (ins n)).req.size = memSizeWord := hh.size n hv
  have hmiss : (path c d ins (n + 1)).cache.pendingReadMiss = false := by
    simp only [CacheData.pending, Bool.or_eq_false_iff] at hp
    rw [hc]
    exact hp.1
  have hnow : (path c d ins n).cache.hitNow ((path c d ins n).cacheIn (ins n)) =
      (path c d ins n).cache.hitsLine ((path c d ins n).cacheIn (ins n)) := by
    have hv' : (ins n).valid = true := hv
    simp [CacheData.hitNow, hreq, hv', hwen, hp]
  refine ⟨?_, way_unique (n + 1), ?_, way_missing (n + 1)⟩
  · intro g w hvw
    rw [hc] at hvw ⊢
    rw [hview]
    simp only at hvw ⊢
    have hl := h.line g w hvw
    by_cases ha : ((path c d ins n).cache.cacheAddr g w).addr = lineBase (ins n).addr
    · -- The line of the store: it is the way that hits.
      have hg : g = groupIndex (ins n).addr := by
        rw [← hl.set, ha, groupIndex_lineBase]
      subst hg
      have hhit := CacheData.hitsLine_of_hitsWay (hitsWay_of_addr hvw ha)
      obtain ⟨hv', ha'⟩ := h.addr_of_hitsWay (CacheData.hitsWay_hitWay hhit)
      have hw := h.unique _ _ _ hvw hv' (ha.trans ha'.symm)
      rw [CacheData.mergedLines, hnow, hhit, if_pos rfl, hsize, cacheWriteWord_word,
        CacheData.setWord, hreq, ← hw]
      simp only [Function.update_self]
      rw [ha] at hl ⊢
      exact hl.update hbelow
    · have hkeep : (path c d ins n).cache.mergedLines ((path c d ins n).cacheIn (ins n)) g w =
          (path c d ins n).cache.cacheData g w := by
        rw [CacheData.mergedLines, hnow, hreq]
        split_ifs with hhit
        · obtain ⟨-, ha'⟩ := h.addr_of_hitsWay (CacheData.hitsWay_hitWay hhit)
          rw [CacheData.setWord]
          by_cases hg : g = groupIndex (ins n).addr
          · subst hg
            have hw : w ≠ (path c d ins n).cache.hitWay ((path c d ins n).cacheIn (ins n)) := by
              rintro rfl
              exact ha ha'
            rw [Function.update_self, Function.update_of_ne hw]
          · rw [Function.update_of_ne hg]
        · rfl
      rw [hkeep]
      exact hl.of_ne hbelow ha
  · intro hx
    rw [hmiss] at hx
    cases hx

/-- **One cycle keeps the lines right** unless a refill does not find the rest of its line. -/
theorem LinesOk.step (h : LinesOk c d ins n) (hh : WordRequests c d ins)
    (hrest : FindsRest c d ins n) : LinesOk c d ins (n + 1) := by
  have hc := cache_succ c d ins n
  have hview := view_succ hh n
  have hload : (takes c d ins n && (ins n).wen) = false → view c d ins (n + 1) = view c d ins n :=
    fun hn => by rw [hview, hn]; rfl
  cases CacheData.edge (path c d ins n).cache ((path c d ins n).cacheIn (ins n)) with
  | wait pending ready =>
    have hnt : takes c d ins n = false := not_takes_of_pending pending
    rw [CacheData.step_wait pending ready] at hc
    refine h.same (by rw [hc]) (by rw [hc]) (hload (by rw [hnt]; rfl)) ?_
    intro hp
    rw [hc] at hp ⊢
    exact ⟨hp, rfl⟩
  | refill read ready =>
    have hnt : takes c d ins n = false :=
      not_takes_of_pending (CacheData.pending_of_read read)
    exact h.step_refill read ready hrest (hload (by rw [hnt]; rfl))
  | written read write ready =>
    have hnt : takes c d ins n = false :=
      not_takes_of_pending (CacheData.pending_of_write write)
    rw [CacheData.step_written read write ready] at hc
    refine h.same (by rw [hc]) (by rw [hc]) (hload (by rw [hnt]; rfl)) ?_
    intro hp
    rw [hc] at hp
    cases hp
  | rest pending takes =>
    have hnt : DataRun.takes c d ins n = false := takes
    rw [CacheData.step_rest pending takes] at hc
    refine h.same (by rw [hc]) (by rw [hc]) (hload (by rw [hnt]; rfl)) ?_
    intro hp
    rw [hc] at hp ⊢
    exact ⟨hp, rfl⟩
  | readHit pending takes ren hit =>
    have hwen := hh.not_wen_of_ren (CacheData.of_takes takes).2.2 ren
    rw [CacheData.step_readHit takes ren hit] at hc
    refine h.same (by rw [hc]) (by rw [hc]) (hload (by rw [hwen, Bool.and_false])) ?_
    intro hp
    rw [hc] at hp ⊢
    exact ⟨hp, rfl⟩
  | readMiss pending takes ren hit =>
    have hwen := hh.not_wen_of_ren (CacheData.of_takes takes).2.2 ren
    exact h.step_readMiss hh takes ren hit (hload (by rw [hwen, Bool.and_false]))
  | write pending takes ren wen => exact h.step_write hh takes ren wen

lemma linesOk_zero : LinesOk c d ins 0 := by
  refine ⟨?_, way_unique 0, ?_, way_missing 0⟩
  · intro g w hv
    cases hv
  · intro hp
    cases hp

end DataRun

end RiscvSoc.Rtl
