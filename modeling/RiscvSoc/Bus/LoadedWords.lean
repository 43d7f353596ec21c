import RiscvSoc.Bus.CacheLines

/-!
# The words that are loaded through the data cache

A refill brings one word of a line and makes the whole line valid.  If the loads go to one word of
each line, the words that they find are right all the same, whatever the stores write.
-/

namespace RiscvSoc.Rtl

open Sync

/-! ### Lines -/

/-- Of the words of a line at most one is in `U`. -/
def OnePerLine (U : BitVec 10 → Prop) : Prop :=
  ∀ a b, U a → U b → a.toNat / 4 = b.toNat / 4 → a = b

/-- A line of the cache has those of its words that are in `U`. -/
def LineLoads (U : BitVec 10 → Prop) (f : BitVec 10 → BitVec 32) (g : BitVec 4) (a : BitVec 32)
    (line : CacheLine) : Prop :=
  ∃ whole, DataRun.HoldsWords f g a whole ∧
    ∀ k, U (wordAddr (wordOfLine a k)) → line k = whole k

section Lines

variable {U : BitVec 10 → Prop} {f : BitVec 10 → BitVec 32} {g : BitVec 4} {a b v : BitVec 32}
  {line : CacheLine}

lemma LineLoads.of_ne (h : LineLoads U f g a line) (hb : b.toNat < 4096) (hne : a ≠ lineBase b) :
    LineLoads U (Function.update f (wordAddr b) v) g a line := by
  obtain ⟨whole, hw, hl⟩ := h
  exact ⟨whole, hw.of_ne hb hne, hl⟩

lemma LineLoads.update (h : LineLoads U f g (lineBase b) line) (hb : b.toNat < 4096) :
    LineLoads U (Function.update f (wordAddr b) v) g (lineBase b)
      (Function.update line (lineWord b) v) := by
  obtain ⟨whole, hw, hl⟩ := h
  refine ⟨Function.update whole (lineWord b) v, hw.update hb, ?_⟩
  intro k hk
  by_cases he : k = lineWord b
  · subst he
    rw [Function.update_self, Function.update_self]
  · rw [Function.update_of_ne he, Function.update_of_ne he]
    exact hl k hk

lemma LineLoads.word (h : LineLoads U f g (lineBase b) line) (hb : U (wordAddr b)) :
    line (lineWord b) = f (wordAddr b) := by
  obtain ⟨whole, hw, hl⟩ := h
  rw [hl _ (by rwa [wordAddr_wordOfLine]), hw.words, wordAddr_wordOfLine]

/-- The words of a line are those of a block of four words of the memory. -/
lemma wordAddr_wordOfLine_div (b : BitVec 32) (k : BitVec 2) :
    (wordAddr (wordOfLine (lineBase b) k)).toNat / 4 = (wordAddr b).toNat / 4 := by
  have hk := k.isLt
  rw [wordAddr_toNat, wordAddr_toNat, wordOfLine_toNat]
  omega

/-- **A refill brings all that is loaded from its line.** -/
lemma lineLoads_of_refill (hU : OnePerLine U) (hb : b.toNat < 4096) (hload : U (wordAddr b))
    (line : CacheLine) : LineLoads U f (groupIndex b) (lineBase b)
      (Function.update line (lineWord b) (f (wordAddr b))) := by
  have hbelow : (lineBase b).toNat < 4096 := by
    rw [lineBase_toNat]
    omega
  refine ⟨fun k => f (wordAddr (wordOfLine (lineBase b) k)),
    ⟨lineBase_lineBase b, groupIndex_lineBase b, hbelow, fun _ => rfl⟩, ?_⟩
  intro k hk
  have he := hU _ _ hk hload (wordAddr_wordOfLine_div b k)
  obtain ⟨-, rfl⟩ := eq_of_wordAddr_eq (lineBase_lineBase b) hbelow hb he
  rw [Function.update_self]
  exact congrArg f he.symm

end Lines

namespace DataPath

/-! ### The words below the cache -/

/-- A request for a word of the memory, which is in `U` if it is loaded. -/
structure Asks (U : BitVec 10 → Prop) (q : DataReq) : Prop where
  oneKind : q.valid = true → q.wen = !q.ren
  size : q.valid = true → q.size = memSizeWord
  below : q.valid = true → q.addr.toNat < 4096
  load : q.valid = true → q.ren = true → U (wordAddr q.addr)

/-- **What is loaded is right**: the memory serves the request, a line has one way, and the valid
lines have the words in `U`. -/
structure LoadsOk (U : BitVec 10 → Prop) (s : DataPath) : Prop extends Serves s where
  directory : s.cache.directory.Ok LineOfSet
  line : ∀ g w, (s.cache.cacheAddr g w).valid = true →
    LineLoads U s.view g (s.cache.cacheAddr g w).addr (s.cache.cacheData g w)
  miss : s.cache.pendingReadMiss = true →
    s.cache.reqAddrReg.toNat < 4096 ∧ U (wordAddr s.cache.reqAddrReg)
  writeSize : s.cache.pendingWriteThrough = true → s.cache.reqSizeReg = memSizeWord

variable {U : BitVec 10 → Prop} {s : DataPath} {q : DataReq}

lemma view_of_not_write (h : s.cache.pendingWriteThrough = false) : s.view = s.mem.word := by
  rw [view, h]
  rfl

lemma view_of_not_pending (h : s.cache.pending = false) : s.view = s.mem.word := by
  simp only [CacheData.pending, Bool.or_eq_false_iff] at h
  exact view_of_not_write h.2

lemma view_of_write (h : s.cache.pendingWriteThrough = true) : s.view =
    Function.update s.mem.word (wordAddr s.cache.reqAddrReg) s.cache.reqWdataReg := by
  rw [view, if_pos h]

lemma loadsOk_reset (U : BitVec 10 → Prop) (c : CacheData) (d : DataMem) :
    LoadsOk U ⟨c.reset, d.reset⟩ :=
  ⟨serves_reset c d, Directory.ok_of_empty (fun _ _ => rfl) rfl, nofun, nofun, nofun⟩

/-- Without a store under way the words stay. -/
lemma LoadsOk.view_of_no_store (h : LoadsOk U s) (hw : s.cache.pendingWriteThrough = false)
    (hw' : (s.step q).cache.pendingWriteThrough = false) : (s.step q).view = s.view := by
  rw [view_of_not_write hw', view_of_not_write hw, h.word_step_of_not_write hw]

lemma not_write_of_not_pending (h : s.cache.pending = false) :
    s.cache.pendingWriteThrough = false := by
  simp only [CacheData.pending, Bool.or_eq_false_iff] at h
  exact h.2

lemma Asks.not_wen (hq : Asks U q) (hv : q.valid = true) (hr : q.ren = true) :
    q.wen = false := by
  rw [hq.oneKind hv, hr]
  rfl

/-- **A store reaches the words when it is taken**, and nothing else does. -/
theorem LoadsOk.view_step (h : LoadsOk U s) (hq : Asks U q) : (s.step q).view =
    if s.cache.takes (s.cacheIn q) && q.wen then
      Function.update s.view (wordAddr q.addr) q.wdata
    else s.view := by
  have hc : (s.step q).cache = s.cache.step (s.cacheIn q) := rfl
  have hkeep : (s.cache.takes (s.cacheIn q) && q.wen) = false →
      (s.step q).view = s.view → (s.step q).view =
        if s.cache.takes (s.cacheIn q) && q.wen then
          Function.update s.view (wordAddr q.addr) q.wdata
        else s.view := by
    intro hn hv
    rw [hn, hv]
    rfl
  cases CacheData.edge s.cache (s.cacheIn q) with
  | wait pending ready =>
    rw [CacheData.step_wait pending ready] at hc
    refine hkeep (by simp [CacheData.takes, pending]) ?_
    cases hw : s.cache.pendingWriteThrough
    · exact h.view_of_no_store hw (by rw [hc]; exact hw)
    · rw [view_of_write (by rw [hc]; exact hw), view_of_write hw,
        h.word_step_of_write hw (h.writeSize hw), hc]
      exact Function.update_idem _ _ _
  | refill read ready =>
    rw [CacheData.step_refill read ready] at hc
    refine hkeep (by simp [CacheData.takes, CacheData.pending_of_read read]) ?_
    exact h.view_of_no_store (h.exclusive read) (by rw [hc])
  | written read write ready =>
    rw [CacheData.step_written read write ready] at hc
    refine hkeep (by simp [CacheData.takes, CacheData.pending_of_write write]) ?_
    rw [view_of_not_write (by rw [hc]), view_of_write write,
      h.word_step_of_write write (h.writeSize write)]
  | rest pending takes =>
    have hw : s.cache.pendingWriteThrough = false := not_write_of_not_pending pending
    rw [CacheData.step_rest pending takes] at hc
    exact hkeep (by rw [takes]; rfl) (h.view_of_no_store hw (by rw [hc]; exact hw))
  | readHit pending takes ren hit =>
    have hw : s.cache.pendingWriteThrough = false := not_write_of_not_pending pending
    have hwen := hq.not_wen (CacheData.of_takes takes).2.2 ren
    rw [CacheData.step_readHit takes ren hit] at hc
    exact hkeep (by rw [hwen, Bool.and_false]) (h.view_of_no_store hw (by rw [hc]; exact hw))
  | readMiss pending takes ren hit =>
    have hw : s.cache.pendingWriteThrough = false := not_write_of_not_pending pending
    have hwen := hq.not_wen (CacheData.of_takes takes).2.2 ren
    rw [CacheData.step_readMiss takes ren hit] at hc
    exact hkeep (by rw [hwen, Bool.and_false]) (h.view_of_no_store hw (by rw [hc]; exact hw))
  | write pending takes ren wen =>
    have hw : s.cache.pendingWriteThrough = false := not_write_of_not_pending pending
    have hwen : q.wen = true := wen
    rw [CacheData.step_write takes ren wen] at hc
    rw [takes, hwen, view_of_not_write hw, view_of_write (by rw [hc]),
      h.word_step_of_not_write hw, hc]
    rfl

/-! ### Hits -/

/-- A way that hits has the line of the request. -/
lemma LoadsOk.addr_of_hitsWay (h : LoadsOk U s) {w : BitVec 2}
    (hw : s.cache.hitsWay (s.cacheIn q) w = true) :
    (s.cache.cacheAddr (groupIndex q.addr) w).valid = true ∧
      (s.cache.cacheAddr (groupIndex q.addr) w).addr = lineBase q.addr := by
  simp only [CacheData.hitsWay, cacheIn, Bool.and_eq_true, beq_iff_eq] at hw
  obtain ⟨hv, ht⟩ := hw
  refine ⟨hv, ?_⟩
  have hbase := (h.directory.atHome _ w _ (CacheTags.entry_eq_some_iff.mpr ⟨hv, rfl⟩)).lineBase_eq
  rw [← hbase]
  exact lineBase_congr ht

/-- A way with the line of the request is the way that hits. -/
lemma LoadsOk.hitWay_eq (h : LoadsOk U s) {w : BitVec 2}
    (hv : (s.cache.cacheAddr (groupIndex q.addr) w).valid = true)
    (ha : (s.cache.cacheAddr (groupIndex q.addr) w).addr = lineBase q.addr) :
    s.cache.hitsLine (s.cacheIn q) = true ∧ s.cache.hitWay (s.cacheIn q) = w := by
  have hw : s.cache.hitsWay (s.cacheIn q) w = true := by
    simp only [CacheData.hitsWay, cacheIn, Bool.and_eq_true, beq_iff_eq]
    refine ⟨hv, ?_⟩
    rw [ha, lineBase, BitVec.extractLsb'_append_eq_left]
  have hline := CacheData.hitsLine_of_hitsWay hw
  obtain ⟨hv', ha'⟩ := h.addr_of_hitsWay (CacheData.hitsWay_hitWay hline)
  refine ⟨hline, ?_⟩
  exact h.directory.unique _ _ _ _ (CacheTags.entry_eq_some_iff.mpr ⟨hv', ha'⟩)
    (CacheTags.entry_eq_some_iff.mpr ⟨hv, ha⟩)

/-- **A load that hits finds its word.** -/
lemma LoadsOk.hitWord (h : LoadsOk U s) (hq : Asks U q) (hren : q.ren = true)
    (hit : s.cache.hitNow (s.cacheIn q) = true) :
    s.cache.hitWord (s.cacheIn q) = s.view (wordAddr q.addr) := by
  have hparts := hit
  simp only [CacheData.hitNow, Bool.and_eq_true] at hparts
  obtain ⟨⟨⟨hv, -⟩, -⟩, hline⟩ := hparts
  obtain ⟨hvw, ha⟩ := h.addr_of_hitsWay (CacheData.hitsWay_hitWay hline)
  have hl := h.line _ _ hvw
  rw [ha] at hl
  rw [CacheData.hitWord, if_pos hit]
  exact hl.word (hq.load hv hren)

/-! ### One cycle -/

/-- Nothing happens to the lines. -/
lemma LoadsOk.same_lines (h : LoadsOk U s)
    (haddr : (s.step q).cache.cacheAddr = s.cache.cacheAddr)
    (hdata : (s.step q).cache.cacheData = s.cache.cacheData) (hview : (s.step q).view = s.view) :
    ∀ g w, ((s.step q).cache.cacheAddr g w).valid = true →
      LineLoads U (s.step q).view g ((s.step q).cache.cacheAddr g w).addr
        ((s.step q).cache.cacheData g w) := by
  rw [haddr, hdata, hview]
  exact h.line

/-- The lines after a refill. -/
lemma LoadsOk.lines_of_refill (h : LoadsOk U s) (hU : OnePerLine U)
    (read : s.cache.pendingReadMiss = true) (ready : s.mem.ready = true)
    (hview : (s.step q).view = s.view) :
    ∀ g w, ((s.step q).cache.cacheAddr g w).valid = true →
      LineLoads U (s.step q).view g ((s.step q).cache.cacheAddr g w).addr
        ((s.step q).cache.cacheData g w) := by
  have hc : (s.step q).cache = s.cache.step (s.cacheIn q) := rfl
  rw [CacheData.step_refill read ready] at hc
  obtain ⟨hgroup, hoff⟩ := h.refill read
  obtain ⟨hbelow, hload⟩ := h.miss read
  have hword : s.mem.dataOut = s.view (wordAddr s.cache.reqAddrReg) := by
    rw [view_of_not_write (h.exclusive read)]
    exact h.answer read ready
  intro g w hv
  rw [hview]
  rw [hc] at hv ⊢
  simp only [CacheData.setWord] at hv ⊢
  by_cases hg : g = s.cache.refillGroupIndex
  · subst hg
    by_cases hw : w = s.cache.refillWay
    · subst hw
      simp only [Function.update_self]
      rw [hoff, hgroup, show (s.cacheIn q).memRdata = s.mem.dataOut from rfl, hword]
      exact lineLoads_of_refill hU hbelow hload _
    · simp only [Function.update_self, Function.update_of_ne hw] at hv ⊢
      exact h.line _ _ hv
  · simp only [Function.update_of_ne hg] at hv ⊢
    exact h.line _ _ hv

/-- The lines after a store: the way that hits takes its word, and no other has its line. -/
lemma LoadsOk.lines_of_write (h : LoadsOk U s) (hq : Asks U q)
    (takes : s.cache.takes (s.cacheIn q) = true) (ren : q.ren = false) (wen : q.wen = true)
    (hview : (s.step q).view = Function.update s.view (wordAddr q.addr) q.wdata) :
    ∀ g w, ((s.step q).cache.cacheAddr g w).valid = true →
      LineLoads U (s.step q).view g ((s.step q).cache.cacheAddr g w).addr
        ((s.step q).cache.cacheData g w) := by
  have hc : (s.step q).cache = s.cache.step (s.cacheIn q) := rfl
  rw [CacheData.step_write takes ren wen] at hc
  obtain ⟨hp, -, hv⟩ := CacheData.of_takes takes
  have hv' : q.valid = true := hv
  have hbelow := hq.below hv'
  have hsize : (s.cacheIn q).req.size = memSizeWord := hq.size hv'
  have hnow : s.cache.hitNow (s.cacheIn q) = s.cache.hitsLine (s.cacheIn q) := by
    simp [CacheData.hitNow, cacheIn, hv', wen, hp]
  intro g w hvw
  rw [hview]
  rw [hc] at hvw ⊢
  simp only at hvw ⊢
  have hl := h.line g w hvw
  by_cases ha : (s.cache.cacheAddr g w).addr = lineBase q.addr
  · have hg : groupIndex q.addr = g := by
      have hhome := h.directory.atHome g w _ (CacheTags.entry_eq_some_iff.mpr ⟨hvw, rfl⟩)
      rw [← hhome.1, ha]
      exact (groupIndex_lineBase q.addr).symm
    subst hg
    obtain ⟨hline, hway⟩ := h.hitWay_eq hvw ha
    rw [CacheData.mergedLines, hnow, hline, if_pos rfl, hsize, cacheWriteWord_word,
      CacheData.setWord, hway, show (s.cacheIn q).req = q from rfl]
    simp only [Function.update_self]
    rw [ha] at hl ⊢
    exact hl.update hbelow
  · have hkeep : s.cache.mergedLines (s.cacheIn q) g w = s.cache.cacheData g w := by
      rw [CacheData.mergedLines, hnow, show (s.cacheIn q).req = q from rfl]
      split_ifs with hhit
      · obtain ⟨-, ha'⟩ := h.addr_of_hitsWay (CacheData.hitsWay_hitWay hhit)
        rw [CacheData.setWord]
        by_cases hg : g = groupIndex q.addr
        · subst hg
          have hw : w ≠ s.cache.hitWay (s.cacheIn q) := by
            rintro rfl
            exact ha ha'
          rw [Function.update_self, Function.update_of_ne hw]
        · rw [Function.update_of_ne hg]
      · rfl
    rw [hkeep]
    exact hl.of_ne hbelow ha

/-- **One cycle keeps what is loaded right.** -/
theorem LoadsOk.step (h : LoadsOk U s) (hU : OnePerLine U) (hq : Asks U q) :
    LoadsOk U (s.step q) := by
  have hc : (s.step q).cache = s.cache.step (s.cacheIn q) := rfl
  have hview := h.view_step hq
  have hdir : (s.step q).cache.directory.Ok LineOfSet :=
    h.directory.step (CacheData.directory_step s.cache (s.cacheIn q))
  cases CacheData.edge s.cache (s.cacheIn q) with
  | wait pending ready =>
    rw [CacheData.step_wait pending ready] at hc
    rw [show s.cache.takes (s.cacheIn q) = false by simp [CacheData.takes, pending]] at hview
    refine ⟨h.toServes.step, hdir, h.same_lines (by rw [hc]) (by rw [hc]) hview, ?_, ?_⟩
    · rw [hc]
      exact h.miss
    · rw [hc]
      exact h.writeSize
  | refill read ready =>
    rw [CacheData.step_refill read ready] at hc
    rw [show s.cache.takes (s.cacheIn q) = false by
      simp [CacheData.takes, CacheData.pending_of_read read]] at hview
    refine ⟨h.toServes.step, hdir, h.lines_of_refill hU read ready hview, ?_, ?_⟩
    · intro hm
      rw [hc] at hm
      cases hm
    · intro hm
      rw [hc] at hm
      cases hm
  | written read write ready =>
    rw [CacheData.step_written read write ready] at hc
    rw [show s.cache.takes (s.cacheIn q) = false by
      simp [CacheData.takes, CacheData.pending_of_write write]] at hview
    refine ⟨h.toServes.step, hdir, h.same_lines (by rw [hc]) (by rw [hc]) hview, ?_, ?_⟩
    · intro hm
      rw [hc] at hm
      cases hm
    · intro hm
      rw [hc] at hm
      cases hm
  | rest pending takes =>
    rw [CacheData.step_rest pending takes] at hc
    rw [takes] at hview
    refine ⟨h.toServes.step, hdir, h.same_lines (by rw [hc]) (by rw [hc]) hview, ?_, ?_⟩
    · rw [hc]
      exact h.miss
    · rw [hc]
      exact h.writeSize
  | readHit pending takes ren hit =>
    rw [CacheData.step_readHit takes ren hit] at hc
    rw [hq.not_wen (CacheData.of_takes takes).2.2 ren, Bool.and_false] at hview
    refine ⟨h.toServes.step, hdir, h.same_lines (by rw [hc]) (by rw [hc]) hview, ?_, ?_⟩
    · rw [hc]
      exact h.miss
    · rw [hc]
      exact h.writeSize
  | readMiss pending takes ren hit =>
    have hv : q.valid = true := (CacheData.of_takes takes).2.2
    rw [CacheData.step_readMiss takes ren hit] at hc
    rw [hq.not_wen hv ren, Bool.and_false] at hview
    refine ⟨h.toServes.step, hdir, h.same_lines (by rw [hc]) (by rw [hc]) hview, ?_, ?_⟩
    · rw [hc]
      exact fun _ => ⟨hq.below hv, hq.load hv ren⟩
    · rw [hc]
      exact fun hw => absurd hw (by simp [not_write_of_not_pending pending])
  | write pending takes ren wen =>
    have hv : q.valid = true := (CacheData.of_takes takes).2.2
    have hwen : q.wen = true := wen
    rw [takes, hwen, Bool.and_self, if_pos rfl] at hview
    have hlines := h.lines_of_write hq takes ren wen hview
    rw [CacheData.step_write takes ren wen] at hc
    refine ⟨h.toServes.step, hdir, hlines, ?_, ?_⟩
    · intro hm
      simp only [CacheData.pending, Bool.or_eq_false_iff] at pending
      rw [hc] at hm
      simp [pending.1] at hm
    · intro _
      rw [hc]
      exact hq.size hv

end DataPath

end RiscvSoc.Rtl
