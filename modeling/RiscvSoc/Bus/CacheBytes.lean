import RiscvSoc.Bus.DataCache
import RiscvSoc.Bus.MemBytes

/-!
# Bytes and halves through the data cache

A store that hits merges its bytes into the word of the cache as `data_mem` merges them into its
own.  A load that hits is answered with the bytes it asks for; a load that misses was turned into
one of a word for the refill, and is answered with the whole word.
-/

namespace RiscvSoc.Rtl

open Sync Isa

namespace DataPath

/-- The data side `n` cycles after the state `s`. -/
def after (s : DataPath) (ins : ℕ → DataReq) (n : ℕ) : DataPath :=
  Machine.run ⟨s, fun s q => s.step q⟩ ins n

/-- `dmem_ready` is high for the first time `n` cycles after the state `s`. -/
structure AnswersAt (s : DataPath) (ins : ℕ → DataReq) (n : ℕ) : Prop where
  pos : 0 < n
  waits : ∀ k, 0 < k → k < n → (s.after ins k).cache.dmemReadyReg = false
  ready : (s.after ins n).cache.dmemReadyReg = true

/-- **The answer**: in the first cycle in which `dmem_ready` is high, `dmem_rdata` is `v`. -/
def Delivers (s : DataPath) (ins : ℕ → DataReq) (v : BitVec 32) : Prop :=
  ∃ n, s.AnswersAt ins n ∧ (s.after ins n).cache.dmemRdataReg = v

variable (s : DataPath) (q : DataReq)

/-- The cache takes a load that misses. -/
structure ReadMisses : Prop where
  takes : s.cache.takes (s.cacheIn q) = true
  ren : q.ren = true
  miss : s.cache.hitNow (s.cacheIn q) = false

/-- The cache takes a load that hits. -/
structure ReadHits : Prop where
  takes : s.cache.takes (s.cacheIn q) = true
  ren : q.ren = true
  hit : s.cache.hitNow (s.cacheIn q) = true

/-- The cache takes a store that hits. -/
structure WriteHits : Prop where
  takes : s.cache.takes (s.cacheIn q) = true
  ren : q.ren = false
  wen : q.wen = true
  hit : s.cache.hitNow (s.cacheIn q) = true

/-- The word that the request hits is the word of the memory. -/
def HitCoherent : Prop := s.cache.hitWord (s.cacheIn q) = s.mem.word (wordAddr q.addr)

/-- What `data_mem` shows for the request without a cache before it. -/
def directOut : BitVec 32 :=
  (s.mem.step ⟨q.valid, q.ren, q.wen, q.size, q.addr, q.wdata⟩).dataOut

variable {s q} {ins : ℕ → DataReq} {v w : BitVec 32}

lemma AnswersAt.unique {n m : ℕ} (hn : s.AnswersAt ins n) (hm : s.AnswersAt ins m) : n = m := by
  refine first_unique (P := fun k => 0 < k ∧ (s.after ins k).cache.dmemReadyReg = true)
    ⟨hn.pos, hn.ready⟩ ?_ ⟨hm.pos, hm.ready⟩ ?_
  · rintro k hk ⟨hpos, hr⟩
    rw [hn.waits k hpos hk] at hr
    cases hr
  · rintro k hk ⟨hpos, hr⟩
    rw [hm.waits k hpos hk] at hr
    cases hr

lemma Delivers.unique (hv : s.Delivers ins v) (hw : s.Delivers ins w) : v = w := by
  obtain ⟨n, hn, rfl⟩ := hv
  obtain ⟨m, hm, rfl⟩ := hw
  rw [hn.unique hm]

/-! ### An access to the memory -/

/-- **The two cycles of an access**: the memory is ready in the second, and the cache waits with
what it has latched and its lines as they were. -/
lemma Serves.wait_step (h : s.Serves) (hp : s.cache.pending = true)
    (hr : s.mem.ready = false) :
    (s.step q).mem.ready = true ∧ (s.step q).cache.dmemReadyReg = false ∧
      (s.step q).cache.pendingReadMiss = s.cache.pendingReadMiss ∧
      (s.step q).cache.pendingWriteThrough = s.cache.pendingWriteThrough ∧
      (s.step q).cache.reqAddrReg = s.cache.reqAddrReg ∧
      (s.step q).cache.reqWdataReg = s.cache.reqWdataReg ∧
      (s.step q).cache.reqSizeReg = s.cache.reqSizeReg ∧
      (s.step q).cache.cacheAddr = s.cache.cacheAddr ∧
      (s.step q).cache.cacheData = s.cache.cacheData := by
  have hc : (s.step q).cache = s.cache.step (s.cacheIn q) := rfl
  have hready : (s.step q).mem.ready = s.cache.memValidReg := rfl
  rw [CacheData.step_wait hp hr] at hc
  rw [hready, h.memValid, hp, hc]
  exact ⟨rfl, rfl, rfl, rfl, rfl, rfl, rfl, rfl, rfl⟩

/-- A store under way merges its bytes into the word of its address. -/
lemma Serves.word_step_of_write_any (h : s.Serves) (hw : s.cache.pendingWriteThrough = true) :
    (s.step q).mem.word = Function.update s.mem.word (wordAddr s.cache.reqAddrReg)
      (cacheWriteWord (s.mem.word (wordAddr s.cache.reqAddrReg)) s.cache.reqWdataReg
        s.cache.reqSizeReg (bytePos s.cache.reqAddrReg)) := by
  have hp := CacheData.pending_of_write hw
  have hstep := s.mem.word_step_eq_cacheWriteWord s.memIn (h.memWrite.trans hw)
  rw [show s.memIn.wordAddr = wordAddr s.cache.reqAddrReg from congrArg wordAddr (h.memAddr hp),
    show s.memIn.position = bytePos s.cache.reqAddrReg from congrArg bytePos (h.memAddr hp),
    show s.memIn.dataIn = s.cache.reqWdataReg from h.memData hw,
    show s.memIn.size = s.cache.reqSizeReg from h.memSize hp] at hstep
  exact hstep

/-- A store merged twice is merged once. -/
lemma cacheWriteWord_idem (old v : BitVec 32) (size pos : BitVec 2) :
    cacheWriteWord (cacheWriteWord old v size pos) v size pos =
      cacheWriteWord old v size pos := by
  rw [eq_iff_byteOf]
  intro k hk
  rw [byteOf_cacheWriteWord _ _ _ _ hk, byteOf_cacheWriteWord _ _ _ _ hk]
  split_ifs <;> rfl

/-! ### The three answers -/

/-- **A load that misses is answered with the whole word**, whatever its size. -/
theorem ReadMisses.delivers (h : s.ReadMisses (ins 0)) (hs : s.Serves) :
    s.Delivers ins (s.mem.word (wordAddr (ins 0).addr)) := by
  obtain ⟨hp, -, -⟩ := CacheData.of_takes h.takes
  -- Cycle 1: the load is under way.
  have hs₁ : (s.after ins 1).Serves := hs.step
  have hc₁ := CacheData.step_readMiss h.takes h.ren h.miss
  change (s.after ins 1).cache = _ at hc₁
  have hread : (s.after ins 1).cache.pendingReadMiss = true := by rw [hc₁]
  have haddr : (s.after ins 1).cache.reqAddrReg = (ins 0).addr := by rw [hc₁]; rfl
  have hmem₁ : (s.after ins 1).mem.word = s.mem.word := by
    simp only [CacheData.pending, Bool.or_eq_false_iff] at hp
    exact hs.word_step_of_not_write hp.2
  -- Cycle 2: the memory has read it.
  have hs₂ : (s.after ins 2).Serves := hs₁.step
  obtain ⟨hready, hwait, hread₂, -, haddr₂, -⟩ := hs₁.wait_step (q := ins 1)
    (CacheData.pending_of_read hread) (hs.not_ready_step hp)
  change (s.after ins 2).mem.ready = true at hready
  change (s.after ins 2).cache.pendingReadMiss = _ at hread₂
  change (s.after ins 2).cache.reqAddrReg = _ at haddr₂
  rw [hread] at hread₂
  rw [haddr] at haddr₂
  have hmem₂ : (s.after ins 2).mem.word = s.mem.word :=
    (hs₁.word_step_of_not_write (hs₁.exclusive hread)).trans hmem₁
  have hword := hs₂.answer hread₂ hready
  rw [haddr₂, hmem₂] at hword
  -- Cycle 3: the answer.
  have hc₃ := CacheData.step_refill (i := (s.after ins 2).cacheIn (ins 2)) hread₂ hready
  change (s.after ins 3).cache = _ at hc₃
  refine ⟨3, ⟨by omega, ?_, ?_⟩, ?_⟩
  · intro k hk0 hk3
    have hk : k = 1 ∨ k = 2 := by omega
    rcases hk with rfl | rfl
    · rw [hc₁]
    · exact hwait
  · rw [hc₃]
  · rw [hc₃]
    simp only [hs₂.readSize hread₂, cacheReadData_word]
    exact hword

/-- **A load that hits is answered with what it asks for.** -/
theorem ReadHits.delivers (h : s.ReadHits (ins 0)) (hword : s.HitCoherent (ins 0)) :
    s.Delivers ins (cacheReadData (s.mem.word (wordAddr (ins 0).addr)) (ins 0).size
      (bytePos (ins 0).addr)) := by
  have hc := CacheData.step_readHit h.takes h.ren h.hit
  change (s.after ins 1).cache = _ at hc
  refine ⟨1, ⟨by omega, ?_, ?_⟩, ?_⟩
  · intro k hk0 hk1
    omega
  · rw [hc]
  · rw [hc, ← hword]
    rfl

/-- `data_mem` by itself shows what is asked for. -/
lemma directOut_of_read (hv : q.valid = true) (hr : q.ren = true) : s.directOut q =
    cacheReadData (s.mem.word (wordAddr q.addr)) q.size (bytePos q.addr) := by
  refine s.mem.dataOut_step_of_reads ⟨q.valid, q.ren, q.wen, q.size, q.addr, q.wdata⟩ ?_
  rw [DataMemIn.reads, hv, hr, Bool.and_self]

/-! ### Words that read as themselves -/

/-- **The word is what a read of it shows**: for a byte or a half at the bottom, the word has no
more bits than that and its sign; for one higher up all its bits are the same; and it is zero for
what reads as zero. -/
def ReadsWhole (size pos : BitVec 2) (w : BitVec 32) : Prop :=
  if size == 0b00#2 then
    if pos == 0b00#2 then -128 ≤ w.toInt ∧ w.toInt < 128
    else w = 0#32 ∨ w = BitVec.allOnes 32
  else if size == 0b01#2 then
    if pos == 0b00#2 then -32768 ≤ w.toInt ∧ w.toInt < 32768
    else if pos == 0b10#2 then w = 0#32 ∨ w = BitVec.allOnes 32
    else w = 0#32
  else if size == memSizeWord then True
  else w = 0#32

lemma signExtend_low_eq_iff {k : ℕ} (hk : k ≤ 32) (w : BitVec 32) :
    (w.extractLsb' 0 k).signExtend 32 = w ↔
      -2 ^ k ≤ 2 * w.toInt ∧ 2 * w.toInt < 2 ^ k := by
  have hext : ((w.extractLsb' 0 k).signExtend 32).toInt = (w.extractLsb' 0 k).toInt :=
    BitVec.toInt_signExtend_of_le hk
  constructor
  · intro h
    rw [h] at hext
    rw [hext]
    exact ⟨BitVec.le_two_mul_toInt, BitVec.two_mul_toInt_lt⟩
  · rintro ⟨hle, hlt⟩
    have hlow : (w.extractLsb' 0 k).toInt = w.toInt.bmod (2 ^ k) := by
      rw [← BitVec.setWidth_eq_extractLsb' hk, BitVec.toInt_setWidth,
        BitVec.toInt_eq_toNat_bmod, Int.bmod_bmod_of_dvd (Nat.pow_dvd_pow 2 hk)]
    apply BitVec.eq_of_toInt_eq
    rw [hext, hlow]
    apply Int.bmod_eq_of_le_mul_two
    · push_cast
      omega
    · push_cast
      omega

/-- A word whose bits are all the same. -/
lemma zero_or_allOnes_iff (w : BitVec 32) :
    w = 0#32 ∨ w = BitVec.allOnes 32 ↔ ∃ b, ∀ j < 32, w.getLsbD j = b := by
  constructor
  · rintro (rfl | rfl)
    · exact ⟨false, fun j _ => BitVec.getLsbD_zero⟩
    · refine ⟨true, fun j hj => ?_⟩
      rw [BitVec.getLsbD_allOnes, decide_eq_true hj]
  · rintro ⟨b, hb⟩
    cases b with
    | false =>
      left
      apply BitVec.eq_of_getLsbD_eq
      intro j hj
      rw [hb j hj, BitVec.getLsbD_zero]
    | true =>
      right
      apply BitVec.eq_of_getLsbD_eq
      intro j hj
      rw [hb j hj, BitVec.getLsbD_allOnes, decide_eq_true hj]

lemma signExtend_high_eq_iff {s m : ℕ} (hm : 0 < m) (hs : m ≤ s) (hsm : s + m ≤ 32)
    (w : BitVec 32) : (w.extractLsb' s m).signExtend 32 = w ↔ w = 0#32 ∨ w = BitVec.allOnes 32 := by
  have hslice : ∀ j < m, (w.extractLsb' s m).getLsbD j = w.getLsbD (s + j) := by
    intro j hj
    rw [BitVec.getLsbD_extractLsb', decide_eq_true hj, Bool.true_and]
  have hext : ∀ j < 32, ((w.extractLsb' s m).signExtend 32).getLsbD j =
      if j < m then w.getLsbD (s + j) else (w.extractLsb' s m).msb := by
    intro j hj
    rw [BitVec.getLsbD_signExtend, decide_eq_true hj, Bool.true_and]
    split_ifs with hjm
    · exact hslice j hjm
    · rfl
  rw [zero_or_allOnes_iff]
  constructor
  · intro h
    rw [h] at hext
    -- The bits above the slice are its sign; among them are those of the slice itself.
    have hhigh : ∀ j < 32, m ≤ j → w.getLsbD j = (w.extractLsb' s m).msb := by
      intro j hj hmj
      rw [hext j hj, if_neg (by omega)]
    refine ⟨(w.extractLsb' s m).msb, fun j hj => ?_⟩
    by_cases hjm : j < m
    · rw [hext j hj, if_pos hjm]
      exact hhigh (s + j) (by omega) (by omega)
    · exact hhigh j hj (by omega)
  · rintro ⟨b, hb⟩
    have hmsb : (w.extractLsb' s m).msb = b := by
      rw [BitVec.msb_eq_getLsbD_last, hslice _ (by omega)]
      exact hb _ (by omega)
    apply BitVec.eq_of_getLsbD_eq
    intro j hj
    rw [hext j hj, hb j hj, hmsb]
    split_ifs with hjm
    · exact hb _ (by omega)
    · rfl

/-- **When a read shows the whole word.** -/
theorem cacheReadData_eq_self_iff (w : BitVec 32) (size pos : BitVec 2) :
    cacheReadData w size pos = w ↔ ReadsWhole size pos w := by
  have hbyte := signExtend_low_eq_iff (show 8 ≤ 32 by omega) w
  have hhalf := signExtend_low_eq_iff (show 16 ≤ 32 by omega) w
  rcases bitVec_two_cases size with rfl | rfl | rfl | rfl <;>
    rcases bitVec_two_cases pos with rfl | rfl | rfl | rfl
  · exact hbyte.trans (by simp [ReadsWhole]; omega)
  · exact signExtend_high_eq_iff (by omega) (by omega) (by omega) w
  · exact signExtend_high_eq_iff (by omega) (by omega) (by omega) w
  · exact signExtend_high_eq_iff (by omega) (by omega) (by omega) w
  · exact hhalf.trans (by simp [ReadsWhole]; omega)
  · exact eq_comm
  · exact signExtend_high_eq_iff (by omega) (by omega) (by omega) w
  · exact eq_comm
  · exact iff_of_true rfl trivial
  · exact iff_of_true rfl trivial
  · exact iff_of_true rfl trivial
  · exact iff_of_true rfl trivial
  · exact eq_comm
  · exact eq_comm
  · exact eq_comm
  · exact eq_comm

/-! ### The answer of a miss and the answer of a hit -/

/-- **The three answers are the same exactly when the word reads as itself**: that of a load that
misses, that of the same load on a hit of the same word, and that of `data_mem`. -/
theorem miss_answer_agrees_iff {s s' : DataPath} {ins ins' : ℕ → DataReq} (hs : s.Serves)
    (hmiss : s.ReadMisses (ins 0)) (hhit : s'.ReadHits (ins' 0)) (hreq : ins' 0 = ins 0)
    (hcoherent : s'.HitCoherent (ins' 0))
    (hword : s'.mem.word (wordAddr (ins 0).addr) = s.mem.word (wordAddr (ins 0).addr)) :
    ∃ v v', s.Delivers ins v ∧ s'.Delivers ins' v' ∧
      ((v = v' ∧ v' = s.directOut (ins 0)) ↔ ReadsWhole (ins 0).size (bytePos (ins 0).addr)
        (s.mem.word (wordAddr (ins 0).addr))) := by
  have hvalid : (ins 0).valid = true := (CacheData.of_takes hmiss.takes).2.2
  have hanswer := hhit.delivers hcoherent
  rw [hreq, hword] at hanswer
  refine ⟨_, _, hmiss.delivers hs, hanswer, ?_⟩
  rw [directOut_of_read hvalid hmiss.ren, ← cacheReadData_eq_self_iff]
  constructor
  · intro h
    exact h.1.symm
  · intro h
    exact ⟨h.symm, rfl⟩

/-- A memory in which every word is 256. -/
def secondByteOne : DataMem := { DataMem.zero with mem1 := fun _ => 1#8 }

/-- The load of a byte from address 0, over and over. -/
def byteLoads : ℕ → DataReq := fun _ => ⟨true, true, false, 0b00#2, 0#32, 0#32⟩

/-- The first load misses; it is answered in cycle 3, and in cycle 4 the same load hits. -/
lemma byteLoads_miss_hit :
    (DataRun.path .zero secondByteOne byteLoads 0).ReadMisses (byteLoads 0) ∧
      (DataRun.path .zero secondByteOne byteLoads 4).ReadHits (byteLoads 0) ∧
      (DataRun.path .zero secondByteOne byteLoads 4).HitCoherent (byteLoads 0) ∧
      (DataRun.path .zero secondByteOne byteLoads 4).mem.word 0#10 =
        (DataRun.path .zero secondByteOne byteLoads 0).mem.word 0#10 := by
  unfold HitCoherent
  refine ⟨⟨?_, ?_, ?_⟩, ⟨?_, ?_, ?_⟩, ?_, ?_⟩ <;> decide +kernel

/-- The two loads of the byte. -/
theorem miss_answer_agrees_iff_byteLoads :
    ∃ v v', (DataRun.path .zero secondByteOne byteLoads 0).Delivers byteLoads v ∧
      (DataRun.path .zero secondByteOne byteLoads 4).Delivers byteLoads v' ∧
      ((v = v' ∧ v' = (DataRun.path .zero secondByteOne byteLoads 0).directOut (byteLoads 0)) ↔
        ReadsWhole 0b00#2 0b00#2 256#32) :=
  miss_answer_agrees_iff (DataRun.serves _ _ _ 0) byteLoads_miss_hit.1 byteLoads_miss_hit.2.1 rfl
    byteLoads_miss_hit.2.2.1 byteLoads_miss_hit.2.2.2

/-- **The miss shows 256, the hit shows 0.** -/
theorem byteLoads_differ : ¬ ∀ (s s' : DataPath) (ins ins' : ℕ → DataReq), s.Serves → s'.Serves →
    s.ReadMisses (ins 0) → s'.ReadHits (ins' 0) → ins' 0 = ins 0 → s'.HitCoherent (ins' 0) →
    s'.mem.word (wordAddr (ins 0).addr) = s.mem.word (wordAddr (ins 0).addr) →
    ∃ v, s.Delivers ins v ∧ s'.Delivers ins' v ∧ v = s.directOut (ins 0) := by
  intro h
  obtain ⟨hmiss, hhit, hcoherent, hword⟩ := byteLoads_miss_hit
  obtain ⟨v, hv, hv', -⟩ := h _ _ _ _ (DataRun.serves _ _ _ 0) (DataRun.serves _ _ _ 4)
    hmiss hhit rfl hcoherent hword
  have hne := (hv.unique (hmiss.delivers (DataRun.serves _ _ _ 0))).symm.trans
    (hv'.unique (hhit.delivers hcoherent))
  revert hne
  decide +kernel

/-! ### Stores that hit -/

/-- The word of a hit after its store. -/
lemma mergedLines_of_hit {c : CacheData} {i : CacheDataIn} (h : c.hitNow i = true) :
    c.mergedLines i (groupIndex i.req.addr) (c.hitWay i) (lineWord i.req.addr) =
      cacheWriteWord (c.hitWord i) i.req.wdata i.req.size (bytePos i.req.addr) := by
  simp [CacheData.mergedLines, h, CacheData.setWord]

/-- **A store that has come to the memory is completed**: its bytes are in the word of its address,
and the lines are what they were. -/
lemma Serves.write_done {q p : DataReq} (h : s.Serves)
    (hw : s.cache.pendingWriteThrough = true) (hr : s.mem.ready = false) :
    (s.step q).cache.dmemReadyReg = false ∧ ((s.step q).step p).cache.dmemReadyReg = true ∧
      ((s.step q).step p).cache.cacheAddr = s.cache.cacheAddr ∧
      ((s.step q).step p).cache.cacheData = s.cache.cacheData ∧
      ((s.step q).step p).mem.word = Function.update s.mem.word (wordAddr s.cache.reqAddrReg)
        (cacheWriteWord (s.mem.word (wordAddr s.cache.reqAddrReg)) s.cache.reqWdataReg
          s.cache.reqSizeReg (bytePos s.cache.reqAddrReg)) := by
  have hs₁ := h.step (q := q)
  obtain ⟨hready, hwait, hread₁, hwrite₁, haddr, hwdata, hsize, hdir, hline⟩ :=
    h.wait_step (q := q) (CacheData.pending_of_write hw) hr
  rw [hw] at hwrite₁
  have hread : s.cache.pendingReadMiss = false := by
    cases hm : s.cache.pendingReadMiss
    · rfl
    · rw [h.exclusive hm] at hw
      cases hw
  rw [hread] at hread₁
  have hc : ((s.step q).step p).cache = (s.step q).cache.step ((s.step q).cacheIn p) := rfl
  rw [CacheData.step_written hread₁ hwrite₁ hready] at hc
  refine ⟨hwait, by rw [hc], by rw [hc, hdir], by rw [hc, hline], ?_⟩
  -- The memory is written in both cycles of the access.
  rw [hs₁.word_step_of_write_any hwrite₁, haddr, hwdata, hsize, h.word_step_of_write_any hw,
    Function.update_self, cacheWriteWord_idem, Function.update_idem]

/-- **A store that hits leaves the word of the cache and that of the memory equal** when its
write-through is completed. -/
theorem WriteHits.coherent (h : s.WriteHits (ins 0)) (hs : s.Serves)
    (hword : s.HitCoherent (ins 0)) : ∃ n, s.AnswersAt ins n ∧
      (s.after ins n).cache.cacheAddr = s.cache.cacheAddr ∧
      (s.after ins n).cache.cacheData (groupIndex (ins 0).addr) (s.cache.hitWay (s.cacheIn (ins 0)))
          (lineWord (ins 0).addr) =
        (s.after ins n).mem.word (wordAddr (ins 0).addr) := by
  obtain ⟨hp, -, -⟩ := CacheData.of_takes h.takes
  have hs₁ : (s.after ins 1).Serves := hs.step
  have hc := CacheData.step_write h.takes h.ren h.wen
  change (s.after ins 1).cache = _ at hc
  have hmem : (s.after ins 1).mem.word = s.mem.word := by
    simp only [CacheData.pending, Bool.or_eq_false_iff] at hp
    exact hs.word_step_of_not_write hp.2
  obtain ⟨hwait, hready, hdir, hline, hdone⟩ := hs₁.write_done (q := ins 1) (p := ins 2)
    (by rw [hc]) (hs.not_ready_step hp)
  rw [show (s.after ins 1).cache.reqAddrReg = (ins 0).addr by rw [hc]; rfl,
    show (s.after ins 1).cache.reqWdataReg = (ins 0).wdata by rw [hc]; rfl,
    show (s.after ins 1).cache.reqSizeReg = (ins 0).size by rw [hc]; rfl, hmem] at hdone
  refine ⟨3, ⟨by omega, ?_, hready⟩, ?_, ?_⟩
  · intro k hk0 hk3
    have hk : k = 1 ∨ k = 2 := by omega
    rcases hk with rfl | rfl
    · rw [hc]
    · exact hwait
  · refine hdir.trans ?_
    rw [hc]
  · have hmerged := mergedLines_of_hit h.hit
    rw [show s.cache.hitWord (s.cacheIn (ins 0)) = _ from hword] at hmerged
    change (s.after ins 3).cache.cacheData = _ at hline
    change (s.after ins 3).mem.word = _ at hdone
    rw [hline, hdone, hc, Function.update_self]
    exact hmerged

/-- **The merge of the cache is the byte enables of the memory**: a write leaves the merged word; a
read of that word shows what the cache reads from it; and after a store that hits the words of the
cache and of the memory are equal. -/
theorem cache_merge_agrees :
    (∀ (m : DataMem) (i : DataMemIn), i.writeEn = true → (m.step i).word i.wordAddr =
      cacheWriteWord (m.word i.wordAddr) i.dataIn i.size i.position) ∧
    (∀ (m : DataMem) (i j : DataMemIn), i.writeEn = true → j.reads = true →
      j.wordAddr = i.wordAddr → ((m.step i).step j).dataOut =
        cacheReadData (cacheWriteWord (m.word i.wordAddr) i.dataIn i.size i.position) j.size
          j.position) ∧
    ∀ (s : DataPath) (ins : ℕ → DataReq), s.Serves → s.WriteHits (ins 0) →
      s.HitCoherent (ins 0) → ∃ n, s.AnswersAt ins n ∧
        (s.after ins n).cache.cacheAddr = s.cache.cacheAddr ∧
        (s.after ins n).cache.cacheData (groupIndex (ins 0).addr)
            (s.cache.hitWay (s.cacheIn (ins 0))) (lineWord (ins 0).addr) =
          (s.after ins n).mem.word (wordAddr (ins 0).addr) := by
  have hmerge : ∀ (m : DataMem) (i : DataMemIn), i.writeEn = true → (m.step i).word i.wordAddr =
      cacheWriteWord (m.word i.wordAddr) i.dataIn i.size i.position := by
    intro m i hw
    rw [m.word_step_eq_cacheWriteWord i hw, Function.update_self]
  refine ⟨hmerge, ?_, ?_⟩
  · intro m i j hw hr ha
    rw [DataMem.dataOut_step_of_reads _ j hr, ha, hmerge m i hw]
  · intro s ins hs h hword
    exact h.coherent hs hword

/-- A store of 7 in the byte at 2, which is held. -/
def byteStore : ℕ → DataReq := fun _ => ⟨true, false, true, 0b00#2, 2#32, 7#32⟩

/-- The store hits the line that the load of a byte has brought. -/
theorem cache_merge_agrees_byteStore :
    ∃ n, (DataRun.path .zero secondByteOne byteLoads 4).AnswersAt byteStore n ∧
      ((DataRun.path .zero secondByteOne byteLoads 4).after byteStore n).cache.cacheAddr =
        (DataRun.path .zero secondByteOne byteLoads 4).cache.cacheAddr ∧
      ((DataRun.path .zero secondByteOne byteLoads 4).after byteStore n).cache.cacheData 0#4
          ((DataRun.path .zero secondByteOne byteLoads 4).cache.hitWay
            ((DataRun.path .zero secondByteOne byteLoads 4).cacheIn (byteStore 0))) 0#2 =
        ((DataRun.path .zero secondByteOne byteLoads 4).after byteStore n).mem.word 0#10 := by
  refine cache_merge_agrees.2.2 _ byteStore (DataRun.serves _ _ _ 4) ⟨?_, rfl, rfl, ?_⟩ ?_
  · decide +kernel
  · decide +kernel
  · unfold HitCoherent
    decide +kernel

end DataPath

end RiscvSoc.Rtl
