import RiscvSoc.Rtl.CacheInst
import RiscvSoc.Rtl.Memory
import RiscvSoc.Sync.Machine

/-!
# `L1_Cache_DATA`

The data cache: sixteen sets of four ways, lines of four words, write-through without allocation.
A load that misses fetches the one word it asks for and makes the line valid.  Below it stands
`data_mem`, as in `soc_top_bram_dcache`.
-/

namespace RiscvSoc.Rtl

open Sync

/-- The registers of `L1_Cache_DATA`; `hitFound` is the last value of `hit_found`, which
`lfsr_advance` reads. -/
structure CacheData where
  cacheAddr : BitVec 4 → BitVec 2 → CacheTag
  cacheData : BitVec 4 → BitVec 2 → CacheLine
  dmemRdataReg : BitVec 32
  dmemReadyReg : Bool
  memValidReg : Bool
  memReadEnReg : Bool
  memWriteEnReg : Bool
  memSizeReg : BitVec 2
  memAddrReg : BitVec 32
  memWdataReg : BitVec 32
  pendingReadMiss : Bool
  pendingWriteThrough : Bool
  completedAddr : BitVec 32
  completedAddrValid : Bool
  reqAddrReg : BitVec 32
  reqWdataReg : BitVec 32
  reqSizeReg : BitVec 2
  reqIsReadReg : Bool
  refillGroupIndex : BitVec 4
  refillWordOffset : BitVec 4
  refillWay : BitVec 2
  hitFound : Bool
  lfsr : BitVec 16

/-- A request of the core. -/
structure DataReq where
  valid : Bool
  ren : Bool
  wen : Bool
  size : BitVec 2
  addr : BitVec 32
  wdata : BitVec 32
  deriving DecidableEq

namespace DataReq

/-- No request. -/
def none : DataReq := ⟨false, false, false, 0#2, 0#32, 0#32⟩

/-- A load of a word. -/
def load (addr : BitVec 32) : DataReq := ⟨true, true, false, memSizeWord, addr, 0#32⟩

/-- A store of a word. -/
def store (addr wdata : BitVec 32) : DataReq := ⟨true, false, true, memSizeWord, addr, wdata⟩

end DataReq

/-- The inputs of `L1_Cache_DATA`. -/
structure CacheDataIn where
  req : DataReq
  memRdata : BitVec 32
  memReady : Bool

/-! ### Bytes of a word -/

/-- `cache_read_data`. -/
def cacheReadData (word : BitVec 32) (size pos : BitVec 2) : BitVec 32 :=
  if size == 0b00#2 then
    if pos == 0b00#2 then (word.extractLsb' 0 8).signExtend 32
    else if pos == 0b01#2 then (word.extractLsb' 8 8).signExtend 32
    else if pos == 0b10#2 then (word.extractLsb' 16 8).signExtend 32
    else (word.extractLsb' 24 8).signExtend 32
  else if size == 0b01#2 then
    if pos == 0b00#2 then (word.extractLsb' 0 16).signExtend 32
    else if pos == 0b10#2 then (word.extractLsb' 16 16).signExtend 32
    else 0#32
  else if size == 0b10#2 then word
  else 0#32

/-- `cache_write_word`. -/
def cacheWriteWord (old data : BitVec 32) (size pos : BitVec 2) : BitVec 32 :=
  let byte := data.extractLsb' 0 8
  let half := data.extractLsb' 0 16
  if size == 0b00#2 then
    if pos == 0b00#2 then old.extractLsb' 8 24 ++ byte
    else if pos == 0b01#2 then old.extractLsb' 16 16 ++ byte ++ old.extractLsb' 0 8
    else if pos == 0b10#2 then old.extractLsb' 24 8 ++ byte ++ old.extractLsb' 0 16
    else byte ++ old.extractLsb' 0 24
  else if size == 0b01#2 then
    if pos == 0b00#2 then old.extractLsb' 16 16 ++ half
    else if pos == 0b10#2 then half ++ old.extractLsb' 0 16
    else old
  else if size == 0b10#2 then data
  else old

lemma cacheReadData_word (w : BitVec 32) (pos : BitVec 2) :
    cacheReadData w memSizeWord pos = w := rfl

lemma cacheWriteWord_word (w v : BitVec 32) (pos : BitVec 2) :
    cacheWriteWord w v memSizeWord pos = v := rfl

/-! ### The cache -/

namespace CacheData

/-- The cache after reset, which clears neither the lines nor their addresses. -/
def reset (c : CacheData) : CacheData where
  cacheAddr g w := { c.cacheAddr g w with valid := false }
  cacheData := c.cacheData
  dmemRdataReg := 0#32
  dmemReadyReg := false
  memValidReg := false
  memReadEnReg := false
  memWriteEnReg := false
  memSizeReg := 0b10#2
  memAddrReg := 0#32
  memWdataReg := 0#32
  pendingReadMiss := false
  pendingWriteThrough := false
  completedAddr := 0#32
  completedAddrValid := false
  reqAddrReg := 0#32
  reqWdataReg := 0#32
  reqSizeReg := 0b10#2
  reqIsReadReg := false
  refillGroupIndex := 0#4
  refillWordOffset := 0#4
  refillWay := 0#2
  hitFound := c.hitFound
  lfsr := Lfsr.reset

/-- A cache of zeros. -/
def zero : CacheData where
  cacheAddr _ _ := ⟨false, 0#32⟩
  cacheData _ _ _ := 0#32
  dmemRdataReg := 0#32
  dmemReadyReg := false
  memValidReg := false
  memReadEnReg := false
  memWriteEnReg := false
  memSizeReg := 0#2
  memAddrReg := 0#32
  memWdataReg := 0#32
  pendingReadMiss := false
  pendingWriteThrough := false
  completedAddr := 0#32
  completedAddrValid := false
  reqAddrReg := 0#32
  reqWdataReg := 0#32
  reqSizeReg := 0#2
  reqIsReadReg := false
  refillGroupIndex := 0#4
  refillWordOffset := 0#4
  refillWay := 0#2
  hitFound := false
  lfsr := 0#16

variable (c : CacheData) (i : CacheDataIn)

/-- An access to the memory below is under way. -/
def pending : Bool := c.pendingReadMiss || c.pendingWriteThrough

/-- The way `w` of its set holds the line of the request. -/
def hitsWay (w : BitVec 2) : Bool :=
  (c.cacheAddr (groupIndex i.req.addr) w).valid &&
    (c.cacheAddr (groupIndex i.req.addr) w).addr.extractLsb' 4 28 == i.req.addr.extractLsb' 4 28

/-- Some way of its set holds the line of the request. -/
def hitsLine : Bool := c.hitsWay i 0#2 || c.hitsWay i 1#2 || c.hitsWay i 2#2 || c.hitsWay i 3#2

/-- The value that `hit_found` gets in the cycle. -/
def hitNow : Bool := i.req.valid && (i.req.ren || i.req.wen) && !c.pending && c.hitsLine i

/-- `hit_way`: the loop stops at the first way that hits. -/
def hitWay : BitVec 2 :=
  if c.hitsWay i 0#2 then 0#2
  else if c.hitsWay i 1#2 then 1#2
  else if c.hitsWay i 2#2 then 2#2
  else if c.hitsWay i 3#2 then 3#2
  else 0#2

/-- `hit_word`. -/
def hitWord : BitVec 32 :=
  if c.hitNow i then c.cacheData (groupIndex i.req.addr) (c.hitWay i) (lineWord i.req.addr)
  else 0#32

def victimWay : BitVec 2 := c.lfsr.extractLsb' 0 2

def lfsrAdvance : Bool :=
  i.req.valid && i.req.ren && !c.hitFound && !c.pendingReadMiss && !c.pendingWriteThrough

/-- The request is at the address of the access that has just been completed. -/
def justCompleted : Bool := c.completedAddrValid && i.req.addr == c.completedAddr

/-- The array of lines with one word replaced. -/
def setWord (g : BitVec 4) (w k : BitVec 2) (v : BitVec 32) : BitVec 4 → BitVec 2 → CacheLine :=
  Function.update c.cacheData g
    (Function.update (c.cacheData g) w (Function.update (c.cacheData g w) k v))

/-- The registers in a cycle with an access under way. -/
def stepPending : CacheData :=
  let c := { c with
    memValidReg := true, memReadEnReg := c.reqIsReadReg, memWriteEnReg := !c.reqIsReadReg
    memSizeReg := c.reqSizeReg, memAddrReg := c.reqAddrReg, memWdataReg := c.reqWdataReg }
  if i.memReady then
    let c := if c.pendingReadMiss then { c with
        cacheAddr := Function.update c.cacheAddr c.refillGroupIndex
          (Function.update (c.cacheAddr c.refillGroupIndex) c.refillWay
            ⟨true, lineBase c.reqAddrReg⟩)
        cacheData := c.setWord c.refillGroupIndex c.refillWay
          (c.refillWordOffset.extractLsb' 2 2) i.memRdata
        dmemRdataReg := cacheReadData i.memRdata c.reqSizeReg (bytePos c.reqAddrReg) } else c
    { c with
      dmemReadyReg := true, memValidReg := false, memReadEnReg := false, memWriteEnReg := false
      pendingReadMiss := false, pendingWriteThrough := false
      completedAddr := c.reqAddrReg, completedAddrValid := true }
  else c

/-- A load that hits. -/
def stepReadHit : CacheData :=
  { c with
    dmemRdataReg := cacheReadData (c.hitWord i) i.req.size (bytePos i.req.addr)
    dmemReadyReg := true }

/-- A load that misses. -/
def stepReadMiss : CacheData :=
  { c with
    reqAddrReg := i.req.addr, reqWdataReg := 0#32, reqSizeReg := 0b10#2, reqIsReadReg := true
    refillGroupIndex := groupIndex i.req.addr, refillWordOffset := i.req.addr.extractLsb' 0 4
    refillWay := c.victimWay, pendingReadMiss := true
    memValidReg := true, memReadEnReg := true, memSizeReg := 0b10#2, memAddrReg := i.req.addr }

/-- The lines after a store: on a hit its word is merged. -/
def mergedLines : BitVec 4 → BitVec 2 → CacheLine :=
  if c.hitNow i then
    c.setWord (groupIndex i.req.addr) (c.hitWay i) (lineWord i.req.addr)
      (cacheWriteWord (c.hitWord i) i.req.wdata i.req.size (bytePos i.req.addr))
  else c.cacheData

/-- A store. -/
def stepWrite : CacheData :=
  { c with
    cacheData := c.mergedLines i
    reqAddrReg := i.req.addr, reqWdataReg := i.req.wdata, reqSizeReg := i.req.size
    reqIsReadReg := false, pendingWriteThrough := true
    memValidReg := true, memReadEnReg := false, memWriteEnReg := true
    memSizeReg := i.req.size, memAddrReg := i.req.addr, memWdataReg := i.req.wdata }

/-- `L1_Cache_DATA` after a clock edge. -/
def step : CacheData :=
  let d := { c with dmemReadyReg := false, completedAddrValid := false }
  let next :=
    if c.pending then d.stepPending i
    else
      let d := { d with memValidReg := false, memReadEnReg := false, memWriteEnReg := false }
      if c.justCompleted i then d
      else if i.req.valid && i.req.ren then
        if c.hitNow i then d.stepReadHit i else d.stepReadMiss i
      else if i.req.valid && i.req.wen then d.stepWrite i
      else d
  { next with hitFound := c.hitNow i, lfsr := Lfsr.step c.lfsr (c.lfsrAdvance i) }

/-! ### What an edge does -/

/-- The cache takes the request. -/
def takes : Bool :=
  !c.pending && !c.justCompleted i && i.req.valid && (i.req.ren || i.req.wen)

/-- **What an edge does**: with an access under way the cache waits, refills or has written; else
it rests, or takes a load that hits or misses, or a store. -/
inductive Edge : Prop
  | wait (pending : c.pending = true) (ready : i.memReady = false)
  | refill (read : c.pendingReadMiss = true) (ready : i.memReady = true)
  | written (read : c.pendingReadMiss = false) (write : c.pendingWriteThrough = true)
      (ready : i.memReady = true)
  | rest (pending : c.pending = false) (takes : c.takes i = false)
  | readHit (pending : c.pending = false) (takes : c.takes i = true) (ren : i.req.ren = true)
      (hit : c.hitNow i = true)
  | readMiss (pending : c.pending = false) (takes : c.takes i = true) (ren : i.req.ren = true)
      (hit : c.hitNow i = false)
  | write (pending : c.pending = false) (takes : c.takes i = true) (ren : i.req.ren = false)
      (wen : i.req.wen = true)

variable {c i}

lemma pending_of_read (h : c.pendingReadMiss = true) : c.pending = true := by
  simp [pending, h]

lemma pending_of_write (h : c.pendingWriteThrough = true) : c.pending = true := by
  simp [pending, h]

theorem edge (c : CacheData) (i : CacheDataIn) : Edge c i := by
  cases hp : c.pending
  · cases ht : c.takes i
    · exact .rest hp ht
    · cases hr : i.req.ren
      · have hw : i.req.wen = true := by
          simp only [takes, Bool.and_eq_true, hr, Bool.false_or] at ht
          exact ht.2
        exact .write hp ht hr hw
      · cases hh : c.hitNow i
        · exact .readMiss hp ht hr hh
        · exact .readHit hp ht hr hh
  · cases hr : i.memReady
    · exact .wait hp hr
    · cases hm : c.pendingReadMiss
      · exact .written hm (by simpa [pending, hm] using hp) hr
      · exact .refill hm hr

/-! The registers after each of them. -/

lemma step_wait (hp : c.pending = true) (hr : i.memReady = false) : c.step i = { c with
    dmemReadyReg := false, completedAddrValid := false, memValidReg := true
    memReadEnReg := c.reqIsReadReg, memWriteEnReg := !c.reqIsReadReg, memSizeReg := c.reqSizeReg
    memAddrReg := c.reqAddrReg, memWdataReg := c.reqWdataReg, hitFound := c.hitNow i
    lfsr := Lfsr.step c.lfsr (c.lfsrAdvance i) } := by
  simp [step, hp, stepPending, hr]

lemma step_refill (hm : c.pendingReadMiss = true) (hr : i.memReady = true) : c.step i = { c with
    cacheAddr := Function.update c.cacheAddr c.refillGroupIndex
      (Function.update (c.cacheAddr c.refillGroupIndex) c.refillWay ⟨true, lineBase c.reqAddrReg⟩)
    cacheData := c.setWord c.refillGroupIndex c.refillWay (c.refillWordOffset.extractLsb' 2 2)
      i.memRdata
    dmemRdataReg := cacheReadData i.memRdata c.reqSizeReg (bytePos c.reqAddrReg)
    dmemReadyReg := true, completedAddrValid := true, completedAddr := c.reqAddrReg
    memValidReg := false, memReadEnReg := false, memWriteEnReg := false
    memSizeReg := c.reqSizeReg, memAddrReg := c.reqAddrReg, memWdataReg := c.reqWdataReg
    pendingReadMiss := false, pendingWriteThrough := false, hitFound := c.hitNow i
    lfsr := Lfsr.step c.lfsr (c.lfsrAdvance i) } := by
  have hp : c.pending = true := pending_of_read hm
  simp only [step, hp, if_true, stepPending, hr, hm]
  rfl

lemma step_written (hm : c.pendingReadMiss = false) (hw : c.pendingWriteThrough = true)
    (hr : i.memReady = true) : c.step i = { c with
    dmemReadyReg := true, completedAddrValid := true, completedAddr := c.reqAddrReg
    memValidReg := false, memReadEnReg := false, memWriteEnReg := false
    memSizeReg := c.reqSizeReg, memAddrReg := c.reqAddrReg, memWdataReg := c.reqWdataReg
    pendingReadMiss := false, pendingWriteThrough := false, hitFound := c.hitNow i
    lfsr := Lfsr.step c.lfsr (c.lfsrAdvance i) } := by
  have hp : c.pending = true := pending_of_write hw
  simp [step, hp, stepPending, hr, hm]

lemma step_rest (hp : c.pending = false) (ht : c.takes i = false) : c.step i = { c with
    dmemReadyReg := false, completedAddrValid := false, memValidReg := false
    memReadEnReg := false, memWriteEnReg := false, hitFound := c.hitNow i
    lfsr := Lfsr.step c.lfsr (c.lfsrAdvance i) } := by
  cases hj : c.justCompleted i
  · simp only [takes, hp, hj, Bool.not_false, Bool.true_and] at ht
    cases hv : i.req.valid
    · simp [step, hp, hj, hv]
    · simp only [hv, Bool.true_and, Bool.or_eq_false_iff] at ht
      simp [step, hp, hj, hv, ht.1, ht.2]
  · simp [step, hp, hj]

lemma of_takes (ht : c.takes i = true) :
    c.pending = false ∧ c.justCompleted i = false ∧ i.req.valid = true := by
  simp only [takes, Bool.and_eq_true, Bool.not_eq_true'] at ht
  exact ⟨ht.1.1.1, ht.1.1.2, ht.1.2⟩

lemma step_readHit (ht : c.takes i = true) (hr : i.req.ren = true) (hh : c.hitNow i = true) :
    c.step i = { c with
    dmemRdataReg := cacheReadData (c.hitWord i) i.req.size (bytePos i.req.addr)
    dmemReadyReg := true, completedAddrValid := false, memValidReg := false
    memReadEnReg := false, memWriteEnReg := false, hitFound := true
    lfsr := Lfsr.step c.lfsr (c.lfsrAdvance i) } := by
  obtain ⟨hp, hj, hv⟩ := of_takes ht
  simp only [step, hp, hj, hv, hr, hh, Bool.and_self, if_true, Bool.false_eq_true, if_false]
  rfl

lemma step_readMiss (ht : c.takes i = true) (hr : i.req.ren = true) (hh : c.hitNow i = false) :
    c.step i = { c with
    dmemReadyReg := false, completedAddrValid := false
    reqAddrReg := i.req.addr, reqWdataReg := 0#32, reqSizeReg := 0b10#2, reqIsReadReg := true
    refillGroupIndex := groupIndex i.req.addr, refillWordOffset := i.req.addr.extractLsb' 0 4
    refillWay := c.victimWay, pendingReadMiss := true
    memValidReg := true, memReadEnReg := true, memWriteEnReg := false, memSizeReg := 0b10#2
    memAddrReg := i.req.addr, hitFound := false
    lfsr := Lfsr.step c.lfsr (c.lfsrAdvance i) } := by
  obtain ⟨hp, hj, hv⟩ := of_takes ht
  simp only [step, hp, hj, hv, hr, hh, Bool.and_self, if_true, Bool.false_eq_true, if_false]
  rfl

lemma step_write (ht : c.takes i = true) (hr : i.req.ren = false) (hw : i.req.wen = true) :
    c.step i = { c with
    dmemReadyReg := false, completedAddrValid := false
    cacheData := c.mergedLines i
    reqAddrReg := i.req.addr, reqWdataReg := i.req.wdata, reqSizeReg := i.req.size
    reqIsReadReg := false, pendingWriteThrough := true
    memValidReg := true, memReadEnReg := false, memWriteEnReg := true
    memSizeReg := i.req.size, memAddrReg := i.req.addr, memWdataReg := i.req.wdata
    hitFound := c.hitNow i, lfsr := Lfsr.step c.lfsr (c.lfsrAdvance i) } := by
  obtain ⟨hp, hj, hv⟩ := of_takes ht
  simp only [step, hp, hj, hv, hr, hw, Bool.and_false, Bool.and_self, if_true,
    Bool.false_eq_true, if_false]
  rfl

/-! ### Hits -/

/-- The way of a hit hits. -/
lemma hitsWay_hitWay (h : c.hitsLine i = true) :
    c.hitsWay i (c.hitWay i) = true := by
  unfold hitWay
  split_ifs with h0 h1 h2 h3
  · exact h0
  · exact h1
  · exact h2
  · exact h3
  · simp [hitsLine, h0, h1, h2, h3] at h

/-- A way that hits makes a hit. -/
lemma hitsLine_of_hitsWay {w : BitVec 2}
    (h : c.hitsWay i w = true) : c.hitsLine i = true := by
  rcases bitVec_two_cases w with rfl | rfl | rfl | rfl <;> simp [hitsLine, h]

end CacheData

/-! ### Over `data_mem` -/

/-- The data side of `soc_top_bram_dcache`. -/
structure DataPath where
  cache : CacheData
  mem : DataMem

namespace DataPath

variable (s : DataPath) (q : DataReq)

def cacheIn : CacheDataIn := ⟨q, s.mem.dataOut, s.mem.ready⟩

def memIn : DataMemIn where
  valid := s.cache.memValidReg
  readEn := s.cache.memReadEnReg
  writeEn := s.cache.memWriteEnReg
  size := s.cache.memSizeReg
  address := s.cache.memAddrReg
  dataIn := s.cache.memWdataReg

/-- The data side after a clock edge. -/
def step : DataPath := ⟨s.cache.step (s.cacheIn q), s.mem.step s.memIn⟩

/-- The data side from reset, whatever the arrays of the cache hold, over the memory `d`. -/
def machine (c : CacheData) (d : DataMem) : Machine DataReq DataPath where
  init := ⟨c.reset, d.reset⟩
  next s q := s.step q

end DataPath

end RiscvSoc.Rtl
