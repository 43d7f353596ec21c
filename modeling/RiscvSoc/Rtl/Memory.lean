import Mathlib.Tactic.Common
import Mathlib.Logic.Function.Basic

/-!
# The memories of the BRAM system: `inst_mem` and `data_mem`

Both hold 1024 words.  `inst_mem` is read combinationally and always ready; `data_mem` answers a
request one cycle later and keeps its bytes in four arrays, one a lane.
-/

namespace RiscvSoc.Rtl

/-- `word_addr`: bits 11 to 2 of a byte address. -/
def wordAddr (a : BitVec 32) : BitVec 10 := a.extractLsb' 2 10

lemma wordAddr_add (pc : BitVec 32) (k : BitVec 10) :
    wordAddr (pc + (0#20 ++ k ++ 0#2)) = wordAddr pc + k := by
  have hk := k.isLt
  have hc : (0#20 ++ k ++ 0#2).toNat = 4 * k.toNat := by
    rw [BitVec.toNat_append, ← Nat.shiftLeft_add_eq_or_of_lt (BitVec.isLt _), Nat.shiftLeft_eq,
      BitVec.toNat_append]
    simp [Nat.mul_comm]
  apply BitVec.eq_of_toNat_eq
  rw [BitVec.toNat_add, wordAddr, wordAddr, BitVec.extractLsb'_toNat, BitVec.extractLsb'_toNat,
    Nat.shiftRight_eq_div_pow, Nat.shiftRight_eq_div_pow, BitVec.toNat_add, hc]
  omega

/-- `position`: the byte of the word. -/
def bytePos (a : BitVec 32) : BitVec 2 := a.extractLsb' 0 2

/-! ### `inst_mem` -/

/-- `inst` of `inst_mem`; its `ready` is tied to one. -/
def instMem (mem : BitVec 10 → BitVec 32) (pcAddr : BitVec 32) : BitVec 32 := mem (wordAddr pcAddr)

/-! ### `data_mem` -/

/-- The registers of `data_mem`. -/
structure DataMem where
  mem0 : BitVec 10 → BitVec 8
  mem1 : BitVec 10 → BitVec 8
  mem2 : BitVec 10 → BitVec 8
  mem3 : BitVec 10 → BitVec 8
  memData : BitVec 32
  sizeQ : BitVec 2
  positionQ : BitVec 2
  readyReg : Bool

/-- The inputs of `data_mem`. -/
structure DataMemIn where
  valid : Bool
  readEn : Bool
  writeEn : Bool
  size : BitVec 2
  address : BitVec 32
  dataIn : BitVec 32

/-- `SOC_MEM_SIZE_WORD`. -/
def memSizeWord : BitVec 2 := 0b10#2

namespace DataMemIn

variable (i : DataMemIn)

def wordAddr : BitVec 10 := Rtl.wordAddr i.address
def position : BitVec 2 := bytePos i.address

/-- `byte_we`: the lanes a store of this size and position writes. -/
def byteWe : BitVec 4 :=
  if i.size == 0b00#2 then
    if i.position == 0b00#2 then 0b0001#4
    else if i.position == 0b01#2 then 0b0010#4
    else if i.position == 0b10#2 then 0b0100#4
    else 0b1000#4
  else if i.size == 0b01#2 then
    if i.position == 0b00#2 then 0b0011#4
    else if i.position == 0b10#2 then 0b1100#4
    else 0b0000#4
  else if i.size == 0b10#2 then 0b1111#4
  else 0b0000#4

/-- `wdata_aligned`: the store data moved to its lanes. -/
def wdataAligned : BitVec 32 :=
  let byte := i.dataIn.extractLsb' 0 8
  let half := i.dataIn.extractLsb' 0 16
  if i.size == 0b00#2 then
    if i.position == 0b00#2 then 0#24 ++ byte
    else if i.position == 0b01#2 then 0#16 ++ byte ++ 0#8
    else if i.position == 0b10#2 then 0#8 ++ byte ++ 0#16
    else byte ++ 0#24
  else if i.size == 0b01#2 then
    if i.position == 0b00#2 then 0#16 ++ half
    else if i.position == 0b10#2 then half ++ 0#16
    else 0#32
  else if i.size == 0b10#2 then i.dataIn
  else 0#32

/-- One lane after the edge. -/
def laneStep (mem : BitVec 10 → BitVec 8) (k : ℕ) : BitVec 10 → BitVec 8 :=
  if i.writeEn && i.byteWe.getLsbD k then
    Function.update mem i.wordAddr (i.wdataAligned.extractLsb' (8 * k) 8)
  else mem

end DataMemIn

namespace DataMem

variable (m : DataMem)

/-- The word at a word address. -/
def word (a : BitVec 10) : BitVec 32 := m.mem3 a ++ m.mem2 a ++ m.mem1 a ++ m.mem0 a

/-- A memory of zeros. -/
def zero : DataMem :=
  ⟨fun _ => 0#8, fun _ => 0#8, fun _ => 0#8, fun _ => 0#8, 0#32, 0#2, 0#2, false⟩

/-- The memory once a clock edge under the reset of the core has lowered `ready`; its bytes and
what was read last are what they were. -/
def reset : DataMem := { m with readyReg := false }

/-- `data_mem` after a clock edge; a read sees the bytes before it. -/
def step (i : DataMemIn) : DataMem where
  mem0 := i.laneStep m.mem0 0
  mem1 := i.laneStep m.mem1 1
  mem2 := i.laneStep m.mem2 2
  mem3 := i.laneStep m.mem3 3
  memData := if i.valid && i.readEn then m.word i.wordAddr else m.memData
  sizeQ := if i.valid && i.readEn then i.size else m.sizeQ
  positionQ := if i.valid && i.readEn then i.position else m.positionQ
  readyReg := i.valid

/-- `data_out`: the lanes of the last read, by its size and position, with the sign extended. -/
def dataOut : BitVec 32 :=
  if m.sizeQ == 0b00#2 then
    if m.positionQ == 0b00#2 then (m.memData.extractLsb' 0 8).signExtend 32
    else if m.positionQ == 0b01#2 then (m.memData.extractLsb' 8 8).signExtend 32
    else if m.positionQ == 0b10#2 then (m.memData.extractLsb' 16 8).signExtend 32
    else (m.memData.extractLsb' 24 8).signExtend 32
  else if m.sizeQ == 0b01#2 then
    if m.positionQ == 0b00#2 then (m.memData.extractLsb' 0 16).signExtend 32
    else if m.positionQ == 0b10#2 then (m.memData.extractLsb' 16 16).signExtend 32
    else 0#32
  else if m.sizeQ == 0b10#2 then m.memData
  else 0#32

/-- `ready` is the register `ready_reg`. -/
def ready : Bool := m.readyReg

end DataMem

/-! ### Words in four lanes -/

namespace DataMem

lemma append_lanes (x : BitVec 32) :
    x.extractLsb' 24 8 ++ x.extractLsb' 16 8 ++ x.extractLsb' 8 8 ++ x.extractLsb' 0 8 = x := by
  apply BitVec.eq_of_getLsbD_eq
  intro k hk
  simp only [BitVec.getLsbD_append, BitVec.getLsbD_extractLsb']
  split_ifs with h1 h2 h3
  · simp [h1]
  · simp [show k - 8 < 8 by omega, show 8 + (k - 8) = k by omega]
  · simp [show k - 8 - 8 < 8 by omega, show 16 + (k - 8 - 8) = k by omega]
  · simp [show k - 8 - 8 - 8 < 8 by omega, show 24 + (k - 8 - 8 - 8) = k by omega]

variable {m : DataMem} {i : DataMemIn}

/-- A store of a word replaces it. -/
lemma word_step_of_write (hs : i.size = memSizeWord) (hw : i.writeEn = true) :
    (m.step i).word = Function.update m.word i.wordAddr i.dataIn := by
  funext a
  have hb : i.byteWe = 0b1111#4 := by simp [DataMemIn.byteWe, hs, memSizeWord]
  have hd : i.wdataAligned = i.dataIn := by simp [DataMemIn.wdataAligned, hs, memSizeWord]
  by_cases ha : a = i.wordAddr
  · subst ha
    simp [word, step, DataMemIn.laneStep, hw, hb, hd]
    exact append_lanes i.dataIn
  · simp [word, step, DataMemIn.laneStep, hw, hb, Function.update_of_ne ha]

lemma word_step_of_not_write (hw : i.writeEn = false) : (m.step i).word = m.word := by
  funext a
  simp [word, step, DataMemIn.laneStep, hw]

/-- The word of the last read, if it was of a word. -/
lemma dataOut_of_word (hs : m.sizeQ = memSizeWord) : m.dataOut = m.memData := by
  simp [dataOut, hs, memSizeWord]

end DataMem

end RiscvSoc.Rtl
