import Mathlib.Tactic.Common
import Mathlib.Logic.Function.Basic

/-!
# `L1_Cache_INST`

The instruction cache: sixteen sets of four ways, lines of four words, a combinational hit, and a
refill that asks for the words of a line one after the other.  The way that is given up comes from
`lfsr16_inst`.
-/

namespace RiscvSoc.Rtl

/-! ### `lfsr16_inst` -/

namespace Lfsr

def reset : BitVec 16 := 0xACE1#16

/-- `fb`: the parity of bits 0, 2, 3 and 5. -/
def fb (s : BitVec 16) : Bool := s[0] ^^ s[2] ^^ s[3] ^^ s[5]

/-- `lfsr` after a clock edge. -/
def step (s : BitVec 16) (advance : Bool) : BitVec 16 :=
  if advance then BitVec.ofBool (fb s) ++ s.extractLsb' 1 15 else s

end Lfsr

/-! ### The cache -/

/-- An entry of `Cache_addr`: bit 32 is `valid`. -/
structure CacheTag where
  valid : Bool
  addr : BitVec 32

/-- A line: bits `32 k + 31` to `32 k` are word `k`. -/
abbrev CacheLine := BitVec 2 → BitVec 32

/-- The registers of `L1_Cache_INST`; `cacheAddr` and `cacheInst` are by set and by way. -/
structure CacheInst where
  cacheAddr : BitVec 4 → BitVec 2 → CacheTag
  cacheInst : BitVec 4 → BitVec 2 → CacheLine
  instOutReg : BitVec 32
  imemReadyReg : Bool
  memReqReg : Bool
  missPending : Bool
  addrReg : BitVec 32
  refillGroupIndex : BitVec 4
  refillWay : BitVec 2
  refillBaseAddr : BitVec 32
  refillWordIdx : BitVec 2
  refillLineBuf : CacheLine
  lfsr : BitVec 16

/-- The inputs of `L1_Cache_INST`. -/
structure CacheInstIn where
  imemAddr : BitVec 32
  imemReq : Bool
  memRdata : BitVec 32
  memReady : Bool

/-- `imem_addr[7:4]`: the set. -/
def groupIndex (a : BitVec 32) : BitVec 4 := a.extractLsb' 4 4

/-- `{addr[31:4], 4'b0}`: the line. -/
def lineBase (a : BitVec 32) : BitVec 32 := a.extractLsb' 4 28 ++ 0#4

/-- `addr[31:2]`: the word. -/
def wordIndex (a : BitVec 32) : BitVec 30 := a.extractLsb' 2 30

/-- The address of word `k` of the line at `base`. -/
def wordOfLine (base : BitVec 32) (k : BitVec 2) : BitVec 32 := base + (0#28 ++ k ++ 0#2)

/-- `addr[3:2]`: the word of the line. -/
def lineWord (a : BitVec 32) : BitVec 2 := a.extractLsb' 2 2

/-! ### Addresses of a line -/

lemma bitVec_two_cases : ∀ x : BitVec 2, x = 0#2 ∨ x = 1#2 ∨ x = 2#2 ∨ x = 3#2 := by decide

lemma lineBase_toNat (a : BitVec 32) : (lineBase a).toNat = a.toNat / 16 % 268435456 * 16 := by
  rw [lineBase, BitVec.toNat_append, ← Nat.shiftLeft_add_eq_or_of_lt (BitVec.isLt (0#4))]
  simp [Nat.shiftLeft_eq, Nat.shiftRight_eq_div_pow]

lemma lineWord_toNat (a : BitVec 32) : (lineWord a).toNat = a.toNat / 4 % 4 := by
  rw [lineWord, BitVec.extractLsb'_toNat, Nat.shiftRight_eq_div_pow]

lemma lineBase_append (a : BitVec 28) (b : BitVec 4) : lineBase (a ++ b) = a ++ 0#4 := by
  rw [lineBase, BitVec.extractLsb'_append_eq_left]

@[simp] lemma lineBase_lineBase (a : BitVec 32) : lineBase (lineBase a) = lineBase a :=
  lineBase_append _ _

@[simp] lemma groupIndex_lineBase (a : BitVec 32) : groupIndex (lineBase a) = groupIndex a := by
  apply BitVec.eq_of_getLsbD_eq
  intro k hk
  simp only [groupIndex, lineBase, BitVec.getLsbD_extractLsb', BitVec.getLsbD_append]
  simp [hk, show ¬ 4 + k < 4 by omega, show k < 28 by omega]

/-- Two addresses with the same tag are in the same line. -/
lemma lineBase_congr {a b : BitVec 32} (h : a.extractLsb' 4 28 = b.extractLsb' 4 28) :
    lineBase a = lineBase b := by
  rw [lineBase, lineBase, h]

/-- The words of a line have no carry to add. -/
lemma wordOfLine_toNat (a : BitVec 32) (k : BitVec 2) :
    (wordOfLine (lineBase a) k).toNat = a.toNat / 16 * 16 + 4 * k.toNat := by
  have hk : (0#28 ++ k ++ 0#2).toNat = 4 * k.toNat := by
    revert k
    decide
  have hlt := k.isLt
  have ha := a.isLt
  rw [wordOfLine, BitVec.toNat_add, hk, lineBase_toNat]
  omega

lemma wordOfLine_lineBase (a : BitVec 32) (k : BitVec 2) :
    wordOfLine (lineBase a) k = a.extractLsb' 4 28 ++ k ++ 0#2 := by
  have hlt := k.isLt
  have ha := a.isLt
  apply BitVec.eq_of_toNat_eq
  rw [wordOfLine_toNat, BitVec.toNat_append, BitVec.toNat_append,
    ← Nat.shiftLeft_add_eq_or_of_lt (BitVec.isLt (0#2)), ← Nat.shiftLeft_add_eq_or_of_lt hlt]
  simp only [BitVec.extractLsb'_toNat, Nat.shiftLeft_eq, Nat.shiftRight_eq_div_pow,
    BitVec.toNat_ofNat]
  omega

/-- The word of an address, from its line. -/
lemma wordIndex_wordOfLine (a : BitVec 32) :
    wordIndex (wordOfLine (lineBase a) (a.extractLsb' 2 2)) = wordIndex a := by
  rw [wordOfLine_lineBase]
  apply BitVec.eq_of_getLsbD_eq
  intro k hk
  simp only [wordIndex, BitVec.getLsbD_extractLsb', BitVec.getLsbD_append]
  by_cases h2 : k < 2
  · simp [hk, h2, show ¬ 2 + k < 2 by omega]
  · simp [hk, h2, show ¬ 2 + k < 2 by omega, show k - 2 < 28 by omega,
      show 4 + (k - 2) = 2 + k by omega]

namespace CacheInst

/-- The cache after reset, which clears no array, no line and no address but the valid bits. -/
def reset (c : CacheInst) : CacheInst where
  cacheAddr g w := { c.cacheAddr g w with valid := false }
  cacheInst := c.cacheInst
  instOutReg := 0#32
  imemReadyReg := false
  memReqReg := false
  missPending := false
  addrReg := c.addrReg
  refillGroupIndex := 0#4
  refillWay := 0#2
  refillBaseAddr := 0#32
  refillWordIdx := 0#2
  refillLineBuf := fun _ => 0#32
  lfsr := Lfsr.reset

/-- A cache of zeros. -/
def zero : CacheInst where
  cacheAddr _ _ := ⟨false, 0#32⟩
  cacheInst _ _ _ := 0#32
  instOutReg := 0#32
  imemReadyReg := false
  memReqReg := false
  missPending := false
  addrReg := 0#32
  refillGroupIndex := 0#4
  refillWay := 0#2
  refillBaseAddr := 0#32
  refillWordIdx := 0#2
  refillLineBuf _ := 0#32
  lfsr := 0#16

variable (c : CacheInst) (i : CacheInstIn)

/-- The way `w` of the set holds the line of the address. -/
def hitWay (w : BitVec 2) : Bool :=
  (c.cacheAddr (groupIndex i.imemAddr) w).valid &&
    (c.cacheAddr (groupIndex i.imemAddr) w).addr.extractLsb' 4 28 == i.imemAddr.extractLsb' 4 28

/-- `hit_found`. -/
def hitFound : Bool :=
  i.imemReq && (c.hitWay i 0#2 || c.hitWay i 1#2 || c.hitWay i 2#2 || c.hitWay i 3#2)

/-- `hit_data`: the loop keeps the last way that hits. -/
def hitData : BitVec 32 :=
  let word (w : BitVec 2) := c.cacheInst (groupIndex i.imemAddr) w (i.imemAddr.extractLsb' 2 2)
  if !i.imemReq then 0#32
  else if c.hitWay i 3#2 then word 3#2
  else if c.hitWay i 2#2 then word 2#2
  else if c.hitWay i 1#2 then word 1#2
  else if c.hitWay i 0#2 then word 0#2
  else 0#32

def imemRdata : BitVec 32 := if c.hitFound i then c.hitData i else c.instOutReg
def imemReady : Bool := if c.hitFound i then true else c.imemReadyReg
def memReq : Bool := c.memReqReg
def memAddr : BitVec 32 :=
  if c.missPending then c.refillBaseAddr + (0#28 ++ c.refillWordIdx ++ 0#2) else c.addrReg

def victimWay : BitVec 2 := c.lfsr.extractLsb' 0 2

/-- `refill_line_next`: the line with the word of this beat. -/
def refillLineNext : CacheLine :=
  Function.update c.refillLineBuf c.refillWordIdx i.memRdata

/-- The registers after a beat of the refill; the fourth puts the line in the cache. -/
def stepBeat : CacheInst :=
  if c.refillWordIdx == 3#2 then
    { c with
      cacheAddr := Function.update c.cacheAddr c.refillGroupIndex
        (Function.update (c.cacheAddr c.refillGroupIndex) c.refillWay ⟨true, lineBase c.addrReg⟩)
      cacheInst := Function.update c.cacheInst c.refillGroupIndex
        (Function.update (c.cacheInst c.refillGroupIndex) c.refillWay (c.refillLineNext i))
      memReqReg := false
      missPending := false
      refillWordIdx := 0#2
      refillLineBuf := fun _ => 0#32 }
  else
    { c with
      memReqReg := true
      refillWordIdx := c.refillWordIdx + 1#2
      refillLineBuf := c.refillLineNext i }

/-- The registers after a miss is found. -/
def stepMiss : CacheInst :=
  { c with
    addrReg := i.imemAddr
    missPending := true
    memReqReg := true
    refillGroupIndex := groupIndex i.imemAddr
    refillWay := c.victimWay
    refillBaseAddr := lineBase i.imemAddr
    refillWordIdx := 0#2
    refillLineBuf := fun _ => 0#32 }

/-- `L1_Cache_INST` after a clock edge. -/
def step : CacheInst :=
  let next :=
    if c.missPending then if i.memReady then c.stepBeat i else { c with memReqReg := true }
    else if i.imemReq then
      if !c.hitFound i then c.stepMiss i else { c with memReqReg := false, addrReg := i.imemAddr }
    else { c with memReqReg := false }
  { next with imemReadyReg := false, lfsr := Lfsr.step c.lfsr i.imemReq }

end CacheInst

end RiscvSoc.Rtl
