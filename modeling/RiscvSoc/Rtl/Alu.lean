import Mathlib.Tactic.Common

/-!
# The arithmetic unit: `adder_4bit`, `adder_32bit`, `ALU`

The combinational blocks of `src/RTL/module/ALU`, wire by wire.
-/

namespace RiscvSoc.Rtl

/-! ### The carry-lookahead adder -/

/-- The outputs of `adder_4bit` that `adder_32bit` connects. -/
structure Adder4 where
  cOut : Bool
  s : BitVec 4
  deriving DecidableEq

/-- `adder_4bit`: the four carries as sums of products of generate and propagate. -/
def adder4bit (a b : BitVec 4) (cIn : Bool) : Adder4 :=
  let g (k : ℕ) : Bool := a.getLsbD k && b.getLsbD k
  let p (k : ℕ) : Bool := a.getLsbD k ^^ b.getLsbD k
  let c0 := g 0 || (p 0 && cIn)
  let c1 := g 1 || (p 1 && g 0) || (p 1 && p 0 && cIn)
  let c2 := g 2 || (p 2 && g 1) || (p 2 && p 1 && g 0) || (p 2 && p 1 && p 0 && cIn)
  let c3 := g 3 || (p 3 && g 2) || (p 3 && p 2 && g 1) || (p 3 && p 2 && p 1 && g 0) ||
    (p 3 && p 2 && p 1 && p 0 && cIn)
  let s0 := a.getLsbD 0 ^^ b.getLsbD 0 ^^ cIn
  let s1 := a.getLsbD 1 ^^ b.getLsbD 1 ^^ c0
  let s2 := a.getLsbD 2 ^^ b.getLsbD 2 ^^ c1
  let s3 := a.getLsbD 3 ^^ b.getLsbD 3 ^^ c2
  { cOut := c3
    s := BitVec.ofBool s3 ++ BitVec.ofBool s2 ++ BitVec.ofBool s1 ++ BitVec.ofBool s0 }

/-- `c_all` of `adder_32bit`: the carry into the `k`-th four-bit block. -/
def carryAll (a b : BitVec 32) (cIn : Bool) : ℕ → Bool
  | 0 => cIn
  | k + 1 => (adder4bit (a.extractLsb' (k * 4) 4) (b.extractLsb' (k * 4) 4)
      (carryAll a b cIn k)).cOut

/-- The sum bits of the `k`-th block of `adder_32bit`. -/
def sumBlock (a b : BitVec 32) (cIn : Bool) (k : ℕ) : BitVec 4 :=
  (adder4bit (a.extractLsb' (k * 4) 4) (b.extractLsb' (k * 4) 4) (carryAll a b cIn k)).s

/-- The outputs of `adder_32bit`. -/
structure Adder32 where
  result : BitVec 32
  cOut : Bool
  deriving DecidableEq

/-- `adder_32bit`: eight `adder_4bit` blocks, the carry rippling from block to block. -/
def adder32bit (a b : BitVec 32) (cIn : Bool) : Adder32 where
  result := sumBlock a b cIn 7 ++ sumBlock a b cIn 6 ++ sumBlock a b cIn 5 ++ sumBlock a b cIn 4 ++
    sumBlock a b cIn 3 ++ sumBlock a b cIn 2 ++ sumBlock a b cIn 1 ++ sumBlock a b cIn 0
  cOut := carryAll a b cIn 8

/-! ### The ALU -/

/-- The inputs of `ALU`. -/
structure Alu where
  a : BitVec 32
  b : BitVec 32
  op : BitVec 5

namespace Alu

variable (u : Alu)

/-- `mul_full`: the signed product. -/
def mulFull : BitVec 64 := u.a.signExtend 64 * u.b.signExtend 64
def mulResult : BitVec 32 := u.mulFull.extractLsb' 0 32
def mulhResult : BitVec 32 := u.mulFull.extractLsb' 32 32
/-- `mulhu_full`: the unsigned product. -/
def mulhuFull : BitVec 64 := u.a.setWidth 64 * u.b.setWidth 64
def mulhuResult : BitVec 32 := u.mulhuFull.extractLsb' 32 32
/-- `mulhsu_full`: `b` gets a zero on top, and the 33-bit operand is then a signed one. -/
def mulhsuFull : BitVec 64 := u.a.signExtend 64 * (0#1 ++ u.b).signExtend 64
def mulhsuResult : BitVec 32 := u.mulhsuFull.extractLsb' 32 32

def divResult : BitVec 32 :=
  if u.a == 0x80000000#32 && u.b == -1#32 then 0x80000000#32
  else if u.b != 0#32 then u.a.sdiv u.b else 0xFFFFFFFF#32
def divuResult : BitVec 32 := if u.b != 0#32 then u.a / u.b else 0xFFFFFFFF#32
def remResult : BitVec 32 :=
  if u.a == 0x80000000#32 && u.b == -1#32 then 0#32
  else if u.b != 0#32 then u.a.srem u.b else u.a
def remuResult : BitVec 32 := if u.b != 0#32 then u.a % u.b else u.a

/-- `u_ALU_adder`: every op but `00000` gets the complement and a carry in. -/
def adder : Adder32 :=
  adder32bit u.a (if u.op == 0b00000#5 then u.b else ~~~u.b) (!(u.op == 0b00000#5))

def cout : Bool :=
  if u.op == 0b00000#5 then u.adder.cOut else if u.op == 0b00001#5 then !u.adder.cOut else false

def logicResult : BitVec 32 :=
  if u.op == 0b00100#5 then u.a &&& u.b
  else if u.op == 0b00101#5 then u.a ||| u.b
  else if u.op == 0b00110#5 then u.a ^^^ u.b
  else 0#32

/-- The low five bits of `b`, the shift amount. -/
def shamt : ℕ := (u.b.extractLsb' 0 5).toNat

/-- `shift_mask`: the copies of the sign that an arithmetic right shift brings in. -/
def shiftMask : BitVec 32 := (if u.a.msb then BitVec.allOnes 32 else 0#32) <<< (32 - u.shamt)

def shiftResult : BitVec 32 :=
  if u.op == 0b01000#5 then u.a <<< u.shamt
  else if u.op == 0b01001#5 then u.a >>> u.shamt
  else if u.op == 0b01010#5 then (u.a >>> u.shamt) ||| u.shiftMask
  else 0#32

/-- `condition`: the branch comparisons. -/
def condition : Bool :=
  if u.op == 0b10000#5 then u.a == u.b
  else if u.op == 0b10001#5 then u.a != u.b
  else if u.op == 0b10010#5 then u.a.ult u.b
  else if u.op == 0b10011#5 then !u.a.ult u.b
  else if u.op == 0b10110#5 then u.a.slt u.b
  else if u.op == 0b10111#5 then !u.a.slt u.b
  else false

def compareResult : BitVec 32 :=
  if u.op == 0b01100#5 then (if u.a.slt u.b then 1#32 else 0#32)
  else if u.op == 0b01101#5 then (if u.a.ult u.b then 1#32 else 0#32)
  else 0#32

/-- `result`: the op selects the unit; REM and REMU share the codes of branch conditions. -/
def result : BitVec 32 :=
  if u.op == 0b00000#5 || u.op == 0b00001#5 then u.adder.result
  else if u.op == 0b00010#5 then u.mulResult
  else if u.op == 0b00011#5 then u.mulhResult
  else if u.op == 0b00100#5 || u.op == 0b00101#5 || u.op == 0b00110#5 then u.logicResult
  else if u.op == 0b00111#5 then u.mulhsuResult
  else if u.op == 0b01000#5 || u.op == 0b01001#5 || u.op == 0b01010#5 then u.shiftResult
  else if u.op == 0b01011#5 then u.mulhuResult
  else if u.op == 0b01100#5 || u.op == 0b01101#5 then u.compareResult
  else if u.op == 0b01110#5 then u.divResult
  else if u.op == 0b01111#5 then u.divuResult
  else if u.op == 0b10001#5 then u.remResult
  else if u.op == 0b10100#5 then u.remuResult
  else 0#32

end Alu

end RiscvSoc.Rtl
