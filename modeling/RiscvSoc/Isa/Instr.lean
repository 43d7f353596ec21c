import Mathlib.Algebra.Ring.Int.Defs
import Mathlib.Algebra.Ring.Nat
import Mathlib.Tactic.Common
import Mathlib.Logic.Function.Basic

/-!
# The RV32IM instructions

The unprivileged integer instructions and the M extension: their encodings, the registers they
name, what they compute from a program counter and two operands.
-/

namespace RiscvSoc.Isa

/-! ### Operations -/

inductive AluOp
  | add | sub | sll | slt | sltu | xor | srl | sra | or | and
  deriving DecidableEq

inductive MulOp
  | mul | mulh | mulhsu | mulhu | div | divu | rem | remu
  deriving DecidableEq

inductive BranchOp
  | beq | bne | blt | bge | bltu | bgeu
  deriving DecidableEq

inductive LoadOp
  | lb | lh | lw | lbu | lhu
  deriving DecidableEq

inductive StoreOp
  | sb | sh | sw
  deriving DecidableEq

/-- The shift amount an operand gives: its low five bits. -/
def shamt (b : BitVec 32) : ℕ := b.toNat % 32

def AluOp.eval (a b : BitVec 32) : AluOp → BitVec 32
  | .add => a + b
  | .sub => a - b
  | .sll => a <<< shamt b
  | .slt => if a.toInt < b.toInt then 1#32 else 0#32
  | .sltu => if a.toNat < b.toNat then 1#32 else 0#32
  | .xor => a ^^^ b
  | .srl => a >>> shamt b
  | .sra => a.sshiftRight (shamt b)
  | .or => a ||| b
  | .and => a &&& b

/-- The high halves are those of the products of the signed or unsigned values; a division by
zero gives all ones and the dividend, and the one overflow wraps. -/
def MulOp.eval (a b : BitVec 32) : MulOp → BitVec 32
  | .mul => a * b
  | .mulh => BitVec.ofInt 32 (a.toInt * b.toInt / 2 ^ 32)
  | .mulhsu => BitVec.ofInt 32 (a.toInt * b.toNat / 2 ^ 32)
  | .mulhu => BitVec.ofNat 32 (a.toNat * b.toNat / 2 ^ 32)
  | .div => if b = 0#32 then -1#32 else BitVec.ofInt 32 (a.toInt.tdiv b.toInt)
  | .divu => if b = 0#32 then -1#32 else BitVec.ofNat 32 (a.toNat / b.toNat)
  | .rem => if b = 0#32 then a else BitVec.ofInt 32 (a.toInt.tmod b.toInt)
  | .remu => if b = 0#32 then a else BitVec.ofNat 32 (a.toNat % b.toNat)

def BranchOp.holds (a b : BitVec 32) : BranchOp → Bool
  | .beq => a = b
  | .bne => a ≠ b
  | .blt => a.toInt < b.toInt
  | .bge => b.toInt ≤ a.toInt
  | .bltu => a.toNat < b.toNat
  | .bgeu => b.toNat ≤ a.toNat

/-! ### Instructions -/

inductive Instr
  | op (o : AluOp) (rd rs1 rs2 : BitVec 5)
  | mulDiv (o : MulOp) (rd rs1 rs2 : BitVec 5)
  | opImm (o : AluOp) (rd rs1 : BitVec 5) (imm : BitVec 32)
  | lui (rd : BitVec 5) (imm : BitVec 32)
  | auipc (rd : BitVec 5) (imm : BitVec 32)
  | jal (rd : BitVec 5) (imm : BitVec 32)
  | jalr (rd rs1 : BitVec 5) (imm : BitVec 32)
  | branch (o : BranchOp) (rs1 rs2 : BitVec 5) (imm : BitVec 32)
  | load (o : LoadOp) (rd rs1 : BitVec 5) (imm : BitVec 32)
  | store (o : StoreOp) (rs1 rs2 : BitVec 5) (imm : BitVec 32)
  deriving DecidableEq

namespace Instr

/-- The register of the first operand. -/
def rs1? : Instr → Option (BitVec 5)
  | op _ _ r _ | mulDiv _ _ r _ | opImm _ _ r _ | jalr _ r _ | branch _ r _ _ | load _ _ r _
  | store _ r _ _ => some r
  | lui _ _ | auipc _ _ | jal _ _ => none

/-- The register of the second operand. -/
def rs2? : Instr → Option (BitVec 5)
  | op _ _ _ r | mulDiv _ _ _ r | branch _ _ r _ | store _ _ r _ => some r
  | opImm _ _ _ _ | jalr _ _ _ | load _ _ _ _ | lui _ _ | auipc _ _ | jal _ _ => none

/-- The destination register. -/
def rd? : Instr → Option (BitVec 5)
  | op _ r _ _ | mulDiv _ r _ _ | opImm _ r _ _ | lui r _ | auipc r _ | jal r _ | jalr r _ _
  | load _ r _ _ => some r
  | branch _ _ _ _ | store _ _ _ _ => none

/-- The major opcode. -/
def opcode : Instr → BitVec 7
  | op _ _ _ _ | mulDiv _ _ _ _ => 0b0110011#7
  | opImm _ _ _ _ => 0b0010011#7
  | lui _ _ => 0b0110111#7
  | auipc _ _ => 0b0010111#7
  | jal _ _ => 0b1101111#7
  | jalr _ _ _ => 0b1100111#7
  | branch _ _ _ _ => 0b1100011#7
  | load _ _ _ _ => 0b0000011#7
  | store _ _ _ _ => 0b0100011#7

/-- Neither a load nor a store. -/
def memFree : Instr → Bool
  | load _ _ _ _ | store _ _ _ _ => false
  | _ => true

def isJal : Instr → Bool
  | jal _ _ => true
  | _ => false

/-- A branch or a JALR: the redirects that are taken in EX. -/
def isBranchOrJalr : Instr → Bool
  | branch _ _ _ _ | jalr _ _ _ => true
  | _ => false

/-- What an instruction computes for its destination from its address and its operands; the
result of a load comes from the memory. -/
def result (pc a b : BitVec 32) : Instr → Option (BitVec 32)
  | op o _ _ _ => some (o.eval a b)
  | mulDiv o _ _ _ => some (o.eval a b)
  | opImm o _ _ imm => some (o.eval a imm)
  | lui _ imm => some imm
  | auipc _ imm => some (pc + imm)
  | jal _ _ | jalr _ _ _ => some (pc + 4#32)
  | branch _ _ _ _ | load _ _ _ _ | store _ _ _ _ => none

def isJalr : Instr → Bool
  | jalr _ _ _ => true
  | _ => false

def isLoad : Instr → Bool
  | load _ _ _ _ => true
  | _ => false

def isStore : Instr → Bool
  | store _ _ _ _ => true
  | _ => false

/-- A branch whose condition holds. -/
def taken (a b : BitVec 32) : Instr → Bool
  | branch o _ _ _ => o.holds a b
  | _ => false

/-- Where a branch goes when it is taken. -/
def branchTarget (pc : BitVec 32) : Instr → Option (BitVec 32)
  | branch _ _ _ imm => some (pc + imm)
  | _ => none

/-- Where a JALR goes. -/
def jalrTarget (a : BitVec 32) : Instr → Option (BitVec 32)
  | jalr _ _ imm => some ((a + imm) &&& ~~~1#32)
  | _ => none

/-- The address a load or a store accesses. -/
def memAddr (a : BitVec 32) : Instr → Option (BitVec 32)
  | load _ _ _ imm | store _ _ _ imm => some (a + imm)
  | _ => none

/-- The register value a store writes. -/
def memData (b : BitVec 32) : Instr → Option (BitVec 32)
  | store _ _ _ _ => some b
  | _ => none

/-- The address of the next instruction. -/
def nextPc (pc a b : BitVec 32) : Instr → BitVec 32
  | jal _ imm => pc + imm
  | jalr _ _ imm => (a + imm) &&& ~~~1#32
  | branch o _ _ imm => if o.holds a b then pc + imm else pc + 4#32
  | _ => pc + 4#32

end Instr

/-! ### Encodings -/

section Fields

variable (w : BitVec 32)

def opcode : BitVec 7 := w.extractLsb' 0 7
def rd : BitVec 5 := w.extractLsb' 7 5
def funct3 : BitVec 3 := w.extractLsb' 12 3
def rs1 : BitVec 5 := w.extractLsb' 15 5
def rs2 : BitVec 5 := w.extractLsb' 20 5
def funct7 : BitVec 7 := w.extractLsb' 25 7

def immI : BitVec 32 := (w.extractLsb' 20 12).signExtend 32
def immS : BitVec 32 := (w.extractLsb' 25 7 ++ w.extractLsb' 7 5).signExtend 32
def immB : BitVec 32 :=
  (w.extractLsb' 31 1 ++ w.extractLsb' 7 1 ++ w.extractLsb' 25 6 ++ w.extractLsb' 8 4 ++
    0#1).signExtend 32
def immU : BitVec 32 := w.extractLsb' 12 20 ++ 0#12
def immJ : BitVec 32 :=
  (w.extractLsb' 31 1 ++ w.extractLsb' 12 8 ++ w.extractLsb' 20 1 ++ w.extractLsb' 21 10 ++
    0#1).signExtend 32

end Fields

/-- The operation of an OP word that is not of the M extension. -/
def AluOp.ofFunct (f3 : BitVec 3) (f7 : BitVec 7) : Option AluOp :=
  if f7 = 0b0000000#7 then
    if f3 = 0b000#3 then some add
    else if f3 = 0b001#3 then some sll
    else if f3 = 0b010#3 then some slt
    else if f3 = 0b011#3 then some sltu
    else if f3 = 0b100#3 then some xor
    else if f3 = 0b101#3 then some srl
    else if f3 = 0b110#3 then some or
    else some and
  else if f7 = 0b0100000#7 then
    if f3 = 0b000#3 then some sub else if f3 = 0b101#3 then some sra else none
  else none

/-- The operation of an OP word of the M extension. -/
def MulOp.ofFunct (f3 : BitVec 3) : MulOp :=
  if f3 = 0b000#3 then mul
  else if f3 = 0b001#3 then mulh
  else if f3 = 0b010#3 then mulhsu
  else if f3 = 0b011#3 then mulhu
  else if f3 = 0b100#3 then div
  else if f3 = 0b101#3 then divu
  else if f3 = 0b110#3 then rem
  else remu

/-- The operation of an OP-IMM word: a shift has a `funct7` of its own. -/
def AluOp.ofFunctImm (f3 : BitVec 3) (f7 : BitVec 7) : Option AluOp :=
  if f3 = 0b000#3 then some add
  else if f3 = 0b010#3 then some slt
  else if f3 = 0b011#3 then some sltu
  else if f3 = 0b100#3 then some xor
  else if f3 = 0b110#3 then some or
  else if f3 = 0b111#3 then some and
  else if f3 = 0b001#3 then if f7 = 0b0000000#7 then some sll else none
  else if f7 = 0b0000000#7 then some srl
  else if f7 = 0b0100000#7 then some sra
  else none

def AluOp.isShift : AluOp → Bool
  | .sll | .srl | .sra => true
  | _ => false

def BranchOp.ofFunct (f3 : BitVec 3) : Option BranchOp :=
  if f3 = 0b000#3 then some beq
  else if f3 = 0b001#3 then some bne
  else if f3 = 0b100#3 then some blt
  else if f3 = 0b101#3 then some bge
  else if f3 = 0b110#3 then some bltu
  else if f3 = 0b111#3 then some bgeu
  else none

def LoadOp.ofFunct (f3 : BitVec 3) : Option LoadOp :=
  if f3 = 0b000#3 then some lb
  else if f3 = 0b001#3 then some lh
  else if f3 = 0b010#3 then some lw
  else if f3 = 0b100#3 then some lbu
  else if f3 = 0b101#3 then some lhu
  else none

def StoreOp.ofFunct (f3 : BitVec 3) : Option StoreOp :=
  if f3 = 0b000#3 then some sb
  else if f3 = 0b001#3 then some sh
  else if f3 = 0b010#3 then some sw
  else none

/-- The immediate of an OP-IMM word: a shift has only its five-bit amount. -/
def immOp (o : AluOp) (w : BitVec 32) : BitVec 32 :=
  if o.isShift then (rs2 w).setWidth 32 else immI w

/-- **The instruction a word encodes**, if it is a legal RV32IM encoding of one of them. -/
def decode (w : BitVec 32) : Option Instr :=
  if opcode w = 0b0110011#7 then
    if funct7 w = 0b0000001#7 then
      some (.mulDiv (MulOp.ofFunct (funct3 w)) (rd w) (rs1 w) (rs2 w))
    else (AluOp.ofFunct (funct3 w) (funct7 w)).map fun o => .op o (rd w) (rs1 w) (rs2 w)
  else if opcode w = 0b0010011#7 then
    (AluOp.ofFunctImm (funct3 w) (funct7 w)).map fun o => .opImm o (rd w) (rs1 w) (immOp o w)
  else if opcode w = 0b0110111#7 then some (.lui (rd w) (immU w))
  else if opcode w = 0b0010111#7 then some (.auipc (rd w) (immU w))
  else if opcode w = 0b1101111#7 then some (.jal (rd w) (immJ w))
  else if opcode w = 0b1100111#7 then
    if funct3 w = 0b000#3 then some (.jalr (rd w) (rs1 w) (immI w)) else none
  else if opcode w = 0b1100011#7 then
    (BranchOp.ofFunct (funct3 w)).map fun o => .branch o (rs1 w) (rs2 w) (immB w)
  else if opcode w = 0b0000011#7 then
    (LoadOp.ofFunct (funct3 w)).map fun o => .load o (rd w) (rs1 w) (immI w)
  else if opcode w = 0b0100011#7 then
    (StoreOp.ofFunct (funct3 w)).map fun o => .store o (rs1 w) (rs2 w) (immS w)
  else none

/-- The fields of a word that encodes an instruction, format by format. -/
inductive Encodes (w : BitVec 32) : Instr → Prop
  | mulDiv (hop : opcode w = 0b0110011#7) (hf : funct7 w = 0b0000001#7) :
      Encodes w (.mulDiv (MulOp.ofFunct (funct3 w)) (rd w) (rs1 w) (rs2 w))
  | op {o : AluOp} (hop : opcode w = 0b0110011#7)
      (hf : AluOp.ofFunct (funct3 w) (funct7 w) = some o) :
      Encodes w (.op o (rd w) (rs1 w) (rs2 w))
  | opImm {o : AluOp} (hop : opcode w = 0b0010011#7)
      (hf : AluOp.ofFunctImm (funct3 w) (funct7 w) = some o) :
      Encodes w (.opImm o (rd w) (rs1 w) (immOp o w))
  | lui (hop : opcode w = 0b0110111#7) : Encodes w (.lui (rd w) (immU w))
  | auipc (hop : opcode w = 0b0010111#7) : Encodes w (.auipc (rd w) (immU w))
  | jal (hop : opcode w = 0b1101111#7) : Encodes w (.jal (rd w) (immJ w))
  | jalr (hop : opcode w = 0b1100111#7) : Encodes w (.jalr (rd w) (rs1 w) (immI w))
  | branch {o : BranchOp} (hop : opcode w = 0b1100011#7)
      (hf : BranchOp.ofFunct (funct3 w) = some o) :
      Encodes w (.branch o (rs1 w) (rs2 w) (immB w))
  | load {o : LoadOp} (hop : opcode w = 0b0000011#7)
      (hf : LoadOp.ofFunct (funct3 w) = some o) :
      Encodes w (.load o (rd w) (rs1 w) (immI w))
  | store {o : StoreOp} (hop : opcode w = 0b0100011#7)
      (hf : StoreOp.ofFunct (funct3 w) = some o) :
      Encodes w (.store o (rs1 w) (rs2 w) (immS w))

/-- **Inversion of the decoder.** -/
theorem encodes_of_decode {w : BitVec 32} {i : Instr} (h : decode w = some i) : Encodes w i := by
  unfold decode at h
  split_ifs at h with hr hm hi hl ha hj hjr hf3 hb hld hst
  all_goals
    first
    | (simp only [Option.some.injEq] at h; subst h)
    | (simp only [Option.map_eq_some_iff] at h; obtain ⟨o, ho, rfl⟩ := h)
  · exact .mulDiv hr hm
  · exact .op hr ho
  · exact .opImm hi ho
  · exact .lui hl
  · exact .auipc ha
  · exact .jal hj
  · exact .jalr hjr
  · exact .branch hb ho
  · exact .load hld ho
  · exact .store hst ho

lemma opcode_of_decode {w : BitVec 32} {i : Instr} (h : decode w = some i) :
    opcode w = i.opcode := by
  cases encodes_of_decode h <;> assumption

end RiscvSoc.Isa
