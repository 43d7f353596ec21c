import RiscvSoc.Isa.ByteMem
import RiscvSoc.Rtl.CacheData

/-!
# `data_mem` as a memory of bytes

The four lanes of `data_mem` are one little-endian memory of 4096 bytes.  A write stores the bytes
of its span, and a read shows the bytes of its span as they were before the edge.  The merge of
the data cache is the same write, on the bytes of one word.
-/

namespace RiscvSoc.Rtl

open Sync Isa

/-! ### Spans -/

/-- Where an access begins: a word begins at a multiple of four, whatever its address. -/
def spanStart (size : BitVec 2) (a : ℕ) : ℕ := if size == memSizeWord then a / 4 * 4 else a

/-- How many bytes an access has; a half at an odd address has none, and there is no size 3. -/
def spanLength (size : BitVec 2) (a : ℕ) : ℕ :=
  if size == 0b00#2 then 1
  else if size == 0b01#2 then if a % 2 = 0 then 2 else 0
  else if size == memSizeWord then 4
  else 0

/-- An access covers the byte `b`. -/
def Covers (size : BitVec 2) (a b : ℕ) : Prop :=
  spanStart size a ≤ b ∧ b < spanStart size a + spanLength size a

instance (size : BitVec 2) (a b : ℕ) : Decidable (Covers size a b) :=
  inferInstanceAs (Decidable (_ ∧ _))

/-- An access covers bytes of one word. -/
lemma covers_iff (size : BitVec 2) (a b : ℕ) :
    Covers size a b ↔ b / 4 = a / 4 ∧ Covers size (a % 4) (b % 4) := by
  have hmod : a % 4 % 2 = a % 2 := by omega
  unfold Covers spanStart spanLength
  rw [hmod]
  split_ifs <;> omega

/-- The place of a byte in its span. -/
lemma sub_spanStart {size : BitVec 2} {a b : ℕ} (h : b / 4 = a / 4) :
    b - spanStart size a = b % 4 - spanStart size (a % 4) := by
  unfold spanStart
  split_ifs <;> omega

/-- What a read of a memory of bytes shows. -/
def readBytes (f : BitVec 12 → BitVec 8) (size : BitVec 2) (a : BitVec 12) : BitVec 32 :=
  if size == 0b00#2 then LoadOp.lb.value f a
  else if size == 0b01#2 then if a.toNat % 2 = 0 then LoadOp.lh.value f a else 0#32
  else if size == memSizeWord then LoadOp.lw.value f (a.extractLsb' 2 10 ++ 0#2)
  else 0#32

namespace DataMemIn

variable (i : DataMemIn)

/-- The address of the byte: `data_mem` does not look at the bits above it. -/
def byteAddr : BitVec 12 := i.address.extractLsb' 0 12

/-- What the edge stores at the byte `b`, if anything. -/
def stored (b : BitVec 12) : Option (BitVec 8) :=
  if i.writeEn = true ∧ Covers i.size i.byteAddr.toNat b.toNat then
    some (byteOf i.dataIn (b.toNat - spanStart i.size i.byteAddr.toNat))
  else none

/-- The edge reads. -/
def reads : Bool := i.valid && i.readEn

end DataMemIn

/-! ### Lanes -/

lemma extractLsb'_extractLsb' {w : ℕ} (x : BitVec w) {s l s' l' : ℕ} (h : s' + l' ≤ l) :
    (x.extractLsb' s l).extractLsb' s' l' = x.extractLsb' (s + s') l' := by
  apply BitVec.eq_of_getLsbD_eq
  intro j hj
  simp [hj, show s' + j < l by omega, Nat.add_assoc]

/-- **The merge of the cache, lane by lane.** -/
lemma byteOf_cacheWriteWord (old v : BitVec 32) (size pos : BitVec 2) {k : ℕ} (hk : k < 4) :
    byteOf (cacheWriteWord old v size pos) k =
      if Covers size pos.toNat k then byteOf v (k - spanStart size pos.toNat)
      else byteOf old k := by
  have hk' : k = 0 ∨ k = 1 ∨ k = 2 ∨ k = 3 := by omega
  rcases bitVec_two_cases size with rfl | rfl | rfl | rfl <;>
  rcases bitVec_two_cases pos with rfl | rfl | rfl | rfl <;>
  rcases hk' with rfl | rfl | rfl | rfl <;>
    simp (disch := omega) [cacheWriteWord, byteOf, Covers, spanStart, spanLength, memSizeWord,
      BitVec.extractLsb'_append_eq_of_le (w := 8), BitVec.extractLsb'_append_eq_of_le (w := 16),
      BitVec.extractLsb'_append_eq_of_le (w := 24),
      BitVec.extractLsb'_append_eq_of_add_le (w := 8),
      BitVec.extractLsb'_append_eq_of_add_le (w := 16),
      BitVec.extractLsb'_append_eq_of_add_le (w := 24), extractLsb'_extractLsb']

namespace DataMemIn

variable (i : DataMemIn)

/-- The aligned data is merged into zeros. -/
lemma wdataAligned_eq : i.wdataAligned = cacheWriteWord 0#32 i.dataIn i.size i.position := by
  simp [wdataAligned, cacheWriteWord]

/-- The enabled lanes are those that the write covers. -/
lemma byteWe_getLsbD {k : ℕ} (hk : k < 4) :
    i.byteWe.getLsbD k = decide (Covers i.size i.position.toNat k) := by
  unfold byteWe
  generalize i.size = size
  generalize i.position = pos
  revert k size pos
  decide

/-- A lane after the edge. -/
lemma laneStep_apply (mem : BitVec 10 → BitVec 8) (k : ℕ) (a : BitVec 10) : i.laneStep mem k a =
    if i.writeEn = true ∧ a = i.wordAddr ∧ i.byteWe.getLsbD k = true then
      byteOf i.wdataAligned k
    else mem a := by
  rw [laneStep, byteOf]
  by_cases hwe : (i.writeEn && i.byteWe.getLsbD k) = true
  · rw [if_pos hwe, Function.update_apply]
    rw [Bool.and_eq_true] at hwe
    simp [hwe.1, hwe.2]
  · rw [if_neg hwe, if_neg]
    intro h
    exact hwe (by rw [h.1, h.2.2, Bool.and_self])

end DataMemIn

namespace DataMem

variable (m : DataMem) (i : DataMemIn)

lemma byteOf_lanes (b₃ b₂ b₁ b₀ : BitVec 8) {k : ℕ} (hk : k < 4) :
    byteOf (b₃ ++ b₂ ++ b₁ ++ b₀) k =
      if k = 0 then b₀ else if k = 1 then b₁ else if k = 2 then b₂ else b₃ := by
  have hk' : k = 0 ∨ k = 1 ∨ k = 2 ∨ k = 3 := by omega
  rw [byteOf, extractLsb'_append_byte, extractLsb'_append_byte, extractLsb'_append_byte]
  rcases hk' with rfl | rfl | rfl | rfl <;> simp

/-- **An edge writes the enabled lanes of one word.** -/
lemma byteOf_word_step (a : BitVec 10) {k : ℕ} (hk : k < 4) :
    byteOf ((m.step i).word a) k =
      if i.writeEn = true ∧ a = i.wordAddr ∧ i.byteWe.getLsbD k = true then
        byteOf i.wdataAligned k
      else byteOf (m.word a) k := by
  have hk' : k = 0 ∨ k = 1 ∨ k = 2 ∨ k = 3 := by omega
  rw [word, word, byteOf_lanes _ _ _ _ hk, byteOf_lanes _ _ _ _ hk]
  rcases hk' with rfl | rfl | rfl | rfl <;> exact i.laneStep_apply _ _ _

/-- **The merge is the write of the memory**: the word of the address after a write is the merged
word. -/
theorem word_step_eq_cacheWriteWord (hw : i.writeEn = true) : (m.step i).word =
    Function.update m.word i.wordAddr
      (cacheWriteWord (m.word i.wordAddr) i.dataIn i.size i.position) := by
  funext a
  rw [eq_iff_byteOf]
  intro k hk
  rw [byteOf_word_step m i a hk, i.byteWe_getLsbD hk, i.wdataAligned_eq]
  by_cases ha : a = i.wordAddr
  · subst ha
    rw [Function.update_self, byteOf_cacheWriteWord _ _ _ _ hk, byteOf_cacheWriteWord _ _ _ _ hk]
    by_cases hc : Covers i.size i.position.toNat k
    · simp [hw, hc]
    · simp [hc]
  · rw [Function.update_of_ne ha, if_neg fun h => ha h.2.1]

/-! ### The memory of bytes -/

/-- The bytes of `data_mem`. -/
def bytes : BitVec 12 → BitVec 8 := Isa.bytes m.word

/-- **What an edge does to a byte.** -/
theorem bytes_step (b : BitVec 12) : (m.step i).bytes b = (i.stored b).getD (m.bytes b) := by
  have hk := Nat.mod_lt b.toNat (show 0 < 4 by omega)
  have hpos : i.position.toNat = i.byteAddr.toNat % 4 := by
    simp [DataMemIn.position, bytePos, DataMemIn.byteAddr]
  have hword : b.extractLsb' 2 10 = i.wordAddr ↔ b.toNat / 4 = i.byteAddr.toNat / 4 := by
    have ha : i.byteAddr.extractLsb' 2 10 = i.wordAddr :=
      extractLsb'_extractLsb' i.address (show 2 + 10 ≤ 12 by omega)
    rw [← ha, ← BitVec.toNat_inj, wordOf_toNat, wordOf_toNat]
  have hcovers := covers_iff i.size i.byteAddr.toNat b.toNat
  rw [bytes, Isa.bytes, byteOf_word_step m i _ hk, i.byteWe_getLsbD hk, DataMemIn.stored]
  by_cases hc : i.writeEn = true ∧ Covers i.size i.byteAddr.toNat b.toNat
  · obtain ⟨hquot, hlane⟩ := hcovers.mp hc.2
    rw [if_pos hc, if_pos, i.wdataAligned_eq, byteOf_cacheWriteWord _ _ _ _ hk, hpos, if_pos hlane,
      Option.getD_some, sub_spanStart hquot]
    exact ⟨hc.1, hword.mpr hquot, by rw [hpos, decide_eq_true hlane]⟩
  · rw [if_neg hc, if_neg]
    · rfl
    · rintro ⟨hw, ha, hlane⟩
      rw [hpos, decide_eq_true_eq] at hlane
      exact hc ⟨hw, hcovers.mpr ⟨hword.mp ha, hlane⟩⟩

/-! ### Reads -/

/-- A half of a word is two bytes. -/
lemma half_eq_bytes (w : BitVec 32) (k : ℕ) :
    w.extractLsb' (8 * k) 16 = byteOf w (k + 1) ++ byteOf w k :=
  (BitVec.extractLsb'_append_extractLsb'_eq_extractLsb' (x := w)
    (show 8 * (k + 1) = 8 * k + 8 by omega)).symm

lemma cacheReadData_byte (w : BitVec 32) (pos : BitVec 2) :
    cacheReadData w 0b00#2 pos = (byteOf w pos.toNat).signExtend 32 := by
  rcases bitVec_two_cases pos with rfl | rfl | rfl | rfl <;> simp [cacheReadData, byteOf]

lemma cacheReadData_half (w : BitVec 32) (pos : BitVec 2) : cacheReadData w 0b01#2 pos =
    if pos.toNat % 2 = 0 then (byteOf w (pos.toNat + 1) ++ byteOf w pos.toNat).signExtend 32
    else 0#32 := by
  rcases bitVec_two_cases pos with rfl | rfl | rfl | rfl
  · simp [cacheReadData, ← half_eq_bytes w 0]
  · simp [cacheReadData]
  · simp [cacheReadData, ← half_eq_bytes w 2]
  · simp [cacheReadData]

/-- The bytes from a multiple of four on are a word. -/
lemma value_lw_aligned (f : BitVec 10 → BitVec 32) (b : BitVec 10) :
    LoadOp.lw.value (Isa.bytes f) (b ++ 0#2) = f b := by
  have hword : (b ++ 0#2).extractLsb' 2 10 = b := BitVec.extractLsb'_append_eq_left
  have hzero : (b ++ 0#2).toNat % 4 = 0 := by
    simp only [BitVec.toNat_append, Nat.shiftLeft_eq, BitVec.toNat_ofNat, Nat.zero_mod, Nat.or_zero]
    omega
  have hbyte : ∀ k < 4, Isa.bytes f (b ++ 0#2 + BitVec.ofNat 12 k) = byteOf (f b) k := by
    intro k hk
    rw [bytes_add f (b ++ 0#2) (by omega), hword, hzero, Nat.zero_add]
  have hfirst := hbyte 0 (by omega)
  rw [BitVec.add_zero] at hfirst
  rw [LoadOp.value, hbyte 3 (by omega), hbyte 2 (by omega), hbyte 1 (by omega), hfirst]
  exact append_lanes (f b)

/-- **What a read shows.** -/
theorem cacheReadData_eq_readBytes (f : BitVec 10 → BitVec 32) (size : BitVec 2)
    (a : BitVec 12) : cacheReadData (f (a.extractLsb' 2 10)) size (a.extractLsb' 0 2) =
      readBytes (Isa.bytes f) size a := by
  have hpos : (a.extractLsb' 0 2).toNat = a.toNat % 4 := by simp
  have hmod : a.toNat % 4 % 2 = a.toNat % 2 := by omega
  rcases bitVec_two_cases size with rfl | rfl | rfl | rfl
  · rw [cacheReadData_byte, hpos]
    rfl
  · rw [cacheReadData_half, hpos, hmod]
    by_cases heven : a.toNat % 2 = 0
    · have hnext := bytes_add f a (k := 1) (by omega)
      rw [if_pos heven, ← hnext]
      simp [readBytes, heven, LoadOp.value, Isa.bytes]
    · simp [readBytes, heven]
  · exact (value_lw_aligned f _).symm
  · rfl

/-- `data_out` after a read. -/
lemma dataOut_step_of_reads (hr : i.reads = true) :
    (m.step i).dataOut = cacheReadData (m.word i.wordAddr) i.size i.position := by
  have hout : (m.step i).dataOut =
      cacheReadData (m.step i).memData (m.step i).sizeQ (m.step i).positionQ := rfl
  rw [DataMemIn.reads] at hr
  rw [hout, show (m.step i).memData = m.word i.wordAddr by simp [step, hr],
    show (m.step i).sizeQ = i.size by simp [step, hr],
    show (m.step i).positionQ = i.position by simp [step, hr]]

/-- **What an edge does to `data_out`.** -/
theorem dataOut_step : (m.step i).dataOut =
    if i.reads then readBytes m.bytes i.size i.byteAddr else m.dataOut := by
  have hword : i.byteAddr.extractLsb' 2 10 = i.wordAddr :=
    extractLsb'_extractLsb' i.address (show 2 + 10 ≤ 12 by omega)
  have hpos : i.byteAddr.extractLsb' 0 2 = i.position :=
    extractLsb'_extractLsb' i.address (show 0 + 2 ≤ 12 by omega)
  cases hr : i.reads
  · rw [DataMemIn.reads] at hr
    simp [dataOut, step, hr]
  · rw [if_pos rfl, bytes, ← cacheReadData_eq_readBytes, hword, hpos]
    exact m.dataOut_step_of_reads i hr

/-! ### Runs -/

/-- `data_mem` from any contents. -/
def machine (m : DataMem) : Machine DataMemIn DataMem where
  init := m
  next s i := s.step i

/-- **A little-endian memory of bytes**, up to cycle `n` of a run: a byte is what the last write
that covers it stored, or what it was first; the bytes that a write does not cover stay; and
`data_out` shows what the last read found before its edge. -/
structure ByteMemory (m : DataMem) (ins : ℕ → DataMemIn) (n : ℕ) : Prop where
  last : ∀ b, (∃ k < n, (ins k).stored b = some (((machine m).run ins n).bytes b) ∧
      ∀ j, k < j → j < n → (ins j).stored b = none) ∨
    ((∀ j < n, (ins j).stored b = none) ∧ ((machine m).run ins n).bytes b = m.bytes b)
  frame : ∀ b, (ins n).stored b = none →
    ((machine m).run ins (n + 1)).bytes b = ((machine m).run ins n).bytes b
  out : ∀ k < n, (ins k).reads = true → (∀ j, k < j → j < n → (ins j).reads = false) →
    ((machine m).run ins n).dataOut =
      readBytes ((machine m).run ins k).bytes (ins k).size (ins k).byteAddr

/-- **`data_mem` is a little-endian memory of bytes.** -/
theorem byteMemory (m : DataMem) (ins : ℕ → DataMemIn) (n : ℕ) : ByteMemory m ins n where
  last b := last_update (x := fun k => ((machine m).run ins k).bytes b)
    (u := fun k => (ins k).stored b) (fun k => bytes_step ((machine m).run ins k) (ins k) b) n
  frame b hb := by
    rw [Machine.run_succ]
    exact (bytes_step _ _ b).trans (by rw [hb, Option.getD_none])
  out k hk hr hlast := by
    refine eq_of_update (x := fun j => ((machine m).run ins j).dataOut)
      (u := fun j => if (ins j).reads then
        some (readBytes ((machine m).run ins j).bytes (ins j).size (ins j).byteAddr) else none)
      ?_ hk ?_ ?_
    · intro j
      rw [Machine.run_succ]
      refine (dataOut_step _ _).trans ?_
      cases (ins j).reads <;> rfl
    · rw [hr, if_pos rfl]
    · intro j hkj hjn
      rw [hlast j hkj hjn]
      rfl

end DataMem

end RiscvSoc.Rtl
