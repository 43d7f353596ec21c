import RiscvSoc.Isa.Instr

/-!
# Loads and stores over a memory of bytes

What the loads and stores do to a little-endian memory of bytes, and the same memory as an array
of words.  The last part says which words a load could take as they are, and which a store could
write as they are.
-/

namespace RiscvSoc.Isa

/-- Byte `k` of a word. -/
def byteOf (w : BitVec 32) (k : ℕ) : BitVec 8 := w.extractLsb' (8 * k) 8

/-! ### Loads and stores -/

/-- How many bytes a load reads. -/
def LoadOp.size : LoadOp → ℕ
  | .lb | .lbu => 1
  | .lh | .lhu => 2
  | .lw => 4

/-- How many bytes a store writes. -/
def StoreOp.size : StoreOp → ℕ
  | .sb => 1
  | .sh => 2
  | .sw => 4

section Semantics

variable {n : ℕ}

/-- What a load from the address `a` leaves in its register. -/
def LoadOp.value (f : BitVec n → BitVec 8) (a : BitVec n) : LoadOp → BitVec 32
  | .lb => (f a).signExtend 32
  | .lh => (f (a + 1#n) ++ f a).signExtend 32
  | .lw => f (a + 3#n) ++ f (a + 2#n) ++ f (a + 1#n) ++ f a
  | .lbu => (f a).setWidth 32
  | .lhu => (f (a + 1#n) ++ f a).setWidth 32

/-- The memory after a store of the register value `v` at the address `a`. -/
def StoreOp.apply (f : BitVec n → BitVec 8) (a : BitVec n) (v : BitVec 32) (o : StoreOp) :
    BitVec n → BitVec 8 :=
  fun b => if (b - a).toNat < o.size then byteOf v (b - a).toNat else f b

end Semantics

/-- What a load fills the upper bytes with, given the last byte that it reads. -/
def LoadOp.fill (b : BitVec 8) : LoadOp → BitVec 8
  | .lb | .lh => if b.msb then 0xff#8 else 0#8
  | .lw | .lbu | .lhu => 0#8

/-! ### The bytes of a word -/

lemma byteOf_getLsbD (w : BitVec 32) (k j : ℕ) :
    (byteOf w k).getLsbD j = (decide (j < 8) && w.getLsbD (8 * k + j)) := by
  rw [byteOf, BitVec.getLsbD_extractLsb']

/-- A word is its four bytes. -/
lemma eq_iff_byteOf (w w' : BitVec 32) : w = w' ↔ ∀ k < 4, byteOf w k = byteOf w' k := by
  constructor
  · rintro rfl k _
    rfl
  · intro h
    apply BitVec.eq_of_getLsbD_eq
    intro j hj
    have hk := congrArg (fun b => b.getLsbD (j % 8)) (h (j / 8) (by omega))
    simp only [byteOf_getLsbD, show j % 8 < 8 by omega, decide_true, Bool.true_and,
      show 8 * (j / 8) + j % 8 = j by omega] at hk
    exact hk

lemma byteOf_signExtend {m : ℕ} (x : BitVec m) (hm : m % 8 = 0) {k : ℕ} (hk : k < 4) :
    byteOf (x.signExtend 32) k =
      if 8 * k < m then x.extractLsb' (8 * k) 8 else if x.msb then 0xff#8 else 0#8 := by
  apply BitVec.eq_of_getLsbD_eq
  intro j hj
  rw [byteOf_getLsbD, BitVec.getLsbD_signExtend]
  by_cases h : 8 * k < m
  · simp [h, hj, show 8 * k + j < 32 by omega, show 8 * k + j < m by omega]
  · have hones : (0xff#8).getLsbD j = true := by
      rw [show 0xff#8 = BitVec.allOnes 8 from rfl, BitVec.getLsbD_allOnes]
      simpa using hj
    simp only [h, if_false, hj, show 8 * k + j < 32 by omega, show ¬ 8 * k + j < m by omega,
      decide_true, Bool.true_and]
    cases x.msb
    · simp
    · exact hones.symm

lemma byteOf_setWidth {m : ℕ} (x : BitVec m) (hm : m % 8 = 0) {k : ℕ} (hk : k < 4) :
    byteOf (x.setWidth 32) k = if 8 * k < m then x.extractLsb' (8 * k) 8 else 0#8 := by
  apply BitVec.eq_of_getLsbD_eq
  intro j hj
  rw [byteOf_getLsbD, BitVec.getLsbD_setWidth]
  by_cases h : 8 * k < m
  · simp [h, hj, show 8 * k + j < 32 by omega]
  · simp [h, hj, BitVec.getLsbD_of_ge x (8 * k + j) (by omega)]

lemma extractLsb'_append_byte {m : ℕ} (hi : BitVec m) (lo : BitVec 8) (k : ℕ) :
    (hi ++ lo).extractLsb' (8 * k) 8 = if k = 0 then lo else hi.extractLsb' (8 * (k - 1)) 8 := by
  apply BitVec.eq_of_getLsbD_eq
  intro j hj
  rw [BitVec.getLsbD_extractLsb', BitVec.getLsbD_append]
  by_cases h : k = 0
  · simp [h, hj]
  · simp [h, hj, show ¬ 8 * k + j < 8 by omega, show 8 * k + j - 8 = 8 * (k - 1) + j by omega]

/-- The bytes of what a load leaves. -/
lemma byteOf_value {n : ℕ} (f : BitVec n → BitVec 8) (a : BitVec n) (o : LoadOp) {k : ℕ}
    (hk : k < 4) : byteOf (o.value f a) k =
      if k < o.size then f (a + BitVec.ofNat n k)
      else o.fill (f (a + BitVec.ofNat n (o.size - 1))) := by
  have hcases : k = 0 ∨ k = 1 ∨ k = 2 ∨ k = 3 := by omega
  cases o with
  | lb =>
    rw [LoadOp.value, byteOf_signExtend _ rfl hk]
    rcases hcases with rfl | rfl | rfl | rfl <;> simp [LoadOp.size, LoadOp.fill]
  | lbu =>
    rw [LoadOp.value, byteOf_setWidth _ rfl hk]
    rcases hcases with rfl | rfl | rfl | rfl <;> simp [LoadOp.size, LoadOp.fill]
  | lh =>
    have hmsb : (f (a + 1#n) ++ f a).msb = (f (a + 1#n)).msb := by
      rw [BitVec.msb_append]
      rfl
    rw [LoadOp.value, byteOf_signExtend _ rfl hk, extractLsb'_append_byte, hmsb]
    rcases hcases with rfl | rfl | rfl | rfl
    · simp [LoadOp.size]
    · simp [LoadOp.size]
    · rfl
    · rfl
  | lhu =>
    rw [LoadOp.value, byteOf_setWidth _ rfl hk, extractLsb'_append_byte]
    rcases hcases with rfl | rfl | rfl | rfl <;> simp [LoadOp.size, LoadOp.fill]
  | lw =>
    rw [LoadOp.value, byteOf, extractLsb'_append_byte, extractLsb'_append_byte,
      extractLsb'_append_byte]
    rcases hcases with rfl | rfl | rfl | rfl <;> simp [LoadOp.size]

/-! ### A memory of words -/

section Words

variable {m : ℕ}

/-- The memory of bytes that an array of words is. -/
def bytes (f : BitVec m → BitVec 32) : BitVec (m + 2) → BitVec 8 :=
  fun a => byteOf (f (a.extractLsb' 2 m)) (a.toNat % 4)

/-- **A load could take the whole word** `w` for the bytes from `p` on: these are at the bottom of
the word, and above them it is what they are extended with. -/
structure LoadOp.Fits (o : LoadOp) (p : ℕ) (w : BitVec 32) : Prop where
  bottom : ∀ k < o.size, byteOf w k = byteOf w (p + k)
  above : ∀ k < 4, o.size ≤ k → byteOf w k = o.fill (byteOf w (p + (o.size - 1)))

/-- **A store could write the whole register** `v` over the word `old` from its byte `p` on: the
bytes of the register at these places are its lowest ones, and the others are those of the word. -/
structure StoreOp.Fits (o : StoreOp) (p : ℕ) (old v : BitVec 32) : Prop where
  inside : ∀ k < 4, p ≤ k → k < p + o.size → byteOf v k = byteOf v (k - p)
  outside : ∀ k < 4, k < p ∨ p + o.size ≤ k → byteOf v k = byteOf old k

lemma wordOf_toNat (a : BitVec (m + 2)) : (a.extractLsb' 2 m).toNat = a.toNat / 4 := by
  have ha := a.isLt
  rw [BitVec.extractLsb'_toNat, Nat.shiftRight_eq_div_pow, Nat.mod_eq_of_lt]
  rw [pow_add] at ha
  omega

/-- The bytes that an aligned load reads are in one word. -/
lemma bytes_add (f : BitVec m → BitVec 32) (a : BitVec (m + 2)) {k : ℕ}
    (hk : a.toNat % 4 + k < 4) :
    bytes f (a + BitVec.ofNat (m + 2) k) = byteOf (f (a.extractLsb' 2 m)) (a.toNat % 4 + k) := by
  have ha := a.isLt
  have hsum : (a + BitVec.ofNat (m + 2) k).toNat = a.toNat + k := by
    rw [BitVec.toNat_add, BitVec.toNat_ofNat, Nat.add_mod_mod, Nat.mod_eq_of_lt]
    rw [pow_add] at ha ⊢
    omega
  have hword : (a + BitVec.ofNat (m + 2) k).extractLsb' 2 m = a.extractLsb' 2 m := by
    apply BitVec.eq_of_toNat_eq
    rw [wordOf_toNat, wordOf_toNat, hsum]
    omega
  rw [bytes, hword, hsum, show (a.toNat + k) % 4 = a.toNat % 4 + k by omega]

lemma LoadOp.size_cases (o : LoadOp) : o.size = 1 ∨ o.size = 2 ∨ o.size = 4 := by
  cases o <;> simp [size]

lemma StoreOp.size_cases (o : StoreOp) : o.size = 1 ∨ o.size = 2 ∨ o.size = 4 := by
  cases o <;> simp [size]

/-- **When a load leaves the whole word.** -/
theorem LoadOp.value_eq_iff_fits (f : BitVec m → BitVec 32) (a : BitVec (m + 2)) (o : LoadOp)
    (ha : a.toNat % o.size = 0) :
    f (a.extractLsb' 2 m) = o.value (bytes f) a ↔
      o.Fits (a.toNat % 4) (f (a.extractLsb' 2 m)) := by
  have hsize := o.size_cases
  have hroom : a.toNat % 4 + o.size ≤ 4 := by
    rcases hsize with h | h | h <;> rw [h] at ha ⊢ <;> omega
  have hlast := bytes_add f a (k := o.size - 1) (by omega)
  rw [eq_iff_byteOf]
  constructor
  · intro h
    constructor
    · intro k hk
      have hb := h k (by omega)
      rw [byteOf_value _ _ _ (by omega), if_pos hk, bytes_add f a (by omega)] at hb
      exact hb
    · intro k hk hs
      have hb := h k hk
      rw [byteOf_value _ _ _ hk, if_neg (by omega), hlast] at hb
      exact hb
  · intro h k hk
    rw [byteOf_value _ _ _ hk]
    split_ifs with hs
    · rw [bytes_add f a (by omega)]
      exact h.bottom k hs
    · rw [hlast]
      exact h.above k hk (by omega)

/-- The bytes that an aligned store writes are in the word of its address. -/
lemma sub_lt_size_iff {a b : BitVec (m + 2)} {o : StoreOp} (ha : a.toNat % o.size = 0) :
    (b - a).toNat < o.size ↔ b.extractLsb' 2 m = a.extractLsb' 2 m ∧
      a.toNat % 4 ≤ b.toNat % 4 ∧ b.toNat % 4 < a.toNat % 4 + o.size := by
  have hword : b.extractLsb' 2 m = a.extractLsb' 2 m ↔ b.toNat / 4 = a.toNat / 4 := by
    rw [BitVec.toNat_inj.symm, wordOf_toNat, wordOf_toNat]
  have hlt := a.isLt
  rw [pow_add] at hlt
  rw [hword]
  rcases Nat.lt_or_ge b.toNat a.toNat with hab | hab
  · have hsub : (b - a).toNat = 2 ^ m * 2 ^ 2 - a.toNat + b.toNat := by
      rw [BitVec.toNat_sub, pow_add, Nat.mod_eq_of_lt]
      omega
    rw [hsub]
    rcases o.size_cases with h | h | h <;> rw [h] at ha ⊢ <;> omega
  · rw [BitVec.toNat_sub_of_le (BitVec.le_def.mpr hab)]
    rcases o.size_cases with h | h | h <;> rw [h] at ha ⊢ <;> omega

/-- The word of an address has four bytes. -/
lemma exists_byte (a : BitVec (m + 2)) : ∀ k < 4, ∃ b : BitVec (m + 2),
    b.extractLsb' 2 m = a.extractLsb' 2 m ∧ b.toNat % 4 = k := by
  intro k hk
  have hlt := a.isLt
  have hb : (BitVec.ofNat (m + 2) (a.toNat / 4 * 4 + k)).toNat = a.toNat / 4 * 4 + k := by
    rw [BitVec.toNat_ofNat, Nat.mod_eq_of_lt]
    rw [pow_add] at hlt ⊢
    omega
  refine ⟨BitVec.ofNat (m + 2) (a.toNat / 4 * 4 + k), ?_, by omega⟩
  apply BitVec.eq_of_toNat_eq
  rw [wordOf_toNat, wordOf_toNat, hb]
  omega

/-- **When a store may write the whole register.** -/
theorem StoreOp.update_eq_iff_fits (f : BitVec m → BitVec 32) (a : BitVec (m + 2)) (v : BitVec 32)
    (o : StoreOp) (ha : a.toNat % o.size = 0) :
    bytes (Function.update f (a.extractLsb' 2 m) v) = o.apply (bytes f) a v ↔
      o.Fits (a.toNat % 4) (f (a.extractLsb' 2 m)) v := by
  have hin : ∀ b : BitVec (m + 2), b.extractLsb' 2 m = a.extractLsb' 2 m →
      a.toNat % 4 ≤ b.toNat % 4 → (b - a).toNat = b.toNat % 4 - a.toNat % 4 := by
    intro b hw hp
    have hw' := congrArg BitVec.toNat hw
    rw [wordOf_toNat, wordOf_toNat] at hw'
    rw [BitVec.toNat_sub_of_le (BitVec.le_def.mpr (by omega))]
    omega
  constructor
  · intro h
    have hbyte := exists_byte a
    constructor
    · intro k hk hp hs
      obtain ⟨b, hw, rfl⟩ := hbyte k hk
      have hb := congrFun h b
      rw [bytes, hw, Function.update_self, apply, if_pos ((sub_lt_size_iff ha).mpr ⟨hw, hp, hs⟩),
        hin b hw hp] at hb
      exact hb
    · intro k hk ho
      obtain ⟨b, hw, rfl⟩ := hbyte k hk
      have hb := congrFun h b
      rw [bytes, hw, Function.update_self, apply, if_neg, bytes, hw] at hb
      · exact hb
      · rw [sub_lt_size_iff ha]
        omega
  · intro h
    funext b
    rw [bytes, apply]
    have hb := Nat.mod_lt b.toNat (show 0 < 4 by omega)
    by_cases hw : b.extractLsb' 2 m = a.extractLsb' 2 m
    · rw [hw, Function.update_self]
      split_ifs with hs
      · obtain ⟨-, hp, hs⟩ := (sub_lt_size_iff ha).mp hs
        rw [hin b hw hp]
        exact h.inside _ hb hp hs
      · rw [bytes, hw]
        rw [sub_lt_size_iff ha] at hs
        have hs' := not_and.mp hs hw
        exact h.outside _ hb (by omega)
    · rw [Function.update_of_ne hw, if_neg fun hs => hw ((sub_lt_size_iff ha).mp hs).1, bytes]

end Words

end RiscvSoc.Isa
