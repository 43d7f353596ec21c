import RiscvSoc.Sync.Machine
import Mathlib.Data.Nat.Count

/-!
# Valid/ready channels

A channel between a machine and the other side: each drives one of `valid` and `ready`, the machine
from its registers.  A beat passes in a cycle with both.  The promise of a sender is to leave an
offer as it is until it is taken.
-/

namespace RiscvSoc.Sync

/-- A channel of a machine with inputs `ι` and states `σ`: the wire that the machine drives,
`valid` where it sends and `ready` where it receives, and the wire that it reads. -/
structure Channel (ι σ : Type*) where
  own : σ → Bool
  other : ι → Bool

namespace Channel

variable {ι σ π : Type*} (ch : Channel ι σ) (payload : σ → π) (m : Machine ι σ) (ins : ℕ → ι)

/-- A beat passes in cycle `n`. -/
def fires (n : ℕ) : Bool := ch.own (m.run ins n) && ch.other (ins n)

/-- How many beats have passed before cycle `n`. -/
def beats (n : ℕ) : ℕ := Nat.count (fun k => ch.fires m ins k = true) n

/-- **The promise of the sender**: an offer stays, payload and all, as long as it is not taken. -/
def Kept : Prop :=
  ∀ n k, ch.own (m.run ins n) = true → (∀ j < k, ch.other (ins (n + j)) = false) →
    ch.own (m.run ins (n + k)) = true ∧ payload (m.run ins (n + k)) = payload (m.run ins n)

variable {ch payload m ins} {n : ℕ}

@[simp] lemma beats_zero : ch.beats m ins 0 = 0 := rfl

lemma beats_succ : ch.beats m ins (n + 1) = ch.beats m ins n + (ch.fires m ins n).toNat := by
  rw [beats, Nat.count_succ, beats]
  cases ch.fires m ins n <;> simp

/-- **The rule for the promise**: it is enough that one cycle keeps an offer that is not taken. -/
theorem kept_of_step (h : ∀ n, ch.own (m.run ins n) = true → ch.other (ins n) = false →
    ch.own (m.run ins (n + 1)) = true ∧ payload (m.run ins (n + 1)) = payload (m.run ins n)) :
    ch.Kept payload m ins := by
  intro n k hv hr
  induction k with
  | zero => exact ⟨hv, rfl⟩
  | succ k ih =>
    obtain ⟨hv', hp⟩ := ih fun j hj => hr j (Nat.lt_succ_of_lt hj)
    obtain ⟨hv'', hp'⟩ := h (n + k) hv' (hr k (Nat.lt_succ_self k))
    exact ⟨hv'', hp'.trans hp⟩

end Channel

end RiscvSoc.Sync
