import RiscvSoc.Pipeline.ScheduledRefines

/-!
# Traps

A trap is a flush together with an exception or an interrupt.  It drops what is in the front and
in EX and goes on at its target, with the registers and the memory that the instructions before
these have left: it is precise, but for a load that has left EX and not reached its register.
-/

namespace RiscvSoc.Rtl

open Isa Sync

namespace ExtIn

variable (x : ExtIn)

/-- A flush with a new PC. -/
def traps : Bool := x.flush && (x.exception || x.interrupt)

/-- Where a trap leads. -/
def target : BitVec 32 := if x.exception then x.pcException else x.pcInterrupt

end ExtIn

namespace SocBram

variable {image : BitVec 10 → BitVec 32} {s : SocBram} {x : ExtIn} {σ : MemState} {w : ℕ}

variable (image s x) in
/-- What the cycle shows.  A trap drops the instruction in EX, but a JAL in ID still writes its
link. -/
def events : List Event :=
  if x.traps then s.core.jalShown.map .retire ++ [.trap x.target]
  else (s.core.retired (s.coreIn image x)).map .retire

/-! ### The cycle of a trap -/

section Trap

variable (hx : x.traps = true)
include hx

lemma flush_of_traps : (s.coreIn image x).flush = true := by
  simp only [ExtIn.traps, Bool.and_eq_true] at hx
  exact hx.1

variable (image s) in
/-- What a trap leaves of the pipeline. -/
lemma trap_registers : (s.step image x).core.ifId = IfIdReg.bubble ∧
    (s.step image x).core.idEx = IdExReg.bubble ∧
    (s.step image x).core.exWb = ExWbReg.reset ∧ (s.step image x).core.exMem = ExMemReg.reset ∧
    (s.step image x).core.memWb = MemWbReg.reset := by
  have hf : (s.coreIn image x).flush = true := flush_of_traps hx
  have hfd : s.core.flushIfid (s.coreIn image x) = true := by
    simp [Core.flushIfid, HazardIn.flushIfid, Core.hazard, hf]
  have hfx : s.core.flushIdex (s.coreIn image x) = true := by
    simp [Core.flushIdex, HazardIn.flushIdex, Core.hazard, hf]
  refine ⟨?_, ?_, ?_, ?_, ?_⟩
  · simp [step, Core.step, IfIdReg.step, hfd]
  · simp [step, Core.step, IdExReg.step, hfx]
  · simp [step, Core.step, ExWbReg.step, hf]
  · simp [step, Core.step, ExMemReg.step, hf]
  · simp [step, Core.step, MemWbReg.step, hf]

lemma trap_pcReg : (s.step image x).core.pcReg = x.target := by
  have hpc : (s.step image x).core.pcReg = s.core.pcNext (s.coreIn image x) := rfl
  simp only [ExtIn.traps, Bool.and_eq_true, Bool.or_eq_true] at hx
  rw [hpc, Core.pcNext, PcIn.pcNext, ExtIn.target]
  have he : (s.core.pcIn (s.coreIn image x)).exception = x.exception := rfl
  have hi : (s.core.pcIn (s.coreIn image x)).interrupt = x.interrupt := rfl
  rw [he, hi]
  rcases hx.2 with h | h
  · rw [if_pos h, if_pos h]
    rfl
  · rw [h]
    rfl

lemma trap_free : Free (s.step image x) := by
  obtain ⟨-, -, -, hexMem, hmemWb⟩ := trap_registers image s hx
  have hf : (s.core.registerExIn (s.coreIn image x)).flush = true := by
    have hflush : (s.coreIn image x).flush = true := flush_of_traps hx
    simp [Core.registerExIn, hflush]
  have hr : (s.step image x).core.registerEx =
    s.core.registerEx.step (s.core.registerExIn (s.coreIn image x)) := rfl
  refine ⟨?_, ?_, ?_, ?_, ?_, ?_⟩
  · rw [hr, hmemWb]
    simp [RegisterEx.step, RegisterEx.lstateStep, hf, MemWbReg.reset]
  · rw [hr]
    simp [RegisterEx.step, RegisterEx.slockNext, hf]
  · rw [hr]
    simp [RegisterEx.step, hf]
  · rw [hexMem]
    rfl
  · rw [hexMem]
    rfl
  · intro hl
    rw [hmemWb] at hl
    cases hl

/-- The registers after a trap: what was under way to the array has reached it. -/
lemma trap_regView (hR : Runs image w s σ) (hl : s.core.exMem.memReadEn = false) {r : BitVec 5}
    (hr : r ≠ 0#5) : (s.step image x).regView r =
      if s.core.jalLinkWe = true ∧ s.core.id.rd = r then s.core.ifId.idPcPlus4
      else σ.regs r := by
  obtain ⟨-, -, hexWb, hexMem, hmemWb⟩ := trap_registers image s hx
  have hb : s.core.regfile.weBuf = true → s.core.jalLinkWe = false ∧ ¬ s.core.portWrites := by
    intro hw
    cases hR.stage with
    | empty ifId _ _ _ buffered =>
      have hj : s.core.jumpIf = false := by simp [Core.jumpIf, ifId, IfIdReg.bubble]
      exact ⟨Core.jalLinkWe_of_jumpIf hj, buffered hw⟩
    | fetched _ _ _ weBuf => simp [weBuf] at hw
    | asked _ _ _ weBuf => simp [weBuf] at hw
    | served _ _ _ weBuf => simp [weBuf] at hw
    | full _ _ weBuf => simp [weBuf] at hw
  have hheld : (s.step image x).core.regfile.held r =
      if s.core.jalLinkWe = true ∧ s.core.id.rd = r then s.core.ifId.idPcPlus4
      else s.core.settled r := Core.held_step hb hr
  have hview := hR.views.regs r hr
  rw [regView, hl] at hview
  simp only [Bool.false_eq_true, false_and, if_false] at hview
  rw [regView, hexMem, Core.settled_of_not_load (by rw [hmemWb]; rfl), hexWb, hheld, hview]
  simp [ExMemReg.reset, ExWbReg.reset]

/-- The memory after a trap: a store that has left EX has reached it. -/
lemma trap_memView : (s.step image x).memView = s.memView := by
  obtain ⟨-, -, -, hexMem, -⟩ := trap_registers image s hx
  have hword : (s.fetchStep image alwaysReady).dmem.word = s.memView := fetch_word
  rw [memView, hexMem]
  exact hword

/-- **A trap is precise** as long as no load is in EX/MEM: the system goes on at the target with the
registers and the memory of the interpreter, which has executed the JAL in ID if there is one. -/
theorem Runs.trap_step (hS : Scheduled image) (hR : Runs image w s σ)
    (hl : s.core.exMem.memReadEn = false) :
    ∃ k, s.core.jalShown = emitted (MemState.step image) (MemState.shown image) k σ ∧
      Runs image 2 (s.step image x) { (MemState.step image)^[k] σ with pc := x.target } := by
  obtain ⟨hifId, hidEx, hexWb, -, hmemWb⟩ := trap_registers image s hx
  have hport : ¬ (s.step image x).core.portWrites := by
    rintro ⟨-, hw⟩
    simp [Core.regFileIn, Core.wbIn, WbIn.wbWaddrOut, hmemWb, hexWb, MemWbReg.reset,
      ExWbReg.reset] at hw
  have hstage : ∀ τ : MemState, τ.pc = x.target → Stage image (s.step image x) τ 2 := by
    intro τ hτ
    refine .empty hifId ?_ (exIdle_of_bubble hidEx) (trap_free hx) fun _ => hport
    rw [trap_pcReg hx, hτ]
  cases hj : s.core.jumpIf
  · refine ⟨0, by simp [Core.jalShown, hj], ⟨?_, ?_, hR.views.fresh.step _, hR.views.zero⟩,
      hstage _ rfl⟩
    · intro r hr
      rw [trap_regView hx hR hl hr, Core.jalLinkWe_of_jumpIf hj]
      simp
    · rw [trap_memView hx]
      exact hR.views.mem
  · have hfront : FrontAt (instMem image) s.core σ.pc := by
      cases hR.stage with
      | empty ifId => simp [Core.jumpIf, ifId, IfIdReg.bubble] at hj
      | fetched front => exact front
      | asked front => exact front
      | served front => exact front
      | full front _ _ notNop =>
        obtain ⟨k, hk⟩ := hS.decodes (σ.pc + 4#32)
        rw [Core.jumpIf_eq front.ifId hk] at hj
        exact absurd (hS.nop_before hk hj) notNop
    obtain ⟨hshown, -, hmem, hregs⟩ := jal_in_id hS hfront hj
    refine ⟨1, by rw [emitted_one, hshown], ⟨?_, ?_, hR.views.fresh.step _, ?_⟩, hstage _ rfl⟩
    · intro r hr
      rw [trap_regView hx hR hl hr, ← hregs r hr]
      rfl
    · rw [trap_memView hx, hR.views.mem.symm]
      exact hmem
    · exact MemState.step_regs_zero image hR.views.zero

end Trap

/-! ### Runs -/

/-- The system with the instruction image `image` over the data memory `d`, with traps. -/
def trapRun (image : BitVec 10 → BitVec 32) (d : DataMem) (ins : ℕ → ExtIn) (n : ℕ) : SocBram :=
  (machine image d).run ins n

/-- What it shows before cycle `n`. -/
def eventTrace (image : BitVec 10 → BitVec 32) (d : DataMem) (ins : ℕ → ExtIn) (n : ℕ) :
    List Event :=
  (machine image d).history (fun s x => s.events image x) ins n

/-- Whatever traps to `T` come, every access of the interpreter could take a whole word. -/
def AccessesFitTraps (image : BitVec 10 → BitVec 32) (T : BitVec 32 → Prop)
    (mem : BitVec 12 → BitVec 8) : Prop :=
  ∀ l m σ, Interrupted image T (MemState.init mem) l m σ →
    ∀ i, decode (σ.fetch image) = some i → σ.Fits i

/-- **The pins bring traps only**, to addresses in `T` and never while a load is in EX/MEM. -/
structure TrapsOnly (image : BitVec 10 → BitVec 32) (d : DataMem) (T : BitVec 32 → Prop)
    (ins : ℕ → ExtIn) : Prop where
  pins : ∀ n, ins n = .quiet ∨ (ins n).traps = true
  target : ∀ n, (ins n).traps = true → T (ins n).target
  noLoad : ∀ n, (ins n).traps = true → (trapRun image d ins n).core.exMem.memReadEn = false

/-- **Traps are precise.** A scheduled program with traps shows in every cycle what the interpreter
does when it is interrupted at some of its instructions, and goes on from its state. -/
theorem traps_precise (hS : Scheduled image) {d : DataMem} {T : BitVec 32 → Prop}
    (hF : AccessesFitTraps image T (bytes d.word)) {ins : ℕ → ExtIn}
    (hT : TrapsOnly image d T ins) (n : ℕ) :
    ∃ m σ, Interrupted image T (MemState.init (bytes d.word)) (eventTrace image d ins n) m σ ∧
      n ≤ 3 * m + 2 ∧ Agrees (trapRun image d ins n) σ := by
  suffices h : ∃ m w σ, Interrupted image T (MemState.init (bytes d.word))
      (eventTrace image d ins n) m σ ∧ Runs image w (trapRun image d ins n) σ ∧
        n + w ≤ 3 * m + 2 by
    obtain ⟨m, w, σ, hI, hR, hw⟩ := h
    exact ⟨m, σ, hI, by omega, hR.views.agrees⟩
  induction n with
  | zero => exact ⟨0, 2, _, .refl, runs_reset image d, by omega⟩
  | succ n ih =>
    obtain ⟨m, w, σ, hI, hR, hw⟩ := ih
    have htr : eventTrace image d ins (n + 1) = eventTrace image d ins n ++
      (trapRun image d ins n).events image (ins n) := rfl
    have hrun : trapRun image d ins (n + 1) =
      (trapRun image d ins n).step image (ins n) := rfl
    rw [htr, hrun]
    cases hx : (ins n).traps
    · have hq : ins n = .quiet := (hT.pins n).resolve_right (by simp [hx])
      obtain ⟨k, w', hret, hR', hpay⟩ := hR.step hS (f := alwaysReady) nofun (hF _ _ _ hI)
      have hev : (trapRun image d ins n).events image (ins n) =
          (emitted (MemState.step image) (MemState.shown image) k σ).map .retire := by
        rw [events, hx, ← hret, hq]
        rfl
      refine ⟨m + k, w', _, by rw [hev]; exact hI.steps k, by rw [hq]; exact hR', ?_⟩
      have hpay' := hpay.resolve_right fun hc => by cases hc.1
      omega
    · obtain ⟨k, hshown, hR'⟩ := hR.trap_step hx hS (hT.noLoad n hx)
      have hev : (trapRun image d ins n).events image (ins n) =
          (emitted (MemState.step image) (MemState.shown image) k σ).map .retire ++
            [.trap (ins n).target] := by
        rw [events, if_pos hx, hshown]
      refine ⟨m + k + 1, 2, _, ?_, hR', by omega⟩
      rw [hev, ← List.append_assoc]
      exact (hI.steps k).trap (hT.target n hx)

/-- A trap to address 0 in cycle 8, when the store of the counter is in EX. -/
def trapAtEight : ℕ → ExtIn :=
  fun n => if n = 8 then ⟨false, true, true, 0#32, false, 0#32⟩ else .quiet

/-- The counter, trapped in cycle 8. -/
theorem traps_precise_counter :
    ∃ m σ, Interrupted counter (· = 0#32) (MemState.init (bytes DataMem.zero.word))
      (eventTrace counter .zero trapAtEight 20) m σ ∧
      20 ≤ 3 * m + 2 ∧ Agrees (trapRun counter .zero trapAtEight 20) σ := by
  have hcases : ∀ n, (n = 8 ∧ (trapAtEight n).traps = true) ∨ trapAtEight n = .quiet := by
    intro n
    by_cases hn : n = 8
    · exact .inl ⟨hn, by rw [hn]; rfl⟩
    · exact .inr (by simp [trapAtEight, hn])
  have hat : ∀ n, (trapAtEight n).traps = true → n = 8 := by
    intro n ht
    rcases hcases n with ⟨hn, -⟩ | hq
    · exact hn
    · rw [hq] at ht
      cases ht
  refine traps_precise scheduled_counter ?_ ⟨?_, ?_, ?_⟩ 20
  · exact fun _ _ _ hI _ hi => fits_counter (hI.regs_zero rfl) hi
  · exact fun n => (hcases n).symm.imp_right And.right
  · intro n ht
    rw [hat n ht]
    rfl
  · intro n ht
    rw [hat n ht]
    decide +kernel

end SocBram

end RiscvSoc.Rtl
