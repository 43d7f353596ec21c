import RiscvSoc.Rtl.AxiDmem

/-!
# The requests of the core and the transactions of the bridge

The core holds a request until `dmem_ready`.  The bridge is idle again in that cycle and takes the
request once more, so the transactions match the requests only until the first answer.
-/

namespace RiscvSoc.Rtl

open Sync

/-! ### Requests and transactions -/

/-- What a request of the core asks for. -/
structure DmemReq where
  ren : Bool
  addr : BitVec 32
  wdata : BitVec 32
  deriving DecidableEq

/-- What the bridge puts on a channel of the AXI port. -/
inductive AxiItem
  | ar (addr : BitVec 32)
  | aw (addr : BitVec 32)
  | w (data : BitVec 32)
  deriving DecidableEq

/-- The one transaction of a request: an AR, or an AW and a W. -/
def DmemReq.items (q : DmemReq) : List AxiItem :=
  if q.ren then [.ar (wordAlign q.addr)] else [.aw (wordAlign q.addr), .w q.wdata]

namespace AxiDmem

/-- The request that the core drives. -/
def reqOf (i : AxiDmemIn) : DmemReq := ⟨i.dmemRen, i.dmemAddr, i.dmemWdata⟩

variable (r : AxiDmem) (i : AxiDmemIn)

/-- What goes on a channel at the edge: its valid rises. -/
def puts : List AxiItem :=
  (if !r.arvalid && (r.step i).arvalid then [.ar (r.step i).araddr] else []) ++
    (if !r.awvalid && (r.step i).awvalid then [.aw (r.step i).awaddr] else []) ++
    (if !r.wvalid && (r.step i).wvalid then [.w (r.step i).wdata] else [])

/-- The answer taken in the cycle: the data of an R, or a B. -/
def takes : List (Option (BitVec 32)) :=
  (if r.rready && i.rvalid then [some i.rdata] else []) ++
    (if r.bready && i.bvalid then [none] else [])

end AxiDmem

/-! ### A run of the bridge -/

namespace DmemRun

variable (ins : ℕ → AxiDmemIn)

/-- The bridge in cycle `n`. -/
def bridge (n : ℕ) : AxiDmem := AxiDmem.machine.run ins n

/-- **The handshake of the core**: a request reads or writes, and it is held until the cycle in
which `dmem_ready` is high. -/
structure Handshake : Prop where
  oneKind : ∀ n, (ins n).dmemValid = true → (ins n).dmemWen = !(ins n).dmemRen
  valid : ∀ n, (ins n).dmemValid = true → (bridge ins n).dmemReady = false →
    (ins (n + 1)).dmemValid = true
  req : ∀ n, (ins n).dmemValid = true → (bridge ins n).dmemReady = false →
    AxiDmem.reqOf (ins (n + 1)) = AxiDmem.reqOf (ins n)

/-- A request of the core begins: the one before it is over, or there was none. -/
def begins : ℕ → Bool
  | 0 => (ins 0).dmemValid
  | n + 1 => (ins (n + 1)).dmemValid && (!(ins n).dmemValid || (bridge ins n).dmemReady)

/-- The requests that have begun before cycle `n`, oldest first. -/
def requests : ℕ → List DmemReq
  | 0 => []
  | n + 1 => requests n ++ if begins ins n then [AxiDmem.reqOf (ins n)] else []

/-- What has gone on the channels before cycle `n`, oldest first. -/
def issued : ℕ → List AxiItem
  | 0 => []
  | n + 1 => issued n ++ (bridge ins n).puts (ins n)

/-- The answers that have been taken before cycle `n`, oldest first. -/
def answers : ℕ → List (Option (BitVec 32))
  | 0 => []
  | n + 1 => answers n ++ (bridge ins n).takes (ins n)

/-- How often `dmem_ready` was high before cycle `n`. -/
def pulses : ℕ → ℕ
  | 0 => 0
  | n + 1 => pulses n + if (bridge ins n).dmemReady then 1 else 0

/-- **Each request has its own transaction** in cycle `n`: what has gone on the channels are the
transactions of the requests in their order, each at most once; and the `i`-th `dmem_ready` comes
for the `i`-th request, whose transaction is the last, with its answer. -/
structure OneEach (n : ℕ) : Prop where
  issued : issued ins (n + 1) <+: (requests ins (n + 1)).flatMap DmemReq.items
  whole : (bridge ins n).dmemReady = true →
    DmemRun.issued ins (n + 1) = (requests ins (n + 1)).flatMap DmemReq.items
  request : (bridge ins n).dmemReady = true → (requests ins (n + 1)).length = pulses ins n + 1
  answer : (bridge ins n).dmemReady = true → (answers ins n).length = pulses ins n + 1
  rdata : (bridge ins n).dmemReady = true → (ins n).dmemRen = true →
    (answers ins n).getLast? = some (some (bridge ins n).dmemRdata)

/-! ### The first request -/

/-- The bridge is at work for the request `q`, which the core drives and which has begun before. -/
structure Working (n : ℕ) (q : DmemReq) : Prop where
  valid : (ins n).dmemValid = true
  req : AxiDmem.reqOf (ins n) = q
  ready : (bridge ins n).dmemReady = false
  begins : begins ins n = false
  requests : requests ins n = [q]

/-- The valid and ready pins that the bridge drives. -/
def pins (r : AxiDmem) : Bool × Bool × Bool × Bool × Bool :=
  (r.arvalid, r.rready, r.awvalid, r.wvalid, r.bready)

/-- **Where the bridge is before its first answer**: no request has come, or it is at one of the
five steps of the first one. -/
inductive Phase (n : ℕ) : Prop
  | quiet (state : (bridge ins n).state = .idle)
      (pins : pins (bridge ins n) = (false, false, false, false, false))
      (ready : (bridge ins n).dmemReady = false) (begins : begins ins n = (ins n).dmemValid)
      (requests : requests ins n = []) (issued : issued ins n = [])
  | rAr (q : DmemReq) (work : Working ins n q) (ren : q.ren = true)
      (state : (bridge ins n).state = .rAr)
      (pins : pins (bridge ins n) = (true, false, false, false, false))
      (issued : issued ins n = [.ar (wordAlign q.addr)])
  | rR (q : DmemReq) (work : Working ins n q) (ren : q.ren = true)
      (state : (bridge ins n).state = .rR)
      (pins : pins (bridge ins n) = (false, true, false, false, false))
      (issued : issued ins n = [.ar (wordAlign q.addr)])
  | wAw (q : DmemReq) (work : Working ins n q) (ren : q.ren = false)
      (state : (bridge ins n).state = .wAw)
      (pins : pins (bridge ins n) = (false, false, true, false, false))
      (wdata : (bridge ins n).wdata = q.wdata)
      (issued : issued ins n = [.aw (wordAlign q.addr)])
  | wW (q : DmemReq) (work : Working ins n q) (ren : q.ren = false)
      (state : (bridge ins n).state = .wW)
      (pins : pins (bridge ins n) = (false, false, false, true, false))
      (issued : issued ins n = [.aw (wordAlign q.addr), .w q.wdata])
  | wB (q : DmemReq) (work : Working ins n q) (ren : q.ren = false)
      (state : (bridge ins n).state = .wB)
      (pins : pins (bridge ins n) = (false, false, false, false, true))
      (issued : issued ins n = [.aw (wordAlign q.addr), .w q.wdata])

variable {ins} {n : ℕ} {q : DmemReq}

lemma bridge_succ : bridge ins (n + 1) = (bridge ins n).step (ins n) := rfl

/-- A request that is not answered stays. -/
lemma Handshake.working (h : Handshake ins) (hv : (ins n).dmemValid = true)
    (hready : (bridge ins n).dmemReady = false) (hr : requests ins (n + 1) = [q])
    (hq : AxiDmem.reqOf (ins n) = q) (hready' : (bridge ins (n + 1)).dmemReady = false) :
    Working ins (n + 1) q :=
  ⟨h.valid n hv hready, (h.req n hv hready).trans hq, hready', by simp [begins, hv, hready], hr⟩

lemma Working.requests_succ (w : Working ins n q) : DmemRun.requests ins (n + 1) = [q] := by
  rw [DmemRun.requests, w.begins, w.requests]
  rfl

lemma Working.succ (w : Working ins n q) (h : Handshake ins)
    (hready : (bridge ins (n + 1)).dmemReady = false) : Working ins (n + 1) q :=
  h.working w.valid w.ready w.requests_succ w.req hready

lemma phase_zero : Phase ins 0 := .quiet rfl rfl rfl rfl rfl rfl

/-- The first request goes on its channel. -/
lemma Handshake.step_quiet (h : Handshake ins) (state : (bridge ins n).state = .idle)
    (pins : pins (bridge ins n) = (false, false, false, false, false))
    (ready : (bridge ins n).dmemReady = false) (begins : begins ins n = (ins n).dmemValid)
    (requests : requests ins n = []) (issued : issued ins n = []) : Phase ins (n + 1) := by
  simp only [DmemRun.pins, Prod.mk.injEq] at pins
  obtain ⟨har, hr, haw, hw, hb⟩ := pins
  have hc := AxiDmem.step_of_idle (i := ins n) state
  cases hv : (ins n).dmemValid
  · simp only [AxiDmem.stepIdle, hv, Bool.false_and, Bool.false_eq_true, if_false] at hc
    refine .quiet ?_ ?_ ?_ ?_ ?_ ?_
    · rw [bridge_succ, hc]
      exact state
    · rw [bridge_succ, hc]
      rfl
    · rw [bridge_succ, hc]
    · simp [DmemRun.begins, hv]
    · simp [DmemRun.requests, requests, begins, hv]
    · simp [DmemRun.issued, issued, AxiDmem.puts, hc]
  · have hreq : DmemRun.requests ins (n + 1) = [AxiDmem.reqOf (ins n)] := by
      simp [DmemRun.requests, requests, begins, hv]
    have hwen := h.oneKind n hv
    cases hren : (ins n).dmemRen
    · rw [hren] at hwen
      simp only [AxiDmem.stepIdle, hv, hren, hwen, Bool.and_false, Bool.and_self, Bool.not_false,
        Bool.false_eq_true, if_false, if_true] at hc
      refine .wAw (AxiDmem.reqOf (ins n)) (h.working hv ready hreq rfl ?_) hren ?_ ?_ ?_ ?_
      · rw [bridge_succ, hc]
      · rw [bridge_succ, hc]
      · rw [bridge_succ, hc]
        rfl
      · rw [bridge_succ, hc]
        rfl
      · simp [DmemRun.issued, issued, AxiDmem.puts, hc, haw, AxiDmem.reqOf]
    · simp only [AxiDmem.stepIdle, hv, hren, Bool.and_self, if_true] at hc
      refine .rAr (AxiDmem.reqOf (ins n)) (h.working hv ready hreq rfl ?_) hren ?_ ?_ ?_
      · rw [bridge_succ, hc]
      · rw [bridge_succ, hc]
      · rw [bridge_succ, hc]
        rfl
      · simp [DmemRun.issued, issued, AxiDmem.puts, hc, har, AxiDmem.reqOf]

/-- **One cycle without an answer.** -/
theorem Phase.step (hp : Phase ins n) (h : Handshake ins)
    (hn : (bridge ins n).takes (ins n) = []) : Phase ins (n + 1) := by
  cases hp with
  | quiet state pins ready begins requests issued =>
    exact h.step_quiet state pins ready begins requests issued
  | rAr q work ren state pins issued =>
    have hpins := pins
    simp only [DmemRun.pins, Prod.mk.injEq] at hpins
    obtain ⟨har, hr, haw, hw, hb⟩ := hpins
    cases hg : (ins n).arready
    · have hc := AxiDmem.step_of_offer (.inl ⟨state, hg⟩)
      refine .rAr q (work.succ h ?_) ren ?_ ?_ ?_
      · rw [bridge_succ, hc]
      · rw [bridge_succ, hc]
        exact state
      · rw [bridge_succ, hc]
        exact pins
      · simp [DmemRun.issued, issued, AxiDmem.puts, hc, har, haw, hw]
    · have hc := AxiDmem.step_of_arready state har hg
      refine .rR q (work.succ h ?_) ren ?_ ?_ ?_
      · rw [bridge_succ, hc]
      · rw [bridge_succ, hc]
      · simp [DmemRun.pins, bridge_succ, hc, haw, hw, hb]
      · simp [DmemRun.issued, issued, AxiDmem.puts, hc, haw, hw]
  | rR q work ren state pins issued =>
    have hpins := pins
    simp only [DmemRun.pins, Prod.mk.injEq] at hpins
    obtain ⟨har, hr, haw, hw, hb⟩ := hpins
    have hg : (ins n).rvalid = false := by
      by_contra hg
      simp [AxiDmem.takes, hr, hg] at hn
    have hc := AxiDmem.step_of_no_rvalid state hg
    refine .rR q (work.succ h ?_) ren ?_ ?_ ?_
    · rw [bridge_succ, hc]
    · rw [bridge_succ, hc]
      exact state
    · simp [DmemRun.pins, bridge_succ, hc, har, haw, hw, hb]
    · simp [DmemRun.issued, issued, AxiDmem.puts, hc, har, haw, hw]
  | wAw q work ren state pins wdata issued =>
    have hpins := pins
    simp only [DmemRun.pins, Prod.mk.injEq] at hpins
    obtain ⟨har, hr, haw, hw, hb⟩ := hpins
    cases hg : (ins n).awready
    · have hc := AxiDmem.step_of_offer (.inr (.inl ⟨state, hg⟩))
      refine .wAw q (work.succ h ?_) ren ?_ ?_ ?_ ?_
      · rw [bridge_succ, hc]
      · rw [bridge_succ, hc]
        exact state
      · rw [bridge_succ, hc]
        exact pins
      · rw [bridge_succ, hc]
        exact wdata
      · simp [DmemRun.issued, issued, AxiDmem.puts, hc, har, haw, hw]
    · have hc := AxiDmem.step_of_awready state haw hg
      refine .wW q (work.succ h ?_) ren ?_ ?_ ?_
      · rw [bridge_succ, hc]
      · rw [bridge_succ, hc]
      · simp [DmemRun.pins, bridge_succ, hc, har, hr, hb]
      · simp [DmemRun.issued, issued, AxiDmem.puts, hc, har, hw, wdata]
  | wW q work ren state pins issued =>
    have hpins := pins
    simp only [DmemRun.pins, Prod.mk.injEq] at hpins
    obtain ⟨har, hr, haw, hw, hb⟩ := hpins
    cases hg : (ins n).wready
    · have hc := AxiDmem.step_of_offer (.inr (.inr ⟨state, hg⟩))
      refine .wW q (work.succ h ?_) ren ?_ ?_ ?_
      · rw [bridge_succ, hc]
      · rw [bridge_succ, hc]
        exact state
      · rw [bridge_succ, hc]
        exact pins
      · simp [DmemRun.issued, issued, AxiDmem.puts, hc, har, haw, hw]
    · have hc := AxiDmem.step_of_wready state hw hg
      refine .wB q (work.succ h ?_) ren ?_ ?_ ?_
      · rw [bridge_succ, hc]
      · rw [bridge_succ, hc]
      · simp [DmemRun.pins, bridge_succ, hc, har, hr, haw]
      · simp [DmemRun.issued, issued, AxiDmem.puts, hc, har, haw]
  | wB q work ren state pins issued =>
    have hpins := pins
    simp only [DmemRun.pins, Prod.mk.injEq] at hpins
    obtain ⟨har, hr, haw, hw, hb⟩ := hpins
    have hg : (ins n).bvalid = false := by
      by_contra hg
      simp [AxiDmem.takes, hb, hg] at hn
    have hc := AxiDmem.step_of_no_bvalid state hg
    refine .wB q (work.succ h ?_) ren ?_ ?_ ?_
    · rw [bridge_succ, hc]
    · rw [bridge_succ, hc]
      exact state
    · simp [DmemRun.pins, bridge_succ, hc, har, haw, hw, hr]
    · simp [DmemRun.issued, issued, AxiDmem.puts, hc, har, haw, hw]

theorem phase_run (h : Handshake ins) (hn : ∀ k < n, (bridge ins k).takes (ins k) = []) :
    Phase ins n :=
  holds_along phase_zero (fun _ hp ht => hp.step h ht) hn

/-! ### The first answer -/

variable (ins) in
/-- **What the first answer leaves behind**: the bridge is idle while the core still drives the
request. -/
structure Answered (n : ℕ) (q : DmemReq) : Prop where
  state : (bridge ins n).state = .idle
  arvalid : (bridge ins n).arvalid = false
  awvalid : (bridge ins n).awvalid = false
  valid : (ins n).dmemValid = true
  req : AxiDmem.reqOf (ins n) = q
  begins : begins ins n = false
  requests : requests ins n = [q]
  issued : issued ins n = q.items

/-- Only the first request can be answered. -/
lemma Phase.answered (hp : Phase ins n) (h : Handshake ins)
    (ht : (bridge ins n).takes (ins n) ≠ []) : ∃ q, Answered ins (n + 1) q := by
  -- The bridge takes the answer in the last step of a read or of a write.
  have hcase : ∃ q, Working ins n q ∧ issued ins n = q.items ∧
      (((bridge ins n).state = .rR ∧ pins (bridge ins n) = (false, true, false, false, false) ∧
        (ins n).rvalid = true) ∨
      ((bridge ins n).state = .wB ∧ pins (bridge ins n) = (false, false, false, false, true) ∧
        (ins n).bvalid = true)) := by
    cases hp with
    | quiet _ pins | rAr _ _ _ _ pins | wAw _ _ _ _ pins | wW _ _ _ _ pins =>
      simp only [DmemRun.pins, Prod.mk.injEq] at pins
      simp [AxiDmem.takes, pins] at ht
    | rR q work ren state pins issued =>
      refine ⟨q, work, by rw [issued, DmemReq.items, if_pos ren], .inl ⟨state, pins, ?_⟩⟩
      simp only [DmemRun.pins, Prod.mk.injEq] at pins
      simpa [AxiDmem.takes, pins] using ht
    | wB q work ren state pins issued =>
      refine ⟨q, work, by rw [issued, DmemReq.items, if_neg (by simp [ren])],
        .inr ⟨state, pins, ?_⟩⟩
      simp only [DmemRun.pins, Prod.mk.injEq] at pins
      simpa [AxiDmem.takes, pins] using ht
  obtain ⟨q, work, hiss, hc⟩ := hcase
  have hstep : (bridge ins (n + 1)).state = .idle ∧ (bridge ins (n + 1)).arvalid = false ∧
      (bridge ins (n + 1)).awvalid = false ∧ (bridge ins n).puts (ins n) = [] := by
    rcases hc with ⟨state, pins, hg⟩ | ⟨state, pins, hg⟩ <;>
      simp only [DmemRun.pins, Prod.mk.injEq] at pins <;>
      simp [bridge_succ, AxiDmem.puts, AxiDmem.step, state, pins, hg]
  exact ⟨q, hstep.1, hstep.2.1, hstep.2.2.1, h.valid n work.valid work.ready,
    (h.req n work.valid work.ready).trans work.req, by simp [begins, work.valid, work.ready],
    work.requests_succ, by rw [DmemRun.issued, hstep.2.2.2, hiss, List.append_nil]⟩

/-- The request that has been answered goes on its channel a second time. -/
lemma Answered.not_oneEach {q : DmemReq} (ha : Answered ins n q) (h : Handshake ins) :
    ¬ OneEach ins n := by
  intro ho
  have hreq : DmemRun.requests ins (n + 1) = [q] := by
    simp [DmemRun.requests, ha.begins, ha.requests]
  have hputs : 0 < ((bridge ins n).puts (ins n)).length := by
    have hwen := h.oneKind n ha.valid
    cases hren : (ins n).dmemRen
    · rw [hren] at hwen
      simp [AxiDmem.puts, AxiDmem.step, AxiDmem.stepIdle, ha.state, ha.valid, hren, hwen,
        ha.awvalid]
    · simp [AxiDmem.puts, AxiDmem.step, AxiDmem.stepIdle, ha.state, ha.valid, hren, ha.arvalid]
  have hlen := ho.issued.length_le
  rw [DmemRun.issued, ha.issued, hreq, List.length_append, List.flatMap_singleton] at hlen
  omega

/-- Before its first answer the bridge does what it should. -/
lemma Phase.oneEach (hp : Phase ins n) (h : Handshake ins) : OneEach ins n := by
  have hready : (bridge ins n).dmemReady = false := by
    cases hp with
    | quiet _ _ ready => exact ready
    | rAr _ work | rR _ work | wAw _ work | wW _ work | wB _ work => exact work.ready
  have hpre : issued ins (n + 1) <+: (requests ins (n + 1)).flatMap DmemReq.items := by
    by_cases ht : (bridge ins n).takes (ins n) = []
    · cases hp.step h ht with
      | quiet _ _ _ _ _ issued => rw [issued]; exact List.nil_prefix
      | rAr q work ren _ _ issued | rR q work ren _ _ issued =>
        rw [issued, work.requests]
        simp [DmemReq.items, ren]
      | wAw q work ren _ _ _ issued =>
        rw [issued, work.requests]
        simp [DmemReq.items, ren]
      | wW q work ren _ _ issued | wB q work ren _ _ issued =>
        rw [issued, work.requests]
        simp [DmemReq.items, ren]
    · obtain ⟨q, ha⟩ := hp.answered h ht
      have he : issued ins (n + 1) = (requests ins (n + 1)).flatMap DmemReq.items := by
        rw [ha.issued, ha.requests, List.flatMap_singleton]
      exact he ▸ List.prefix_rfl
  refine ⟨hpre, ?_, ?_, ?_, ?_⟩ <;> simp [hready]

/-- **The transactions match the requests until the first answer, and no longer**: the bridge
takes the request that has been answered once more. -/
theorem oneEach_iff_no_answer (h : Handshake ins) :
    (∀ k ≤ n, OneEach ins k) ↔ ∀ k < n, (bridge ins k).takes (ins k) = [] := by
  constructor
  · intro ho k hk
    induction k using Nat.strongRecOn with
    | ind k ih =>
      by_contra ht
      obtain ⟨q, ha⟩ := (phase_run h fun j hj => ih j hj (Nat.lt_trans hj hk)).answered h ht
      exact ha.not_oneEach h (ho (k + 1) hk)
  · intro hn k hk
    exact (phase_run h fun j hj => hn j (Nat.lt_of_lt_of_le hj hk)).oneEach h

/-- A load at 0 that the slave answers at once, and a load at 4 behind it. -/
def twoReads (n : ℕ) : AxiDmemIn where
  dmemValid := true
  dmemRen := true
  dmemWen := false
  dmemAddr := if n ≤ 3 then 0#32 else 4#32
  dmemWdata := 0#32
  awready := true
  wready := true
  bvalid := false
  arready := true
  rdata := 1#32
  rvalid := true

lemma handshake_twoReads : Handshake twoReads where
  oneKind _ _ := rfl
  valid _ _ _ := rfl
  req n _ hr := by
    rcases Nat.lt_trichotomy n 3 with hn | rfl | hn
    · simp [AxiDmem.reqOf, twoReads, show n ≤ 3 by omega, show n + 1 ≤ 3 by omega]
    · revert hr
      decide
    · simp [AxiDmem.reqOf, twoReads, show ¬ n ≤ 3 by omega, show ¬ n + 1 ≤ 3 by omega]

/-- Until it has its answer the first load has one transaction. -/
theorem oneEach_twoReads : OneEach twoReads 2 :=
  (oneEach_iff_no_answer (n := 2) handshake_twoReads).mpr (by decide) 2 (Nat.le_refl 2)

/-- **The answered load is issued again**, and its second answer is the next thing the core
gets. -/
theorem twoReads_reissued : ¬ ∀ ins n, Handshake ins → OneEach ins n := by
  intro h
  have ho := (h twoReads 3 handshake_twoReads).issued
  revert ho
  decide

end DmemRun

end RiscvSoc.Rtl
