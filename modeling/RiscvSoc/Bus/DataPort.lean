import Mathlib.Logic.Function.Basic
import RiscvSoc.Bus.DmemBridge
import RiscvSoc.Rtl.CacheInst

/-!
# A memory behind the data port

`axi_if_dmem_master` with a memory as its slave, which takes part in the handshakes whenever it
likes.  The bridge takes a request again in the cycle in which it answers it.  The second write
changes nothing, but the answer of the second transaction is given to the next request.
-/

namespace RiscvSoc.Rtl

open Sync

/-! ### The memory of the requests -/

/-- A memory of words. -/
abbrev WordMem := BitVec 30 → BitVec 32

/-- The memory after a request; the bridge writes whole words. -/
def DmemReq.store (m : WordMem) (q : DmemReq) : WordMem :=
  if q.ren then m else Function.update m (wordIndex q.addr) q.wdata

/-- The memory after the requests of a list. -/
def storeAll (m : WordMem) (qs : List DmemReq) : WordMem := qs.foldl DmemReq.store m

lemma storeAll_append (m : WordMem) (qs : List DmemReq) (q : DmemReq) :
    storeAll m (qs ++ [q]) = q.store (storeAll m qs) := by
  rw [storeAll, List.foldl_append]
  rfl

lemma DmemReq.store_of_ren {q : DmemReq} (h : q.ren = true) (m : WordMem) : q.store m = m :=
  if_pos h

/-- A request that is done again changes nothing. -/
lemma DmemReq.store_store (m : WordMem) (q : DmemReq) : q.store (q.store m) = q.store m := by
  unfold store
  split_ifs
  · rfl
  · exact Function.update_idem _ _ _

lemma wordIndex_wordAlign (a : BitVec 32) : wordIndex (wordAlign a) = wordIndex a := by
  rw [wordIndex, wordAlign, BitVec.extractLsb'_append_eq_left]
  rfl

/-! ### The circuit -/

/-- The data pins of the core. -/
structure DmemPins where
  valid : Bool
  ren : Bool
  wen : Bool
  addr : BitVec 32
  wdata : BitVec 32

def DmemPins.req (i : DmemPins) : DmemReq := ⟨i.ren, i.addr, i.wdata⟩

/-- The slave: the addresses of the reads to answer and of the writes to come, and the number of the
writes to acknowledge. -/
structure DataSlave where
  mem : WordMem
  reads : List (BitVec 32)
  writes : List (BitVec 32)
  acks : ℕ

/-- When the slave takes part in a handshake. -/
structure SlavePace where
  awready : Bool
  wready : Bool
  arready : Bool
  answer : Bool

/-- The bridge and its slave. -/
structure DataPort where
  bridge : AxiDmem
  slave : DataSlave

namespace DataPort

variable (s : DataPort) (i : DmemPins) (p : SlavePace)

def bridgeIn : AxiDmemIn where
  dmemValid := i.valid
  dmemRen := i.ren
  dmemWen := i.wen
  dmemAddr := i.addr
  dmemWdata := i.wdata
  awready := p.awready
  wready := p.wready
  bvalid := p.answer && decide (0 < s.slave.acks)
  arready := p.arready
  rdata := s.slave.mem (wordIndex (s.slave.reads.headD 0#32))
  rvalid := p.answer && !s.slave.reads.isEmpty

/-- A write address, a word to write, or a read address is handed over. -/
def givesAw : Bool := s.bridge.awvalid && p.awready
def givesW : Bool := s.bridge.wvalid && p.wready
def givesAr : Bool := s.bridge.arvalid && p.arready

/-- An answer is taken. -/
def takesR : Bool := s.bridge.rready && (s.bridgeIn i p).rvalid
def takesB : Bool := s.bridge.bready && (s.bridgeIn i p).bvalid

/-- The slave after a clock edge. -/
def slaveStep : DataSlave where
  mem := if s.givesW p then
      Function.update s.slave.mem (wordIndex (s.slave.writes.headD 0#32)) s.bridge.wdata
    else s.slave.mem
  reads := (if s.takesR i p then s.slave.reads.tail else s.slave.reads) ++
    if s.givesAr p then [s.bridge.araddr] else []
  writes := (if s.givesW p then s.slave.writes.tail else s.slave.writes) ++
    if s.givesAw p then [s.bridge.awaddr] else []
  acks := (if s.takesB i p then s.slave.acks - 1 else s.slave.acks) + if s.givesW p then 1 else 0

/-- The bridge and its slave after a clock edge. -/
def step : DataPort where
  bridge := s.bridge.step (s.bridgeIn i p)
  slave := s.slaveStep i p

/-- The port from reset, over the memory `m`. -/
def reset (m : WordMem) : DataPort := ⟨AxiDmem.reset, ⟨m, [], [], 0⟩⟩

/-- The memory once the write under way is done. -/
def view : WordMem :=
  if s.bridge.state = .wAw ∨ s.bridge.state = .wW then
    Function.update s.slave.mem (wordIndex s.bridge.awaddr) s.bridge.wdata
  else s.slave.mem

/-! ### One transaction -/

/-- The slave owes nothing, over the memory `m`. -/
def quiet (m : WordMem) : DataSlave := ⟨m, [], [], 0⟩

/-- **The bridge is free**, over the memory `m`. -/
structure Free (m : WordMem) (s : DataPort) : Prop where
  state : s.bridge.state = .idle
  pins : DmemRun.pins s.bridge = (false, false, false, false, false)
  slave : s.slave = quiet m

/-- **The bridge is at work for the request `t`**, which leads to the memory `m`, or answers it. -/
inductive Transacts (m : WordMem) (t : DmemReq) (s : DataPort) : Prop
  | rAr (ren : t.ren = true) (state : s.bridge.state = .rAr)
      (pins : DmemRun.pins s.bridge = (true, false, false, false, false))
      (addr : s.bridge.araddr = wordAlign t.addr) (ready : s.bridge.dmemReady = false)
      (slave : s.slave = quiet m)
  | rR (ren : t.ren = true) (state : s.bridge.state = .rR)
      (pins : DmemRun.pins s.bridge = (false, true, false, false, false))
      (ready : s.bridge.dmemReady = false)
      (slave : s.slave = { quiet m with reads := [wordAlign t.addr] })
  | wAw (m' : WordMem) (hm : t.store m' = m) (ren : t.ren = false)
      (state : s.bridge.state = .wAw)
      (pins : DmemRun.pins s.bridge = (false, false, true, false, false))
      (addr : s.bridge.awaddr = wordAlign t.addr) (wdata : s.bridge.wdata = t.wdata)
      (ready : s.bridge.dmemReady = false) (slave : s.slave = quiet m')
  | wW (m' : WordMem) (hm : t.store m' = m) (ren : t.ren = false) (state : s.bridge.state = .wW)
      (pins : DmemRun.pins s.bridge = (false, false, false, true, false))
      (addr : s.bridge.awaddr = wordAlign t.addr) (wdata : s.bridge.wdata = t.wdata)
      (ready : s.bridge.dmemReady = false)
      (slave : s.slave = { quiet m' with writes := [wordAlign t.addr] })
  | wB (ren : t.ren = false) (state : s.bridge.state = .wB)
      (pins : DmemRun.pins s.bridge = (false, false, false, false, true))
      (ready : s.bridge.dmemReady = false) (slave : s.slave = { quiet m with acks := 1 })
  | done (free : Free m s) (ready : s.bridge.dmemReady = true)
      (rdata : t.ren = true → s.bridge.dmemRdata = m (wordIndex t.addr))

variable {s i p} {m : WordMem} {t : DmemReq}

lemma Free.view (h : Free m s) : s.view = m := by
  rw [DataPort.view, if_neg (by simp [h.state]), h.slave]
  rfl

lemma Transacts.view (h : Transacts m t s) : s.view = m := by
  unfold DataPort.view
  cases h with
  | rAr _ state _ _ _ slave | rR _ state _ _ slave | wB _ state _ _ slave =>
    rw [if_neg (by simp [state]), slave]
    rfl
  | wAw m' hm ren state _ addr wdata _ slave | wW m' hm ren state _ addr wdata _ slave =>
    rw [if_pos (by simp [state]), addr, wdata, wordIndex_wordAlign, slave, ← hm, DmemReq.store,
      if_neg (by simp [ren])]
    rfl
  | done free => exact free.view

/-- An answer comes when the bridge is free again. -/
lemma Transacts.of_ready (h : Transacts m t s) (hr : s.bridge.dmemReady = true) :
    Free m s ∧ (t.ren = true → s.bridge.dmemRdata = m (wordIndex t.addr)) := by
  cases h with
  | done free _ rdata => exact ⟨free, rdata⟩
  | rAr _ _ _ _ ready | rR _ _ _ ready | wAw _ _ _ _ _ _ _ ready | wW _ _ _ _ _ _ _ ready
  | wB _ _ _ ready => simp [ready] at hr

lemma Transacts.ready_of_idle (h : Transacts m t s) (hs : s.bridge.state = .idle) :
    s.bridge.dmemReady = true := by
  cases h with
  | done _ ready => exact ready
  | rAr _ state | rR _ state | wAw _ _ _ state | wW _ _ _ state | wB _ state => simp [state] at hs

/-! ### One cycle -/

/-- The slave after an edge, by the pins of the bridge. -/
lemma slave_step {ar r aw w b : Bool} (h : DmemRun.pins s.bridge = (ar, r, aw, w, b)) :
    (s.step i p).slave = {
      mem := if w && p.wready then
          Function.update s.slave.mem (wordIndex (s.slave.writes.headD 0#32)) s.bridge.wdata
        else s.slave.mem
      reads := (if r && (s.bridgeIn i p).rvalid then s.slave.reads.tail else s.slave.reads) ++
        if ar && p.arready then [s.bridge.araddr] else []
      writes := (if w && p.wready then s.slave.writes.tail else s.slave.writes) ++
        if aw && p.awready then [s.bridge.awaddr] else []
      acks := (if b && (s.bridgeIn i p).bvalid then s.slave.acks - 1 else s.slave.acks) +
        if w && p.wready then 1 else 0 } := by
  simp only [DmemRun.pins, Prod.mk.injEq] at h
  obtain ⟨rfl, rfl, rfl, rfl, rfl⟩ := h
  rfl

/-- A free bridge leaves the slave as it is. -/
lemma Free.slave_step (h : Free m s) : (s.step i p).slave = quiet m := by
  simp [DataPort.slave_step h.pins, h.slave, quiet]

/-- A free bridge that is asked for nothing. -/
lemma Free.step_rest (h : Free m s) (hv : i.valid = false) :
    Free m (s.step i p) ∧ (s.step i p).bridge.dmemReady = false := by
  have hc : (s.step i p).bridge = _ := AxiDmem.step_of_no_req (i := s.bridgeIn i p) h.state hv
  refine ⟨⟨?_, ?_, h.slave_step⟩, ?_⟩
  · rw [hc]
    exact h.state
  · rw [hc]
    rfl
  · rw [hc]

/-- **A free bridge takes a request**, whatever it answers. -/
lemma Free.step_take (h : Free m s) (hv : i.valid = true) (hk : i.wen = !i.ren) :
    Transacts (i.req.store m) i.req (s.step i p) := by
  cases hren : i.ren
  · rw [hren] at hk
    have hc : (s.step i p).bridge = _ :=
      AxiDmem.step_of_write (i := s.bridgeIn i p) h.state hv hren hk
    refine .wAw m rfl hren ?_ ?_ ?_ ?_ ?_ h.slave_step <;> rw [hc] <;> rfl
  · have hc : (s.step i p).bridge = _ := AxiDmem.step_of_read (i := s.bridgeIn i p) h.state hv hren
    rw [DmemReq.store_of_ren hren]
    refine .rAr hren ?_ ?_ ?_ ?_ h.slave_step <;> rw [hc] <;> rfl

/-- **One cycle at work**, whatever the core asks for. -/
theorem Transacts.step (h : Transacts m t s) (hs : s.bridge.state ≠ .idle) :
    Transacts m t (s.step i p) := by
  have hb : (s.step i p).bridge = s.bridge.step (s.bridgeIn i p) := rfl
  cases h with
  | rAr ren state pins addr ready slave =>
    have hpins := pins
    simp only [DmemRun.pins, Prod.mk.injEq] at hpins
    obtain ⟨har, hr, haw, hw, hbr⟩ := hpins
    cases hg : p.arready
    · have hc := hb.trans (AxiDmem.step_of_offer (.inl ⟨state, hg⟩))
      refine .rAr ren ?_ ?_ ?_ ?_ ?_
      · rw [hc]; exact state
      · rw [hc]; exact pins
      · rw [hc]; exact addr
      · rw [hc]
      · simp [slave_step pins, hg, slave, quiet]
    · have hc := hb.trans (AxiDmem.step_of_arready state har hg)
      refine .rR ren ?_ ?_ ?_ ?_
      · rw [hc]
      · simp [DmemRun.pins, hc, haw, hw, hbr]
      · rw [hc]
      · simp [slave_step pins, hg, slave, quiet, addr]
  | rR ren state pins ready slave =>
    have hpins := pins
    simp only [DmemRun.pins, Prod.mk.injEq] at hpins
    obtain ⟨har, hr, haw, hw, hbr⟩ := hpins
    cases hg : p.answer
    · have hv : (s.bridgeIn i p).rvalid = false := by simp [bridgeIn, hg]
      have hc := hb.trans (AxiDmem.step_of_no_rvalid state hv)
      refine .rR ren ?_ ?_ ?_ ?_
      · rw [hc]; exact state
      · simp [DmemRun.pins, hc, har, haw, hw, hbr]
      · rw [hc]
      · simp [slave_step pins, hv, slave, quiet]
    · have hv : (s.bridgeIn i p).rvalid = true := by simp [bridgeIn, hg, slave]
      have hc := hb.trans (AxiDmem.step_of_rvalid state hr hv)
      refine .done ⟨?_, ?_, ?_⟩ ?_ ?_
      · rw [hc]
      · simp [DmemRun.pins, hc, har, haw, hw, hbr]
      · simp [slave_step pins, hv, slave, quiet]
      · rw [hc]
      · rw [hc]
        simp [bridgeIn, slave, quiet, wordIndex_wordAlign]
  | wAw m' hm ren state pins addr wdata ready slave =>
    have hpins := pins
    simp only [DmemRun.pins, Prod.mk.injEq] at hpins
    obtain ⟨har, hr, haw, hw, hbr⟩ := hpins
    cases hg : p.awready
    · have hc := hb.trans (AxiDmem.step_of_offer (.inr (.inl ⟨state, hg⟩)))
      refine .wAw m' hm ren ?_ ?_ ?_ ?_ ?_ ?_
      · rw [hc]; exact state
      · rw [hc]; exact pins
      · rw [hc]; exact addr
      · rw [hc]; exact wdata
      · rw [hc]
      · simp [slave_step pins, hg, slave, quiet]
    · have hc := hb.trans (AxiDmem.step_of_awready state haw hg)
      refine .wW m' hm ren ?_ ?_ ?_ ?_ ?_ ?_
      · rw [hc]
      · simp [DmemRun.pins, hc, har, hr, hbr]
      · rw [hc]; exact addr
      · rw [hc]; exact wdata
      · rw [hc]
      · simp [slave_step pins, hg, slave, quiet, addr]
  | wW m' hm ren state pins addr wdata ready slave =>
    have hpins := pins
    simp only [DmemRun.pins, Prod.mk.injEq] at hpins
    obtain ⟨har, hr, haw, hw, hbr⟩ := hpins
    cases hg : p.wready
    · have hc := hb.trans (AxiDmem.step_of_offer (.inr (.inr ⟨state, hg⟩)))
      refine .wW m' hm ren ?_ ?_ ?_ ?_ ?_ ?_
      · rw [hc]; exact state
      · rw [hc]; exact pins
      · rw [hc]; exact addr
      · rw [hc]; exact wdata
      · rw [hc]
      · simp [slave_step pins, hg, slave, quiet]
    · have hc := hb.trans (AxiDmem.step_of_wready state hw hg)
      refine .wB ren ?_ ?_ ?_ ?_
      · rw [hc]
      · simp [DmemRun.pins, hc, har, hr, haw]
      · rw [hc]
      · rw [← hm, DmemReq.store, if_neg (by simp [ren])]
        simp [slave_step pins, hg, slave, quiet, wdata, wordIndex_wordAlign]
  | wB ren state pins ready slave =>
    have hpins := pins
    simp only [DmemRun.pins, Prod.mk.injEq] at hpins
    obtain ⟨har, hr, haw, hw, hbr⟩ := hpins
    cases hg : p.answer
    · have hv : (s.bridgeIn i p).bvalid = false := by simp [bridgeIn, hg]
      have hc := hb.trans (AxiDmem.step_of_no_bvalid state hv)
      refine .wB ren ?_ ?_ ?_ ?_
      · rw [hc]; exact state
      · simp [DmemRun.pins, hc, har, haw, hw, hr]
      · rw [hc]
      · simp [slave_step pins, hv, slave, quiet]
    · have hv : (s.bridgeIn i p).bvalid = true := by simp [bridgeIn, hg, slave]
      have hc := hb.trans (AxiDmem.step_of_bvalid state hbr hv)
      refine .done ⟨?_, ?_, ?_⟩ ?_ ?_
      · rw [hc]
      · simp [DmemRun.pins, hc, har, haw, hw, hr]
      · simp [slave_step pins, hv, slave, quiet]
      · rw [hc]
      · intro hx
        rw [ren] at hx
        cases hx
  | done free => exact absurd free.state hs

/-! ### The channels -/

variable (s) in
/-- The word that has yet to follow its address. -/
def dueWord : List AxiItem := if s.bridge.state = .wAw then [.w s.bridge.wdata] else []

/-- A free bridge puts what it takes on its channels. -/
lemma Free.puts (h : Free m s) (hk : i.valid = true → i.wen = !i.ren) :
    s.bridge.puts (s.bridgeIn i p) ++ (s.step i p).dueWord =
      if i.valid then i.req.items else [] := by
  have hb : (s.step i p).bridge = s.bridge.step (s.bridgeIn i p) := rfl
  have hp := h.pins
  simp only [DmemRun.pins, Prod.mk.injEq] at hp
  obtain ⟨har, -, haw, hw, -⟩ := hp
  unfold dueWord
  rw [hb, AxiDmem.puts, har, haw, hw]
  cases hv : i.valid
  · rw [AxiDmem.step_of_no_req (i := s.bridgeIn i p) h.state hv]
    simp [h.state]
  · have hwen := hk hv
    cases hren : i.ren
    · rw [hren] at hwen
      rw [AxiDmem.step_of_write (i := s.bridgeIn i p) h.state hv hren hwen]
      simp [DmemReq.items, DmemPins.req, bridgeIn, hren]
    · rw [AxiDmem.step_of_read (i := s.bridgeIn i p) h.state hv hren]
      simp [DmemReq.items, DmemPins.req, bridgeIn, hren]

/-- A bridge at work puts no more on its channels than the word that is due. -/
lemma Transacts.puts (h : Transacts m t s) (hs : s.bridge.state ≠ .idle) :
    s.bridge.puts (s.bridgeIn i p) ++ (s.step i p).dueWord = s.dueWord := by
  have hb : (s.step i p).bridge = s.bridge.step (s.bridgeIn i p) := rfl
  unfold dueWord
  rw [hb, AxiDmem.puts]
  cases h with
  | rAr _ state pins =>
    simp only [DmemRun.pins, Prod.mk.injEq] at pins
    cases hg : p.arready <;> simp [AxiDmem.step, state, pins, bridgeIn, hg]
  | rR _ state pins =>
    simp only [DmemRun.pins, Prod.mk.injEq] at pins
    cases hg : (s.bridgeIn i p).rvalid <;> simp [AxiDmem.step, state, pins, hg]
  | wAw _ _ _ state pins =>
    simp only [DmemRun.pins, Prod.mk.injEq] at pins
    cases hg : p.awready <;> simp [AxiDmem.step, state, pins, bridgeIn, hg]
  | wW _ _ _ state pins =>
    simp only [DmemRun.pins, Prod.mk.injEq] at pins
    cases hg : p.wready <;> simp [AxiDmem.step, state, pins, bridgeIn, hg]
  | wB _ state pins =>
    simp only [DmemRun.pins, Prod.mk.injEq] at pins
    cases hg : (s.bridgeIn i p).bvalid <;> simp [AxiDmem.step, state, pins, hg]
  | done free => exact absurd free.state hs

/-! ### The requests -/

/-- **Where the port is** after the requests `qs` have been answered, over the memory `m` of the
start: it is free, or at work for the request `i` of the cycle, or once more for the last one
answered.  The flag tells whether it has taken the request of the cycle. -/
inductive Phase (m : WordMem) (qs : List DmemReq) (i : DmemPins) (s : DataPort) : Bool → Prop
  | rest (free : Free (storeAll m qs) s) (ready : s.bridge.dmemReady = false) : Phase m qs i s false
  | own (valid : i.valid = true) (work : Transacts (i.req.store (storeAll m qs)) i.req s) :
      Phase m qs i s true
  | again (t : DmemReq) (last : qs.getLast? = some t) (work : Transacts (storeAll m qs) t s) :
      Phase m qs i s false

variable {qs : List DmemReq} {j : DmemPins} {own leaves : Bool}

/-- **One cycle of the port.**  The core keeps its request until it `leaves`, and it leaves with an
answer. -/
theorem Phase.step (h : Phase m qs i s own) (hk : i.valid = true → i.wen = !i.ren)
    (hleave : leaves = true → i.valid = true ∧ s.bridge.dmemReady = true)
    (hstay : i.valid = true → leaves = false → j.valid = true ∧ j.req = i.req) :
    Phase m (qs ++ if leaves then [i.req] else []) j (s.step i p)
      (if s.bridge.state = .idle then i.valid && !leaves else own) := by
  cases h with
  | rest free ready =>
    have hl : leaves = false := by
      by_contra hl
      have := (hleave (by simpa using hl)).2
      simp [ready] at this
    rw [hl, if_pos free.state]
    cases hv : i.valid
    · obtain ⟨hfree, hready⟩ := free.step_rest (p := p) hv
      simpa using Phase.rest hfree hready
    · obtain ⟨hv', hq'⟩ := hstay hv hl
      have hwork := free.step_take (p := p) hv (hk hv)
      rw [← hq'] at hwork
      simpa using Phase.own hv' hwork
  | own valid work =>
    by_cases hs : s.bridge.state = .idle
    · -- The answer: the bridge takes the request once more.
      rw [if_pos hs, valid]
      obtain ⟨free, -⟩ := work.of_ready (work.ready_of_idle hs)
      have htake := free.step_take (p := p) valid (hk valid)
      rw [DmemReq.store_store] at htake
      cases hl : leaves
      · obtain ⟨hv', hq'⟩ := hstay valid hl
        rw [← hq'] at htake
        simpa using Phase.own hv' htake
      · rw [← storeAll_append] at htake
        simpa using Phase.again i.req (by simp) htake
    · rw [if_neg hs]
      have hl : leaves = false := by
        by_contra hl
        exact hs (work.of_ready (hleave (by simpa using hl)).2).1.state
      obtain ⟨hv', hq'⟩ := hstay valid hl
      have hwork := work.step (i := i) (p := p) hs
      rw [← hq'] at hwork
      simpa [hl] using Phase.own hv' hwork
  | again t last work =>
    by_cases hs : s.bridge.state = .idle
    · rw [if_pos hs]
      obtain ⟨free, -⟩ := work.of_ready (work.ready_of_idle hs)
      cases hv : i.valid
      · have hl : leaves = false := by
          by_contra hl
          have := (hleave (by simpa using hl)).1
          simp [hv] at this
        obtain ⟨hfree, hready⟩ := free.step_rest (p := p) hv
        simpa [hl] using Phase.rest hfree hready
      · have htake := free.step_take (p := p) hv (hk hv)
        cases hl : leaves
        · obtain ⟨hv', hq'⟩ := hstay hv hl
          rw [← hq'] at htake
          simpa using Phase.own hv' htake
        · rw [← storeAll_append] at htake
          simpa using Phase.again i.req (by simp) htake
    · rw [if_neg hs]
      have hl : leaves = false := by
        by_contra hl
        exact hs (work.of_ready (hleave (by simpa using hl)).2).1.state
      simpa [hl] using Phase.again t last (work.step hs)

/-- The bridge is free exactly in its state `S_IDLE`. -/
lemma Phase.free (h : Phase m qs i s own) (hs : s.bridge.state = .idle) : ∃ m', Free m' s := by
  cases h with
  | rest free => exact ⟨_, free⟩
  | own _ work | again _ _ work => exact ⟨_, (work.of_ready (work.ready_of_idle hs)).1⟩

lemma Phase.transacts (h : Phase m qs i s own) (hs : s.bridge.state ≠ .idle) :
    ∃ m' t, Transacts m' t s := by
  cases h with
  | rest free => exact absurd free.state hs
  | own _ work | again _ _ work => exact ⟨_, _, work⟩

/-- An answer comes when the bridge is free. -/
lemma Phase.idle_of_ready (h : Phase m qs i s own) (hr : s.bridge.dmemReady = true) :
    s.bridge.state = .idle := by
  cases h with
  | rest free => exact free.state
  | own _ work | again _ _ work => exact (work.of_ready hr).1.state

/-- The memory, once the write under way is done. -/
lemma Phase.view (h : Phase m qs i s own) :
    s.view = storeAll m (qs ++ if own then [i.req] else []) := by
  cases h with
  | rest free => simpa using free.view
  | own _ work => simpa [storeAll_append] using work.view
  | again _ _ work => simpa using work.view

/-- A load that is answered by its own transaction gets the word at its address. -/
lemma Phase.rdata_own (h : Phase m qs i s true) (hr : s.bridge.dmemReady = true)
    (hl : i.ren = true) : s.bridge.dmemRdata = storeAll m qs (wordIndex i.addr) := by
  cases h with
  | own _ work =>
    rw [(work.of_ready hr).2 hl, DmemReq.store_of_ren hl]
    rfl

/-- Any other answer is for the request before. -/
lemma Phase.rdata_again (h : Phase m qs i s false) (hr : s.bridge.dmemReady = true) :
    ∃ t, qs.getLast? = some t ∧
      (t.ren = true → s.bridge.dmemRdata = storeAll m qs (wordIndex t.addr)) := by
  cases h with
  | rest _ ready =>
    rw [ready] at hr
    cases hr
  | again t last work => exact ⟨t, last, (work.of_ready hr).2⟩

/-! ### The runs -/

/-- The port over the memory `m`, with the pins of the core and the pace of the slave as its
inputs. -/
def machine (m : WordMem) : Machine (DmemPins × SlavePace) DataPort where
  init := reset m
  next s x := s.step x.1 x.2

end DataPort

namespace PortRun

section Observers

variable (m : WordMem) (ins : ℕ → DmemPins × SlavePace)

/-- The port in cycle `n`. -/
def port (n : ℕ) : DataPort := (DataPort.machine m).run ins n

/-- **The handshake of the core**: a request reads or writes, and it is held until the cycle in
which `dmem_ready` is high. -/
structure Handshake : Prop where
  oneKind : ∀ n, (ins n).1.valid = true → (ins n).1.wen = !(ins n).1.ren
  hold : ∀ n, (ins n).1.valid = true → (port m ins n).bridge.dmemReady = false →
    (ins (n + 1)).1.valid = true ∧ (ins (n + 1)).1.req = (ins n).1.req

/-- The request of the cycle is answered. -/
def answers (n : ℕ) : Bool := (ins n).1.valid && (port m ins n).bridge.dmemReady

/-- The bridge has taken the request of the cycle before: it was idle and gave no answer when the
request came. -/
def own : ℕ → Bool
  | 0 => false
  | n + 1 => if (port m ins n).bridge.state = .idle then (ins n).1.valid && !answers m ins n
    else own n

/-- The requests answered before cycle `n`, oldest first, and whether the bridge had taken them
before. -/
def answered : ℕ → List (DmemReq × Bool)
  | 0 => []
  | n + 1 => answered n ++ if answers m ins n then [((ins n).1.req, own m ins n)] else []

/-- What has gone on the channels before cycle `n`, oldest first. -/
def issued : ℕ → List AxiItem
  | 0 => []
  | n + 1 => issued n ++ (port m ins n).bridge.puts ((port m ins n).bridgeIn (ins n).1 (ins n).2)

/-- The requests that the bridge has taken before cycle `n`: each one that is answered in the cycle
of its answer, and before that already if the bridge was idle and gave no answer when it came. -/
def taken (n : ℕ) : List DmemReq :=
  (answered m ins n).flatMap (fun a => if a.2 then [a.1, a.1] else [a.1]) ++
    if own m ins n then [(ins n).1.req] else []

/-- **Each request goes on the channels once or twice** in cycle `n`.  The memory is the one after
the requests answered, with the request of the cycle once the bridge has taken it.  The answer is
that of the request itself if the bridge has taken it before, and else that of the one before. -/
structure OnceOrTwice (n : ℕ) : Prop where
  issued : issued m ins n ++ (port m ins n).dueWord = (taken m ins n).flatMap DmemReq.items
  view : (port m ins n).view = storeAll m
    ((answered m ins n).map Prod.fst ++ if own m ins n then [(ins n).1.req] else [])
  loads : answers m ins n = true → own m ins n = true → (ins n).1.ren = true →
    (port m ins n).bridge.dmemRdata =
      storeAll m ((answered m ins n).map Prod.fst) (wordIndex (ins n).1.addr)
  late : answers m ins n = true → own m ins n = false →
    ∃ a, (answered m ins n).getLast? = some a ∧ (a.1.ren = true →
      (port m ins n).bridge.dmemRdata =
        storeAll m ((answered m ins n).map Prod.fst) (wordIndex a.1.addr))

end Observers

variable {m : WordMem} {ins : ℕ → DmemPins × SlavePace} {n : ℕ}

lemma phase_run (h : Handshake m ins) (n : ℕ) :
    DataPort.Phase m ((answered m ins n).map Prod.fst) (ins n).1 (port m ins n)
      (own m ins n) := by
  induction n with
  | zero => exact .rest ⟨rfl, rfl, rfl⟩ rfl
  | succ n ih =>
    have hleave : answers m ins n = true →
        (ins n).1.valid = true ∧ (port m ins n).bridge.dmemReady = true := by
      intro ha
      simpa [answers] using ha
    have hport : port m ins (n + 1) = (port m ins n).step (ins n).1 (ins n).2 := rfl
    have hstep := ih.step (p := (ins n).2) (j := (ins (n + 1)).1) (h.oneKind n) hleave
      fun hv ha => h.hold n hv (by simpa [answers, hv] using ha)
    rw [answered, List.map_append, hport]
    cases ha : answers m ins n <;> rw [ha] at hstep
    · simpa [own, ha] using hstep
    · simpa [own, ha] using hstep

/-- **The requests that the bridge takes**: a free bridge takes the one of the cycle. -/
lemma taken_succ (h : Handshake m ins) (n : ℕ) : taken m ins (n + 1) = taken m ins n ++
    if (port m ins n).bridge.state = .idle ∧ (ins n).1.valid = true then [(ins n).1.req]
    else [] := by
  have hph := phase_run h n
  -- A request that the bridge has taken and not answered is still there.
  have hkeep : (ins n).1.valid = true → answers m ins n = false →
      (ins (n + 1)).1.req = (ins n).1.req := by
    intro hv ha
    exact (h.hold n hv (by simpa [answers, hv] using ha)).2
  unfold taken
  rw [answered, own]
  by_cases hs : (port m ins n).bridge.state = .idle
  · simp only [hs, if_true, true_and]
    cases ho : own m ins n <;> rw [ho] at hph
    · cases ha : answers m ins n
      · cases hv : (ins n).1.valid
        · simp
        · simp [hkeep hv ha]
      · have hv : (ins n).1.valid = true := by
          simp only [answers, Bool.and_eq_true] at ha
          exact ha.1
        simp [hv]
    · cases hph with
      | own valid work =>
        have ha : answers m ins n = true := by
          rw [answers, valid, work.ready_of_idle hs]
          rfl
        simp [ha, valid]
  · have ha : answers m ins n = false := by
      by_contra ha
      simp only [answers, Bool.not_eq_false, Bool.and_eq_true] at ha
      exact hs (hph.idle_of_ready ha.2)
    simp only [ha, hs, false_and, if_false, Bool.false_eq_true, List.append_nil]
    cases ho : own m ins n <;> rw [ho] at hph
    · rfl
    · cases hph with
      | own valid => rw [hkeep valid ha]

/-- What goes on the channels are the requests that the bridge takes. -/
lemma issued_run (h : Handshake m ins) (n : ℕ) : issued m ins n ++ (port m ins n).dueWord =
    (taken m ins n).flatMap DmemReq.items := by
  induction n with
  | zero => rfl
  | succ n ih =>
    have hph := phase_run h n
    have hport : port m ins (n + 1) = (port m ins n).step (ins n).1 (ins n).2 := rfl
    rw [issued, hport, List.append_assoc, taken_succ h, List.flatMap_append, ← ih]
    by_cases hs : (port m ins n).bridge.state = .idle
    · obtain ⟨m', hfree⟩ := hph.free hs
      have hdue : (port m ins n).dueWord = [] := by simp [DataPort.dueWord, hs]
      rw [hfree.puts (h.oneKind n), hdue]
      cases hv : (ins n).1.valid <;> simp [hs]
    · obtain ⟨m', t, hwork⟩ := hph.transacts hs
      rw [hwork.puts hs]
      simp [hs]

/-- **The bridge does each request once or twice**, for every sequence of requests, every pace of
the slave and every memory. -/
theorem requests_once_or_twice (h : Handshake m ins) (n : ℕ) : OnceOrTwice m ins n := by
  have hph := phase_run h n
  refine ⟨issued_run h n, hph.view, ?_, ?_⟩
  · intro ha ho hl
    rw [ho] at hph
    simp only [answers, Bool.and_eq_true] at ha
    exact hph.rdata_own ha.2 hl
  · intro ha ho
    rw [ho] at hph
    simp only [answers, Bool.and_eq_true] at ha
    obtain ⟨t, hlast, hdata⟩ := hph.rdata_again ha.2
    rw [List.getLast?_map, Option.map_eq_some_iff] at hlast
    obtain ⟨a, hlast, rfl⟩ := hlast
    exact ⟨a, hlast, hdata⟩

/-- A store at 0 and, right behind it, a load at 4, with a prompt slave. -/
def storeLoad (n : ℕ) : DmemPins × SlavePace :=
  (⟨true, decide (4 < n), !decide (4 < n), if n ≤ 4 then 0#32 else 4#32, 5#32⟩,
    ⟨true, true, true, true⟩)

lemma handshake_storeLoad : Handshake (fun _ => 0#32) storeLoad where
  oneKind _ _ := rfl
  hold n _ hr := by
    refine ⟨rfl, ?_⟩
    rcases Nat.lt_trichotomy n 4 with hn | rfl | hn
    · simp [DmemPins.req, storeLoad, show ¬ 4 < n by omega, show ¬ 4 < n + 1 by omega,
        show n ≤ 4 by omega, show n + 1 ≤ 4 by omega]
    · revert hr
      decide
    · simp [DmemPins.req, storeLoad, hn, show 4 < n + 1 by omega, show ¬ n ≤ 4 by omega,
        show ¬ n + 1 ≤ 4 by omega]

/-- The store goes on the channels twice, and the load gets the second answer. -/
theorem once_or_twice_storeLoad : OnceOrTwice (fun _ => 0#32) storeLoad 9 :=
  requests_once_or_twice handshake_storeLoad 9

end PortRun

end RiscvSoc.Rtl
