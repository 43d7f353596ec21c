import RiscvSoc.Pipeline.WriteOrder

/-!
# The writes of the results

A result has a number, its place in the log.  An observer follows the numbers down the pipeline and
lists the results that reach the register array.  As long as no result meets a load, the writes to a
register come in the order of their numbers, and every result that has left EX is written.
-/

namespace RiscvSoc.Rtl

open Sync

/-- The numbers of the results under way: of what EX/WB holds, unless it is the address of a load,
and of the loads in EX/MEM and in MEM/WB. -/
structure ResultTags where
  exWb : Option ℕ
  exMem : ℕ
  memWb : ℕ

/-- A result that is written to the register array. -/
structure Commit where
  number : ℕ
  rd : BitVec 5
  value : BitVec 32
  deriving DecidableEq

namespace Core

variable (s : Core) (i : CoreIn)

/-- The numbers after a cycle before which `k` results have left EX. -/
def tagsStep (k : ℕ) (t : ResultTags) : ResultTags where
  exWb := if s.idEx.exIsLoad then none else some k
  exMem := if s.stallBack i then t.exMem else k
  memWb := if s.stallBack i then t.memWb else t.exMem

/-- The number of what is on the write-back port. -/
def portTag (t : ResultTags) : Option ℕ := if s.memWb.wbIsLoad then some t.memWb else t.exWb

/-- The result that reaches the array at the end of the cycle. -/
def commits (t : ResultTags) : List Commit :=
  match s.portTag t with
  | some k => s.regWrites.map fun w => ⟨k, w.1, w.2⟩
  | none => []

/-- An ALU instruction or a JALR that writes `r` is in EX. -/
def ExComputes (r : BitVec 5) : Prop := s.exWritesTo r ∧ s.idEx.exIsLoad = false

variable {s i} {t : ResultTags} {l : RetireLog} {cs : List Commit} {c : Commit} {v : BitVec 32}
  {r : BitVec 5}

/-! ### What is written in a cycle -/

/-- Without JALs the array takes what is on the write-back port. -/
lemma mem_commits (hb : s.regfile.weBuf = false) (hl : s.jalLinkWe = false) :
    c ∈ s.commits t ↔ s.portTag t = some c.number ∧ s.regFileIn.we = true ∧
      s.regFileIn.waddr = c.rd ∧ s.regFileIn.wdata = c.value ∧ c.rd ≠ 0#5 := by
  obtain ⟨k, rd, v⟩ := c
  rw [commits, regWrites_of_noLink hb hl]
  cases ht : s.portTag t with
  | none => simp
  | some j =>
    split_ifs with hw
    · simp only [Bool.and_eq_true, bne_iff_ne] at hw
      simp only [List.map_cons, List.map_nil, List.mem_singleton, Commit.mk.injEq,
        Option.some.injEq]
      constructor
      · rintro ⟨rfl, rfl, rfl⟩
        exact ⟨rfl, hw.1, rfl, rfl, hw.2⟩
      · rintro ⟨rfl, -, rfl, rfl, -⟩
        exact ⟨rfl, rfl, rfl⟩
    · simp only [List.map_nil, List.not_mem_nil, false_iff]
      rintro ⟨-, hwe, rfl, -, h0⟩
      exact hw (by simp [hwe, h0])

lemma mem_commits_of_load (hb : s.regfile.weBuf = false) (hl : s.jalLinkWe = false)
    (h : s.memWb.wbIsLoad = true) : c ∈ s.commits t ↔ t.memWb = c.number ∧
      s.memWb.wbRd = c.rd ∧ s.memWb.wbLoadData = c.value ∧ c.rd ≠ 0#5 := by
  rw [mem_commits hb hl]
  simp [portTag, regFileIn, wbIn, WbIn.wbWeOut, WbIn.wbWaddrOut, WbIn.wbWdataOut, h]

lemma mem_commits_of_not_load (hb : s.regfile.weBuf = false) (hl : s.jalLinkWe = false)
    (h : s.memWb.wbIsLoad = false) : c ∈ s.commits t ↔ t.exWb = some c.number ∧
      s.exWb.wbRegWriteEn = true ∧ s.exWb.wbRd = c.rd ∧ s.exWb.wbResult = c.value ∧
      c.rd ≠ 0#5 := by
  rw [mem_commits hb hl]
  simp [portTag, regFileIn, wbIn, WbIn.wbWeOut, WbIn.wbWaddrOut, WbIn.wbWdataOut, h]

/-! ### What leaves EX -/

/-- An instruction in EX leaves it, or the back is held and it stays. -/
lemma ExComputes.step {M : BitVec 32 → BitVec 32} (hfr : FrontOk M s) (h : s.ExComputes r)
    (hr : r ≠ 0#5) (i : CoreIn) : (s.ResultLeaves i ∧ s.idEx.exRd = r) ∨
      (s.stallBack i = true ∧ s.leavesEx i = false ∧ (s.step i).ExComputes r) := by
  obtain ⟨⟨hwe, rfl⟩, hld⟩ := h
  cases hlv : s.leavesEx i
  · right
    have hv := hfr.valid_of (.inl hr)
    simp only [leavesEx, hv, Bool.true_and, Bool.or_eq_false_iff, Bool.not_eq_false'] at hlv
    have hid : (s.step i).idEx = s.idEx := by simp [Core.step, IdExReg.step, hlv.1, hlv.2]
    exact ⟨hlv.1, rfl, by rw [ExComputes, exWritesTo, hid]; exact ⟨⟨hwe, rfl⟩, hld⟩⟩
  · exact .inl ⟨⟨hlv, hwe, hld, hr⟩, rfl⟩

lemma length_retireStep : (s.retireStep i v l).length = l.length +
    if s.leavesEx i && s.idEx.exRegWriteEn && s.idEx.exRd != 0#5 then 1 else 0 := by
  unfold retireStep retiring
  split_ifs <;> simp [Nat.add_comm]

/-- An entry is of the result or of the load that leaves EX, or it is an older one, which a released
load may resolve. -/
lemma entry_retireStep_cases {k : ℕ} {e : LogEntry (BitVec 5) Bool (BitVec 32)}
    (h : (s.retireStep i v l).entry k = some e) :
    (s.ResultLeaves i ∧ k = l.length ∧ e = ⟨s.idEx.exRd, false, some (s.exIn i).exResult⟩) ∨
    (s.leavesEx i = true ∧ s.idEx.exIsLoad = true ∧ s.idEx.exRd ≠ 0#5 ∧ k = l.length ∧
      e = ⟨s.idEx.exRd, true, none⟩) ∨
    (s.releasesLoad i = true ∧ ∃ e', l.entry k = some e' ∧ e = e'.resolve v) ∨
    (s.releasesLoad i = false ∧ l.entry k = some e) := by
  have hlen : (if s.releasesLoad i then l.resolve v else l).length = l.length := by
    split_ifs <;> simp
  have hold : WriteLog.entry (if s.releasesLoad i then l.resolve v else l) k = some e →
      (s.releasesLoad i = true ∧ ∃ e', l.entry k = some e' ∧ e = e'.resolve v) ∨
      (s.releasesLoad i = false ∧ l.entry k = some e) := by
    intro he
    cases hrel : s.releasesLoad i <;> rw [hrel] at he
    · exact .inr ⟨rfl, he⟩
    · simp only [if_true, WriteLog.entry_resolve, Option.map_eq_some_iff] at he
      obtain ⟨e', he', rfl⟩ := he
      exact .inl ⟨rfl, e', he', rfl⟩
  rw [retireStep, retiring] at h
  by_cases hx : (s.leavesEx i && s.idEx.exRegWriteEn && s.idEx.exRd != 0#5) = true
  · rw [if_pos hx, List.singleton_append, WriteLog.entry_cons, hlen] at h
    simp only [Bool.and_eq_true, bne_iff_ne] at hx
    by_cases hk : k = l.length
    · rw [if_pos hk] at h
      cases hld : s.idEx.exIsLoad <;> rw [hld] at h
      · exact .inl ⟨⟨hx.1.1, hx.1.2, hld, hx.2⟩, hk, (Option.some.inj h).symm⟩
      · exact .inr (.inl ⟨hx.1.1, rfl, hx.2, hk, (Option.some.inj h).symm⟩)
    · rw [if_neg hk] at h
      exact .inr (.inr (hold h))
  · rw [if_neg hx, List.nil_append] at h
    exact .inr (.inr (hold h))

/-- A result that leaves EX is not for the register of the load in EX/MEM. -/
lemma MeetsNoLoad.rd_ne (h : s.MeetsNoLoad i) (hl : s.exMem.memReadEn = true) :
    s.exMem.rd ≠ s.idEx.exRd := by
  cases hs : s.stallBack i
  · exact (h.behindLoad hs hl).1
  · exact (h.duringStall hs).2 hl

/-! ### The order of the writes -/

/-- **The writes so far and what is under way**: a write is of a result that has left EX or of the
one that waits there, and a load that is under way comes after the writes to its register, but for
those of a result that waits behind it in EX. -/
structure Ordered (s : Core) (t : ResultTags) (n : ℕ) (cs : List Commit) : Prop where
  sorted : cs.Pairwise fun a b => a.rd = b.rd → a.number ≤ b.number
  rd : ∀ c ∈ cs, c.rd ≠ 0#5
  number : ∀ c ∈ cs, c.number ≤ n ∧ (c.number = n → s.ExComputes c.rd)
  tags : t.memWb ≤ t.exMem ∧ t.exMem ≤ n
  exMemTag : s.exMem.memReadEn = true → s.exMem.rd ≠ 0#5 → t.exMem < n
  memWbTag : s.memWb.wbIsLoad = true → s.memWb.wbRd ≠ 0#5 → t.memWb < n
  exMem : s.exMem.memReadEn = true → ∀ c ∈ cs, c.rd = s.exMem.rd →
    c.number ≤ t.exMem ∨ s.ExComputes c.rd
  memWb : s.memWb.wbIsLoad = true → ∀ c ∈ cs, c.rd = s.memWb.wbRd → c.number ≤ t.memWb

/-- A released load comes after the writes to its register. -/
lemma Ordered.exMem_of_release {M : BitVec 32 → BitVec 32} (hfr : FrontOk M s)
    (hC : s.ResultLeaves i → s.MeetsNoLoad i) {n : ℕ} (h : s.Ordered t n cs)
    (hs : s.stallBack i = false) (hl : s.exMem.memReadEn = true) (hc : c ∈ cs)
    (hrd : c.rd = s.exMem.rd) : c.number ≤ t.exMem := by
  refine (h.exMem hl c hc hrd).resolve_right fun hx => ?_
  rcases hx.step hfr (h.rd c hc) i with ⟨hres, he⟩ | ⟨hstall, -⟩
  · exact (hC hres).rd_ne hl (by rw [he, hrd])
  · simp [hs] at hstall

section Step

variable {M : BitVec 32 → BitVec 32} (hfr : FrontOk M s) (hf : i.flush = false)

lemma length_le_retireStep : l.length ≤ (s.retireStep i v l).length := by
  rw [length_retireStep]
  omega

/-- A result that waits in EX is the next one. -/
lemma length_retireStep_of_waits (h : s.leavesEx i = false) :
    (s.retireStep i v l).length = l.length := by
  simp [length_retireStep, h]

lemma length_retireStep_of_leaves (hl : s.leavesEx i = true) (hw : s.exWritesTo r)
    (hr : r ≠ 0#5) : (s.retireStep i v l).length = l.length + 1 := by
  obtain ⟨hwe, rfl⟩ := hw
  simp [length_retireStep, hl, hwe, hr]

include hf in
/-- What is written in the next cycle: the load in MEM/WB, or the result that EX has handed on. -/
lemma commit_step_cases (hb : (s.step i).regfile.weBuf = false)
    (hl : (s.step i).jalLinkWe = false) {k : ℕ} (h : c ∈ (s.step i).commits (s.tagsStep i k t)) :
    c.rd ≠ 0#5 ∧
      ((s.step i).memWb.wbIsLoad = true ∧ c.rd = (s.step i).memWb.wbRd ∧
          c.number = (s.tagsStep i k t).memWb ∨
        c.number = k ∧ s.ExComputes c.rd) := by
  cases hw : (s.step i).memWb.wbIsLoad
  · obtain ⟨hk, hwe, hrd, -, h0⟩ := (mem_commits_of_not_load hb hl hw).mp h
    have hexw : (s.step i).exWb = s.exWbIn i := exWb_step hf
    rw [hexw] at hwe hrd
    cases hld : s.idEx.exIsLoad
    · simp only [tagsStep, hld, Bool.false_eq_true, if_false, Option.some.injEq] at hk
      exact ⟨h0, .inr ⟨hk.symm, ⟨hwe, hrd⟩, hld⟩⟩
    · simp [tagsStep, hld] at hk
  · obtain ⟨hk, hrd, -, h0⟩ := (mem_commits_of_load hb hl hw).mp h
    exact ⟨h0, .inl ⟨rfl, hrd.symm, hk.symm⟩⟩

variable (hC : s.ResultLeaves i → s.MeetsNoLoad i) (h : s.Ordered t l.length cs)
include hfr hf hC h

/-- The load that comes to MEM/WB, or stays there, comes after the writes to its register. -/
lemma Ordered.memWb_step (hl : (s.step i).memWb.wbIsLoad = true) (hc : c ∈ cs)
    (hrd : c.rd = (s.step i).memWb.wbRd) : c.number ≤ (s.tagsStep i l.length t).memWb := by
  cases hs : s.stallBack i
  · have hmem : (s.step i).memWb = s.memWbIn i := by rw [Core.memWb_step hf, hs]; rfl
    rw [hmem] at hl hrd
    simp only [tagsStep, hs, Bool.false_eq_true, if_false]
    exact h.exMem_of_release hfr hC hs hl hc hrd
  · have hmem : (s.step i).memWb = s.memWb := by rw [Core.memWb_step hf, hs]; rfl
    rw [hmem] at hl hrd
    simp only [tagsStep, hs, if_true]
    exact h.memWb hl c hc hrd

omit hf h in
/-- What waits in EX behind a load for its register waits on. -/
lemma ExComputes.step_of_load (hl : s.exMem.memReadEn = true) (hx : s.ExComputes s.exMem.rd)
    (h0 : s.exMem.rd ≠ 0#5) : (s.step i).ExComputes s.exMem.rd := by
  rcases hx.step hfr h0 i with ⟨hres, he⟩ | ⟨-, -, hx'⟩
  · exact absurd he.symm ((hC hres).rd_ne hl)
  · exact hx'

omit hf hC h in
/-- What EX computes after a cycle in which no result leaves it. -/
lemma ExComputes.step_of_length (hx : s.ExComputes r) (hr : r ≠ 0#5)
    (hn : (s.retireStep i v l).length = l.length) : (s.step i).ExComputes r := by
  rcases hx.step hfr hr i with ⟨hres, rfl⟩ | ⟨-, -, hx'⟩
  · rw [length_retireStep_of_leaves hres.1 hx.1 hr] at hn
    omega
  · exact hx'

omit hfr hf hC in
lemma Ordered.tags_step : (s.tagsStep i l.length t).memWb ≤ (s.tagsStep i l.length t).exMem ∧
    (s.tagsStep i l.length t).exMem ≤ (s.retireStep i v l).length := by
  obtain ⟨h1, h2⟩ := h.tags
  have hle := length_le_retireStep (s := s) (i := i) (l := l) (v := v)
  cases hs : s.stallBack i <;> simp only [tagsStep, hs, Bool.false_eq_true, if_false, if_true]
  · exact ⟨h2, hle⟩
  · exact ⟨h1, Nat.le_trans h2 hle⟩

omit hC in
lemma Ordered.exMemTag_step (hl : (s.step i).exMem.memReadEn = true)
    (h0 : (s.step i).exMem.rd ≠ 0#5) :
    (s.tagsStep i l.length t).exMem < (s.retireStep i v l).length := by
  cases hs : s.stallBack i
  · have hexm : (s.step i).exMem = s.exMemIn i := by rw [Core.exMem_step hf, hs]; rfl
    rw [hexm] at hl h0
    simp only [exMemIn, ExIn.memReadEn, Bool.and_eq_true] at hl
    have hld : s.idEx.exIsLoad = true := hl.2
    have hlv : s.leavesEx i = true := by
      simp [leavesEx, hfr.valid_of (.inr (.inl hld)), hs]
    rw [length_retireStep_of_leaves hlv ⟨hfr.regWriteEn_of_load hld, rfl⟩ h0]
    simp [tagsStep, hs]
  · have hexm : (s.step i).exMem = s.exMem := by rw [Core.exMem_step hf, hs]; rfl
    rw [hexm] at hl h0
    simp only [tagsStep, hs, if_true]
    exact Nat.lt_of_lt_of_le (h.exMemTag hl h0) length_le_retireStep

omit hfr hC in
lemma Ordered.memWbTag_step (hl : (s.step i).memWb.wbIsLoad = true)
    (h0 : (s.step i).memWb.wbRd ≠ 0#5) :
    (s.tagsStep i l.length t).memWb < (s.retireStep i v l).length := by
  refine Nat.lt_of_lt_of_le ?_ length_le_retireStep
  cases hs : s.stallBack i
  · have hmem : (s.step i).memWb = s.memWbIn i := by rw [Core.memWb_step hf, hs]; rfl
    rw [hmem] at hl h0
    simp only [tagsStep, hs, Bool.false_eq_true, if_false]
    exact h.exMemTag hl h0
  · have hmem : (s.step i).memWb = s.memWb := by rw [Core.memWb_step hf, hs]; rfl
    rw [hmem] at hl h0
    simp only [tagsStep, hs, if_true]
    exact h.memWbTag hl h0

/-- A load that stays in EX/MEM comes after the new writes too, or their result waits behind it. -/
lemma Ordered.exMem_step (hb : (s.step i).regfile.weBuf = false)
    (hl : (s.step i).jalLinkWe = false) (hread : (s.step i).exMem.memReadEn = true) :
    ∀ c ∈ cs ++ (s.step i).commits (s.tagsStep i l.length t), c.rd = (s.step i).exMem.rd →
      c.number ≤ (s.tagsStep i l.length t).exMem ∨ (s.step i).ExComputes c.rd := by
  have hnew := fun c => commit_step_cases (c := c) (t := t) (k := l.length) hf hb hl
  have htags := (h.tags_step (i := i) (v := 0#32)).1
  intro c hc hrd
  cases hs : s.stallBack i
  · -- The load has just left EX, after all the results before it.
    left
    have htag : (s.tagsStep i l.length t).exMem = l.length := by simp [tagsStep, hs]
    rcases List.mem_append.mp hc with hc | hc
    · rw [htag]
      exact (h.number c hc).1
    · rcases (hnew c hc).2 with ⟨-, -, hk⟩ | ⟨hk, -⟩
      · rw [hk]
        exact htags
      · rw [htag, hk]
  · have hexm : (s.step i).exMem = s.exMem := by rw [Core.exMem_step hf, hs]; rfl
    have htag : (s.tagsStep i l.length t).exMem = t.exMem := by simp [tagsStep, hs]
    rw [hexm] at hread hrd
    have hwait : s.ExComputes c.rd → c.rd ≠ 0#5 → (s.step i).ExComputes c.rd := by
      rw [hrd]
      exact ExComputes.step_of_load hfr hC hread
    rcases List.mem_append.mp hc with hc | hc
    · rw [htag]
      exact (h.exMem hread c hc hrd).imp_right fun hx => hwait hx (h.rd c hc)
    · obtain ⟨h0, ⟨-, -, hk⟩ | ⟨-, hx⟩⟩ := hnew c hc
      · left
        rw [hk]
        exact htags
      · exact .inr (hwait hx h0)

/-- **One cycle.** -/
theorem Ordered.step (hb : (s.step i).regfile.weBuf = false) (hl : (s.step i).jalLinkWe = false) :
    (s.step i).Ordered (s.tagsStep i l.length t) (s.retireStep i v l).length
      (cs ++ (s.step i).commits (s.tagsStep i l.length t)) := by
  have hnew := fun c => commit_step_cases (c := c) (t := t) (k := l.length) hf hb hl
  constructor
  case sorted =>
    refine List.pairwise_append.mpr ⟨h.sorted, ?_, ?_⟩
    · refine List.pairwise_of_forall_mem_list fun a ha b hb' _ => ?_
      have hab := ((mem_commits hb hl).mp ha).1.symm.trans ((mem_commits hb hl).mp hb').1
      exact Nat.le_of_eq (Option.some.inj hab)
    · intro a ha c hc hac
      rcases (hnew c hc).2 with ⟨hld, hrd, hk⟩ | ⟨hk, -⟩
      · rw [hk]
        exact h.memWb_step hfr hf hC hld ha (hac.trans hrd)
      · rw [hk]
        exact (h.number a ha).1
  case rd =>
    intro c hc
    rcases List.mem_append.mp hc with hc | hc
    · exact h.rd c hc
    · exact (hnew c hc).1
  case number =>
    intro c hc
    have hle := length_le_retireStep (s := s) (i := i) (l := l) (v := v)
    rcases List.mem_append.mp hc with hc | hc
    · obtain ⟨hk, hx⟩ := h.number c hc
      exact ⟨Nat.le_trans hk hle, fun he =>
        (hx (by omega)).step_of_length hfr (h.rd c hc) (v := v) (l := l) (by omega)⟩
    · obtain ⟨h0, ⟨hld, hrd, hk⟩ | ⟨hk, hx⟩⟩ := hnew c hc
      · have hlt := h.memWbTag_step hf (v := v) hld (by rw [← hrd]; exact h0)
        exact ⟨by omega, fun he => by omega⟩
      · exact ⟨by omega, fun he => hx.step_of_length hfr h0 (v := v) (l := l) (by omega)⟩
  case tags => exact h.tags_step
  case exMemTag => exact h.exMemTag_step hfr hf
  case memWbTag => exact h.memWbTag_step hf
  case exMem => exact h.exMem_step hfr hf hC hb hl
  case memWb =>
    intro hld c hc hrd
    rcases List.mem_append.mp hc with hc | hc
    · exact h.memWb_step hfr hf hC hld hc hrd
    · have hk := (mem_commits_of_load hb hl hld).mp hc
      exact Nat.le_of_eq hk.1.symm

end Step

/-! ### The writes of all results -/

/-- **Each result that has left EX is written** with its value, but for a load that is still in
EX/MEM; and what EX/WB holds behind a load in EX/MEM is of the result that waits in EX. -/
structure Committed (s : Core) (t : ResultTags) (l : RetireLog) (cs : List Commit) : Prop where
  port : ∀ c ∈ s.commits t, c ∈ cs
  written : ∀ k r q w, l.entry k = some ⟨r, q, some w⟩ → ⟨k, r, w⟩ ∈ cs
  awaited : ∀ k r q, l.entry k = some ⟨r, q, none⟩ → r ≠ 0#5 ∧
    s.exMem.memReadEn = true ∧ s.exMem.rd = r ∧ t.exMem = k
  behindLoad : s.exMem.memReadEn = true → ∀ r, r ≠ 0#5 → s.ExComputes r → s.exMem.rd ≠ r →
    s.exWb.wbRegWriteEn = true → s.exWb.wbRd = r → t.exWb = some l.length

section Step

variable (hf : i.flush = false)
  (hb : (s.step i).regfile.weBuf = false) (hl : (s.step i).jalLinkWe = false)
include hf

include hb hl in
/-- A load is written in the cycle after its release. -/
lemma commit_of_release (hs : s.stallBack i = false) (hread : s.exMem.memReadEn = true)
    (h0 : s.exMem.rd ≠ 0#5) (k : ℕ) :
    ⟨t.exMem, s.exMem.rd, s.memLoadDataStub i⟩ ∈ (s.step i).commits (s.tagsStep i k t) := by
  have hmem : (s.step i).memWb = s.memWbIn i := by rw [Core.memWb_step hf, hs]; rfl
  refine (mem_commits_of_load hb hl (by rw [hmem]; exact hread)).mpr ?_
  rw [hmem]
  exact ⟨by simp [tagsStep, hs], rfl, rfl, h0⟩

include hb hl in
/-- A result that leaves EX and meets no load is written in the next cycle, or has been in this
one. -/
lemma Committed.commit_of_leaves (h : s.Committed t l cs) (hb' : s.regfile.weBuf = false)
    (hl' : s.jalLinkWe = false) (hr : s.ResultLeaves i) (hm : s.MeetsNoLoad i) :
    ⟨l.length, s.idEx.exRd, (s.exIn i).exResult⟩ ∈
      cs ++ (s.step i).commits (s.tagsStep i l.length t) := by
  obtain ⟨-, hwe, hld, h0⟩ := hr
  have hexw : (s.step i).exWb = s.exWbIn i := exWb_step hf
  have hmem := Core.memWb_step (s := s) hf
  rw [List.mem_append]
  cases hw : (s.step i).memWb.wbIsLoad
  · right
    refine (mem_commits_of_not_load hb hl hw).mpr ?_
    rw [hexw]
    exact ⟨by simp [tagsStep, hld], hwe, rfl, rfl, h0⟩
  · left
    rw [hmem] at hw
    cases hs : s.stallBack i <;> simp only [hs, Bool.false_eq_true, if_false, if_true] at hw
    · obtain ⟨hne, hwb, heq⟩ := hm.behindLoad hs hw
      have htag : t.exWb = some l.length :=
        h.behindLoad hw _ h0 ⟨⟨hwe, rfl⟩, hld⟩ hne (by rw [heq]; exact hwe) (by rw [heq]; rfl)
      refine h.port _ ((mem_commits_of_not_load hb' hl' hwb).mpr ?_)
      rw [heq]
      exact ⟨htag, hwe, rfl, rfl, h0⟩
    · simp [(hm.duringStall hs).1] at hw

/-- What EX/WB holds behind a load in EX/MEM is of the result in EX. -/
lemma tag_of_behindLoad (h0 : r ≠ 0#5)
    (hx : (s.step i).ExComputes r) (hne : (s.step i).exMem.rd ≠ r)
    (hrd : (s.step i).exWb.wbRd = r) :
    (s.tagsStep i l.length t).exWb = some (s.retireStep i v l).length := by
  have hexw : (s.step i).exWb = s.exWbIn i := exWb_step hf
  rw [hexw] at hrd
  cases hs : s.stallBack i
  · -- The load in EX/MEM has just left EX.
    have hexm : (s.step i).exMem = s.exMemIn i := by rw [Core.exMem_step hf, hs]; rfl
    rw [hexm] at hne
    exact absurd hrd hne
  · cases hfl : s.flushIdex i
    · have hid : (s.step i).idEx = s.idEx := by simp [Core.step, IdExReg.step, hfl, hs]
      have hld : s.idEx.exIsLoad = false := by rw [← hid]; exact hx.2
      rw [length_retireStep_of_waits (by simp [leavesEx, hs, hfl])]
      simp [tagsStep, hld]
    · -- A redirect has emptied ID/EX.
      have hid : (s.step i).idEx.exRd = 0#5 := by
        simp [Core.step, IdExReg.step, hfl, IdExReg.bubble]
      exact absurd (hx.1.2.symm.trans hid) h0

include hb hl in
/-- **One cycle.** -/
theorem Committed.step (hb' : s.regfile.weBuf = false) (hl' : s.jalLinkWe = false)
    (hC : s.ResultLeaves i → s.MeetsNoLoad i) (hld : s.idEx.exIsLoad = true →
      s.leavesEx i = true → s.stallBack i = false ∧ (s.exIn i).memReadEn = true)
    (h : s.Committed t l cs) :
    (s.step i).Committed (s.tagsStep i l.length t) (s.retireStep i (s.memLoadDataStub i) l)
      (cs ++ (s.step i).commits (s.tagsStep i l.length t)) := by
  have hexm := Core.exMem_step (s := s) hf
  constructor
  case port => exact fun c hc => List.mem_append_right _ hc
  case written =>
    intro k r q w hk
    rcases entry_retireStep_cases hk with ⟨hr, rfl, he⟩ | ⟨-, -, -, -, he⟩ |
      ⟨hrel, e', hk', he⟩ | ⟨-, hk'⟩
    · cases he
      exact h.commit_of_leaves hf hb hl hb' hl' hr (hC hr)
    · cases he
    · -- The released load may have resolved it.
      simp only [releasesLoad, Bool.and_eq_true, Bool.not_eq_true'] at hrel
      obtain ⟨r', q', w'⟩ := e'
      cases he
      cases w' with
      | some w' => exact List.mem_append_left _ (h.written k r' q' w' hk')
      | none =>
        obtain ⟨h0, -, rfl, rfl⟩ := h.awaited k r' q' hk'
        exact List.mem_append_right _ (commit_of_release hf hb hl hrel.2 hrel.1 h0 _)
    · exact List.mem_append_left _ (h.written k r q w hk')
  case awaited =>
    intro k r q hk
    rcases entry_retireStep_cases hk with ⟨-, -, he⟩ | ⟨hlv, hx, h0, rfl, he⟩ |
      ⟨-, e', -, he⟩ | ⟨hrel, hk'⟩
    · cases he
    · cases he
      obtain ⟨hs, hread⟩ := hld hx hlv
      rw [hexm, hs]
      exact ⟨h0, hread, rfl, by simp [tagsStep, hs]⟩
    · cases he
    · obtain ⟨h0, hread, hrd, htag⟩ := h.awaited k r q hk'
      have hs : s.stallBack i = true := by simpa [releasesLoad, hread] using hrel
      rw [hexm, hs]
      exact ⟨h0, hread, hrd, by simp [tagsStep, hs, htag]⟩
  case behindLoad =>
    intro _ r h0 hx hne _ hrd
    exact tag_of_behindLoad hf h0 hx hne hrd

end Step

lemma ordered_reset : Core.reset.Ordered ⟨none, 0, 0⟩ 0 [] where
  sorted := .nil
  rd := by simp
  number := by simp
  tags := ⟨le_rfl, le_rfl⟩
  exMemTag h := by cases h
  memWbTag h := by cases h
  exMem := by simp
  memWb := by simp

lemma committed_reset : Core.reset.Committed ⟨none, 0, 0⟩ [] [] where
  port _ hc := by cases hc
  written _ _ _ _ hk := by cases hk
  awaited _ _ _ hk := by cases hk
  behindLoad h := by cases h

end Core

/-! ### Along a run -/

namespace SocBram

variable (image : BitVec 10 → BitVec 32) (d : DataMem)

/-- How many results have left EX before cycle `n`. -/
def resultCount (n : ℕ) : ℕ := (retireLog image d (latchedWord image) n).length

/-- The numbers of the results under way in cycle `n`. -/
def resultTags : ℕ → ResultTags
  | 0 => ⟨none, 0, 0⟩
  | n + 1 => (quietRun image d n).core.tagsStep ((quietRun image d n).coreIn image .quiet)
      (resultCount image d n) (resultTags n)

/-- The results that are written to the array before cycle `n`. -/
def commitTrace : ℕ → List Commit
  | 0 => []
  | n + 1 => commitTrace n ++ (quietRun image d n).core.commits (resultTags image d n)

/-- **No result is lost or reordered** up to cycle `n`.  A register that EX does not write is as
the log says, with what is about to reach it; so a drained pipeline leaves in every register the
value of its youngest writer.  The writes to a register come in program order, and every result
that has left EX is written with its value by the end of the cycle, but for a load that is still in
EX/MEM. -/
structure ResultsInOrder (n : ℕ) : Prop where
  agrees : ∀ r, r ≠ 0#5 → ¬ (quietRun image d n).core.exWritesTo r →
    (quietRun image d n).core.Agrees (retireLog image d (latchedWord image) n) r
  drained : (quietRun image d n).core.Drained → ∀ r, r ≠ 0#5 →
    (quietRun image d n).core.regfile.regs r =
      (((retireLog image d (latchedWord image) n).youngest r).bind LogEntry.value).getD 0#32
  ordered : (commitTrace image d (n + 1)).Pairwise fun a b =>
    a.rd = b.rd → a.number ≤ b.number
  written : ∀ k r q w,
    (retireLog image d (latchedWord image) n).entry k = some ⟨r, q, some w⟩ →
      ⟨k, r, w⟩ ∈ commitTrace image d (n + 1)
  awaited : ∀ k r q, (retireLog image d (latchedWord image) n).entry k = some ⟨r, q, none⟩ →
    (quietRun image d n).core.exMem.memReadEn = true ∧ (quietRun image d n).core.exMem.rd = r

variable {image d}

/-- The writes along a run. -/
lemma ordered_committed_quietRun (himg : NoJalImage image) {n : ℕ}
    (hC : ∀ k < n,
      (quietRun image d k).core.ResultLeaves ((quietRun image d k).coreIn image .quiet) →
      (quietRun image d k).core.MeetsNoLoad ((quietRun image d k).coreIn image .quiet)) :
    (quietRun image d n).core.Ordered (resultTags image d n) (resultCount image d n)
        (commitTrace image d (n + 1)) ∧
      (quietRun image d n).core.Committed (resultTags image d n)
        (retireLog image d (latchedWord image) n) (commitTrace image d (n + 1)) := by
  have hlink : ∀ k, (quietRun image d k).core.jalLinkWe = false := fun k =>
    Core.jalLinkWe_of_jumpIf (jumpIf_of_noJal himg k)
  induction n with
  | zero => exact ⟨Core.ordered_reset, Core.committed_reset⟩
  | succ n ih =>
    obtain ⟨hord, hcom⟩ := ih fun k hk => hC k (Nat.lt_succ_of_lt hk)
    have hCn := hC n (Nat.lt_succ_self n)
    have hfr := frontOk_quietRun image d n
    have hbuf := weBuf_of_noJal (d := d) himg
    refine ⟨hord.step hfr rfl hCn (hbuf (n + 1)) (hlink (n + 1)), ?_⟩
    refine hcom.step rfl (hbuf (n + 1)) (hlink (n + 1)) (hbuf n) (hlink n) hCn ?_
    intro hld hlv
    exact ⟨Core.stallBack_of_load_leaves (b := (quietRun image d n).bus) hfr hld hlv,
      Core.memReadEn_of_load hfr hld hlv⟩

/-- **No register result is lost or reordered** in a run in which no result meets a load. -/
theorem resultsInOrder_of_meetsNoLoad (himg : NoJalImage image) {n : ℕ}
    (hC : ∀ k < n,
      (quietRun image d k).core.ResultLeaves ((quietRun image d k).coreIn image .quiet) →
      (quietRun image d k).core.MeetsNoLoad ((quietRun image d k).coreIn image .quiet)) :
    ResultsInOrder image d n := by
  obtain ⟨hord, hcom⟩ := ordered_committed_quietRun himg hC
  refine ⟨fun r hr hn => agrees_quietRun himg hC hr hn,
    fun hd r hr => regs_eq_youngest himg hC hd hr, hord.sorted, hcom.written, ?_⟩
  intro k r q hk
  obtain ⟨-, hread, hrd, -⟩ := hcom.awaited k r q hk
  exact ⟨hread, hrd⟩

/-- `lw x1, 0(x0)`, `addi x2, x0, 5` and `addi x1, x0, 6`. -/
def loadThenWriters : BitVec 10 → BitVec 32 := fun a =>
  if a = 0#10 then 0x00002083#32 else if a = 1#10 then 0x00500113#32
  else if a = 2#10 then 0x00600093#32 else nop

/-- The result behind the load is written beside it, and the one behind that after it. -/
theorem resultsInOrder_loadThenWriters : ResultsInOrder loadThenWriters .zero 9 := by
  have himg : NoJalImage loadThenWriters := by
    intro a
    unfold loadThenWriters
    split_ifs <;> decide
  exact resultsInOrder_of_meetsNoLoad himg (by decide +kernel)

/-- `lw x1, 0(x0)` in front of `addi x1, x0, 5`. -/
def loadThenSame : BitVec 10 → BitVec 32 := fun a =>
  if a = 0#10 then 0x00002083#32 else if a = 1#10 then 0x00500093#32 else nop

/-- **The load is written after its younger neighbour**: `x1` ends with the word of the load. -/
theorem loadThenSame_reordered :
    ¬ ∀ image d n, NoJalImage image → ResultsInOrder image d n := by
  intro h
  have himg : NoJalImage loadThenSame := by
    intro a
    unfold loadThenSame
    split_ifs <;> decide
  have hr := (h loadThenSame .zero 8 himg).drained
    ⟨by left; decide +kernel, by left; decide +kernel, by decide +kernel, by decide +kernel,
      by decide +kernel, by decide +kernel⟩ 1#5 (by decide)
  revert hr
  decide +kernel

end SocBram

end RiscvSoc.Rtl
