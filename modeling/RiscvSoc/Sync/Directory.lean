import RiscvSoc.Sync.Machine

/-!
# Directories with late fills

A directory says which tag each way of each set holds.  When a tag is missed, a way is chosen for
it, whatever that way holds, and the entry is made in some later step.  In the meantime other tags
may be looked up; but no other fill is ordered, and so no tag ever has two ways.
-/

namespace RiscvSoc.Sync

/-- A fill that has been ordered. -/
structure Fill (ι ω τ : Type*) where
  set : ι
  way : ω
  tag : τ

/-- The entries, and the fill that is under way. -/
structure Directory (ι ω τ : Type*) where
  entry : ι → ω → Option τ
  fill : Option (Fill ι ω τ)

namespace Directory

variable {ι ω τ ρ σ : Type*} {home : τ → ι → Prop} {d d' : Directory ι ω τ}

/-- **The invariant of a directory**: tags are in their sets and in one way only, and the tag that
is to be filled in has a place in its set and is not there yet. -/
structure Ok (home : τ → ι → Prop) (d : Directory ι ω τ) : Prop where
  atHome : ∀ g w t, d.entry g w = some t → home t g
  unique : ∀ g w w' t, d.entry g w = some t → d.entry g w' = some t → w = w'
  fillHome : ∀ f, d.fill = some f → home f.tag f.set
  missing : ∀ f, d.fill = some f → ∀ w, d.entry f.set w ≠ some f.tag

/-- An empty directory. -/
lemma ok_of_empty (he : ∀ g w, d.entry g w = none) (hf : d.fill = none) : d.Ok home := by
  constructor
  · intro g w t ht
    rw [he] at ht
    cases ht
  · intro g w w' t ht
    rw [he] at ht
    cases ht
  · intro f h
    rw [hf] at h
    cases h
  · intro f h
    rw [hf] at h
    cases h

variable [DecidableEq ι] [DecidableEq ω]

/-- **What a step does**, when `home` says in which set a tag may be: nothing, or a tag that is
missed is to be filled in, or it is. -/
inductive Step (home : τ → ι → Prop) : Directory ι ω τ → Directory ι ω τ → Prop
  | keep (d : Directory ι ω τ) : Step home d d
  | miss (d : Directory ι ω τ) (f : Fill ι ω τ) (idle : d.fill = none) (atHome : home f.tag f.set)
      (missing : ∀ w, d.entry f.set w ≠ some f.tag) : Step home d ⟨d.entry, some f⟩
  | fill (d : Directory ι ω τ) (f : Fill ι ω τ) (ordered : d.fill = some f) :
      Step home d ⟨Function.update d.entry f.set
        (Function.update (d.entry f.set) f.way (some f.tag)), none⟩

/-- What a way holds after a fill. -/
lemma entry_after_fill (e : ι → ω → Option τ) (f : Fill ι ω τ) {g : ι} {w : ω} {t : τ}
    (h : Function.update e f.set (Function.update (e f.set) f.way (some f.tag)) g w = some t) :
    (g = f.set ∧ w = f.way ∧ t = f.tag) ∨ ((g = f.set → w ≠ f.way) ∧ e g w = some t) := by
  by_cases hg : g = f.set
  · subst hg
    rw [Function.update_self] at h
    by_cases hw : w = f.way
    · subst hw
      rw [Function.update_self, Option.some.injEq] at h
      exact .inl ⟨rfl, rfl, h.symm⟩
    · rw [Function.update_of_ne hw] at h
      exact .inr ⟨fun _ => hw, h⟩
  · rw [Function.update_of_ne hg] at h
    exact .inr ⟨fun hg' => absurd hg' hg, h⟩

/-- **One step keeps the directory right.** -/
theorem Ok.step (h : d.Ok home) (hs : Step home d d') : d'.Ok home := by
  cases hs with
  | keep => exact h
  | miss f idle atHome missing =>
    refine ⟨h.atHome, h.unique, ?_, ?_⟩
    · rintro _ ⟨⟩
      exact atHome
    · rintro _ ⟨⟩
      exact missing
  | fill f ordered =>
    have hmissing := h.missing f ordered
    refine ⟨?_, ?_, nofun, nofun⟩
    · intro g w t ht
      rcases entry_after_fill _ f ht with ⟨rfl, -, rfl⟩ | ⟨-, ht⟩
      · exact h.fillHome f ordered
      · exact h.atHome g w t ht
    · intro g w w' t ht ht'
      -- Two ways with one tag: both are new, or both old; one new and one old cannot be.
      rcases entry_after_fill _ f ht with ⟨rfl, rfl, rfl⟩ | ⟨-, ht⟩
      · rcases entry_after_fill _ f ht' with ⟨-, rfl, -⟩ | ⟨-, ht'⟩
        · rfl
        · exact absurd ht' (hmissing w')
      · rcases entry_after_fill _ f ht' with ⟨rfl, rfl, rfl⟩ | ⟨-, ht'⟩
        · exact absurd ht (hmissing w)
        · exact h.unique g w w' t ht ht'

/-- **The run rule for directories**: a machine whose steps are steps of its directory keeps it
right. -/
theorem ok_run (m : Machine ρ σ) (view : σ → Directory ι ω τ) (h0 : (view m.init).Ok home)
    (hs : ∀ s i, Step home (view s) (view (m.next s i))) (ins : ℕ → ρ) (n : ℕ) :
    (view (m.run ins n)).Ok home :=
  m.invariant (P := fun s => (view s).Ok home) h0 (fun s i h => h.step (hs s i)) ins n

end Directory

/-! ### Searches -/

/-- Where at most one element is looked for, the first that is found is the last. -/
lemma find?_reverse_of_unique {α : Type*} {p : α → Bool} {l : List α}
    (h : ∀ a ∈ l, ∀ b ∈ l, p a = true → p b = true → a = b) : l.reverse.find? p = l.find? p := by
  cases hf : l.find? p with
  | none =>
    rw [List.find?_eq_none] at hf ⊢
    intro a ha
    exact hf a (List.mem_reverse.mp ha)
  | some a =>
    cases hr : l.reverse.find? p with
    | none =>
      rw [List.find?_eq_none] at hr
      exact absurd (List.find?_some hf) (hr a (List.mem_reverse.mpr (List.mem_of_find?_eq_some hf)))
    | some b =>
      rw [h a (List.mem_of_find?_eq_some hf) b
        (List.mem_reverse.mp (List.mem_of_find?_eq_some hr)) (List.find?_some hf)
        (List.find?_some hr)]

end RiscvSoc.Sync
