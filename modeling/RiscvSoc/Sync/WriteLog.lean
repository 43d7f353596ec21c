import Mathlib.Tactic.Common

/-!
# Logs of writes with late values

A log lists writes to keyed locations, youngest first.  An entry is made when the write is
ordered; its value may come later, when the entry is resolved.
-/

namespace RiscvSoc.Sync

/-- A write to `key` of some `kind`; the value is `none` as long as it is awaited. -/
structure LogEntry (κ τ α : Type*) where
  key : κ
  kind : τ
  value : Option α
  deriving DecidableEq

namespace LogEntry

variable {κ τ α : Type*}

/-- The entry once an awaited value has come. -/
def resolve (v : α) (e : LogEntry κ τ α) : LogEntry κ τ α :=
  { e with value := some (e.value.getD v) }

@[simp] lemma resolve_key (v : α) (e : LogEntry κ τ α) : (e.resolve v).key = e.key := rfl

@[simp] lemma resolve_value (v : α) (e : LogEntry κ τ α) :
    (e.resolve v).value = some (e.value.getD v) := rfl

end LogEntry

/-- A log, youngest entry first. -/
abbrev WriteLog (κ τ α : Type*) := List (LogEntry κ τ α)

namespace WriteLog

variable {κ τ α : Type*} [DecidableEq κ]

/-- The youngest write to `k`. -/
def youngest (l : WriteLog κ τ α) (k : κ) : Option (LogEntry κ τ α) :=
  l.find? fun e => e.key = k

/-- The log once an awaited value has come. -/
def resolve (v : α) (l : WriteLog κ τ α) : WriteLog κ τ α := l.map (LogEntry.resolve v)

lemma youngest_cons_self (e : LogEntry κ τ α) (l : WriteLog κ τ α) :
    youngest (e :: l) e.key = some e := by
  simp [youngest]

lemma youngest_cons_of_ne {e : LogEntry κ τ α} {k : κ} (h : e.key ≠ k) (l : WriteLog κ τ α) :
    youngest (e :: l) k = youngest l k := by
  simp [youngest, h]

lemma youngest_resolve (v : α) (l : WriteLog κ τ α) (k : κ) :
    youngest (resolve v l) k = (youngest l k).map (LogEntry.resolve v) := by
  induction l with
  | nil => rfl
  | cons e l ih =>
    by_cases h : e.key = k
    · subst h
      simp [youngest, resolve]
    · have hr : (e.resolve v).key ≠ k := h
      rw [youngest_cons_of_ne h, ← ih]
      exact youngest_cons_of_ne hr _

/-! ### Entries by their number -/

omit [DecidableEq κ] in
@[simp] lemma length_resolve (v : α) (l : WriteLog κ τ α) : (resolve v l).length = l.length :=
  List.length_map _

/-- The entry number `k`, counted from the oldest. -/
def entry (l : WriteLog κ τ α) (k : ℕ) : Option (LogEntry κ τ α) := l.reverse[k]?

omit [DecidableEq κ]

/-- A new entry gets the next number. -/
lemma entry_cons (e : LogEntry κ τ α) (l : WriteLog κ τ α) (k : ℕ) :
    entry (e :: l) k = if k = l.length then some e else entry l k := by
  rw [entry, List.reverse_cons, List.getElem?_append, List.length_reverse]
  split_ifs with hlt heq heq
  · omega
  · rfl
  · simp [heq]
  · have hnone : entry l k = none := List.getElem?_eq_none (by simp; omega)
    rw [hnone]
    exact List.getElem?_eq_none (by simp; omega)

lemma entry_resolve (v : α) (l : WriteLog κ τ α) (k : ℕ) :
    entry (resolve v l) k = (entry l k).map (LogEntry.resolve v) := by
  rw [entry, resolve, ← List.map_reverse, List.getElem?_map]
  rfl

end WriteLog

end RiscvSoc.Sync
