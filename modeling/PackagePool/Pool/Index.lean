import Std.Data.TreeMap

/-!
# Indexes

An index keeps a list of entries under each key, in the order in which they were added.  A key whose
list would be empty is not kept.  `Index.entries` is the view: `entries_push` and `entries_discard`
say what adding and dropping entries does to it.
-/

namespace PackagePool

/-- Lists of entries under keys. -/
structure Index (κ α : Type) [Ord κ] where
  table : Std.TreeMap κ (List α)

namespace Index

variable {κ α : Type} [Ord κ]

/-- No entry under any key. -/
def empty : Index κ α :=
  ⟨∅⟩

/-- The entries under a key, in the order in which they were added. -/
def entries (ix : Index κ α) (key : κ) : List α :=
  (ix.table[key]?).getD []

/-- Adds an entry at the end of the list under `key`. -/
def push (ix : Index κ α) (key : κ) (entry : α) : Index κ α :=
  ⟨ix.table.alter key fun kept => some (kept.getD [] ++ [entry])⟩

/-- Drops entries under `key`, and the key with the last of them. -/
def discard (ix : Index κ α) (key : κ) (drop : α → Bool) : Index κ α :=
  ⟨ix.table.alter key fun kept =>
    match (kept.getD []).filter fun entry => !drop entry with
    | [] => none
    | left => some left⟩

/-- No key is kept with an empty list. -/
def Tight (ix : Index κ α) : Prop :=
  ∀ key : κ, ix.table[key]? ≠ some []

variable [Std.TransOrd κ]

@[simp] theorem entries_empty (key : κ) : (empty : Index κ α).entries key = [] := by
  simp [empty, entries]

theorem tight_empty : (empty : Index κ α).Tight := by
  intro key
  simp [empty]

variable [Std.LawfulEqOrd κ] [DecidableEq κ]

theorem entries_push (ix : Index κ α) (key other : κ) (entry : α) :
    (ix.push key entry).entries other =
      if key = other then ix.entries other ++ [entry] else ix.entries other := by
  by_cases h : key = other
  · subst h
    simp [push, entries]
  · simp [push, entries, Std.TreeMap.getElem?_alter, h]

theorem entries_discard (ix : Index κ α) (key other : κ) (drop : α → Bool) :
    (ix.discard key drop).entries other =
      if key = other then (ix.entries other).filter fun entry => !drop entry
      else ix.entries other := by
  by_cases h : key = other
  · subst h
    simp only [discard, entries, Std.TreeMap.getElem?_alter, Std.compare_self, if_true]
    split <;> simp_all
  · simp [discard, entries, Std.TreeMap.getElem?_alter, h]

theorem tight_push {ix : Index κ α} (h : ix.Tight) (key : κ) (entry : α) :
    (ix.push key entry).Tight := by
  intro other
  by_cases hkey : key = other
  · subst hkey
    simp [push]
  · simpa [push, Std.TreeMap.getElem?_alter, hkey] using h other

theorem tight_discard {ix : Index κ α} (h : ix.Tight) (key : κ) (drop : α → Bool) :
    (ix.discard key drop).Tight := by
  intro other
  by_cases hkey : key = other
  · subst hkey
    simp only [discard, Std.TreeMap.getElem?_alter, Std.compare_self, if_true]
    split <;> simp_all
  · simpa [discard, Std.TreeMap.getElem?_alter, hkey] using h other

end Index

end PackagePool
