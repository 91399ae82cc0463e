import Mathlib.Data.List.Basic
import PackagePool.Toml.Document

/-!
# Arrays of tables, block by block

The header `[[key]]` adds an empty table to the array of tables under `key`, and the assignments
behind it go to that table.  So a block, a header with the assignments behind it, adds one table
with exactly these entries (`foldlM_blockStatements`), and a document that ends in blocks of one key
has one table for each of them, in their order (`foldlM_blocks`).
-/

namespace PackagePool.Toml

variable {key : String} {head inner : Entries} {done : List Entries}

/-- The statements of a block: its header, and an assignment for each entry. -/
def blockStatements (key : String) (entries : Entries) : List Statement :=
  .element [key] :: entries.map fun entry => .assign [entry.1] entry.2

/-- The entries of a table behind which an array of tables stands, unless the array is empty. -/
def withTables (head : Entries) (key : String) (elements : List Entries) : Entries :=
  if elements.isEmpty then head else head ++ [(key, .tables elements)]

theorem withTables_of_ne_nil {elements : List Entries} (h : elements ≠ []) :
    withTables head key elements = head ++ [(key, .tables elements)] := by
  simp [withTables, h]

theorem withTables_append (last : Entries) :
    withTables head key (done ++ [last]) = head ++ [(key, .tables (done ++ [last]))] :=
  withTables_of_ne_nil (by simp)

theorem lookup_append_self (hhead : head.lookup key = none) (value : Value) :
    (head ++ [(key, value)]).lookup key = some value := by
  simp [List.lookup_append, hhead]

theorem replace_append_self (hhead : head.lookup key = none) (old new : Value) :
    replace key new (head ++ [(key, old)]) = head ++ [(key, new)] := by
  have hforeign : ∀ entry ∈ head, (if entry.1 = key then (key, new) else entry) = entry := by
    intro entry hentry
    have hne := List.lookup_eq_none_iff.1 hhead entry hentry
    rw [if_neg (Ne.symm (bne_iff_ne.1 hne))]
  simp [replace, List.map_congr_left hforeign]

theorem add_element (hhead : head.lookup key = none) (current : List String) :
    Draft.add ⟨withTables head key done, current⟩ (.element [key]) =
      some ⟨withTables head key (done ++ [[]]), [key]⟩ := by
  rcases List.eq_nil_or_concat' done with rfl | ⟨done, last, rfl⟩
  · simp [Draft.add, openElement, updateAt, withTables, hhead]
  · rw [withTables_append, withTables_append]
    simp [Draft.add, openElement, updateAt, lookup_append_self hhead, replace_append_self hhead]

theorem add_assign_root {entries : Entries} (hnew : entries.lookup key = none) (value : Value) :
    Draft.add ⟨entries, []⟩ (.assign [key] value) = some ⟨entries ++ [(key, value)], []⟩ := by
  simp [Draft.add, updateAt, Toml.assign, addEntry, hnew]

theorem add_assign_last (hhead : head.lookup key = none) {name : String}
    (hnew : inner.lookup name = none) (value : Value) :
    Draft.add ⟨withTables head key (done ++ [inner]), [key]⟩ (.assign [name] value) =
      some ⟨withTables head key (done ++ [inner ++ [(name, value)]]), [key]⟩ := by
  simp [Draft.add, updateAt, Toml.assign, addEntry, withTables_append, lookup_append_self hhead,
    replace_append_self hhead, hnew]

/-- Assignments of different keys fill the last table in their order. -/
theorem foldlM_assignments (hhead : head.lookup key = none) {entries : Entries}
    (hdistinct : ((inner ++ entries).map Prod.fst).Nodup) :
    (entries.map fun entry => Statement.assign [entry.1] entry.2).foldlM Draft.add
        ⟨withTables head key (done ++ [inner]), [key]⟩ =
      some ⟨withTables head key (done ++ [inner ++ entries]), [key]⟩ := by
  induction entries generalizing inner with
  | nil => simp
  | cons entry entries ih =>
    obtain ⟨name, value⟩ := entry
    have hnew : inner.lookup name = none := by
      rw [List.lookup_eq_none_iff]
      intro other hother
      rw [List.map_append, List.nodup_append] at hdistinct
      have hne := hdistinct.2.2 other.1 (List.mem_map_of_mem hother) name List.mem_cons_self
      exact bne_iff_ne.2 (Ne.symm hne)
    rw [List.map_cons, List.foldlM_cons, add_assign_last hhead hnew]
    rw [List.append_cons inner (name, value) entries] at hdistinct ⊢
    exact ih hdistinct

/-- A block adds one table to the array of tables of its key. -/
theorem foldlM_blockStatements (hhead : head.lookup key = none) {entries : Entries}
    (hdistinct : (entries.map Prod.fst).Nodup) (current : List String) :
    (blockStatements key entries).foldlM Draft.add ⟨withTables head key done, current⟩ =
      some ⟨withTables head key (done ++ [entries]), [key]⟩ := by
  rw [blockStatements, List.foldlM_cons, add_element hhead current]
  exact foldlM_assignments hhead hdistinct

/-- Blocks of one key add one table each, in their order. -/
theorem foldlM_blocks (hhead : head.lookup key = none) {blocks : List Entries}
    (hdistinct : ∀ entries ∈ blocks, (entries.map Prod.fst).Nodup) (current : List String) :
    ((blocks.flatMap (blockStatements key)).foldlM Draft.add
        ⟨withTables head key done, current⟩).map Draft.root =
      some (withTables head key (done ++ blocks)) := by
  induction blocks generalizing done current with
  | nil => simp
  | cons entries blocks ih =>
    have hlater := fun others hothers => hdistinct others (List.mem_cons_of_mem entries hothers)
    rw [List.flatMap_cons, List.foldlM_append,
      foldlM_blockStatements hhead (hdistinct entries List.mem_cons_self)]
    rw [List.append_cons done entries blocks]
    exact ih hlater [key]

end PackagePool.Toml
