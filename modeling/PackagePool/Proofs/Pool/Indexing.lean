import Mathlib.Data.List.Enum
import Mathlib.Data.List.Nodup
import PackagePool.Pool.Query

/-!
# What a unit contributes to the indexes

A pool indexes a unit by pushing one entry for each declared capability, and takes it out again by
discarding entries under each declared key.  A unit may declare one name several times, so the
second of these visits some keys again; `Index.entries_foldl_discard` says that the further visits
change nothing.

`PackageUnit.refsUnder` is what a unit in a given slot contributes under one key, and
`refsUnder_eq` computes it from the declarations: the positions of the capabilities of that name, in
ascending order.  `Item.associations` is the same for a query, with the capabilities themselves.
-/

namespace PackagePool

/-! ## Adding and dropping many entries -/

namespace Index

variable {κ α : Type} [Ord κ] [Std.TransOrd κ] [Std.LawfulEqOrd κ] [DecidableEq κ]

theorem entries_foldl_push (refs : List (κ × α)) (ix : Index κ α) (key : κ) :
    (refs.foldl (fun ix ref => ix.push ref.1 ref.2) ix).entries key =
      ix.entries key ++ (refs.filter fun ref => ref.1 = key).map (·.2) := by
  induction refs generalizing ix with
  | nil => simp
  | cons ref refs ih =>
    obtain ⟨k, entry⟩ := ref
    rw [List.foldl_cons, ih, entries_push]
    by_cases h : k = key
    · simp [h]
    · simp [h]

theorem tight_foldl_push (refs : List (κ × α)) {ix : Index κ α} (h : ix.Tight) :
    (refs.foldl (fun ix ref => ix.push ref.1 ref.2) ix).Tight := by
  induction refs generalizing ix with
  | nil => exact h
  | cons ref refs ih => exact ih (tight_push h ref.1 ref.2)

/-- Discarding under a list of keys drops entries under exactly these keys, however often a key
stands in the list. -/
theorem entries_foldl_discard (refs : List (κ × α)) (drop : α → Bool) (ix : Index κ α) (key : κ) :
    (refs.foldl (fun ix ref => ix.discard ref.1 drop) ix).entries key =
      if key ∈ refs.map (·.1) then (ix.entries key).filter fun entry => !drop entry
      else ix.entries key := by
  induction refs generalizing ix with
  | nil => simp
  | cons ref refs ih =>
    obtain ⟨k, entry⟩ := ref
    rw [List.foldl_cons, ih, entries_discard]
    by_cases h : k = key
    · subst h
      by_cases hrest : k ∈ refs.map (·.1)
      · simp [List.filter_filter]
      · simp
    · have hmem : key ∈ (k, entry).1 :: refs.map (·.1) ↔ key ∈ refs.map (·.1) := by
        simp [Ne.symm h]
      simp only [List.map_cons, hmem, h, if_false]

/-- If every entry to be dropped stands under one of the keys, it does not matter which keys are
visited: the entries are gone everywhere. -/
theorem entries_foldl_discard_of_covered {refs : List (κ × α)} {drop : α → Bool} {ix : Index κ α}
    (hcovered : ∀ key, ∀ entry ∈ ix.entries key, drop entry = true → key ∈ refs.map (·.1))
    (key : κ) :
    (refs.foldl (fun ix ref => ix.discard ref.1 drop) ix).entries key =
      (ix.entries key).filter fun entry => !drop entry := by
  rw [entries_foldl_discard]
  split
  · rfl
  · rename_i hunvisited
    refine (List.filter_eq_self.2 fun entry hentry => ?_).symm
    cases hdrop : drop entry with
    | false => rfl
    | true => exact absurd (hcovered key entry hentry hdrop) hunvisited

theorem tight_foldl_discard (refs : List (κ × α)) (drop : α → Bool) {ix : Index κ α}
    (h : ix.Tight) : (refs.foldl (fun ix ref => ix.discard ref.1 drop) ix).Tight := by
  induction refs generalizing ix with
  | nil => exact h
  | cons ref refs ih => exact ih (tight_discard h ref.1 drop)

end Index

/-! ## The declarations of one kind -/

/-- No two groups have one kind, so a scan of all groups for a kind finds the group of that kind. -/
theorem Declarations.flatMap_of {β : Type} (d : Declarations) (kind : DepKind)
    (f : List Capability → List β) (hf : f [] = []) :
    (d.groups.flatMap fun group => if group.1 = kind then f group.2 else []) = f (d.of kind) := by
  unfold Declarations.of
  have hordered := d.ordered
  generalize d.groups = groups at hordered
  induction groups with
  | nil => simp [hf]
  | cons head rest ih =>
    obtain ⟨k, caps⟩ := head
    obtain ⟨hhead, hrest⟩ := List.pairwise_cons.1 hordered
    by_cases h : k = kind
    · subst h
      have hnone : (rest.flatMap fun group => if group.1 = k then f group.2 else []) = [] := by
        refine List.flatMap_eq_nil_iff.2 fun group hmem => if_neg fun heq => ?_
        have hlt : k.rank < group.1.rank := hhead group hmem
        rw [heq] at hlt
        exact Nat.lt_irrefl _ hlt
      rw [List.flatMap_cons, hnone, if_pos rfl, List.append_nil, List.lookup_cons_self]
      rfl
    · have hbeq : (kind == k) = false := by simpa using Ne.symm h
      rw [List.flatMap_cons, if_neg h, List.nil_append, ih hrest, List.lookup_cons, hbeq]

/-! ## The entries of a unit -/

namespace PackageUnit

/-- The entries of a unit in slot `index` under one key of the capability index. -/
def refsUnder (u : PackageUnit) (index : Nat) (key : CapKey) : List CapRef :=
  ((u.capRefs index).filter fun ref => ref.1 = key).map (·.2)

/-- Under a kind and a name stand the positions of the capabilities of that name in the group of
that kind. -/
theorem refsUnder_eq (u : PackageUnit) (index : Nat) (kind : DepKind) (name : String) :
    u.refsUnder index ⟨kind, name⟩ =
      ((u.deps kind).zipIdx.filter fun c => c.1.name = name).map fun c => ⟨index, c.2⟩ := by
  let f : List Capability → List CapRef := fun caps =>
    (caps.zipIdx.filter fun c => c.1.name = name).map fun c => ⟨index, c.2⟩
  have hgroup : ∀ group : DepKind × List Capability,
      ((group.2.zipIdx.map fun c =>
          ((⟨group.1, c.1.name⟩ : CapKey), (⟨index, c.2⟩ : CapRef))).filter
        fun ref => ref.1 = ⟨kind, name⟩).map (·.2) = if group.1 = kind then f group.2 else [] := by
    intro group
    by_cases h : group.1 = kind
    · simp [f, h, List.filter_map, Function.comp_def]
    · simp [h, List.filter_map, Function.comp_def]
  rw [refsUnder, capRefs, List.filter_flatMap, List.map_flatMap]
  simp only [hgroup]
  exact u.declarations.flatMap_of kind f rfl

/-- A package that declares one capability name twice, and a kind with no capability under it. -/
def shell : PackageUnit :=
  let bash : Text.IsWord "bash" := Text.isWord_iff.2 (by decide)
  let sh : Text.IsWord "sh" := Text.isWord_iff.2 (by decide)
  ((bare ⟨.package, "bash", ⟨0, "5.1", none, by decide⟩, .x86_64, bash⟩ .system).withDeps
    .provides [⟨"sh", none, sh⟩, ⟨"bash", none, bash⟩, ⟨"sh", none, sh⟩]).withDeps .requires []

example : shell.refsUnder 4 ⟨.provides, "sh"⟩ = [⟨4, 0⟩, ⟨4, 2⟩] := by decide

theorem mem_refsUnder {u : PackageUnit} {index : Nat} {kind : DepKind} {name : String}
    {ref : CapRef} :
    ref ∈ u.refsUnder index ⟨kind, name⟩ ↔
      ref.slot = index ∧ ∃ cap, (u.deps kind)[ref.position]? = some cap ∧ cap.name = name := by
  obtain ⟨slot, position⟩ := ref
  simp only [refsUnder_eq, List.mem_map, List.mem_filter, List.mem_zipIdx_iff_getElem?,
    decide_eq_true_eq, Prod.exists, CapRef.mk.injEq]
  constructor
  · rintro ⟨cap, pos, ⟨hcap, hname⟩, rfl, rfl⟩
    exact ⟨rfl, cap, hcap, hname⟩
  · rintro ⟨rfl, cap, hcap, hname⟩
    exact ⟨cap, position, ⟨hcap, hname⟩, rfl, rfl⟩

theorem slot_of_mem_refsUnder {u : PackageUnit} {index : Nat} {key : CapKey} {ref : CapRef}
    (h : ref ∈ u.refsUnder index key) : ref.slot = index :=
  (mem_refsUnder.1 h).1

theorem nodup_refsUnder (u : PackageUnit) (index : Nat) (key : CapKey) :
    (u.refsUnder index key).Nodup := by
  obtain ⟨kind, name⟩ := key
  have hpositions : ((u.deps kind).zipIdx.map (·.2)).Nodup := by
    rw [List.zipIdx_map_snd]
    exact List.nodup_range'
  rw [refsUnder_eq]
  refine List.Nodup.of_map CapRef.position ?_
  rw [List.map_map]
  exact hpositions.sublist (List.filter_sublist.map _)

/-- Every key under which a unit has an entry is visited when its entries are discarded. -/
theorem key_mem_of_mem_refsUnder {u : PackageUnit} {index : Nat} {key : CapKey} {ref : CapRef}
    (h : ref ∈ u.refsUnder index key) : key ∈ (u.capRefs index).map (·.1) := by
  obtain ⟨⟨k, r⟩, hmem, -⟩ := List.mem_map.1 h
  obtain ⟨hrefs, hkey⟩ := List.mem_filter.1 hmem
  exact List.mem_map.2 ⟨(k, r), hrefs, by simpa using hkey⟩

end PackageUnit

namespace Item

/-- The entries of an item under one key of the capability index. -/
def refs (item : Item) (key : CapKey) : List CapRef :=
  item.unit.refsUnder item.handle.index key

/-- The associations of an item with the capabilities that it declares under `kind` and that are
called `name`: one for each position at which such a capability stands, in the order of the
positions. -/
def associations (item : Item) (kind : DepKind) (name : String) : List Association :=
  ((item.unit.deps kind).filter fun cap => cap.name = name).map fun cap => ⟨cap, kind, item⟩

end Item

end PackagePool
