import PackagePool.Config.Render
import PackagePool.Proofs.Config.Lines
import PackagePool.Proofs.Config.Lossless
import PackagePool.Proofs.Toml.Blocks

/-!
# TOML documents lose nothing

The text that is written for a record is a document whose entries are those of the record
(`parse_render`): the architecture if there is one, and the lock list, which is an empty array or an
array of tables.  These entries are decoded to the configuration that the record describes.  So
TOML documents are a lossless format (`ConfigFormat.toml_isLossless`), and need no plain strings for
it, since what cannot stand for itself is escaped.
-/

namespace PackagePool

open Toml (Value Statement Entries Reads blockStatements)

namespace ConfigDocument

/-! ## Single values -/

theorem readVariant_kind {text : String} {k : Kind} (h : Kind.ofName? text = some k) :
    readVariant Kind.all Kind.name (.string text) = .ok k := by
  have hfound : (Kind.all.find? fun other => other.name == text) = some k := h
  simp only [readVariant, variantOf, hfound]

theorem readVariant_arch {text : String} {a : Arch} (h : Arch.ofName? text = some a) :
    readVariant Arch.all Arch.name (.string text) = .ok a := by
  have hfound : (Arch.all.find? fun other => other.name == text) = some a := h
  simp only [readVariant, variantOf, hfound]

theorem readEdition_string {text : String} {e : Edition} (h : Edition.parse text = .ok e) :
    readEdition (.string text) = .ok e := by
  simp only [readEdition, readString, h]
  rfl

/-! ## Lock entries -/

/-- The table that is written for a lock entry. -/
def lockEntries (d : LockRecord) : Entries :=
  (lockPairs d).map fun pair => (pair.1, .string pair.2)

theorem keys_sublist (d : LockRecord) : ((lockPairs d).map Prod.fst).Sublist lockFields := by
  obtain ⟨kind, name, edition, arch⟩ := d
  cases kind <;> cases edition <;> cases arch <;> simp [lockPairs, lockFields]

theorem isBareKey_of_mem_lockPairs {d : LockRecord} {pair : String × String}
    (h : pair ∈ lockPairs d) : Toml.IsBareKey pair.1 := by
  have hall : ∀ name ∈ lockFields, Toml.IsBareKey name := by decide
  exact hall pair.1 ((keys_sublist d).subset (List.mem_map_of_mem h))

theorem nodup_keys_lockEntries (d : LockRecord) : ((lockEntries d).map Prod.fst).Nodup := by
  have hall : lockFields.Nodup := by decide
  rw [lockEntries, List.map_map]
  exact hall.sublist (keys_sublist d)

theorem toList_renderLock (d : LockRecord) :
    (renderLock d).toList =
      ("[[" ++ "lock" ++ "]]\n").toList ++
        (lockPairs d).flatMap fun pair => (renderField pair.1 pair.2).toList := by
  rw [renderLock, String.toList_append, String.toList_join, List.flatMap_map]
  rfl

theorem reads_renderLock (d : LockRecord) {rest : List Char} {list : List Statement}
    (hrest : Reads rest list) :
    Reads ((renderLock d).toList ++ rest)
      (blockStatements "lock" (lockEntries d) ++ list) := by
  rw [toList_renderLock, List.append_assoc, blockStatements, lockEntries, List.map_map]
  exact (hrest.fields fun pair => isBareKey_of_mem_lockPairs).header (by decide)

theorem lockEntries_eq (d : LockRecord) :
    lockEntries d =
      (d.kind.toList.map fun text => ("kind", Value.string text)) ++ ("name", .string d.name) ::
        ((d.edition.toList.map fun text => ("edition", Value.string text)) ++
          d.arch.toList.map fun text => ("arch", Value.string text)) := by
  obtain ⟨kind, name, edition, arch⟩ := d
  cases kind <;> cases edition <;> cases arch <;> rfl

/-- A key that may be left out sets its field if it is there. -/
theorem foldlM_add_toList {β : Type} {r : String → β → Prop} (key : String)
    (set : LockDraft → β → LockDraft)
    (hadd : ∀ {text b}, r text b → ∀ draft : LockDraft,
      draft.add (key, .string text) = .ok (set draft b))
    {text : Option String} {b : Option β} (hrel : Option.Rel r text b) (draft : LockDraft) :
    (text.toList.map fun text => (key, Value.string text)).foldlM LockDraft.add draft =
      .ok (b.elim draft (set draft)) := by
  cases hrel with
  | none => rfl
  | some h =>
    rw [Option.toList_some, List.map_singleton, List.foldlM_cons, hadd h]
    rfl

/-- The table of a record is read as the entry that the record describes. -/
theorem readLock_lockEntries {d : LockRecord} {l : LockEntry} (h : d.Describes l) :
    readLock (lockEntries d) = .ok l := by
  obtain ⟨kind, name, edition, arch⟩ := l
  obtain ⟨hkind, hname, hedition, harch⟩ := h
  obtain rfl : d.name = name := hname
  have hkinds : (d.kind.toList.map fun text => ("kind", Value.string text)).foldlM
      LockDraft.add {} = .ok { kind } := by
    cases hd : d.kind with
    | none =>
      rw [hd] at hkind
      obtain rfl := Option.some.inj hkind
      rfl
    | some text =>
      rw [hd] at hkind
      rw [Option.toList_some, List.map_singleton, List.foldlM_cons, LockDraft.add,
        readVariant_kind hkind]
      rfl
  have heditions := foldlM_add_toList "edition" (fun draft e => { draft with edition := some e })
    (fun h draft => by rw [LockDraft.add, readEdition_string h]; rfl) hedition
  have harchs := foldlM_add_toList "arch" (fun draft a => { draft with arch := some a })
    (fun h draft => by rw [LockDraft.add, readVariant_arch h]; rfl) harch
  have hnames : ∀ draft : LockDraft, draft.add ("name", .string d.name) =
      .ok { draft with name := some d.name } := fun draft => rfl
  simp only [readLock, lockEntries_eq, List.foldlM_append, List.foldlM_cons, hkinds, hnames,
    heditions, harchs, bind, Except.bind]
  cases edition <;> cases arch <;> rfl

/-! ## Documents -/

/-- The entries in front of the lock list. -/
def front (d : ConfigRecord) : Entries :=
  d.systemArch.toList.map fun text => ("system_arch", .string text)

/-- The lock list as a value: an empty array, or an array of tables. -/
def lockValue (d : ConfigRecord) : Value :=
  if d.locks.isEmpty then .array [] else .tables (d.locks.map lockEntries)

/-- The document that is written for a record. -/
def document (d : ConfigRecord) : Entries :=
  front d ++ [("lock", lockValue d)]

/-- The blocks of lock entries, set off from each other by empty lines, are read one by one. -/
theorem reads_blocks (d : LockRecord) (locks : List LockRecord) :
    Reads ("\n".intercalate ((d :: locks).map renderLock)).toList
      ((d :: locks).flatMap fun d => blockStatements "lock" (lockEntries d)) := by
  induction locks generalizing d with
  | nil =>
    have hlast := reads_renderLock d Reads.nil
    rw [List.append_nil] at hlast
    simpa using hlast
  | cons next locks ih =>
    have htext : ("\n".intercalate ((d :: next :: locks).map renderLock)).toList =
        (renderLock d).toList ++
          '\n' :: ("\n".intercalate ((next :: locks).map renderLock)).toList := by
      simp [String.toList_intercalate]
    rw [htext, List.flatMap_cons]
    exact reads_renderLock d (ih next).emptyLine

/-- The lock list, behind the line of the architecture. -/
def renderLocks (d : ConfigRecord) : String :=
  if d.locks.isEmpty then "lock = []\n"
  else (if d.systemArch.isSome then "\n" else "") ++ "\n".intercalate (d.locks.map renderLock)

/-- The statements of the lock list. -/
def lockStatements (d : ConfigRecord) : List Statement :=
  if d.locks.isEmpty then [.assign ["lock"] (.array [])]
  else d.locks.flatMap fun d => blockStatements "lock" (lockEntries d)

theorem reads_renderLocks (d : ConfigRecord) : Reads (renderLocks d).toList (lockStatements d) := by
  obtain ⟨systemArch, locks⟩ := d
  cases locks with
  | nil =>
    have hempty : Reads (("lock" ++ " = []\n").toList ++ []) [.assign ["lock"] (.array [])] :=
      Reads.nil.emptyArray (by decide)
    simpa [renderLocks, lockStatements] using hempty
  | cons l locks =>
    have hblocks := reads_blocks l locks
    cases systemArch with
    | none => simpa [renderLocks, lockStatements] using hblocks
    | some a => simpa [renderLocks, lockStatements] using hblocks.emptyLine

theorem render_eq (d : ConfigRecord) : render d = renderArch d ++ renderLocks d := by
  unfold render renderLocks
  split
  · rfl
  · rw [String.append_assoc]

/-- The statement of the architecture. -/
def archStatements (d : ConfigRecord) : List Statement :=
  (front d).map fun entry => .assign [entry.1] entry.2

theorem reads_render (d : ConfigRecord) :
    Reads (render d).toList (archStatements d ++ lockStatements d) := by
  have hlocks := reads_renderLocks d
  rw [render_eq, String.toList_append]
  unfold renderArch archStatements front
  cases d.systemArch with
  | none => exact hlocks
  | some text => exact hlocks.field (by decide) text

theorem lookup_lock_front (d : ConfigRecord) : (front d).lookup "lock" = none := by
  unfold front
  cases d.systemArch <;> rfl

theorem foldlM_archStatements (d : ConfigRecord) :
    (archStatements d).foldlM Toml.Draft.add ⟨[], []⟩ = some ⟨front d, []⟩ := by
  unfold archStatements front
  cases d.systemArch with
  | none => rfl
  | some text => exact Toml.add_assign_root List.lookup_nil _

/-- What is written for a record is read as the document with its entries. -/
theorem parse_render (d : ConfigRecord) : Toml.parse (render d) = some (document d) := by
  rw [Toml.parse_of_reads (reads_render d), Toml.build, List.foldlM_append, foldlM_archStatements]
  change ((lockStatements d).foldlM Toml.Draft.add ⟨front d, []⟩).map Toml.Draft.root = _
  unfold lockStatements document lockValue
  split
  · rw [List.foldlM_cons, Toml.add_assign_root (lookup_lock_front d)]
    rfl
  · rename_i hlocks
    have hdistinct : ∀ entries ∈ d.locks.map lockEntries, (entries.map Prod.fst).Nodup := by
      intro entries hentries
      obtain ⟨l, -, rfl⟩ := List.mem_map.1 hentries
      exact nodup_keys_lockEntries l
    have hblocks := @Toml.foldlM_blocks "lock" (front d) [] (lookup_lock_front d) _ hdistinct []
    have hne : d.locks.map lockEntries ≠ [] := by simpa using hlocks
    rw [List.flatMap_map, List.nil_append, Toml.withTables_of_ne_nil hne] at hblocks
    exact hblocks

/-! ## The configuration of a document -/

theorem mapM_readLock {records : List LockRecord} {locks : List LockEntry}
    (h : List.Forall₂ LockRecord.Describes records locks) :
    (records.map lockEntries).mapM readLock = .ok locks := by
  induction h with
  | nil => rfl
  | cons hfirst _ ih =>
    rw [List.map_cons, List.mapM_cons, readLock_lockEntries hfirst, ih]
    rfl

/-- The lock list is decoded whichever way it was written. -/
theorem addField_lockValue {d : ConfigRecord} {c : PoolConfig} (h : d.Describes c)
    (draft : PoolConfig) :
    addField draft ("lock", lockValue d) = .ok { draft with locks := c.locks } := by
  have hread := mapM_readLock h.locks_rel
  unfold lockValue
  split
  · rename_i hlocks
    rw [List.isEmpty_iff.1 hlocks] at hread
    rw [← Except.ok.inj hread]
    rfl
  · simp only [addField, readLocks, hread]
    rfl

theorem foldlM_front {d : ConfigRecord} {c : PoolConfig} (h : d.Describes c) :
    (front d).foldlM addField .default = .ok ⟨c.systemArch, []⟩ := by
  have harch := h.systemArch_rel
  unfold front
  generalize d.systemArch = text, c.systemArch = arch at harch
  cases harch with
  | none => rfl
  | some harch =>
    rw [Option.toList_some, List.map_singleton, List.foldlM_cons, addField, readVariant_arch harch]
    rfl

/-- The document of a record is decoded to the configuration that the record describes. -/
theorem ofEntries_document {d : ConfigRecord} {c : PoolConfig} (h : d.Describes c) :
    ofEntries (document d) = .ok c := by
  rw [ofEntries, document, List.foldlM_append, foldlM_front h]
  change [("lock", lockValue d)].foldlM addField ⟨c.systemArch, []⟩ = _
  rw [List.foldlM_cons, addField_lockValue h]
  rfl

theorem read_render {d : ConfigRecord} {c : PoolConfig} (h : d.Describes c) :
    read (render d) = .ok c := by
  rw [read, parse_render]
  exact ofEntries_document h

end ConfigDocument

theorem ConfigFormat.toml_isLossless : toml.IsLossless :=
  fun _ _ _ => ConfigDocument.read_render

end PackagePool
