import PackagePool.Proofs.Config.RoundTrip

/-!
# Lock entries that cover nothing

A lock entry is alive if it can protect something: if there is a resolvable that it covers.  Kind,
edition and architecture never stand in the way, since a resolvable can have any of them.  The name
is compared as it stands, and the name of a resolvable is a word; so an entry is alive exactly if
its name is one (`LockEntry.isAlive_iff`).

Whatever the format of a configuration, the names are looked at when it is read, and less is asked
of them.  A name that is blank altogether is refused, and one that has a blank in it or around it is
taken.  The entry is dead then, and no error tells.  The main result, `accepted_lock_isAlive_iff`,
says which accepted entries these are, and that none of them is kept out.
-/

namespace PackagePool

open Text

/-- A word is accepted as the name of a resolvable. -/
theorem Resolvable.ofParts_of_isWord {name : String} (hname : IsWord name) (kind : Kind)
    (edition : Edition) (arch : Arch) :
    ofParts kind name edition arch = .ok ⟨kind, name, edition, arch, hname⟩ := by
  obtain ⟨hempty, hblank⟩ := isWord_iff.1 hname
  rw [ofParts, dif_neg hempty, dif_neg (by simp [hblank])]

namespace LockEntry

/-- There is a resolvable that the entry covers. -/
def IsAlive (l : LockEntry) : Prop :=
  ∃ kind name edition arch r, Resolvable.ofParts kind name edition arch = .ok r ∧ l.covers r = true

theorem covers_iff {l : LockEntry} {r : Resolvable} :
    l.covers r = true ↔ l.kind = r.kind ∧ l.name = r.name ∧
      (∀ e ∈ l.edition, (e == r.edition) = true) ∧ ∀ a ∈ l.arch, a = r.arch := by
  simp only [covers, Bool.and_eq_true, Option.all_eq_true, beq_iff_eq, and_assoc]
  rfl

theorem isAlive_iff {l : LockEntry} : l.IsAlive ↔ IsWord l.name := by
  constructor
  · rintro ⟨-, -, -, -, r, -, hcovers⟩
    rw [(covers_iff.1 hcovers).2.1]
    exact r.name_isWord
  · intro hname
    -- what the entry leaves open may be anything
    let edition := l.edition.getD ⟨0, "0", none, by decide⟩
    let arch := l.arch.getD .noarch
    refine ⟨l.kind, l.name, edition, arch, _, Resolvable.ofParts_of_isWord hname _ _ _, ?_⟩
    refine covers_iff.2 ⟨rfl, rfl, fun e he => ?_, fun a ha => ?_⟩
    · have hedition : edition = e := by simp [edition, Option.mem_def.1 he]
      rw [hedition]
      exact BEq.rfl
    · have harch : arch = a := by simp [arch, Option.mem_def.1 ha]
      exact harch.symm

/-- A name with a blank in it makes a dead entry. -/
theorem covers_eq_false {l : LockEntry} (hblank : hasBlank l.name = true) (r : Resolvable) :
    l.covers r = false := by
  rw [← Bool.not_eq_true, covers_iff]
  rintro ⟨-, hname, -⟩
  rw [hname, (isWord_iff.1 r.name_isWord).2] at hblank
  cases hblank

end LockEntry

namespace ConfigFormat

variable {format : ConfigFormat} {text : String} {c : PoolConfig}

theorem parse_eq_ok_iff :
    format.parse text = .ok c ↔ format.read text = .ok c ∧ c.namesLocks = true := by
  unfold parse
  cases format.read text with
  | error e => simp
  | ok config =>
    change (if config.namesLocks then Except.ok config else _) = _ ↔ _
    rw [Except.ok.injEq]
    split
    · rename_i hnames
      rw [Except.ok.injEq, and_iff_left_of_imp]
      rintro rfl
      exact hnames
    · rename_i hnames
      simp only [reduceCtorEq, false_iff, not_and]
      rintro rfl
      exact hnames

theorem trim_name_ne_empty_of_parse (h : format.parse text = .ok c) {l : LockEntry}
    (hl : l ∈ c.locks) : trim l.name ≠ "" :=
  bne_iff_ne.1 (List.all_eq_true.1 (parse_eq_ok_iff.1 h).2 l hl)

/-- **The dead entries of an accepted configuration are those with a blank in the name.**  This is
so in every format.  A name of this sort is not kept out unless it is blank altogether: in a
lossless format an entry of that name can be written, is accepted when it is read, and covers
nothing. -/
theorem accepted_lock_isAlive_iff (format : ConfigFormat) (l : LockEntry) :
    (∀ text c, format.parse text = .ok c → l ∈ c.locks →
      (l.IsAlive ↔ hasBlank l.name = false)) ∧
    (format.IsLossless → l.IsPlain → hasBlank l.name = true → trim l.name ≠ "" →
      ∃ read : LockEntry, read.name = l.name ∧
        format.parse (format.write (PoolConfig.record ⟨none, [l]⟩)) = .ok ⟨none, [read]⟩ ∧
        ∀ r, read.covers r = false) := by
  constructor
  · intro text c hparse hl
    have hname : l.name ≠ "" := by
      intro hempty
      exact trim_name_ne_empty_of_parse hparse hl (by rw [hempty]; rfl)
    rw [LockEntry.isAlive_iff, isWord_iff]
    exact and_iff_right hname
  · intro hlossless hplain hblank htrim
    let c : PoolConfig := ⟨none, [l]⟩
    have hnames : c.namesLocks = true :=
      List.all_eq_true.2 (List.forall_mem_singleton.2 (bne_iff_ne.2 htrim))
    refine ⟨l.trimmed, rfl, ?_, LockEntry.covers_eq_false hblank⟩
    rw [hlossless.parse_write (List.forall_mem_singleton.2 hplain)]
    exact if_pos hnames

/-- Both entries are accepted, and the one with a blank in front of its name covers nothing. -/
theorem accepted_lock_isAlive_iff_kernel :
    let alive : LockEntry := .package "kernel"
    let dead : LockEntry := .package " kernel"
    let text := toml.write (PoolConfig.record ⟨none, [alive]⟩)
    toml.parse text = .ok ⟨none, [alive]⟩ ∧ alive.IsAlive ∧ toml.IsLossless ∧ dead.IsPlain ∧
      hasBlank dead.name = true ∧ trim dead.name ≠ "" ∧
      ∃ read : LockEntry, read.name = dead.name ∧
        toml.parse (toml.write (PoolConfig.record ⟨none, [dead]⟩)) = .ok ⟨none, [read]⟩ ∧
        ∀ r, read.covers r = false := by
  intro alive dead text
  have halive : alive.IsPlain := LockEntry.isPlain_of_edition_eq_none (by decide) rfl
  have hdead : dead.IsPlain := LockEntry.isPlain_of_edition_eq_none (by decide) rfl
  have hparse : toml.parse text = .ok ⟨none, [alive]⟩ :=
    (toml_isLossless.parse_write (List.forall_mem_singleton.2 halive)).trans (if_pos (by decide))
  have hblank : hasBlank dead.name = true := by decide
  have htrim : trim dead.name ≠ "" := by decide
  exact ⟨hparse,
    ((accepted_lock_isAlive_iff toml alive).1 text _ hparse (List.mem_singleton_self _)).2
      (by decide),
    toml_isLossless, hdead, hblank, htrim,
    (accepted_lock_isAlive_iff toml dead).2 toml_isLossless hdead hblank htrim⟩

/-- No resolvable is called `two words`, and a lock on that name is accepted wherever it is read.
It is read from a document that says so. -/
theorem lock_on_two_words_is_dead :
    let document := "[[lock]]\nkind = \"package\"\nname = \"two words\"\n"
    let dead : LockEntry := .package "two words"
    toml.parse document = .ok ⟨none, [dead]⟩ ∧ ¬ dead.IsAlive ∧
      ∀ (format : ConfigFormat) (text : String), format.read text = .ok ⟨none, [dead]⟩ →
        format.parse text = .ok ⟨none, [dead]⟩ := by
  intro document dead
  have hword : ¬ dead.IsAlive := by
    intro halive
    exact absurd (isWord_iff.1 (LockEntry.isAlive_iff.1 halive)).2 (by decide)
  have haccepted : ∀ (format : ConfigFormat) (text : String),
      format.read text = .ok ⟨none, [dead]⟩ → format.parse text = .ok ⟨none, [dead]⟩ :=
    fun format text hread => parse_eq_ok_iff.2 ⟨hread, by decide⟩
  refine ⟨haccepted toml document ?_, hword, haccepted⟩
  have hplain : dead.IsPlain := LockEntry.isPlain_of_edition_eq_none (by decide) rfl
  have htext : document = toml.write (PoolConfig.record ⟨none, [dead]⟩) := by decide
  rw [htext]
  exact toml_isLossless _ _ (PoolConfig.isPlain_record (List.forall_mem_singleton.2 hplain))
    (PoolConfig.describes_record ⟨none, [dead]⟩)

end ConfigFormat

end PackagePool
