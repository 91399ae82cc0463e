import Mathlib.Data.List.Forall2
import PackagePool.Config.Format
import PackagePool.Proofs.Resolvable.Order
import PackagePool.Proofs.Version.RoundTrip

/-!
# Lossless formats

What a text holds is a record, and what a record stands for is a configuration
(`ConfigRecord.Describes`).  All that is asked of a format is that its texts lose nothing of their
records, and only where no string needs an escape: `ConfigFormat.IsLossless`.

The way from a configuration to its record and back is not without loss.  An edition goes through
its written form, and is read without the blanks at the ends of that form.  So the record of a
configuration describes the configuration `PoolConfig.trimmed`, whose editions have lost these
blanks.  It is equal to the one that was written, since the comparison of editions does not see
blanks.
-/

namespace PackagePool

/-! ## Plain strings -/

namespace Text

/-- The character may stand for itself between double quotes.  Quotes, backslashes and the control
characters of ASCII other than the tab may not. -/
def isPlainChar (c : Char) : Bool :=
  c != '"' && c != '\\' && (c == '\t' || (0x20 ≤ c.toNat && c.toNat != 0x7F))

/-- No character of the string needs an escape between double quotes. -/
def isPlain (s : String) : Bool :=
  s.toList.all isPlainChar

end Text

open Text

theorem Kind.isPlain_name (k : Kind) : isPlain k.name = true := by
  cases k <;> decide

theorem Arch.isPlain_name (a : Arch) : isPlain a.name = true := by
  cases a <;> decide

/-! ## What a record says -/

namespace LockRecord

/-- The strings that are there. -/
def texts (d : LockRecord) : List String :=
  d.kind.toList ++ d.name :: (d.edition.toList ++ d.arch.toList)

/-- The record stands for the entry.  Kind and architecture are given by their exact names, and a
kind that is left out is `package`; the edition is read. -/
structure Describes (d : LockRecord) (l : LockEntry) : Prop where
  kind_eq : d.kind.elim (some .package) Kind.ofName? = some l.kind
  name_eq : d.name = l.name
  edition_rel : Option.Rel (fun text e => Edition.parse text = .ok e) d.edition l.edition
  arch_rel : Option.Rel (fun text a => Arch.ofName? text = some a) d.arch l.arch

end LockRecord

namespace ConfigRecord

/-- The strings that are there. -/
def texts (d : ConfigRecord) : List String :=
  d.systemArch.toList ++ d.locks.flatMap LockRecord.texts

/-- None of the strings needs an escape. -/
def IsPlain (d : ConfigRecord) : Prop :=
  ∀ text ∈ d.texts, isPlain text = true

/-- The record stands for the configuration, entry by entry. -/
structure Describes (d : ConfigRecord) (c : PoolConfig) : Prop where
  systemArch_rel : Option.Rel (fun text a => Arch.ofName? text = some a) d.systemArch c.systemArch
  locks_rel : List.Forall₂ LockRecord.Describes d.locks c.locks

end ConfigRecord

/-- What is written for a record of plain strings is read as the configuration that the record
describes. -/
def ConfigFormat.IsLossless (format : ConfigFormat) : Prop :=
  ∀ (d : ConfigRecord) (c : PoolConfig), d.IsPlain → d.Describes c →
    format.read (format.write d) = .ok c

/-! ## The records of configurations -/

theorem Arch.rel_name (arch : Option Arch) :
    Option.Rel (fun text a => ofName? text = some a) (arch.map name) arch := by
  cases arch with
  | none => exact .none
  | some a => exact .some a.ofName?_name

namespace LockEntry

/-- The name and the written form of the edition need no escape. -/
def IsPlain (l : LockEntry) : Prop :=
  isPlain l.name = true ∧ ∀ e ∈ l.edition, isPlain e.render = true

/-- An entry without an edition is plain if its name is. -/
theorem isPlain_of_edition_eq_none {l : LockEntry} (hname : isPlain l.name = true)
    (hedition : l.edition = none) : l.IsPlain :=
  ⟨hname, by simp [hedition]⟩

/-- The lock entry without the blanks at the ends of its edition. -/
def trimmed (l : LockEntry) : LockEntry :=
  { l with edition := l.edition.map Edition.trimmed }

theorem trimmed_beq (l : LockEntry) : (l.trimmed == l) = true := by
  refine beq_iff.2 ⟨rfl, rfl, ?_, rfl⟩
  unfold trimmed
  cases l.edition with
  | none => rfl
  | some e => exact Edition.beq_iff_compare.2 e.compare_trimmed

theorem describes_record (l : LockEntry) : l.record.Describes l.trimmed where
  kind_eq := l.kind.ofName?_name
  name_eq := rfl
  edition_rel := by
    unfold record trimmed
    cases l.edition with
    | none => exact .none
    | some e => exact .some e.parse_render
  arch_rel := Arch.rel_name l.arch

theorem IsPlain.texts_record {l : LockEntry} (h : l.IsPlain) :
    ∀ text ∈ l.record.texts, isPlain text = true := by
  simp only [record, LockRecord.texts, List.mem_append, List.mem_cons, Option.mem_toList,
    Option.map_eq_some_iff, Option.some.injEq]
  rintro text (rfl | rfl | ⟨e, he, rfl⟩ | ⟨a, -, rfl⟩)
  · exact l.kind.isPlain_name
  · exact h.1
  · exact h.2 e he
  · exact a.isPlain_name

end LockEntry

namespace PoolConfig

/-- The configuration without the blanks at the ends of its editions. -/
def trimmed (c : PoolConfig) : PoolConfig :=
  { c with locks := c.locks.map LockEntry.trimmed }

theorem trimmed_beq (c : PoolConfig) : (c.trimmed == c) = true := by
  have hlocks : (c.locks.map LockEntry.trimmed == c.locks) = true := by
    induction c.locks with
    | nil => rfl
    | cons l locks ih => exact Bool.and_eq_true_iff.2 ⟨l.trimmed_beq, ih⟩
  exact Bool.and_eq_true_iff.2 ⟨BEq.rfl, hlocks⟩

theorem namesLocks_trimmed (c : PoolConfig) : c.trimmed.namesLocks = c.namesLocks := by
  simp only [namesLocks, trimmed, List.all_map]
  rfl

theorem describes_record (c : PoolConfig) : c.record.Describes c.trimmed where
  systemArch_rel := Arch.rel_name c.systemArch
  locks_rel := by
    rw [record, trimmed, List.forall₂_map_left_iff, List.forall₂_map_right_iff]
    exact List.forall₂_same.2 fun l _ => l.describes_record

theorem isPlain_record {c : PoolConfig} (h : ∀ l ∈ c.locks, l.IsPlain) : c.record.IsPlain := by
  simp only [record, ConfigRecord.IsPlain, ConfigRecord.texts, List.mem_append,
    Option.mem_toList, Option.map_eq_some_iff, List.flatMap_map, List.mem_flatMap]
  rintro text (⟨a, -, rfl⟩ | ⟨l, hl, htext⟩)
  · exact a.isPlain_name
  · exact (h l hl).texts_record text htext

end PoolConfig

/-- A configuration that is written in a lossless format is read without the blanks at the ends of
its editions, unless one of its locks has a blank name. -/
theorem ConfigFormat.IsLossless.parse_write {format : ConfigFormat} (h : format.IsLossless)
    {c : PoolConfig} (hplain : ∀ l ∈ c.locks, l.IsPlain) :
    format.parse (format.write c.record) =
      if c.namesLocks then .ok c.trimmed else .error .blankLockName := by
  rw [parse, h _ _ (PoolConfig.isPlain_record hplain) c.describes_record]
  simp only [PoolConfig.namesLocks_trimmed]

end PackagePool
