import PackagePool.Config.Basic

/-!
# Formats of configurations

A configuration is kept as a text.  What such a text holds is a record of strings: kinds and
architectures by their names, editions in their written forms, and the optional fields only if they
are there.

How a record is laid out as a text is left to a format (`ConfigFormat`), which writes records and
reads configurations.  Behind the reading, and whatever the format, the names of the locks are
looked at (`ConfigFormat.parse`): a text is refused if one of them is blank.
-/

namespace PackagePool

/-! ## Records -/

/-- A lock entry as it stands in a text. -/
structure LockRecord where
  kind : Option String
  name : String
  edition : Option String
  arch : Option String
  deriving DecidableEq, Repr

/-- A configuration as it stands in a text. -/
structure ConfigRecord where
  systemArch : Option String
  locks : List LockRecord
  deriving DecidableEq, Repr

/-- The record of a lock entry. -/
def LockEntry.record (l : LockEntry) : LockRecord :=
  ⟨some l.kind.name, l.name, l.edition.map Edition.render, l.arch.map Arch.name⟩

/-- The record of a configuration. -/
def PoolConfig.record (c : PoolConfig) : ConfigRecord :=
  ⟨c.systemArch.map Arch.name, c.locks.map LockEntry.record⟩

/-! ## Formats -/

/-- Why a configuration cannot be had, where a text may be refused for the reasons in `φ`. -/
inductive ConfigFault (φ : Type)
  | unreadable
  | document (cause : φ)
  | blankLockName
  deriving DecidableEq, Repr

/-- A way to keep configurations as texts. -/
structure ConfigFormat where
  /-- Why a text is refused. -/
  Fault : Type
  /-- The configuration in a text, lock names unchecked. -/
  read : String → Except Fault PoolConfig
  /-- The text of a record. -/
  write : ConfigRecord → String

/-- Whether every lock entry has a name that is not blank. -/
def PoolConfig.namesLocks (config : PoolConfig) : Bool :=
  config.locks.all fun lock => Text.trim lock.name != ""

namespace ConfigFormat

variable (format : ConfigFormat)

/-- Reads a configuration. -/
def parse (text : String) : Except (ConfigFault format.Fault) PoolConfig :=
  match format.read text with
  | .error e => .error (.document e)
  | .ok config => if config.namesLocks then .ok config else .error .blankLockName

/-- Reads a configuration from the content of a file; there is no content if there is no file. -/
def load (content : Option ByteArray) : Except (ConfigFault format.Fault) PoolConfig :=
  match content.bind String.fromUTF8? with
  | some text => format.parse text
  | none => .error .unreadable

/-- Reads a configuration from the content of a file, or takes the default one if there is no
file. -/
def loadOrDefault (content : Option ByteArray) : Except (ConfigFault format.Fault) PoolConfig :=
  if content.isNone then .ok .default else format.load content

end ConfigFormat

end PackagePool
