import PackagePool.Config.Format
import PackagePool.Toml.Document

/-!
# Configurations in TOML

One format for configurations is that of TOML documents with two optional keys: `system_arch`, and
`lock`, which is an array of tables.  The keys of a table are visited in the order of the document
and the first fault is reported; a missing name is only noticed after all keys of its table.

Two things may be written otherwise.  A name out of a list may be given as the one key of a table,
with an empty table as its value, and a lock entry as an array of its fields in their order.
-/

namespace PackagePool

open Toml (Value Entries)

/-- Why a text is no configuration document. -/
inductive DocumentError
  | notToml
  /-- A value is not of the type, or not of the length, that was asked for. -/
  | wrongType
  | unknownField (name : String) (expected : List String)
  | unknownVariant (name : String) (expected : List String)
  | missingField (name : String)
  | badEdition (cause : EditionError)
  deriving DecidableEq, Repr

namespace DocumentError

/-- A name in backquotes. -/
def quoted (name : String) : String :=
  "`" ++ name ++ "`"

/-- The names that would have been accepted, in words. -/
def alternatives : List String → String
  | [] => "nothing"
  | [a] => quoted a
  | [a, b] => quoted a ++ " or " ++ quoted b
  | names => "one of " ++ ", ".intercalate (names.map quoted)

/-- The message, for the faults that have a fixed one. -/
def message? : DocumentError → Option String
  | notToml | wrongType => none
  | unknownField name expected =>
    some s!"unknown field {quoted name}, expected {alternatives expected}"
  | unknownVariant name expected =>
    some s!"unknown variant {quoted name}, expected {alternatives expected}"
  | missingField name => some s!"missing field {quoted name}"
  | badEdition cause => some cause.message

end DocumentError

/-- Why a configuration cannot be had from a document. -/
abbrev ConfigError := ConfigFault DocumentError

/-- The message, for the faults that have a fixed one. -/
def ConfigError.message? : ConfigError → Option String
  | .unreadable => none
  | .document cause => cause.message?
  | .blankLockName => some "Configuration error: lock entry with empty name"

namespace ConfigDocument

/-! ## Single values -/

/-- A string. -/
def readString : Value → Except DocumentError String
  | .string s => .ok s
  | _ => .error .wrongType

/-- The value of exactly this name, out of a list of named values. -/
def variantOf {α : Type} (all : List α) (name : α → String) (s : String) :
    Except DocumentError α :=
  match all.find? fun a => name a == s with
  | some a => .ok a
  | none => .error (.unknownVariant s (all.map name))

/-- One of a list of named values.  Its name is a string, or a key with an empty table behind it. -/
def readVariant {α : Type} (all : List α) (name : α → String) :
    Value → Except DocumentError α
  | .string s => variantOf all name s
  | .table _ [(s, content)] =>
    match variantOf all name s, content with
    | .ok a, .table _ [] => .ok a
    | .ok _, _ => .error .wrongType
    | .error e, _ => .error e
  | _ => .error .wrongType

/-- An edition, given as a string. -/
def readEdition (value : Value) : Except DocumentError Edition :=
  match readString value with
  | .error e => .error e
  | .ok s => (Edition.parse s).mapError .badEdition

/-! ## Lock entries -/

/-- The keys of a lock entry. -/
def lockFields : List String :=
  ["kind", "name", "edition", "arch"]

/-- A lock entry whose name may still be missing. -/
structure LockDraft where
  kind : Kind := .package
  name : Option String := none
  edition : Option Edition := none
  arch : Option Arch := none

/-- Takes in one key of a lock table. -/
def LockDraft.add (draft : LockDraft) : String × Value → Except DocumentError LockDraft
  | ("kind", value) => (readVariant Kind.all Kind.name value).map ({ draft with kind := · })
  | ("name", value) => (readString value).map ({ draft with name := some · })
  | ("edition", value) => (readEdition value).map ({ draft with edition := some · })
  | ("arch", value) =>
    (readVariant Arch.all Arch.name value).map ({ draft with arch := some · })
  | (key, _) => .error (.unknownField key lockFields)

/-- The lock entry, once its name is known. -/
def LockDraft.finish (draft : LockDraft) : Except DocumentError LockEntry :=
  match draft.name with
  | some name => .ok ⟨draft.kind, name, draft.edition, draft.arch⟩
  | none => .error (.missingField "name")

/-- A lock entry, given as a table. -/
def readLock (entries : Entries) : Except DocumentError LockEntry :=
  (entries.foldlM LockDraft.add {}).bind LockDraft.finish

/-- The key that a date or time has when it is looked at as a table. -/
def dateTimeField : String :=
  "$__toml_private_datetime"

/-- A lock entry, given as an array.  Its items are the fields in their order; those at the end may
be left out, and items behind the last field are not looked at. -/
def readLockItems (items : List Value) : Except DocumentError LockEntry :=
  match (lockFields.zip items).foldlM LockDraft.add {} with
  | .error e => .error e
  | .ok draft => draft.finish.mapError fun _ => .wrongType

/-- An item of a lock list that is written as an array. -/
def readLockItem : Value → Except DocumentError LockEntry
  | .table _ entries => readLock entries
  | .array items => readLockItems items
  | .dateTime _ => .error (.unknownField dateTimeField lockFields)
  | _ => .error .wrongType

/-- The lock list. -/
def readLocks : Value → Except DocumentError (List LockEntry)
  | .tables elements => elements.mapM readLock
  | .array items => items.mapM readLockItem
  | _ => .error .wrongType

/-! ## Documents -/

/-- The keys of a configuration. -/
def fields : List String :=
  ["system_arch", "lock"]

/-- Takes in one key of the document. -/
def addField (config : PoolConfig) : String × Value → Except DocumentError PoolConfig
  | ("system_arch", value) =>
    (readVariant Arch.all Arch.name value).map ({ config with systemArch := some · })
  | ("lock", value) => (readLocks value).map ({ config with locks := · })
  | (key, _) => .error (.unknownField key fields)

/-- The configuration that a document says, lock names unchecked. -/
def ofEntries (entries : Entries) : Except DocumentError PoolConfig :=
  entries.foldlM addField .default

/-- The configuration in a document, lock names unchecked. -/
def read (text : String) : Except DocumentError PoolConfig :=
  match Toml.parse text with
  | none => .error .notToml
  | some entries => ofEntries entries

end ConfigDocument

end PackagePool
