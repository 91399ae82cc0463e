import PackagePool.Config.Decode

/-!
# Writing configurations in TOML

A record is written as an optional line for the system architecture, then `lock = []` if there are
no locks, and otherwise a block with the header `[[lock]]` for each, set off by an empty line from
what stands before it.  Strings are written in double quotes.

With the reader this makes a format, `ConfigFormat.toml`; configurations are read and written in it
where no other format is named.
-/

namespace PackagePool

namespace ConfigDocument

/-- A hexadecimal digit of a number below sixteen. -/
def hexDigit (n : Nat) : Char :=
  Char.ofNat (if n < 10 then '0'.toNat + n else 'A'.toNat + (n - 10))

/-- A character in double quotes.  Quotes, backslashes and control characters are escaped. -/
def quoteChar (c : Char) : List Char :=
  if c = '"' then ['\\', '"']
  else if c = '\\' then ['\\', '\\']
  else if c.toNat < 0x20 ∨ c.toNat = 0x7F then
    ['\\', 'u', '0', '0', hexDigit (c.toNat / 16), hexDigit (c.toNat % 16)]
  else [c]

/-- A string in double quotes. -/
def quote (s : String) : String :=
  "\"" ++ String.ofList (s.toList.flatMap quoteChar) ++ "\""

/-- One line that gives a key a string. -/
def renderField (key value : String) : String :=
  key ++ " = " ++ quote value ++ "\n"

/-- The keys of a lock entry that are written, with their strings. -/
def lockPairs (d : LockRecord) : List (String × String) :=
  [("kind", d.kind), ("name", some d.name), ("edition", d.edition), ("arch", d.arch)].filterMap
    fun (key, text) => text.map (key, ·)

/-- The block of a lock entry. -/
def renderLock (d : LockRecord) : String :=
  "[[lock]]\n" ++ String.join ((lockPairs d).map fun (key, text) => renderField key text)

/-- The line of the system architecture. -/
def renderArch (d : ConfigRecord) : String :=
  d.systemArch.elim "" (renderField "system_arch")

/-- The document of a record. -/
def render (d : ConfigRecord) : String :=
  if d.locks.isEmpty then renderArch d ++ "lock = []\n"
  else
    let gap := if d.systemArch.isSome then "\n" else ""
    renderArch d ++ gap ++ "\n".intercalate (d.locks.map renderLock)

end ConfigDocument

/-- The format of TOML documents. -/
def ConfigFormat.toml : ConfigFormat where
  Fault := DocumentError
  read := ConfigDocument.read
  write := ConfigDocument.render

namespace PoolConfig

/-- Reads a configuration from a document. -/
def parse (text : String) : Except ConfigError PoolConfig :=
  ConfigFormat.toml.parse text

/-- Reads a configuration from the content of a file; there is no content if there is no file. -/
def load (content : Option ByteArray) : Except ConfigError PoolConfig :=
  ConfigFormat.toml.load content

/-- Reads a configuration from the content of a file, or takes the default one if there is no
file. -/
def loadOrDefault (content : Option ByteArray) : Except ConfigError PoolConfig :=
  ConfigFormat.toml.loadOrDefault content

/-- The document of a configuration. -/
def render (c : PoolConfig) : String :=
  ConfigFormat.toml.write c.record

instance : ToString PoolConfig := ⟨render⟩

end PoolConfig

end PackagePool
