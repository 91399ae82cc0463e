import PackagePool.Text.Blank
import PackagePool.Text.Cut
import PackagePool.Text.Numeral
import PackagePool.Fingerprint

/-!
# Editions

An edition is written `[epoch:]version[-release]`.  The parts are kept as they were given, so that
the written form reads back to the same parts; `Edition.fault?` names what would prevent that, and
an edition carries the proof that it has no such fault.

There are two comparisons.  `Edition.compare` is the order of editions, in which a missing release
is below every release; equality and hashing follow it, so `1.01` and `1.1` are equal editions with
different parts.  `Edition.matchCompare` ignores the release unless both sides have one and is used
to match ranges.
-/

namespace PackagePool

open Text Version

/-- Why a text or its parts form no edition. -/
inductive EditionError
  | versionWithoutSegment (version : String)
  | releaseWithoutSegment (release : String)
  | versionWithColon (version : String)
  | versionWithDash (version : String)
  | releaseWithSeparator (release : String)
  | badEpoch (text : String) (cause : NumeralError)
  | emptyVersion (text : String)
  deriving DecidableEq, Repr

/-- The message shown to the user. -/
def EditionError.message (e : EditionError) : String :=
  "Invalid edition: " ++ match e with
    | versionWithoutSegment version => s!"version '{version}' has no alphanumeric segment"
    | releaseWithoutSegment release => s!"release '{release}' has no alphanumeric segment"
    | versionWithColon version => s!"version '{version}' contains the epoch separator ':'"
    | versionWithDash version => s!"version '{version}' contains '-' but has no release"
    | releaseWithSeparator release => s!"release '{release}' contains a separator"
    | badEpoch text cause => s!"Invalid epoch in edition '{text}': {cause.message}"
    | emptyVersion text => s!"Empty version component in '{text}'"

/-- The first reason why a version and a release form no edition.  Both need a segment; a version
with a colon would be read as an epoch, and the last dash is read as the start of the release. -/
def Edition.fault? (version : String) (release : Option String) : Option EditionError :=
  if !hasSegment version then some (.versionWithoutSegment version)
  else
    match release with
    | none =>
      if ':' ∈ version.toList then some (.versionWithColon version)
      else if '-' ∈ version.toList then some (.versionWithDash version)
      else none
    | some release =>
      if !hasSegment release then some (.releaseWithoutSegment release)
      else if ':' ∈ version.toList then some (.versionWithColon version)
      else if '-' ∈ release.toList ∨ ':' ∈ release.toList then some (.releaseWithSeparator release)
      else none

/-- An epoch, a version and possibly a release, free of faults. -/
structure Edition where
  epoch : UInt64
  version : String
  release : Option String
  faultless : Edition.fault? version release = none

namespace Edition

/-- The edition of the given parts. -/
def ofParts (epoch : UInt64) (version : String) (release : Option String) :
    Except EditionError Edition :=
  match h : fault? version release with
  | some fault => .error fault
  | none => .ok ⟨epoch, version, release, h⟩

/-- The epoch written before the first colon of `text`; nothing there stands for zero. -/
def readEpoch (text epoch : List Char) : Except EditionError UInt64 :=
  if epoch.isEmpty then .ok 0
  else
    match readWord epoch with
    | .ok value => .ok value
    | .error cause => .error (.badEpoch (String.ofList text) cause)

/-- Cuts `[epoch:]version[-release]` at the first colon and, behind it, at the last dash. -/
def cutParts (text : List Char) : List Char × List Char × Option (List Char) :=
  let (epoch, rest) := (cutFirst ':' text).getD ([], text)
  match cutLast '-' rest with
  | some (version, release) => (epoch, version, some release)
  | none => (epoch, rest, none)

/-- Reads an edition; blanks around it are ignored. -/
def parse (s : String) : Except EditionError Edition :=
  let text := trimChars s.toList
  let (epoch, version, release) := cutParts text
  match readEpoch text epoch with
  | .error e => .error e
  | .ok epoch =>
    if version.isEmpty then .error (.emptyVersion (String.ofList text))
    else ofParts epoch (String.ofList version) (release.map String.ofList)

/-- The written form: an epoch of zero is left out. -/
def render (e : Edition) : String :=
  (if e.epoch = 0 then "" else e.epoch.toNat.repr ++ ":") ++ e.version ++
    match e.release with
    | some release => "-" ++ release
    | none => ""

instance : ToString Edition := ⟨render⟩

/-- The order of optional releases: none is below every release. -/
def compareRelease : Option String → Option String → Ordering
  | none, none => .eq
  | none, some _ => .lt
  | some _, none => .gt
  | some a, some b => compareText a b

/-- The comparison of optional releases that treats a missing release as equal to any. -/
def matchRelease : Option String → Option String → Ordering
  | some a, some b => compareText a b
  | _, _ => .eq

/-- The order of editions. -/
def compare (a b : Edition) : Ordering :=
  ((Ord.compare a.epoch b.epoch).then (compareText a.version b.version)).then
    (compareRelease a.release b.release)

/-- The comparison that matches ranges: releases count only if both sides have one. -/
def matchCompare (a b : Edition) : Ordering :=
  ((Ord.compare a.epoch b.epoch).then (compareText a.version b.version)).then
    (matchRelease a.release b.release)

instance : Ord Edition := ⟨compare⟩

/-- Editions are equal if neither is newer, whatever their parts look like. -/
instance : BEq Edition := ⟨fun a b => a.compare b == .eq⟩

/-- The epoch, the segments of the version, and the segments of the release behind a flag that tells
whether there is one. -/
def fingerprint (e : Edition) : Fingerprint :=
  .word e.epoch :: (segments e.version).map .segment ++ .flag e.release.isSome ::
    (e.release.elim [] segments).map .segment

instance : Hashable Edition := ⟨fun e => hash e.fingerprint⟩

theorem beq_iff_compare {a b : Edition} : (a == b) = true ↔ a.compare b = .eq := by
  simp [BEq.beq]

/-- Editions with the same parts are the same. -/
theorem ext_parts {a b : Edition} (hepoch : a.epoch = b.epoch) (hversion : a.version = b.version)
    (hrelease : a.release = b.release) : a = b := by
  cases a; cases b; simp_all

end Edition

end PackagePool
