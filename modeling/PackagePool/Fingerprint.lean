import PackagePool.Version.Segment

/-!
# Fingerprints

Values with an equality coarser than "same parts" are hashed through a fingerprint: the sequence of
values that the hash reads.  Equal values have equal fingerprints, so a fingerprint says for two
values whether a hash can tell them apart, whatever the hash function is.
-/

namespace PackagePool

/-- One value that a hash reads. -/
inductive Fingerprint.Atom
  | word (value : UInt64)
  | flag (value : Bool)
  | ordinal (value : Nat)
  | text (value : String)
  | segment (value : Version.Segment)
  deriving DecidableEq, Repr, Hashable

/-- The sequence of values that a hash reads. -/
abbrev Fingerprint :=
  List Fingerprint.Atom

end PackagePool
