import PackagePool.Capability.Outcome
import PackagePool.Version.Edition
import PackagePool.Version.RelOp

/-!
# Capabilities

A capability is a name with an optional range: `bash`, or `bash >= 5.1`.  The name is a word, and
the operator of a range is one of `=`, `<`, `<=`, `>` and `>=`; a capability carries the proof of
both.

`Capability.satisfiedBy` reads its first argument as a requirement and its second as something that
is provided.  A provided range is taken as the single edition it names, so its operator plays no
role.  If only one of the two has a range, the outcome is maybe.
-/

namespace PackagePool

open Text

/-- The operators that may qualify a capability. -/
def RelOp.qualifies : RelOp → Bool
  | .any | .ne => false
  | _ => true

/-- Why a text or its parts form no capability. -/
inductive CapabilityError
  | empty
  | emptyName
  | blankInName (name : String)
  | badQualifier (op : RelOp) (name : String)
  | badOperator (op text : String)
  | badEdition (text : String) (cause : EditionError)
  | badShape (text : String)
  deriving DecidableEq, Repr

/-- The message shown to the user. -/
def CapabilityError.message (e : CapabilityError) : String :=
  "Invalid capability: " ++ match e with
    | empty => "empty capability"
    | emptyName => "empty capability name"
    | blankInName name => s!"capability name '{name}' contains whitespace"
    | badQualifier op name => s!"'{op.symbol}' is not a valid qualifier for '{name}'"
    | badOperator op text => s!"bad operator '{op}' in '{text}'"
    | badEdition text cause => s!"bad edition in '{text}': {cause.message}"
    | badShape text => s!"expected 'name [op edition]', got '{text}'"

/-- The range of a versioned capability. -/
structure Capability.Range where
  op : RelOp
  edition : Edition
  qualifies : op.qualifies = true

/-- A named thing that units provide, require, conflict with, and so on. -/
structure Capability where
  name : String
  range : Option Capability.Range
  name_isWord : IsWord name

namespace Capability

/-- Capabilities with the same name and range are the same. -/
theorem ext_parts {a b : Capability} (hname : a.name = b.name) (hrange : a.range = b.range) :
    a = b := by
  cases a; cases b; simp_all

/-- The first reason why a text is no capability name. -/
def nameFault? (name : String) : Option CapabilityError :=
  if name = "" then some .emptyName
  else if hasBlank name then some (.blankInName name)
  else none

theorem isWord_of_nameFault? {name : String} (h : nameFault? name = none) : IsWord name := by
  unfold nameFault? at h
  by_cases hempty : name = ""
  · simp [hempty] at h
  · by_cases hblank : hasBlank name = true
    · simp [hempty, hblank] at h
    · exact isWord_iff.2 ⟨hempty, by simpa using hblank⟩

theorem nameFault?_of_isWord {name : String} (h : IsWord name) : nameFault? name = none := by
  obtain ⟨hne, hblank⟩ := isWord_iff.1 h
  simp [nameFault?, hne, hblank]

/-- The capability of any edition. -/
def unversioned (name : String) : Except CapabilityError Capability :=
  match h : nameFault? name with
  | some fault => .error fault
  | none => .ok ⟨name, none, isWord_of_nameFault? h⟩

/-- The capability qualified by an operator and an edition. -/
def versioned (name : String) (op : RelOp) (edition : Edition) :
    Except CapabilityError Capability :=
  match h : nameFault? name with
  | some fault => .error fault
  | none =>
    if hop : op.qualifies = true then
      .ok ⟨name, some ⟨op, edition, hop⟩, isWord_of_nameFault? h⟩
    else .error (.badQualifier op name)

/-- Every word can be qualified. -/
theorem exists_versioned {name : String} (hname : IsWord name) {op : RelOp}
    (hop : op.qualifies = true) (e : Edition) : ∃ c, versioned name op e = .ok c := by
  unfold versioned
  split
  · rename_i fault hfault
    rw [nameFault?_of_isWord hname] at hfault
    cases hfault
  · exact ⟨_, dif_pos hop⟩

/-- A qualified name has the parts it was given. -/
theorem parts_of_versioned {name : String} {op : RelOp} {e : Edition} {c : Capability}
    (h : versioned name op e = .ok c) :
    c.name = name ∧ ∃ hop, c.range = some ⟨op, e, hop⟩ := by
  unfold versioned at h
  split at h
  · cases h
  · split at h
    · rename_i hop
      obtain rfl := Except.ok.inj h
      exact ⟨rfl, hop, rfl⟩
    · cases h

theorem versioned_eq_ok_iff {name : String} {op : RelOp} {e : Edition} {c : Capability} :
    versioned name op e = .ok c ↔ c.name = name ∧ ∃ hop, c.range = some ⟨op, e, hop⟩ := by
  constructor
  · exact parts_of_versioned
  · rintro ⟨rfl, hop, hrange⟩
    obtain ⟨d, hd⟩ := exists_versioned c.name_isWord hop e
    obtain ⟨hname, hop', hrange'⟩ := parts_of_versioned hd
    rw [hd, ext_parts hname (hrange'.trans hrange.symm)]

/-- An operator that may not qualify a capability is refused. -/
theorem versioned_of_not_qualifies {name : String} (hname : IsWord name) {op : RelOp}
    (hop : op.qualifies = false) (e : Edition) :
    versioned name op e = .error (.badQualifier op name) := by
  unfold versioned
  split
  · rename_i fault hfault
    rw [nameFault?_of_isWord hname] at hfault
    cases hfault
  · exact dif_neg (by simp [hop])

theorem unversioned_eq_ok_iff {name : String} {c : Capability} :
    unversioned name = .ok c ↔ c.name = name ∧ c.range = none := by
  unfold unversioned
  split
  · rename_i fault hfault
    have hname : c.name ≠ name := by
      rintro rfl
      rw [nameFault?_of_isWord c.name_isWord] at hfault
      cases hfault
    simp [hname]
  · constructor
    · intro h
      obtain rfl := Except.ok.inj h
      exact ⟨rfl, rfl⟩
    · rintro ⟨hname, hrange⟩
      exact congrArg Except.ok (ext_parts hname.symm hrange.symm)

/-- Every word names a capability. -/
theorem exists_unversioned {name : String} (hname : IsWord name) :
    ∃ c, unversioned name = .ok c :=
  ⟨⟨name, none, hname⟩, unversioned_eq_ok_iff.2 ⟨rfl, rfl⟩⟩

/-- Reads a name, or a name, an operator and an edition, with blanks between them. -/
def parse (s : String) : Except CapabilityError Capability :=
  match fields s with
  | [] => .error .empty
  | [name] => unversioned name
  | [name, op, edition] =>
    match RelOp.parse op with
    | .error _ => .error (.badOperator op s)
    | .ok rel =>
      match Edition.parse edition with
      | .error cause => .error (.badEdition s cause)
      | .ok edition => versioned name rel edition
  | _ => .error (.badShape s)

/-- The operator of the range. -/
def op? (c : Capability) : Option RelOp :=
  c.range.map (·.op)

/-- The edition of the range. -/
def edition? (c : Capability) : Option Edition :=
  c.range.map (·.edition)

/-- Whether there is a range. -/
def isVersioned (c : Capability) : Bool :=
  c.range.isSome

/-- The written form. -/
def render (c : Capability) : String :=
  match c.range with
  | some range => c.name ++ " " ++ range.op.symbol ++ " " ++ range.edition.render
  | none => c.name

instance : ToString Capability := ⟨render⟩

instance : BEq Range := ⟨fun a b => a.op == b.op && a.edition == b.edition⟩

instance : BEq Capability := ⟨fun a b => a.name == b.name && a.range == b.range⟩

/-- The name, and the range behind a flag that tells whether there is one. -/
def fingerprint (c : Capability) : Fingerprint :=
  .text c.name ::
    match c.range with
    | some range => .flag true :: .text range.op.symbol :: range.edition.fingerprint
    | none => [.flag false]

instance : Hashable Capability := ⟨fun c => hash c.fingerprint⟩

/-- The outcome for two optional ranges of one name. -/
def matchRange : Option Range → Option Range → Outcome
  | none, none => .yes
  | some required, some provided =>
    .ofBool (required.op.holds (provided.edition.matchCompare required.edition))
  | _, _ => .maybe

/-- Whether a provided capability satisfies a requirement. -/
def satisfiedBy (required provided : Capability) : Outcome :=
  if required.name = provided.name then matchRange required.range provided.range else .no

end Capability

end PackagePool
