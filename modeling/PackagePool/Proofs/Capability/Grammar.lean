import PackagePool.Capability.Basic
import PackagePool.Proofs.Text.Classification
import PackagePool.Proofs.Text.Fields

/-!
# The grammar of capabilities

A text is read as a capability by its words: one word is the name of an unversioned capability, and
three words are a name, an operator and an edition.  Operators and editions have readers of their
own, whose refusals are taken up in the capability's own errors.

`Capability.Reads` and `CapabilityError.Describes` say which capability a text has, and which error
is due to a text that has none, without saying in what order the reading looks at the words.  The
main result, `parse_confines_errors`, is that the reading answers with just these, and that the
message of such an error is none that an edition or an operator may give.
-/

namespace PackagePool

open Text

/-! ## Operators -/

namespace RelOp

theorem lookup_spellings_eq_some_iff {s : String} {op : RelOp} :
    spellings.lookup s = some op ↔ (s, op) ∈ spellings := by
  constructor
  · intro h
    obtain ⟨before, after, hsplit, -⟩ := List.lookup_eq_some_iff.1 h
    rw [hsplit]
    exact List.mem_append_right _ List.mem_cons_self
  · have hall : ∀ spelling ∈ spellings, spellings.lookup spelling.1 = some spelling.2 := by decide
    exact hall (s, op)

theorem parse_eq_ok_iff {s : String} (hword : IsWord s) {op : RelOp} :
    parse s = .ok op ↔ (s, op) ∈ spellings := by
  rw [← lookup_spellings_eq_some_iff, parse, trim_of_isWord hword]
  cases spellings.lookup s <;> simp

theorem exists_parse_eq_error_iff {s : String} (hword : IsWord s) :
    (∃ fault, parse s = .error fault) ↔ ∀ op, (s, op) ∉ spellings := by
  simp only [← parse_eq_ok_iff hword]
  cases parse s <;> simp

/-- The ways to write an operator that may qualify a capability. -/
def qualifierSpellings : List (String × RelOp) :=
  [("=", eq), ("==", eq), ("<", lt), ("<=", le), (">", gt), (">=", ge)]

theorem mem_qualifierSpellings_iff {s : String} {op : RelOp} :
    (s, op) ∈ qualifierSpellings ↔ (s, op) ∈ spellings ∧ op.qualifies = true := by
  have hfilter : qualifierSpellings = spellings.filter fun spelling => spelling.2.qualifies := rfl
  rw [hfilter, List.mem_filter]

end RelOp

/-! ## What a text says -/

/-- The text has the capability: it is its name, or its name, operator and edition. -/
inductive Capability.Reads (s : String) (c : Capability) : Prop
  | bare {name : String} (hfields : fields s = [name])
      (hbuilt : unversioned name = .ok c) : Reads s c
  | ranged {name op edition : String} {rel : RelOp} {e : Edition}
      (hfields : fields s = [name, op, edition]) (hop : (op, rel) ∈ RelOp.qualifierSpellings)
      (hedition : Edition.parse edition = .ok e) (hbuilt : versioned name rel e = .ok c) : Reads s c

/-- The error is what is wrong with the text.  With three words the operator is to blame first, if
it is none, then the edition, and then an operator that may not qualify a capability. -/
def CapabilityError.Describes (s : String) : CapabilityError → Prop
  | empty => fields s = []
  | emptyName => False
  | blankInName _ => False
  | badShape text =>
    text = s ∧ (fields s).length ≠ 0 ∧ (fields s).length ≠ 1 ∧ (fields s).length ≠ 3
  | badOperator op text => text = s ∧ ∃ name edition, fields s = [name, op, edition] ∧
      ∀ rel, (op, rel) ∉ RelOp.spellings
  | badEdition text cause => text = s ∧ ∃ name op edition, fields s = [name, op, edition] ∧
      (∃ rel, (op, rel) ∈ RelOp.spellings) ∧ Edition.parse edition = .error cause
  | badQualifier rel name => ∃ op edition, fields s = [name, op, edition] ∧
      (op, rel) ∈ RelOp.spellings ∧ rel.qualifies = false ∧ ∃ e, Edition.parse edition = .ok e

namespace Capability

/-! ## The reading -/

theorem Reads.parse_eq {s : String} {c : Capability} (h : Reads s c) : parse s = .ok c := by
  cases h with
  | bare hfields hbuilt => simp only [parse, hfields, hbuilt]
  | @ranged name op edition rel e hfields hop hedition hbuilt =>
    have hword : IsWord op := isWord_of_fields_eq hfields (by simp)
    have hrel := (RelOp.parse_eq_ok_iff hword).2 (RelOp.mem_qualifierSpellings_iff.1 hop).1
    simp only [parse, hfields, hrel, hedition, hbuilt]

theorem parse_of_length {s : String} (h0 : (fields s).length ≠ 0) (h1 : (fields s).length ≠ 1)
    (h3 : (fields s).length ≠ 3) : parse s = .error (.badShape s) := by
  unfold parse
  split
  case h_1 hfields => simp [hfields] at h0
  case h_2 hfields => simp [hfields] at h1
  case h_3 hfields => simp [hfields] at h3
  case h_4 => rfl

theorem parse_of_describes {s : String} {fault : CapabilityError} (h : fault.Describes s) :
    parse s = .error fault := by
  cases fault with
  | empty =>
    have hfields : fields s = [] := h
    simp only [parse, hfields]
  | emptyName => cases h
  | blankInName => cases h
  | badShape text =>
    obtain ⟨rfl, h0, h1, h3⟩ := h
    exact parse_of_length h0 h1 h3
  | badOperator op text =>
    obtain ⟨rfl, name, edition, hfields, hop⟩ := h
    have hword : IsWord op := isWord_of_fields_eq hfields (by simp)
    obtain ⟨fault, hrel⟩ := (RelOp.exists_parse_eq_error_iff hword).2 hop
    simp only [parse, hfields, hrel]
  | badEdition text cause =>
    obtain ⟨rfl, name, op, edition, hfields, ⟨rel, hop⟩, hedition⟩ := h
    have hword : IsWord op := isWord_of_fields_eq hfields (by simp)
    have hrel := (RelOp.parse_eq_ok_iff hword).2 hop
    simp only [parse, hfields, hrel, hedition]
  | badQualifier rel name =>
    obtain ⟨op, edition, hfields, hop, hqualifies, e, hedition⟩ := h
    have hname : IsWord name := isWord_of_fields_eq hfields (by simp)
    have hword : IsWord op := isWord_of_fields_eq hfields (by simp)
    have hrel := (RelOp.parse_eq_ok_iff hword).2 hop
    simp only [parse, hfields, hrel, hedition, versioned_of_not_qualifies hname hqualifies]

/-- A text has a capability exactly if it is one word, or three of which the last two are an
operator that may qualify a capability and an edition. -/
theorem exists_reads_iff {s : String} :
    (∃ c, Reads s c) ↔
      (∃ name, fields s = [name]) ∨
        ∃ name op edition, fields s = [name, op, edition] ∧
          (∃ rel, (op, rel) ∈ RelOp.qualifierSpellings) ∧ ∃ e, Edition.parse edition = .ok e := by
  constructor
  · rintro ⟨c, h⟩
    cases h with
    | bare hfields _ => exact .inl ⟨_, hfields⟩
    | ranged hfields hop hedition _ =>
      exact .inr ⟨_, _, _, hfields, ⟨_, hop⟩, _, hedition⟩
  · rintro (⟨name, hfields⟩ | ⟨name, op, edition, hfields, ⟨rel, hop⟩, e, hedition⟩)
    · have hname : IsWord name := isWord_of_fields_eq hfields (by simp)
      obtain ⟨c, hc⟩ := exists_unversioned hname
      exact ⟨c, .bare hfields hc⟩
    · have hname : IsWord name := isWord_of_fields_eq hfields (by simp)
      have hqualifies := (RelOp.mem_qualifierSpellings_iff.1 hop).2
      obtain ⟨c, hc⟩ := exists_versioned hname hqualifies e
      exact ⟨c, .ranged hfields hop hedition hc⟩

/-- Every text has a capability or an error. -/
theorem reads_or_describes (s : String) :
    (∃ c, Reads s c) ∨ ∃ fault : CapabilityError, fault.Describes s := by
  rcases hfields : fields s with _ | ⟨name, _ | ⟨op, _ | ⟨edition, _ | ⟨more, rest⟩⟩⟩⟩
  · exact .inr ⟨.empty, hfields⟩
  · exact .inl (exists_reads_iff.2 (.inl ⟨name, hfields⟩))
  · exact .inr ⟨.badShape s, rfl, by simp [hfields], by simp [hfields], by simp [hfields]⟩
  · by_cases hop : ∃ rel, (op, rel) ∈ RelOp.spellings
    · obtain ⟨rel, hop⟩ := hop
      cases hedition : Edition.parse edition with
      | error cause =>
        exact .inr ⟨.badEdition s cause, rfl, name, op, edition, hfields, ⟨rel, hop⟩, hedition⟩
      | ok e =>
        cases hqualifies : rel.qualifies with
        | false =>
          exact .inr ⟨.badQualifier rel name, op, edition, hfields, hop, hqualifies, e, hedition⟩
        | true =>
          have hop := RelOp.mem_qualifierSpellings_iff.2 ⟨hop, hqualifies⟩
          exact .inl (exists_reads_iff.2 (.inr
            ⟨name, op, edition, hfields, ⟨rel, hop⟩, e, hedition⟩))
    · have hop : ∀ rel, (op, rel) ∉ RelOp.spellings := fun rel hrel => hop ⟨rel, hrel⟩
      exact .inr ⟨.badOperator op s, rfl, name, edition, hfields, hop⟩
  · exact .inr ⟨.badShape s, rfl, by simp [hfields], by simp [hfields], by simp [hfields]⟩

theorem classifies_parse (s : String) :
    Classifies (parse s) (Reads s) fun fault => fault.Describes s where
  total := reads_or_describes s
  ok _ := Reads.parse_eq
  error _ := parse_of_describes

theorem parse_eq_ok_iff {s : String} {c : Capability} : parse s = .ok c ↔ Reads s c :=
  (classifies_parse s).eq_ok_iff

end Capability

/-! ## The messages -/

/-- The message is one of an invalid capability, and is no message of an edition or an operator. -/
structure CapabilityError.IsConfined (fault : CapabilityError) : Prop where
  isCapability : ∃ detail, fault.message = "Invalid capability: " ++ detail
  notEdition : ∀ cause : EditionError, fault.message ≠ cause.message
  notOperator : ∀ cause : RelOpError, fault.message ≠ cause.message

/-- The errors of editions and operators are taken up in the text of a capability error, behind a
beginning that tells them apart. -/
theorem CapabilityError.isConfined (fault : CapabilityError) : fault.IsConfined := by
  obtain ⟨detail, hmessage⟩ : ∃ detail, fault.message = "Invalid capability: " ++ detail := ⟨_, rfl⟩
  refine ⟨⟨detail, hmessage⟩, fun cause heq => ?_, fun cause heq => ?_⟩
  · obtain ⟨other, hother⟩ : ∃ other, cause.message = "Invalid edition: " ++ other := ⟨_, rfl⟩
    rw [hmessage, hother, ← String.toList_inj] at heq
    simp at heq
  · obtain ⟨other, hother⟩ : ∃ other,
        cause.message = "Parse error: Unknown relational operator '" ++ other :=
      ⟨cause.text ++ "'", String.append_assoc⟩
    rw [hmessage, hother, ← String.toList_inj] at heq
    simp at heq

namespace Capability

/-- **The grammar of capabilities.**  The fields of a text are its words.  It is accepted exactly if
it is one word, or three of which the last two are an operator that may qualify a capability and an
edition; it is then read as the capability built from these.  A text that is not accepted gets the
one error that describes it.  Whatever the text, the edition or the operator is refused for, the
message of that error is one of an invalid capability. -/
theorem parse_confines_errors (s : String) :
    (∀ words, fields s = words ↔ LaysOut words s.toList) ∧
    ((∃ c, parse s = .ok c) ↔
      (∃ name, fields s = [name]) ∨
        ∃ name op edition, fields s = [name, op, edition] ∧
          (∃ rel, (op, rel) ∈ RelOp.qualifierSpellings) ∧ ∃ e, Edition.parse edition = .ok e) ∧
    (∀ c, parse s = .ok c ↔ Reads s c) ∧
    (∀ fault, parse s = .error fault ↔ fault.Describes s) ∧
    ∀ fault, parse s = .error fault → fault.IsConfined := by
  refine ⟨fun _ => fields_eq_iff, ?accepted, fun _ => parse_eq_ok_iff,
    fun _ => (classifies_parse s).eq_error_iff, fun fault _ => fault.isConfined⟩
  case accepted =>
    simp only [parse_eq_ok_iff]
    exact exists_reads_iff

/-- An edition that is refused for itself, and an error of the capability. -/
theorem parse_confines_errors_dots :
    let fault : CapabilityError := .badEdition "bash >= ..." (.versionWithoutSegment "...")
    parse "bash >= ..." = .error fault ∧ fault.IsConfined := by
  intro fault
  have hparse : parse "bash >= ..." = .error fault := by rfl
  obtain ⟨-, -, -, -, hconfined⟩ := parse_confines_errors "bash >= ..."
  exact ⟨hparse, hconfined fault hparse⟩

end Capability

end PackagePool
