import PackagePool.Label
import PackagePool.Proofs.Text.Classification

/-!
# The grammar of labels

A label is written `repository@namespace:tag`, and is read by cutting at the first at-sign and then
at the first colon.  Neither separator may stand in a part, so where a text is the written form of a
label with three good parts, the cuts find these parts; and where a separator stands in the wrong
place, it ends up in a part and is caught there.

The main result, `parse_classifies`, is that reading inverts writing on the labels with good parts,
and which of the four errors every other text gets.
-/

namespace PackagePool

open Text

namespace Label

/-! ## Good parts -/

/-- What may stand for one of the three parts. -/
def IsPart (part : List Char) : Prop :=
  part ≠ [] ∧ ∀ c ∈ part, isPartChar c = true

/-- All three parts are good. -/
structure IsWellFormed (l : Label) : Prop where
  repository : IsPart l.repository.toList
  namespace_ : IsPart l.namespace_.toList
  tag : IsPart l.tag.toList

theorem not_mem_of_isPart {part : List Char} (h : IsPart part) {c : Char}
    (hc : isPartChar c = false) : c ∉ part := fun hmem => by
  rw [h.2 c hmem] at hc
  cases hc

/-- The text is cut into three parts, at its first at-sign and the first colon behind that. -/
structure IsCut (text repository space tag : List Char) : Prop where
  text_eq : text = repository ++ '@' :: (space ++ ':' :: tag)
  at_not_mem : '@' ∉ repository
  colon_not_mem : ':' ∉ space

/-- The part holds a character that may not stand there, and is the first of the parts that does. -/
def IsFirstBad (part : List Char) (parts : List (List Char)) : Prop :=
  ∃ before after, parts = before ++ part :: after ∧
    (∀ good ∈ before, ∀ c ∈ good, isPartChar c = true) ∧ ∃ c ∈ part, isPartChar c = false

end Label

/-- The error is what is wrong with the text. -/
def LabelError.Describes (s : String) : LabelError → Prop
  | missingAt text => text = s ∧ '@' ∉ s.toList
  | missingColon text => text = s ∧ ∃ repository rest,
      s.toList = repository ++ '@' :: rest ∧ '@' ∉ repository ∧ ':' ∉ rest
  | emptyComponent text => text = s ∧ ∃ repository space tag,
      Label.IsCut s.toList repository space tag ∧ (repository = [] ∨ space = [] ∨ tag = [])
  | invalidComponent part => ∃ repository space tag,
      Label.IsCut s.toList repository space tag ∧ repository ≠ [] ∧ space ≠ [] ∧ tag ≠ [] ∧
        Label.IsFirstBad part.toList [repository, space, tag]

namespace Label

/-! ## Reading -/

theorem find?_eq_some_iff_isFirstBad {part : List Char} {parts : List (List Char)} :
    parts.find? (fun part => !part.all isPartChar) = some part ↔ IsFirstBad part parts := by
  rw [List.find?_eq_some_iff_append, IsFirstBad]
  constructor
  · rintro ⟨hbad, before, after, hparts, hgood⟩
    exact ⟨before, after, hparts, by simpa using hgood, by simpa using hbad⟩
  · rintro ⟨before, after, hparts, hgood, hbad⟩
    exact ⟨by simpa using hbad, before, after, hparts, by simpa using hgood⟩

theorem parse_of_isCut {s : String} {repository space tag : List Char}
    (h : IsCut s.toList repository space tag) :
    parse s =
      if repository = [] ∨ space = [] ∨ tag = [] then .error (.emptyComponent s)
      else
        match [repository, space, tag].find? fun part => !part.all isPartChar with
        | some part => .error (.invalidComponent (String.ofList part))
        | none => .ok ⟨String.ofList repository, String.ofList space, String.ofList tag⟩ := by
  have hat : cutFirst '@' s.toList = some (repository, space ++ ':' :: tag) :=
    cutFirst_eq_some_iff.2 ⟨h.text_eq, h.at_not_mem⟩
  have hcolon : cutFirst ':' (space ++ ':' :: tag) = some (space, tag) :=
    cutFirst_eq_some_iff.2 ⟨rfl, h.colon_not_mem⟩
  have hempty : (repository.isEmpty || space.isEmpty || tag.isEmpty) = true ↔
      repository = [] ∨ space = [] ∨ tag = [] := by
    simp only [Bool.or_eq_true, List.isEmpty_iff, or_assoc]
  simp only [parse, hat, hcolon]
  exact ite_congr (propext hempty) (fun _ => rfl) (fun _ => rfl)

/-- The written form of good parts is cut into them again. -/
theorem IsWellFormed.isCut_render {l : Label} (h : l.IsWellFormed) :
    IsCut l.render.toList l.repository.toList l.namespace_.toList l.tag.toList where
  text_eq := by simp [render, String.toList_append]
  at_not_mem := not_mem_of_isPart h.repository (by decide)
  colon_not_mem := not_mem_of_isPart h.namespace_ (by decide)

theorem IsWellFormed.parse_render {l : Label} (h : l.IsWellFormed) : parse l.render = .ok l := by
  have hfind : [l.repository.toList, l.namespace_.toList, l.tag.toList].find?
      (fun part => !part.all isPartChar) = none := by
    simpa [-String.toList_eq_nil_iff] using ⟨h.repository.2, h.namespace_.2, h.tag.2⟩
  have hnonempty : ¬ (l.repository.toList = [] ∨ l.namespace_.toList = [] ∨ l.tag.toList = []) := by
    simpa only [not_or] using ⟨h.repository.1, h.namespace_.1, h.tag.1⟩
  rw [parse_of_isCut h.isCut_render, if_neg hnonempty, hfind]
  simp only [String.ofList_toList]

theorem parse_of_describes {s : String} {fault : LabelError} (h : fault.Describes s) :
    parse s = .error fault := by
  cases fault with
  | missingAt text =>
    obtain ⟨rfl, hat⟩ := h
    simp only [parse, cutFirst_eq_none_iff.2 hat]
  | missingColon text =>
    obtain ⟨rfl, repository, rest, htext, hat, hcolon⟩ := h
    have hcut := cutFirst_eq_some_iff.2 ⟨htext, hat⟩
    simp only [parse, hcut, cutFirst_eq_none_iff.2 hcolon]
  | emptyComponent text =>
    obtain ⟨rfl, repository, space, tag, hcut, hempty⟩ := h
    rw [parse_of_isCut hcut, if_pos hempty]
  | invalidComponent part =>
    obtain ⟨repository, space, tag, hcut, hrepository, hspace, htag, hbad⟩ := h
    have hnonempty : ¬ (repository = [] ∨ space = [] ∨ tag = []) := by
      simpa only [not_or] using ⟨hrepository, hspace, htag⟩
    rw [parse_of_isCut hcut, if_neg hnonempty, find?_eq_some_iff_isFirstBad.2 hbad]
    simp only [String.ofList_toList]

-- A second at-sign ends up in the namespace.
example : parse "a@b@c:d" = .error (.invalidComponent "b@c") := by rfl

/-- A text that is cut into three parts is the written form of these if they are good, and has an
error if one of them is not. -/
theorem isWellFormed_or_describes_of_isCut {s : String} {repository space tag : List Char}
    (h : IsCut s.toList repository space tag) :
    (∃ l : Label, l.IsWellFormed ∧ s = l.render) ∨ ∃ fault : LabelError, fault.Describes s := by
  by_cases hempty : repository = [] ∨ space = [] ∨ tag = []
  · exact .inr ⟨.emptyComponent s, rfl, repository, space, tag, h, hempty⟩
  · obtain ⟨hrepository, hspace, htag⟩ : repository ≠ [] ∧ space ≠ [] ∧ tag ≠ [] := by
      simpa only [not_or] using hempty
    cases hfind : [repository, space, tag].find? (fun part => !part.all isPartChar) with
    | some part =>
      have hbad := find?_eq_some_iff_isFirstBad.1 hfind
      rw [← String.toList_ofList (l := part)] at hbad
      exact .inr ⟨.invalidComponent (String.ofList part), repository, space, tag, h, hrepository,
        hspace, htag, hbad⟩
    | none =>
      have hgood : ∀ part ∈ [repository, space, tag], ∀ c ∈ part, isPartChar c = true := by
        simpa using hfind
      refine .inl ⟨⟨String.ofList repository, String.ofList space, String.ofList tag⟩, ?good, ?text⟩
      case good =>
        constructor <;> simp only [String.toList_ofList]
        · exact ⟨hrepository, hgood _ (by simp)⟩
        · exact ⟨hspace, hgood _ (by simp)⟩
        · exact ⟨htag, hgood _ (by simp)⟩
      case text =>
        rw [← String.toList_inj, h.text_eq]
        simp [render, String.toList_append]

/-- Every text is the written form of good parts, or has an error. -/
theorem isWellFormed_or_describes (s : String) :
    (∃ l : Label, l.IsWellFormed ∧ s = l.render) ∨ ∃ fault : LabelError, fault.Describes s := by
  cases hat : cutFirst '@' s.toList with
  | none => exact .inr ⟨.missingAt s, rfl, cutFirst_eq_none_iff.1 hat⟩
  | some sides =>
    obtain ⟨repository, rest⟩ := sides
    obtain ⟨htext, hrepository⟩ := cutFirst_eq_some_iff.1 hat
    cases hcolon : cutFirst ':' rest with
    | none =>
      exact .inr ⟨.missingColon s, rfl, repository, rest, htext, hrepository,
        cutFirst_eq_none_iff.1 hcolon⟩
    | some sides =>
      obtain ⟨space, tag⟩ := sides
      obtain ⟨rfl, hspace⟩ := cutFirst_eq_some_iff.1 hcolon
      exact isWellFormed_or_describes_of_isCut ⟨htext, hrepository, hspace⟩

theorem classifies_parse (s : String) :
    Classifies (parse s) (fun l => l.IsWellFormed ∧ s = l.render)
      fun fault => fault.Describes s where
  total := isWellFormed_or_describes s
  ok := by
    rintro l ⟨hl, rfl⟩
    exact hl.parse_render
  error _ := parse_of_describes

theorem parse_eq_ok_iff {s : String} {l : Label} :
    parse s = .ok l ↔ l.IsWellFormed ∧ s = l.render :=
  (classifies_parse s).eq_ok_iff

/-- **The grammar of labels.**  A text is read as a label exactly if the label has three good parts
and the text is its written form.  Reading and writing therefore undo each other between the texts
that are accepted and the labels with good parts.  Every other text gets the one error that
describes it: no at-sign, no colon behind the first at-sign, an empty part, or the first part with a
character that may not stand there. -/
theorem parse_classifies :
    (∀ s l, parse s = .ok l ↔ l.IsWellFormed ∧ s = l.render) ∧
    (∀ l, parse l.render = .ok l ↔ l.IsWellFormed) ∧
    (∀ s, (parse s).map render = .ok s ↔ ∃ l, parse s = .ok l) ∧
    ∀ s fault, parse s = .error fault ↔ fault.Describes s := by
  refine ⟨fun _ _ => parse_eq_ok_iff, fun l => ?writeRead, fun s => ?readWrite,
    fun s _ => (classifies_parse s).eq_error_iff⟩
  case writeRead => simp only [parse_eq_ok_iff, and_true]
  case readWrite =>
    cases hread : parse s with
    | error fault => simp [Except.map]
    | ok l =>
      obtain ⟨-, htext⟩ := parse_eq_ok_iff.1 hread
      simp [Except.map, htext]

end Label

end PackagePool
