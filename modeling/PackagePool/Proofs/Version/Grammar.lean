import PackagePool.Proofs.Version.Scan
import PackagePool.Version.Edition

/-!
# The grammar of editions

Which parts form an edition, and which texts are read as which edition.

The checks of `Edition.fault?` leave a version and a release with a letter or a digit in each, no
colon in either, and no dash in the one that comes last (`Admissible`).  So a text can be divided
into an epoch, a version and a release in one way at most, which is to cut it at its first colon and
its last dash (`cutParts_eq_iff`, `eq_of_append_writtenParts`).  That is how texts are read, and
therefore what is read are exactly the texts that can be so divided, once the blanks around them are
dropped: this is the main result, `accepted_iff_grammatical`.
-/

namespace PackagePool

open Text Version

namespace Edition

/-! ## The parts -/

theorem fault?_eq_none_iff {version : String} {release : Option String} :
    fault? version release = none ↔
      hasSegment version = true ∧ ':' ∉ version.toList ∧
        (release = none → '-' ∉ version.toList) ∧
        ∀ r ∈ release, hasSegment r = true ∧ '-' ∉ r.toList ∧ ':' ∉ r.toList := by
  cases release <;> grind [fault?]

/-- The parts that form an edition are kept as they are. -/
theorem ofParts_eq_ok_iff {epoch : UInt64} {version : String} {release : Option String}
    {e : Edition} :
    ofParts epoch version release = .ok e ↔
      e.epoch = epoch ∧ e.version = version ∧ e.release = release := by
  constructor
  · intro h
    unfold ofParts at h
    split at h
    · cases h
    · obtain rfl := Except.ok.inj h
      exact ⟨rfl, rfl, rfl⟩
  · rintro ⟨rfl, rfl, rfl⟩
    unfold ofParts
    split
    · rename_i fault hfault
      rw [e.faultless] at hfault
      cases hfault
    · rfl

/-- The version and the release can be told apart, and told from an epoch, when they are written
one behind the other. -/
def Admissible (version : String) (release : Option String) : Prop :=
  (∃ c ∈ version.toList, c.isAlphanum = true) ∧ ':' ∉ version.toList ∧
    match release with
    | none => '-' ∉ version.toList
    | some release =>
      (∃ c ∈ release.toList, c.isAlphanum = true) ∧ '-' ∉ release.toList ∧ ':' ∉ release.toList

theorem admissible_iff {version : String} {release : Option String} :
    Admissible version release ↔ fault? version release = none := by
  rw [fault?_eq_none_iff, hasSegment_iff]
  cases release <;> simp [Admissible, hasSegment_iff]

theorem exists_ofParts_eq_ok_iff {epoch : UInt64} {version : String} {release : Option String} :
    (∃ e, ofParts epoch version release = .ok e ∧
      e.epoch = epoch ∧ e.version = version ∧ e.release = release) ↔
      Admissible version release := by
  rw [admissible_iff]
  constructor
  · rintro ⟨e, -, -, rfl, rfl⟩
    exact e.faultless
  · intro h
    exact ⟨⟨epoch, version, release, h⟩, ofParts_eq_ok_iff.2 ⟨rfl, rfl, rfl⟩, rfl, rfl, rfl⟩

theorem version_ne_nil (e : Edition) : e.version.toList ≠ [] := by
  obtain ⟨hsegment, -⟩ := fault?_eq_none_iff.1 e.faultless
  obtain ⟨c, hc, -⟩ := hasSegment_iff.1 hsegment
  exact List.ne_nil_of_mem hc

/-! ## Cutting a text into parts -/

/-- What is written behind the epoch. -/
def writtenParts (e : Edition) : List Char :=
  e.version.toList ++ e.release.elim [] fun release => '-' :: release.toList

theorem colon_not_mem_writtenParts (e : Edition) : ':' ∉ e.writtenParts := by
  obtain ⟨-, hversion, -, hrelease⟩ := fault?_eq_none_iff.1 e.faultless
  unfold writtenParts
  cases hr : e.release with
  | none => simpa using hversion
  | some release => simp [hversion, (hrelease release hr).2.2]

theorem cutFirst_getD_eq_iff {text numeral rest : List Char} (hrest : ':' ∉ rest) :
    (cutFirst ':' text).getD ([], text) = (numeral, rest) ↔
      (numeral = [] ∧ text = rest) ∨ (':' ∉ numeral ∧ text = numeral ++ ':' :: rest) := by
  cases hcut : cutFirst ':' text with
  | none =>
    have hcolon := cutFirst_eq_none_iff.1 hcut
    rw [Option.getD_none, Prod.mk.injEq]
    constructor
    · rintro ⟨rfl, rfl⟩
      exact .inl ⟨rfl, rfl⟩
    · rintro (⟨rfl, rfl⟩ | ⟨-, rfl⟩)
      · exact ⟨rfl, rfl⟩
      · simp at hcolon
  | some cut =>
    obtain ⟨htext, hcolon⟩ := cutFirst_eq_some_iff.1 hcut
    rw [Option.getD_some]
    constructor
    · rintro rfl
      exact .inr ⟨hcolon, htext⟩
    · rintro (⟨-, rfl⟩ | hsplit)
      · simp [htext] at hrest
      · exact Option.some.inj (hcut.symm.trans (cutFirst_eq_some_iff.2 hsplit.symm))

/-- The texts that are cut into the parts of an edition: the epoch ends at the first colon, and the
release starts at the last dash. -/
theorem cutParts_eq_iff {text numeral : List Char} {e : Edition} :
    cutParts text = (numeral, e.version.toList, e.release.map String.toList) ↔
      (numeral = [] ∧ text = e.writtenParts) ∨
        (':' ∉ numeral ∧ text = numeral ++ ':' :: e.writtenParts) := by
  obtain ⟨-, -, hversion, hrelease⟩ := fault?_eq_none_iff.1 e.faultless
  rw [← cutFirst_getD_eq_iff e.colon_not_mem_writtenParts, cutParts]
  generalize (cutFirst ':' text).getD ([], text) = cut
  obtain ⟨front, rest⟩ := cut
  -- where only one of the two, the cut and the edition, has a release, neither side holds
  cases hlast : cutLast '-' rest with
  | none =>
    have hdash := cutLast_eq_none_iff.1 hlast
    cases hr : e.release with
    | none => simp [hlast, writtenParts, hr]
    | some release =>
      have hrest : rest ≠ e.version.toList ++ '-' :: release.toList := by
        rintro rfl
        simp at hdash
      simp [hlast, writtenParts, hr, hrest]
  | some parts =>
    obtain ⟨version, release'⟩ := parts
    cases hr : e.release with
    | none =>
      have hrest : rest ≠ e.version.toList := by
        rintro rfl
        rw [cutLast_eq_none_iff.2 (hversion hr)] at hlast
        cases hlast
      simp [hlast, writtenParts, hr, hrest]
    | some release =>
      have hsplit : version = e.version.toList ∧ release' = release.toList ↔
          rest = e.version.toList ++ '-' :: release.toList := by
        rw [← Prod.mk.injEq, ← Option.some_inj, ← hlast, cutLast_eq_some_iff]
        exact and_iff_left (hrelease release hr).2.1
      simp [hlast, writtenParts, hr, hsplit]

/-! ## The epoch -/

/-- What may stand in front of the version for a given epoch: nothing or a lone colon for zero, or
a numeral, which may be signed, and a colon. -/
inductive EpochText (epoch : UInt64) : List Char → Prop
  | absent (hzero : epoch = 0) : EpochText epoch []
  | empty (hzero : epoch = 0) : EpochText epoch [':']
  | numeral {digits sign : List Char} (hsign : sign = [] ∨ sign = ['+'])
      (hdigits : IsNumeral digits epoch) : EpochText epoch (sign ++ digits ++ [':'])

theorem readEpoch_eq_ok_iff {text numeral : List Char} {epoch : UInt64} :
    readEpoch text numeral = .ok epoch ↔
      (numeral = [] ∧ epoch = 0) ∨
        ∃ digits, (numeral = digits ∨ numeral = '+' :: digits) ∧ IsNumeral digits epoch := by
  cases numeral with
  | nil =>
    have hnone : ¬ IsNumeral [] epoch := fun h => h.ne_nil rfl
    simp [readEpoch, hnone, eq_comm]
  | cons c numeral =>
    rw [← readWord_eq_ok_iff, readEpoch, if_neg (by simp)]
    cases readWord (c :: numeral) <;> simp

theorem colon_not_mem_of_isNumeral {digits : List Char} {epoch : UInt64}
    (h : IsNumeral digits epoch) : ':' ∉ digits := fun hmem => by
  have hdigit := h.isDigit _ hmem
  simp at hdigit

/-- A text is cut into the parts of an edition exactly if these stand behind a text of its epoch. -/
theorem exists_cutParts_eq_iff {text : List Char} {e : Edition} :
    (∃ numeral, cutParts text = (numeral, e.version.toList, e.release.map String.toList) ∧
        readEpoch text numeral = .ok e.epoch) ↔
      ∃ front, EpochText e.epoch front ∧ text = front ++ e.writtenParts := by
  constructor
  · rintro ⟨numeral, hcut, hepoch⟩
    rw [readEpoch_eq_ok_iff] at hepoch
    rcases cutParts_eq_iff.1 hcut with ⟨rfl, htext⟩ | ⟨-, htext⟩
    · rcases hepoch with ⟨-, hzero⟩ | ⟨digits, rfl | hsign, hdigits⟩
      · exact ⟨[], .absent hzero, htext⟩
      · exact absurd rfl hdigits.ne_nil
      · cases hsign
    · rcases hepoch with ⟨rfl, hzero⟩ | ⟨digits, rfl | rfl, hdigits⟩
      · exact ⟨_, .empty hzero, htext⟩
      · exact ⟨_, .numeral (.inl rfl) hdigits, by simpa using htext⟩
      · exact ⟨_, .numeral (.inr rfl) hdigits, by simpa using htext⟩
  · rintro ⟨front, hfront, rfl⟩
    cases hfront with
    | absent hzero =>
      exact ⟨[], cutParts_eq_iff.2 (.inl ⟨rfl, rfl⟩), readEpoch_eq_ok_iff.2 (.inl ⟨rfl, hzero⟩)⟩
    | empty hzero =>
      exact ⟨[], cutParts_eq_iff.2 (.inr ⟨by simp, rfl⟩),
        readEpoch_eq_ok_iff.2 (.inl ⟨rfl, hzero⟩)⟩
    | @numeral digits sign hsign hdigits =>
      refine ⟨sign ++ digits, cutParts_eq_iff.2 (.inr ⟨?_, by simp⟩), ?_⟩
      · have hcolon := colon_not_mem_of_isNumeral hdigits
        rcases hsign with rfl | rfl <;> simpa using hcolon
      · refine readEpoch_eq_ok_iff.2 (.inr ⟨digits, ?_, hdigits⟩)
        rcases hsign with rfl | rfl
        · exact .inl rfl
        · exact .inr rfl

/-- There is at most one way to divide a text into an epoch and the parts of an edition. -/
theorem eq_of_append_writtenParts {e f : Edition} {front front' : List Char}
    (he : EpochText e.epoch front) (hf : EpochText f.epoch front')
    (h : front ++ e.writtenParts = front' ++ f.writtenParts) : e = f := by
  obtain ⟨numeral, hcut, hepoch⟩ := exists_cutParts_eq_iff.2 ⟨front, he, rfl⟩
  obtain ⟨numeral', hcut', hepoch'⟩ := exists_cutParts_eq_iff.2 ⟨front', hf, h⟩
  rw [hcut, Prod.mk.injEq, Prod.mk.injEq] at hcut'
  obtain ⟨rfl, hversion, hrelease⟩ := hcut'
  rw [hepoch, Except.ok.injEq] at hepoch'
  exact ext_parts hepoch' (String.toList_injective hversion)
    (Option.map_injective (fun _ _ => String.toList_injective) hrelease)

/-! ## Reading -/

/-- What it takes for a text to be read as a given edition. -/
theorem parse_eq_ok_iff {s : String} {e : Edition} :
    parse s = .ok e ↔
      ∃ numeral, cutParts (trimChars s.toList) =
          (numeral, e.version.toList, e.release.map String.toList) ∧
        readEpoch (trimChars s.toList) numeral = .ok e.epoch := by
  unfold parse
  constructor
  · intro h
    rcases hcut : cutParts (trimChars s.toList) with ⟨numeral, version, release⟩
    simp only [hcut] at h
    split at h
    · cases h
    · rename_i epoch hepoch
      split at h
      · cases h
      · obtain ⟨hepoch', hversion, hrelease⟩ := ofParts_eq_ok_iff.1 h
        refine ⟨numeral, ?_, ?_⟩
        · simp [hversion, hrelease, Function.comp_def]
        · rw [hepoch, hepoch']
  · rintro ⟨numeral, hcut, hepoch⟩
    have hversion : e.version.toList.isEmpty = false := by
      simpa using e.version_ne_nil
    simp only [hcut, hepoch, hversion, Bool.false_eq_true, if_false]
    refine ofParts_eq_ok_iff.2 ⟨rfl, by simp, ?_⟩
    simp [Function.comp_def]

theorem parse_eq_ok_iff_writtenParts {s : String} {e : Edition} :
    parse s = .ok e ↔
      ∃ front, EpochText e.epoch front ∧ trimChars s.toList = front ++ e.writtenParts := by
  rw [parse_eq_ok_iff, exists_cutParts_eq_iff]

-- The release starts at the last dash.
example : parse " 1-2-3 " = .ok ⟨0, "1-2", some "3", by decide⟩ := by rfl

/-- **The grammar of editions.**  Parts form an edition exactly if they are admissible, and a text
is read as an edition of given parts exactly if these form one and the text, without the blanks
around it, is a text of the epoch, the version and, if there is a release, a dash and the release.
Whatever is rejected is rejected as an invalid edition. -/
theorem accepted_iff_grammatical :
    (∀ epoch version release,
      (∃ e, ofParts epoch version release = .ok e ∧
        e.epoch = epoch ∧ e.version = version ∧ e.release = release) ↔
        Admissible version release) ∧
    (∀ s epoch version release,
      (∃ e, parse s = .ok e ∧ e.epoch = epoch ∧ e.version = version ∧ e.release = release) ↔
        (∃ e, ofParts epoch version release = .ok e) ∧
          ∃ front, EpochText epoch front ∧
            (trim s).toList = front ++ version.toList ++
              release.elim [] fun release => '-' :: release.toList) ∧
    (∀ epoch version release, (∃ e, ofParts epoch version release = .ok e) ∨
      ∃ fault detail, ofParts epoch version release = .error fault ∧
        fault.message = "Invalid edition: " ++ detail) ∧
    ∀ s, (∃ e, parse s = .ok e) ∨
      ∃ fault detail, parse s = .error fault ∧ fault.message = "Invalid edition: " ++ detail := by
  refine ⟨fun _ _ _ => exists_ofParts_eq_ok_iff, ?texts, ?partsRejected, ?textsRejected⟩
  case texts =>
    intro s epoch version release
    rw [trim, String.toList_ofList]
    constructor
    · rintro ⟨e, h, rfl, rfl, rfl⟩
      obtain ⟨front, hfront, htext⟩ := parse_eq_ok_iff_writtenParts.1 h
      refine ⟨⟨e, ofParts_eq_ok_iff.2 ⟨rfl, rfl, rfl⟩⟩, front, hfront, ?_⟩
      rw [htext, writtenParts, List.append_assoc]
    · rintro ⟨⟨e, h⟩, front, hfront, htext⟩
      obtain ⟨rfl, rfl, rfl⟩ := ofParts_eq_ok_iff.1 h
      rw [List.append_assoc] at htext
      exact ⟨e, parse_eq_ok_iff_writtenParts.2 ⟨front, hfront, htext⟩, rfl, rfl, rfl⟩
  case partsRejected =>
    intro epoch version release
    cases h : ofParts epoch version release with
    | ok e => exact .inl ⟨e, rfl⟩
    | error fault => exact .inr ⟨fault, _, rfl, rfl⟩
  case textsRejected =>
    intro s
    cases h : parse s with
    | ok e => exact .inl ⟨e, rfl⟩
    | error fault => exact .inr ⟨fault, _, rfl, rfl⟩

end Edition

end PackagePool
