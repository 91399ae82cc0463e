import Mathlib.Data.List.Basic
import PackagePool.Config.Render
import PackagePool.Toml.Document

/-!
# The lines of a written configuration

A configuration is written as lines of four forms: a key that is given a string, a key that is
given an empty array, a header in double brackets, and the empty line.  This module shows that the
reader of documents takes each of them for the statement that was meant, whatever text follows.  The
statements of a text that is put together of such lines are then those of its lines (`Reads`).

Every lemma about a reader is about a written form with an arbitrary text behind it, since this is
how the readers call each other.
-/

namespace PackagePool.Toml

open ConfigDocument (quoteChar hexDigit quote renderField)

/-! ## Strings -/

theorem hexNumber?_hexDigit {n : Nat} (h : n < 128) :
    hexNumber? ['0', '0', hexDigit (n / 16), hexDigit (n % 16)] = some n := by
  have hall : ∀ n < 128, hexNumber? ['0', '0', hexDigit (n / 16), hexDigit (n % 16)] = some n := by
    decide
  exact hall n h

/-- What is written for a character is read as this character, escaped or not. -/
theorem basicBody_quoteChar (c : Char) (fuel : Nat) (rest : List Char) :
    basicBody (fuel + 1) (quoteChar c ++ rest) =
      (basicBody fuel rest).map fun (body, rest) => (c :: body, rest) := by
  unfold quoteChar
  split_ifs with hquote hbackslash hcontrol
  · subst hquote
    simp [basicBody, escape]
  · subst hbackslash
    simp [basicBody, escape]
  · have hn : c.toNat < 128 := by omega
    have hvalid : c.toNat.isValidChar := c.valid
    simp [basicBody, escape, codePoint, hexNumber?_hexDigit hn, hvalid, Char.ofNat_toNat]
  · have htext : isText c = true := by
      simp only [isText, Bool.or_eq_true, Bool.and_eq_true, decide_eq_true_eq, bne_iff_ne]
      omega
    simp [basicBody, hquote, hbackslash, htext]

theorem basicBody_flatMap_quoteChar (cs rest : List Char) {fuel : Nat} (hfuel : cs.length < fuel) :
    basicBody fuel (cs.flatMap quoteChar ++ '"' :: rest) = some (cs, rest) := by
  induction cs generalizing fuel with
  | nil =>
    obtain ⟨fuel, rfl⟩ := Nat.exists_eq_add_one_of_ne_zero (Nat.ne_of_gt hfuel)
    simp [basicBody]
  | cons c cs ih =>
    obtain ⟨fuel, rfl⟩ := Nat.exists_eq_add_one_of_ne_zero (Nat.ne_zero_of_lt hfuel)
    rw [List.flatMap_cons, List.append_assoc, basicBody_quoteChar,
      ih (Nat.lt_of_succ_lt_succ hfuel)]
    rfl

theorem exists_quoteChar_eq_cons (c : Char) :
    ∃ first rest, quoteChar c = first :: rest ∧ first ≠ '"' := by
  unfold quoteChar
  split_ifs with hquote
  · exact ⟨_, _, rfl, by decide⟩
  · exact ⟨_, _, rfl, by decide⟩
  · exact ⟨_, _, rfl, by decide⟩
  · exact ⟨_, _, rfl, hquote⟩

theorem length_le_length_flatMap_quoteChar (cs : List Char) :
    cs.length ≤ (cs.flatMap quoteChar).length := by
  induction cs with
  | nil => exact Nat.le_refl _
  | cons c cs ih =>
    obtain ⟨first, rest, hquote, -⟩ := exists_quoteChar_eq_cons c
    rw [List.flatMap_cons, hquote, List.length_append, List.length_cons, List.length_cons]
    omega

theorem toList_quote (s : String) :
    (quote s).toList = '"' :: (s.toList.flatMap quoteChar ++ ['"']) := by
  simp [quote]

/-- A string is read back from its written form.  Were another quote behind it, the written form of
the empty string would be taken for the start of a string of several lines. -/
theorem string_quote (s : String) {rest : List Char} (hrest : rest.head? ≠ some '"') :
    string ((quote s).toList ++ rest) = some (s.toList, rest) := by
  have hbody : plainString ((quote s).toList ++ rest) = some (s.toList, rest) := by
    have hlength := length_le_length_flatMap_quoteChar s.toList
    rw [toList_quote, List.cons_append, List.append_assoc, plainString]
    refine basicBody_flatMap_quoteChar s.toList rest ?_
    rw [List.length_append]
    omega
  -- behind the first quote stands another one only if the string is empty, and then no third one
  unfold string
  split
  · rename_i later heq
    rw [toList_quote] at heq
    cases hs : s.toList with
    | nil => simp_all
    | cons c cs =>
      obtain ⟨first, others, hquote, hfirst⟩ := exists_quoteChar_eq_cons c
      simp_all
  · rename_i heq
    rw [toList_quote] at heq
    simp at heq
  · exact hbody

/-! ## Keys -/

/-- A name that is a key without quotes. -/
def IsBareKey (name : String) : Prop :=
  name ≠ "" ∧ name.toList.all isBareKeyChar = true

instance (name : String) : Decidable (IsBareKey name) :=
  inferInstanceAs (Decidable (_ ∧ _))

theorem IsBareKey.bare {name : String} (h : IsBareKey name) {c : Char}
    (hc : c ∈ name.toList) : isBareKeyChar c = true :=
  List.all_eq_true.1 h.2 c hc

theorem IsBareKey.exists_cons {name : String} (h : IsBareKey name) :
    ∃ c cs, name.toList = c :: cs ∧ isBareKeyChar c = true := by
  cases hname : name.toList with
  | nil => exact absurd (String.toList_eq_nil_iff.1 hname) h.1
  | cons c cs => exact ⟨c, cs, rfl, h.bare (by rw [hname]; exact List.mem_cons_self)⟩

theorem skipSpace_cons {c : Char} (h : isSpace c = false) (rest : List Char) :
    skipSpace (c :: rest) = c :: rest := by
  simp [skipSpace, h]

theorem ne_of_isBareKeyChar {c d : Char} (hc : isBareKeyChar c = true)
    (hd : isBareKeyChar d = false) : c ≠ d := by
  rintro rfl
  rw [hc] at hd
  cases hd

theorem isSpace_of_isBareKeyChar {c : Char} (h : isBareKeyChar c = true) : isSpace c = false := by
  have hblank : c ≠ ' ' := ne_of_isBareKeyChar h (by decide)
  have htab : c ≠ '\t' := ne_of_isBareKeyChar h (by decide)
  simp [isSpace, hblank, htab]

theorem keyPart_bare {name : String} (hname : IsBareKey name) {rest : List Char}
    (hend : ∀ c ∈ rest.head?, isBareKeyChar c = false) :
    keyPart (name.toList ++ rest) = some (name, rest) := by
  obtain ⟨c, cs, hcons, hc⟩ := hname.exists_cons
  have hall : ∀ d ∈ name.toList, isBareKeyChar d = true := fun d => hname.bare
  have hquote : c ≠ '"' := ne_of_isBareKeyChar hc (by decide)
  have hapostrophe : c ≠ '\'' := ne_of_isBareKeyChar hc (by decide)
  have htake : rest.takeWhile isBareKeyChar = [] := by
    cases rest with
    | nil => rfl
    | cons d rest => exact List.takeWhile_cons_of_neg (by rw [hend d rfl]; decide)
  have hdrop : rest.dropWhile isBareKeyChar = rest := by
    cases rest with
    | nil => rfl
    | cons d rest => exact List.dropWhile_cons_of_neg (by rw [hend d rfl]; decide)
  rw [hcons, List.cons_append, keyPart, if_neg (not_or.2 ⟨hquote, hapostrophe⟩),
    ← List.cons_append, ← hcons, List.takeWhile_append_of_pos hall,
    List.dropWhile_append_of_pos hall, htake, hdrop, List.append_nil, if_neg (by simp [hcons]),
    String.ofList_toList]

/-- A bare key is read up to the first character that is none of its own.  The space behind it is
skipped while looking for a dot. -/
theorem keyParts_bare {name : String} (hname : IsBareKey name) {rest : List Char}
    (hend : ∀ c ∈ rest.head?, isBareKeyChar c = false)
    (hdot : (skipSpace rest).head? ≠ some '.') (fuel : Nat) :
    keyParts (fuel + 1) (name.toList ++ rest) = some ([name], skipSpace rest) := by
  have hstart : skipSpace (name.toList ++ rest) = name.toList ++ rest := by
    obtain ⟨c, cs, hcons, hc⟩ := hname.exists_cons
    rw [hcons, List.cons_append, skipSpace_cons (isSpace_of_isBareKeyChar hc)]
  simp only [keyParts, hstart, keyPart_bare hname hend]
  split
  · rename_i later hlater
    rw [hlater] at hdot
    exact absurd rfl hdot
  · rfl

theorem key_bare {name : String} (hname : IsBareKey name) {rest : List Char}
    (hend : ∀ c ∈ rest.head?, isBareKeyChar c = false)
    (hdot : (skipSpace rest).head? ≠ some '.') :
    key (name.toList ++ rest) = some ([name], skipSpace rest) :=
  keyParts_bare hname hend hdot (nestingLimit - 2)

/-! ## Lines -/

theorem lineEnd?_newline (rest : List Char) : lineEnd? ('\n' :: rest) = some rest := by
  rfl

theorem line_empty (rest : List Char) : line ('\n' :: rest) = some (none, rest) := by
  rfl

theorem line_header {name : String} (hname : IsBareKey name) (rest : List Char) :
    line (("[[" ++ name ++ "]]\n").toList ++ rest) = some (some (.element [name]), rest) := by
  have hkey : key (name.toList ++ ']' :: ']' :: '\n' :: rest) =
      some ([name], ']' :: ']' :: '\n' :: rest) :=
    key_bare hname (by simp [isBareKeyChar]) (by simp [skipSpace, isSpace])
  have htext : ("[[" ++ name ++ "]]\n").toList ++ rest =
      '[' :: '[' :: (name.toList ++ ']' :: ']' :: '\n' :: rest) := by
    simp
  rw [htext]
  simp [line, hkey, afterHeader?, lineEnd?_newline]

theorem value_quote (s : String) {rest : List Char} (hrest : rest.head? ≠ some '"')
    (fuel room : Nat) :
    value (fuel + 1) room ((quote s).toList ++ rest) = some (.string s, rest) := by
  have hstring := string_quote s hrest
  rw [toList_quote, List.cons_append] at hstring ⊢
  simp only [value, hstring, Option.map_some, String.ofList_toList]

theorem value_emptyArray (fuel room : Nat) (rest : List Char) :
    value (fuel + 2) (room + 1) ('[' :: ']' :: rest) = some (.array [], rest) := by
  simp [value, arrayItems, skipFill, isSpace]

/-- A line that starts with a bare key assigns to it. -/
theorem line_of_bare {c : Char} {cs : List Char} (hc : isBareKeyChar c = true) :
    line (c :: cs) = do
      let (path, rest) ← key (c :: cs)
      let rest := skipSpace (← expect '=' rest)
      let (item, rest) ← value (2 * rest.length + 2) (nestingLimit - 1) rest
      return (some (.assign path item), ← lineEnd? rest) := by
  have hcomment : c ≠ '#' := ne_of_isBareKeyChar hc (by decide)
  have hnewline : c ≠ '\n' := ne_of_isBareKeyChar hc (by decide)
  have hreturn : c ≠ '\r' := ne_of_isBareKeyChar hc (by decide)
  have hbracket : c ≠ '[' := ne_of_isBareKeyChar hc (by decide)
  simp [line, hcomment, hnewline, hreturn, hbracket]

/-- A bare key is given what is read behind the equals sign. -/
theorem line_assign {name : String} (hname : IsBareKey name) {text rest : List Char} {item : Value}
    (hstart : skipSpace text = text)
    (hvalue : value (2 * text.length + 2) (nestingLimit - 1) text = some (item, '\n' :: rest)) :
    line (name.toList ++ ' ' :: '=' :: ' ' :: text) =
      some (some (.assign [name] item), rest) := by
  have hkey : key (name.toList ++ ' ' :: '=' :: ' ' :: text) = some ([name], '=' :: ' ' :: text) :=
    key_bare hname (by simp [isBareKeyChar]) (by simp [skipSpace, isSpace])
  have hspace : skipSpace (' ' :: text) = text := hstart
  obtain ⟨c, cs, hcons, hc⟩ := hname.exists_cons
  rw [hcons, List.cons_append] at hkey ⊢
  rw [line_of_bare hc, hkey]
  simp [expect, hspace, hvalue, lineEnd?_newline]

/-! ## Texts -/

/-- The statements of a text, however much fuel there is, if there is enough of it for each line. -/
def Reads (cs : List Char) (list : List Statement) : Prop :=
  ∀ fuel, cs.length < fuel → statements fuel cs = some list

theorem Reads.nil : Reads [] [] := by
  intro fuel hfuel
  obtain ⟨fuel, rfl⟩ := Nat.exists_eq_add_one_of_ne_zero (Nat.ne_zero_of_lt hfuel)
  rfl

/-- The statement of the first line stands before those of the text behind it. -/
theorem Reads.line {c : Char} {cs rest : List Char} {statement : Option Statement}
    {list : List Statement} (hrest : Reads rest list) (hc : isSpace c = false)
    (hlength : rest.length ≤ cs.length) (hline : Toml.line (c :: cs) = some (statement, rest)) :
    Reads (c :: cs) (statement.toList ++ list) := by
  intro fuel hfuel
  obtain ⟨fuel, rfl⟩ := Nat.exists_eq_add_one_of_ne_zero (Nat.ne_zero_of_lt hfuel)
  have hshorter : rest.length < fuel := Nat.lt_of_le_of_lt hlength (Nat.lt_of_succ_lt_succ hfuel)
  simp only [statements, skipSpace_cons hc, hline, hrest fuel hshorter, Option.map_some]

theorem Reads.emptyLine {rest : List Char} {list : List Statement} (hrest : Reads rest list) :
    Reads ('\n' :: rest) list :=
  hrest.line (by decide) (Nat.le_refl _) (line_empty rest)

theorem Reads.header {name : String} (hname : IsBareKey name) {rest : List Char}
    {list : List Statement} (hrest : Reads rest list) :
    Reads (("[[" ++ name ++ "]]\n").toList ++ rest) (.element [name] :: list) := by
  have hline := line_header hname rest
  simp only [String.toList_append] at hline ⊢
  exact hrest.line (by decide) (by simp; omega) hline

theorem Reads.assign {name : String} (hname : IsBareKey name) {text rest : List Char}
    {item : Value} {list : List Statement} (hrest : Reads rest list)
    (hstart : skipSpace text = text) (hlength : rest.length ≤ text.length)
    (hvalue : value (2 * text.length + 2) (nestingLimit - 1) text = some (item, '\n' :: rest)) :
    Reads (name.toList ++ ' ' :: '=' :: ' ' :: text) (.assign [name] item :: list) := by
  have hline := line_assign hname hstart hvalue
  obtain ⟨c, cs, hcons, hc⟩ := hname.exists_cons
  rw [hcons, List.cons_append] at hline ⊢
  refine hrest.line (isSpace_of_isBareKeyChar hc) ?_ hline
  simp only [List.length_append, List.length_cons]
  omega

/-- A key that is given a string. -/
theorem Reads.field {name : String} (hname : IsBareKey name) (text : String) {rest : List Char}
    {list : List Statement} (hrest : Reads rest list) :
    Reads ((renderField name text).toList ++ rest) (.assign [name] (.string text) :: list) := by
  have htext : (renderField name text).toList ++ rest =
      name.toList ++ ' ' :: '=' :: ' ' :: ((quote text).toList ++ '\n' :: rest) := by
    simp [renderField]
  have hstart : skipSpace ((quote text).toList ++ '\n' :: rest) =
      (quote text).toList ++ '\n' :: rest := by
    rw [toList_quote, List.cons_append, skipSpace_cons (by decide)]
  have hlength : rest.length ≤ ((quote text).toList ++ '\n' :: rest).length := by
    rw [List.length_append, List.length_cons]
    omega
  rw [htext]
  exact hrest.assign hname hstart hlength (value_quote text (by simp) _ _)

/-- A key that is given an empty array. -/
theorem Reads.emptyArray {name : String} (hname : IsBareKey name) {rest : List Char}
    {list : List Statement} (hrest : Reads rest list) :
    Reads ((name ++ " = []\n").toList ++ rest) (.assign [name] (.array []) :: list) := by
  have htext : (name ++ " = []\n").toList ++ rest =
      name.toList ++ ' ' :: '=' :: ' ' :: '[' :: ']' :: '\n' :: rest := by
    simp
  have hlength : rest.length ≤ ('[' :: ']' :: '\n' :: rest).length := by
    simp only [List.length_cons]
    omega
  rw [htext]
  exact hrest.assign hname (skipSpace_cons (by decide) _) hlength
    (value_emptyArray _ (nestingLimit - 2) _)

/-- Several keys that are given strings, one behind the other. -/
theorem Reads.fields {pairs : List (String × String)} (hnames : ∀ pair ∈ pairs, IsBareKey pair.1)
    {rest : List Char} {list : List Statement} (hrest : Reads rest list) :
    Reads ((pairs.flatMap fun pair => (renderField pair.1 pair.2).toList) ++ rest)
      ((pairs.map fun pair => .assign [pair.1] (.string pair.2)) ++ list) := by
  induction pairs with
  | nil => exact hrest
  | cons pair pairs ih =>
    have hlater := ih fun other hother => hnames other (List.mem_cons_of_mem _ hother)
    rw [List.flatMap_cons, List.append_assoc, List.map_cons, List.cons_append]
    exact hlater.field (hnames pair List.mem_cons_self) pair.2

/-- A byte-order mark starts no line. -/
theorem not_reads_mark (rest : List Char) (list : List Statement) :
    ¬ Reads ('\uFEFF' :: rest) list := by
  intro hreads
  have hspace : isSpace '\uFEFF' = false := by decide
  have hbare : isBareKeyChar '\uFEFF' = false := by decide
  have hkey : key ('\uFEFF' :: rest) = none := by
    change keyParts (nestingLimit - 2 + 1) _ = none
    simp [keyParts, skipSpace_cons hspace, keyPart, hbare]
  have hline : Toml.line ('\uFEFF' :: rest) = none := by
    simp [line, hkey]
  have hstatements := hreads _ (Nat.lt_succ_self _)
  simp [statements, skipSpace_cons hspace, hline] at hstatements

/-- The document of a text is what its statements build.  No mark is dropped from a text that has
statements as it is. -/
theorem parse_of_reads {text : String} {list : List Statement} (hreads : Reads text.toList list) :
    parse text = build list := by
  have hstart : dropByteOrderMark text.toList = text.toList := by
    unfold dropByteOrderMark
    split
    · rename_i rest heq
      rw [heq] at hreads
      exact absurd hreads (not_reads_mark rest list)
    · rfl
  rw [parse, hstart, hreads _ (Nat.lt_succ_self _), Option.bind_some]

end PackagePool.Toml
