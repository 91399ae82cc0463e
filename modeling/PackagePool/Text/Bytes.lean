/-!
# Bytes of a text

Positions in a text are byte offsets of its UTF-8 form.  `utf8` gives the bytes, `utf8_toList` says
that they are the bytes the text is stored in, and `slice?` takes the characters between two
offsets.  An offset inside a character has no character before or after it, so there `slice?` has
no answer.
-/

namespace PackagePool.Text

/-- The bytes of the UTF-8 form. -/
def utf8 (cs : List Char) : List UInt8 :=
  cs.flatMap String.utf8EncodeChar

@[simp] theorem utf8_nil : utf8 [] = [] := rfl

@[simp] theorem utf8_cons (c : Char) (cs : List Char) :
    utf8 (c :: cs) = String.utf8EncodeChar c ++ utf8 cs := rfl

@[simp] theorem utf8_append (cs ds : List Char) : utf8 (cs ++ ds) = utf8 cs ++ utf8 ds := by
  simp [utf8]

theorem utf8_toList (s : String) : (utf8 s.toList).toByteArray = s.toByteArray :=
  String.utf8Encode_toList

theorem length_utf8_pos {cs : List Char} (h : cs ≠ []) : 0 < (utf8 cs).length := by
  obtain ⟨c, rest, rfl⟩ := List.exists_cons_of_ne_nil h
  have hpos := c.utf8Size_pos
  rw [utf8_cons, List.length_append, String.length_utf8EncodeChar]
  omega

/-- The characters before and after a byte offset, if it is a character boundary. -/
def splitAtByte? : Nat → List Char → Option (List Char × List Char)
  | 0, cs => some ([], cs)
  | _ + 1, [] => none
  | n + 1, c :: cs =>
    if n + 1 < c.utf8Size then none
    else (splitAtByte? (n + 1 - c.utf8Size) cs).map fun (before, after) => (c :: before, after)

/-- The characters from one byte offset up to another, if both are character boundaries. -/
def slice? (cs : List Char) (start stop : Nat) : Option (List Char) := do
  let (_, tail) ← splitAtByte? start cs
  let (middle, _) ← splitAtByte? (stop - start) tail
  return middle

theorem splitAtByte?_append (before after : List Char) :
    splitAtByte? (utf8 before).length (before ++ after) = some (before, after) := by
  induction before with
  | nil => simp [splitAtByte?]
  | cons c before ih =>
    have hlen : (utf8 (c :: before)).length = (utf8 before).length + c.utf8Size := by
      simp [Nat.add_comm]
    have hpos := c.utf8Size_pos
    obtain ⟨n, hn⟩ : ∃ n, (utf8 (c :: before)).length = n + 1 :=
      ⟨(utf8 before).length + c.utf8Size - 1, by omega⟩
    have hcut : n + 1 - c.utf8Size = (utf8 before).length := by omega
    have hlt : ¬ n + 1 < c.utf8Size := by omega
    rw [hn, List.cons_append, splitAtByte?, if_neg hlt, hcut, ih]
    rfl

theorem slice?_append (before middle after : List Char) :
    slice? (before ++ (middle ++ after)) (utf8 before).length
      ((utf8 before).length + (utf8 middle).length) = some middle := by
  simp [slice?, splitAtByte?_append]

end PackagePool.Text
