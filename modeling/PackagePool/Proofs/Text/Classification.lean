/-!
# Classified answers

A reading answers with a value or with an error.  To say what it answers with, it is enough to say
when a value is due and when an error is due, and that one of the two is due in every case: nothing
else can then be the answer (`Classifies.eq_ok_iff`, `Classifies.eq_error_iff`).
-/

namespace PackagePool.Text

/-- The answer is the value that is due, or the error that is due. -/
structure Classifies {ε α : Type} (answer : Except ε α) (value : α → Prop) (fault : ε → Prop) :
    Prop where
  total : (∃ a, value a) ∨ ∃ e, fault e
  ok : ∀ a, value a → answer = .ok a
  error : ∀ e, fault e → answer = .error e

namespace Classifies

variable {ε α : Type} {answer : Except ε α} {value : α → Prop} {fault : ε → Prop}

theorem eq_ok_iff (h : Classifies answer value fault) {a : α} : answer = .ok a ↔ value a := by
  refine ⟨fun ha => ?_, h.ok a⟩
  rcases h.total with ⟨b, hb⟩ | ⟨e, he⟩
  · have hsame := ha.symm.trans (h.ok b hb)
    obtain rfl := Except.ok.inj hsame
    exact hb
  · have hclash := ha.symm.trans (h.error e he)
    cases hclash

theorem eq_error_iff (h : Classifies answer value fault) {e : ε} :
    answer = .error e ↔ fault e := by
  refine ⟨fun he => ?_, h.error e⟩
  rcases h.total with ⟨a, ha⟩ | ⟨f, hf⟩
  · have hclash := he.symm.trans (h.ok a ha)
    cases hclash
  · have hsame := he.symm.trans (h.error f hf)
    obtain rfl := Except.error.inj hsame
    exact hf

end Classifies

end PackagePool.Text
