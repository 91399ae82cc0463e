/-!
# Three-valued outcomes

Matching a requirement against a provided capability answers yes, no, or maybe; maybe stands for a
question that the two capabilities alone do not settle.  Outcomes combine by Kleene's strong
three-valued logic.
-/

namespace PackagePool

/-- The answer to a match. -/
inductive Outcome
  | yes
  | maybe
  | no
  deriving DecidableEq, Repr, Hashable

namespace Outcome

def isYes (o : Outcome) : Bool :=
  o == yes

def isMaybe (o : Outcome) : Bool :=
  o == maybe

def isNo (o : Outcome) : Bool :=
  o == no

/-- The written form. -/
def name : Outcome → String
  | yes => "yes"
  | maybe => "maybe"
  | no => "no"

instance : ToString Outcome := ⟨name⟩

/-- Conjunction: no dominates, then maybe. -/
def and : Outcome → Outcome → Outcome
  | no, _ => no
  | _, no => no
  | maybe, _ => maybe
  | _, maybe => maybe
  | yes, yes => yes

/-- Disjunction: yes dominates, then maybe. -/
def or : Outcome → Outcome → Outcome
  | yes, _ => yes
  | _, yes => yes
  | maybe, _ => maybe
  | _, maybe => maybe
  | no, no => no

/-- Negation; maybe stays maybe. -/
def not : Outcome → Outcome
  | yes => no
  | maybe => maybe
  | no => yes

/-- A settled answer. -/
def ofBool (b : Bool) : Outcome :=
  if b then yes else no

/-- An expression over outcomes. -/
inductive Formula
  | leaf (o : Outcome)
  | and (f g : Formula)
  | or (f g : Formula)
  | not (f : Formula)
  deriving DecidableEq, Repr

/-- The outcome of an expression. -/
def Formula.value : Formula → Outcome
  | leaf o => o
  | and f g => f.value.and g.value
  | or f g => f.value.or g.value
  | not f => f.value.not

end Outcome

end PackagePool
