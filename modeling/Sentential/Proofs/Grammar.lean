import Sentential.Formula
import Sentential.Proofs.Symbol
/-!
# The grammar of formulas

Formulas are written in four strata.  The outermost holds the conditional and the biconditional,
then come disjunction and conjunction, and last the literals: atoms, negations and formulas in
parentheses.  Every binary connective groups to the left, so its right operand is of the next
stratum.  Parentheses leave no trace in the tree.
-/

namespace Sentential

/-- The strata of the grammar, from the outermost to the innermost. -/
inductive Stratum where
  | conditional
  | disjunction
  | conjunction
  | literal
  deriving DecidableEq

/-- The least precedence of a connective of the stratum. -/
def Stratum.precedence : Stratum → Nat
  | .conditional => 1
  | .disjunction => 2
  | .conjunction => 3
  | .literal => 4

namespace Alphabet

/-- The token lists of a stratum, each with the tree that its derivation gives. -/
inductive Derives (a : Alphabet) : Stratum → List String → Formula → Prop
  | ofDisjunction {ts : List String} {f : Formula} :
      Derives a .disjunction ts f → Derives a .conditional ts f
  | implies {ss ts : List String} {f g : Formula} :
      Derives a .conditional ss f → Derives a .disjunction ts g →
        Derives a .conditional (ss ++ "→" :: ts) (.binary .implies f g)
  | iff {ss ts : List String} {f g : Formula} :
      Derives a .conditional ss f → Derives a .disjunction ts g →
        Derives a .conditional (ss ++ "↔" :: ts) (.binary .iff f g)
  | ofConjunction {ts : List String} {f : Formula} :
      Derives a .conjunction ts f → Derives a .disjunction ts f
  | or {ss ts : List String} {f g : Formula} :
      Derives a .disjunction ss f → Derives a .conjunction ts g →
        Derives a .disjunction (ss ++ "∨" :: ts) (.binary .or f g)
  | ofLiteral {ts : List String} {f : Formula} :
      Derives a .literal ts f → Derives a .conjunction ts f
  | and {ss ts : List String} {f g : Formula} :
      Derives a .conjunction ss f → Derives a .literal ts g →
        Derives a .conjunction (ss ++ "∧" :: ts) (.binary .and f g)
  | atom {name : String} : name ∈ a.atoms → Derives a .literal [name] (.atom name)
  | not {ts : List String} {f : Formula} :
      Derives a .literal ts f → Derives a .literal ("¬" :: ts) (.negation f)
  | group {ts : List String} {f : Formula} :
      Derives a .conditional ts f → Derives a .literal ("(" :: (ts ++ [")"])) f

end Alphabet

end Sentential
