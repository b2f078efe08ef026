import Sentential.Alphabet
/-!
# Labels of the two sets

The labels of a diagram are given as a list of texts, or as one text whose characters are the
labels.  A summary takes exactly two labels; a drawing takes the first two.
-/

namespace Sentential

/-- The labels of the two sets: a list of texts, or a text whose characters are the labels. -/
inductive Labels where
  | texts (labels : List String)
  | letters (s : String)

/-- Labels that do not name exactly two sets. -/
inductive LabelError where
  | tooFew (count : Nat)
  | tooMany
  | noText
  | noLetter
  deriving DecidableEq

namespace LabelError

def message : LabelError → String
  | .tooFew count => "not enough values to unpack (expected 2, got " ++ toString count ++ ")"
  | .tooMany => "too many values to unpack (expected 2)"
  | .noText => "list index out of range"
  | .noLetter => "string index out of range"

end LabelError

namespace Labels

def toList : Labels → List String
  | .texts labels => labels
  | .letters s => s.toList.map String.singleton

/-- The labels where none are given. -/
def standard : Labels := .texts Alphabet.diagram.atoms

/-- The labels of the left and the right set, if there are exactly two. -/
def pair (labels : Labels) : Except LabelError (String × String) :=
  match labels.toList with
  | [left, right] => .ok (left, right)
  | [] => .error (.tooFew 0)
  | [_] => .error (.tooFew 1)
  | _ :: _ :: _ :: _ => .error .tooMany

/-- The first two labels, whether or not there are more. -/
def firstTwo (labels : Labels) : Except LabelError (String × String) :=
  match labels, labels.toList with
  | _, left :: right :: _ => .ok (left, right)
  | .texts _, _ => .error .noText
  | .letters _, _ => .error .noLetter

end Labels

end Sentential
