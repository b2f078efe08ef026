import Sentential.Text.Quoted
/-!
# The regions of a two-set diagram

A diagram of two overlapping circles has three regions that can be shaded: inside the left circle
only, inside the right circle only, and inside both.  What lies outside both is never shaded.
-/

namespace Sentential

inductive Region where
  | leftOnly
  | rightOnly
  | both
  deriving DecidableEq

/-- A name that no region has. -/
structure UnknownRegion where
  name : String

namespace Region

def all : List Region := [.leftOnly, .rightOnly, .both]

def name : Region → String
  | .leftOnly => "left_only"
  | .rightOnly => "right_only"
  | .both => "both"

/-- The region with a given name. -/
def ofName (name : String) : Except UnknownRegion Region :=
  match all.find? (fun r => r.name == name) with
  | some r => .ok r
  | none => .error ⟨name⟩

end Region

namespace UnknownRegion

def message (e : UnknownRegion) : String :=
  "Unknown region " ++ Text.quoted e.name ++ "; expected one of " ++
    Text.quotedGroup (Region.all.map Region.name)

end UnknownRegion

end Sentential
