import Robins.Protocol.Envelope

/-!
# Authorization decisions

A decision is about a verified sensor.  It is yes, no, or an error when none could be made; a
policy may know it at once, or need a lookup.  The pipeline has one interface to all policies, and
this module has the types that cross it.
-/

namespace Robins
namespace Auth

open Protocol

abbrev NodeId := UInt64

/-- Why an authorization decision could not be made. -/
inductive AuthError where
  | unavailable (reason : String)
  | lookup (reason : String)
  | timeout
  | chainMismatch (expected actual : String)
  | rootMissing (root : NodeId)
  | inconsistent (reason : String)
  deriving DecidableEq, Repr

/-- The text of an error (its `Display`). -/
def AuthError.toText : AuthError → String
  | .unavailable reason => "chain unavailable: " ++ reason
  | .lookup reason => "CPS lookup failed: " ++ reason
  | .timeout => "CPS lookup timed out"
  | .chainMismatch expected actual =>
    "unexpected genesis hash 0x" ++ actual ++ ", expected 0x" ++ expected
  | .rootMissing root => "configured CPS root node " ++ toString root ++ " does not exist"
  | .inconsistent reason => "inconsistent CPS tree: " ++ reason

/-- What a lookup decides. -/
abbrev Decision := Except AuthError Bool

end Auth
end Robins
