/-!
# Visibility of members
-/

namespace HostCall

inductive Visibility
  | «public» | «protected» | «private»
deriving DecidableEq

namespace Visibility

def text : Visibility → String
  | .public => "public"
  | .protected => "protected"
  | .private => "private"

def describe : Visibility → String
  | .public => "Public"
  | .protected => "Protected"
  | .private => "Private"

def isPublic (v : Visibility) : Bool := decide (v = .public)

end Visibility

end HostCall
