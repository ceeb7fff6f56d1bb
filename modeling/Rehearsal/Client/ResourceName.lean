/-!
# Resource names

Two templates for the path of a resource: `id/{id}/single` and `id/{id}/first`.  The service takes
such paths as they are, so only its callers render and read them.  A path is read if it is rendered
from one segment, an identifier that is not empty and has no slash.
-/

namespace Rehearsal.Client

/-- A template for a path, by what follows the identifier. -/
inductive Template where
  | single
  | first
  deriving DecidableEq, Repr

namespace Template

/-- What comes before the identifier. -/
def front : List Char := ['i', 'd', '/']

/-- What comes after the identifier. -/
def back : Template → List Char
  | single => ['/', 's', 'i', 'n', 'g', 'l', 'e']
  | first => ['/', 'f', 'i', 'r', 's', 't']

/-- The path of an identifier. -/
def render (template : Template) (id : String) : String :=
  String.ofList (front ++ id.toList ++ template.back)

/-- What a text holds between a front and a back. -/
def between? (front back text : List Char) : Option (List Char) :=
  if front.isPrefixOf text && back.isSuffixOf (text.drop front.length) then
    some ((text.drop front.length).take (text.length - front.length - back.length))
  else none

/-- Whether a text is one segment of a path. -/
def isSegment (text : List Char) : Bool := !text.isEmpty && !text.contains '/'

/-- The identifier of a path, if the path is rendered from one segment. -/
def parse? (template : Template) (path : String) : Option String :=
  ((between? front template.back path.toList).filter isSegment).map String.ofList

end Template

end Rehearsal.Client
