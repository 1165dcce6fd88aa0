import Retrace.Text.Cut

/-!
# Call signatures

The log names a callee by its signature: a qualified method name with its parameter types in
parentheses, the bare name of a class for a constructor, or the name of a code unit.

* `Signature.className`: the class that owns the callee.
* `Signature.isPropertyAccess`: the accessor calls of pages, which open no frame.
* `inlineScript`, `triggerUnit`: the code units that are found by name and not by class.
-/

namespace Retrace

/-- The code unit of a script that was sent to the server as text. -/
def inlineScript : String := "execute_anonymous_apex"

/-- What the names of trigger code units begin with. -/
def triggerUnit : String := "__sfdc_trigger/"

namespace Signature

/-- The owning class: the signature without its parameter list, up to the last dot. Without a dot
it is the whole name. -/
def className (signature : String) : String :=
  let head := (Text.cutFirst '(' signature.toList).elim signature.toList Prod.fst
  String.ofList ((Text.cutLast '.' head).elim head Prod.fst)

/-- Whether the signature is of a getter or setter that a page calls for one of its fields. -/
def isPropertyAccess (signature : String) : Bool :=
  Text.contains signature " get(" || Text.contains signature " set("

end Signature

end Retrace
