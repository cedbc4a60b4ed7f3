/-
  ViewTree.Live.Failure — what goes wrong with a live instance.

  Every failure has a message and a kind; the kind is what a log names it by.
-/

namespace ViewTree.Live

inductive Failure where
  | usedAfterDestroy (type : String)
  /-- What the class of an instance, or a factory, raises of itself. -/
  | raised (kind message : String)
  | notCountable (typeName : String)
  | handlerFails (name : String)
  | notCallable (typeName : String)
  /-- Something that is called with data was called without. -/
  | wantsData (typeName : String)
  | noAttribute (typeName member : String)
  | notIterable (typeName : String)
  /-- Something in the place of the inputs takes none. -/
  | notAssignable (typeName : String)
  /-- Something in the place of the count of refreshes is no number. -/
  | notAddable (typeName : String)
  /-- Something that is no text was taken for the name of a member. -/
  | notName (typeName : String)
  /-- Something was put in the place of the class of an instance. -/
  | notClass (typeName : String)
  | endless
deriving DecidableEq, Repr

namespace Failure

def message : Failure → String
  | usedAfterDestroy type => "Component '" ++ type ++ "' used after destroy"
  | raised _ message => message
  | notCountable typeName => "object of type '" ++ typeName ++ "' has no len()"
  | handlerFails name => "handler " ++ name ++ " failed"
  | notCallable typeName => "'" ++ typeName ++ "' object is not callable"
  | wantsData typeName =>
    typeName ++ ".__call__() missing 1 required positional argument: 'data'"
  | noAttribute typeName member =>
    "'" ++ typeName ++ "' object has no attribute '" ++ member ++ "'"
  | notIterable typeName => "'" ++ typeName ++ "' object is not iterable"
  | notAssignable typeName =>
    "'" ++ typeName ++ "' object does not support item assignment"
  | notAddable typeName =>
    "unsupported operand type(s) for +=: '" ++ typeName ++ "' and 'int'"
  | notName typeName => "attribute name must be string, not '" ++ typeName ++ "'"
  | notClass typeName =>
    "__class__ must be set to a class, not '" ++ typeName ++ "' object"
  | endless => "maximum recursion depth exceeded"

/-- The kind of a failure, as it is logged. -/
def kind : Failure → String
  | usedAfterDestroy _ => "RuntimeError"
  | raised kind _ => kind
  | notCountable _ => "TypeError"
  | handlerFails _ => "RuntimeError"
  | notCallable _ => "TypeError"
  | wantsData _ => "TypeError"
  | noAttribute _ _ => "AttributeError"
  | notIterable _ => "TypeError"
  | notAssignable _ => "TypeError"
  | notAddable _ => "TypeError"
  | notName _ => "TypeError"
  | notClass _ => "TypeError"
  | endless => "RecursionError"

end Failure

end ViewTree.Live
