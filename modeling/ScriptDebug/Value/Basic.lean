import ScriptDebug.Number.Binary64

/-!
# Values

Script values and the handles by which they refer to objects.  A handle is the
position of an object among the objects of its sort, so identity of objects is
equality of handles.

## Implementation notes

Structural equality of values compares floats by their bits.  Equality as
scripts see it is `Value.equals`, where integers and floats compare by value.
-/

namespace ScriptDebug

/-- The sorts of objects that are referred to by handle. -/
inductive ObjectSort where
  | table | userdata | cell | window | function | thread

/-- A reference to an object of the given sort. -/
structure Handle (sort : ObjectSort) where
  index : Nat
  deriving DecidableEq, Inhabited

abbrev TableId := Handle .table
abbrev UserdataId := Handle .userdata
abbrev CellId := Handle .cell
abbrev WindowId := Handle .window
abbrev FunctionId := Handle .function
abbrev ThreadId := Handle .thread

inductive Value where
  | nil
  | boolean (b : Bool)
  | integer (i : Int64)
  | float (x : Binary64)
  | string (s : String)
  | table (t : TableId)
  | function (f : FunctionId)
  | userdata (u : UserdataId)
  | lightUserdata (p : UInt64)
  | thread (t : ThreadId)
  deriving DecidableEq, Inhabited

/-- The classes of values.  Integers and floats are one kind; light userdata is
a kind apart from full userdata. -/
inductive ValueKind where
  | nil | boolean | number | string | table | function | userdata | lightUserdata | thread
  deriving DecidableEq, Inhabited

namespace ValueKind

def all : List ValueKind :=
  [nil, boolean, number, string, table, function, userdata, lightUserdata, thread]

/-- The type name that scripts see; it does not tell the two userdata kinds apart. -/
def typeName : ValueKind → String
  | nil => "nil"
  | boolean => "boolean"
  | number => "number"
  | string => "string"
  | table => "table"
  | function => "function"
  | userdata | lightUserdata => "userdata"
  | thread => "thread"

end ValueKind

namespace Value

def kind : Value → ValueKind
  | nil => .nil
  | boolean _ => .boolean
  | integer _ | float _ => .number
  | string _ => .string
  | table _ => .table
  | function _ => .function
  | userdata _ => .userdata
  | lightUserdata _ => .lightUserdata
  | thread _ => .thread

def typeName (v : Value) : String := v.kind.typeName

def isNil (v : Value) : Bool := v == nil

/-- Only nil and false are falsy. -/
def isFalsy : Value → Bool
  | nil | boolean false => true
  | _ => false

def isNumber (v : Value) : Bool := v.kind == .number

/-- The 64-bit integer that a value is: an integer, or a float that is one. -/
def toInteger? : Value → Option Int64
  | integer i => some i
  | float x => (x.toInt?.filter fun n => -2 ^ 63 ≤ n && n < 2 ^ 63).map Int64.ofInt
  | _ => none

def toString? : Value → Option String
  | string s => some s
  | _ => none

def toFunction? : Value → Option FunctionId
  | function f => some f
  | _ => none

def toTable? : Value → Option TableId
  | table t => some t
  | _ => none

/-- Equality of an integer and a float: the float is an integer, namely the one
that the integer rounds to in floating point. -/
def integerEqualsFloat (i : Int64) (x : Binary64) : Bool :=
  x.toInt? == some (roundIntTo53 i.toInt)

/-- Equality as scripts see it, metamethods apart. -/
def equals : Value → Value → Bool
  | float x, float y => x.equals y
  | integer i, float x | float x, integer i => integerEqualsFloat i x
  | v, w => v == w

end Value

end ScriptDebug
