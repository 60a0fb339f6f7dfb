import ScriptDebug.Table.Key

/-!
# Tables

A table stores the values of the keys 1, 2, … in an array as far as they follow
each other, and all others in a list of entries.  Storing nil removes a key.

## Implementation notes

An entry whose key comes to follow the array is moved into it by `absorb`, and
trailing nils leave the array at once, so `length` is the size of the array.
Entries are kept under distinct keys by `putEntry`, which erases first.
-/

namespace ScriptDebug

structure Table where
  array : Array Value
  entries : List (TableKey × Value)
  metatable : Option TableId
  deriving DecidableEq, Inhabited

namespace Table

def empty : Table := ⟨#[], [], none⟩

def length (t : Table) : Nat := t.array.size

/-! ## Entries outside the array -/

def entry (t : Table) (k : TableKey) : Value := (t.entries.lookup k).getD .nil

def eraseEntry (entries : List (TableKey × Value)) (k : TableKey) : List (TableKey × Value) :=
  entries.filter fun e => e.1 != k

theorem length_eraseEntry_lt {entries : List (TableKey × Value)} {k : TableKey} {v : Value}
    (h : entries.lookup k = some v) : (eraseEntry entries k).length < entries.length := by
  refine List.length_filter_lt_length_iff_exists.mpr ⟨(k, v), ?_, by simp⟩
  obtain ⟨before, after, rfl, -⟩ := List.lookup_eq_some_iff.mp h
  simp

/-- Store a value under a key outside the array; nil removes the key. -/
def putEntry (t : Table) (k : TableKey) (v : Value) : Table :=
  let rest := eraseEntry t.entries k
  { t with entries := if v = .nil then rest else (k, v) :: rest }

/-! ## The array -/

/-- The key that would continue the array. -/
def nextKey (t : Table) : TableKey := .integer (t.array.size + 1)

/-- Move the entries that continue the array into it. -/
def absorb (t : Table) : Table :=
  match h : t.entries.lookup t.nextKey with
  | none => t
  | some v =>
    have := length_eraseEntry_lt h
    absorb { t with array := t.array.push v, entries := eraseEntry t.entries t.nextKey }
termination_by t.entries.length

/-- Drop the nils at the end of the array. -/
def trim (t : Table) : Table :=
  { t with array := t.array.popWhile (· == .nil) }

/-! ## Reading and writing -/

/-- The value of an integer key. -/
def getIndex (t : Table) (n : Int) : Value :=
  if 1 ≤ n ∧ n ≤ t.array.size then t.array.getD (n - 1).toNat .nil
  else t.entry (.integer n)

/-- Store a value under an integer key. -/
def setIndex (t : Table) (n : Int) (v : Value) : Table :=
  if 1 ≤ n ∧ n ≤ t.array.size then
    { t with array := t.array.setIfInBounds (n - 1).toNat v }.trim
  else if n = t.array.size + 1 then
    if v = .nil then t else { t with array := t.array.push v }.absorb
  else
    t.putEntry (.integer n) v

def getField (t : Table) (name : String) : Value := t.entry (.string name)

def setField (t : Table) (name : String) (v : Value) : Table := t.putEntry (.string name) v

/-- The value of a key, nil for what is no key. -/
def get (t : Table) (key : Value) : Value :=
  match TableKey.ofValue key with
  | .ok (.integer n) => t.getIndex n
  | .ok k => t.entry k
  | .error _ => .nil

/-- Store a value under a key. -/
def set (t : Table) (key v : Value) : Except KeyError Table :=
  match TableKey.ofValue key with
  | .ok (.integer n) => .ok (t.setIndex n v)
  | .ok k => .ok (t.putEntry k v)
  | .error e => .error e

end Table

end ScriptDebug
