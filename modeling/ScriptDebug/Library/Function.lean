/-!
# The functions of the debug library

The library as seen from outside: which functions there are and their names.
-/

namespace ScriptDebug

inductive LibraryFunction where
  | getHook | getInfo | getLocal | getMetatable | getRegistry | getUpvalue | getUserValue
  | setHook | setLocal | setMetatable | setUpvalue | setUserValue
  | traceback | upvalueId | upvalueJoin
  deriving DecidableEq, Inhabited

namespace LibraryFunction

/-- Every function, in the order of the names. -/
def all : List LibraryFunction :=
  [getHook, getInfo, getLocal, getMetatable, getRegistry, getUpvalue, getUserValue,
    setHook, setLocal, setMetatable, setUpvalue, setUserValue,
    traceback, upvalueId, upvalueJoin]

/-- The name of a function in the library table and in its error messages. -/
def name : LibraryFunction → String
  | getHook => "gethook"
  | getInfo => "getinfo"
  | getLocal => "getlocal"
  | getMetatable => "getmetatable"
  | getRegistry => "getregistry"
  | getUpvalue => "getupvalue"
  | getUserValue => "getuservalue"
  | setHook => "sethook"
  | setLocal => "setlocal"
  | setMetatable => "setmetatable"
  | setUpvalue => "setupvalue"
  | setUserValue => "setuservalue"
  | traceback => "traceback"
  | upvalueId => "upvalueid"
  | upvalueJoin => "upvaluejoin"

end LibraryFunction

/-- The failure of a library function whose machine no longer exists. -/
def orphanedText (name : String) : String := "'" ++ name ++ "' called after its VM was dropped"

/-- The failure of a library function called for a thread that does not exist. -/
def unknownThreadText (name : String) : String := "'" ++ name ++ "' called on an unknown thread"

end ScriptDebug
