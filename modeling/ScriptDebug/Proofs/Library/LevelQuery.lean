import ScriptDebug.Library.Call
import ScriptDebug.Proofs.CallStack.Pushed

/-!
# Questions about levels

The library functions that take a level put a question to the typed interface, for the
stack level that they make of it.  Its answer depends on what is seen of the calls of the
thread, so it is the same one level further out when a call has been added.

## Implementation notes

`LevelQuery.answer` is the typed interface with its results as values, which is what
library functions return.
-/

namespace ScriptDebug

/-! ## Arguments -/

section Arguments

variable {m : Machine} {th target : ThreadId} {level v : Value} {n i : Int64}
  {own rest : List Value} {shift : Nat}

theorem integerArgument_of_toInteger? (hv : v.toInteger? = some i) (function : String)
    (position : Nat) : integerArgument function position v = .ok i := by
  simp only [integerArgument, hv]

/-- A level is a number. -/
theorem isNumber_of_toInteger? (hv : v.toInteger? = some i) :
    (∃ i, v = .integer i) ∨ ∃ x, v = .float x := by
  cases v <;> simp_all [Value.toInteger?]

theorem targetArgument_of_toInteger? (hn : level.toInteger? = some n) (function : String) :
    targetArgument m th function ⟨target, shift, level :: rest⟩ 0 =
      .ok (.level (m.stackLevel th target n)) := by
  obtain ⟨i, rfl⟩ | ⟨x, rfl⟩ := isNumber_of_toInteger? hn <;>
    simp [targetArgument, Arguments.get, hn]

/-- The text of a message argument, which may be missing. -/
inductive MessageText : Value → Option String → Prop
  | none : MessageText .nil none
  | string (s : String) : MessageText (.string s) (some s)
  | number {v : Value} (h : v.isNumber = true) : MessageText v (some v.text)

/-- The letters of a request, which may be missing. -/
inductive RequestLetters : Value → String → Prop
  | default : RequestLetters .nil InfoRequest.defaultLetters
  | string (what : String) : RequestLetters (.string what) what

namespace Machine

theorem libGetInfo_ok {what : String}
    (hown : Arguments.ofValues m th LibraryFunction.getInfo.name own =
      .ok ⟨target, shift, level :: rest⟩)
    (hn : level.toInteger? = some n) (hwhat : RequestLetters (rest.getD 0 .nil) what) :
    m.libGetInfo th own = .ok (m.infoResults target (.level (m.stackLevel th target n)) what) := by
  generalize hv : rest.getD 0 .nil = v at hwhat
  simp only [libGetInfo, hown, targetArgument_of_toInteger? hn, Arguments.get,
    List.getD_cons_succ, hv, bind, Except.bind]
  cases hwhat <;> rfl

theorem libGetLocal_ok
    (hown : Arguments.ofValues m th LibraryFunction.getLocal.name own =
      .ok ⟨target, shift, level :: rest⟩)
    (hn : level.toInteger? = some n) (hi : (rest.getD 0 .nil).toInteger? = some i) :
    m.libGetLocal th own =
      .ok (bindingResults (m.getLocal? target (m.stackLevel th target n) i.toInt), m) := by
  simp only [libGetLocal, hown, targetArgument_of_toInteger? hn, Arguments.get,
    List.getD_cons_succ, integerArgument_of_toInteger? hi, bind, Except.bind]
  rfl

theorem libSetLocal_ok
    (hown : Arguments.ofValues m th LibraryFunction.setLocal.name own =
      .ok ⟨target, shift, level :: rest⟩)
    (hn : level.toInteger? = some n) (hi : (rest.getD 0 .nil).toInteger? = some i) :
    m.libSetLocal th own =
      .ok (match m.setLocal? target (m.stackLevel th target n) i.toInt (rest.getD 1 .nil) with
        | some (name, m) => ([.string name], m)
        | none => ([.nil], m)) := by
  simp only [libSetLocal, hown, Arguments.get, List.getD_cons_succ, List.getD_cons_zero,
    integerArgument_of_toInteger? hi, integerArgument_of_toInteger? hn, bind, Except.bind]
  split <;> simp_all <;> rfl

theorem libTraceback_ok {message : Option String}
    (hown : Arguments.ofValues m th LibraryFunction.traceback.name own =
      .ok ⟨target, shift, v :: level :: rest⟩)
    (hn : level.toInteger? = some n) (hv : MessageText v message) :
    m.libTraceback th own =
      .ok ([.string (m.traceback target message (m.stackLevel th target n))], m) := by
  have hlevel : ∀ (function : String) (position : Nat) (default : Int64),
      optionalInteger function position default level = .ok n := by
    intro function position default
    obtain ⟨i, rfl⟩ | ⟨x, rfl⟩ := isNumber_of_toInteger? hn <;>
      exact integerArgument_of_toInteger? hn function position
  simp only [libTraceback, hown, Arguments.get, List.getD_cons_succ, List.getD_cons_zero, hlevel,
    bind, Except.bind]
  cases hv with
  | none => rfl
  | string s => rfl
  | number h => cases v <;> first | rfl | cases h

end Machine

end Arguments

/-- A question about the call at a level. -/
inductive LevelQuery where
  | getInfo (what : String)
  | getLocal (n : Int64)
  | setLocal (n : Int64) (v : Value)
  | traceback (message : Option String)

namespace LevelQuery

/-- The library function that a question is put to. -/
def function : LevelQuery → LibraryFunction
  | getInfo _ => .getInfo
  | getLocal _ => .getLocal
  | setLocal .. => .setLocal
  | traceback _ => .traceback

/-- The typed answer for a level, as values, and the machine afterwards. -/
def answer (q : LevelQuery) (m : Machine) (th : ThreadId) (level : Int) : List Value × Machine :=
  match q with
  | getInfo what => m.infoResults th (.level level) what
  | getLocal n => (bindingResults (m.getLocal? th level n.toInt), m)
  | setLocal n v =>
    match m.setLocal? th level n.toInt v with
    | some (name, m) => ([.string name], m)
    | none => ([.nil], m)
  | traceback message => ([.string (m.traceback th message level)], m)

/-- The answer where no call is: nothing or nil.  A traceback starts at the innermost
call instead. -/
def absent (q : LevelQuery) (m : Machine) (th : ThreadId) : List Value × Machine :=
  match q with
  | getInfo _ => ([], m)
  | getLocal _ | setLocal .. => ([.nil], m)
  | traceback _ => q.answer m th 1

/-- Arguments that put a question about a level, given as a value. -/
inductive Asked (level : Value) : LevelQuery → List Value → Prop
  | getInfo {rest : List Value} {what : String} (h : RequestLetters (rest.getD 0 .nil) what) :
      Asked level (.getInfo what) (level :: rest)
  | getLocal {rest : List Value} {n : Int64} (h : (rest.getD 0 .nil).toInteger? = some n) :
      Asked level (.getLocal n) (level :: rest)
  | setLocal {rest : List Value} {n : Int64} (h : (rest.getD 0 .nil).toInteger? = some n) :
      Asked level (.setLocal n (rest.getD 1 .nil)) (level :: rest)
  | traceback {v : Value} {rest : List Value} {message : Option String}
      (h : MessageText v message) : Asked level (.traceback message) (v :: level :: rest)

variable {q : LevelQuery} {m : Machine} {th target : ThreadId} {level : Value} {n : Int64}
  {args own : List Value} {shift : Nat}

/-! ## Asking -/

/-- The library function puts the question to the typed interface, for a level of its own. -/
theorem run_asked (hexists : (m.thread? th).isSome)
    (hown : Arguments.ofValues m th q.function.name own = .ok ⟨target, shift, args⟩)
    (hasked : q.Asked level args) (hn : level.toInteger? = some n) :
    q.function.run m th own = .ok (q.answer m target (m.stackLevel th target n)) := by
  simp only [LibraryFunction.run, if_pos hexists]
  cases hasked with
  | getInfo h => exact Machine.libGetInfo_ok hown hn h
  | getLocal h => exact Machine.libGetLocal_ok hown hn h
  | setLocal h => exact Machine.libSetLocal_ok hown hn h
  | traceback h => exact Machine.libTraceback_ok hown hn h

/-- Without a thread in front the question is about the calling thread. -/
theorem Asked.ofValues (hasked : q.Asked level args) (hn : level.toInteger? = some n)
    (function : String) : Arguments.ofValues m th function args = .ok ⟨th, 0, args⟩ := by
  have hlevel : ∀ rest, Arguments.ofValues m th function (level :: rest) =
      .ok ⟨th, 0, level :: rest⟩ := by
    intro rest
    obtain ⟨i, rfl⟩ | ⟨x, rfl⟩ := isNumber_of_toInteger? hn <;> rfl
  cases hasked with
  | @traceback v _ _ h =>
      cases h with
      | none => rfl
      | string s => rfl
      | number h => cases v <;> first | rfl | cases h
  | _ => exact hlevel _

theorem ofValues_thread (htarget : (m.thread? target).isSome) (function : String)
    (args : List Value) :
    Arguments.ofValues m th function (.thread target :: args) = .ok ⟨target, 1, args⟩ :=
  if_pos htarget

/-! ## Answers -/

/-- The same values and the same objects. -/
def SameAnswer (r r' : List Value × Machine) : Prop := r.1 = r'.1 ∧ r.2.store = r'.2.store

/-- Answering changes objects only. -/
theorem answer_machine (q : LevelQuery) (m : Machine) (th : ThreadId) (n : Int) :
    ∃ store, (q.answer m th n).2 = { m with store } := by
  cases q with
  | getInfo what =>
      simp only [answer, Machine.infoResults]
      split
      · exact ⟨_, rfl⟩
      · exact ⟨m.store, rfl⟩
  | getLocal i => exact ⟨m.store, rfl⟩
  | setLocal i v =>
      simp only [answer]
      split
      · rename_i name m' hset
        simp only [Machine.setLocal?, Option.bind_eq_bind, Option.bind_eq_some_iff] at hset
        obtain ⟨fr, -, ⟨name', store⟩, -, hset⟩ := hset
        cases hset
        exact ⟨store, rfl⟩
      · exact ⟨m.store, rfl⟩
  | traceback message => exact ⟨m.store, rfl⟩

/-- No call is at a level below 1. -/
theorem answer_of_lt_one {k : Int} (hk : k < 1) : q.answer m th k = q.absent m th := by
  have hframe : (m.calls th).frame? k = none := CallStack.frame?_of_lt_one hk
  cases q with
  | getInfo what =>
      simp only [answer, absent, Machine.infoResults, Machine.getInfo?, Store.infoAtLevel?, hframe]
      rfl
  | getLocal i =>
      simp only [answer, absent, Machine.getLocal?, hframe]
      rfl
  | setLocal i v =>
      simp only [answer, absent, Machine.setLocal?, hframe]
      rfl
  | traceback message =>
      have htext : m.traceback th message k = m.traceback th message 1 :=
        m.store.traceback_of_lt_one m.settings.sourceSize message hk
      simp only [answer, absent, htext]

/-- Answers are the same where the same is seen of the calls. -/
theorem answer_of_views {m' : Machine} {k k' : Int} (hstore : m'.store = m.store)
    (hframe : (m'.calls th).frame? k' = (m.calls th).frame? k)
    (hinfo : ∀ what, m'.getInfo? th (.level k') what = m.getInfo? th (.level k) what)
    (htext : ∀ message, m'.traceback th message k' = m.traceback th message k) :
    SameAnswer (q.answer m' th k') (q.answer m th k) := by
  cases q with
  | getInfo what =>
      simp only [answer, Machine.infoResults, hinfo]
      cases m.getInfo? th (.level k) what with
      | none => exact ⟨rfl, hstore⟩
      | some info => exact ⟨by rw [hstore], by rw [hstore]⟩
  | getLocal i => exact ⟨by simp only [answer, Machine.getLocal?, hframe, hstore], hstore⟩
  | setLocal i v =>
      simp only [answer, Machine.setLocal?, hframe, hstore, Option.bind_eq_bind]
      cases (m.calls th).frame? k with
      | none => exact ⟨rfl, hstore⟩
      | some fr =>
          simp only [Option.bind_some]
          cases fr.setLocal? m.store i.toInt v with
          | none => exact ⟨rfl, hstore⟩
          | some r => exact ⟨rfl, rfl⟩
  | traceback message => exact ⟨by simp only [answer, htext], hstore⟩

/-- Beyond the calls all levels are alike. -/
theorem answer_of_depth_lt {l : List Frame} (h : (m.calls th).Represents l) {k k' : Int}
    (hk : (m.calls th).depth < k) (hk' : (m.calls th).depth < k') :
    SameAnswer (q.answer m th k') (q.answer m th k) := by
  have hframe : (m.calls th).frame? k' = (m.calls th).frame? k := by
    rw [CallStack.frame?_of_depth_lt hk, CallStack.frame?_of_depth_lt hk']
  apply answer_of_views rfl hframe
  · intro what
    simp only [Machine.getInfo?, Store.infoAtLevel?, CallStack.frame?_of_depth_lt hk,
      CallStack.frame?_of_depth_lt hk', Option.map_none]
  · intro message
    exact m.store.traceback_of_depth_lt m.settings.sourceSize h message hk' hk

/-- Only the calls of the thread count. -/
theorem answer_congr {m' : Machine} (hcalls : m'.calls th = m.calls th)
    (hstore : m'.store = m.store) (hsettings : m'.settings = m.settings) (k : Int) :
    SameAnswer (q.answer m' th k) (q.answer m th k) := by
  apply answer_of_views hstore
  · rw [hcalls]
  · intro what
    simp only [Machine.getInfo?, hcalls, hstore, hsettings]
  · intro message
    rw [Machine.traceback, hcalls, hstore, hsettings]
    rfl

/-- After one call more the answers are those of one level less. -/
theorem answer_push {m' : Machine} {l : List Frame} {fr : Frame}
    (h : (m.calls th).Represents l) (hcalls : m'.calls th = (m.calls th).push fr)
    (hstore : m'.store = m.store) (hsettings : m'.settings = m.settings)
    (hfirst : ∀ fr' ∈ (m.calls th).frames, fr'.callee ≠ fr.callee) {k : Int} (hk : 1 ≤ k) :
    SameAnswer (q.answer m' th (k + 1)) (q.answer m th k) := by
  apply answer_of_views hstore
  · rw [hcalls, h.frame?_push_succ fr hk]
  · intro what
    simp only [Machine.getInfo?, hcalls, hstore, hsettings,
      m.store.infoAtLevel?_push m.settings.sourceSize h _ hfirst hk]
  · intro message
    rw [Machine.traceback, hcalls, hstore, hsettings]
    exact m.store.traceback_push m.settings.sourceSize h fr message hk

end LevelQuery

end ScriptDebug
