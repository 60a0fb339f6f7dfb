import ScriptDebug.Proofs.Machine.Execution

/-!
# What the reflection interface and the library depend on

Machines with the same execution, all of whose threads are outside their hooks, give the same
answers and change in the same way.  The exceptions are the two functions of the library that
are about hooks.

## Implementation notes

A change is the same for two machines if both get the same objects and everything else stays
as it was in each of them.
-/

namespace ScriptDebug

/-- Two computations fail alike, or both succeed with related results. -/
inductive Alike {ε α : Type} (Q : α → α → Prop) : Except ε α → Except ε α → Prop
  | error (e : ε) : Alike Q (.error e) (.error e)
  | ok {a b : α} (h : Q a b) : Alike Q (.ok a) (.ok b)

namespace Alike

variable {ε ε' α β : Type} {Q : α → α → Prop} {Q' : β → β → Prop}

theorem bind {x y : Except ε α} {f g : α → Except ε β} (hx : Alike Q x y)
    (hf : ∀ a b, Q a b → Alike Q' (f a) (g b)) : Alike Q' (x >>= f) (y >>= g) := by
  cases hx with
  | error e => exact .error e
  | ok h => exact hf _ _ h

/-- After one and the same first part. -/
theorem bind_same (x : Except ε α) {f g : α → Except ε β} (hf : ∀ a, Alike Q' (f a) (g a)) :
    Alike Q' (x >>= f) (x >>= g) := by
  cases x with
  | error e => exact .error e
  | ok a => exact hf a

theorem mapError {x y : Except ε α} (h : Alike Q x y) (f : ε → ε') :
    Alike Q (x.mapError f) (y.mapError f) := by
  cases h with
  | error e => exact .error (f e)
  | ok h => exact .ok h

end Alike

namespace Machine

/-- Two machines change by getting the same objects, with the native functions they had. -/
def SameChange (m m' m₁ m₁' : Machine) : Prop :=
  ∃ store k, m.store.KeepsNatives store ∧ m₁ = m.withObjects store k ∧
    m₁' = m'.withObjects store k

/-- Equal answers, and the same change. -/
def SameAnswer {α : Type} (m m' : Machine) (r r' : α × Machine) : Prop :=
  r'.1 = r.1 ∧ SameChange m m' r.2 r'.2

variable {m m' : Machine}

namespace SameExecution

variable (h : SameExecution m m')

include h

/-! ## Changes -/

theorem sameChange_refl : SameChange m m' m m' :=
  ⟨m.store, m.kindMetatables, .refl _, rfl, by rw [← h.store, ← h.kindMetatables]; rfl⟩

theorem sameChange_store {store : Store} (hkeeps : m.store.KeepsNatives store) :
    SameChange m m' { m with store } { m' with store } :=
  ⟨store, m.kindMetatables, hkeeps, rfl, by rw [← h.kindMetatables]; rfl⟩

/-! ## Reading -/

variable (th current : ThreadId)

theorem levelShift (target : ThreadId) :
    m'.levelShift current target = m.levelShift current target := by
  simp only [Machine.levelShift, h.outside, h.outside', h.calls, h.store]

theorem stackLevel (target : ThreadId) (level : Int64) :
    m'.stackLevel current target level = m.stackLevel current target level := by
  simp only [Machine.stackLevel, h.levelShift]

theorem ofValues (function : String) (args : List Value) :
    Arguments.ofValues m' current function args = Arguments.ofValues m current function args := by
  simp only [Arguments.ofValues, h.isSome]

theorem targetArgument (function : String) (a : Arguments) (n : Nat) :
    ScriptDebug.targetArgument m' current function a n =
      ScriptDebug.targetArgument m current function a n := by
  simp only [ScriptDebug.targetArgument, h.stackLevel]

theorem getInfo? (target : InfoTarget) (what : String) :
    m'.getInfo? th target what = m.getInfo? th target what := by
  simp only [Machine.getInfo?, h.sourceSize, h.store, h.calls]

theorem getLocal? (level n : Int) : m'.getLocal? th level n = m.getLocal? th level n := by
  simp only [Machine.getLocal?, h.store, h.calls]

theorem localNameOf? (f : FunctionId) (n : Int) : m'.localNameOf? f n = m.localNameOf? f n := by
  simp only [Machine.localNameOf?, h.store]

theorem traceback (message : Option String) (level : Int) :
    m'.traceback th message level = m.traceback th message level := by
  simp only [Machine.traceback, h.sourceSize, h.store, h.calls]

theorem upvalueCell? (f : FunctionId) (n : Int) : m'.upvalueCell? f n = m.upvalueCell? f n := by
  simp only [Machine.upvalueCell?, h.store]

theorem upvalueName (f : FunctionId) (n : Int) : m'.upvalueName f n = m.upvalueName f n := by
  simp only [Machine.upvalueName, h.store]

theorem getUpvalue? (f : FunctionId) (n : Int) : m'.getUpvalue? f n = m.getUpvalue? f n := by
  simp only [Machine.getUpvalue?, h.upvalueCell?, h.upvalueName, h.store]

theorem getMetatable? (v : Value) : m'.getMetatable? v = m.getMetatable? v := by
  simp only [Machine.getMetatable?, h.store, h.kindMetatables]

theorem getUserValue (v : Value) : m'.getUserValue v = m.getUserValue v := by
  simp only [Machine.getUserValue, h.store]

theorem frameReport? (level : Int) : m'.frameReport? th level = m.frameReport? th level := by
  simp only [Machine.frameReport?, h.store, h.calls]

theorem libraryField (name : String) : m'.libraryField name = m.libraryField name := by
  simp only [Machine.libraryField, h.store]

/-! ## Changing -/

theorem setLocal? (level n : Int) (v : Value) :
    Option.Rel (SameAnswer m m') (m.setLocal? th level n v) (m'.setLocal? th level n v) := by
  simp only [Machine.setLocal?, h.store, h.calls]
  cases hframe : (m.calls th).frame? level with
  | none => exact .none
  | some fr =>
      cases hset : fr.setLocal? m.store n v with
      | none => simp only [Option.bind_eq_bind, Option.bind_some, hset]; exact .none
      | some r =>
          simp only [Option.bind_eq_bind, Option.bind_some, hset]
          obtain ⟨p, -, rfl⟩ := Option.map_eq_some_iff.mp hset
          exact .some ⟨rfl, h.sameChange_store (.of_functions rfl)⟩

theorem setUpvalue? (f : FunctionId) (n : Int) (v : Value) :
    Option.Rel (SameAnswer m m') (m.setUpvalue? f n v) (m'.setUpvalue? f n v) := by
  simp only [Machine.setUpvalue?, h.store, h.upvalueCell?, h.upvalueName]
  cases hcell : m.upvalueCell? f n with
  | none => exact .none
  | some c =>
      cases hset : m.store.setCell? c v with
      | none => simp only [Option.bind_eq_bind, Option.bind_some, hset]; exact .none
      | some store =>
          simp only [Option.bind_eq_bind, Option.bind_some, hset]
          exact .some ⟨rfl, h.sameChange_store (.of_functions (Store.functions_setCell? hset))⟩

theorem joinUpvalues (f : FunctionId) (n : Int) (f' : FunctionId) (n' : Int) :
    Alike (SameChange m m') (m.joinUpvalues f n f' n') (m'.joinUpvalues f n f' n') := by
  simp only [Machine.joinUpvalues, h.store, h.upvalueCell?]
  split
  · exact .error _
  · exact .error _
  · split
    · exact .error _
    · exact .error _
    · exact .ok (h.sameChange_store (.setUpvalueCell _ _ _ _))

theorem setMetatable (v : Value) (mt : Option TableId) :
    Alike (SameChange m m') (m.setMetatable v mt) (m'.setMetatable v mt) := by
  simp only [Machine.setMetatable, Machine.setKindMetatable, h.store, h.kindMetatables]
  split
  · split
    · refine .ok ⟨_, _, ?_, rfl, rfl⟩
      exact .of_functions rfl
    · exact .error _
  · split
    · refine .ok ⟨_, _, ?_, rfl, rfl⟩
      exact .of_functions rfl
    · exact .error _
  · exact .ok ⟨_, _, .refl _, rfl, rfl⟩

theorem setUserValue (target v : Value) :
    Alike (SameChange m m') (m.setUserValue target v) (m'.setUserValue target v) := by
  simp only [Machine.setUserValue, h.store]
  split
  · split
    · split
      · exact .ok (h.sameChange_store (.of_functions rfl))
      · exact .error _
    · exact .error _
  · exact .error _

/-! ## The library -/

/-- A function of the library that only reads. -/
theorem answers (vs : List Value) :
    Alike (SameAnswer m m') (.ok (vs, m) : LibraryOutcome) (.ok (vs, m')) :=
  .ok ⟨rfl, h.sameChange_refl⟩

/-- A function of the library that assigns, and answers with a name. -/
theorem assigns : ∀ r r' : Option (String × Machine), Option.Rel (SameAnswer m m') r r' →
    Alike (SameAnswer m m')
      (match r with
        | some (name, m) => .ok ([.string name], m)
        | none => .ok ([.nil], m) : LibraryOutcome)
      (match r' with
        | some (name, m') => .ok ([.string name], m')
        | none => .ok ([.nil], m')) := by
  intro r r' hr
  cases hr with
  | none => exact h.answers _
  | some hset => exact .ok ⟨by rw [hset.1], hset.2⟩

variable (args : List Value)

theorem libGetInfo :
    Alike (SameAnswer m m') (m.libGetInfo current args) (m'.libGetInfo current args) := by
  simp only [Machine.libGetInfo, h.ofValues, h.targetArgument]
  apply Alike.bind_same
  intro a
  apply Alike.bind_same
  intro target
  have hresults : ∀ what, Alike (SameAnswer m m')
      (.ok (m.infoResults a.thread target what) : LibraryOutcome)
      (.ok (m'.infoResults a.thread target what)) := by
    intro what
    simp only [infoResults, h.getInfo?, h.store]
    split
    · exact .ok ⟨rfl, h.sameChange_store (.of_functions (Store.functions_newInfoTable _ _))⟩
    · exact h.answers []
  split
  · exact hresults _
  · exact hresults _
  · exact .error _

theorem libGetLocal :
    Alike (SameAnswer m m') (m.libGetLocal current args) (m'.libGetLocal current args) := by
  simp only [Machine.libGetLocal, h.ofValues, h.targetArgument]
  apply Alike.bind_same
  intro a
  apply Alike.bind_same
  intro target
  apply Alike.bind_same
  intro n
  cases target with
  | level level =>
      simp only [h.getLocal?]
      exact h.answers _
  | function f =>
      simp only [h.localNameOf?]
      exact h.answers _

theorem libSetLocal :
    Alike (SameAnswer m m') (m.libSetLocal current args) (m'.libSetLocal current args) := by
  simp only [Machine.libSetLocal, h.ofValues, h.stackLevel]
  apply Alike.bind_same
  intro a
  apply Alike.bind_same
  intro level
  apply Alike.bind_same
  intro n
  exact h.assigns _ _ (h.setLocal? _ _ _ _)

theorem libGetUpvalue :
    Alike (SameAnswer m m') (m.libGetUpvalue args) (m'.libGetUpvalue args) := by
  simp only [Machine.libGetUpvalue, h.getUpvalue?]
  exact .bind_same _ fun _ => .bind_same _ fun _ => h.answers _

theorem libSetUpvalue :
    Alike (SameAnswer m m') (m.libSetUpvalue args) (m'.libSetUpvalue args) := by
  apply Alike.bind_same
  intro f
  apply Alike.bind_same
  intro n
  exact h.assigns _ _ (h.setUpvalue? _ _ _)

theorem libUpvalueId :
    Alike (SameAnswer m m') (m.libUpvalueId args) (m'.libUpvalueId args) := by
  simp only [Machine.libUpvalueId, h.upvalueCell?]
  apply Alike.bind_same
  intro f
  apply Alike.bind_same
  intro n
  split
  · exact h.answers _
  · exact h.answers _

theorem libUpvalueJoin :
    Alike (SameAnswer m m') (m.libUpvalueJoin args) (m'.libUpvalueJoin args) := by
  apply Alike.bind_same
  intro f
  apply Alike.bind_same
  intro n
  apply Alike.bind_same
  intro f'
  apply Alike.bind_same
  intro n'
  exact ((h.joinUpvalues f n.toInt f' n'.toInt).mapError _).bind fun _ _ hjoin => .ok ⟨rfl, hjoin⟩

theorem libGetMetatable :
    Alike (SameAnswer m m') (m.libGetMetatable args) (m'.libGetMetatable args) := by
  simp only [Machine.libGetMetatable, h.getMetatable?]
  split
  · exact h.answers _
  · exact h.answers _

theorem libSetMetatable :
    Alike (SameAnswer m m') (m.libSetMetatable args) (m'.libSetMetatable args) := by
  have hset : ∀ mt, Alike (SameAnswer m m')
      (do
        let m ← (m.setMetatable (args.getD 0 .nil) mt).mapError NativeError.ofScript
        pure ([args.getD 0 .nil], m))
      (do
        let m' ← (m'.setMetatable (args.getD 0 .nil) mt).mapError NativeError.ofScript
        pure ([args.getD 0 .nil], m')) :=
    fun mt => ((h.setMetatable _ mt).mapError _).bind fun _ _ hset => .ok ⟨rfl, hset⟩
  simp only [Machine.libSetMetatable]
  split
  · exact hset _
  · exact hset _
  · exact .error _

theorem libSetUserValue :
    Alike (SameAnswer m m') (m.libSetUserValue args) (m'.libSetUserValue args) :=
  ((h.setUserValue _ _).mapError _).bind fun _ _ hset => .ok ⟨rfl, hset⟩

theorem libTraceback :
    Alike (SameAnswer m m') (m.libTraceback current args) (m'.libTraceback current args) := by
  simp only [Machine.libTraceback, h.ofValues, h.stackLevel, h.traceback]
  apply Alike.bind_same
  intro a
  have hdump : ∀ (default : Int64) (text : Int64 → List Value), Alike (SameAnswer m m')
      (do
        let level ←
          optionalInteger LibraryFunction.traceback.name (a.position 1) default (a.get 1)
        pure (text level, m))
      (do
        let level ←
          optionalInteger LibraryFunction.traceback.name (a.position 1) default (a.get 1)
        pure (text level, m')) :=
    fun _ _ => .bind_same _ fun _ => h.answers _
  split
  · exact hdump _ _
  · exact hdump _ _
  · split
    · exact hdump _ _
    · exact h.answers _

end SameExecution

end Machine

/-- The functions of the library that read or replace hooks. -/
def LibraryFunction.isAboutHooks : LibraryFunction → Bool
  | getHook | setHook => true
  | _ => false

/-- All other functions of the library depend on the execution alone. -/
theorem LibraryFunction.run_alike {m m' : Machine} (h : m.SameExecution m') {f : LibraryFunction}
    (hf : f.isAboutHooks = false) (current : ThreadId) (args : List Value) :
    Alike (Machine.SameAnswer m m') (f.run m current args) (f.run m' current args) := by
  simp only [LibraryFunction.run, h.isSome, h.getUserValue]
  split
  · cases f with
    | getHook => cases hf
    | setHook => cases hf
    | getInfo => exact h.libGetInfo current args
    | getLocal => exact h.libGetLocal current args
    | getMetatable => exact h.libGetMetatable args
    | getRegistry => exact h.answers _
    | getUpvalue => exact h.libGetUpvalue args
    | getUserValue => exact h.answers _
    | setLocal => exact h.libSetLocal current args
    | setMetatable => exact h.libSetMetatable args
    | setUpvalue => exact h.libSetUpvalue args
    | setUserValue => exact h.libSetUserValue args
    | traceback => exact h.libTraceback current args
    | upvalueId => exact h.libUpvalueId args
    | upvalueJoin => exact h.libUpvalueJoin args
  · exact .error _

end ScriptDebug
