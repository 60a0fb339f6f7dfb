import ScriptDebug.Library.Call

/-!
# Properties of function bodies

A property of commands holds of a store when it holds of every command in the body
of every function, at whatever depth the command is written.  Bodies come into the
store with new functions alone, so few changes of a store can matter to it.
-/

namespace ScriptDebug

/-- The commands written inside an action: the body of a new function or a block. -/
def Action.inner : Action → List Command
  | .newClosure _ _ _ body => body
  | .newNative _ _ body => body
  | .repeatBlock _ body => body
  | _ => []

/-- A property of a command and of all commands written inside it. -/
inductive Command.Every (P : Command → Prop) : Command → Prop
  | intro {c : Command} (self : P c) (inside : ∀ d ∈ c.action.inner, Command.Every P d) :
      Command.Every P c

namespace Command.Every

variable {P : Command → Prop} {c : Command}

theorem self (h : c.Every P) : P c := by
  cases h
  assumption

theorem inside (h : c.Every P) : ∀ d ∈ c.action.inner, d.Every P := by
  cases h
  assumption

/-- A command with nothing inside is a matter of itself alone. -/
theorem of_inner_nil (h : P c) (hinner : c.action.inner = []) : c.Every P :=
  .intro h fun d hd => by simp [hinner] at hd

/-- What holds of every command holds of all commands inside a command. -/
theorem of_forall (h : ∀ c, P c) (c : Command) : c.Every P := by
  apply Command.Every.intro (h c)
  intro d hd
  have hlt : sizeOf d < sizeOf c := by
    cases c with
    | mk modifiers a =>
        cases a <;> simp only [Command.action, Action.inner, List.not_mem_nil] at hd
        all_goals
          have hlt := List.sizeOf_lt_of_mem hd
          simp only [Command.mk.sizeOf_spec, Action.newClosure.sizeOf_spec,
            Action.newNative.sizeOf_spec, Action.repeatBlock.sizeOf_spec]
          omega
  exact of_forall h d
termination_by sizeOf c

end Command.Every

/-- A property of all commands that a function runs. -/
def Routine.Every (P : Command → Prop) : Routine → Prop
  | .scripted _ body => ∀ c ∈ body, c.Every P
  | .library _ => True

/-- A property of all commands that the functions of a store run. -/
def Store.Every (P : Command → Prop) (s : Store) : Prop :=
  ∀ f o, s.function? f = some o → o.routine.Every P

namespace Store.Every

variable {P : Command → Prop} {s s' : Store}

theorem of_forall (h : ∀ c, P c) (s : Store) : s.Every P := by
  intro f o _
  cases ho : o.routine with
  | scripted label body => exact fun c _ => .of_forall h c
  | library g => trivial

theorem of_mem (h : ∀ o ∈ s.functions, o.routine.Every P) : s.Every P :=
  fun _ o ho => h o (Array.mem_of_getElem? ho)

/-- Stores with the same functions have the same bodies. -/
theorem congr (h : s.Every P) (heq : s'.functions = s.functions) : s'.Every P := by
  intro f o ho
  apply h f o
  simpa only [function?, heq] using ho

theorem newFunction (h : s.Every P) {o : FunctionObject} (ho : o.routine.Every P) :
    (s.newFunction o).1.Every P := by
  intro f o' ho'
  simp only [Store.newFunction, function?, Array.getElem?_push] at ho'
  split at ho'
  · cases ho'
    exact ho
  · exact h f o' ho'

theorem setUpvalueCell (h : s.Every P) (f : FunctionId) (slot : Nat) (c : CellId) :
    (s.setUpvalueCell f slot c).Every P := by
  intro f' o' ho'
  simp only [Store.setUpvalueCell, function?, Array.getElem?_modify] at ho'
  split at ho'
  · obtain ⟨o, ho, rfl⟩ := Option.map_eq_some_iff.mp ho'
    have hroutine := h f' o ho
    split
    · exact hroutine
    · exact hroutine
  · exact h f' o' ho'

end Store.Every

end ScriptDebug
