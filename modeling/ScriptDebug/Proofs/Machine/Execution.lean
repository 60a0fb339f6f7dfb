import ScriptDebug.Library.Call
import ScriptDebug.Proofs.Machine.Notes
import ScriptDebug.Proofs.Scenario.Calm
import ScriptDebug.Scenario.Reply

/-!
# What a run works on

The execution of a machine is what it consists of apart from hooks and from the records of
hooks and traces.  Outside hooks nothing else is read by the reflection interface and the
library, apart from the functions that are about hooks, and what they change are objects and
metatables.

## Implementation notes

A library function is compared on two machines with the same execution.  It either fails on
both with one error, or succeeds on both and leaves the same objects; then the rest of each
machine is as it was.
-/

namespace ScriptDebug

/-- What a run works on: objects, metatables, call stacks and the settings that are not about
records. -/
structure Execution where
  store : Store
  kindMetatables : KindMetatables
  callStacks : Array (Option CallStack)
  hasInterpreter : Bool
  sourceSize : Nat

/-- A later store has the native functions of an earlier one. -/
def Store.KeepsNatives (s s' : Store) : Prop :=
  ∀ f name routine, s.function? f = some ⟨.native name, routine⟩ →
    s'.function? f = some ⟨.native name, routine⟩

namespace Store.KeepsNatives

variable {s s' s'' : Store}

theorem refl (s : Store) : s.KeepsNatives s := fun _ _ _ => id

theorem trans (h : s.KeepsNatives s') (h' : s'.KeepsNatives s'') : s.KeepsNatives s'' :=
  fun f name routine hf => h' f name routine (h f name routine hf)

theorem of_functions (h : s'.functions = s.functions) : s.KeepsNatives s' := by
  intro f name routine hf
  rwa [function?, h]

theorem newFunction (s : Store) (o : FunctionObject) : s.KeepsNatives (s.newFunction o).1 := by
  intro f name routine hf
  obtain ⟨hlt, -⟩ := Array.getElem?_eq_some_iff.mp hf
  rwa [function?, Store.newFunction, Array.getElem?_push_lt hlt, ← Array.getElem?_eq_getElem hlt]

theorem setUpvalueCell (s : Store) (f : FunctionId) (slot : Nat) (c : CellId) :
    s.KeepsNatives (s.setUpvalueCell f slot c) := by
  intro f' name routine hf
  rw [function?] at hf
  simp only [Store.setUpvalueCell, function?, Array.getElem?_modify, hf, Option.map_some]
  split <;> rfl

theorem registerLibrary (m : Machine) : m.store.KeepsNatives m.registerLibrary.1.store :=
  Machine.registerLibrary_induction (fun s _ hs => hs.trans (.newFunction s _))
    (fun _ _ hs heq => hs.trans (.of_functions heq)) (.refl _)

end Store.KeepsNatives

namespace Machine

variable {m m' : Machine} {th : ThreadId}

def execution (m : Machine) : Execution where
  store := m.store
  kindMetatables := m.kindMetatables
  callStacks := m.threads.map (·.stack)
  hasInterpreter := m.hasInterpreter
  sourceSize := m.settings.sourceSize

/-- The machine with other objects and other metatables of whole kinds. -/
def withObjects (m : Machine) (store : Store) (kindMetatables : KindMetatables) : Machine :=
  { m with store, kindMetatables }

/-- Two machines with the same execution, all of whose threads are outside their hooks. -/
structure SameExecution (m m' : Machine) : Prop where
  execution : m'.execution = m.execution
  outside : ∀ th, (m.hook th).inHook = false
  outside' : ∀ th, (m'.hook th).inHook = false

namespace SameExecution

theorem store (h : SameExecution m m') : m'.store = m.store := congrArg (·.store) h.execution

theorem kindMetatables (h : SameExecution m m') : m'.kindMetatables = m.kindMetatables :=
  congrArg (·.kindMetatables) h.execution

theorem hasInterpreter (h : SameExecution m m') : m'.hasInterpreter = m.hasInterpreter :=
  congrArg (·.hasInterpreter) h.execution

theorem sourceSize (h : SameExecution m m') : m'.settings.sourceSize = m.settings.sourceSize :=
  congrArg (·.sourceSize) h.execution

theorem stack? (h : SameExecution m m') (th : ThreadId) :
    (m'.thread? th).map (·.stack) = (m.thread? th).map (·.stack) := by
  have hstacks := congrArg (·.callStacks[th.index]?) h.execution
  simpa only [Machine.execution, Machine.thread?, Array.getElem?_map] using hstacks

theorem isSome (h : SameExecution m m') (th : ThreadId) :
    (m'.thread? th).isSome = (m.thread? th).isSome := by
  rw [← Option.isSome_map, h.stack?, Option.isSome_map]

theorem size (h : SameExecution m m') : m'.threads.size = m.threads.size := by
  simpa only [Machine.execution, Array.size_map] using congrArg (·.callStacks.size) h.execution

theorem stack (h : SameExecution m m') (th : ThreadId) :
    (m'.thread th).stack = (m.thread th).stack := by
  have hstack : ∀ m : Machine, (m.thread th).stack = ((m.thread? th).map (·.stack)).getD none := by
    intro m
    rw [Machine.thread]
    cases m.thread? th <;> rfl
  rw [hstack, hstack, h.stack?]

theorem calls (h : SameExecution m m') (th : ThreadId) : m'.calls th = m.calls th :=
  congrArg (·.getD .empty) (h.stack th)

theorem depth (h : SameExecution m m') (th : ThreadId) : m'.depth th = m.depth th :=
  congrArg (·.depth) (h.calls th)

/-! ## Changes of both machines -/

/-- Both machines get the same objects. -/
theorem withObjects (h : SameExecution m m') (store : Store) (k : KindMetatables) :
    SameExecution (m.withObjects store k) (m'.withObjects store k) := by
  refine ⟨?_, h.outside, h.outside'⟩
  have hexecution := h.execution
  simp only [Machine.execution, Execution.mk.injEq, Machine.withObjects] at hexecution ⊢
  exact ⟨trivial, trivial, hexecution.2.2⟩

/-- Both machines give a thread the same calls. -/
theorem setThread (h : SameExecution m m') {t t' : Thread} (hstack : t'.stack = t.stack)
    (hout : t.hook.inHook = false) (hout' : t'.hook.inHook = false) :
    SameExecution (m.setThread th t) (m'.setThread th t') := by
  have hmark : ∀ {m : Machine} {t : Thread}, (∀ th, (m.hook th).inHook = false) →
      t.hook.inHook = false → ∀ th', ((m.setThread th t).hook th').inHook = false := by
    intro m t hm ht th'
    rw [Machine.hook, thread_setThread]
    split
    · exact ht
    · exact hm th'
  refine ⟨?_, hmark h.outside hout, hmark h.outside' hout'⟩
  have hexecution := h.execution
  simp only [Machine.execution, Execution.mk.injEq, Machine.setThread,
    Array.map_setIfInBounds] at hexecution ⊢
  obtain ⟨hstore, hkinds, hstacks, hrest⟩ := hexecution
  exact ⟨hstore, hkinds, by rw [hstacks, hstack], hrest⟩

/-- Records make no difference. -/
theorem of_records (h : SameExecution m m') {n n' : Machine} (hn : n.execution = m.execution)
    (hn' : n'.execution = m'.execution) (hthreads : n.threads = m.threads)
    (hthreads' : n'.threads = m'.threads) : SameExecution n n' := by
  refine ⟨by rw [hn, hn', h.execution], fun th => ?_, fun th => ?_⟩
  · rw [← h.outside th, Machine.hook, Machine.thread, Machine.thread?, hthreads]
    rfl
  · rw [← h.outside' th, Machine.hook, Machine.thread, Machine.thread?, hthreads']
    rfl

theorem newThread (h : SameExecution m m') : SameExecution m.newThread.1 m'.newThread.1 := by
  have hmark : ∀ {m : Machine}, (∀ th, (m.hook th).inHook = false) →
      ∀ th, (m.newThread.1.hook th).inHook = false := by
    intro m hm th
    rw [Machine.hook, (Calm.newThread (P := fun _ => True) m).thread th]
    exact hm th
  refine ⟨?_, hmark h.outside, hmark h.outside'⟩
  have hexecution := h.execution
  simp only [Machine.execution, Execution.mk.injEq, Machine.newThread, Array.map_push]
    at hexecution ⊢
  obtain ⟨hstore, hkinds, hstacks, hrest⟩ := hexecution
  exact ⟨hstore, hkinds, by rw [hstacks], hrest⟩

/-! ## Notifications of both machines -/

theorem noteCall (h : SameExecution m m') (th : ThreadId) (fr : Frame) :
    SameExecution (m.noteCall th fr).1 (m'.noteCall th fr).1 := by
  rw [noteCall_outside (h.outside th), noteCall_outside (h.outside' th)]
  refine h.setThread ?_ (h.outside th) (h.outside' th)
  rw [h.calls]

theorem noteReturn (h : SameExecution m m') (th : ThreadId) :
    SameExecution (m.noteReturn th).1 (m'.noteReturn th).1 := by
  rw [noteReturn_outside (h.outside th), noteReturn_outside (h.outside' th)]
  refine h.setThread ?_ (h.outside th) (h.outside' th)
  rw [h.calls]

/-- Whether one of the machines traces instructions makes no difference. -/
theorem recordTrace (h : SameExecution m m') (th : ThreadId) :
    SameExecution (m.recordTrace th) (m'.recordTrace th) := by
  have hrecords : ∀ m : Machine, (m.recordTrace th).execution = m.execution ∧
      (m.recordTrace th).threads = m.threads := by
    intro m
    unfold Machine.recordTrace
    split
    · split
      · exact ⟨rfl, rfl⟩
      · exact ⟨rfl, rfl⟩
    · exact ⟨rfl, rfl⟩
  exact h.of_records (hrecords m).1 (hrecords m').1 (hrecords m).2 (hrecords m').2

theorem noteInstruction (h : SameExecution m m') (th : ThreadId) (pc : Nat)
    (varargs : List Value) (top : Nat) :
    SameExecution (m.noteInstruction th pc varargs top).1
      (m'.noteInstruction th pc varargs top).1 := by
  have hout : ¬ (m.thread th).hook.inHook = true := by
    rw [← hook, h.outside]
    simp
  have hout' : ¬ (m'.thread th).hook.inHook = true := by
    rw [← hook, h.outside']
    simp
  have hmark : ∀ (k : Hook) line, k.inHook = false → (k.instructionEvents line).1.inHook = false :=
    fun k line hk => (k.instructionEvents_spec line).1.inHook.trans hk
  simp only [Machine.noteInstruction, Thread.noteInstruction, if_neg hout, if_neg hout', putThread]
  refine recordTrace (h.setThread ?_ (hmark _ _ (h.outside th)) (hmark _ _ (h.outside' th))) th
  have hcalls := h.calls th
  simp only [Machine.calls] at hcalls
  simp only [hcalls]

theorem unwindTo (h : SameExecution m m') (th : ThreadId) (d : Nat) :
    SameExecution (m.unwindTo th d) (m'.unwindTo th d) := by
  refine h.setThread ?_ ?_ ?_
  · have hdepth := h.depth th
    have hcalls := h.calls th
    simp only [Machine.depth, Machine.calls] at hdepth hcalls
    simp only [Thread.unwindTo, hdepth, hcalls]
    split
    · rfl
    · exact h.stack th
  · rw [Thread.hook_unwindTo]
    exact h.outside th
  · rw [Thread.hook_unwindTo]
    exact h.outside' th

end SameExecution

end Machine

end ScriptDebug
