import ScriptDebug.Proofs.Hook.Recorder
import ScriptDebug.Proofs.Library.Dependence
import ScriptDebug.Proofs.Scenario.Lockstep

/-!
# Observed sessions

A session is observed by another one that works on the same execution: hooks may be installed
there that only record, and instructions may be traced.  What does not read or replace hooks
does the same in both.

## Implementation notes

Whether there are hooks at all is a parameter, so that a session without hooks also stands
beside itself; and so is whether the log counts, since nothing that runs reads it.
-/

namespace ScriptDebug

/-- Recording functions stay what they are as long as native functions do. -/
theorem Store.KeepsNatives.records {s s' : Store} (h : s.KeepsNatives s') {f : FunctionId}
    (hf : s.Records f) : s'.Records f := by
  obtain ⟨name, label, cs, hfound, hcs⟩ := hf
  exact ⟨name, label, cs, h f name _ hfound, hcs⟩

/-- Inspections that read or replace hooks, or enter them. -/
def Inspection.isAboutHooks : Inspection → Bool
  | getHook | setHook .. | guard | state => true
  | _ => false

/-- The change of a recorded delivery, and of a trace, is no change of the execution. -/
@[simp] theorem Machine.execution_handOut (m : Machine) (th : ThreadId)
    (pending : Option PendingEvents) : (m.handOut th pending).execution = m.execution := by
  cases pending <;> rfl

namespace Session

/-- What was logged outside hooks. -/
def outsideLog (s : Session) : List LogEntry := s.log.toList.filter (!·.inHook)

/-- Sessions with the same execution and the same names, outside all hooks.  The first one has
no hooks; those of the second one, if it has any, do nothing but record.  What was logged
outside hooks may count or not. -/
structure Observed (hooked logged : Prop) (s t : Session) : Prop where
  machine : s.machine.SameExecution t.machine
  bare : ∀ th, (s.machine.hook th).function = none
  recorders : ∀ th f, (t.machine.hook th).function = some f → hooked ∧ t.machine.store.Records f
  prototypes : t.prototypes = s.prototypes
  functions : t.functions = s.functions
  windows : t.windows = s.windows
  bindings : t.bindings = s.bindings
  outsideLog : logged → t.outsideLog = s.outsideLog

namespace Observed

open Machine

variable {hooked logged : Prop} {s t t' : Session} {m m' : Machine} {th : ThreadId}

/-- A session without hooks beside itself. -/
theorem self {hooked' logged' : Prop} (h : Observed hooked logged s t) :
    Observed hooked' logged' s s where
  machine := ⟨rfl, h.machine.outside, h.machine.outside⟩
  bare := h.bare
  recorders th f hf := absurd ((h.bare th).symm.trans hf) (by simp)
  prototypes := rfl
  functions := rfl
  windows := rfl
  bindings := rfl
  outsideLog _ := rfl

/-- What observes a session observes another one like it. -/
theorem beside {s' : Session} (h : Observed False logged s s') (h' : Observed hooked logged s t) :
    Observed hooked logged s' t where
  machine := by
    refine ⟨?_, h.machine.outside', h'.machine.outside'⟩
    rw [h'.machine.execution, h.machine.execution]
  bare th := by
    cases hf : (s'.machine.hook th).function with
    | none => rfl
    | some f => exact (h.recorders th f hf).1.elim
  recorders := h'.recorders
  prototypes := h'.prototypes.trans h.prototypes.symm
  functions := h'.functions.trans h.functions.symm
  windows := h'.windows.trans h.windows.symm
  bindings := h'.bindings.trans h.bindings.symm
  outsideLog hlogged := (h'.outsideLog hlogged).trans (h.outsideLog hlogged).symm

/-- Both machines change, with the hook functions they had. -/
theorem onMachines (h : Observed hooked logged s t) (hm : m.SameExecution m')
    (hkeeps : s.machine.store.KeepsNatives m.store)
    (hbare : ∀ th, (m.hook th).function = (s.machine.hook th).function)
    (hhooks : ∀ th, (m'.hook th).function = (t.machine.hook th).function) :
    Observed hooked logged { s with machine := m } { t with machine := m' } where
  machine := hm
  bare th := (hbare th).trans (h.bare th)
  recorders th f hf := by
    obtain ⟨hhooked, hrecords⟩ := h.recorders th f ((hhooks th).symm.trans hf)
    rw [h.machine.store] at hrecords
    refine ⟨hhooked, ?_⟩
    change m'.store.Records f
    rw [hm.store]
    exact hkeeps.records hrecords
  prototypes := h.prototypes
  functions := h.functions
  windows := h.windows
  bindings := h.bindings
  outsideLog := h.outsideLog

/-- Both machines get the same objects. -/
theorem sameChange (h : Observed hooked logged s t) (hm : SameChange s.machine t.machine m m') :
    Observed hooked logged { s with machine := m } { t with machine := m' } := by
  obtain ⟨store, k, hkeeps, rfl, rfl⟩ := hm
  exact h.onMachines (h.machine.withObjects store k) hkeeps (fun _ => rfl) fun _ => rfl

theorem newThread (h : Observed hooked logged s t) :
    Observed hooked logged { s with machine := s.machine.newThread.1 }
      { t with machine := t.machine.newThread.1 } := by
  have hhook : ∀ (m : Machine) th, (m.newThread.1.hook th).function = (m.hook th).function :=
    fun m th => congrArg (·.hook.function) ((Calm.newThread (P := fun _ => True) m).thread th)
  exact h.onMachines h.machine.newThread (.refl _) (hhook _) (hhook _)

theorem registerLibrary (h : Observed hooked logged s t) :
    Observed hooked logged { s with machine := s.machine.registerLibrary.1 }
      { t with machine := t.machine.registerLibrary.1 } := by
  have hstore : t.machine.registerLibrary.1.store = s.machine.registerLibrary.1.store := by
    simp only [Machine.registerLibrary, h.machine.store]
  rw [s.machine.registerLibrary_eq, t.machine.registerLibrary_eq, hstore]
  exact h.sameChange (h.machine.sameChange_store (.registerLibrary s.machine))

theorem kindMetatables (h : Observed hooked logged s t) (k : KindMetatables) :
    Observed hooked logged { s with machine := { s.machine with kindMetatables := k } }
      { t with machine := { t.machine with kindMetatables := k } } :=
  h.sameChange ⟨s.machine.store, k, .refl _, rfl, by rw [← h.machine.store]; rfl⟩

/-- Both machines note the same. -/
theorem noted (h : Observed hooked logged s t) {pending pending' : Option PendingEvents}
    (hm : m.SameExecution m') (hn : Noted th s.machine m pending)
    (hn' : Noted th t.machine m' pending') :
    Observed hooked logged { s with machine := m } { t with machine := m' } := by
  refine h.onMachines hm ?_ hn.function hn'.function
  rw [hn.store]
  exact .refl _

/-- Both sessions log the same. -/
theorem push (h : Observed hooked logged s t) (e : LogEntry) :
    Observed hooked logged { s with log := s.log.push e } { t with log := t.log.push e } := by
  refine { h with outsideLog := fun hlogged => ?_ }
  have hlog := h.outsideLog hlogged
  simp only [Session.outsideLog, Array.toList_push, List.filter_append] at hlog ⊢
  rw [hlog]

/-- What only the second session records is no difference. -/
theorem recorded (h : Observed hooked logged s t) (hrecorded : t.Recorded t') :
    Observed hooked logged s t' := by
  obtain ⟨entries, rfl, hin⟩ := hrecorded
  refine { h with outsideLog := fun hlogged => ?_ }
  have hnone : entries.toList.filter (!·.inHook) = [] := by
    rw [List.filter_eq_nil_iff]
    intro e he
    simp [hin e (Array.mem_toList_iff.mp he)]
  rw [← h.outsideLog hlogged]
  simp only [Session.outsideLog, Array.toList_append, List.filter_append, hnone, List.append_nil]

/-- Neither are events that only the second session hands out. -/
theorem handOut (h : Observed hooked logged s t) (th : ThreadId) (pending : Option PendingEvents) :
    Observed hooked logged s { t with machine := t.machine.handOut th pending } := by
  have hthreads : (t.machine.handOut th pending).threads = t.machine.threads := by
    cases pending <;> rfl
  have hfunction : ∀ th', (t.machine.handOut th pending).hook th' = t.machine.hook th' := by
    intro th'
    simp only [Machine.hook, Machine.thread, thread?, hthreads]
  refine h.onMachines ?_ (.refl _) (fun _ => rfl) fun th' => congrArg (·.function) (hfunction th')
  exact h.machine.of_records rfl (execution_handOut _ _ _) rfl hthreads

end Observed

/-- The session with a hook installed, for any events, and with or without trace mode. -/
def underHook (s : Session) (th : ThreadId) (f : FunctionId) (mask : String) (count : Nat)
    (trace : Bool) : Session :=
  { s with machine := { s.machine.setHook th (some f) mask count with
      settings := { s.machine.settings with trace } } }

/-- A session without hooks is observed when a hook is installed that records. -/
theorem observed_underHook {s : Session} {f : FunctionId}
    (hout : ∀ th, (s.machine.hook th).inHook = false)
    (hbare : ∀ th, (s.machine.hook th).function = none) (hf : s.machine.store.Records f)
    (th : ThreadId) (mask : String) (count : Nat) (trace : Bool) :
    Observed True True s (s.underHook th f mask count trace) where
  machine := by
    have hsame : s.machine.SameExecution s.machine := ⟨rfl, hout, hout⟩
    have hinstalled : (s.machine.setThread th (s.machine.thread th)).SameExecution
        (s.machine.setThread th { s.machine.thread th with
          hook := (s.machine.hook th).replace (some f) mask count }) :=
      hsame.setThread rfl (hout th) (hout th)
    rw [Machine.setThread_thread] at hinstalled
    exact hinstalled.of_records rfl rfl rfl rfl
  bare := hbare
  recorders th' g hg := by
    have hthread := s.machine.thread_setHook th (some f) mask count th'
    change ((s.machine.setHook th (some f) mask count).thread th').hook.function = some g at hg
    rw [hthread] at hg
    split at hg
    · cases hg
      exact ⟨trivial, hf⟩
    · cases (hbare th').symm.trans hg
  prototypes := rfl
  functions := rfl
  windows := rfl
  bindings := rfl
  outsideLog _ := rfl

end Session

namespace Exec

open Session

variable {α β : Type} {E : Halt → Prop} {hooked logged : Prop} {here : Surroundings} {th : ThreadId}

/-! ## Names, objects and the log -/

/-- The same objects are made in both sessions. -/
theorem Simulates.newObject {f : Store → Store × α}
    (hf : ∀ s : Store, s.KeepsNatives (f s).1) :
    Simulates E (Observed hooked logged) (Observed hooked logged) (Exec.fromStore f)
      (Exec.fromStore f) := by
  refine .fromMachine fun s t hst => ?_
  rw [hst.machine.store]
  exact ⟨rfl, hst.sameChange (hst.machine.sameChange_store (hf s.machine.store))⟩

/-- The same objects change in both sessions. -/
theorem Simulates.updateStore {f : Store → Option Store}
    (hf : ∀ s s', f s = some s' → s.KeepsNatives s') :
    Simulates E (Observed hooked logged) (Observed hooked logged) (Exec.updateStore f)
      (Exec.updateStore f) := by
  refine .onMachine fun s t hst => ?_
  rw [hst.machine.store]
  cases hs : f s.machine.store with
  | none => exact hst
  | some store => exact hst.sameChange (hst.machine.sameChange_store (hf _ _ hs))

theorem observed_lockstep (hooked logged : Prop) :
    Lockstep (fun _ => True) (Observed hooked logged) where
  term := by
    intro s t hst here x
    cases x <;> simp only [evalTerm, hst.functions, hst.bindings, hst.machine.libraryField]
  window := by
    intro s t hst here w
    cases w <;> simp only [evalWindow?, hst.windows]
  store hst := hst.machine.store
  bodies {s _} _ := .of_forall (fun _ => trivial) s.machine.store
  isSome hst := hst.machine.isSome
  depth hst := hst.machine.depth
  prototypes hst := hst.prototypes
  bindVariable := by
    intro s t hst name v
    refine { hst with bindings := ?_ }
    simp only [Session.bindVariable, hst.bindings]
  logCommand := by
    intro here c reply
    refine .session fun s t hst => ?_
    have hthread : t.machine.reportedThread here.thread = s.machine.reportedThread here.thread := by
      simp only [Machine.reportedThread, hst.machine.isSome]
    have hdepth := hst.machine.depth (s.machine.reportedThread here.thread)
    have hout := hst.machine.outside (s.machine.reportedThread here.thread)
    have hout' := hst.machine.outside' (s.machine.reportedThread here.thread)
    simp only [Machine.depth, Machine.hook] at hdepth hout hout'
    simp only [hthread, hdepth, hout, hout']
    exact hst.push _
  newFunction := by
    intro label callable body _
    refine (Simulates.newObject fun s => .newFunction s _).seq fun f => ?_
    refine (Simulates.session fun s t hst => ?_).seq fun _ => .pure _
    refine { hst with functions := ?_ }
    simp only [Session.bindFunction, hst.functions]

/-! ## Actions -/

section Actions

variable (here : Surroundings)

theorem cellReply_observed (c : CellId) :
    Simulates E (Observed hooked logged) (Observed hooked logged) (cellReply c) (cellReply c) := by
  apply Simulates.machine_bind
  intro s t hst
  rw [hst.machine.store]
  split
  · exact (Simulates.pure _).from_pair hst
  · exact (Simulates.pure _).from_pair hst

/-- Object actions do the same in both sessions, except for the text of the machine, which
shows whether instructions are traced. -/
theorem performObject_observed {a : ObjectAction} (ha : a ≠ .describeMachine) :
    Simulates E (Observed hooked logged) (Observed hooked logged) (performObject here a)
      (performObject here a) := by
  have h := observed_lockstep hooked logged
  have hstore : ∀ {s t}, Observed hooked logged s t → t.machine.store = s.machine.store :=
    fun hst => hst.machine.store
  have hset : ∀ {g : Store → Store}, (∀ s, (g s).functions = s.functions) →
      Simulates E (Observed hooked logged) (Observed hooked logged)
        (Exec.updateStore fun s => some (g s)) (Exec.updateStore fun s => some (g s)) := by
    intro g hg
    refine .updateStore fun s s' hs => ?_
    cases hs
    exact .of_functions (hg s)
  cases a with
  | newTable => exact (Simulates.newObject fun _ => .of_functions rfl).seq fun _ => .pure _
  | newUserdata => exact (Simulates.newObject fun _ => .of_functions rfl).seq fun _ => .pure _
  | newThread =>
      refine (Simulates.fromMachine fun s t hst => ⟨?_, hst.newThread⟩).seq fun _ => .pure _
      simp only [Machine.newThread, hst.machine.size]
  | newCell v =>
      exact (h.value here v).seq fun _ =>
        (Simulates.newObject fun _ => .of_functions rfl).seq fun _ => .pure _
  | newOpenCell w slot =>
      exact (h.window? here w).seq fun _ =>
        (Simulates.newObject fun _ => .of_functions rfl).seq fun _ => .pure _
  | closeCell c =>
      exact (Simulates.updateStore fun _ _ hs => .of_functions (Store.functions_closeCell? hs)).seq
        fun _ => cellReply_observed c
  | setCell c v =>
      exact (h.value here v).seq fun _ =>
        (Simulates.updateStore fun _ _ hs => .of_functions (Store.functions_setCell? hs)).seq
          fun _ => cellReply_observed c
  | getCell c => exact cellReply_observed c
  | newWindow name size =>
      refine (Simulates.newObject fun _ => .of_functions rfl).seq fun w => ?_
      refine (Simulates.session fun s t hst => ?_).seq fun _ => .pure _
      refine { hst with windows := ?_ }
      simp only [Session.bindWindow, hst.windows]
  | getRegister w slot =>
      exact (h.window? here w).seq fun _ => .reads fun s t hst => by rw [hstore hst]
  | setRegister w slot v =>
      refine (h.window? here w).seq fun w => (h.value here v).seq fun v => ?_
      refine .machine_bind fun s t hst => ?_
      rw [hstore hst]
      refine Simulates.from_pair (R := Observed hooked logged) ?_ hst
      refine Simulates.seq ?_ fun _ => .pure _
      exact hset fun _ => rfl
  | dumpWindow w =>
      exact (h.window? here w).seq fun _ => .reads fun s t hst => by rw [hstore hst]
  | sameWindow w w' =>
      exact (h.window? here w).seq fun _ => (h.window? here w').seq fun _ => .pure _
  | describeFunction f =>
      exact (h.function here f).seq fun _ => .reads fun s t hst => by rw [hstore hst]
  | setTable x k v =>
      refine (h.value here k).seq fun k => (h.value here v).seq fun v =>
        (h.table? here x).seq fun r => ?_
      split
      · split
        · refine Simulates.seq ?_ fun _ => .pure _
          exact hset fun _ => rfl
        · exact .pure _
      · exact .pure _
  | getTable x k =>
      refine (h.value here k).seq fun k => (h.table? here x).seq fun r => ?_
      split
      · exact .pure _
      · exact .pure _
  | tableLength x =>
      refine (h.table? here x).seq fun r => ?_
      split
      · exact .pure _
      · exact .pure _
  | bind v => exact (h.value here v).seq fun _ => .pure _
  | registerLibrary =>
      refine (Simulates.fromMachine fun s t hst => ⟨?_, hst.registerLibrary⟩).seq fun _ => .pure _
      simp only [Machine.registerLibrary, hst.machine.store]
  | describeMachine => exact absurd rfl ha

theorem keepAssigned_observed {s t : Session} (hst : Observed hooked logged s t)
    {r r' : Option (String × Machine)} (hr : Option.Rel (s.machine.SameAnswer t.machine) r r') :
    Simulates E (Pair s t) (Observed hooked logged) (keepAssigned r) (keepAssigned r') := by
  cases hr with
  | none => exact (Simulates.pure _).from_pair hst
  | some hr =>
      obtain ⟨hname, hchange⟩ := hr
      simp only [keepAssigned, hname]
      exact .of_ok rfl rfl (hst.sameChange hchange)

theorem adopt_observed {s t : Session} (hst : Observed hooked logged s t)
    {r r' : Except ScriptError Machine} (hr : Alike (s.machine.SameChange t.machine) r r') :
    Simulates E (Pair s t) (Observed hooked logged) (adopt r) (adopt r') := by
  cases hr with
  | error e => exact (Simulates.raise e).from_pair hst
  | ok hchange => exact .of_ok rfl rfl (hst.sameChange hchange)

/-- Inspections that are not about hooks do the same in both sessions. -/
theorem performInspection_observed {a : Inspection} (ha : a.isAboutHooks = false) :
    Simulates E (Observed hooked logged) (Observed hooked logged) (performInspection here th a)
      (performInspection here th a) := by
  have h := observed_lockstep hooked logged
  cases a with
  | getHook => cases ha
  | setHook f mask count => cases ha
  | guard => cases ha
  | state => cases ha
  | getInfo target what =>
      exact (h.infoTarget here target).seq fun _ => .reads fun s t hst => by
        rw [hst.machine.getInfo?]
  | getLocal level n => exact .reads fun s t hst => by rw [hst.machine.getLocal?]
  | setLocal level n v =>
      exact (h.value here v).seq fun v => .machine_bind fun s t hst =>
        keepAssigned_observed hst (hst.machine.setLocal? th level n v)
  | getLocalName f n =>
      exact (h.function here f).seq fun f => .reads fun s t hst => by
        rw [hst.machine.localNameOf?]
  | getUpvalue f n =>
      exact (h.function here f).seq fun f => .reads fun s t hst => by
        rw [hst.machine.getUpvalue?]
  | setUpvalue f n v =>
      exact (h.function here f).seq fun f => (h.value here v).seq fun v =>
        .machine_bind fun s t hst => keepAssigned_observed hst (hst.machine.setUpvalue? f n v)
  | upvalueId f n =>
      exact (h.function here f).seq fun f => .reads fun s t hst => by
        rw [hst.machine.upvalueCell?]
  | joinUpvalues f n f' n' =>
      exact (h.function here f).seq fun f => (h.function here f').seq fun f' =>
        .machine_bind fun s t hst =>
          (adopt_observed hst (hst.machine.joinUpvalues f n f' n')).seq fun _ => .pure _
  | getMetatable v =>
      exact (h.value here v).seq fun v => .reads fun s t hst => by
        rw [hst.machine.getMetatable?]
  | setMetatable v mt =>
      exact (h.value here v).seq fun v => (h.optionalTable here mt).seq fun mt =>
        .machine_bind fun s t hst =>
          (adopt_observed hst (hst.machine.setMetatable v mt)).seq fun _ => .pure _
  | setKindMetatable v mt =>
      refine (h.value here v).seq fun v => (h.optionalTable here mt).seq fun mt => ?_
      refine (Simulates.fromMachine fun s t hst => ⟨?_, ?_⟩).seq fun _ => .pure _
      · simp only [Machine.setKindMetatable, hst.machine.kindMetatables]
      · simp only [Machine.setKindMetatable, hst.machine.kindMetatables]
        exact hst.kindMetatables _
  | kindMetatables => exact .reads fun s t hst => by rw [hst.machine.kindMetatables]
  | resetKindMetatables =>
      exact (Simulates.onMachine fun s t hst => hst.kindMetatables _).seq fun _ => .pure _
  | getUserValue u =>
      exact (h.value here u).seq fun u => .reads fun s t hst => by
        rw [hst.machine.getUserValue]
  | setUserValue u v =>
      exact (h.value here u).seq fun u => (h.value here v).seq fun v =>
        .machine_bind fun s t hst =>
          (adopt_observed hst (hst.machine.setUserValue u v)).seq fun _ => .pure _
  | traceback level message => exact .reads fun s t hst => by rw [hst.machine.traceback]
  | frame level => exact .reads fun s t hst => by rw [hst.machine.frameReport?]
  | findCall f =>
      exact (h.function here f).seq fun f => .reads fun s t hst => by rw [hst.machine.calls]
  | levels => exact .reads fun s t hst => by rw [hst.machine.calls]

end Actions

/-- Library functions that are not about hooks do the same in both sessions. -/
theorem libraryAlike_observed {g : LibraryFunction} (hg : g.isAboutHooks = false) (th : ThreadId)
    (args : List Value) {s t : Session} (hst : Observed hooked logged s t) :
    LibraryAlike (Observed hooked logged) g th args s t := by
  have halike := LibraryFunction.run_alike hst.machine hg th args
  unfold LibraryAlike
  generalize g.run s.machine th args = r at halike ⊢
  generalize g.run t.machine th args = r' at halike ⊢
  cases halike with
  | error e => exact .inl ⟨e, rfl, rfl⟩
  | @ok p p' h =>
      obtain ⟨vs, m⟩ := p
      obtain ⟨vs', m'⟩ := p'
      obtain ⟨rfl, hchange⟩ := h
      exact .inr ⟨_, m, m', rfl, rfl, hst.sameChange hchange⟩

end Exec

end ScriptDebug
