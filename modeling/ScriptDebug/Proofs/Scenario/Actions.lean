import ScriptDebug.Proofs.Scenario.Agreement
import ScriptDebug.Proofs.Scenario.Calm
import ScriptDebug.Scenario.Run

/-!
# Actions and steady invariants

Whatever neither calm changes nor new hooks can break is kept by every action that
runs no code of its own: object actions, inspections and library functions.  Around
those that do run code, a command adds nothing: it keeps what its notification, its
call or its block keeps.
-/

namespace ScriptDebug

namespace Exec

variable {α : Type} {P : Command → Prop} {I : Machine → Prop}

/-! ## Reading -/

theorem Agree.value (here : Surroundings) (t : Term) : Agree I (Exec.value here t) (Exec.value here t) :=
  .of_machine_eq fun _ => rfl

theorem Agree.values (here : Surroundings) (ts : List Term) :
    Agree I (Exec.values here ts) (Exec.values here ts) :=
  .of_machine_eq fun _ => rfl

theorem Agree.function (here : Surroundings) (t : Term) :
    Agree I (Exec.function here t) (Exec.function here t) := by
  apply Agree.bind (.value here t)
  intro v
  split
  · exact .pure _
  · exact .raise _

theorem Agree.window (here : Surroundings) (w : WindowTerm) :
    Agree I (Exec.window here w) (Exec.window here w) := by
  apply Agree.bind .get
  intro s
  split
  · exact .pure _
  · exact .raise _

theorem Agree.table? (here : Surroundings) (t : TableTerm) :
    Agree I (Exec.table? here t) (Exec.table? here t) :=
  .of_machine_eq fun _ => rfl

theorem Agree.optionalTable (here : Surroundings) (t : Term) :
    Agree I (Exec.optionalTable here t) (Exec.optionalTable here t) :=
  .of_machine_eq fun _ => rfl

theorem Agree.optionalFunction (here : Surroundings) (t : Term) :
    Agree I (Exec.optionalFunction here t) (Exec.optionalFunction here t) :=
  .of_machine_eq fun _ => rfl

theorem Agree.infoTarget (here : Surroundings) (t : Term) :
    Agree I (Exec.infoTarget here t) (Exec.infoTarget here t) := by
  apply Agree.bind (.value here t)
  intro v
  split
  · exact .pure _
  · exact .pure _

theorem Agree.varargs (here : Surroundings) (ts : Option (List Term)) :
    Agree I (Exec.varargs here ts) (Exec.varargs here ts) := by
  cases ts with
  | none => exact .pure _
  | some ts => exact .values here ts

theorem Agree.cellReply (c : CellId) : Agree I (Exec.cellReply c) (Exec.cellReply c) := by
  apply Agree.bind .machine
  intro m
  split
  · exact .pure _
  · exact .pure _

/-- Entering a hook for a test leaves no mark. -/
theorem guardTwice_calm (th : ThreadId) (m : Machine) :
    Leads (· = m) (Machine.Calm P m) (guardTwice th) (guardTwice th) := by
  apply Leads.machine_bind
  intro m' heq
  rw [heq]
  intro s hs
  refine ⟨rfl, ?_⟩
  cases hin : (m.hook th).inHook with
  | true =>
      change Machine.Calm P m s.machine
      rw [hs]
      exact .refl m
  | false =>
      change Machine.Calm P m ((s.machine.setInHook th true).setInHook th false)
      rw [hs]
      exact .setInHook_twice hin

/-! ## Actions without code of their own -/

section Steady

variable (hI : Machine.Steady P I)

include hI

theorem Agree.calm {f : Machine → Machine} (hf : ∀ m, Machine.Calm P m (f m)) :
    Agree I (Exec.onMachine f) (Exec.onMachine f) :=
  .onMachine fun m hm => hI.calm hm (hf m)

theorem Agree.fromStore {f : Store → Store × α} (hf : ∀ s, (f s).1.functions = s.functions) :
    Agree I (Exec.fromStore f) (Exec.fromStore f) :=
  .fromMachine fun m hm => hI.calm hm (.ofStore (hf m.store))

theorem Agree.updateStore {f : Store → Option Store}
    (hf : ∀ s s', f s = some s' → s'.functions = s.functions) :
    Agree I (Exec.updateStore f) (Exec.updateStore f) := by
  apply Agree.calm hI
  intro m
  cases hs : f m.store with
  | none => exact .refl m
  | some store => exact .ofStore (hf _ _ hs)

theorem Agree.performObject (here : Surroundings) (a : ObjectAction) :
    Agree I (Exec.performObject here a) (Exec.performObject here a) := by
  have hset : ∀ {g : Store → Store}, (∀ s, (g s).functions = s.functions) →
      Agree I (Exec.updateStore fun s => some (g s)) (Exec.updateStore fun s => some (g s)) := by
    intro g hg
    apply Agree.updateStore hI
    intro s s' hs
    cases hs
    exact hg s
  cases a with
  | newTable => exact .bind (.fromStore hI fun _ => rfl) fun _ => .pure _
  | newUserdata => exact .bind (.fromStore hI fun _ => rfl) fun _ => .pure _
  | newThread =>
      exact .bind (.fromMachine fun m hm => hI.calm hm (.newThread m)) fun _ => .pure _
  | newCell v =>
      exact .bind (.value here v) fun _ => .bind (.fromStore hI fun _ => rfl) fun _ => .pure _
  | newOpenCell w slot =>
      exact .bind (.window here w) fun _ => .bind (.fromStore hI fun _ => rfl) fun _ => .pure _
  | closeCell c =>
      exact .bind (.updateStore hI fun _ _ => Store.functions_closeCell?) fun _ => .cellReply c
  | setCell c v =>
      exact .bind (.value here v) fun _ =>
        .bind (.updateStore hI fun _ _ => Store.functions_setCell?) fun _ => .cellReply c
  | getCell c => exact .cellReply c
  | newWindow name size =>
      apply Agree.bind (.fromStore hI fun _ => rfl)
      intro window
      refine .bind ?_ fun _ => .pure _
      exact .session fun _ => rfl
  | getRegister w slot =>
      exact .bind (.window here w) fun _ => .bind .machine fun _ => .pure _
  | setRegister w slot v =>
      apply Agree.bind (.window here w)
      intro w
      apply Agree.bind (.value here v)
      intro v
      apply Agree.bind .machine
      intro m
      refine .bind ?_ fun _ => .pure _
      exact hset fun _ => rfl
  | dumpWindow w => exact .bind (.window here w) fun _ => .bind .machine fun _ => .pure _
  | sameWindow w w' =>
      exact .bind (.window here w) fun _ => .bind (.window here w') fun _ => .pure _
  | describeFunction f =>
      exact .bind (.function here f) fun _ => .bind .machine fun _ => .pure _
  | setTable t k v =>
      apply Agree.bind (.value here k)
      intro k
      apply Agree.bind (.value here v)
      intro v
      apply Agree.bind (.table? here t)
      intro r
      split
      · split
        · refine .bind ?_ fun _ => .pure _
          exact hset fun _ => rfl
        · exact .pure _
      · exact .pure _
  | getTable t k =>
      apply Agree.bind (.value here k)
      intro k
      apply Agree.bind (.table? here t)
      intro r
      split <;> exact .pure _
  | tableLength t =>
      apply Agree.bind (.table? here t)
      intro r
      split <;> exact .pure _
  | bind v => exact .bind (.value here v) fun _ => .pure _
  | registerLibrary =>
      exact .bind (.fromMachine fun m hm => hI.calm hm (.registerLibrary m)) fun _ => .pure _
  | describeMachine => exact .bind .machine fun _ => .pure _

theorem Agree.keepAssigned {m : Machine} (hm : I m) {r : Option (String × Machine)}
    (hr : ∀ name m', r = some (name, m') → Machine.Calm P m m') :
    Agree I (Exec.keepAssigned r) (Exec.keepAssigned r) := by
  cases r with
  | none => exact .pure _
  | some p =>
      exact .bind (.onMachine fun _ _ => hI.calm hm (hr p.1 p.2 rfl)) fun _ => .pure _

theorem Agree.adopt {m : Machine} (hm : I m) {r : Except ScriptError Machine}
    (hr : ∀ m', r = .ok m' → Machine.Calm P m m') :
    Agree I (Exec.adopt r) (Exec.adopt r) := by
  cases r with
  | error e => exact .raise e
  | ok m' => exact .onMachine fun _ _ => hI.calm hm (hr m' rfl)

theorem Agree.performInspection (here : Surroundings) (th : ThreadId) (a : Inspection) :
    Agree I (Exec.performInspection here th a) (Exec.performInspection here th a) := by
  cases a with
  | getInfo target what =>
      exact .bind (.infoTarget here target) fun _ => .bind .machine fun _ => .pure _
  | getLocal level n => exact .bind .machine fun _ => .pure _
  | setLocal level n v =>
      exact .bind (.value here v) fun _ => .machine_bind fun m hm =>
        .keepAssigned hI hm fun _ _ => Machine.calm_of_setLocal?
  | getLocalName f n => exact .bind (.function here f) fun _ => .bind .machine fun _ => .pure _
  | getUpvalue f n => exact .bind (.function here f) fun _ => .bind .machine fun _ => .pure _
  | setUpvalue f n v =>
      exact .bind (.function here f) fun _ => .bind (.value here v) fun _ =>
        .machine_bind fun m hm => .keepAssigned hI hm fun _ _ => Machine.calm_of_setUpvalue?
  | upvalueId f n => exact .bind (.function here f) fun _ => .bind .machine fun _ => .pure _
  | joinUpvalues f n f' n' =>
      exact .bind (.function here f) fun _ => .bind (.function here f') fun _ =>
        .machine_bind fun m hm =>
          .bind (.adopt hI hm fun _ => Machine.calm_of_joinUpvalues) fun _ => .pure _
  | getHook => exact .bind .machine fun _ => .pure _
  | setHook f mask count =>
      exact .bind (.optionalFunction here f) fun f =>
        .bind (.onMachine fun m => hI.setHook th f mask count) fun _ => .pure _
  | getMetatable v => exact .bind (.value here v) fun _ => .bind .machine fun _ => .pure _
  | setMetatable v mt =>
      exact .bind (.value here v) fun _ => .bind (.optionalTable here mt) fun _ =>
        .machine_bind fun m hm =>
          .bind (.adopt hI hm fun _ => Machine.calm_of_setMetatable) fun _ => .pure _
  | setKindMetatable v mt =>
      exact .bind (.value here v) fun _ => .bind (.optionalTable here mt) fun _ =>
        .bind (.fromMachine fun _ hm => hI.calm hm (.kindMetatables _)) fun _ => .pure _
  | kindMetatables => exact .bind .machine fun _ => .pure _
  | resetKindMetatables => exact .bind (.calm hI fun _ => .kindMetatables _) fun _ => .pure _
  | getUserValue u => exact .bind (.value here u) fun _ => .bind .machine fun _ => .pure _
  | setUserValue u v =>
      exact .bind (.value here u) fun _ => .bind (.value here v) fun _ =>
        .machine_bind fun m hm =>
          .bind (.adopt hI hm fun _ => Machine.calm_of_setUserValue) fun _ => .pure _
  | traceback level message => exact .bind .machine fun _ => .pure _
  | frame level => exact .bind .machine fun _ => .pure _
  | findCall f => exact .bind (.function here f) fun _ => .bind .machine fun _ => .pure _
  | levels => exact .bind .machine fun _ => .pure _
  | guard =>
      refine .bind (Leads.of_each fun m hm => ?_) fun _ => .pure _
      exact (guardTwice_calm th m).mono (fun _ => id) fun _ hcalm => hI.calm hm hcalm
  | state => exact .bind .machine fun _ => .pure _

/-- Library functions run no code of scripts. -/
theorem Agree.runLibrary (f : LibraryFunction) (th : ThreadId) (args : List Value) :
    Agree I (Exec.runLibrary f th args) (Exec.runLibrary f th args) := by
  intro s hs
  refine ⟨rfl, ?_⟩
  simp only [final, Exec.runLibrary]
  cases hrun : f.run s.machine th args with
  | error e => exact hs
  | ok r => exact hI.silent hs (Machine.run_leaves f r.1 r.2 hrun)

end Steady

end Exec

end ScriptDebug
