import ScriptDebug.Scenario.Naming

/-!
# Inspections

Commands of the typed reflection interface.  They read calls and functions and
may change locals, upvalues, hooks and metatables; no function runs meanwhile.
-/

namespace ScriptDebug

namespace Exec

/-- Keep the machine that an assignment leaves, and answer with the name of what
was assigned. -/
def keepAssigned : Option (String × Machine) → Exec Reply
  | some (name, m) => do
    onMachine fun _ => m
    return .optionalName (some name)
  | none => return .optionalName none

/-- Enter the hook of a thread twice and leave it. -/
def guardTwice (th : ThreadId) : Exec GuardReport := do
  let first := !((← machine).hook th).inHook
  if first then
    onMachine (·.setInHook th true)
  let second := !((← machine).hook th).inHook
  let inside := ((← machine).hook th).inHook
  if first then
    onMachine (·.setInHook th false)
  return ⟨first, second, inside, ((← machine).hook th).inHook⟩

def performInspection (here : Surroundings) (th : ThreadId) : Inspection → Exec Reply
  | .getInfo target what => do
    let target ← infoTarget here target
    return .info ((← machine).getInfo? th target what)
  | .getLocal level n => return .binding ((← machine).getLocal? th level n)
  | .setLocal level n v => do
    let v ← value here v
    keepAssigned ((← machine).setLocal? th level n v)
  | .getLocalName f n => do
    let f ← function here f
    return .optionalName ((← machine).localNameOf? f n)
  | .getUpvalue f n => do
    let f ← function here f
    return .binding ((← machine).getUpvalue? f n)
  | .setUpvalue f n v => do
    let f ← function here f
    let v ← value here v
    keepAssigned ((← machine).setUpvalue? f n v)
  | .upvalueId f n => do
    let f ← function here f
    return .optionalIndex (((← machine).upvalueCell? f n).map (·.index))
  | .joinUpvalues f n f' n' => do
    let f ← function here f
    let f' ← function here f'
    adopt ((← machine).joinUpvalues f n f' n')
    return .done
  | .getHook => do
    let h := (← machine).hook th
    return .hook h.function h.mask.text h.count
  | .setHook f mask count => do
    let f ← optionalFunction here f
    onMachine (·.setHook th f mask count)
    return .done
  | .getMetatable v => do
    let v ← value here v
    return .optionalIndex (((← machine).getMetatable? v).map (·.index))
  | .setMetatable v mt => do
    let v ← value here v
    let mt ← optionalTable here mt
    adopt ((← machine).setMetatable v mt)
    return .done
  | .setKindMetatable v mt => do
    let k := (← value here v).kind
    let mt ← optionalTable here mt
    return .flag (← fromMachine (·.setKindMetatable k mt))
  | .kindMetatables => do
    let slots := (← machine).kindMetatables
    return .metatables (ValueKind.all.map slots.get)
  | .resetKindMetatables => do
    onMachine fun m => { m with kindMetatables := .empty }
    return .done
  | .getUserValue u => do
    let u ← value here u
    return .value ((← machine).getUserValue u)
  | .setUserValue u v => do
    let u ← value here u
    let v ← value here v
    adopt ((← machine).setUserValue u v)
    return .done
  | .traceback level message => return .text ((← machine).traceback th message level)
  | .frame level => return .frame ((← machine).frameReport? th level)
  | .findCall f => do
    let f ← function here f
    return .found ((((← machine).calls th).findCall? f).map fun (fr, level) => (level, fr.pc))
  | .levels => do
    let calls := ((← machine).calls th).levels
    return .levels (calls.map fun (fr, level) => (level, fr.callee, fr.pc))
  | .guard => return .guard (← guardTwice th)
  | .state => return .state ((← machine).threadReport th)

end Exec

end ScriptDebug
