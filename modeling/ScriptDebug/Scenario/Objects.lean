import ScriptDebug.Scenario.Naming

/-!
# Object actions

Creating objects, reading and changing them.  No function runs meanwhile, and no
call stack or hook is touched.
-/

namespace ScriptDebug

namespace Exec

/-- Change the store where the change applies. -/
def updateStore (f : Store → Option Store) : Exec Unit :=
  onMachine fun m =>
    match f m.store with
    | some store => { m with store }
    | none => m

/-- The content of a cell as a reply. -/
def cellReply (c : CellId) : Exec Reply := do
  match (← machine).store.cellValue? c with
  | some v => return .content v
  | none => return .absent

def performObject (here : Surroundings) : ObjectAction → Exec Reply
  | .newTable => return .value (.table (← fromStore (·.newTable)))
  | .newUserdata => return .value (.userdata (← fromStore (·.newUserdata)))
  | .newThread => return .value (.thread (← fromMachine (·.newThread)))
  | .newCell v => do
    let v ← value here v
    let c ← fromStore (·.newCell (.closed v))
    return .number c.index
  | .newOpenCell w slot => do
    let w ← window here w
    let c ← fromStore (·.newCell (.aliasing w slot))
    return .number c.index
  | .closeCell c => do
    updateStore (·.closeCell? c)
    cellReply c
  | .setCell c v => do
    let v ← value here v
    updateStore (·.setCell? c v)
    cellReply c
  | .getCell c => cellReply c
  | .newWindow name size => do
    let w ← fromStore (·.newWindow (Array.replicate size .nil))
    modify (·.bindWindow name w)
    return .extent size
  | .getRegister w slot => do
    let w ← window here w
    return .value ((← machine).store.register w slot)
  | .setRegister w slot v => do
    let w ← window here w
    let v ← value here v
    let inside := slot < (← machine).store.windowSize w
    updateStore fun s => some (s.setRegister w slot v)
    return .flag inside
  | .dumpWindow w => do
    let w ← window here w
    return .listing ((← machine).store.registers w).toList
  | .sameWindow w w' => do
    let w ← window here w
    let w' ← window here w'
    return .flag (w == w')
  | .describeFunction f => do
    let f ← function here f
    let store := (← machine).store
    return .functionText (store.describeFunction f) (store.isNative f)
  | .setTable t k v => do
    let k ← value here k
    let v ← value here v
    match ← table? here t with
    | some (id, table) =>
      match table.set k v with
      | .ok table =>
        updateStore fun s => some (s.modifyTable id fun _ => table)
        return .number table.length
      | .error e => return .keyError e
    | none => return .absent
  | .getTable t k => do
    let k ← value here k
    match ← table? here t with
    | some (_, table) => return .value (table.get k)
    | none => return .absent
  | .tableLength t => do
    match ← table? here t with
    | some (_, table) => return .number table.length
    | none => return .absent
  | .bind v => return .value (← value here v)
  | .registerLibrary => return .value (.table (← fromMachine (·.registerLibrary)))
  | .describeMachine => return .text (← machine).text

end Exec

end ScriptDebug
