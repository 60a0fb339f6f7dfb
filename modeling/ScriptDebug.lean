import ScriptDebug.Config.File
import ScriptDebug.Proofs.Bytecode.Interning
import ScriptDebug.Proofs.Bytecode.Listing
import ScriptDebug.Proofs.CallStack.Callers
import ScriptDebug.Proofs.CallStack.Capacity
import ScriptDebug.Proofs.CallStack.Leftover
import ScriptDebug.Proofs.Failure.Propagation
import ScriptDebug.Proofs.Hook.Balance
import ScriptDebug.Proofs.Hook.Installation
import ScriptDebug.Proofs.Hook.Interleaving
import ScriptDebug.Proofs.Hook.Reentrancy
import ScriptDebug.Proofs.Hook.Stream
import ScriptDebug.Proofs.Hook.Unperturbed
import ScriptDebug.Proofs.Library.Levels
import ScriptDebug.Proofs.Library.Record
import ScriptDebug.Proofs.Machine.Metatables
import ScriptDebug.Proofs.Reflection.Running
import ScriptDebug.Proofs.Reflection.Traceback
import ScriptDebug.Proofs.Storage.Locals
import ScriptDebug.Proofs.Storage.Upvalues
import ScriptDebug.Proofs.Symbol.Assigned
import ScriptDebug.Proofs.Symbol.Bound
import ScriptDebug.Proofs.Symbol.LaterCode
import ScriptDebug.Proofs.Symbol.Provenance
import ScriptDebug.Proofs.Symbol.Safety
import ScriptDebug.Proofs.Table.FiniteMap
import ScriptDebug.Proofs.Text.ShortSource
import ScriptDebug.Proofs.Value.Equality
