import ScriptDebug.Machine.Reflection
import ScriptDebug.Proofs.Machine.Notes

/-!
# The journal of one thread

The records of a thread in the order in which they were made, and what each operation
of the machine adds to them.
-/

namespace ScriptDebug

/-- An element of a list with one more at its end is that one, or stands before it. -/
theorem concat_eq_append_cons_cases {α : Type} {xs before after : List α} {x y : α}
    (h : xs ++ [x] = before ++ y :: after) :
    (xs = before ∧ x = y) ∨ ∃ after', xs = before ++ y :: after' := by
  rcases List.eq_nil_or_concat after with rfl | ⟨after', z, rfl⟩
  · obtain ⟨hxs, hlast⟩ := List.append_inj' h rfl
    exact .inl ⟨hxs, List.singleton_inj.mp hlast⟩
  · have h' : xs ++ [x] = (before ++ y :: after') ++ [z] := by
      simpa using h
    obtain ⟨hxs, -⟩ := List.append_inj' h' rfl
    exact .inr ⟨after', hxs⟩

namespace HookRecord

/-- The thread that a record is about. -/
def thread : HookRecord → ThreadId
  | installed th _ => th
  | delivered d => d.thread

/-- The function that an event went to, and the event. -/
def delivery? : HookRecord → Option (FunctionId × HookEvent)
  | installed .. => none
  | delivered d => some (d.function, d.event)

/-- The hook that was installed. -/
def installation? : HookRecord → Option Hook
  | installed _ h => some h
  | delivered _ => none

/-- Installations are no deliveries. -/
theorem filterMap_delivery?_installed (th : ThreadId) (hooks : List Hook) :
    (hooks.map (installed th)).filterMap (·.delivery?) = [] := by
  induction hooks with
  | nil => rfl
  | cons h hooks ih => exact ih

theorem filterMap_installation?_installed (th : ThreadId) (hooks : List Hook) :
    (hooks.map (installed th)).filterMap (·.installation?) = hooks := by
  induction hooks with
  | nil => rfl
  | cons h hooks ih => exact congrArg (h :: ·) ih

end HookRecord

namespace Machine

/-- The part of the journal that is about one thread. -/
def history (m : Machine) (th : ThreadId) : List HookRecord :=
  m.journal.toList.filter fun r => r.thread = th

/-- The events that were delivered for a thread, with their receivers. -/
def deliveries (m : Machine) (th : ThreadId) : List (FunctionId × HookEvent) :=
  (m.history th).filterMap (·.delivery?)

/-- The hooks that were installed for a thread. -/
def installations (m : Machine) (th : ThreadId) : List Hook :=
  (m.history th).filterMap (·.installation?)

variable {m m' : Machine} {th th' : ThreadId}

theorem history_congr (h : m'.journal = m.journal) (th : ThreadId) :
    m'.history th = m.history th := by
  simp only [history, h]

/-- What is delivered by new records. -/
theorem deliveries_of_history {rs : List HookRecord} (h : m'.history th = m.history th ++ rs) :
    m'.deliveries th = m.deliveries th ++ rs.filterMap (·.delivery?) := by
  rw [deliveries, h, List.filterMap_append]
  rfl

/-- What is installed by new records. -/
theorem installations_of_history {rs : List HookRecord}
    (h : m'.history th = m.history th ++ rs) :
    m'.installations th = m.installations th ++ rs.filterMap (·.installation?) := by
  rw [installations, h, List.filterMap_append]
  rfl

/-! ## Deliveries -/

/-- The record of an event that is delivered now. -/
def deliveryNow (m : Machine) (th : ThreadId) (f : FunctionId) (e : HookEvent) : Delivery :=
  ⟨th, f, e, m.hook th, m.depth th⟩

theorem history_recordDelivery_self (m : Machine) (th : ThreadId) (f : FunctionId)
    (e : HookEvent) : (m.recordDelivery th f e).history th =
      m.history th ++ [.delivered (m.deliveryNow th f e)] := by
  simp [history, recordDelivery, deliveryNow, hook, HookRecord.thread]

theorem history_recordDelivery_ne (h : th ≠ th') (f : FunctionId) (e : HookEvent) :
    (m.recordDelivery th f e).history th' = m.history th' := by
  simp [history, recordDelivery, HookRecord.thread, h]

/-! ## Installations -/

theorem history_setHook_self (m : Machine) (th : ThreadId) (f : Option FunctionId)
    (mask : String) (count : Nat) : (m.setHook th f mask count).history th =
      m.history th ++ [.installed th ((m.hook th).replace f mask count)] := by
  simp [history, setHook, setThread, hook, HookRecord.thread]

theorem history_setHook_ne (h : th ≠ th') (f : Option FunctionId) (mask : String) (count : Nat) :
    (m.setHook th f mask count).history th' = m.history th' := by
  simp [history, setHook, setThread, HookRecord.thread, h]

theorem thread_setHook (m : Machine) (th : ThreadId) (f : Option FunctionId) (mask : String)
    (count : Nat) (th' : ThreadId) : (m.setHook th f mask count).thread th' =
      if th = th' ∧ (m.thread? th).isSome then
        { m.thread th with hook := (m.hook th).replace f mask count }
      else m.thread th' :=
  thread_setThread m th _ th'

theorem thread_setHook_self (h : (m.thread? th).isSome) (f : Option FunctionId) (mask : String)
    (count : Nat) : (m.setHook th f mask count).thread th =
      { m.thread th with hook := (m.hook th).replace f mask count } :=
  thread_setThread_self h _

theorem thread_setHook_ne (h : th ≠ th') (f : Option FunctionId) (mask : String) (count : Nat) :
    (m.setHook th f mask count).thread th' = m.thread th' :=
  thread_setThread_ne h _

end Machine

end ScriptDebug
