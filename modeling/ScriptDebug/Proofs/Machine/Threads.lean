import ScriptDebug.Machine.Notification
import ScriptDebug.Machine.Reflection

/-!
# Threads of a machine

Which thread each operation of the machine changes, and how.  A thread that does not
exist reads as a new one and cannot be changed.
-/

namespace ScriptDebug

namespace Thread

@[simp] theorem hook_unwindTo (t : Thread) (depth : Nat) : (t.unwindTo depth).hook = t.hook := by
  unfold unwindTo
  split <;> rfl

end Thread

namespace Machine

variable {m : Machine} {th th' : ThreadId}

theorem thread_setThread (m : Machine) (th : ThreadId) (t : Thread) (th' : ThreadId) :
    (m.setThread th t).thread th' =
      if th = th' ∧ (m.thread? th).isSome then t else m.thread th' := by
  obtain ⟨i⟩ := th
  obtain ⟨j⟩ := th'
  simp only [thread, thread?, setThread, Array.getElem?_setIfInBounds, Handle.mk.injEq]
  by_cases hij : i = j
  · subst hij
    by_cases hlt : i < m.threads.size
    · simp [hlt]
    · simp [hlt]
  · simp [hij]

theorem thread?_isSome_iff : (m.thread? th).isSome ↔ th.index < m.threads.size := by
  rw [thread?, isSome_getElem?]

/-- No thread comes or goes when one is put in place. -/
@[simp] theorem thread?_setThread_isSome (m : Machine) (th : ThreadId) (t : Thread)
    (th' : ThreadId) : ((m.setThread th t).thread? th').isSome = (m.thread? th').isSome := by
  rw [Bool.eq_iff_iff, thread?_isSome_iff, thread?_isSome_iff, setThread,
    Array.size_setIfInBounds]

theorem thread_setThread_self (h : (m.thread? th).isSome) (t : Thread) :
    (m.setThread th t).thread th = t := by
  rw [thread_setThread, if_pos ⟨rfl, h⟩]

theorem thread_setThread_ne (h : th ≠ th') (t : Thread) :
    (m.setThread th t).thread th' = m.thread th' := by
  rw [thread_setThread, if_neg fun hc => h hc.1]

/-- A thread that does not exist is like a new one. -/
theorem thread_of_absent (h : ¬ (m.thread? th).isSome) : m.thread th = .new := by
  rw [thread, Option.not_isSome_iff_eq_none.mp h]
  rfl

/-- Putting a thread back as it is changes nothing. -/
theorem thread_setThread_thread (m : Machine) (th th' : ThreadId) :
    (m.setThread th (m.thread th)).thread th' = m.thread th' := by
  rw [thread_setThread]
  split
  · rename_i h
    rw [h.1]
  · rfl

theorem setThread_thread (m : Machine) (th : ThreadId) : m.setThread th (m.thread th) = m := by
  have hthreads : m.threads.setIfInBounds th.index (m.thread th) = m.threads := by
    rw [Array.setIfInBounds_def]
    split
    · rename_i hlt
      have hget : m.thread th = m.threads[th.index] := by
        rw [thread, thread?, Array.getElem?_eq_getElem hlt, Option.getD_some]
      rw [hget, Array.set_getElem_self]
    · rfl
  rw [setThread, hthreads]

/-- What holds of the thread before and of what is put in its place holds after. -/
theorem thread_setThread_cases {Q : Thread → Prop} {t : Thread} (hold : Q (m.thread th))
    (hnew : Q t) : Q ((m.setThread th t).thread th) := by
  rw [thread_setThread]
  split
  · exact hnew
  · exact hold

/-! ## Properties of all threads -/

/-- All threads have a property, those that do not exist being like new ones. -/
def Throughout (Q : Thread → Prop) (m : Machine) : Prop := ∀ th, Q (m.thread th)

namespace Throughout

variable {m' : Machine} {Q : Thread → Prop}

theorem congr (h : m.Throughout Q) (hthread : ∀ th, m'.thread th = m.thread th) :
    m'.Throughout Q := by
  intro th
  rw [hthread]
  exact h th

theorem setThread (h : m.Throughout Q) (th : ThreadId) {t : Thread} (ht : Q t) :
    (m.setThread th t).Throughout Q := by
  intro th'
  rw [thread_setThread]
  split
  · exact ht
  · exact h th'

/-- What changes a single thread is to be checked for that one. -/
theorem of_others (h : m.Throughout Q) (hothers : ∀ th', th' ≠ th → m'.thread th' = m.thread th')
    (hth : Q (m'.thread th)) : m'.Throughout Q := by
  intro th'
  by_cases heq : th' = th
  · rw [heq]
    exact hth
  · rw [hothers th' heq]
    exact h th'

end Throughout

/-! ## Hooks of threads -/

/-- Calls of a thread can change without its hook. -/
theorem hook_setThread_stack (m : Machine) (th : ThreadId) (stack : Option CallStack)
    (th' : ThreadId) : (m.setThread th { m.thread th with stack }).hook th' = m.hook th' := by
  rw [hook, thread_setThread]
  split
  · rename_i hth
    rw [← hth.1]
    rfl
  · rfl

/-- Unwinding touches no hook. -/
@[simp] theorem hook_unwindTo (m : Machine) (th : ThreadId) (d : Nat) (th' : ThreadId) :
    (m.unwindTo th d).hook th' = m.hook th' := by
  rw [hook, unwindTo, thread_setThread]
  split
  · rename_i hth
    rw [Thread.hook_unwindTo, hth.1]
    rfl
  · rfl

/-! ## The mark of a running hook -/

theorem thread_setInHook (m : Machine) (th : ThreadId) (b : Bool) (th' : ThreadId) :
    (m.setInHook th b).thread th' =
      if th = th' ∧ (m.thread? th).isSome then
        { m.thread th with hook := { m.hook th with inHook := b } }
      else m.thread th' :=
  thread_setThread m th _ th'

theorem hook_setInHook_self (h : (m.thread? th).isSome) (b : Bool) :
    (m.setInHook th b).hook th = { m.hook th with inHook := b } := by
  simp only [hook, setInHook, thread_setThread_self h]

theorem hook_setInHook_ne (h : th ≠ th') (b : Bool) :
    (m.setInHook th b).hook th' = m.hook th' := by
  simp only [hook, setInHook, thread_setThread_ne h]

@[simp] theorem stack_setInHook (m : Machine) (th : ThreadId) (b : Bool) (th' : ThreadId) :
    ((m.setInHook th b).thread th').stack = (m.thread th').stack := by
  simp only [setInHook, thread_setThread]
  split
  · rename_i h
    rw [h.1]
  · rfl

/-- A thread inside its hook exists. -/
theorem isSome_of_inHook (h : (m.hook th).inHook = true) : (m.thread? th).isSome := by
  by_cases hth : (m.thread? th).isSome
  · exact hth
  · rw [hook, thread_of_absent hth] at h
    cases h

/-- A thread with a hook exists. -/
theorem isSome_of_function {f : FunctionId} (h : (m.hook th).function = some f) :
    (m.thread? th).isSome := by
  by_cases hth : (m.thread? th).isSome
  · exact hth
  · rw [hook, thread_of_absent hth] at h
    cases h

/-- Removing the mark leaves the hook unmarked, also where there is no thread. -/
theorem inHook_setInHook_false (m : Machine) (th : ThreadId) :
    ((m.setInHook th false).hook th).inHook = false := by
  by_cases h : (m.thread? th).isSome
  · rw [hook_setInHook_self h]
  · rw [hook, setInHook, thread_setThread, if_neg fun hc => h hc.2, thread_of_absent h]
    rfl

end Machine

end ScriptDebug
