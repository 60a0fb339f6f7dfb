import ScriptDebug.Proofs.CallStack.Refinement
import ScriptDebug.Proofs.Hook.Pending
import ScriptDebug.Proofs.Machine.Threads

/-!
# What notifications do to a machine

All notifications are alike in what they leave alone: other threads, the journal, the
objects and the configuration of the hook.  A thread inside its hook ignores them.
-/

namespace ScriptDebug

namespace Machine

/-- A notification of a thread, with the events that it calls for. -/
structure Noted (th : ThreadId) (m m' : Machine) (pending : Option PendingEvents) : Prop where
  others : ∀ th', th' ≠ th → m'.thread th' = m.thread th'
  ignored : (m.hook th).inHook = true → m'.thread th = m.thread th
  setup : Hook.SameSetup (m.hook th) (m'.hook th)
  pending : ∀ p, pending = some p → (m'.hook th).Calls p
  journal : m'.journal = m.journal
  store : m'.store = m.store
  represented : ∀ {l}, (m.calls th).Represents l → ∃ l', (m'.calls th).Represents l'

variable {m m' : Machine} {th : ThreadId} {pending : Option PendingEvents}

/-- A notification installs no hook. -/
theorem Noted.function (h : Noted th m m' pending) (th' : ThreadId) :
    (m'.hook th').function = (m.hook th').function := by
  by_cases hth : th' = th
  · rw [hth]
    exact h.setup.function
  · exact congrArg (·.hook.function) (h.others th' hth)

/-- What a thread makes of a notification, when it keeps to the rules. -/
structure ThreadNoted (t t' : Thread) (pending : Option PendingEvents) : Prop where
  ignored : t.hook.inHook = true → t' = t
  setup : Hook.SameSetup t.hook t'.hook
  pending : ∀ p, pending = some p → t'.hook.Calls p
  represented : ∀ {l}, t.calls.Represents l → ∃ l', t'.calls.Represents l'

theorem noted_putThread {r : Thread × Option PendingEvents}
    (h : ThreadNoted (m.thread th) r.1 r.2) : Noted th m (m.putThread th r).1 (m.putThread th r).2
    where
  others th' hne := thread_setThread_ne hne.symm r.1
  ignored hin := by
    rw [putThread, h.ignored hin]
    exact thread_setThread_thread m th th
  setup := by
    apply thread_setThread_cases (Q := fun t => Hook.SameSetup (m.hook th) t.hook)
    · exact .refl _
    · exact h.setup
  pending p hp := by
    have hcalls := h.pending p hp
    by_cases hth : (m.thread? th).isSome
    · simp only [hook, putThread, thread_setThread_self hth]
      exact hcalls
    · have hnone : some p.function = none := by
        calc
          some p.function = r.1.hook.function := hcalls.function.symm
          _ = (m.thread th).hook.function := h.setup.function
          _ = none := by
            rw [thread_of_absent hth]
            rfl
      cases hnone
  journal := rfl
  store := rfl
  represented := by
    intro l hl
    apply thread_setThread_cases (Q := fun t => ∃ l', t.calls.Represents l')
    · exact ⟨l, hl⟩
    · exact h.represented hl

end Machine

namespace Thread

open Machine

theorem noteCall_noted (t : Thread) (fr : Frame) :
    ThreadNoted t (t.noteCall fr).1 (t.noteCall fr).2 := by
  unfold noteCall
  split
  · rename_i hin
    exact ⟨fun _ => rfl, .refl _, (fun p hp => by cases hp), fun hl => ⟨_, hl⟩⟩
  · rename_i hout
    exact ⟨fun hin => absurd hin hout, .refl _, fun p hp => Hook.calls_of_callEvents hp,
      fun hl => ⟨_, hl.push fr⟩⟩

theorem noteReturn_noted (t : Thread) : ThreadNoted t t.noteReturn.1 t.noteReturn.2 := by
  unfold noteReturn
  split
  · rename_i hin
    exact ⟨fun _ => rfl, .refl _, (fun p hp => by cases hp), fun hl => ⟨_, hl⟩⟩
  · rename_i hout
    exact ⟨fun hin => absurd hin hout, .refl _, fun p hp => Hook.calls_of_returnEvents hp,
      fun hl => ⟨_, hl.pop⟩⟩

theorem noteInstruction_noted (t : Thread) (lineOf : Frame → Option Nat) (pc : Nat)
    (varargs : List Value) (top : Nat) :
    ThreadNoted t (t.noteInstruction lineOf pc varargs top).1
      (t.noteInstruction lineOf pc varargs top).2 := by
  unfold noteInstruction
  split
  · rename_i hin
    exact ⟨fun _ => rfl, .refl _, (fun p hp => by cases hp), fun hl => ⟨_, hl⟩⟩
  · rename_i hout
    obtain ⟨hsetup, hcalls⟩ := t.hook.instructionEvents_spec
      (((t.calls.mapTop (·.advance pc varargs top)).frame? 1).bind lineOf)
    exact ⟨fun hin => absurd hin hout, hsetup, fun p hp => hsetup.calls (hcalls p hp),
      fun hl => ⟨_, hl.mapTop _⟩⟩

end Thread

namespace Machine

theorem noteCall_noted (m : Machine) (th : ThreadId) (fr : Frame) :
    Noted th m (m.noteCall th fr).1 (m.noteCall th fr).2 :=
  noted_putThread ((m.thread th).noteCall_noted fr)

theorem noteReturn_noted (m : Machine) (th : ThreadId) :
    Noted th m (m.noteReturn th).1 (m.noteReturn th).2 :=
  noted_putThread (m.thread th).noteReturn_noted

/-- Recording an instruction touches nothing that a notification is about. -/
theorem noted_recordTrace (h : Noted th m m' pending) : Noted th m (m'.recordTrace th) pending := by
  have hrest : (m'.recordTrace th).threads = m'.threads ∧
      (m'.recordTrace th).journal = m'.journal ∧ (m'.recordTrace th).store = m'.store := by
    unfold Machine.recordTrace
    split
    · split
      · exact ⟨rfl, rfl, rfl⟩
      · exact ⟨rfl, rfl, rfl⟩
    · exact ⟨rfl, rfl, rfl⟩
  obtain ⟨hthreads, hjournal, hstore⟩ := hrest
  have hthread : ∀ th', (m'.recordTrace th).thread th' = m'.thread th' := by
    intro th'
    simp only [thread, thread?, hthreads]
  exact
    { others := fun th' hne => (hthread th').trans (h.others th' hne)
      ignored := fun hin => (hthread th).trans (h.ignored hin)
      setup := by simpa only [hook, hthread] using h.setup
      pending := fun p hp => by simpa only [hook, hthread] using h.pending p hp
      journal := hjournal.trans h.journal
      store := hstore.trans h.store
      represented := fun hl => by simpa only [calls, hthread] using h.represented hl }

theorem noteInstruction_noted (m : Machine) (th : ThreadId) (pc : Nat) (varargs : List Value)
    (top : Nat) :
    Noted th m (m.noteInstruction th pc varargs top).1
      (m.noteInstruction th pc varargs top).2 := by
  have hput := noted_putThread ((m.thread th).noteInstruction_noted
    (fun fr => fr.line? m.store) pc varargs top)
  simp only [noteInstruction]
  split
  · exact hput
  · exact noted_recordTrace hput

/-! ## Inside and outside the hook -/

variable {m : Machine} {th : ThreadId}

/-- A thread inside its hook takes no notice of anything. -/
theorem noteInstruction_inHook (hin : (m.hook th).inHook = true) (pc : Nat)
    (varargs : List Value) (top : Nat) :
    m.noteInstruction th pc varargs top = (m, none) := by
  have hguard : (m.thread th).hook.inHook = true := hin
  simp only [noteInstruction, Thread.noteInstruction, if_pos hguard, putThread, setThread_thread]

theorem noteCall_inHook (hin : (m.hook th).inHook = true) (fr : Frame) :
    m.noteCall th fr = (m, none) := by
  have hguard : (m.thread th).hook.inHook = true := hin
  simp only [noteCall, Thread.noteCall, if_pos hguard, putThread, setThread_thread]

theorem noteReturn_inHook (hin : (m.hook th).inHook = true) : m.noteReturn th = (m, none) := by
  have hguard : (m.thread th).hook.inHook = true := hin
  simp only [noteReturn, Thread.noteReturn, if_pos hguard, putThread, setThread_thread]

theorem noteCall_outside (hout : (m.hook th).inHook = false) (fr : Frame) : m.noteCall th fr =
    (m.setThread th { m.thread th with stack := some ((m.calls th).push fr) },
      (m.hook th).callEvents) := by
  have hguard : ¬ (m.thread th).hook.inHook = true := by
    rw [← hook, hout]
    simp
  simp only [noteCall, Thread.noteCall, if_neg hguard]
  rfl

theorem noteReturn_outside (hout : (m.hook th).inHook = false) : m.noteReturn th =
    (m.setThread th { m.thread th with stack := some (m.calls th).pop },
      (m.hook th).returnEvents) := by
  have hguard : ¬ (m.thread th).hook.inHook = true := by
    rw [← hook, hout]
    simp
  simp only [noteReturn, Thread.noteReturn, if_neg hguard]
  rfl

end Machine

end ScriptDebug
