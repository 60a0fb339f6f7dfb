import ScriptDebug.Proofs.Machine.Journal
import ScriptDebug.Proofs.Scenario.Reports

/-!
# The mark of a running hook

Whatever runs, and however it ends, every thread is marked afterwards as it was before.
So no thread is marked between the commands of a session.
-/

namespace ScriptDebug

namespace Machine

/-- The same threads are inside their hooks. -/
def SameMarks (base m : Machine) : Prop := ∀ th, (m.hook th).inHook = (base.hook th).inHook

variable {base m m' : Machine} {th : ThreadId}

namespace SameMarks

theorem refl (m : Machine) : SameMarks m m := fun _ => rfl

theorem trans (h : SameMarks base m) (h' : SameMarks m m') : SameMarks base m' := by
  intro th
  calc
    (m'.hook th).inHook = (m.hook th).inHook := h' th
    _ = (base.hook th).inHook := h th

theorem of_thread (h : ∀ th, m'.thread th = m.thread th) : SameMarks m m' :=
  fun th => congrArg (·.hook.inHook) (h th)

/-- Replacing a thread by one with the same mark. -/
theorem setThread {t : Thread} (h : t.hook.inHook = (m.hook th).inHook) :
    SameMarks m (m.setThread th t) := by
  intro th'
  rw [hook, thread_setThread]
  split
  · rename_i hth
    rw [h, hth.1]
  · rfl

theorem setHook (m : Machine) (th : ThreadId) (f : Option FunctionId) (mask : String)
    (count : Nat) : SameMarks m (m.setHook th f mask count) :=
  setThread (t := { m.thread th with hook := (m.hook th).replace f mask count })
    ((m.hook th).replace_inHook f mask count)

theorem unwindTo (m : Machine) (th : ThreadId) (d : Nat) : SameMarks m (m.unwindTo th d) :=
  fun th' => congrArg (·.inHook) (m.hook_unwindTo th d th')

theorem noted {pending : Option PendingEvents} (h : Noted th m m' pending) : SameMarks m m' := by
  intro th'
  by_cases hth : th' = th
  · rw [hth]
    exact h.setup.inHook
  · exact congrArg (·.hook.inHook) (h.others th' hth)

/-- Marking a thread, keeping all marks and removing the mark again. -/
theorem unmark (hout : (m.hook th).inHook = false) (h : SameMarks (m.setInHook th true) m') :
    SameMarks m (m'.setInHook th false) := by
  intro th'
  by_cases hth : th = th'
  · subst hth
    rw [inHook_setInHook_false, hout]
  · rw [hook_setInHook_ne hth, h th', hook_setInHook_ne hth]

/-- Every run keeps all marks. -/
theorem reportInvariant : Exec.ReportInvariant (fun _ => True) SameMarks where
  steady _ := ⟨fun h hcalm => h.trans (of_thread hcalm.thread),
    fun th f mask count h => h.trans (setHook _ th f mask count)⟩
  bodies {_ m} _ := .of_forall (fun _ => trivial) m.store
  noted h hn := h.trans (noted hn)
  unwound th _ h := h.trans (unwindTo _ th _)
  unwind _ _ h := h.trans (unwindTo _ _ _)
  delivery hcall := by
    intro base th p m hm hcalls
    have hdeliver := Exec.Agree.deliverAll (I := SameMarks (m.setInHook th true)) th
      p.function (fun _ _ h => h) (hcall _ th p.function) p.events
    exact (hdeliver.leads_from (.refl _)).mono (fun _ => id) fun m' hm' =>
      hm.trans (unmark hcalls.outside hm')

end SameMarks

end Machine

namespace Session

/-- All threads start out new. -/
theorem thread_start (setup : SessionSetup) (th : ThreadId) :
    (start setup).machine.thread th = .new := by
  have hnew : (Machine.new setup.settings setup.hasInterpreter).thread th = .new := by
    simp only [Machine.new, Machine.thread, Machine.thread?, Array.getElem?_singleton]
    split <;> rfl
  simp only [start]
  split
  · rw [(Machine.Calm.registerLibrary (P := fun _ => True) _).thread, hnew]
  · exact hnew

/-- What new threads have and no operation can break, all threads have in every state between
the commands of a session. -/
theorem throughout_run {Q : Thread → Prop} (hQ : Exec.ThreadInvariant Q) (hnew : Q .new)
    {setup : SessionSetup} {s : Session} {cs : List Command} {reports : List StepReport}
    (h : (start setup).run cs = some (reports, s)) : s.machine.Throughout Q := by
  apply hQ.reportInvariant.runInvariant.run (i := ()) trivial
    (fun c _ => .of_forall (fun _ => trivial) c) (fun _ hs => hs) h
  intro th
  rw [thread_start]
  exact hnew

theorem marks_start (setup : SessionSetup) (th : ThreadId) :
    ((start setup).machine.hook th).inHook = false := by
  rw [Machine.hook, thread_start]
  rfl

theorem marks_run {s s' : Session} {cs : List Command} {reports : List StepReport}
    (h : s.run cs = some (reports, s')) : s.machine.SameMarks s'.machine :=
  Machine.SameMarks.reportInvariant.runInvariant.run (i := s.machine) trivial
    (fun c _ => .of_forall (fun _ => trivial) c) (fun _ hs => hs) h (.refl _)

end Session

end ScriptDebug
