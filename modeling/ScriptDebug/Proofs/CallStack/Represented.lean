import ScriptDebug.Proofs.CallStack.Kept

/-!
# The call stacks of all threads

Whatever runs, and however it ends, the slots of every thread hold its calls and nothing
else.  So what is known of stacks that represent a list holds in every state of a run.
-/

namespace ScriptDebug

namespace Machine

/-- The call stack of every thread represents a list of calls. -/
def Represented (m : Machine) : Prop := ∀ th, ∃ l, (m.calls th).Represents l

variable {m m' : Machine}

namespace Represented

/-- What changes no call leaves them represented. -/
theorem congr (h : m.Represented) (hcalls : ∀ th, m'.calls th = m.calls th) : m'.Represented := by
  intro th
  rw [hcalls]
  exact h th

theorem setThread (h : m.Represented) (th : ThreadId) {t : Thread}
    (ht : ∃ l, t.calls.Represents l) : (m.setThread th t).Represented :=
  Throughout.setThread (Q := fun t => ∃ l, t.calls.Represents l) h th ht

theorem unwindTo_thread {t : Thread} (ht : ∃ l, t.calls.Represents l) (d : Nat) :
    ∃ l, (t.unwindTo d).calls.Represents l := by
  obtain ⟨l, hl⟩ := ht
  unfold Thread.unwindTo
  split
  · exact ⟨_, hl.unwindTo d⟩
  · exact ⟨l, hl⟩

theorem unwindTo (h : m.Represented) (th : ThreadId) (d : Nat) :
    (m.unwindTo th d).Represented :=
  h.setThread th (unwindTo_thread (h th) d)

theorem noted_thread {th : ThreadId} {pending : Option PendingEvents}
    (hn : Noted th m m' pending) (h : ∃ l, (m.calls th).Represents l) :
    ∃ l, (m'.calls th).Represents l := by
  obtain ⟨l, hl⟩ := h
  exact hn.represented hl

theorem noted {th : ThreadId} {pending : Option PendingEvents} (h : m.Represented)
    (hn : Noted th m m' pending) : m'.Represented :=
  Throughout.of_others (Q := fun t => ∃ l, t.calls.Represents l) h hn.others
    (noted_thread hn (h th))

theorem threadInvariant : Exec.ThreadInvariant fun t => ∃ l, t.calls.Represents l where
  setHook _ _ _ ht := ht
  setInHook _ ht := ht
  unwindTo d ht := unwindTo_thread ht d
  noted := noted_thread

/-- Every run keeps stacks represented. -/
theorem reportInvariant : Exec.ReportInvariant (fun _ => True) fun _ : Unit => Represented :=
  threadInvariant.reportInvariant

end Represented

end Machine

/-- Stacks are represented in every state between the commands of a session. -/
theorem Session.represented_run {setup : SessionSetup} {s : Session} {cs : List Command}
    {reports : List StepReport} (h : (start setup).run cs = some (reports, s)) :
    s.machine.Represented :=
  throughout_run Machine.Represented.threadInvariant ⟨[], .empty⟩ h

end ScriptDebug
