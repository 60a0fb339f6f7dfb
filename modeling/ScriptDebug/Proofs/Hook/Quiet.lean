import ScriptDebug.Proofs.Machine.Journal
import ScriptDebug.Proofs.Scenario.Reports

/-!
# Threads inside their hooks

As long as a thread is inside its hook no event is delivered for it, whatever runs; all
that its history can gain are other hooks, and the last of them is the one in force.
This holds with any property of the call stack that unwinding keeps.
-/

namespace ScriptDebug

namespace Machine

/-- Unwinding keeps a property of the call stack of a thread: failed calls do, and so do
the commands in question. -/
structure KeepsStack (P : Command → Prop) (th : ThreadId) (Q : Option CallStack → Prop) :
    Prop where
  unwound : ∀ t t' : Thread, Q t.stack → Q t'.stack → Q (t'.unwindTo t.depth).stack
  unwind : ∀ {t : Thread} {d : Nat} {here : Surroundings} {c : Command}, P c →
    c.action = .notify (.unwind d) → Exec.targetThread here c = th → Q t.stack →
      Q (t.unwindTo d).stack

/-- A thread is inside its hook, and since `base` it got nothing but other hooks. -/
structure Quiet (P : Command → Prop) (th : ThreadId) (Q : Option CallStack → Prop)
    (base m : Machine) : Prop where
  bodies : m.store.Every P
  inHook : (m.hook th).inHook = true
  stack : Q (m.thread th).stack
  history : ∃ hooks : List Hook, m.history th = base.history th ++ hooks.map (.installed th) ∧
    m.hook th = hooks.getLast?.getD (base.hook th)

namespace Quiet

variable {P : Command → Prop} {th th' : ThreadId} {Q : Option CallStack → Prop}
  {base m m' : Machine}

theorem refl (hbodies : m.store.Every P) (hin : (m.hook th).inHook = true)
    (hstack : Q (m.thread th).stack) : Quiet P th Q m m :=
  ⟨hbodies, hin, hstack, [], by simp, rfl⟩

/-- What leaves the thread and its history alone keeps it quiet. -/
theorem congr (h : Quiet P th Q base m) (hbodies : m'.store.Every P)
    (hthread : m'.thread th = m.thread th) (hhistory : m'.history th = m.history th) :
    Quiet P th Q base m' := by
  have hhook : m'.hook th = m.hook th := congrArg (·.hook) hthread
  refine ⟨hbodies, by rw [hhook, h.inHook], by rw [hthread]; exact h.stack, ?_⟩
  rw [hhook, hhistory]
  exact h.history

theorem calm (h : Quiet P th Q base m) (hcalm : Calm P m m') : Quiet P th Q base m' :=
  h.congr (hcalm.bodies h.bodies) (hcalm.thread th) (history_congr hcalm.journal th)

/-- Only a new hook for the thread itself counts. -/
theorem setHook (h : Quiet P th Q base m) (th' : ThreadId) (f : Option FunctionId)
    (mask : String) (count : Nat) : Quiet P th Q base (m.setHook th' f mask count) := by
  by_cases hth : th' = th
  · subst hth
    have hthread := thread_setHook_self (isSome_of_inHook h.inHook) f mask count
    have hhook : (m.setHook th' f mask count).hook th' = (m.hook th').replace f mask count :=
      congrArg (·.hook) hthread
    obtain ⟨hooks, hhistory, -⟩ := h.history
    refine ⟨h.bodies, ?_, ?_, hooks ++ [(m.hook th').replace f mask count], ?_, ?_⟩
    · rw [hhook, Hook.replace_inHook, h.inHook]
    · rw [hthread]
      exact h.stack
    · rw [history_setHook_self, hhistory, List.map_append, List.append_assoc]
      rfl
    · rw [hhook, List.getLast?_concat]
      rfl
  · exact h.congr h.bodies (thread_setHook_ne hth f mask count)
      (history_setHook_ne hth f mask count)

theorem noted {pending : Option PendingEvents} (h : Quiet P th Q base m)
    (hn : Noted th' m m' pending) : Quiet P th Q base m' := by
  refine h.congr (hn.store ▸ h.bodies) ?_ (history_congr hn.journal th)
  by_cases hth : th = th'
  · subst hth
    exact hn.ignored h.inHook
  · exact hn.others th hth

/-- Changes of another thread are none of its business. -/
theorem setThread_ne (h : Quiet P th Q base m) (hth : th' ≠ th) (t : Thread) :
    Quiet P th Q base (m.setThread th' t) :=
  h.congr h.bodies (thread_setThread_ne hth t) rfl

theorem recordDelivery_ne (h : Quiet P th Q base m) (hth : th' ≠ th) (f : FunctionId)
    (e : HookEvent) : Quiet P th Q base (m.recordDelivery th' f e) :=
  h.congr h.bodies rfl (history_recordDelivery_ne hth f e)

/-- Unwinding keeps a thread quiet if it keeps the property of the stack. -/
theorem unwindTo (h : Quiet P th Q base m) (d : Nat)
    (hQ : th' = th → Q ((m.thread th).unwindTo d).stack) :
    Quiet P th Q base (m.unwindTo th' d) := by
  by_cases hth : th' = th
  · subst hth
    have hthread : (m.unwindTo th' d).thread th' = (m.thread th').unwindTo d :=
      thread_setThread_self (isSome_of_inHook h.inHook) _
    refine ⟨h.bodies, by rw [hook_unwindTo, h.inHook], by rw [hthread]; exact hQ rfl, ?_⟩
    rw [hook_unwindTo]
    exact h.history
  · exact h.setThread_ne hth _

/-- A quiet thread stays quiet in every run. -/
theorem reportInvariant (hQ : KeepsStack P th Q) (base : Machine) :
    Exec.ReportInvariant P fun _ : Unit => Quiet P th Q base where
  steady _ := ⟨fun h hcalm => h.calm hcalm, fun th' f mask count h => h.setHook th' f mask count⟩
  bodies h := h.bodies
  noted h hn := h.noted hn
  unwound th' h h' := by
    apply h'.unwindTo
    intro hth
    subst hth
    exact hQ.unwound _ _ h.stack h'.stack
  unwind hc ha h := by
    apply h.unwindTo
    intro hth
    exact hQ.unwind hc ha hth h.stack
  delivery hcall := by
    intro i th' p m hm hcalls
    have hne : th' ≠ th := by
      rintro rfl
      cases hm.inHook.symm.trans hcalls.outside
    have hmarked : Quiet P th Q base (m.setInHook th' true) := hm.setThread_ne hne _
    have hdeliver := Exec.Agree.deliverAll (I := Quiet P th Q base) th' p.function
      (fun _ e h => h.recordDelivery_ne hne p.function e) (hcall i th' p.function) p.events
    exact (hdeliver.leads_from hmarked).mono (fun _ => id) fun m' hm' => hm'.setThread_ne hne _

end Quiet

end Machine

end ScriptDebug
