import ScriptDebug.Proofs.CallStack.Positions
import ScriptDebug.Proofs.Hook.Mark

/-!
# Calls that are kept

The calls of a thread that were active at some moment are still the same ones, at the
same depth.  While a function runs, the thread may have one more call, the innermost,
which is free to change; a thread inside its hook gets none.

## Implementation notes

`Kept` describes both situations.  It names the thread that runs the function, if there
is one, and leaves to the hook whether that thread has the additional call.
-/

namespace ScriptDebug

namespace CallStack

/-- A stack has the calls of another one, and up to `own` calls above. -/
structure Keeps (own : Nat) (base cs : CallStack) : Prop where
  depth : cs.depth - own = base.depth
  calls : ∀ i, i < base.depth → cs.callAt i = base.callAt i

namespace Keeps

variable {base cs cs' : CallStack} {own : Nat}

theorem refl (cs : CallStack) : Keeps 0 cs cs := ⟨rfl, fun _ _ => rfl⟩

theorem trans (h : Keeps own base cs) (h' : Keeps 0 cs cs') : Keeps own base cs' := by
  have hdepth := h.depth
  have hdepth' := h'.depth
  constructor
  · omega
  · intro i hi
    rw [h'.calls i (by omega), h.calls i hi]

theorem push (h : Keeps 0 base cs) (fr : Frame) : Keeps 1 base (cs.push fr) := by
  have hdepth := h.depth
  constructor
  · rw [push_depth]
    omega
  · intro i hi
    rw [callAt_push fr (by omega), h.calls i hi]

theorem pop (h : Keeps 1 base cs) : Keeps 0 base cs.pop := by
  have hdepth := h.depth
  constructor
  · rw [pop_depth]
    omega
  · intro i hi
    rw [callAt_pop (by omega), h.calls i hi]

theorem mapTop (h : Keeps 1 base cs) (f : Frame → Frame) : Keeps 1 base (cs.mapTop f) := by
  have hdepth := h.depth
  constructor
  · rw [mapTop_depth]
    omega
  · intro i hi
    rw [callAt_mapTop f (by omega), h.calls i hi]

theorem unwindTo (h : Keeps own base cs) (hlt : base.depth < cs.depth) :
    Keeps 0 base (cs.unwindTo base.depth) := by
  constructor
  · exact unwindTo_depth cs (by omega)
  · intro i hi
    rw [callAt_unwindTo (by omega) hi, h.calls i hi]

/-- A stack that is no deeper has nothing of its own. -/
theorem of_not_lt (h : Keeps own base cs) (hle : ¬ base.depth < cs.depth) : Keeps 0 base cs := by
  have hdepth := h.depth
  exact ⟨by omega, h.calls⟩

/-- An empty stack is what it is with and without a call of its own. -/
theorem of_empty (h : Keeps 0 base .empty) : Keeps own base .empty :=
  ⟨(Nat.zero_sub own).trans h.depth, h.calls⟩

end Keeps

end CallStack

namespace Machine

/-- How many calls a thread may have more while a call on thread `inside` runs: one, but
none if calls are not reported. -/
def ownCalls (base : Machine) (inside : Option ThreadId) (th : ThreadId) : Nat :=
  if inside = some th ∧ (base.hook th).inHook = false then 1 else 0

/-- All threads have the calls that they had, apart from a running one on thread `inside`. -/
structure Kept (P : Command → Prop) (base : Machine) (inside : Option ThreadId) (m : Machine) :
    Prop where
  bodies : m.store.Every P
  marks : SameMarks base m
  calls : ∀ th, (base.calls th).Keeps (base.ownCalls inside th) (m.calls th)

variable {P : Command → Prop} {base m m' : Machine} {th : ThreadId} {inside : Option ThreadId}

theorem calls_setThread_ne {th' : ThreadId} (h : th ≠ th') (t : Thread) :
    (m.setThread th t).calls th' = m.calls th' :=
  congrArg Thread.calls (thread_setThread_ne h t)

/-- What holds of the calls put in place, and of none if there is no such thread. -/
theorem calls_setThread_cases {Q : CallStack → Prop} {t : Thread} (hsome : Q t.calls)
    (hnone : m.calls th = .empty → Q .empty) : Q ((m.setThread th t).calls th) := by
  by_cases hth : (m.thread? th).isSome
  · rw [calls, thread_setThread_self hth]
    exact hsome
  · have hempty : m.calls th = .empty := by
      rw [calls, thread_of_absent hth]
      rfl
    rw [calls, thread_setThread, if_neg fun hc => hth hc.2]
    change Q (m.calls th)
    rw [hempty]
    exact hnone hempty

theorem calls_setInHook (m : Machine) (th : ThreadId) (b : Bool) (th' : ThreadId) :
    (m.setInHook th b).calls th' = m.calls th' := by
  rw [calls, Thread.calls, stack_setInHook]
  rfl

namespace Kept

theorem refl (hbodies : m.store.Every P) : Kept P m none m := by
  refine ⟨hbodies, .refl m, ?_⟩
  intro th
  exact .refl _

theorem trans (h : Kept P base inside m) (h' : Kept P m none m') : Kept P base inside m' :=
  ⟨h'.bodies, h.marks.trans h'.marks, fun th => (h.calls th).trans (h'.calls th)⟩

/-- What changes no call keeps them. -/
theorem of_calls (hbodies : m'.store.Every P) (hmarks : SameMarks m m')
    (hcalls : ∀ th, m'.calls th = m.calls th) : Kept P m none m' := by
  refine ⟨hbodies, hmarks, ?_⟩
  intro th
  rw [hcalls]
  exact .refl _

theorem steady (base : Machine) (inside : Option ThreadId) : Steady P (Kept P base inside) where
  calm h hcalm := h.trans (.of_calls (hcalm.bodies h.bodies) (.of_thread hcalm.thread)
    fun th => congrArg Thread.calls (hcalm.thread th))
  setHook := by
    intro m th f mask count h
    refine h.trans (.of_calls h.bodies (.setHook m th f mask count) ?_)
    intro th'
    rw [Machine.calls, thread_setHook]
    split
    · rename_i hth
      rw [← hth.1]
      rfl
    · rfl

theorem recordDelivery (h : Kept P base inside m) (f : FunctionId) (e : HookEvent) :
    Kept P base inside (m.recordDelivery th f e) :=
  h.trans (.of_calls h.bodies (.refl m) fun _ => rfl)

/-- Nothing is lost by marking a thread, as long as the mark is removed. -/
theorem unmark (hout : (m.hook th).inHook = false) (h : Kept P (m.setInHook th true) none m') :
    Kept P m none (m'.setInHook th false) := by
  refine ⟨h.bodies, .unmark hout h.marks, ?_⟩
  intro th'
  have hkeeps := h.calls th'
  rw [calls_setInHook] at hkeeps ⊢
  exact hkeeps

end Kept

/-! ## Notifications -/

@[simp] theorem ownCalls_none (base : Machine) (th : ThreadId) : base.ownCalls none th = 0 := rfl

theorem ownCalls_of_inHook (hin : (base.hook th).inHook = true) (inside : Option ThreadId) :
    base.ownCalls inside th = 0 := by
  simp [ownCalls, hin]

theorem ownCalls_self (hout : (base.hook th).inHook = false) : base.ownCalls (some th) th = 1 := by
  simp [ownCalls, hout]

theorem ownCalls_ne {th' : ThreadId} (h : th' ≠ th) : base.ownCalls (some th) th' = 0 := by
  simp [ownCalls, h.symm]

namespace Kept

/-- A notification counts for its own thread alone, and only outside the hook. -/
theorem noted {pending : Option PendingEvents} {inside' : Option ThreadId}
    (h : Kept P base inside m) (hn : Noted th m m' pending)
    (hothers : ∀ th', th' ≠ th → base.ownCalls inside' th' = base.ownCalls inside th')
    (hself : (m.hook th).inHook = false →
      (base.calls th).Keeps (base.ownCalls inside' th) (m'.calls th)) :
    Kept P base inside' m' := by
  refine ⟨hn.store ▸ h.bodies, h.marks.trans (.noted hn), ?_⟩
  intro th'
  by_cases hth : th' = th
  · subst hth
    cases hin : (m.hook th').inHook with
    | true =>
        have hbase : (base.hook th').inHook = true := by rw [← h.marks th', hin]
        have hcalls := h.calls th'
        have hsame : m'.calls th' = m.calls th' := congrArg Thread.calls (hn.ignored hin)
        rw [ownCalls_of_inHook hbase] at hcalls ⊢
        rw [hsame]
        exact hcalls
    | false => exact hself hin
  · have hsame : m'.calls th' = m.calls th' := congrArg Thread.calls (hn.others th' hth)
    rw [hothers th' hth, hsame]
    exact h.calls th'

theorem noteCall (h : Kept P base none m) (th : ThreadId) (fr : Frame) :
    Kept P base (some th) (m.noteCall th fr).1 := by
  apply h.noted (m.noteCall_noted th fr) (fun th' hne => ownCalls_ne hne)
  intro hout
  have hkeeps := h.calls th
  rw [ownCalls_self ((h.marks th).symm.trans hout)]
  apply calls_setThread_cases
  · have hcalls : ((m.thread th).noteCall fr).1.calls = (m.calls th).push fr := by
      rw [Machine.hook] at hout
      simp only [Thread.noteCall, hout]
      rfl
    rw [hcalls]
    exact hkeeps.push fr
  · intro hempty
    rw [hempty] at hkeeps
    exact hkeeps.of_empty

theorem noteReturn (h : Kept P base (some th) m) : Kept P base none (m.noteReturn th).1 := by
  refine h.noted (m.noteReturn_noted th) (fun th' hne => (ownCalls_ne hne).symm) ?_
  intro hout
  have hkeeps := h.calls th
  rw [ownCalls_self ((h.marks th).symm.trans hout)] at hkeeps
  apply calls_setThread_cases
  · have hcalls : (m.thread th).noteReturn.1.calls = (m.calls th).pop := by
      rw [Machine.hook] at hout
      simp only [Thread.noteReturn, hout]
      rfl
    rw [hcalls]
    exact hkeeps.pop
  · intro hempty
    rw [hempty] at hkeeps
    exact hkeeps.of_not_lt (Nat.not_lt_zero _)

theorem noteInstruction (h : Kept P base (some th) m) (pc : Nat) (varargs : List Value)
    (top : Nat) : Kept P base (some th) (m.noteInstruction th pc varargs top).1 := by
  apply h.noted (m.noteInstruction_noted th pc varargs top) (fun _ _ => rfl)
  intro hout
  have hkeeps := h.calls th
  rw [ownCalls_self ((h.marks th).symm.trans hout)] at hkeeps ⊢
  have hrecord : (m.noteInstruction th pc varargs top).1.calls th =
      (m.setThread th ((m.thread th).noteInstruction (fun fr => fr.line? m.store) pc varargs
        top).1).calls th := by
    simp only [Machine.noteInstruction]
    split
    · rfl
    · exact congrArg Thread.calls ((Calm.recordTrace (P := P) _ th).thread th)
  rw [hrecord]
  apply calls_setThread_cases
  · have hcalls : ((m.thread th).noteInstruction (fun fr => fr.line? m.store) pc varargs
        top).1.calls = (m.calls th).mapTop (·.advance pc varargs top) := by
      rw [Machine.hook] at hout
      simp only [Thread.noteInstruction, hout]
      rfl
    rw [hcalls]
    exact hkeeps.mapTop _
  · intro hempty
    rw [hempty] at hkeeps
    exact hkeeps

/-- Unwinding drops the call of its own, if it is still there. -/
theorem unwindTo (h : Kept P base inside m) (hinside : inside = none ∨ inside = some th) :
    Kept P base none (m.unwindTo th (base.depth th)) := by
  refine ⟨h.bodies, h.marks.trans (.unwindTo m th _), ?_⟩
  intro th'
  have hkeeps := h.calls th'
  by_cases hth : th = th'
  · subst hth
    apply calls_setThread_cases
    · unfold Thread.unwindTo
      split
      · rename_i hlt
        exact hkeeps.unwindTo hlt
      · rename_i hle
        exact hkeeps.of_not_lt hle
    · intro hempty
      rw [hempty] at hkeeps
      exact hkeeps.of_not_lt (Nat.not_lt_zero _)
  · have hown : base.ownCalls inside th' = 0 := by
      obtain rfl | rfl := hinside
      · rfl
      · exact ownCalls_ne (Ne.symm hth)
    rw [hown] at hkeeps
    rw [Machine.unwindTo, calls_setThread_ne hth]
    exact hkeeps

end Kept

end Machine

end ScriptDebug
