import ScriptDebug.Proofs.CallStack.Kept
import ScriptDebug.Proofs.Scenario.Guide

/-!
# A floor under the calls of a thread

As long as a thread does not get down to the depth that it had at some moment, the calls
of that moment stay as they are: all that happens to a call stack happens above.  A thread
inside its hook keeps its calls altogether, as long as none are dropped by fiat.

## Implementation notes

The floor is what guards test.  What is between two tests is described as what holds if
the next test is passed.
-/

namespace ScriptDebug

namespace CallStack

/-- A stack has the calls of another one, and at least `own` calls above. -/
structure Extends (own : Nat) (base cs : CallStack) : Prop where
  depth : base.depth + own ≤ cs.depth
  calls : ∀ i, i < base.depth → cs.callAt i = base.callAt i

namespace Extends

variable {base cs : CallStack} {own : Nat}

theorem refl (cs : CallStack) : Extends 0 cs cs := ⟨Nat.le_refl _, fun _ _ => rfl⟩

theorem of_lt (h : Extends own base cs) (hlt : base.depth < cs.depth) : Extends 1 base cs :=
  ⟨hlt, h.calls⟩

theorem weaken (h : Extends own base cs) : Extends 0 base cs :=
  ⟨Nat.le_trans (Nat.le_add_right ..) h.depth, h.calls⟩

theorem push (h : Extends own base cs) (fr : Frame) : Extends 1 base (cs.push fr) := by
  have hdepth := h.depth
  constructor
  · rw [push_depth]
    omega
  · intro i hi
    rw [callAt_push fr (by omega), h.calls i hi]

theorem pop (h : Extends 1 base cs) : Extends 0 base cs.pop := by
  have hdepth := h.depth
  constructor
  · rw [pop_depth]
    omega
  · intro i hi
    rw [callAt_pop (by omega), h.calls i hi]

/-- A call that can be removed is above the calls that are then left. -/
theorem of_pop (hpos : 0 < cs.depth) : Extends 1 cs.pop cs := by
  constructor
  · rw [pop_depth]
    omega
  · intro i hi
    rw [pop_depth] at hi
    exact (callAt_pop (by omega)).symm

theorem mapTop (h : Extends 1 base cs) (f : Frame → Frame) : Extends 1 base (cs.mapTop f) := by
  have hdepth := h.depth
  constructor
  · rw [mapTop_depth]
    exact hdepth
  · intro i hi
    rw [callAt_mapTop f (by omega), h.calls i hi]

theorem unwindTo (h : Extends own base cs) {d : Nat} (hbase : base.depth ≤ d)
    (hd : d ≤ cs.depth) : Extends 0 base (cs.unwindTo d) := by
  constructor
  · rw [unwindTo_depth cs hd]
    exact hbase
  · intro i hi
    rw [callAt_unwindTo hd (by omega), h.calls i hi]

/-- A stack of the same depth has the same frames. -/
theorem frame?_eq (h : Extends own base cs) (hdepth : cs.depth = base.depth) (level : Int) :
    cs.frame? level = base.frame? level :=
  frame?_congr hdepth h.calls level

end Extends

end CallStack

namespace Machine

variable {m : Machine} {th th' : ThreadId}

/-! ## Calls after a notification -/

theorem depth_eq_calls_depth (m : Machine) (th : ThreadId) : m.depth th = (m.calls th).depth := rfl

theorem isSome_of_depth_pos (h : 0 < m.depth th) : (m.thread? th).isSome := by
  by_cases hth : (m.thread? th).isSome
  · exact hth
  · rw [depth, thread_of_absent hth] at h
    cases h

/-- Putting a thread in place changes calls to those of the thread, if it changes any. -/
theorem calls_setThread_or (m : Machine) (th : ThreadId) (t : Thread) (th' : ThreadId) :
    (m.setThread th t).calls th' = m.calls th' ∨
      th' = th ∧ (m.setThread th t).calls th' = t.calls := by
  simp only [calls, thread_setThread]
  split
  · rename_i hth
    exact .inr ⟨hth.1.symm, rfl⟩
  · exact .inl rfl

theorem calls_noteCall_or (m : Machine) (th : ThreadId) (fr : Frame) (th' : ThreadId) :
    (m.noteCall th fr).1.calls th' = m.calls th' ∨
      (m.noteCall th fr).1.calls th' = (m.calls th').push fr := by
  cases hin : (m.hook th).inHook with
  | true => exact .inl (by rw [noteCall_inHook hin])
  | false =>
      rw [noteCall_outside hin]
      obtain h | ⟨rfl, h⟩ := calls_setThread_or m th _ th'
      · exact .inl h
      · exact .inr h

theorem calls_noteReturn_or (m : Machine) (th th' : ThreadId) :
    (m.noteReturn th).1.calls th' = m.calls th' ∨
      (m.noteReturn th).1.calls th' = (m.calls th').pop := by
  cases hin : (m.hook th).inHook with
  | true => exact .inl (by rw [noteReturn_inHook hin])
  | false =>
      rw [noteReturn_outside hin]
      obtain h | ⟨rfl, h⟩ := calls_setThread_or m th _ th'
      · exact .inl h
      · exact .inr h

theorem calls_noteInstruction_or (m : Machine) (th : ThreadId) (pc : Nat) (varargs : List Value)
    (top : Nat) (th' : ThreadId) :
    (m.noteInstruction th pc varargs top).1.calls th' = m.calls th' ∨
      ∃ f, (m.noteInstruction th pc varargs top).1.calls th' = (m.calls th').mapTop f := by
  have hrecord : (m.noteInstruction th pc varargs top).1.calls th' =
      (m.setThread th ((m.thread th).noteInstruction (fun fr => fr.line? m.store) pc varargs
        top).1).calls th' := by
    simp only [noteInstruction]
    split
    · rfl
    · exact congrArg Thread.calls ((Calm.recordTrace (P := fun _ => True) _ th).thread th')
  rw [hrecord]
  obtain h | ⟨rfl, h⟩ := calls_setThread_or m th _ th'
  · exact .inl h
  · rw [h, Thread.noteInstruction]
    split
    · exact .inl rfl
    · exact .inr ⟨_, rfl⟩

theorem calls_unwindTo_or (m : Machine) (th : ThreadId) (d : Nat) (th' : ThreadId) :
    (m.unwindTo th d).calls th' = m.calls th' ∨
      d < (m.calls th').depth ∧
        (m.unwindTo th d).calls th' = (m.calls th').unwindTo d := by
  obtain h | ⟨rfl, h⟩ := calls_setThread_or m th ((m.thread th).unwindTo d) th'
  · exact .inl h
  · rw [unwindTo, h, Thread.unwindTo]
    split
    · rename_i hlt
      exact .inr ⟨hlt, rfl⟩
    · exact .inl rfl

theorem calls_unwindTo_self (m : Machine) (th : ThreadId) (d : Nat) :
    (m.unwindTo th d).calls th =
      if d < (m.calls th).depth then (m.calls th).unwindTo d else m.calls th := by
  split
  · rename_i hlt
    have hth := isSome_of_depth_pos (Nat.zero_lt_of_lt hlt)
    rw [unwindTo, calls, thread_setThread_self hth, Thread.unwindTo]
    exact congrArg Thread.calls (if_pos hlt)
  · rename_i hle
    exact (calls_unwindTo_or m th d th).resolve_right fun h => hle h.1

theorem calls_setHook (m : Machine) (th : ThreadId) (f : Option FunctionId) (mask : String)
    (count : Nat) (th' : ThreadId) : (m.setHook th f mask count).calls th' = m.calls th' := by
  rw [calls, thread_setHook]
  split
  · rename_i hth
    rw [← hth.1]
    rfl
  · rfl

/-- What unwinding to the depth of a call stack leaves of the calls above it. -/
theorem unwindTo_extends {base : CallStack} {own : Nat}
    (h : CallStack.Extends own base (m.calls th)) :
    ((m.unwindTo th base.depth).calls th).depth = base.depth ∧
      CallStack.Extends 0 base ((m.unwindTo th base.depth).calls th) := by
  have hdepth := h.depth
  rw [calls_unwindTo_self]
  split
  · rename_i hlt
    exact ⟨CallStack.unwindTo_depth _ (Nat.le_of_lt hlt),
      h.unwindTo (Nat.le_refl _) (Nat.le_of_lt hlt)⟩
  · rename_i hle
    have heq : (m.calls th).depth = base.depth := by omega
    exact ⟨heq, ⟨Nat.le_of_eq heq.symm, h.calls⟩⟩

/-! ## The floor -/

/-- A test of the depth of a thread. -/
def reaches (th : ThreadId) (d : Nat) (m : Machine) : Bool := d ≤ m.depth th

variable {d : Nat} {base : CallStack}

theorem reaches_iff : m.reaches th d = true ↔ d ≤ (m.calls th).depth := decide_eq_true_iff

theorem not_reaches_iff : m.reaches th d = false ↔ (m.calls th).depth < d := by
  rw [reaches, decide_eq_false_iff_not, Nat.not_le]
  rfl

/-- A thread below a floor does not get up to it by deliveries, returns and unwinding. -/
theorem lasting_reaches (th : ThreadId) (d : Nat) : Exec.Lasting (reaches th d) where
  record _ _ _ hm := hm
  mark th' b hm := by
    rw [not_reaches_iff] at hm ⊢
    rw [calls_setInHook]
    exact hm
  ret th' hm := by
    rw [not_reaches_iff] at hm ⊢
    obtain h | h := calls_noteReturn_or _ th' th
    · rw [h]
      exact hm
    · rw [h, CallStack.pop_depth]
      omega
  unwind th' d' hm := by
    rw [not_reaches_iff] at hm ⊢
    obtain h | ⟨hlt, h⟩ := calls_unwindTo_or _ th' d' th
    · rw [h]
      exact hm
    · rw [h, CallStack.unwindTo_depth _ (Nat.le_of_lt hlt)]
      exact Nat.lt_trans hlt hm

/-- Guards above the depth of a call stack keep its calls. -/
theorem guide_extends (th : ThreadId) (base : CallStack) :
    Exec.Guide (reaches th (base.depth + 1)) (fun m => CallStack.Extends 1 base (m.calls th))
      (fun m => base.depth < (m.calls th).depth → CallStack.Extends 1 base (m.calls th)) where
  lasting := lasting_reaches th _
  weaken _ hm _ := hm
  pass _ hm hok := hm (reaches_iff.mp hok)
  steady :=
    { calm := fun hm hcalm => by rw [calls, hcalm.thread]; exact hm
      setHook := fun th' f mask count hm => by rw [calls_setHook]; exact hm }
  firm :=
    { record := fun _ _ _ hm => hm
      mark := fun _ hm => ⟨by rwa [calls_setInHook], fun m' hm' => by rwa [calls_setInHook]⟩ }
  loose :=
    { record := fun _ _ _ hm => hm
      mark := fun _ hm => ⟨by rwa [calls_setInHook], fun m' hm' => by rwa [calls_setInHook]⟩ }
  call th' fr hm := by
    obtain h | h := calls_noteCall_or _ th' fr th
    · rw [h]
      exact hm
    · rw [h]
      exact hm.push fr
  instruction th' pc varargs top hm := by
    obtain h | ⟨f, h⟩ := calls_noteInstruction_or _ th' pc varargs top th
    · rw [h]
      exact hm
    · rw [h]
      exact hm.mapTop f
  ret th' hm hlt := by
    obtain h | h := calls_noteReturn_or _ th' th
    · rw [h]
      exact hm
    · rw [h] at hlt ⊢
      exact hm.pop.of_lt hlt
  unwind th' d' hm hlt := by
    obtain h | ⟨hd, h⟩ := calls_unwindTo_or _ th' d' th
    · rw [h] at hlt ⊢
      exact hm hlt
    · rw [h] at hlt ⊢
      rw [CallStack.unwindTo_depth _ (Nat.le_of_lt hd)] at hlt
      have hbefore := hm (Nat.lt_trans hlt hd)
      refine (hbefore.unwindTo (Nat.le_of_lt hlt) (Nat.le_of_lt hd)).of_lt ?_
      rwa [CallStack.unwindTo_depth _ (Nat.le_of_lt hd)]

/-- A thread inside its hook takes no notice of a notification. -/
theorem Noted.thread_eq {m' : Machine} {pending : Option PendingEvents}
    (h : Noted th' m m' pending) (hin : (m.hook th).inHook = true) :
    m'.thread th = m.thread th := by
  by_cases hth : th = th'
  · subst hth
    exact h.ignored hin
  · exact h.others th hth

/-- A thread inside its hook, with no more calls than a bound and, if it has as many as a
stack, with the calls of that stack. -/
structure Held (th : ThreadId) (base : CallStack) (top : Nat) (m : Machine) : Prop where
  inHook : (m.hook th).inHook = true
  depth_le : (m.calls th).depth ≤ top
  extends_of_le : base.depth ≤ (m.calls th).depth → CallStack.Extends 0 base (m.calls th)

/-- At least as many calls, too. -/
structure HeldAbove (th : ThreadId) (base : CallStack) (top : Nat) (m : Machine) : Prop extends
    Held th base top m where
  le_depth : base.depth ≤ (m.calls th).depth

namespace Held

variable {top : Nat} {m' : Machine}

theorem congr (h : Held th base top m) (hin : (m'.hook th).inHook = (m.hook th).inHook)
    (hcalls : m'.calls th = m.calls th) : Held th base top m' := by
  constructor
  · rw [hin]
    exact h.inHook
  · rw [hcalls]
    exact h.depth_le
  · rw [hcalls]
    exact h.extends_of_le

theorem of_thread (h : Held th base top m) (heq : m'.thread th = m.thread th) :
    Held th base top m' :=
  h.congr (congrArg (·.hook.inHook) heq) (congrArg Thread.calls heq)

theorem unwindTo (h : Held th base top m) (th' : ThreadId) (d : Nat) :
    Held th base top (m.unwindTo th' d) := by
  have hin := SameMarks.unwindTo m th' d th
  obtain hcalls | ⟨hd, hcalls⟩ := calls_unwindTo_or m th' d th
  · exact h.congr hin hcalls
  have hdepth := CallStack.unwindTo_depth (m.calls th) (Nat.le_of_lt hd)
  constructor
  · rw [hin]
    exact h.inHook
  · rw [hcalls, hdepth]
    exact Nat.le_trans (Nat.le_of_lt hd) h.depth_le
  · rw [hcalls, hdepth]
    intro hle
    have hbefore := h.extends_of_le (Nat.le_trans hle (Nat.le_of_lt hd))
    exact hbefore.unwindTo hle (Nat.le_of_lt hd)

/-- A thread outside its hook is another one. -/
theorem ne_of_outside (h : Held th base top m) (hout : (m.hook th').inHook = false) : th' ≠ th := by
  rintro rfl
  cases h.inHook.symm.trans hout

theorem setInHook (h : Held th base top m) (hne : th' ≠ th) (b : Bool) :
    Held th base top (m.setInHook th' b) :=
  h.congr (by rw [hook_setInHook_ne hne]) (calls_setInHook ..)

end Held

theorem HeldAbove.of_extends {top : Nat} (hin : (m.hook th).inHook = true)
    (h : CallStack.Extends 0 base (m.calls th)) (hle : (m.calls th).depth ≤ top) :
    HeldAbove th base top m := ⟨⟨hin, hle, fun _ => h⟩, h.depth⟩

theorem HeldAbove.of_thread {top : Nat} {m' : Machine} (h : HeldAbove th base top m)
    (heq : m'.thread th = m.thread th) : HeldAbove th base top m' := by
  refine ⟨h.toHeld.of_thread heq, ?_⟩
  rw [calls, heq]
  exact h.le_depth

theorem HeldAbove.setInHook {top : Nat} (h : HeldAbove th base top m) (hne : th' ≠ th) (b : Bool) :
    HeldAbove th base top (m.setInHook th' b) := by
  refine ⟨h.toHeld.setInHook hne b, ?_⟩
  rw [calls_setInHook]
  exact h.le_depth

/-- Guards at the depth of a call stack keep its calls while a thread is inside its hook,
and no calls are added. -/
theorem guide_held (th : ThreadId) (base : CallStack) (top : Nat) :
    Exec.Guide (reaches th base.depth) (HeldAbove th base top) (Held th base top) where
  lasting := lasting_reaches th _
  weaken _ hm := hm.toHeld
  pass _ hm hok := ⟨hm, reaches_iff.mp hok⟩
  steady :=
    { calm := fun hm hcalm => hm.of_thread (hcalm.thread th)
      setHook := fun th' f mask count hm => by
        refine ⟨hm.congr (SameMarks.setHook ..) (calls_setHook ..), ?_⟩
        rw [calls_setHook]
        exact hm.le_depth }
  firm :=
    { record := fun _ _ _ hm => hm.of_thread rfl
      mark := fun hout hm =>
        have hne := hm.ne_of_outside hout
        ⟨hm.setInHook hne true, fun _ hm' => hm'.setInHook hne false⟩ }
  loose :=
    { record := fun _ _ _ hm => hm.of_thread rfl
      mark := fun hout hm =>
        have hne := hm.ne_of_outside hout
        ⟨hm.setInHook hne true, fun _ hm' => hm'.setInHook hne false⟩ }
  call th' fr hm := hm.of_thread ((noteCall_noted _ th' fr).thread_eq hm.inHook)
  instruction th' pc varargs top hm :=
    hm.of_thread ((noteInstruction_noted _ th' pc varargs top).thread_eq hm.inHook)
  ret th' hm := hm.toHeld.of_thread ((noteReturn_noted _ th').thread_eq hm.inHook)
  unwind th' d' hm := hm.unwindTo th' d'

end Machine

end ScriptDebug
