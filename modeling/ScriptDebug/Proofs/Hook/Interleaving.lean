import ScriptDebug.Proofs.Hook.Recorder

/-!
# Interleavings of threads

Running code notifies threads, unwinds them and gives them other hooks.  Where hooks only
record, what becomes of a thread depends on what is addressed to it alone, so it makes no
difference how the operations of several threads are interleaved.

## Implementation notes

With recording hooks an operation acts on the machine like a function (`Operation.after`),
although it may call a hook.  Interleavings are compared for these functions.
-/

namespace ScriptDebug

/-- What running code can ask of a thread. -/
inductive Operation where
  | call (f : FunctionId)
  | scriptCall (f : FunctionId) (varargs : List Value) (window : WindowId)
  | instruction (pc : Nat) (varargs : List Value) (top : Nat)
  | ret
  | unwind (depth : Nat)
  | setHook (f : Option FunctionId) (mask : String) (count : Nat)

namespace Operation

/-- Perform an operation for a thread. -/
def perform (nesting : Nat) (th : ThreadId) : Operation → Exec Unit
  | call f => Exec.enter (Exec.call nesting) th (.bare f)
  | scriptCall f vs w => do
    let size := (← Exec.machine).store.windowSize w
    Exec.enter (Exec.call nesting) th (.script f vs w size)
  | instruction pc vs top => Exec.step (Exec.call nesting) th pc vs top
  | ret => Exec.leave (Exec.call nesting) th
  | unwind d => Exec.onMachine (·.unwindTo th d)
  | setHook f mask count => Exec.onMachine (·.setHook th f mask count)

/-- Perform operations in order, each for its thread. -/
def performAll (nesting : Nat) : List (ThreadId × Operation) → Exec Unit
  | [] => return ()
  | (th, o) :: rest => do
    o.perform nesting th
    performAll nesting rest

/-- An operation that installs no other hooks than ones that record. -/
def Records (s : Store) : Operation → Prop
  | setHook (some f) _ _ => s.Records f
  | _ => True

/-- The update of the machine that comes first, and the events that it calls for. -/
def note (th : ThreadId) (m : Machine) : Operation → Machine × Option PendingEvents
  | call f => m.noteCall th (.bare f)
  | scriptCall f vs w => m.noteCall th (.script f vs w (m.store.windowSize w))
  | instruction pc vs top => m.noteInstruction th pc vs top
  | ret => m.noteReturn th
  | unwind d => (m.unwindTo th d, none)
  | setHook f mask count => (m.setHook th f mask count, none)

/-- The machine after an operation, if the hook only records. -/
def after (th : ThreadId) (o : Operation) (m : Machine) : Machine :=
  (o.note th m).1.handOut th (o.note th m).2

/-- The machine after operations in order, if all hooks only record. -/
def afterAll (ops : List (ThreadId × Operation)) (m : Machine) : Machine :=
  ops.foldl (fun m o => o.2.after o.1 m) m

end Operation

namespace Machine

variable {m m' m'' : Machine} {th th' : ThreadId}

/-- Every installed hook only records. -/
def HooksRecord (m : Machine) : Prop :=
  ∀ th f, (m.hook th).function = some f → m.store.Records f

/-- Two machines with the same objects and the same state and history of one thread. -/
structure SameFor (th : ThreadId) (m m' : Machine) : Prop where
  store : m'.store = m.store
  thread? : m'.thread? th = m.thread? th
  history : m'.history th = m.history th

namespace SameFor

theorem refl (th : ThreadId) (m : Machine) : SameFor th m m := ⟨rfl, rfl, rfl⟩

theorem symm (h : SameFor th m m') : SameFor th m' m :=
  ⟨h.store.symm, h.thread?.symm, h.history.symm⟩

theorem trans (h : SameFor th m m') (h' : SameFor th m' m'') : SameFor th m m'' :=
  ⟨h'.store.trans h.store, h'.thread?.trans h.thread?, h'.history.trans h.history⟩

theorem thread (h : SameFor th m m') : m'.thread th = m.thread th :=
  congrArg (·.getD .new) h.thread?

theorem hook (h : SameFor th m m') : m'.hook th = m.hook th := congrArg (·.hook) h.thread

theorem depth (h : SameFor th m m') : m'.depth th = m.depth th := congrArg (·.depth) h.thread

/-- Both machines give the thread the same state. -/
theorem setThread (h : SameFor th m m') (t : Thread) :
    SameFor th (m.setThread th t) (m'.setThread th t) := by
  have hexists : th.index < m'.threads.size ↔ th.index < m.threads.size := by
    rw [← thread?_isSome_iff, ← thread?_isSome_iff, h.thread?]
  refine ⟨h.store, ?_, h.history⟩
  simp only [Machine.thread?, Machine.setThread, Array.getElem?_setIfInBounds_self, hexists]

/-- The state of another thread does not matter. -/
theorem setThread_ne (hne : th' ≠ th) (m : Machine) (t : Thread) :
    SameFor th m (m.setThread th' t) := by
  refine ⟨rfl, ?_, rfl⟩
  have hindex : th'.index ≠ th.index := fun h => hne (by cases th; cases th'; cases h; rfl)
  simp only [Machine.thread?, Machine.setThread, Array.getElem?_setIfInBounds_ne hindex]

/-- What is traced does not matter. -/
theorem recordTrace (m : Machine) (th' : ThreadId) : SameFor th m (m.recordTrace th') := by
  unfold Machine.recordTrace
  split
  · split
    · exact ⟨rfl, rfl, rfl⟩
    · exact refl th m
  · exact refl th m

/-- Both machines hand out the same. -/
theorem handOut (h : SameFor th m m') (pending : Option PendingEvents) :
    SameFor th (m.handOut th pending) (m'.handOut th pending) := by
  cases pending with
  | none => exact h
  | some p =>
      have hrecord : m'.handedOut th p.function = m.handedOut th p.function := by
        funext e
        simp only [handedOut, h.hook, h.depth]
      refine ⟨h.store, h.thread?, ?_⟩
      have hhistory := h.history
      simp only [Machine.history] at hhistory
      simp only [Machine.handOut, handAll, Machine.history, Array.toList_append,
        List.filter_append, hrecord, hhistory]

/-- What another thread is told does not matter. -/
theorem handOut_ne (hne : th' ≠ th) (m : Machine) (pending : Option PendingEvents) :
    SameFor th m (m.handOut th' pending) := by
  cases pending with
  | none => exact refl th m
  | some p =>
      refine ⟨rfl, rfl, ?_⟩
      have hothers : (p.events.map (m.handedOut th' p.function)).filter
          (fun r => r.thread = th) = [] := by
        simp [List.filter_eq_nil_iff, handedOut, HookRecord.thread, hne]
      simp only [Machine.handOut, handAll, Machine.history, Array.toList_append,
        List.filter_append, hothers, List.append_nil]

/-- Both machines make the same of an operation for the thread. -/
theorem note (h : SameFor th m m') (o : Operation) :
    SameFor th (o.note th m).1 (o.note th m').1 ∧ (o.note th m').2 = (o.note th m).2 := by
  have hput : ∀ r : Thread × Option PendingEvents,
      SameFor th (m.putThread th r).1 (m'.putThread th r).1 := fun r => h.setThread r.1
  cases o with
  | call f =>
      simp only [Operation.note, noteCall, h.thread]
      exact ⟨hput _, rfl⟩
  | scriptCall f vs w =>
      simp only [Operation.note, noteCall, h.thread, h.store]
      exact ⟨hput _, rfl⟩
  | instruction pc vs top =>
      simp only [Operation.note, noteInstruction, h.thread, h.store]
      refine ⟨?_, rfl⟩
      split
      · exact hput _
      · exact (recordTrace _ th).symm.trans ((hput _).trans (recordTrace _ th))
  | ret =>
      simp only [Operation.note, noteReturn, h.thread]
      exact ⟨hput _, rfl⟩
  | unwind d =>
      simp only [Operation.note, unwindTo, h.thread]
      exact ⟨h.setThread _, trivial⟩
  | setHook f mask count =>
      refine ⟨⟨h.store, ?_, ?_⟩, rfl⟩
      · simp only [Operation.note, Machine.setHook, h.thread]
        exact (h.setThread _).thread?
      · simp only [Operation.note, history_setHook_self, h.history, h.hook]

/-- What is asked of another thread does not matter. -/
theorem note_ne (hne : th' ≠ th) (m : Machine) (o : Operation) :
    SameFor th m (o.note th' m).1 := by
  cases o with
  | call f => exact setThread_ne hne m _
  | scriptCall f vs w => exact setThread_ne hne m _
  | instruction pc vs top =>
      simp only [Operation.note, noteInstruction]
      split
      · exact setThread_ne hne m _
      · exact (setThread_ne hne m _).trans (recordTrace _ th')
  | ret => exact setThread_ne hne m _
  | unwind d => exact setThread_ne hne m _
  | setHook f mask count =>
      exact ⟨rfl, (setThread_ne hne m _).thread?, history_setHook_ne hne f mask count⟩

theorem after (h : SameFor th m m') (o : Operation) :
    SameFor th (o.after th m) (o.after th m') := by
  obtain ⟨hnote, hpending⟩ := h.note o
  rw [Operation.after, Operation.after, hpending]
  exact hnote.handOut _

theorem after_ne (hne : th' ≠ th) (m : Machine) (o : Operation) :
    SameFor th m (o.after th' m) :=
  (note_ne hne m o).trans (handOut_ne hne _ _)

/-- Operations for other threads can be left out. -/
theorem afterAll (h : SameFor th m m') (ops : List (ThreadId × Operation)) :
    SameFor th (Operation.afterAll (ops.filter (·.1 = th)) m) (Operation.afterAll ops m') := by
  induction ops generalizing m m' with
  | nil => exact h
  | cons o ops ih =>
      by_cases hth : o.1 = th
      · rw [List.filter_cons_of_pos (by simpa using hth)]
        subst hth
        exact ih (h.after o.2)
      · rw [List.filter_cons_of_neg (by simpa using hth)]
        exact ih (h.trans (after_ne hth m' o.2))

end SameFor

/-- Operations touch no objects. -/
theorem note_store (o : Operation) (th : ThreadId) (m : Machine) :
    (o.note th m).1.store = m.store := by
  cases o with
  | call f => rfl
  | scriptCall f vs w => rfl
  | instruction pc vs top => exact (m.noteInstruction_noted th pc vs top).store
  | ret => rfl
  | unwind d => rfl
  | setHook f mask count => rfl

/-- An operation that calls for events calls for them from the hook that is installed. -/
theorem note_pending (o : Operation) (th : ThreadId) (m : Machine) {p : PendingEvents}
    (hp : (o.note th m).2 = some p) : ((o.note th m).1.hook th).Calls p := by
  cases o with
  | call f => exact (m.noteCall_noted th _).pending p hp
  | scriptCall f vs w => exact (m.noteCall_noted th _).pending p hp
  | instruction pc vs top => exact (m.noteInstruction_noted th pc vs top).pending p hp
  | ret => exact (m.noteReturn_noted th).pending p hp
  | unwind d => cases hp
  | setHook f mask count => cases hp

namespace HooksRecord

/-- The same functions are installed, among the same objects. -/
theorem congr (h : m.HooksRecord) (hstore : m'.store = m.store)
    (hfunction : ∀ th, (m'.hook th).function = (m.hook th).function) : m'.HooksRecord := by
  intro th f hf
  rw [hstore]
  exact h th f ((hfunction th).symm.trans hf)

theorem noted {pending : Option PendingEvents} (h : m.HooksRecord)
    (hn : Noted th m m' pending) : m'.HooksRecord :=
  h.congr hn.store hn.function

theorem note (h : m.HooksRecord) {o : Operation} (ho : o.Records m.store) (th : ThreadId) :
    (o.note th m).1.HooksRecord := by
  cases o with
  | call f => exact h.noted (m.noteCall_noted th _)
  | scriptCall f vs w => exact h.noted (m.noteCall_noted th _)
  | instruction pc vs top => exact h.noted (m.noteInstruction_noted th pc vs top)
  | ret => exact h.noted (m.noteReturn_noted th)
  | unwind d => exact h.congr rfl fun th' => congrArg (·.function) (m.hook_unwindTo th d th')
  | setHook f mask count =>
      intro th' g hg
      simp only [Operation.note, Machine.hook, thread_setHook] at hg
      split at hg
      · cases f with
        | none => cases hg
        | some f =>
            cases hg
            exact ho
      · exact h th' g hg

theorem after (h : m.HooksRecord) {o : Operation} (ho : o.Records m.store) (th : ThreadId) :
    (o.after th m).HooksRecord := by
  have hnoted := h.note ho th
  unfold Operation.after
  cases (o.note th m).2 with
  | none => exact hnoted
  | some p => exact hnoted.congr rfl fun _ => rfl

end HooksRecord

end Machine

namespace Operation

variable {n : Nat} {s : Session}

/-- A report is a note and the delivery of what it calls for. -/
theorem perform_eq (n : Nat) (th : ThreadId) (o : Operation) (s : Session) :
    o.perform n th s = Exec.deliver (Exec.call n) th (o.note th s.machine).2
      { s with machine := (o.note th s.machine).1 } := by
  cases o <;> rfl

/-- With recording hooks an operation runs to its end and acts like a function. -/
theorem perform_ok (hn : 2 ≤ n) (hs : s.machine.HooksRecord) {o : Operation}
    (ho : o.Records s.machine.store) (th : ThreadId) :
    ∃ s', o.perform n th s = .ok () s' ∧ s'.machine = o.after th s.machine := by
  let noted : Session := { s with machine := (o.note th s.machine).1 }
  have hrecords : ∀ p, (o.note th s.machine).2 = some p →
      (noted.machine.hook th).Calls p ∧ noted.machine.store.Records p.function := by
    intro p hp
    have hcalls := Machine.note_pending o th s.machine hp
    exact ⟨hcalls, hs.note ho th th p.function hcalls.function⟩
  obtain ⟨s', hdeliver, hrecorded⟩ :=
    Exec.deliver_recorded (Exec.call_letsRecord hn) hrecords
  refine ⟨s', ?_, hrecorded.machine⟩
  rw [perform_eq, hdeliver]

/-- With recording hooks operations run to their end and act like functions. -/
theorem performAll_ok (hn : 2 ≤ n) (hs : s.machine.HooksRecord)
    {ops : List (ThreadId × Operation)} (hops : ∀ o ∈ ops, o.2.Records s.machine.store) :
    ∃ s', performAll n ops s = .ok () s' ∧ s'.machine = afterAll ops s.machine := by
  induction ops generalizing s with
  | nil => exact ⟨s, rfl, rfl⟩
  | cons o ops ih =>
      have ho := hops o List.mem_cons_self
      obtain ⟨s₁, hfirst, hmachine⟩ := perform_ok hn hs ho o.1
      have hs₁ : s₁.machine.HooksRecord := by
        rw [hmachine]
        exact hs.after ho o.1
      have hstore : s₁.machine.store = s.machine.store := by
        rw [hmachine]
        unfold after
        rw [← Machine.note_store o.2 o.1 s.machine]
        cases (o.2.note o.1 s.machine).2 <;> rfl
      obtain ⟨s', hrest, hmachine'⟩ := ih hs₁ fun o' ho' => by
        rw [hstore]
        exact hops o' (List.mem_cons_of_mem o ho')
      refine ⟨s', (Exec.bind_eq_of_ok hfirst _).trans hrest, ?_⟩
      rw [hmachine', hmachine]
      rfl

/-- With recording hooks, what becomes of a thread depends on the operations for that thread
alone: its state and its history are the same without all others, and the same for every
other interleaving. -/
theorem threads_do_not_interfere (hn : 2 ≤ n) (hs : s.machine.HooksRecord)
    {ops : List (ThreadId × Operation)} (hops : ∀ o ∈ ops, o.2.Records s.machine.store) :
    ∃ s', performAll n ops s = .ok () s' ∧
      (∀ th, ∃ t, performAll n (ops.filter (·.1 = th)) s = .ok () t ∧
        s'.machine.thread? th = t.machine.thread? th ∧
        s'.machine.history th = t.machine.history th) ∧
      ∀ ops' : List (ThreadId × Operation),
        (∀ th, ops'.filter (·.1 = th) = ops.filter (·.1 = th)) →
        ∃ t, performAll n ops' s = .ok () t ∧
          ∀ th, s'.machine.thread? th = t.machine.thread? th ∧
            s'.machine.history th = t.machine.history th := by
  obtain ⟨s', hrun, hmachine⟩ := performAll_ok hn hs hops
  refine ⟨s', hrun, fun th => ?_, fun ops' hsame => ?_⟩
  · have hown : ∀ o ∈ ops.filter (·.1 = th), o.2.Records s.machine.store :=
      fun o ho => hops o (List.mem_filter.mp ho).1
    obtain ⟨t, halone, hmachine'⟩ := performAll_ok hn hs hown
    refine ⟨t, halone, ?_⟩
    rw [hmachine, hmachine']
    have halike := (Machine.SameFor.refl th s.machine).afterAll ops
    exact ⟨halike.thread?, halike.history⟩
  · have hops' : ∀ o ∈ ops', o.2.Records s.machine.store := by
      intro o ho
      have hown : o ∈ ops'.filter (·.1 = o.1) := List.mem_filter.mpr ⟨ho, by simp⟩
      rw [hsame] at hown
      exact hops o (List.mem_filter.mp hown).1
    obtain ⟨t, hother, hmachine'⟩ := performAll_ok hn hs hops'
    refine ⟨t, hother, fun th => ?_⟩
    have halike := (Machine.SameFor.refl th s.machine).afterAll ops
    have halike' := (Machine.SameFor.refl th s.machine).afterAll ops'
    rw [hsame] at halike'
    rw [hmachine, hmachine']
    exact ⟨halike.thread?.trans halike'.thread?.symm, halike.history.trans halike'.history.symm⟩

/-- Two threads whose calls and returns are recorded by one hook. -/
def recordedSession : Session :=
  let recorder : FunctionObject :=
    ⟨.native "hook", .scripted "hook" [.mk ⟨none, none, none, false⟩ .args]⟩
  let thread : Thread := ⟨none, ⟨some ⟨0⟩, ⟨true, false, true⟩, 0, 0, false, none⟩⟩
  let start := Session.start ⟨[], .default, false, false⟩
  { start with machine := { start.machine with
      store := { start.machine.store with functions := #[recorder] }
      threads := #[thread, thread] } }

theorem recordedSession_records : recordedSession.machine.HooksRecord := by
  rintro ⟨i⟩ f hf
  have hrecords : recordedSession.machine.store.Records ⟨0⟩ :=
    ⟨"hook", "hook", _, rfl, fun c hc => by rw [List.mem_singleton.mp hc]; exact ⟨rfl, trivial⟩⟩
  match i with
  | 0 | 1 =>
      cases hf
      exact hrecords
  | i + 2 => cases hf

/-- A call of each thread, the second before the first is left. -/
def callsSideBySide : List (ThreadId × Operation) :=
  [(⟨0⟩, .call ⟨0⟩), (⟨1⟩, .call ⟨0⟩), (⟨0⟩, .ret), (⟨1⟩, .ret)]

/-- The same calls one after the other leave the same: each thread gets the event of its call
and that of its return. -/
theorem calls_side_by_side : ∃ s' t, performAll 2 callsSideBySide recordedSession = .ok () s' ∧
    performAll 2 [(⟨0⟩, .call ⟨0⟩), (⟨0⟩, .ret), (⟨1⟩, .call ⟨0⟩), (⟨1⟩, .ret)] recordedSession =
      .ok () t ∧
    (∀ th, s'.machine.thread? th = t.machine.thread? th ∧
      s'.machine.history th = t.machine.history th) ∧
    s'.machine.deliveries ⟨1⟩ = [(⟨0⟩, .call), (⟨0⟩, .ret)] := by
  have hops : ∀ o ∈ callsSideBySide, o.2.Records recordedSession.machine.store := by
    simp [callsSideBySide, Records]
  obtain ⟨s', hrun, -, hothers⟩ :=
    threads_do_not_interfere (Nat.le_refl 2) recordedSession_records hops
  obtain ⟨t, hother, hsame⟩ := hothers
    [(⟨0⟩, .call ⟨0⟩), (⟨0⟩, .ret), (⟨1⟩, .call ⟨0⟩), (⟨1⟩, .ret)] fun th => by
      by_cases h0 : (⟨0⟩ : ThreadId) = th
      · subst h0
        rfl
      · by_cases h1 : (⟨1⟩ : ThreadId) = th
        · subst h1
          rfl
        · simp [callsSideBySide, h0, h1]
  obtain ⟨s'', hrun', hmachine⟩ :=
    performAll_ok (Nat.le_refl 2) recordedSession_records hops
  cases hrun.symm.trans hrun'
  refine ⟨s', t, hrun, hother, hsame, ?_⟩
  rw [hmachine]
  decide +kernel

end Operation

end ScriptDebug
