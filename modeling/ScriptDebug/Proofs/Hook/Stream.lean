import ScriptDebug.Proofs.Hook.Completed
import ScriptDebug.Proofs.Hook.InstructionEvents

/-!
# The stream of count and line events

From its installation on, a hook gets count and line events that depend on nothing but
its mask, its count and the lines of the instructions that the thread has received
outside the hook.  Calls and returns in between, and all that is dropped inside the
hook, leave no trace in this stream.

## Implementation notes

`Received` collects these lines along a run.  What else happens between notifications is
left open, as long as it neither installs hooks nor delivers events for the thread.
-/

namespace ScriptDebug

namespace Thread

variable {f : FunctionId} {t : Thread}

theorem noteCall_aside (hf : t.hook.function = some f) (fr : Frame) :
    (t.noteCall fr).1.hook = t.hook ∧ Hook.Aside f (t.noteCall fr).2 := by
  unfold noteCall
  split
  · exact ⟨rfl, fun p hp => by cases hp⟩
  · exact ⟨rfl, Hook.aside_of_single hf rfl⟩

theorem noteReturn_aside (hf : t.hook.function = some f) :
    t.noteReturn.1.hook = t.hook ∧ Hook.Aside f t.noteReturn.2 := by
  unfold noteReturn
  split
  · exact ⟨rfl, fun p hp => by cases hp⟩
  · exact ⟨rfl, Hook.aside_of_single hf rfl⟩

/-- Outside the hook an instruction is a matter of the line of the updated call. -/
theorem noteInstruction_outside (hout : t.hook.inHook = false) (lineOf : Frame → Option Nat)
    (pc : Nat) (varargs : List Value) (top : Nat) :
    ((t.noteInstruction lineOf pc varargs top).1.hook,
        (t.noteInstruction lineOf pc varargs top).2) =
      t.hook.instructionEvents
        (((t.noteInstruction lineOf pc varargs top).1.frame? 1).bind lineOf) := by
  have hguard : ¬ t.hook.inHook = true := by simp [hout]
  simp only [noteInstruction, if_neg hguard]
  rfl

end Thread

namespace Machine

/-- The line of the innermost call of a thread, if it is known. -/
def currentLine (m : Machine) (th : ThreadId) : Option Nat :=
  ((m.calls th).frame? 1).bind fun fr => fr.line? m.store

/-- The line on which an instruction finds the innermost call, once that is updated. -/
def lineAt (m : Machine) (th : ThreadId) (pc : Nat) (varargs : List Value) (top : Nat) :
    Option Nat :=
  (m.noteInstruction th pc varargs top).1.currentLine th

variable {m m' : Machine} {th : ThreadId} {f : FunctionId} {mask : HookMask} {n : Nat}

theorem noteInstruction_outside (hexists : (m.thread? th).isSome)
    (hout : (m.hook th).inHook = false) (pc : Nat) (varargs : List Value) (top : Nat) :
    ((m.noteInstruction th pc varargs top).1.hook th, (m.noteInstruction th pc varargs top).2) =
      (m.hook th).instructionEvents (m.lineAt th pc varargs top) := by
  have hguard : ¬ (m.thread th).hook.inHook = true := by
    rw [← hook, hout]
    simp
  have hthread : (m.noteInstruction th pc varargs top).1.thread th =
      ((m.thread th).noteInstruction (fun fr => fr.line? m.store) pc varargs top).1 := by
    simp only [noteInstruction, if_neg hguard]
    rw [(Calm.recordTrace (P := fun _ => True) _ th).thread th]
    exact thread_setThread_self hexists _
  have hstore : (m.noteInstruction th pc varargs top).1.store = m.store :=
    (m.noteInstruction_noted th pc varargs top).store
  have hnoted := (m.thread th).noteInstruction_outside hout (fun fr => fr.line? m.store) pc
    varargs top
  rw [lineAt, currentLine, calls, hook, hthread, hstore]
  exact hnoted

/-- Apart from its mark, the hook of a thread stays as it is, and so does its history. -/
structure Undisturbed (th : ThreadId) (m m' : Machine) : Prop where
  hook : m'.hook th = { m.hook th with inHook := (m'.hook th).inHook }
  history : m'.history th = m.history th

/-- A thread as a hook leaves it that was installed on `base`, before instructions on the
lines `seen`. -/
structure Streamed (th : ThreadId) (f : FunctionId) (mask : HookMask) (n : Nat) (base : Machine)
    (seen : List (Option Nat)) (m : Machine) : Prop where
  hook : m.hook th = .afterLines f mask n (m.hook th).inHook seen
  delivered : ∃ es : List HookEvent,
    m.deliveries th = base.deliveries th ++ es.map (fun e => (f, e)) ∧
      es.filter (·.ofInstruction) = Hook.stream mask n seen

namespace Streamed

variable {base : Machine} {seen : List (Option Nat)}

theorem function (h : Streamed th f mask n base seen m) : (m.hook th).function = some f := by
  rw [h.hook]
  rfl

/-- More deliveries that add nothing to the stream. -/
theorem aside (h : Streamed th f mask n base seen m)
    (hhook : m'.hook th = { m.hook th with inHook := (m'.hook th).inHook })
    {pending : Option PendingEvents} (hpending : Hook.Aside f pending)
    (hdeliveries : m'.deliveries th = m.deliveries th ++ Exec.pendingDeliveries pending) :
    Streamed th f mask n base seen m' := by
  constructor
  · rw [hhook, h.hook]
    rfl
  · obtain ⟨es, hes, hstream⟩ := h.delivered
    cases pending with
    | none =>
        refine ⟨es, ?_, hstream⟩
        rw [hdeliveries, hes]
        exact List.append_nil _
    | some p =>
        obtain ⟨rfl, hnone⟩ := hpending p rfl
        refine ⟨es ++ p.events, ?_, ?_⟩
        · rw [hdeliveries, hes, List.map_append, List.append_assoc]
          rfl
        · rw [List.filter_append, hstream, hnone, List.append_nil]

/-- A new hook starts the stream. -/
theorem setHook (m : Machine) (hexists : (m.thread? th).isSome) (f : FunctionId) (mask : String)
    (n : Nat) : Streamed th f (.ofString mask) n m [] (m.setHook th (some f) mask n) := by
  have hhook : (m.setHook th (some f) mask n).hook th = (m.hook th).replace (some f) mask n :=
    congrArg (·.hook) (thread_setHook_self hexists (some f) mask n)
  constructor
  · rw [hhook]
    simp [Hook.replace, Hook.install, Hook.afterLines]
  · refine ⟨[], ?_, rfl⟩
    rw [deliveries_of_history (history_setHook_self m th (some f) mask n)]
    rfl

end Streamed

end Machine

namespace Exec

variable {th : ThreadId} {f : FunctionId} {mask : HookMask} {n nesting : Nat} {base : Machine}
  {seen : List (Option Nat)} {s s' : Session}

/-- Calls and returns add nothing to the stream. -/
theorem Completes.streamed (note : Machine → Machine × Option PendingEvents)
    (h : Completes th (fromMachine note >>= Exec.deliver (call nesting) th) s s')
    (hs : Machine.Streamed th f mask n base seen s.machine)
    (hnoted : Machine.Noted th s.machine (note s.machine).1 (note s.machine).2)
    (hhook : (note s.machine).1.hook th = s.machine.hook th)
    (haside : Hook.Aside f (note s.machine).2) :
    Machine.Streamed th f mask n base seen s'.machine := by
  obtain ⟨hreported, hdeliveries⟩ := h.report note hnoted
  apply hs.aside ?_ haside hdeliveries
  rw [hreported, hhook]

theorem step_inHook {call : Caller} (hin : (s.machine.hook th).inHook = true) (pc : Nat)
    (varargs : List Value) (top : Nat) : step call th pc varargs top s = .ok () s := by
  have hnote := Machine.noteInstruction_inHook hin pc varargs top
  simp only [step, fromMachine, bind_apply, hnote]
  rfl

theorem Completes.streamed_step {pc top : Nat} {varargs : List Value}
    (h : Completes th (step (call nesting) th pc varargs top) s s')
    (hs : Machine.Streamed th f mask n base seen s.machine)
    (hout : (s.machine.hook th).inHook = false) :
    s'.machine.deliveries th = s.machine.deliveries th ++
        (Hook.eventsAfter mask n seen (s.machine.lineAt th pc varargs top)).map (fun e => (f, e)) ∧
      Machine.Streamed th f mask n base (seen ++ [s.machine.lineAt th pc varargs top])
        s'.machine := by
  obtain ⟨hreported, hdeliveries⟩ :=
    h.report (·.noteInstruction th pc varargs top)
      (s.machine.noteInstruction_noted th pc varargs top)
  have hexists := Machine.isSome_of_function hs.function
  have hbefore : s.machine.hook th = .afterLines f mask n false seen := by
    rw [hs.hook, hout]
  have hnoted := s.machine.noteInstruction_outside hexists hout pc varargs top
  rw [hbefore, Hook.instructionEvents_afterLines] at hnoted
  obtain ⟨hhook, hpending⟩ := Prod.mk.inj hnoted
  have hevents : pendingDeliveries (s.machine.noteInstruction th pc varargs top).2 =
      (Hook.eventsAfter mask n seen (s.machine.lineAt th pc varargs top)).map
        (fun e => (f, e)) := by
    rw [hpending]
    split
    · rename_i hnone
      rw [List.isEmpty_iff.mp hnone]
      rfl
    · rfl
  rw [hevents] at hdeliveries
  refine ⟨hdeliveries, ?_, ?_⟩
  · rw [hreported, hhook]
    rfl
  · obtain ⟨es, hes, hstream⟩ := hs.delivered
    refine ⟨es ++ Hook.eventsAfter mask n seen (s.machine.lineAt th pc varargs top), ?_, ?_⟩
    · rw [hdeliveries, hes, List.map_append, List.append_assoc]
    · rw [List.filter_append, hstream, Hook.stream_concat, Hook.filter_eventsAfter]

/-- The lines of the instructions that a thread receives outside its hook along a run, in
which no call of the hook fails or installs a hook for the thread. -/
inductive Received (th : ThreadId) (s : Session) : List (Option Nat) → Session → Prop
  | start : Received th s [] s
  | call {seen : List (Option Nat)} {s₁ s₂ : Session} {nesting : Nat} {fr : Frame}
      (before : Received th s seen s₁)
      (reported : Completes th (enter (Exec.call nesting) th fr) s₁ s₂) : Received th s seen s₂
  | ret {seen : List (Option Nat)} {s₁ s₂ : Session} {nesting : Nat}
      (before : Received th s seen s₁)
      (reported : Completes th (leave (Exec.call nesting) th) s₁ s₂) : Received th s seen s₂
  | instruction {seen : List (Option Nat)} {s₁ s₂ : Session} {nesting pc top : Nat}
      {varargs : List Value} (before : Received th s seen s₁)
      (outside : (s₁.machine.hook th).inHook = false)
      (reported : Completes th (step (Exec.call nesting) th pc varargs top) s₁ s₂) :
      Received th s (seen ++ [s₁.machine.lineAt th pc varargs top]) s₂
  | dropped {seen : List (Option Nat)} {s₁ s₂ : Session} {nesting pc top : Nat}
      {varargs : List Value} (before : Received th s seen s₁)
      (inside : (s₁.machine.hook th).inHook = true)
      (reported : Completes th (step (Exec.call nesting) th pc varargs top) s₁ s₂) :
      Received th s seen s₂
  | meanwhile {seen : List (Option Nat)} {s₁ s₂ : Session} (before : Received th s seen s₁)
      (undisturbed : s₁.machine.Undisturbed th s₂.machine) : Received th s seen s₂

/-- What a run preserves: the thread goes along with the stream. -/
theorem Received.streamed {s₀ : Session} (h : Received th s₀ seen s)
    (hs : Machine.Streamed th f mask n base [] s₀.machine) :
    Machine.Streamed th f mask n base seen s.machine := by
  induction h with
  | start => exact hs
  | @call seen s₁ s₂ nesting fr _ reported ih =>
      obtain ⟨hhook, haside⟩ := Thread.noteCall_aside (t := s₁.machine.thread th) ih.function fr
      apply reported.streamed (·.noteCall th fr) ih (s₁.machine.noteCall_noted th fr) ?_
        haside
      exact congrArg (·.hook) (Machine.thread_setThread_self
        (Machine.isSome_of_function ih.function) _) |>.trans hhook
  | @ret seen s₁ s₂ nesting _ reported ih =>
      obtain ⟨hhook, haside⟩ := Thread.noteReturn_aside (t := s₁.machine.thread th) ih.function
      apply reported.streamed (·.noteReturn th) ih (s₁.machine.noteReturn_noted th) ?_
        haside
      exact congrArg (·.hook) (Machine.thread_setThread_self
        (Machine.isSome_of_function ih.function) _) |>.trans hhook
  | instruction _ outside reported ih => exact (reported.streamed_step ih outside).2
  | dropped _ inside reported ih =>
      have hsame := reported.ok.symm.trans (step_inHook inside _ _ _)
      cases hsame
      exact ih
  | meanwhile _ undisturbed ih =>
      have hnone : Hook.Aside f none := fun p hp => by cases hp
      apply ih.aside undisturbed.hook hnone
      rw [Machine.deliveries, undisturbed.history]
      exact (List.append_nil _).symm

end Exec

/-- From its installation on, the hook of a thread is fixed, up to its mark, by what was
installed and the lines of the instructions received outside it, and it has got exactly the
count and line events of these, one count for every `n` instructions.  The next instruction
delivers its own events of the stream and nothing else; inside the hook it does nothing. -/
theorem instructions_deliver_stream {th : ThreadId} {f : FunctionId} {mask : String} {n : Nat}
    {s s' : Session} {seen : List (Option Nat)} (hexists : (s.machine.thread? th).isSome)
    (h : Exec.Received th { s with machine := s.machine.setHook th (some f) mask n } seen s') :
    s'.machine.hook th = .afterLines f (.ofString mask) n (s'.machine.hook th).inHook seen ∧
    (∃ es : List HookEvent,
      s'.machine.deliveries th = s.machine.deliveries th ++ es.map (fun e => (f, e)) ∧
      es.filter (·.ofInstruction) = Hook.stream (.ofString mask) n seen ∧
      es.count .count = seen.length / n) ∧
    ∀ (nesting pc top : Nat) (varargs : List Value) (s'' : Session),
      Exec.Completes th (Exec.step (Exec.call nesting) th pc varargs top) s' s'' →
      if (s'.machine.hook th).inHook then s'' = s'
      else s''.machine.deliveries th = s'.machine.deliveries th ++
        (Hook.eventsAfter (.ofString mask) n seen (s'.machine.lineAt th pc varargs top)).map
          (fun e => (f, e)) := by
  have hstreamed := h.streamed (Machine.Streamed.setHook s.machine hexists f mask n)
  refine ⟨hstreamed.hook, ?_, ?_⟩
  · obtain ⟨es, hes, hstream⟩ := hstreamed.delivered
    refine ⟨es, hes, hstream, ?_⟩
    rw [← Hook.count_stream (.ofString mask) n, ← hstream]
    exact (List.count_filter rfl).symm
  · intro nesting pc top varargs s'' hreported
    split
    · rename_i hin
      have hsame := hreported.ok.symm.trans (Exec.step_inHook hin pc varargs top)
      cases hsame
      rfl
    · rename_i hout
      exact (hreported.streamed_step hstreamed (by simpa using hout)).1

/-! ## A run with three instructions -/

/-- A hook that tries to report a return, and a script function. -/
def streamCommands : List Command :=
  let plain : Modifiers := ⟨none, none, none, false⟩
  [.mk plain (.newNative "h" "h" [.mk plain (.notify .ret)]),
    .mk plain (.newClosure "f" "p" [] [])]

/-- Two instructions are on line 5 and one on line 6. -/
def streamSetup : SessionSetup :=
  ⟨[("p", ⟨none, 0, 0, 0, false, 0, #[], #[5, 5, 6], #[], [], #[]⟩)], .default, false, true⟩

def streamSession : Session :=
  (((Session.start streamSetup).run streamCommands).map (·.2)).getD default

namespace Exec

/-- Whether a computation completes. -/
def completes? (th : ThreadId) (x : Exec Unit) (s : Session) : Bool :=
  match x s with
  | .ok _ s' => s'.machine.installations th = s.machine.installations th
  | .error _ _ => false

theorem completes_final {th : ThreadId} {x : Exec Unit} {s : Session}
    (h : completes? th x s = true) : Completes th x s (x.final s) := by
  unfold completes? at h
  split at h
  · rename_i s' hx
    rw [final, hx]
    exact ⟨hx, by simpa using h⟩
  · cases h

end Exec

/-- The hook for lines and every second instruction gets a line, a count and a line. -/
theorem three_instructions_deliver : ∃ s', Exec.Received Machine.mainThread
    { streamSession with
      machine := streamSession.machine.setHook Machine.mainThread (some ⟨0⟩) "l" 2 }
      [some 5, some 5, some 6] s' ∧
    ∃ es : List HookEvent,
      s'.machine.deliveries Machine.mainThread = es.map (fun e => (⟨0⟩, e)) ∧
      es.filter (·.ofInstruction) = [.line 5, .count, .line 6] ∧ es.count .count = 1 := by
  let th := Machine.mainThread
  let s₀ : Session := { streamSession with
    machine := streamSession.machine.setHook th (some ⟨0⟩) "l" 2 }
  let instruction (pc : Nat) : Exec Unit := Exec.step (Exec.call 3) th pc [] 0
  let s₁ := (Exec.enter (Exec.call 3) th (.script ⟨1⟩ [] ⟨0⟩ 0)).final s₀
  let s₂ := (instruction 0).final s₁
  let s₃ := (instruction 1).final s₂
  let s₄ := (instruction 2).final s₃
  have h₁ : Exec.Received th s₀ [] s₁ :=
    .call .start (Exec.completes_final (by decide +kernel))
  have h₂ := h₁.instruction (by decide +kernel)
    (Exec.completes_final (x := instruction 0) (by decide +kernel))
  have h₃ := h₂.instruction (by decide +kernel)
    (Exec.completes_final (x := instruction 1) (by decide +kernel))
  have h₄ := h₃.instruction (by decide +kernel)
    (Exec.completes_final (x := instruction 2) (by decide +kernel))
  have hseen : ([] ++ [s₁.machine.lineAt th 0 [] 0] ++ [s₂.machine.lineAt th 1 [] 0] ++
      [s₃.machine.lineAt th 2 [] 0]) = [some 5, some 5, some 6] := by decide +kernel
  rw [hseen] at h₄
  obtain ⟨es, hes, hstream, hcount⟩ := (instructions_deliver_stream (by decide +kernel) h₄).2.1
  exact ⟨s₄, h₄, es, hes, hstream, hcount⟩

end ScriptDebug
