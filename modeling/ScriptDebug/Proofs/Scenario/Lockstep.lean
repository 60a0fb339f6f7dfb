import ScriptDebug.Proofs.CallStack.Callers
import ScriptDebug.Proofs.Scenario.Escort
import ScriptDebug.Proofs.Scenario.Simulation

/-!
# Runs in lockstep

What whole runs make of a relation of sessions, from what their parts make of it.  Sessions
in lockstep give commands the same to work on; commands, bodies and blocks add nothing to
that, so it is kept by a run if it is kept by the actions that touch threads or objects and
by calls.

## Implementation notes

A family of relations is treated at once, because the parts of a call can rest on other
members than the call itself.  The second run may have a larger allowance of nesting.
-/

namespace ScriptDebug

namespace Exec

variable {α : Type} {E : Halt → Prop} {P : Command → Prop} {R R₀ : Session → Session → Prop}

/-- Sessions that give commands the same to work on, whatever names commands bind and
whatever they log. -/
structure Lockstep (P : Command → Prop) (R : Session → Session → Prop) : Prop where
  term : ∀ {s t}, R s t → ∀ here x, t.evalTerm here x = s.evalTerm here x
  window : ∀ {s t}, R s t → ∀ here w, t.evalWindow? here w = s.evalWindow? here w
  store : ∀ {s t}, R s t → t.machine.store = s.machine.store
  bodies : ∀ {s t}, R s t → s.machine.store.Every P
  isSome : ∀ {s t}, R s t → ∀ th, (t.machine.thread? th).isSome = (s.machine.thread? th).isSome
  depth : ∀ {s t}, R s t → ∀ th, t.machine.depth th = s.machine.depth th
  prototypes : ∀ {s t}, R s t → t.prototypes = s.prototypes
  bindVariable : ∀ {s t}, R s t → ∀ name v, R (s.bindVariable name v) (t.bindVariable name v)
  logCommand : ∀ here c reply,
    Simulates Never R R (Exec.logCommand here c reply) (Exec.logCommand here c reply)
  newFunction : ∀ label callable {body : List Command}, (∀ d ∈ body, d.Every P) →
    Simulates Never R R (Exec.newFunction label callable body)
      (Exec.newFunction label callable body)

/-! ## Reading -/

section Reading

variable (h : Lockstep P R) (here : Surroundings)

include h

theorem Lockstep.value (x : Term) : Simulates E R R (Exec.value here x) (Exec.value here x) := by
  intro s t hst
  refine .inr ⟨?_, hst⟩
  change Except.ok (s.evalTerm here x) = Except.ok (t.evalTerm here x)
  rw [h.term hst]

theorem Lockstep.values (xs : List Term) :
    Simulates E R R (Exec.values here xs) (Exec.values here xs) := by
  intro s t hst
  refine .inr ⟨?_, hst⟩
  have hterms : t.evalTerm here = s.evalTerm here := funext (h.term hst here)
  change Except.ok (xs.map (s.evalTerm here)) = Except.ok (xs.map (t.evalTerm here))
  rw [hterms]

theorem Lockstep.function (x : Term) :
    Simulates E R R (Exec.function here x) (Exec.function here x) := by
  apply (h.value here x).seq
  intro v
  split
  · exact .pure _
  · exact .raise _

theorem Lockstep.window? (w : WindowTerm) :
    Simulates E R R (Exec.window here w) (Exec.window here w) := by
  apply Simulates.get_bind
  intro s t hst
  rw [h.window hst]
  cases s.evalWindow? here w with
  | some w => exact (Simulates.pure w).from_pair hst
  | none => exact (Simulates.raise _).from_pair hst

theorem Lockstep.table? (x : TableTerm) :
    Simulates E R R (Exec.table? here x) (Exec.table? here x) := by
  apply Simulates.get_bind
  intro s t hst
  have htable : t.evalTable? here x = s.evalTable? here x := by
    cases x with
    | globals => rfl
    | registry => rfl
    | value x => simp only [Session.evalTable?, h.term hst]
  rw [htable, h.store hst]
  exact (Simulates.pure _).from_pair hst

theorem Lockstep.optionalTable (x : Term) :
    Simulates E R R (Exec.optionalTable here x) (Exec.optionalTable here x) :=
  (h.value here x).seq fun _ => .pure _

theorem Lockstep.infoTarget (x : Term) :
    Simulates E R R (Exec.infoTarget here x) (Exec.infoTarget here x) := by
  apply (h.value here x).seq
  intro v
  split
  · exact .pure _
  · exact .pure _

theorem Lockstep.varargs (xs : Option (List Term)) :
    Simulates E R R (Exec.varargs here xs) (Exec.varargs here xs) := by
  cases xs with
  | none => exact .pure _
  | some xs => exact h.values here xs

end Reading

/-! ## Commands -/

section Commands

variable {runner runner' : Runner} {here : Surroundings} {th : ThreadId} {c : Command}

theorem Simulates.repeatBlock {x y : Exec (List Reply)} (h : Simulates E R R x y) (n : Nat)
    (last : List Reply) :
    Simulates E R R (Exec.repeatBlock x n last) (Exec.repeatBlock y n last) := by
  induction n generalizing last with
  | zero => exact .pure _
  | succ n ih => exact h.seq fun replies => ih replies

theorem Lockstep.libraryReply (h : Lockstep P R) (name : String) (vs : List Value) :
    Simulates E R R (Exec.libraryReply name vs) (Exec.libraryReply name vs) := by
  simp only [Exec.libraryReply]
  split
  · split
    · apply Simulates.machine_bind
      intro s t hst
      rw [h.store hst]
      exact (Simulates.pure _).from_pair hst
    · exact .pure _
  · exact .pure _

/-- A library function does the same in both sessions, and leaves related ones. -/
def LibraryAlike (R : Session → Session → Prop) (g : LibraryFunction) (th : ThreadId)
    (args : List Value) (s t : Session) : Prop :=
  (∃ e, g.run s.machine th args = .error e ∧ g.run t.machine th args = .error e) ∨
    ∃ vs m m', g.run s.machine th args = .ok (vs, m) ∧ g.run t.machine th args = .ok (vs, m') ∧
      R { s with machine := m } { t with machine := m' }

theorem Simulates.runLibrary {g : LibraryFunction} {args : List Value} {s t : Session}
    (hst : R s t) (h : LibraryAlike R g th args s t) :
    Simulates E (Pair s t) R (Exec.runLibrary g th args) (Exec.runLibrary g th args) := by
  obtain ⟨e, hs, ht⟩ | ⟨vs, m, m', hs, ht, hR⟩ := h
  · have hfail : ∀ s', g.run s'.machine th args = .error e →
        Exec.runLibrary g th args s' = .error (.raised (.ofNative e)) s' := by
      intro s' hs'
      rw [Exec.runLibrary, hs']
    exact .of_error (hfail s hs) (hfail t ht) hst
  · have hok : ∀ s' m, g.run s'.machine th args = .ok (vs, m) →
        Exec.runLibrary g th args s' = .ok vs { s' with machine := m } := by
      intro s' m hs'
      rw [Exec.runLibrary, hs']
    exact .of_ok (hok s m hs) (hok t m' ht) hR

/-- A native function that runs without a call. -/
theorem Lockstep.direct (h : Lockstep P R) {run run' : BodyRunner} {f : FunctionId}
    {args : List Value} {s t : Session} (hst : R s t)
    (hlibrary : ∀ name g, s.machine.store.function? f = some ⟨.native name, .library g⟩ →
      LibraryAlike R g th args s t)
    (hrun : ∀ label cs, (∀ d ∈ cs, d.Every P) →
      Simulates Deep R R (run ⟨th, label, args, [], none⟩ cs)
        (run' ⟨th, label, args, [], none⟩ cs)) :
    Simulates Deep (Pair s t) R (Exec.direct run f th args) (Exec.direct run' f th args) := by
  have hfunction : t.machine.store.function? f = s.machine.store.function? f := by
    rw [h.store hst]
  refine Simulates.machine_bind ?_
  rintro _ _ ⟨rfl, rfl⟩
  rw [hfunction]
  split
  · rename_i name g hf
    refine Simulates.machine_bind ?_
    rintro _ _ ⟨rfl, rfl⟩
    obtain ⟨e, hs, ht⟩ | ⟨vs, m, m', hs, ht, hR⟩ := hlibrary _ g hf
    · rw [hs, ht]
      exact .of_ok rfl rfl hst
    · rw [hs, ht]
      exact .of_ok rfl rfl hR
  · rename_i name label cs hf
    refine ((hrun label cs (h.bodies hst f _ hf)).from_pair hst).attempt_bind (fun r => ?_)
      fun e he => ?_
    · split
      · exact .pure _
      · exact .pure _
      · exact .throw _
    · cases he
      exact .throw rfl
  · exact (Simulates.raise _).from_pair hst

/-- A notification does what its report does. -/
theorem Lockstep.performNotification (h : Lockstep P R) {call call' : Caller} (a : Notification)
    (hstep : ∀ pc vs top, Simulates E R R (step call th pc vs top) (step call' th pc vs top))
    (henter : a.isInstruction = false →
      ∀ fr, Simulates E R R (enter call th fr) (enter call' th fr))
    (hleave : a.isInstruction = false → Simulates E R R (leave call th) (leave call' th))
    (hunwind : a.isInstruction = false → ∀ d s t, R s t →
      R { s with machine := s.machine.unwindTo th d }
        { t with machine := t.machine.unwindTo th d }) :
    Simulates E R R (Exec.performNotification call here th a)
      (Exec.performNotification call' here th a) := by
  cases a with
  | call f => exact (h.function here f).seq fun f => henter rfl _
  | scriptCall f w vs =>
      refine (h.function here f).seq fun f => (h.window? here w).seq fun w =>
        (h.varargs here vs).seq fun vs => .machine_bind fun s t hst => ?_
      rw [h.store hst]
      exact (henter rfl _).from_pair hst
  | instruction pc top vs => exact (h.varargs here vs).seq fun vs => hstep pc vs top
  | ownInstruction pc top =>
      refine .machine_bind fun s t hst => ?_
      rw [h.store hst]
      exact (hstep pc _ _).from_pair hst
  | ret => exact hleave rfl
  | unwind d =>
      change Simulates E R R (onMachine (·.unwindTo th d)) (onMachine (·.unwindTo th d))
      exact .onMachine (hunwind rfl d)

/-- An action keeps the sessions in lockstep if what it does to threads and objects and what
it runs does. -/
theorem Lockstep.performAction (h : Lockstep P R) (hR : ∀ s t, R₀ s t → R s t) (hc : c.Every P)
    (hobject : ∀ a, c.action = .object a →
      Simulates Deep R R (performObject here a) (performObject here a))
    (hinspect : ∀ a, c.action = .inspect a →
      Simulates Deep R R (performInspection here th a) (performInspection here th a))
    (hnotify : ∀ a, c.action = .notify a → Simulates Deep R R
      (Exec.performNotification runner.call here th a)
      (Exec.performNotification runner'.call here th a))
    (hcall : ∀ th f args, Simulates Deep R R (runner.call th f args) (runner'.call th f args))
    (hdirect : ∀ f args id, c.action = .callDirectly f args id → Simulates Deep R₀ R
      (Exec.performAction runner here th c.action) (Exec.performAction runner' here th c.action))
    (hblock : ∀ cs, (∀ d ∈ cs, d.Every P) →
      Simulates Deep R R (runner.block here cs) (runner'.block here cs)) :
    Simulates Deep R₀ R (Exec.performAction runner here th c.action)
      (Exec.performAction runner' here th c.action) := by
  have hinside := hc.inside
  have hstart : ∀ {x y : Exec Reply}, Simulates Deep R R x y → Simulates Deep R₀ R x y :=
    fun hxy => hxy.weaken hR
  cases ha : c.action with
  | object a => exact hstart (hobject a ha)
  | inspect a => exact hstart (hinspect a ha)
  | notify a => exact hstart ((hnotify a ha).seq fun _ => .pure _)
  | newClosure label prototype cells cs =>
      rw [ha] at hinside
      refine hstart (Simulates.get_bind fun s t hst => ?_)
      rw [h.prototypes hst]
      split
      · exact (Simulates.of_never (h.newFunction label _ hinside)).from_pair hst
      · exact (Simulates.raise _).from_pair hst
  | newNative label name cs =>
      rw [ha] at hinside
      exact hstart (.of_never (h.newFunction label _ hinside))
  | call f args =>
      exact hstart ((h.function here f).seq fun f => (h.values here args).seq fun vs =>
        (hcall th f vs).seq fun _ => .pure _)
  | callLibrary name args =>
      exact hstart ((h.function here _).seq fun f => (h.values here args).seq fun vs =>
        (hcall th f vs).seq fun _ => h.libraryReply name _)
  | callDirectly f args id =>
      rw [← ha]
      exact hdirect f args id ha
  | repeatBlock n cs =>
      rw [ha] at hinside
      exact hstart ((Simulates.repeatBlock (hblock cs hinside) n []).seq fun _ => .pure _)
  | args => exact hstart (.pure _)
  | ret vs => exact hstart ((h.values here vs).seq fun _ => .pure _)
  | raise e =>
      cases e with
      | runtime text => exact hstart (.raise _)
      | badArgument position function complaint => exact hstart (.raise _)
      | value v => exact hstart ((h.value here v).seq fun _ => .raise _)

theorem Lockstep.perform (h : Lockstep P R) (hR : ∀ s t, R₀ s t → R s t)
    (haction : Simulates Deep R₀ R (Exec.performAction runner here (targetThread here c) c.action)
      (Exec.performAction runner' here (targetThread here c) c.action)) :
    Simulates Deep R₀ R (Exec.perform runner here c) (Exec.perform runner' here c) := by
  apply Simulates.machine_bind
  intro s t hst
  have hskipped : isSkipped t.machine (targetThread here c) c =
      isSkipped s.machine (targetThread here c) c := by
    simp only [isSkipped, h.depth (hR s t hst)]
  have hisNone : (t.machine.thread? (targetThread here c)).isNone =
      (s.machine.thread? (targetThread here c)).isNone := by
    rw [← Option.not_isSome, ← Option.not_isSome, h.isSome (hR s t hst)]
  rw [hskipped, hisNone]
  split
  · exact (Simulates.pure _).from_pair (hR s t hst)
  · split
    · exact (Simulates.pure _).from_pair (hR s t hst)
    · refine (haction.from_pair hst).attempt_bind (fun r => ?_) fun e he => ?_
      · split
        · split
          · refine (Simulates.session fun s t hst => ?_).seq fun _ => .pure _
            exact h.bindVariable hst _ _
          · exact .pure _
        · exact .pure _
        · exact .throw _
      · cases he
        exact .throw rfl

end Commands

/-! ## Calls -/

section Calls

variable {R' : Session → Session → Prop} {call call' : Caller} {run run' : BodyRunner}
  {th : ThreadId} {routine : Routine} {args : List Value}

/-- A native routine does what its body or its library function does. -/
theorem Simulates.runNative (hroutine : routine.Every P)
    (hlibrary : ∀ g, routine = .library g → ∀ s t, R s t → LibraryAlike R g th args s t)
    (hrun : ∀ label cs, (∀ d ∈ cs, d.Every P) → Simulates Deep R R
      (run ⟨th, label, args, [], none⟩ cs) (run' ⟨th, label, args, [], none⟩ cs)) :
    Simulates Deep R R (Exec.runNative run routine th args)
      (Exec.runNative run' routine th args) := by
  cases routine with
  | library g => exact .of_each fun s t hst => .runLibrary hst (hlibrary g rfl s t hst)
  | scripted label cs =>
      refine (hrun label cs hroutine).attempt_bind (fun r => ?_) fun e he => ?_
      · split
        · exact .pure _
        · exact .throw _
      · cases he
        exact .throw rfl

/-- A script routine does what its body or its library function does. -/
theorem Simulates.runScript {varargs : List Value} {window : WindowId} (hroutine : routine.Every P)
    (hlibrary : ∀ g, routine = .library g → ∀ s t, R s t → LibraryAlike R g th args s t)
    (hrun : ∀ label cs, (∀ d ∈ cs, d.Every P) → Simulates Deep R R
      (run ⟨th, label, args, varargs, some window⟩ cs)
      (run' ⟨th, label, args, varargs, some window⟩ cs)) :
    Simulates Deep R R (Exec.runScript run routine th args varargs window)
      (Exec.runScript run' routine th args varargs window) := by
  cases routine with
  | library g => exact .of_each fun s t hst => .runLibrary hst (hlibrary g rfl s t hst)
  | scripted label cs => exact hrun label cs hroutine

/-- What stands around a routine when its function is called on a thread: related sessions
before the call and after it, others while the routine runs.  A return that halts is left out
of account only if every halt is, since it does not come before a failure of the routine. -/
structure Shell (E : Halt → Prop) (R R' : Session → Session → Prop) (th : ThreadId)
    (call call' : Caller) : Prop where
  hasInterpreter : ∀ {s t}, R s t → t.machine.hasInterpreter = s.machine.hasInterpreter
  depth : ∀ {s t}, R s t → t.machine.depth th = s.machine.depth th
  window : ∀ registers,
    Simulates E R R (fromStore (·.newWindow registers)) (fromStore (·.newWindow registers))
  enter : ∀ fr, Simulates E R R' (Exec.enter call th fr) (Exec.enter call' th fr)
  leave : Simulates (fun _ => ∀ h, E h) R' R (Exec.leave call th) (Exec.leave call' th)
  failed : ∀ h, ¬ E h → ∀ s t, R' s t → R s t
  unwind : ∀ d s t, ¬ (∀ h, E h) → R s t →
    R { s with machine := s.machine.unwindTo th d } { t with machine := t.machine.unwindTo th d }

namespace Shell

variable (h : Shell E R R' th call call')

include h

/-- A failed call is unwound, if its failure counts. -/
theorem unwind_throw (d : Nat) (e : Halt) :
    Simulates E R R (do onMachine (·.unwindTo th d); throw e : Exec (List Value))
      (do onMachine (·.unwindTo th d); throw e : Exec (List Value)) := by
  by_cases hall : ∀ h, E h
  · exact .of_sinks (.after_onMachine (.throw (hall e)))
  · exact .onMachine_bind (fun s t hst => h.unwind d s t hall hst) (.throw e)

/-- The same where the failure comes from inside the call. -/
theorem unwind_throw_inside (d : Nat) (e : Halt) :
    Simulates E R' R (do onMachine (·.unwindTo th d); throw e : Exec (List Value))
      (do onMachine (·.unwindTo th d); throw e : Exec (List Value)) := by
  by_cases he : E e
  · exact .of_sinks (.after_onMachine (.throw he))
  · exact (h.unwind_throw d e).weaken (h.failed e he)

theorem callNative
    (hroutine : Simulates E R' R' (runNative run routine th args) (runNative run' routine th args))
    (f : FunctionId) : Simulates E R R (Exec.callNative call run f routine th args)
      (Exec.callNative call' run' f routine th args) := by
  apply Simulates.machine_bind
  intro s t hst
  rw [h.depth hst]
  refine ((h.enter (.bare f)).attempt_bind (fun r => ?_) fun e he => ?_).from_pair hst
  · cases r with
    | error e => exact h.unwind_throw_inside _ e
    | ok _ =>
        refine hroutine.attempt_bind (fun result => ?_) fun e he => ?_
        · refine h.leave.attempt_bind (fun returned => ?_) fun e hall => ?_
          · exact (Simulates.resume result).seq fun vs =>
              (Simulates.resume returned).seq fun _ => .pure vs
          · cases result with
            | ok vs => exact fun s => .bind_of_ok rfl ((Sinks.resume (hall e)).bind _ s)
            | error e' => exact (Sinks.resume (hall e')).bind _
        · exact .after_attempt _ fun r => (Sinks.resume he).bind _
  · exact .after_onMachine (.throw he)

theorem interpret
    (hroutine : ∀ varargs window, Simulates E R' R'
      (runScript run routine th args varargs window)
      (runScript run' routine th args varargs window)) (f : FunctionId) (p : Prototype) :
    Simulates E R R (Exec.interpret call run f p routine th args)
      (Exec.interpret call' run' f p routine th args) := by
  refine (h.window _).seq fun window => ?_
  refine (h.enter _).bind (fun _ => ?_) h.failed
  refine (hroutine _ window).bind (fun vs => ?_) h.failed
  refine (h.leave.mono (fun e hall => hall e) (fun _ _ => id) fun _ _ => id).seq fun _ => ?_
  exact .pure vs

theorem callScript
    (hroutine : ∀ varargs window, Simulates E R' R'
      (runScript run routine th args varargs window)
      (runScript run' routine th args varargs window)) (f : FunctionId) (p : Prototype) :
    Simulates E R R (Exec.callScript call run f p routine th args)
      (Exec.callScript call' run' f p routine th args) := by
  apply Simulates.machine_bind
  intro s t hst
  rw [h.hasInterpreter hst, h.depth hst]
  split
  · refine ((h.interpret hroutine f p).attempt_bind (fun r => ?_) fun e he => ?_).from_pair hst
    · cases r with
      | error e => exact h.unwind_throw _ e
      | ok vs => exact .pure vs
    · exact .after_onMachine (.throw he)
  · exact (Simulates.raise _).from_pair hst

end Shell

/-- A call does what its routine does, with what stands around it.  One may assume more of the
sessions when the function is looked up. -/
theorem Lockstep.invoke (hlockstep : Lockstep P R) (hR : ∀ s t, R₀ s t → R s t)
    (h : Shell E R R' th call call') {f : FunctionId}
    (hnative : ∀ s t name routine, R₀ s t →
      s.machine.store.function? f = some ⟨.native name, routine⟩ → routine.Every P →
      Simulates E R' R' (runNative run routine th args) (runNative run' routine th args))
    (hscript : ∀ s t p cells routine varargs window, R₀ s t →
      s.machine.store.function? f = some ⟨.script p cells, routine⟩ → routine.Every P →
      Simulates E R' R' (runScript run routine th args varargs window)
        (runScript run' routine th args varargs window)) :
    Simulates E R₀ R (Exec.invoke call run th f args) (Exec.invoke call' run' th f args) := by
  apply Simulates.machine_bind
  intro s t hst
  have hst' := hR s t hst
  rw [hlockstep.store hst']
  have hevery := hlockstep.bodies hst' f
  split
  · rename_i name routine hf
    have hroutine := hnative s t name routine hst hf (hevery _ hf)
    exact (h.callNative hroutine f).from_pair hst'
  · rename_i p cells routine hf
    have hroutine : ∀ varargs window, _ := fun varargs window =>
      hscript s t p cells routine varargs window hst hf (hevery _ hf)
    exact (h.callScript hroutine f p).from_pair hst'
  · exact (Simulates.raise _).from_pair hst'

end Calls

/-! ## Bodies and blocks -/

section Bodies

variable {performOne performOne' : Command → Exec Reply} {cs : List Command}

theorem Lockstep.runCommands (h : Lockstep P R) (here : Surroundings)
    (hone : ∀ c ∈ cs, Simulates Deep R R (performOne c) (performOne' c)) :
    Simulates Deep R R (Exec.runCommands performOne here cs)
      (Exec.runCommands performOne' here cs) := by
  induction cs with
  | nil => exact .pure _
  | cons c cs ih =>
      have ihc := ih fun d hd => hone d (List.mem_cons_of_mem c hd)
      apply (hone c List.mem_cons_self).seq
      intro reply
      split
      · exact ihc
      · apply (Simulates.of_never (h.logCommand here c reply)).seq
        intro _
        split
        · split
          · exact ihc
          · exact .raise _
        · exact .pure _
        · exact ihc

theorem Simulates.performAll
    (hone : ∀ c ∈ cs, Simulates Deep R R (performOne c) (performOne' c)) :
    Simulates Deep R R (Exec.performAll performOne cs) (Exec.performAll performOne' cs) := by
  induction cs with
  | nil => exact .pure _
  | cons c cs ih =>
      exact (hone c List.mem_cons_self).seq fun reply =>
        (ih fun d hd => hone d (List.mem_cons_of_mem c hd)).seq fun _ => .pure _

end Bodies

/-! ## The same session twice -/

section Twice

variable {I : Machine → Prop} {runner runner' : Runner} {here : Surroundings} {th : ThreadId}
  {c : Command}

/-- A session is in lockstep with itself, under a steady invariant. -/
theorem Lockstep.twice (hI : Machine.Steady P I) (hbodies : ∀ m, I m → m.store.Every P) :
    Lockstep P (Twice I) where
  term := by
    rintro s _ ⟨rfl, -⟩ here x
    rfl
  window := by
    rintro s _ ⟨rfl, -⟩ here w
    rfl
  store := by
    rintro s _ ⟨rfl, -⟩
    rfl
  bodies hst := hbodies _ hst.2
  isSome := by
    rintro s _ ⟨rfl, -⟩ th
    rfl
  depth := by
    rintro s _ ⟨rfl, -⟩ th
    rfl
  prototypes := by
    rintro s _ ⟨rfl, -⟩
    rfl
  bindVariable := by
    rintro s _ ⟨rfl, hs⟩ name v
    exact ⟨rfl, hs⟩
  logCommand here c reply := .of_leads (Agree.logCommand here c reply)
  newFunction label callable _ hbody := .of_leads (Agree.newFunction hI label callable hbody)

/-- A library function does the same in the same session. -/
theorem LibraryAlike.twice (hI : Machine.Steady P I) (g : LibraryFunction) (th : ThreadId)
    (args : List Value) {s t : Session} (hst : Twice I s t) :
    LibraryAlike (Twice I) g th args s t := by
  obtain ⟨hsame, hs⟩ := hst
  subst hsame
  cases hg : g.run t.machine th args with
  | error e => exact .inl ⟨e, hg, hg⟩
  | ok r =>
      obtain ⟨vs, m⟩ := r
      have hafter : I m := hI.silent hs (Machine.run_leaves g vs m hg)
      exact .inr ⟨vs, m, m, hg, hg, rfl, hafter⟩

/-- A command keeps a steady invariant if its notification and what it runs do. -/
theorem Simulates.perform_twice (hI : Machine.Steady P I)
    (hbodies : ∀ m, I m → m.store.Every P) (hc : c.Every P)
    (hnotify : ∀ a, c.action = .notify a → Simulates Deep (Twice I) (Twice I)
      (performNotification runner.call here (targetThread here c) a)
      (performNotification runner'.call here (targetThread here c) a))
    (hcall : ∀ th f args,
      Simulates Deep (Twice I) (Twice I) (runner.call th f args) (runner'.call th f args))
    (hbody : ∀ here cs, (∀ d ∈ cs, d.Every P) →
      Simulates Deep (Twice I) (Twice I) (runner.body here cs) (runner'.body here cs))
    (hblock : ∀ cs, (∀ d ∈ cs, d.Every P) →
      Simulates Deep (Twice I) (Twice I) (runner.block here cs) (runner'.block here cs)) :
    Simulates Deep (Twice I) (Twice I) (Exec.perform runner here c)
      (Exec.perform runner' here c) := by
  have h := Lockstep.twice hI hbodies
  apply h.perform fun _ _ => id
  apply h.performAction (fun _ _ => id) hc
  · exact fun a _ => .of_leads (Agree.performObject hI here a)
  · exact fun a _ => .of_leads (Agree.performInspection hI here _ a)
  · exact hnotify
  · exact hcall
  · intro f args id ha
    rw [ha]
    refine (h.function here f).seq fun g => (h.values here args).seq fun vs => ?_
    exact .of_each fun s t hst => h.direct hst
      (fun _ g' _ => .twice hI g' id vs hst) fun label cs hcs => hbody _ cs hcs
  · exact hblock

end Twice

/-! ## Whole runs -/

section Runs

variable {ι : Type}

/-- Calls keep each relation of a family. -/
def CallsMatch (R : ι → Session → Session → Prop) (call call' : Caller) : Prop :=
  ∀ i th f args, Simulates Deep (R i) (R i) (call th f args) (call' th f args)

/-- Commands with a property keep each relation of a family. -/
def CommandsMatch (P : Command → Prop) (R : ι → Session → Session → Prop)
    (run run' : Surroundings → List Command → Exec α) : Prop :=
  ∀ i here cs, (∀ c ∈ cs, c.Every P) → Simulates Deep (R i) (R i) (run here cs) (run' here cs)

/-- What two escorts leave of a family of relations, provided that the calls and bodies inside
keep it and have a further property. -/
structure Companions (P : Command → Prop) (R : ι → Session → Session → Prop)
    (good : Caller → Caller → Prop) (e e' : Escort) : Prop where
  lockstep : ∀ i, Lockstep P (R i)
  command : ∀ {runner runner'}, good runner.call runner'.call →
    CallsMatch R runner.call runner'.call →
    CommandsMatch P R runner.body runner'.body → CommandsMatch P R runner.block runner'.block →
    ∀ i here c, c.Every P → Simulates Deep (R i) (R i) (e.command here c (perform runner here c))
      (e'.command here c (perform runner' here c))
  invoke : ∀ {call call' run run'}, good call call' → CallsMatch R call call' →
    CommandsMatch P R run run' → ∀ i th f args, Simulates Deep (R i) (R i)
      (e.call th f (invoke call run th f args)) (e'.call th f (invoke call' run' th f args))

/-- Whole runs keep the family; the second one may nest deeper. -/
theorem Companions.runs {R : ι → Session → Session → Prop} {good : Caller → Caller → Prop}
    {e e' : Escort} (h : Companions P R good e e') {d : Nat}
    (hgood : ∀ n, good (escortedCall e n) (escortedCall e' (n + d))) (n : Nat) :
    CallsMatch R (escortedCall e n) (escortedCall e' (n + d)) ∧
      CommandsMatch P R (escortedBody e n) (escortedBody e' (n + d)) ∧
      CommandsMatch P R (escortedBlock e n) (escortedBlock e' (n + d)) := by
  induction n with
  | zero =>
      have hdeep : ∀ {α : Type} {i : ι} {y : Exec α},
          Simulates Deep (R i) (R i) (throw .tooDeep) y := .of_sinks (.throw rfl)
      exact ⟨fun i th f args => hdeep, fun i here cs _ => hdeep, fun i here cs _ => hdeep⟩
  | succ n ih =>
      obtain ⟨hcall, hbody, hblock⟩ := ih
      have hone : ∀ i here (cs : List Command), (∀ c ∈ cs, c.Every P) → ∀ c ∈ cs,
          Simulates Deep (R i) (R i)
            (e.command here c (perform (escortedRunner e n) here c))
            (e'.command here c (perform (escortedRunner e' (n + d)) here c)) :=
        fun i here cs hcs c hc => h.command (hgood n) hcall hbody hblock i here c (hcs c hc)
      rw [Nat.add_right_comm]
      refine ⟨?_, ?_, ?_⟩
      · intro i th f args
        exact h.invoke (hgood n) hcall hbody i th f args
      · intro i here cs hcs
        exact (h.lockstep i).runCommands here (hone i here cs hcs)
      · intro i here cs hcs
        exact .performAll (hone i here cs hcs)

end Runs

end Exec

end ScriptDebug
