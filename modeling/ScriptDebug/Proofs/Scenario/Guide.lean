import ScriptDebug.Proofs.Scenario.Guard
import ScriptDebug.Proofs.Scenario.Reports

/-!
# What guards ensure

What a guarded run keeps, from what its parts keep.  Reported calls and instructions keep
a firm property; a reported return or an unwinding may leave less than that, which the next
test makes up for.  So every test and every body starts from the firm property, and if no
test fails, every body ends with it.

## Implementation notes

The lemmas follow those on running and on reports, for two properties in place of one.  All
that runs no code of its own keeps the firm property as a steady invariant.
-/

namespace ScriptDebug

namespace Exec

variable {ok : Machine → Bool} {I J K : Machine → Prop} {call call' : Caller}
  {run run' : BodyRunner}

/-- A property that the delivery of an event does not touch. -/
structure Bears (K : Machine → Prop) : Prop where
  record : ∀ {m} th f e, K m → K (m.recordDelivery th f e)
  mark : ∀ {m th}, (m.hook th).inHook = false → K m →
    K (m.setInHook th true) ∧ ∀ m', K m' → K (m'.setInHook th false)

/-- A test that is not passed because of a delivery, a return or an unwinding. -/
structure Lasting (ok : Machine → Bool) : Prop where
  record : ∀ {m} th f e, ok m = false → ok (m.recordDelivery th f e) = false
  mark : ∀ {m} th b, ok m = false → ok (m.setInHook th b) = false
  ret : ∀ {m} th, ok m = false → ok (m.noteReturn th).1 = false
  unwind : ∀ {m} th d, ok m = false → ok (m.unwindTo th d) = false

/-- A firm property `I`, which a test restores from what may be left of it, `J`. -/
structure Guide (ok : Machine → Bool) (I J : Machine → Prop) : Prop where
  lasting : Lasting ok
  weaken : ∀ m, I m → J m
  pass : ∀ m, J m → ok m = true → I m
  steady : Machine.Steady (fun _ => True) I
  firm : Bears I
  loose : Bears J
  call : ∀ {m} th fr, I m → I (m.noteCall th fr).1
  instruction : ∀ {m} th pc varargs top, I m → I (m.noteInstruction th pc varargs top).1
  ret : ∀ {m} th, I m → J (m.noteReturn th).1
  unwind : ∀ {m} th d, J m → J (m.unwindTo th d)

/-- Guarded calls start with a test and end with one. -/
structure CallsGuided (ok : Machine → Bool) (I J : Machine → Prop) (call call' : Caller) : Prop
    where
  guided : ∀ th f args, Guided ok J I (call th f args) (call' th f args)
  fatal : ∀ th f args, Fatal ok (call' th f args)

/-- Guarded commands leave a body as they found it. -/
def CommandsGuided {α : Type} (ok : Machine → Bool) (I : Machine → Prop)
    (run run' : Surroundings → List Command → Exec α) : Prop :=
  ∀ here cs, Guided ok I I (run here cs) (run' here cs)

/-! ## Deliveries -/

namespace Guided

/-- Outside its hook a thread is marked, and unmarked at the end in any case. -/
theorem whileInHook {th : ThreadId} {x y : Exec Unit} (hlasting : Lasting ok)
    (hin : ∀ m, I m → J m)
    (h : ∀ m, I m → (m.hook th).inHook = false →
      Guided ok (· = m.setInHook th true) (fun m' => J (m'.setInHook th false)) x y) :
    Guided ok I J (Exec.whileInHook th x) (Exec.whileInHook th y) := by
  apply Guided.machine_bind
  intro m hm
  split
  · exact of_leads ((Agree.pure ()).leads_from (hin m hm))
  · rename_i hout
    have hout : (m.hook th).inHook = false := by simpa using hout
    refine .onMachine_bind (J := (· = m.setInHook th true)) (fun _ heq => by rw [heq]) ?_
    refine (h m hm hout).attempt_bind (fun r => ?_) fun e => ?_
    · exact .onMachine_bind (J := J) (fun _ hm' => hm') (of_agree (.resume r))
    · exact .after_onMachine (fun m' hm' => hlasting.mark th false hm') (.resume e)

theorem deliverAll (hK : Bears K)
    (hcall : ∀ th f args, Guided ok K K (call th f args) (call' th f args)) (th : ThreadId)
    (f : FunctionId) (es : List HookEvent) :
    Guided ok K K (Exec.deliverAll call th f es) (Exec.deliverAll call' th f es) := by
  induction es with
  | nil => exact of_agree (.pure ())
  | cons e es ih =>
      refine .onMachine_bind (fun _ hm => hK.record th f e hm) ?_
      exact .bind (hcall th f e.args) (fun _ => ih) fun _ => id

/-- A report leads where its notification does. -/
theorem report {note : Machine → Machine × Option PendingEvents} {th : ThreadId}
    (hlasting : Lasting ok) (hK : Bears K)
    (hcall : ∀ th f args, Guided ok K K (call th f args) (call' th f args))
    (hnote : ∀ m, I m → K (note m).1) :
    Guided ok I K (fromMachine note >>= deliver call th)
      (fromMachine note >>= deliver call' th) := by
  apply Guided.fromMachine_bind
  intro m hm
  cases (note m).2 with
  | none => exact of_leads ((Agree.pure ()).leads_from (hnote m hm))
  | some p =>
      refine (whileInHook hlasting (fun _ => id) fun m' hm' hout => ?_).from_machine (hnote m hm)
      obtain ⟨hmark, hunmark⟩ := hK.mark hout hm'
      exact ((deliverAll hK hcall th p.function p.events).from_machine hmark).mono
        (fun _ => id) hunmark

end Guided

/-- A return that is reported after a fall does not make up for it. -/
theorem Lasting.leave (h : Lasting ok) (hcall : ∀ th f args, Fatal ok (call' th f args))
    (th : ThreadId) :
    Agree (fun m => ok m = false) (Exec.leave call' th) (Exec.leave call' th) := by
  refine Leads.report (fun m => m.noteReturn_noted th) (fun _ hm => h.ret th hm) fun p => ?_
  refine Leads.whileInHook (fun _ hm => hm.1) fun m hm hout => ?_
  have hdeliver := Agree.deliverAll th p.function (fun _ e hm => h.record th p.function e hm)
    (fun args => (hcall th p.function args).agree) p.events
  exact (hdeliver.leads_from (h.mark th true hm.1)).mono (fun _ => id)
    fun _ hm' => h.mark th false hm'

namespace Guide

/-! ## Reports -/

section Reports

variable (h : Guide ok I J) (hcall : CallsGuided ok I J call call')

include h

/-- What keeps the firm property keeps what may be left of it. -/
theorem weaken_guided {α : Type} {x y : Exec α} (hxy : Guided ok I I x y) : Guided ok I J x y :=
  hxy.mono (fun _ => id) h.weaken

/-- What runs no code comes before the rest. -/
theorem read_bind {α β : Type} {x : Exec α} (hx : Agree I x x) {f g : α → Exec β}
    (hfg : ∀ a, Guided ok I J (f a) (g a)) : Guided ok I J (x >>= f) (x >>= g) :=
  .bind (.of_agree hx) hfg h.weaken

include hcall

theorem enter (th : ThreadId) (fr : Frame) :
    Guided ok I I (Exec.enter call th fr) (Exec.enter call' th fr) :=
  .report h.lasting h.firm (fun th f args => (hcall.guided th f args).mono h.weaken fun _ => id)
    fun _ hm => h.call th fr hm

theorem step (th : ThreadId) (pc : Nat) (varargs : List Value) (top : Nat) :
    Guided ok I I (Exec.step call th pc varargs top) (Exec.step call' th pc varargs top) :=
  .report h.lasting h.firm (fun th f args => (hcall.guided th f args).mono h.weaken fun _ => id)
    fun _ hm => h.instruction th pc varargs top hm

theorem leave (th : ThreadId) : Guided ok I J (Exec.leave call th) (Exec.leave call' th) :=
  .report h.lasting h.loose (fun th f args => (hcall.guided th f args).mono (fun _ => id) h.weaken)
    fun _ hm => h.ret th hm

theorem performNotification (here : Surroundings) (th : ThreadId) (a : Notification) :
    Guided ok I J (Exec.performNotification call here th a)
      (Exec.performNotification call' here th a) := by
  cases a with
  | call f =>
      refine h.read_bind (.function here f) fun f => ?_
      exact h.weaken_guided (h.enter hcall th _)
  | scriptCall f w vs =>
      refine h.read_bind (.function here f) fun f => ?_
      refine h.read_bind (.window here w) fun w => ?_
      refine h.read_bind (.varargs here vs) fun vs => ?_
      refine h.read_bind .machine fun m => ?_
      exact h.weaken_guided (h.enter hcall th _)
  | instruction pc top vs =>
      refine h.read_bind (.varargs here vs) fun vs => ?_
      exact h.weaken_guided (h.step hcall th pc vs top)
  | ownInstruction pc top =>
      refine h.read_bind .machine fun m => ?_
      exact h.weaken_guided (h.step hcall th pc _ _)
  | ret => exact h.leave hcall th
  | unwind d =>
      have hunwind : Agree J (onMachine (·.unwindTo th d)) (onMachine (·.unwindTo th d)) :=
        .onMachine fun _ hm => h.unwind th d hm
      exact .of_leads (hunwind.mono h.weaken fun _ => id)

end Reports

/-! ## Calls -/

section Calls

variable (h : Guide ok I J) (hcall : CallsGuided ok I J call call')
  (hrun : CommandsGuided ok I run run')

include h

/-- Unwinding keeps what is left of the property. -/
theorem unwind_throw {α : Type} (th : ThreadId) (d : Nat) (e : Halt) :
    Guided ok J J (onMachine (·.unwindTo th d) >>= fun _ => (throw e : Exec α))
      (onMachine (·.unwindTo th d) >>= fun _ => (throw e : Exec α)) :=
  .onMachine_bind (fun _ hm => h.unwind th d hm) (.of_agree (.throw e))

theorem fatal_unwind_throw {α : Type} (th : ThreadId) (d : Nat) (e : Halt) :
    Fatal ok (onMachine (·.unwindTo th d) >>= fun _ => (throw e : Exec α)) :=
  .after_onMachine (fun _ hm => h.lasting.unwind th d hm) (.throw e)

include hrun

theorem runNative (routine : Routine) (th : ThreadId) (args : List Value) :
    Guided ok I I (Exec.runNative run routine th args) (Exec.runNative run' routine th args) := by
  cases routine with
  | library g => exact .of_agree (.runLibrary h.steady g th args)
  | scripted label cs =>
      refine (hrun _ cs).attempt_bind (fun r => ?_) fun e => .throw _
      cases r with
      | ok vs => exact .of_agree (.pure vs)
      | error e => exact .of_agree (.throw _)

theorem runScript (routine : Routine) (th : ThreadId) (args varargs : List Value)
    (window : WindowId) :
    Guided ok I I (Exec.runScript run routine th args varargs window)
      (Exec.runScript run' routine th args varargs window) := by
  cases routine with
  | library g => exact .of_agree (.runLibrary h.steady g th args)
  | scripted label cs => exact hrun _ cs

include hcall

theorem callNative (f : FunctionId) (routine : Routine) (th : ThreadId) (args : List Value) :
    Guided ok I J (Exec.callNative call run f routine th args)
      (Exec.callNative call' run' f routine th args) := by
  apply Guided.machine_bind
  intro m hm
  have hresume : ∀ (result : Except Halt (List Value)) (returned : Except Halt Unit),
      Guided ok J J (do let vs ← resume result; resume returned; return vs)
        (do let vs ← resume result; resume returned; return vs) := fun result returned =>
    .of_agree (.bind (.resume result) fun vs => .bind (.resume returned) fun _ => .pure vs)
  refine ((h.enter hcall th _).attempt_bind (fun r => ?_)
    fun e => h.fatal_unwind_throw th _ e).from_machine hm
  cases r with
  | error e => exact (h.unwind_throw th _ e).mono h.weaken fun _ => id
  | ok _ =>
      refine (h.runNative hrun routine th args).attempt_bind (fun result => ?_) fun e => ?_
      · refine (h.leave hcall th).attempt_bind (fun returned => hresume result returned) fun e => ?_
        exact .after_resume fun vs => (Fatal.resume e).bind _
      · exact .after_attempt (h.lasting.leave hcall.fatal th) fun r => (Fatal.resume e).bind _

theorem callScript (f : FunctionId) (p : Prototype) (routine : Routine) (th : ThreadId)
    (args : List Value) :
    Guided ok I J (Exec.callScript call run f p routine th args)
      (Exec.callScript call' run' f p routine th args) := by
  have hinterpret : Guided ok I J (Exec.interpret call run f p routine th args)
      (Exec.interpret call' run' f p routine th args) := by
    refine h.read_bind (.fromStore h.steady fun _ => rfl) fun window => ?_
    refine .bind (h.enter hcall th _) (fun _ => ?_) h.weaken
    refine .bind (h.runScript hrun routine th args _ window) (fun vs => ?_) h.weaken
    exact .bind (h.leave hcall th) (fun _ => .of_agree (.pure vs)) fun _ => id
  apply Guided.machine_bind
  intro m hm
  split
  · refine (hinterpret.attempt_bind (fun r => ?_)
      fun e => h.fatal_unwind_throw th _ e).from_machine hm
    cases r with
    | error e => exact h.unwind_throw th _ e
    | ok vs => exact .of_agree (.pure vs)
  · exact (h.weaken_guided (.of_agree (.raise _))).from_machine hm

/-- A call keeps to the guide if the calls and bodies inside it do. -/
theorem invoke (th : ThreadId) (f : FunctionId) (args : List Value) :
    Guided ok I J (Exec.invoke call run th f args) (Exec.invoke call' run' th f args) := by
  apply Guided.machine_bind
  intro m hm
  split
  · exact (h.callNative hcall hrun f _ th args).from_machine hm
  · exact (h.callScript hcall hrun f _ _ th args).from_machine hm
  · exact (h.weaken_guided (.of_agree (.raise _))).from_machine hm

end Calls

/-! ## Commands -/

section Commands

variable (h : Guide ok I J)

include h

/-- A native function that runs without a call may catch a fall, up to the next test. -/
theorem direct (hrun : CommandsGuided ok I run run') (f : FunctionId) (th : ThreadId)
    (args : List Value) :
    Testable ok I J (Exec.direct run f th args) (Exec.direct run' f th args) := by
  apply Testable.machine_bind
  intro m hm
  split
  · rename_i g hf
    refine (h.weaken_guided (.of_agree (.machine_bind fun m' hm' => ?_))).testable.from_machine hm
    split
    · rename_i vs m'' hg
      have hafter : I m'' := h.steady.silent hm' (Machine.run_leaves g vs m'' hg)
      exact .bind (.onMachine fun _ _ => hafter) fun _ => .pure _
    · exact .pure _
  · refine ((h.weaken_guided (hrun _ _)).testable.attempt_bind fun r s => ?_).from_machine hm
    split <;> rfl
  · exact (h.weaken_guided (.of_agree (.raise _))).testable.from_machine hm

variable {runner runner' : Runner} (hcall : CallsGuided ok I J runner.call runner'.call)
  (hbody : CommandsGuided ok I runner.body runner'.body)
  (hblock : CommandsGuided ok I runner.block runner'.block)

include hcall hbody hblock

/-- An action keeps to the guide, up to a fall that it catches. -/
theorem performAction (here : Surroundings) (th : ThreadId) (a : Action) :
    Testable ok I J (Exec.performAction runner here th a)
      (Exec.performAction runner' here th a) := by
  have hkeeps : ∀ {α : Type} {x y : Exec α}, Guided ok I I x y → Testable ok I J x y :=
    fun hxy => (h.weaken_guided hxy).testable
  have hnew : ∀ label callable body, Agree I (newFunction label callable body)
      (newFunction label callable body) := fun label callable body =>
    .newFunction h.steady label callable fun d _ => .of_forall (fun _ => trivial) d
  have hfirm : ∀ f vs, Guided ok I I (runner.call th f vs) (runner'.call th f vs) :=
    fun f vs => (hcall.guided th f vs).mono h.weaken fun _ => id
  cases a with
  | object a => exact hkeeps (.of_agree (.performObject h.steady here a))
  | inspect a => exact hkeeps (.of_agree (.performInspection h.steady here th a))
  | notify a =>
      have hnotify := h.performNotification hcall here th a
      exact (hnotify.bind (fun _ => .of_agree (.pure _)) fun _ => id).testable
  | newClosure label prototype cells body =>
      refine hkeeps (.of_agree (.bind .get fun s => ?_))
      split
      · exact hnew label _ body
      · exact .raise _
  | newNative label name body => exact hkeeps (.of_agree (hnew label _ body))
  | call f args =>
      refine .bind (.function here f) (fun f => ?_) h.weaken
      refine .bind (.values here args) (fun vs => ?_) h.weaken
      exact hkeeps ((hfirm f vs).bind (fun _ => .of_agree (.pure _)) fun _ => id)
  | callLibrary name args =>
      refine .bind (.function here _) (fun f => ?_) h.weaken
      refine .bind (.values here args) (fun vs => ?_) h.weaken
      exact hkeeps ((hfirm f vs).bind (fun _ => .of_agree (.libraryReply name _)) fun _ => id)
  | callDirectly f args id =>
      refine .bind (.function here f) (fun f => ?_) h.weaken
      exact .bind (.values here args) (fun vs => h.direct hbody f id vs) h.weaken
  | repeatBlock n cs =>
      have hrepeat : ∀ last, Guided ok I I (Exec.repeatBlock (runner.block here cs) n last)
          (Exec.repeatBlock (runner'.block here cs) n last) := by
        induction n with
        | zero => exact fun last => .of_agree (.pure last)
        | succ n ih => exact fun _ => (hblock here cs).bind (fun replies => ih replies) fun _ => id
      exact hkeeps ((hrepeat []).bind (fun _ => .of_agree (.pure _)) fun _ => id)
  | args => exact hkeeps (.of_agree (.pure _))
  | ret vs => exact hkeeps (.of_agree (.bind (.values here vs) fun _ => .pure _))
  | raise e =>
      cases e with
      | runtime text => exact hkeeps (.of_agree (.raise _))
      | badArgument position function complaint => exact hkeeps (.of_agree (.raise _))
      | value v => exact hkeeps (.of_agree (.bind (.value here v) fun _ => .raise _))

theorem perform (here : Surroundings) (c : Command) :
    Testable ok I J (Exec.perform runner here c) (Exec.perform runner' here c) := by
  have hread : ∀ reply, Testable ok I J (pure reply : Exec Reply) (pure reply) := fun reply =>
    (h.weaken_guided (.of_agree (.pure reply))).testable
  apply Testable.bind .machine (fun m => ?_) h.weaken
  split
  · exact hread _
  · split
    · exact hread _
    · refine (h.performAction hcall hbody hblock here _ _).attempt_bind fun r s => ?_
      split
      · split <;> rfl
      · rfl
      · rfl

end Commands

/-! ## Bodies -/

/-- Guarded commands keep the firm property, one after the other. -/
theorem runCommands {performOne performOne' : Command → Exec Reply} (here : Surroundings)
    (h : ∀ c, Guided ok I I (performOne c) (performOne' c)) (cs : List Command) :
    Guided ok I I (Exec.runCommands performOne here cs) (Exec.runCommands performOne' here cs) := by
  induction cs with
  | nil => exact .of_agree (.pure _)
  | cons c cs ih =>
      refine (h c).bind (fun reply => ?_) fun _ => id
      split
      · exact ih
      · refine .bind (.of_agree (.logCommand here c reply)) (fun _ => ?_) fun _ => id
        split
        · split
          · exact ih
          · exact .of_agree (.raise _)
        · exact .of_agree (.pure _)
        · exact ih

theorem performAll {performOne performOne' : Command → Exec Reply}
    (h : ∀ c, Guided ok I I (performOne c) (performOne' c)) (cs : List Command) :
    Guided ok I I (Exec.performAll performOne cs) (Exec.performAll performOne' cs) := by
  induction cs with
  | nil => exact .of_agree (.pure _)
  | cons c cs ih =>
      refine (h c).bind (fun reply => ?_) fun _ => id
      exact ih.bind (fun _ => .of_agree (.pure _)) fun _ => id

/-! ## Whole runs -/

/-- A guarded run does what the run without guards does, with machines as the guide tells,
or falls. -/
theorem runs (h : Guide ok I J) (n : Nat) :
    CallsGuided ok I J (Exec.call n) (guardedCall ok n) ∧
      CommandsGuided ok I (body n) (guardedBody ok n) ∧
      CommandsGuided ok I (block n) (guardedBlock ok n) := by
  induction n with
  | zero =>
      have hdeep : ∀ {α : Type}, Guided ok I J (throw .tooDeep : Exec α) (throw .tooDeep) :=
        h.weaken_guided (.of_agree (.throw .tooDeep))
      refine ⟨⟨fun th f args => ?_, fun th f args => ?_⟩, fun here cs => ?_, fun here cs => ?_⟩
      · exact .guarded h.pass hdeep.testable
      · exact Fatal.guarded _
      · exact .of_agree (.throw .tooDeep)
      · exact .of_agree (.throw .tooDeep)
  | succ n ih =>
      obtain ⟨hcall, hbody, hblock⟩ := ih
      have hone : ∀ here c, Guided ok I I (Exec.perform (runner n) here c)
          (guarded ok (Exec.perform (guardedRunner ok n) here c)) := fun here c =>
        (Guided.guarded h.pass (h.perform hcall hbody hblock here c)).mono h.weaken fun _ => id
      refine ⟨⟨fun th f args => ?_, fun th f args => ?_⟩, fun here cs => ?_, fun here cs => ?_⟩
      · exact .guarded h.pass (h.invoke hcall hbody th f args).testable
      · exact Fatal.guarded _
      · exact runCommands here (hone here) cs
      · exact performAll (hone here) cs

end Guide

end Exec

end ScriptDebug
