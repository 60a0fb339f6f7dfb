import ScriptDebug.Proofs.Scenario.Actions
import ScriptDebug.Proofs.Scenario.Watch

/-!
# Running and invariants

What a run keeps, from what its parts keep: commands from their notification, call or
block, bodies from their commands, calls from the body and the reports around it.  The
last part ties the knot: an invariant that a call keeps as long as the calls inside it
do is kept by every run.

## Implementation notes

A family of invariants is treated at once, because the invariant of a call can rest on
a different member for the bodies that it runs.  Each member tells on which threads
bodies may run (`Hosts`).
-/

namespace ScriptDebug

namespace Exec

variable {P : Command → Prop} {I : Machine → Prop}

/-! ## Commands -/

section Commands

variable {runner runner' : Runner} {here : Surroundings} {th : ThreadId} {c : Command}

theorem Agree.newFunction (hI : Machine.Steady P I) (label : String) (callable : Callable)
    {body : List Command} (hbody : ∀ d ∈ body, d.Every P) :
    Agree I (Exec.newFunction label callable body) (Exec.newFunction label callable body) := by
  have hroutine : (Routine.scripted label body).Every P := hbody
  refine .bind (.fromMachine fun m hm => hI.calm hm ?_) ?_
  · exact .newFunction hroutine
  · intro f
    refine .bind ?_ fun _ => .pure _
    exact .session fun _ => rfl

theorem Agree.libraryReply (name : String) (vs : List Value) :
    Agree I (Exec.libraryReply name vs) (Exec.libraryReply name vs) := by
  simp only [Exec.libraryReply]
  split
  · split
    · exact .bind .machine fun _ => .pure _
    · exact .pure _
  · exact .pure _

theorem Agree.repeatBlock {x y : Exec (List Reply)} (h : Agree I x y) (n : Nat)
    (last : List Reply) : Agree I (Exec.repeatBlock x n last) (Exec.repeatBlock y n last) := by
  induction n generalizing last with
  | zero => exact .pure _
  | succ n ih => exact .bind h fun replies => ih replies

/-- Running a native function without a call keeps what its body keeps. -/
theorem Agree.direct (hI : Machine.Steady P I) (hbodies : ∀ m, I m → m.store.Every P)
    {run run' : BodyRunner} {args : List Value}
    (hrun : ∀ label cs, (∀ d ∈ cs, d.Every P) →
      Agree I (run ⟨th, label, args, [], none⟩ cs) (run' ⟨th, label, args, [], none⟩ cs))
    (f : FunctionId) : Agree I (Exec.direct run f th args) (Exec.direct run' f th args) := by
  apply Agree.machine_bind
  intro m hm
  split
  · rename_i g hf
    apply Agree.machine_bind
    intro m' hm'
    split
    · rename_i vs m'' hg
      have hafter : I m'' := hI.silent hm' (Machine.run_leaves g vs m'' hg)
      exact .bind (.onMachine fun _ _ => hafter) fun _ => .pure _
    · exact .pure _
  · rename_i label cs hf
    apply Agree.bind (hrun label cs (hbodies m hm f _ hf)).attempt
    intro r
    split
    · exact .pure _
    · exact .pure _
    · exact .throw _
  · exact .raise _

/-- An action keeps what the code that it runs keeps. -/
theorem Agree.performAction (hI : Machine.Steady P I) (hbodies : ∀ m, I m → m.store.Every P)
    (hc : c.Every P)
    (hnotify : ∀ a, c.action = .notify a → Agree I
      (performNotification runner.call here th a) (performNotification runner'.call here th a))
    (hcall : ∀ th f args, Agree I (runner.call th f args) (runner'.call th f args))
    (hdirect : ∀ f args th, c.action = .callDirectly f args th →
      ∀ label vs cs, (∀ d ∈ cs, d.Every P) →
        Agree I (runner.body ⟨th, label, vs, [], none⟩ cs)
          (runner'.body ⟨th, label, vs, [], none⟩ cs))
    (hblock : ∀ cs, (∀ d ∈ cs, d.Every P) →
      Agree I (runner.block here cs) (runner'.block here cs)) :
    Agree I (Exec.performAction runner here th c.action)
      (Exec.performAction runner' here th c.action) := by
  have hinside := hc.inside
  cases ha : c.action with
  | object a => exact .performObject hI here a
  | inspect a => exact .performInspection hI here th a
  | notify a => exact .bind (hnotify a ha) fun _ => .pure _
  | newClosure label prototype cells cs =>
      apply Agree.bind .get
      intro s
      split
      · rw [ha] at hinside
        exact .newFunction hI label _ hinside
      · exact .raise _
  | newNative label name cs =>
      rw [ha] at hinside
      exact .newFunction hI label _ hinside
  | call f args =>
      exact .bind (.function here f) fun f => .bind (.values here args) fun vs =>
        .bind (hcall th f vs) fun _ => .pure _
  | callLibrary name args =>
      exact .bind (.function here _) fun f => .bind (.values here args) fun vs =>
        .bind (hcall th f vs) fun _ => .libraryReply name _
  | callDirectly f args id =>
      exact .bind (.function here f) fun g => .bind (.values here args) fun vs =>
        .direct hI hbodies (fun label cs => hdirect f args id ha label vs cs) g
  | repeatBlock n cs =>
      rw [ha] at hinside
      exact .bind (.repeatBlock (hblock cs hinside) n []) fun _ => .pure _
  | args => exact .pure _
  | ret vs => exact .bind (.values here vs) fun _ => .pure _
  | raise e =>
      cases e with
      | runtime text => exact .raise _
      | badArgument position function complaint => exact .raise _
      | value v => exact .bind (.value here v) fun _ => .raise _

theorem Agree.perform
    (h : Agree I (Exec.performAction runner here (targetThread here c) c.action)
      (Exec.performAction runner' here (targetThread here c) c.action)) :
    Agree I (Exec.perform runner here c) (Exec.perform runner' here c) := by
  apply Agree.bind .machine
  intro m
  split
  · exact .pure _
  · split
    · exact .pure _
    · apply Agree.bind h.attempt
      intro r
      split
      · split
        · refine .bind ?_ fun _ => .pure _
          exact .session fun _ => rfl
        · exact .pure _
      · exact .pure _
      · exact .throw _

end Commands

/-! ## Bodies -/

section Bodies

variable {performOne performOne' : Command → Exec Reply} {cs : List Command}

theorem Agree.logCommand (here : Surroundings) (c : Command) (reply : Reply) :
    Agree I (Exec.logCommand here c reply) (Exec.logCommand here c reply) :=
  .session fun _ => rfl

theorem Agree.runCommands (here : Surroundings)
    (h : ∀ c ∈ cs, Agree I (performOne c) (performOne' c)) :
    Agree I (Exec.runCommands performOne here cs) (Exec.runCommands performOne' here cs) := by
  induction cs with
  | nil => exact .pure _
  | cons c cs ih =>
      have ihc := ih fun d hd => h d (List.mem_cons_of_mem c hd)
      apply Agree.bind (h c List.mem_cons_self)
      intro reply
      split
      · exact ihc
      · apply Agree.bind (.logCommand here c reply)
        intro _
        split
        · split
          · exact ihc
          · exact .raise _
        · exact .pure _
        · exact ihc

theorem Agree.performAll (h : ∀ c ∈ cs, Agree I (performOne c) (performOne' c)) :
    Agree I (Exec.performAll performOne cs) (Exec.performAll performOne' cs) := by
  induction cs with
  | nil => exact .pure _
  | cons c cs ih =>
      exact .bind (h c List.mem_cons_self) fun reply =>
        .bind (ih fun d hd => h d (List.mem_cons_of_mem c hd)) fun _ => .pure _

end Bodies

/-! ## Whole runs -/

section Runs

variable {ι : Type} {F : ι → Machine → Prop} {Hosts : ι → ThreadId → Prop}

/-- Two ways to make calls agree under every member of a family. -/
def CallsAgree (F : ι → Machine → Prop) (call call' : Caller) : Prop :=
  ∀ i th f args, Agree (F i) (call th f args) (call' th f args)

/-- Two ways to run commands agree under every member that hosts them. -/
def CommandsAgree {α : Type} (P : Command → Prop) (F : ι → Machine → Prop)
    (Hosts : ι → ThreadId → Prop) (run run' : Surroundings → List Command → Exec α) : Prop :=
  ∀ i here cs, Hosts i here.thread → (∀ c ∈ cs, c.Every P) →
    Agree (F i) (run here cs) (run' here cs)

/-- A family of invariants that notifications and calls keep, provided that the calls
and bodies inside them do. -/
structure RunInvariant (P : Command → Prop) (F : ι → Machine → Prop)
    (Hosts : ι → ThreadId → Prop) : Prop where
  steady : ∀ i, Machine.Steady P (F i)
  bodies : ∀ {i m}, F i m → m.store.Every P
  direct : ∀ {i c f args th}, P c → c.action = .callDirectly f args th → Hosts i th
  notify : ∀ {call call'}, CallsAgree F call call' →
    ∀ {i here c a}, Hosts i here.thread → P c → c.action = .notify a →
      Agree (F i) (performNotification call here (targetThread here c) a)
        (performNotification call' here (targetThread here c) a)
  invoke : ∀ {call call' run run'}, CallsAgree F call call' →
    CommandsAgree P F Hosts run run' → CallsAgree F (invoke call run) (invoke call' run')

/-- Commands keep a family of invariants if what they run does. -/
theorem RunInvariant.command (h : RunInvariant P F Hosts) {runner runner' : Runner}
    (hcall : CallsAgree F runner.call runner'.call)
    (hbody : CommandsAgree P F Hosts runner.body runner'.body)
    (hblock : CommandsAgree P F Hosts runner.block runner'.block)
    {i : ι} {here : Surroundings} {c : Command} (hhost : Hosts i here.thread) (hc : c.Every P) :
    Agree (F i) (perform runner here c) (perform runner' here c) := by
  apply Agree.perform
  apply Agree.performAction (h.steady i) (fun _ => h.bodies) hc
  · intro a ha
    exact h.notify hcall hhost hc.self ha
  · exact hcall i
  · intro f args th ha label vs cs hcs
    exact hbody i _ cs (h.direct hc.self ha) hcs
  · intro cs hcs
    exact hblock i here cs hhost hcs

/-- Every run keeps the family, also under watch if the test cannot fail. -/
theorem RunInvariant.watched (h : RunInvariant P F Hosts) {ok : Machine → Prop} [DecidablePred ok]
    (mark : LogEntry) (hok : ∀ i m, F i m → ok m) (n : Nat) :
    CallsAgree F (call n) (watchedCall ok mark n) ∧
      CommandsAgree P F Hosts (body n) (watchedBody ok mark n) ∧
      CommandsAgree P F Hosts (block n) (watchedBlock ok mark n) := by
  induction n with
  | zero =>
      refine ⟨?_, ?_, ?_⟩
      · intro i th f args
        exact .watch mark (hok i) (.throw .tooDeep)
      · intro i here cs _ _
        exact .throw .tooDeep
      · intro i here cs _ _
        exact .throw .tooDeep
  | succ n ih =>
      obtain ⟨hcall, hbody, hblock⟩ := ih
      have hone : ∀ i here (cs : List Command), Hosts i here.thread → (∀ c ∈ cs, c.Every P) →
          ∀ c ∈ cs, Agree (F i) (perform (runner n) here c)
            (watch ok mark (perform (watchedRunner ok mark n) here c)) := by
        intro i here cs hhost hcs c hc
        apply Agree.watch mark (hok i)
        exact h.command hcall hbody hblock hhost (hcs c hc)
      refine ⟨?_, ?_, ?_⟩
      · intro i th f args
        apply Agree.watch mark (hok i)
        exact h.invoke hcall hbody i th f args
      · intro i here cs hhost hcs
        exact .runCommands here (hone i here cs hhost hcs)
      · intro i here cs hhost hcs
        exact .performAll (hone i here cs hhost hcs)

/-- Every run keeps each member of the family. -/
theorem RunInvariant.keeps (h : RunInvariant P F Hosts) (n : Nat) :
    CallsAgree F (call n) (call n) ∧ CommandsAgree P F Hosts (body n) (body n) ∧
      CommandsAgree P F Hosts (block n) (block n) := by
  have hok : ∀ i m, F i m → True := fun _ _ _ => trivial
  obtain ⟨hcall, hbody, hblock⟩ := h.watched default hok n
  exact ⟨fun i th f args => (hcall i th f args).left,
    fun i here cs hhost hcs => (hbody i here cs hhost hcs).left,
    fun i here cs hhost hcs => (hblock i here cs hhost hcs).left⟩

/-- Every command of a session keeps each member that hosts it. -/
theorem RunInvariant.step (h : RunInvariant P F Hosts) {i : ι}
    (hhost : Hosts i Surroundings.outermost.thread) {c : Command} (hc : c.Every P)
    {s s' : Session} {report : StepReport} (hstep : s.step c = some (report, s'))
    (hs : F i s.clearRecords.machine) : F i s'.machine := by
  obtain ⟨hcall, hbody, hblock⟩ := h.keeps sessionNesting
  have hcommand : Agree (F i) (perform (runner sessionNesting) .outermost c)
      (perform (runner sessionNesting) .outermost c) :=
    h.command hcall hbody hblock hhost hc
  have hkeep := (hcommand s.clearRecords hs).2
  simp only [Session.step] at hstep
  simp only [final] at hkeep
  split at hstep
  · rename_i hperform
    cases hstep
    rw [hperform] at hkeep
    exact hkeep
  · cases hstep

/-- Every sequence of commands keeps each member that hosts them and does not look at
the records of the command before. -/
theorem RunInvariant.run (h : RunInvariant P F Hosts) {i : ι}
    (hhost : Hosts i Surroundings.outermost.thread) {cs : List Command}
    (hcs : ∀ c ∈ cs, c.Every P)
    (hclear : ∀ s : Session, F i s.machine → F i s.clearRecords.machine)
    {s s' : Session} {reports : List StepReport} (hrun : s.run cs = some (reports, s'))
    (hs : F i s.machine) : F i s'.machine := by
  induction cs generalizing s reports with
  | nil =>
      cases hrun
      exact hs
  | cons c cs ih =>
      simp only [Session.run, Option.bind_eq_bind, Option.bind_eq_some_iff] at hrun
      obtain ⟨⟨report, s₁⟩, hstep, ⟨reports', s₂⟩, hrest, hfinal⟩ := hrun
      cases hfinal
      exact ih (fun d hd => hcs d (List.mem_cons_of_mem c hd)) hrest
        (h.step hhost (hcs c List.mem_cons_self) hstep (hclear s hs))

end Runs

end Exec

end ScriptDebug
