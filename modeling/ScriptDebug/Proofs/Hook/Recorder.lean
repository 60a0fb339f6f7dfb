import ScriptDebug.Proofs.Machine.Journal
import ScriptDebug.Proofs.Scenario.Escort
import ScriptDebug.Proofs.Scenario.Guard

/-!
# Hooks that only record

A recording function is native and does nothing but look at its arguments and return.  As a
hook it leaves no trace but entries of the log made inside the hook: every report runs to
its end, and the machine is as its notification left it, with a longer journal.  A hook that
lists its arguments once shows that the journal tells the calls: for each delivery in it
there is one entry of the log, with the arguments for its event.

## Implementation notes

An escort is discreet when it does nothing around what happens inside a hook.  All is said
for discreet escorts, since runs without an escort are a case of them.
-/

namespace ScriptDebug

/-- A command that looks at the arguments of the running body, or ends it. -/
def Command.Records (c : Command) : Prop :=
  c.modifiers.storeAs = none ∧
    match c.action with
    | .args | .ret _ => True
    | _ => False

/-- A native function that only records its arguments and returns. -/
def Store.Records (s : Store) (f : FunctionId) : Prop :=
  ∃ name label cs, s.function? f = some ⟨.native name, .scripted label cs⟩ ∧
    ∀ c ∈ cs, c.Records

/-- The command that lists the arguments of the running body. -/
def Command.listArgs : Command := .mk ⟨none, none, none, false⟩ .args

/-- A native function that lists its arguments once, under a label, and does nothing else. -/
def Store.Lists (s : Store) (f : FunctionId) (label : String) : Prop :=
  ∃ name, s.function? f = some ⟨.native name, .scripted label [.listArgs]⟩

/-- The entry of the log that a listing hook makes when it gets a delivery. -/
def Delivery.entry (d : Delivery) (label : String) : LogEntry :=
  ⟨label, Action.args.keyword, .listing d.event.args, d.depth, true⟩

namespace Machine

variable {m : Machine} {th : ThreadId}

/-- Whether the hook of any thread is running. -/
def insideHook (m : Machine) : Bool := m.threads.any (·.hook.inHook)

theorem insideHook_of_inHook (hin : (m.hook th).inHook = true) : m.insideHook = true := by
  have hlt := thread?_isSome_iff.mp (isSome_of_inHook hin)
  rw [hook, thread, thread?, Array.getElem?_eq_getElem hlt, Option.getD_some] at hin
  exact Array.any_eq_true.mpr ⟨th.index, hlt, hin⟩

theorem insideHook_of_outside (hout : ∀ th, (m.hook th).inHook = false) :
    m.insideHook = false := by
  rw [insideHook, Array.any_eq_false]
  intro i hi hin
  have hthread := hout ⟨i⟩
  rw [hook, thread, thread?, Array.getElem?_eq_getElem hi, Option.getD_some] at hthread
  exact Bool.false_ne_true (hthread.symm.trans hin)

/-- The record of an event that is handed out to a hook. -/
def handedOut (m : Machine) (th : ThreadId) (f : FunctionId) (e : HookEvent) : HookRecord :=
  .delivered ⟨th, f, e, { m.hook th with inHook := true }, m.depth th⟩

/-- The machine after events were handed out to a hook that only records. -/
def handAll (m : Machine) (th : ThreadId) (f : FunctionId) (es : List HookEvent) : Machine :=
  { m with journal := m.journal ++ (es.map (m.handedOut th f)).toArray }

/-- The machine after a hook that only records got what was pending. -/
def handOut (m : Machine) (th : ThreadId) : Option PendingEvents → Machine
  | none => m
  | some p => m.handAll th p.function p.events

theorem handAll_nil (m : Machine) (th : ThreadId) (f : FunctionId) : m.handAll th f [] = m := by
  simp [handAll]

/-- Inside the hook the first event is handed out by itself. -/
theorem handAll_cons {f : FunctionId} {e : HookEvent} {es : List HookEvent}
    (hin : (m.hook th).inHook = true) :
    m.handAll th f (e :: es) = (m.recordDelivery th f e).handAll th f es := by
  have hrecord : HookRecord.delivered ⟨th, f, e, m.hook th, m.depth th⟩ = m.handedOut th f e := by
    rw [handedOut, ← hin]
  simp only [handAll, recordDelivery, mk.injEq, true_and]
  rw [List.map_cons, List.toArray_cons, ← Array.append_assoc, ← Array.push_eq_append, ← hrecord]
  rfl

theorem setThread_setThread (m : Machine) (th : ThreadId) (t t' : Thread) :
    (m.setThread th t).setThread th t' = m.setThread th t' := by
  simp only [setThread, Array.setIfInBounds_setIfInBounds]

/-- Marking a thread outside its hook and removing the mark changes nothing. -/
theorem setInHook_setInHook (hout : (m.hook th).inHook = false) :
    (m.setInHook th true).setInHook th false = m := by
  by_cases hth : (m.thread? th).isSome
  · have hthread : (m.setInHook th true).thread th =
        { m.thread th with hook := { m.hook th with inHook := true } } :=
      thread_setThread_self hth _
    rw [setInHook, hthread, setInHook, setThread_setThread]
    have hsame : { m.thread th with hook := { m.hook th with inHook := false } } =
        m.thread th := by
      rw [← hout]
      rfl
    exact (congrArg (m.setThread th) hsame).trans (m.setThread_thread th)
  · have habsent : ∀ t, m.setThread th t = m := by
      intro t
      rw [setThread, Array.setIfInBounds_eq_of_size_le]
      rwa [thread?_isSome_iff, Nat.not_lt] at hth
    rw [setInHook, setInHook, habsent, habsent]

/-- The mark makes no difference to what is handed out. -/
theorem setInHook_handAll (hout : (m.hook th).inHook = false) (hth : (m.thread? th).isSome)
    (p : PendingEvents) :
    ((m.setInHook th true).handAll th p.function p.events).setInHook th false =
      m.handOut th (some p) := by
  have hdepth : (m.setInHook th true).depth th = m.depth th := by
    simp only [depth, Thread.depth, Thread.calls, stack_setInHook]
  have hrecord : (m.setInHook th true).handedOut th p.function = m.handedOut th p.function := by
    funext e
    simp only [handedOut, hook_setInHook_self hth, hdepth]
  calc
    _ = { (m.setInHook th true).setInHook th false with
          journal := m.journal ++
            (p.events.map ((m.setInHook th true).handedOut th p.function)).toArray } := rfl
    _ = m.handOut th (some p) := by
      rw [hrecord, setInHook_setInHook hout]
      rfl

end Machine

namespace Session

/-- A session with more entries of the log, all made inside hooks. -/
def Recorded (s s' : Session) : Prop :=
  ∃ entries : Array LogEntry, s' = { s with log := s.log ++ entries } ∧
    ∀ e ∈ entries, e.inHook = true

namespace Recorded

variable {s s' s'' : Session}

theorem refl (s : Session) : Recorded s s := ⟨#[], by simp, by simp⟩

theorem trans (h : Recorded s s') (h' : Recorded s' s'') : Recorded s s'' := by
  obtain ⟨entries, rfl, hin⟩ := h
  obtain ⟨entries', rfl, hin'⟩ := h'
  refine ⟨entries ++ entries', by simp only [Array.append_assoc], fun e he => ?_⟩
  exact (Array.mem_append.mp he).elim (hin e) (hin' e)

theorem push {e : LogEntry} (he : e.inHook = true) :
    Recorded s { s with log := s.log.push e } := by
  refine ⟨#[e], by rw [Array.push_eq_append], fun e' he' => ?_⟩
  rw [Array.mem_singleton.mp he', he]

theorem machine (h : Recorded s s') : s'.machine = s.machine := by
  obtain ⟨entries, rfl, -⟩ := h
  rfl

/-- What is recorded does not depend on the machine. -/
theorem onMachine (h : Recorded s s') (m : Machine) :
    Recorded { s with machine := m } { s' with machine := m } := by
  obtain ⟨entries, rfl, hin⟩ := h
  exact ⟨entries, rfl, hin⟩

end Recorded

/-- A session in which a listing function was called in the hook of a thread. -/
def afterListing (s : Session) (th : ThreadId) (label : String) (args : List Value) : Session :=
  { s with
    log := s.log.push ⟨label, Action.args.keyword, .listing args, s.machine.depth th, true⟩ }

/-- A listing hook has been told of events: there is one more delivery in the journal for each
of them, and one more entry of the log for each delivery. -/
def Listed (s : Session) (label : String) (es : List HookEvent) (s' : Session) : Prop :=
  ∃ ds : List Delivery, ds.map (·.event) = es ∧
    s'.machine.journal = s.machine.journal ++ (ds.map .delivered).toArray ∧
    s'.log = s.log ++ (ds.map (·.entry label)).toArray

namespace Listed

variable {label : String} {es es' : List HookEvent} {s s' s'' : Session}

theorem refl (s : Session) (label : String) : s.Listed label [] s := ⟨[], rfl, by simp, by simp⟩

theorem trans (h : s.Listed label es s') (h' : s'.Listed label es' s'') :
    s.Listed label (es ++ es') s'' := by
  obtain ⟨ds, rfl, hjournal, hlog⟩ := h
  obtain ⟨ds', rfl, hjournal', hlog'⟩ := h'
  refine ⟨ds ++ ds', by simp, ?_, ?_⟩
  · rw [hjournal', hjournal]
    simp
  · rw [hlog', hlog]
    simp

end Listed

end Session

namespace Exec

/-- A way to call functions that lets a recording function record inside its hook. -/
def LetsRecord (call : Caller) : Prop :=
  ∀ (th : ThreadId) (f : FunctionId) (args : List Value) (s : Session),
    s.machine.store.Records f → (s.machine.hook th).inHook = true →
      ∃ vs s', call th f args s = .ok vs s' ∧ s.Recorded s'

/-- Nothing is done around what happens inside a hook. -/
structure Escort.Discreet (e : Escort) : Prop where
  call : ∀ th f x {s vs s'}, s.machine.insideHook = true → s'.machine.insideHook = true →
    x s = .ok vs s' → e.call th f x s = .ok vs s'
  command : ∀ here c x {s reply s'}, s.machine.insideHook = true →
    s'.machine.insideHook = true → x s = .ok reply s' → e.command here c x s = .ok reply s'

theorem Escort.none_discreet : Escort.none.Discreet where
  call _ _ _ _ _ _ _ _ h := h
  command _ _ _ _ _ _ _ _ h := h

section Recording

variable {e : Escort} {here : Surroundings} {th : ThreadId} {f : FunctionId} {s : Session}

/-- The command of a recording function changes nothing and does not fail. -/
theorem perform_of_records (runner : Runner) (here : Surroundings) (s : Session) {c : Command}
    (hc : c.Records) :
    ∃ reply, perform runner here c s = .ok reply s ∧
      (reply = .noThread ∨ reply = .skipped ∨ ∃ vs, reply = .listing vs) := by
  obtain ⟨hstore, haction⟩ := hc
  have hlisting : ∃ vs, performAction runner here (targetThread here c) c.action s =
      .ok (.listing vs) s := by
    cases ha : c.action with
    | args => exact ⟨_, rfl⟩
    | ret vs => exact ⟨_, rfl⟩
    | _ =>
        rw [ha] at haction
        cases haction
  obtain ⟨vs, hlisting⟩ := hlisting
  rw [perform, bind_eq_of_ok (x := machine) rfl]
  split
  · exact ⟨.noThread, rfl, .inl rfl⟩
  · split
    · exact ⟨.skipped, rfl, .inr (.inl rfl)⟩
    · rw [bind_eq_of_ok (attempt_eq_of_ok hlisting), hstore]
      exact ⟨.listing vs, rfl, .inr (.inr ⟨vs, rfl⟩)⟩

theorem logCommand_recorded (hin : (s.machine.hook here.thread).inHook = true) (c : Command)
    (reply : Reply) : ∃ s', logCommand here c reply s = .ok () s' ∧ s.Recorded s' := by
  refine ⟨_, rfl, .push ?_⟩
  rw [Machine.reportedThread, if_pos (Machine.isSome_of_inHook hin)]
  exact hin

/-- The body of a recording function runs to its end and records. -/
theorem runCommands_of_records (he : e.Discreet) (runner : Runner) {cs : List Command}
    (hcs : ∀ c ∈ cs, c.Records) (hin : (s.machine.hook here.thread).inHook = true) :
    ∃ vs s', runCommands (fun c => e.command here c (perform runner here c)) here cs s =
      .ok vs s' ∧ s.Recorded s' := by
  induction cs generalizing s with
  | nil => exact ⟨[], s, rfl, .refl s⟩
  | cons c cs ih =>
      have hinside := Machine.insideHook_of_inHook hin
      obtain ⟨reply, hperform, hreply⟩ :=
        perform_of_records runner here s (hcs c List.mem_cons_self)
      have hescorted := he.command here c _ hinside hinside hperform
      have hrest := fun d hd => hcs d (List.mem_cons_of_mem c hd)
      obtain ⟨logged, hlog, hrecorded⟩ := logCommand_recorded hin c reply
      have hin' : (logged.machine.hook here.thread).inHook = true := by
        rw [hrecorded.machine, hin]
      obtain ⟨vs, s', hrun, hrecorded'⟩ := ih hrest hin'
      have hgoes := hrecorded.trans hrecorded'
      rw [runCommands, bind_eq_of_ok hescorted]
      obtain rfl | rfl | ⟨vs', rfl⟩ := hreply
      · exact ⟨vs, s', (bind_eq_of_ok hlog _).trans hrun, hgoes⟩
      · exact ih hrest hin
      · cases ha : c.action with
        | ret terms => exact ⟨vs', logged, bind_eq_of_ok hlog _, hrecorded⟩
        | _ => exact ⟨vs, s', (bind_eq_of_ok hlog _).trans hrun, hgoes⟩

/-- Inside the hook a call of a native function is a run of its body. -/
theorem invoke_native_inHook {call : Caller} {run : BodyRunner} {name label : String}
    {cs : List Command} {args vs : List Value} {s' : Session}
    (hfound : s.machine.store.function? f = some ⟨.native name, .scripted label cs⟩)
    (hin : (s.machine.hook th).inHook = true) (hin' : (s'.machine.hook th).inHook = true)
    (hrun : run ⟨th, label, args, [], none⟩ cs s = .ok vs s') :
    invoke call run th f args s = .ok vs s' := by
  -- neither the call nor the return is reported
  have henter : enter call th (.bare f) s = .ok () s := by
    simp only [enter, bind_apply, fromMachine, Machine.noteCall_inHook hin]
    rfl
  have hleave : leave call th s' = .ok () s' := by
    simp only [leave, bind_apply, fromMachine, Machine.noteReturn_inHook hin']
    rfl
  have hnative : runNative run (.scripted label cs) th args s = .ok vs s' :=
    bind_eq_of_ok (attempt_eq_of_ok hrun) _
  rw [invoke, bind_eq_of_ok (x := machine) rfl, hfound]
  refine (bind_eq_of_ok (x := machine) rfl _).trans ?_
  refine (bind_eq_of_ok (attempt_eq_of_ok henter) _).trans ?_
  refine (bind_eq_of_ok (attempt_eq_of_ok hnative) _).trans ?_
  exact bind_eq_of_ok (attempt_eq_of_ok hleave) _

/-- Under a discreet escort recording functions record. -/
theorem escortedCall_letsRecord (he : e.Discreet) (n : Nat) :
    LetsRecord (escortedCall e (n + 2)) := by
  intro th f args s hf hin
  obtain ⟨name, label, cs, hfound, hcs⟩ := hf
  let here : Surroundings := ⟨th, label, args, [], none⟩
  obtain ⟨vs, s', hrun, hrecorded⟩ : ∃ vs s', escortedBody e (n + 1) here cs s = .ok vs s' ∧
      s.Recorded s' := runCommands_of_records he (escortedRunner e n) hcs hin
  have hin' : (s'.machine.hook th).inHook = true := by rw [hrecorded.machine, hin]
  have hinside := Machine.insideHook_of_inHook hin
  have hinside' := Machine.insideHook_of_inHook hin'
  exact ⟨vs, s', he.call th f _ hinside hinside' (invoke_native_inHook hfound hin hin' hrun),
    hrecorded⟩

theorem call_letsRecord {n : Nat} (hn : 2 ≤ n) : LetsRecord (call n) := by
  obtain ⟨n, rfl⟩ := Nat.exists_eq_add_of_le' hn
  have hcall : escortedCall .none (n + 2) = call (n + 2) :=
    congrArg Runner.call (escortedRunner_none (n + 2))
  rw [← hcall]
  exact escortedCall_letsRecord Escort.none_discreet n

/-! ## Reports to recording hooks -/

variable {call : Caller}

theorem deliverAll_recorded (hcall : LetsRecord call) (hf : s.machine.store.Records f)
    (hin : (s.machine.hook th).inHook = true) (es : List HookEvent) :
    ∃ s', deliverAll call th f es s = .ok () s' ∧
      Session.Recorded { s with machine := s.machine.handAll th f es } s' := by
  induction es generalizing s with
  | nil => exact ⟨s, rfl, by rw [Machine.handAll_nil]; exact .refl s⟩
  | cons e es ih =>
      let noted : Session := { s with machine := s.machine.recordDelivery th f e }
      obtain ⟨vs, s₁, hrun, hrecorded⟩ := hcall th f e.args noted hf hin
      have hmachine : s₁.machine = s.machine.recordDelivery th f e := hrecorded.machine
      have hf₁ : s₁.machine.store.Records f := by
        rw [hmachine]
        exact hf
      have hin₁ : (s₁.machine.hook th).inHook = true := by
        rw [hmachine]
        exact hin
      obtain ⟨s', hrest, hrecorded'⟩ := ih hf₁ hin₁
      refine ⟨s', ?_, ?_⟩
      · exact (bind_eq_of_ok (x := onMachine _) rfl _).trans ((bind_eq_of_ok hrun _).trans hrest)
      · refine .trans ?_ hrecorded'
        rw [hmachine, ← Machine.handAll_cons hin]
        exact hrecorded.onMachine _

/-- Outside the hook, events are delivered with the thread marked. -/
theorem deliver_of_deliverAll {p : PendingEvents} {s₁ : Session}
    (hout : (s.machine.hook th).inHook = false)
    (hrun : deliverAll call th p.function p.events
      { s with machine := s.machine.setInHook th true } = .ok () s₁) :
    deliver call th (some p) s =
      .ok () { s₁ with machine := s₁.machine.setInHook th false } := by
  have hout' : ¬ (s.machine.hook th).inHook = true := by simp [hout]
  rw [deliver, whileInHook, bind_eq_of_ok (x := machine) rfl, if_neg hout']
  refine (bind_eq_of_ok (x := onMachine _) rfl _).trans ?_
  exact bind_eq_of_ok (attempt_eq_of_ok hrun) _

/-- A delivery to a recording hook leaves nothing but records. -/
theorem deliver_recorded (hcall : LetsRecord call) {pending : Option PendingEvents}
    (hpending : ∀ p, pending = some p →
      (s.machine.hook th).Calls p ∧ s.machine.store.Records p.function) :
    ∃ s', deliver call th pending s = .ok () s' ∧
      Session.Recorded { s with machine := s.machine.handOut th pending } s' := by
  cases pending with
  | none => exact ⟨s, rfl, .refl s⟩
  | some p =>
      obtain ⟨hcalls, hf⟩ := hpending p rfl
      let marked : Session := { s with machine := s.machine.setInHook th true }
      have hth := Machine.isSome_of_function hcalls.function
      have hmarked : marked.machine.hook th = { s.machine.hook th with inHook := true } :=
        Machine.hook_setInHook_self hth true
      have hin : (marked.machine.hook th).inHook = true := by rw [hmarked]
      obtain ⟨s₁, hrun, hrecorded⟩ := deliverAll_recorded (s := marked) hcall hf hin p.events
      refine ⟨_, deliver_of_deliverAll hcalls.outside hrun, ?_⟩
      have hmachine : s₁.machine.setInHook th false = s.machine.handOut th (some p) := by
        rw [hrecorded.machine]
        exact Machine.setInHook_handAll hcalls.outside hth p
      rw [hmachine]
      exact hrecorded.onMachine _

end Recording

/-! ## Hooks that list their arguments -/

section Listing

variable {th : ThreadId} {f : FunctionId} {label : String} {s : Session}

/-- Inside the hook a listing function makes one entry of the log, with its arguments. -/
theorem call_of_lists (n : Nat) (hf : s.machine.store.Lists f label)
    (hin : (s.machine.hook th).inHook = true) (args : List Value) :
    call (n + 2) th f args s = .ok [] (s.afterListing th label args) := by
  obtain ⟨name, hfound⟩ := hf
  let here : Surroundings := ⟨th, label, args, [], none⟩
  have hthread : (s.machine.thread? th).isSome := Machine.isSome_of_inHook hin
  have hperform : perform (runner n) here .listArgs s = .ok (.listing args) s := by
    have hexists : ¬ (s.machine.thread? th).isNone = true := by
      rw [← Option.not_isSome, hthread]
      exact Bool.false_ne_true
    have hdone : ¬ isSkipped s.machine th .listArgs = true := Bool.false_ne_true
    have htarget : targetThread here .listArgs = th := rfl
    rw [perform, bind_eq_of_ok (x := machine) rfl, htarget, if_neg hexists, if_neg hdone]
    exact bind_eq_of_ok (attempt_eq_of_ok rfl) _
  have hlog : logCommand here .listArgs (.listing args) s =
      .ok () (s.afterListing th label args) := by
    have hreported : s.machine.reportedThread th = th := if_pos hthread
    have hmark : (s.machine.thread th).hook.inHook = true := hin
    calc
      _ = EStateM.Result.ok () { s with
            log := s.log.push ⟨label, Action.args.keyword, .listing args,
              (s.machine.thread (s.machine.reportedThread th)).depth,
              (s.machine.thread (s.machine.reportedThread th)).hook.inHook⟩ } := rfl
      _ = .ok () (s.afterListing th label args) := by
        rw [hreported, hmark]
        rfl
  have hbody : body (n + 1) here [.listArgs] s = .ok [] (s.afterListing th label args) := by
    rw [body_succ, runCommands, bind_eq_of_ok hperform]
    exact bind_eq_of_ok hlog _
  rw [call_succ]
  exact invoke_native_inHook hfound hin hin hbody

/-- The deliveries to a listing hook are in the journal and in the log, one for one. -/
theorem deliverAll_listed (n : Nat) (hf : s.machine.store.Lists f label)
    (hin : (s.machine.hook th).inHook = true) (es : List HookEvent) :
    ∃ s', deliverAll (call (n + 2)) th f es s = .ok () s' ∧ s.Listed label es s' := by
  induction es generalizing s with
  | nil => exact ⟨s, rfl, .refl s label⟩
  | cons e es ih =>
      let noted : Session := { s with machine := s.machine.recordDelivery th f e }
      have hcall : call (n + 2) th f e.args noted = .ok [] (noted.afterListing th label e.args) :=
        call_of_lists (s := noted) n hf hin e.args
      have hfirst : s.Listed label [e] (noted.afterListing th label e.args) :=
        ⟨[s.machine.deliveryNow th f e], rfl, Array.push_eq_append, Array.push_eq_append⟩
      obtain ⟨s', hrest, hlisted⟩ := ih (s := noted.afterListing th label e.args) hf hin
      refine ⟨s', ?_, hfirst.trans hlisted⟩
      exact (bind_eq_of_ok (x := onMachine _) rfl _).trans ((bind_eq_of_ok hcall _).trans hrest)

/-- What is pending for a listing hook comes to be in the journal and in the log, one entry
for each event and with its arguments. -/
theorem deliver_listed (n : Nat) {p : PendingEvents} (hcalls : (s.machine.hook th).Calls p)
    (hf : s.machine.store.Lists p.function label) :
    ∃ s', deliver (call (n + 2)) th (some p) s = .ok () s' ∧ s.Listed label p.events s' := by
  let marked : Session := { s with machine := s.machine.setInHook th true }
  have hth := Machine.isSome_of_function hcalls.function
  have hin : (marked.machine.hook th).inHook = true := by
    rw [Machine.hook_setInHook_self hth true]
  obtain ⟨s₁, hrun, hlisted⟩ := deliverAll_listed (s := marked) n hf hin p.events
  exact ⟨_, deliver_of_deliverAll hcalls.outside hrun, hlisted⟩

end Listing

end Exec

end ScriptDebug
