import ScriptDebug.Proofs.Machine.Notes
import ScriptDebug.Proofs.Scenario.Running

/-!
# Reports and invariants

A report notifies a thread and delivers the events that the notification called for.
An invariant that notifications cannot break, and that delivering events keeps as long
as the calls of the hook do, is kept by every report, and so by calls as a whole.
-/

namespace ScriptDebug

namespace Exec

variable {P : Command → Prop} {I J : Machine → Prop} {th : ThreadId} {call call' : Caller}

/-! ## Delivering -/

/-- Outside its hook a thread is marked, and unmarked at the end in any case. -/
theorem Leads.whileInHook {x y : Exec Unit} (hin : ∀ m, I m → J m)
    (h : ∀ m, I m → (m.hook th).inHook = false →
      Leads (· = m.setInHook th true) (fun m' => J (m'.setInHook th false)) x y) :
    Leads I J (Exec.whileInHook th x) (Exec.whileInHook th y) := by
  apply Leads.machine_bind
  intro m hm
  split
  · exact (Agree.pure ()).leads_from (hin m hm)
  · rename_i hout
    apply Leads.onMachine_from
    apply Leads.attempt_bind (h m hm (by simpa using hout))
    intro r
    exact .onMachine_bind (J := J) (fun _ hm' => hm') (Agree.resume r)

/-- Delivering keeps what the journal cannot break and the calls of the hook keep. -/
theorem Agree.deliverAll (th : ThreadId) (f : FunctionId)
    (hrecord : ∀ m e, I m → I (m.recordDelivery th f e))
    (hcall : ∀ args, Agree I (call th f args) (call' th f args)) (es : List HookEvent) :
    Agree I (Exec.deliverAll call th f es) (Exec.deliverAll call' th f es) := by
  induction es with
  | nil => exact .pure ()
  | cons e es ih =>
      exact .bind (.onMachine fun m hm => hrecord m e hm) fun _ =>
        .bind (hcall e.args) fun _ => ih

/-- A report leads where its notification does, if deliveries keep that. -/
theorem Leads.report {note : Machine → Machine × Option PendingEvents}
    (hnoted : ∀ m, Machine.Noted th m (note m).1 (note m).2) (hnote : ∀ m, I m → J (note m).1)
    (hdeliver : ∀ p, Leads (fun m => J m ∧ (m.hook th).Calls p) J
      (deliver call th (some p)) (deliver call' th (some p))) :
    Leads I J (fromMachine note >>= deliver call th) (fromMachine note >>= deliver call' th) := by
  apply Leads.fromMachine_bind
  intro m hm
  have hJ := hnote m hm
  cases hp : (note m).2 with
  | none => exact (Agree.pure ()).leads_from hJ
  | some p =>
      apply (hdeliver p).mono ?_ fun _ => id
      rintro m' rfl
      exact ⟨hJ, (hnoted m).pending p hp⟩

/-! ## Routines -/

section Routines

variable {run run' : BodyRunner} {routine : Routine} {args : List Value}

/-- A native routine keeps what bodies keep. -/
theorem Agree.runNative (hI : Machine.Steady P I) (hroutine : routine.Every P)
    (hrun : ∀ label cs, (∀ d ∈ cs, d.Every P) →
      Agree I (run ⟨th, label, args, [], none⟩ cs) (run' ⟨th, label, args, [], none⟩ cs)) :
    Agree I (Exec.runNative run routine th args) (Exec.runNative run' routine th args) := by
  cases routine with
  | library g => exact .runLibrary hI g th args
  | scripted label cs =>
      apply Agree.bind (hrun label cs hroutine).attempt
      intro r
      split
      · exact .pure _
      · exact .throw _

/-- A script routine keeps what bodies keep. -/
theorem Agree.runScript (hI : Machine.Steady P I) (hroutine : routine.Every P)
    {varargs : List Value} {window : WindowId}
    (hrun : ∀ label cs, (∀ d ∈ cs, d.Every P) →
      Agree I (run ⟨th, label, args, varargs, some window⟩ cs)
        (run' ⟨th, label, args, varargs, some window⟩ cs)) :
    Agree I (Exec.runScript run routine th args varargs window)
      (Exec.runScript run' routine th args varargs window) := by
  cases routine with
  | library g => exact .runLibrary hI g th args
  | scripted label cs => exact hrun label cs hroutine

end Routines

/-! ## Families that reports keep -/

/-- A family of invariants that notifications and unwinding cannot break and that
deliveries keep, provided that the calls of the hook do. -/
structure ReportInvariant (P : Command → Prop) {ι : Type} (F : ι → Machine → Prop) : Prop where
  steady : ∀ i, Machine.Steady P (F i)
  bodies : ∀ {i m}, F i m → m.store.Every P
  noted : ∀ {i m m' th pending}, F i m → Machine.Noted th m m' pending → F i m'
  unwound : ∀ {i m m'} th, F i m → F i m' → F i (m'.unwindTo th (m.depth th))
  unwind : ∀ {i m d} {here : Surroundings} {c : Command}, P c → c.action = .notify (.unwind d) →
    F i m → F i (m.unwindTo (targetThread here c) d)
  delivery : ∀ {call call'}, CallsAgree F call call' → ∀ {i th p m}, F i m → (m.hook th).Calls p →
    Leads (· = m.setInHook th true) (fun m' => F i (m'.setInHook th false))
      (deliverAll call th p.function p.events) (deliverAll call' th p.function p.events)

namespace ReportInvariant

variable {ι : Type} {F : ι → Machine → Prop}

theorem deliver (h : ReportInvariant P F) (hcall : CallsAgree F call call') (i : ι)
    (th : ThreadId) (p : PendingEvents) :
    Leads (fun m => F i m ∧ (m.hook th).Calls p) (F i)
      (Exec.deliver call th (some p)) (Exec.deliver call' th (some p)) :=
  .whileInHook (fun _ hm => hm.1) fun _ hm _ => h.delivery hcall hm.1 hm.2

theorem enter (h : ReportInvariant P F) (hcall : CallsAgree F call call') (i : ι)
    (th : ThreadId) (fr : Frame) :
    Agree (F i) (Exec.enter call th fr) (Exec.enter call' th fr) :=
  Leads.report (fun m => m.noteCall_noted th fr) (fun m hm => h.noted hm (m.noteCall_noted th fr))
    (h.deliver hcall i th)

theorem leave (h : ReportInvariant P F) (hcall : CallsAgree F call call') (i : ι)
    (th : ThreadId) : Agree (F i) (Exec.leave call th) (Exec.leave call' th) :=
  Leads.report (fun m => m.noteReturn_noted th) (fun m hm => h.noted hm (m.noteReturn_noted th))
    (h.deliver hcall i th)

theorem step (h : ReportInvariant P F) (hcall : CallsAgree F call call') (i : ι)
    (th : ThreadId) (pc : Nat) (varargs : List Value) (top : Nat) :
    Agree (F i) (Exec.step call th pc varargs top) (Exec.step call' th pc varargs top) :=
  Leads.report (fun m => m.noteInstruction_noted th pc varargs top)
    (fun m hm => h.noted hm (m.noteInstruction_noted th pc varargs top)) (h.deliver hcall i th)

theorem notify (h : ReportInvariant P F) (hcall : CallsAgree F call call') {i : ι}
    {here : Surroundings} {c : Command} {a : Notification} (hc : P c)
    (ha : c.action = .notify a) :
    Agree (F i) (performNotification call here (targetThread here c) a)
      (performNotification call' here (targetThread here c) a) := by
  cases a with
  | call f => exact .bind (.function here f) fun f => h.enter hcall i _ _
  | scriptCall f w vs =>
      exact .bind (.function here f) fun f => .bind (.window here w) fun w =>
        .bind (.varargs here vs) fun vs => .bind .machine fun m => h.enter hcall i _ _
  | instruction pc top vs =>
      exact .bind (.varargs here vs) fun vs => h.step hcall i _ pc vs top
  | ownInstruction pc top => exact .bind .machine fun m => h.step hcall i _ pc _ _
  | ret => exact h.leave hcall i _
  | unwind d => exact .onMachine fun m hm => h.unwind hc ha hm

section Calls

variable {run run' : BodyRunner} {routine : Routine} {args : List Value}

theorem callNative (h : ReportInvariant P F) (hcall : CallsAgree F call call')
    (hrun : CommandsAgree P F (fun _ _ => True) run run') (hroutine : routine.Every P) (i : ι)
    (f : FunctionId) : Agree (F i) (Exec.callNative call run f routine th args)
      (Exec.callNative call' run' f routine th args) := by
  apply Agree.machine_bind
  intro m hm
  apply Agree.bind (h.enter hcall i th _).attempt
  intro r
  split
  · exact .bind (.onMachine fun m' hm' => h.unwound th hm hm') fun _ => .throw _
  · have hnative : Agree (F i) (Exec.runNative run routine th args)
        (Exec.runNative run' routine th args) :=
      .runNative (h.steady i) hroutine fun label cs hcs => hrun i _ cs trivial hcs
    apply Agree.bind hnative.attempt
    intro result
    apply Agree.bind (h.leave hcall i th).attempt
    intro returned
    exact .bind (.resume result) fun vs => .bind (.resume returned) fun _ => .pure vs

theorem interpret (h : ReportInvariant P F) (hcall : CallsAgree F call call')
    (hrun : CommandsAgree P F (fun _ _ => True) run run') (hroutine : routine.Every P) (i : ι)
    (f : FunctionId) (p : Prototype) : Agree (F i) (Exec.interpret call run f p routine th args)
      (Exec.interpret call' run' f p routine th args) := by
  apply Agree.bind (.fromStore (h.steady i) fun _ => rfl)
  intro window
  apply Agree.bind (h.enter hcall i th _)
  intro _
  have hscript : ∀ varargs, Agree (F i)
      (Exec.runScript run routine th args varargs window)
      (Exec.runScript run' routine th args varargs window) := fun varargs =>
    .runScript (h.steady i) hroutine fun label cs hcs => hrun i _ cs trivial hcs
  exact .bind (hscript _) fun vs => .bind (h.leave hcall i th) fun _ => .pure vs

theorem callScript (h : ReportInvariant P F) (hcall : CallsAgree F call call')
    (hrun : CommandsAgree P F (fun _ _ => True) run run') (hroutine : routine.Every P) (i : ι)
    (f : FunctionId) (p : Prototype) : Agree (F i) (Exec.callScript call run f p routine th args)
      (Exec.callScript call' run' f p routine th args) := by
  apply Agree.machine_bind
  intro m hm
  split
  · apply Agree.bind (h.interpret hcall hrun hroutine i f p).attempt
    intro r
    split
    · exact .bind (.onMachine fun m' hm' => h.unwound th hm hm') fun _ => .throw _
    · exact .pure _
  · exact .raise _

/-- A call keeps the family if the calls and bodies inside it do. -/
theorem invoke (h : ReportInvariant P F) (hcall : CallsAgree F call call')
    (hrun : CommandsAgree P F (fun _ _ => True) run run') :
    CallsAgree F (Exec.invoke call run) (Exec.invoke call' run') := by
  intro i th f args
  apply Agree.machine_bind
  intro m hm
  split
  · rename_i name routine hf
    exact h.callNative hcall hrun (h.bodies hm f _ hf) i f
  · rename_i p cells routine hf
    exact h.callScript hcall hrun (h.bodies hm f _ hf) i f p
  · exact .raise _

end Calls

/-- Whole runs keep the family. -/
theorem runInvariant (h : ReportInvariant P F) : RunInvariant P F fun _ _ => True where
  steady := h.steady
  bodies := h.bodies
  direct _ _ := trivial
  notify hcall _ _ _ _ _ hc ha := h.notify hcall hc ha
  invoke := h.invoke

end ReportInvariant

/-! ## Properties of threads -/

/-- A property of single threads that no operation on a thread can break. -/
structure ThreadInvariant (Q : Thread → Prop) : Prop where
  setHook : ∀ {t : Thread} f mask count, Q t → Q { t with hook := t.hook.replace f mask count }
  setInHook : ∀ {t : Thread} b, Q t → Q { t with hook := { t.hook with inHook := b } }
  unwindTo : ∀ {t : Thread} d, Q t → Q (t.unwindTo d)
  noted : ∀ {m m' : Machine} {th pending}, Machine.Noted th m m' pending → Q (m.thread th) →
    Q (m'.thread th)

/-- Every run keeps it for all threads. -/
theorem ThreadInvariant.reportInvariant {Q : Thread → Prop} (hQ : ThreadInvariant Q) :
    ReportInvariant (fun _ => True) fun _ : Unit => Machine.Throughout Q where
  steady _ := ⟨fun h hcalm => h.congr hcalm.thread,
    fun th f mask count h => h.setThread th (hQ.setHook f mask count (h th))⟩
  bodies _ := .of_forall (fun _ => trivial) _
  noted h hn := h.of_others hn.others (hQ.noted hn (h _))
  unwound th _ h := h.setThread th (hQ.unwindTo _ (h th))
  unwind _ _ h := h.setThread _ (hQ.unwindTo _ (h _))
  delivery hcall := by
    intro _ th p m hm _
    have hdeliver := Agree.deliverAll (I := Machine.Throughout Q) th p.function (fun _ _ h => h)
      (hcall () th p.function) p.events
    apply (hdeliver.leads_from (hm.setThread th (hQ.setInHook true (hm th)))).mono fun _ => id
    intro m' hm'
    exact hm'.setThread th (hQ.setInHook false (hm' th))

end Exec

end ScriptDebug
