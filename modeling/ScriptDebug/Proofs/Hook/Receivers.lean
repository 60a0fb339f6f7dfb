import ScriptDebug.Proofs.Hook.Quiet

/-!
# Who receives the events

An event should go to the hook that is installed when it is delivered, and only if that
hook asks for it.  All deliveries are of this kind but one: where an instruction
completes a count and enters a line, both events are settled at once, and the line goes
out even if the hook has been replaced or removed while it handled the count.

## Implementation notes

The history of a thread is read from its start: whether a delivery is overtaken shows in
the records before it.  So it is enough to look at one record at a time as the history
grows (`Orderly`).
-/

namespace ScriptDebug

namespace Delivery

/-- The event goes to the installed hook, which asks for it. -/
structure Current (d : Delivery) : Prop where
  function : d.hook.function = some d.function
  asked : d.hook.asks d.event = true

/-- After the records `before`, an instruction delivers its line although the hook
changed during its count: the last of the hooks that were installed meanwhile is another
function or does not ask for lines. -/
structure Overtaken (before : List HookRecord) (d : Delivery) : Prop where
  line : ∃ n, d.event = .line n
  count : ∃ (earlier : List HookRecord) (counted : Delivery) (hooks : List Hook),
    before = earlier ++ .delivered counted ::
      (hooks ++ [d.hook]).map (HookRecord.installed d.thread) ∧
    counted.event = .count ∧ counted.Current ∧ counted.hook.mask.line = true ∧
    counted.function = d.function
  changed : d.hook.function ≠ some d.function ∨ d.hook.mask.line = false

theorem Overtaken.not_current {before : List HookRecord} {d : Delivery} (h : d.Overtaken before) :
    ¬ d.Current := by
  intro hcurrent
  obtain ⟨n, hline⟩ := h.line
  have hasked := hcurrent.asked
  rw [hline] at hasked
  obtain hfunction | hmask := h.changed
  · exact hfunction hcurrent.function
  · cases hmask.symm.trans hasked

end Delivery

namespace Machine

/-- Every delivery among the records is current unless it is overtaken. -/
def Orderly (rs : List HookRecord) : Prop :=
  ∀ before d after, rs = before ++ .delivered d :: after → ¬ d.Current → d.Overtaken before

namespace Orderly

variable {rs : List HookRecord}

theorem nil : Orderly [] := by
  intro before d after heq
  simp at heq

/-- One record more is a matter of that record alone. -/
theorem snoc (h : Orderly rs) {r : HookRecord}
    (hr : ∀ d, r = .delivered d → ¬ d.Current → d.Overtaken rs) : Orderly (rs ++ [r]) := by
  intro before d after heq hstale
  obtain ⟨rfl, hlast⟩ | ⟨after', hrs⟩ := concat_eq_append_cons_cases heq
  · exact hr d hlast hstale
  · exact h before d after' hrs hstale

theorem installed (h : Orderly rs) (th : ThreadId) (hooks : List Hook) :
    Orderly (rs ++ hooks.map (.installed th)) := by
  induction hooks generalizing rs with
  | nil => simpa using h
  | cons hook hooks ih =>
      have hone : Orderly (rs ++ [.installed th hook]) := h.snoc fun d hd => by cases hd
      simpa using ih hone

end Orderly

/-- The records of a thread since an earlier machine are orderly. -/
def InOrder (th : ThreadId) (base m : Machine) : Prop :=
  ∃ rs, m.history th = base.history th ++ rs ∧ Orderly rs

/-- A thread inside its hook, whatever its call stack. -/
def Inside (th : ThreadId) (base m : Machine) : Prop :=
  Quiet (fun _ => True) th (fun _ => True) base m

variable {th : ThreadId} {f : FunctionId} {base m m' : Machine}

namespace InOrder

theorem refl (m : Machine) : InOrder th m m := ⟨[], (List.append_nil _).symm, .nil⟩

theorem congr (h : InOrder th base m) (hhistory : m'.history th = m.history th) :
    InOrder th base m' := by
  obtain ⟨rs, hrs, horderly⟩ := h
  exact ⟨rs, hhistory.trans hrs, horderly⟩

theorem setHook (h : InOrder th base m) (th' : ThreadId) (f : Option FunctionId) (mask : String)
    (count : Nat) : InOrder th base (m.setHook th' f mask count) := by
  by_cases hth : th' = th
  · subst hth
    obtain ⟨rs, hrs, horderly⟩ := h
    refine ⟨rs ++ [.installed th' ((m.hook th').replace f mask count)], ?_, ?_⟩
    · rw [history_setHook_self, hrs, List.append_assoc]
    · exact horderly.snoc fun d hd => by cases hd
  · exact h.congr (history_setHook_ne hth f mask count)

/-- What happens while the hook runs is nothing but installations. -/
theorem inside (h : InOrder th base m) (hin : Inside th m m') : InOrder th base m' := by
  obtain ⟨rs, hrs, horderly⟩ := h
  obtain ⟨hooks, hhooks, -⟩ := hin.history
  have hmore : m'.history th = base.history th ++ (rs ++ hooks.map (.installed th)) := by
    calc
      m'.history th = m.history th ++ hooks.map (.installed th) := hhooks
      _ = base.history th ++ rs ++ hooks.map (.installed th) := by rw [hrs]
      _ = base.history th ++ (rs ++ hooks.map (.installed th)) := List.append_assoc ..
  exact ⟨rs ++ hooks.map (.installed th), hmore, horderly.installed th hooks⟩

/-- A current delivery. -/
theorem deliver (h : InOrder th base m) {e : HookEvent}
    (hcurrent : (m.deliveryNow th f e).Current) : InOrder th base (m.recordDelivery th f e) := by
  obtain ⟨rs, hrs, horderly⟩ := h
  refine ⟨rs ++ [.delivered (m.deliveryNow th f e)], ?_, horderly.snoc ?_⟩
  · rw [history_recordDelivery_self, hrs, List.append_assoc]
  · intro d hd hstale
    cases hd
    exact absurd hcurrent hstale

/-- The line of an instruction, after the hook has handled its count. -/
theorem deliverLine (h : InOrder th base m) (n : Nat)
    (hcurrent : (m.deliveryNow th f .count).Current) (hline : (m.hook th).mask.line = true)
    (hin : Inside th (m.recordDelivery th f .count) m') :
    InOrder th base (m'.recordDelivery th f (.line n)) := by
  obtain ⟨rs, hrs, horderly⟩ := h
  obtain ⟨hooks, hhooks, hhook⟩ := hin.history
  have hcounted : Orderly (rs ++ [.delivered (m.deliveryNow th f .count)]) := by
    apply horderly.snoc
    intro d hd hstale
    cases hd
    exact absurd hcurrent hstale
  refine ⟨rs ++ [.delivered (m.deliveryNow th f .count)] ++ hooks.map (.installed th) ++
    [.delivered (m'.deliveryNow th f (.line n))], ?_, (hcounted.installed th hooks).snoc ?_⟩
  · simp only [history_recordDelivery_self, hhooks, hrs, List.append_assoc]
  intro d hd hstale
  cases hd
  -- without a new hook the line would be as current as the count
  have hchanged : (m'.hook th).function ≠ some f ∨ (m'.hook th).mask.line = false := by
    by_cases hfunction : (m'.hook th).function = some f
    · right
      cases hmask : (m'.hook th).mask.line with
      | true => exact absurd ⟨hfunction, hmask⟩ hstale
      | false => rfl
    · exact .inl hfunction
  rcases List.eq_nil_or_concat hooks with rfl | ⟨hooks', replacement, rfl⟩
  · have hsame : m'.hook th = m.hook th := hhook
    rw [hsame] at hchanged
    obtain hfunction | hmask := hchanged
    · exact absurd hcurrent.function hfunction
    · cases hmask.symm.trans hline
  · have hlast : m'.hook th = replacement := by
      rw [hhook, List.concat_eq_append, List.getLast?_concat]
      rfl
    refine ⟨⟨n, rfl⟩, ⟨rs, m.deliveryNow th f .count, hooks', ?_, rfl, hcurrent, hline, rfl⟩,
      hchanged⟩
    simp only [deliveryNow, hlast, List.append_assoc, List.cons_append, List.nil_append,
      List.concat_eq_append]

end InOrder

/-! ## Runs -/

/-- The records of a thread since a machine, from outside and from inside its hook. -/
def follows (th : ThreadId) : Machine ⊕ Machine → Machine → Prop
  | .inl base => InOrder th base
  | .inr base => Inside th base

theorem keepsStack_true (th : ThreadId) :
    KeepsStack (fun _ => True) th (fun _ : Option CallStack => True) :=
  ⟨fun _ _ _ _ => trivial, fun _ _ _ _ => trivial⟩

theorem inside_reportInvariant (th : ThreadId) (base : Machine) :
    Exec.ReportInvariant (fun _ => True) fun _ : Unit => Inside th base :=
  Quiet.reportInvariant (keepsStack_true th) base

variable {call call' : Caller}

/-- While one event is handled, the thread stays inside its hook. -/
theorem call_inside (hcall : Exec.CallsAgree (follows th) call call') (m : Machine)
    (hin : (m.hook th).inHook = true) (f : FunctionId) (args : List Value) :
    Exec.Leads (· = m) (Inside th m) (call th f args) (call' th f args) :=
  (hcall (.inr m) th f args).leads_from (Quiet.refl (.of_forall (fun _ => trivial) _) hin trivial)

/-- Pending events go out in order to a hook that called for them. -/
theorem deliverAll_inOrder (hcall : Exec.CallsAgree (follows th) call call')
    (hm : InOrder th base m) (hin : (m.hook th).inHook = true) {es : List HookEvent}
    (hfunction : (m.hook th).function = some f) (hasked : ∀ e ∈ es, (m.hook th).asks e = true)
    (hbatch : Hook.Batch es) :
    Exec.Leads (· = m) (InOrder th base) (Exec.deliverAll call th f es)
      (Exec.deliverAll call' th f es) := by
  have hfirst : ∀ e ∈ es, (m.deliveryNow th f e).Current :=
    fun e he => ⟨hfunction, hasked e he⟩
  cases hbatch with
  | single e =>
      have hdelivered := hm.deliver (hfirst e List.mem_cons_self)
      apply Exec.Leads.onMachine_from
      apply Exec.Leads.bind (call_inside hcall (m.recordDelivery th f e) hin f e.args)
      · intro _
        exact (Exec.Agree.pure ()).mono (fun _ => id) fun m' hm' => hdelivered.inside hm'
      · intro m' hm'
        exact hdelivered.inside hm'
  | countLine n =>
      have hcurrent := hfirst .count List.mem_cons_self
      have hline := hasked (.line n) (by simp)
      have hdelivered := hm.deliver hcurrent
      apply Exec.Leads.onMachine_from
      apply Exec.Leads.bind (call_inside hcall (m.recordDelivery th f .count) hin f _)
      · intro _
        apply Exec.Leads.of_each
        intro m' hm'
        have hdelivered' := hm.deliverLine n hcurrent hline hm'
        apply Exec.Leads.onMachine_from
        apply Exec.Leads.bind
          (call_inside hcall (m'.recordDelivery th f (.line n)) hm'.inHook f _)
        · intro _
          exact (Exec.Agree.pure ()).mono (fun _ => id) fun m'' hm'' => hdelivered'.inside hm''
        · intro m'' hm''
          exact hdelivered'.inside hm''
      · intro m' hm'
        exact hdelivered.inside hm'

/-- Marking a thread and removing the mark are not recorded. -/
theorem delivery_inOrder (hcall : Exec.CallsAgree (follows th) call call') {th' : ThreadId}
    {p : PendingEvents} (hm : InOrder th base m) (hcalls : (m.hook th').Calls p) :
    Exec.Leads (· = m.setInHook th' true) (fun m' => InOrder th base (m'.setInHook th' false))
      (Exec.deliverAll call th' p.function p.events)
      (Exec.deliverAll call' th' p.function p.events) := by
  have hmarked : InOrder th base (m.setInHook th' true) := hm.congr rfl
  have hunmark : ∀ m', InOrder th base m' → InOrder th base (m'.setInHook th' false) :=
    fun m' hm' => hm'.congr rfl
  by_cases hth : th' = th
  · subst hth
    have hhook : (m.setInHook th' true).hook th' = { m.hook th' with inHook := true } :=
      hook_setInHook_self (isSome_of_function hcalls.function) true
    have hsetup : ∀ e, ((m.setInHook th' true).hook th').asks e = (m.hook th').asks e := by
      intro e
      rw [hhook]
      cases e <;> rfl
    apply Exec.Leads.mono ?_ (fun _ => id) hunmark
    apply deliverAll_inOrder hcall hmarked
    · rw [hhook]
    · rw [hhook]
      exact hcalls.function
    · intro e he
      rw [hsetup]
      exact hcalls.asked e he
    · exact hcalls.batch
  · have hdeliver := Exec.Agree.deliverAll (I := InOrder th base) th' p.function
      (fun m e h => InOrder.congr h (history_recordDelivery_ne hth p.function e))
      (hcall (.inl base) th' p.function) p.events
    exact (hdeliver.leads_from hmarked).mono (fun _ => id) hunmark

/-- Every run keeps the records of a thread in order. -/
theorem follows_reportInvariant (th : ThreadId) :
    Exec.ReportInvariant (fun _ => True) (follows th) where
  steady := by
    rintro (base | base)
    · exact ⟨fun h hcalm => InOrder.congr h (history_congr hcalm.journal th),
        fun th' f mask count h => InOrder.setHook h th' f mask count⟩
    · exact (inside_reportInvariant th base).steady ()
  bodies _ := .of_forall (fun _ => trivial) _
  noted := by
    rintro (base | base) m m' th' pending h hn
    · exact InOrder.congr h (history_congr hn.journal th)
    · exact (inside_reportInvariant th base).noted (i := ()) h hn
  unwound := by
    rintro (base | base) m m' th' h h'
    · exact InOrder.congr h' rfl
    · exact (inside_reportInvariant th base).unwound (i := ()) th' h h'
  unwind := by
    rintro (base | base) m d here c hc ha h
    · exact InOrder.congr h rfl
    · exact (inside_reportInvariant th base).unwind (i := ()) hc ha h
  delivery := by
    rintro call call' hcall (base | base) th' p m hm hcalls
    · exact delivery_inOrder hcall hm hcalls
    · exact (inside_reportInvariant th base).delivery (fun _ => hcall (.inr base)) (i := ())
        hm hcalls

end Machine

/-- In whatever a command runs, the deliveries of a thread that are not current are just
those that are overtaken. -/
theorem not_current_iff_overtaken {s s' : Session} {c : Command} {report : StepReport}
    (h : s.step c = some (report, s')) (th : ThreadId) {before after : List HookRecord}
    {d : Delivery}
    (hsplit : report.journal.filter (fun r => r.thread = th) = before ++ .delivered d :: after) :
    ¬ d.Current ↔ d.Overtaken before := by
  constructor
  · intro hstale
    have hstep := (Machine.follows_reportInvariant th).runInvariant.step
      (i := .inl s.clearRecords.machine) trivial (.of_forall (fun _ => trivial) c) h
      (Machine.InOrder.refl _)
    obtain ⟨rs, hrs, horderly⟩ := hstep
    have hjournal : report.journal = s'.machine.journal.toList := by
      simp only [Session.step] at h
      split at h
      · cases h
        rfl
      · cases h
    have hhistory : s'.machine.history th = before ++ .delivered d :: after := by
      rw [Machine.history, ← hjournal, hsplit]
    have hcleared : s.clearRecords.machine.history th = [] := rfl
    rw [hhistory, hcleared, List.nil_append] at hrs
    exact horderly before d after hrs.symm hstale
  · intro hovertaken
    exact hovertaken.not_current

/-! ## A hook that removes itself -/

/-- Commands that make a hook which removes itself and a script function which executes
an instruction, and that install the hook for lines and for every instruction. -/
def removingCommands : List Command :=
  let plain : Modifiers := ⟨none, none, none, false⟩
  [.mk plain (.newNative "h" "h" [.mk plain (.inspect (.setHook (.value .nil) "" 0))]),
    .mk plain (.newClosure "f" "p" [] [.mk plain (.notify (.ownInstruction 0 none))]),
    .mk plain (.inspect (.setHook (.function "h") "l" 1))]

/-- The instruction is on line 5. -/
def removingSetup : SessionSetup :=
  ⟨[("p", ⟨none, 0, 0, 0, false, 0, #[], #[5], #[], [], #[]⟩)], .default, false, true⟩

/-- The session in which the script function can be called. -/
def removingSession : Session :=
  (((Session.start removingSetup).run removingCommands).map (·.2)).getD default

def removingCall : Command := .mk ⟨none, none, none, false⟩ (.call (.function "f") [])

/-- No hook, while the removed one still runs. -/
def noHook : Hook := ⟨none, .empty, 0, 0, true, none⟩

/-- The count of the instruction, delivered to the hook that was installed. -/
def countDelivery : Delivery :=
  ⟨Machine.mainThread, ⟨0⟩, .count, ⟨some ⟨0⟩, ⟨false, true, false⟩, 1, 1, true, some 5⟩, 1⟩

/-- The line of the instruction, delivered when there is no hook any more. -/
def lineDelivery : Delivery := ⟨Machine.mainThread, ⟨0⟩, .line 5, noHook, 1⟩

private theorem removingCall_journal : ((removingSession.step removingCall).map fun r =>
    r.1.journal) = some ([.delivered countDelivery, .installed Machine.mainThread noHook] ++
      .delivered lineDelivery :: [.installed Machine.mainThread noHook]) := by
  decide +kernel

/-- Once a hook has removed itself, the old function gets one more event. -/
theorem removed_hook_receives_line :
    ∃ report s' d, removingSession.step removingCall = some (report, s') ∧
      .delivered d ∈ report.journal ∧ d.hook.function = none ∧ ¬ d.Current := by
  obtain ⟨⟨report, s'⟩, hstep, hjournal⟩ := Option.map_eq_some_iff.mp removingCall_journal
  refine ⟨report, s', lineDelivery, hstep, ?_, rfl, ?_⟩
  · rw [show report.journal = _ from hjournal]
    simp
  · intro hcurrent
    cases hcurrent.function

/-- The event that is overtaken is the line. -/
theorem removed_hook_line_overtaken :
    ∃ report s' before after, removingSession.step removingCall = some (report, s') ∧
      report.journal.filter (fun r => r.thread = Machine.mainThread) =
        before ++ .delivered lineDelivery :: after ∧
      ¬ lineDelivery.Current ∧ lineDelivery.Overtaken before := by
  obtain ⟨⟨report, s'⟩, hstep, hjournal⟩ := Option.map_eq_some_iff.mp removingCall_journal
  have hsplit : report.journal.filter (fun r => r.thread = Machine.mainThread) =
      [.delivered countDelivery, .installed Machine.mainThread noHook] ++
        .delivered lineDelivery :: [.installed Machine.mainThread noHook] := by
    rw [show report.journal = _ from hjournal]
    decide +kernel
  have hstale : ¬ lineDelivery.Current := by
    intro hcurrent
    cases hcurrent.function
  exact ⟨report, s', _, _, hstep, hsplit, hstale,
    (not_current_iff_overtaken hstep Machine.mainThread hsplit).mp hstale⟩

end ScriptDebug
