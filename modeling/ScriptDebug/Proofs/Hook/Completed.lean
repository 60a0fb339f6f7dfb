import ScriptDebug.Proofs.Hook.Receivers

/-!
# Reports that complete

A report completes for a thread when no call of its hook fails and none of them installs
a hook for the thread.  Then all events that the notification called for have gone out,
in order and to one function, and the hook is as the notification left it.
-/

namespace ScriptDebug

namespace Exec

/-- A computation runs to its end and installs no hook for a thread. -/
structure Completes (th : ThreadId) (x : Exec Unit) (s s' : Session) : Prop where
  ok : x s = .ok () s'
  kept : s'.machine.installations th = s.machine.installations th

/-- Pending events, each with the function that it goes to. -/
def pendingDeliveries : Option PendingEvents → List (FunctionId × HookEvent)
  | none => []
  | some p => p.events.map fun e => (p.function, e)

variable {th : ThreadId} {f : FunctionId} {es : List HookEvent} {nesting : Nat} {s s' : Session}

/-- A thread is inside its hook after a call if it was so before. -/
theorem inside_call {args vs : List Value} (hin : (s.machine.hook th).inHook = true)
    (h : call nesting th f args s = .ok vs s') : Machine.Inside th s.machine s'.machine := by
  have hkeeps := ((Machine.inside_reportInvariant th s.machine).runInvariant.keeps nesting).1
  have hfinal := (hkeeps () th f args s (.refl (.of_forall (fun _ => trivial) _) hin trivial)).2
  rw [final, h] at hfinal
  exact hfinal

/-- While events are handled one by one, the history gains each of them and otherwise
nothing but other hooks. -/
theorem deliverAll_history (hin : (s.machine.hook th).inHook = true)
    (h : deliverAll (call nesting) th f es s = .ok () s') :
    ∃ rs : List HookRecord, s'.machine.history th = s.machine.history th ++ rs ∧
      rs.filterMap (·.delivery?) = es.map (fun e => (f, e)) ∧
      s'.machine.hook th = (rs.filterMap (·.installation?)).getLast?.getD (s.machine.hook th) := by
  induction es generalizing s with
  | nil =>
      cases h
      exact ⟨[], by simp, rfl, rfl⟩
  | cons e es ih =>
      let recorded : Session := { s with machine := s.machine.recordDelivery th f e }
      change (call nesting th f e.args >>= fun _ => deliverAll (call nesting) th f es) recorded =
        .ok () s' at h
      rw [bind_apply] at h
      split at h
      · rename_i vs called hcall
        have hinside : Machine.Inside th recorded.machine called.machine := inside_call hin hcall
        obtain ⟨hooks, hhistory, hhook⟩ := hinside.history
        obtain ⟨rs, hrs, hdelivered, hlast⟩ := ih hinside.inHook h
        refine ⟨.delivered (s.machine.deliveryNow th f e) :: (hooks.map (.installed th) ++ rs),
          ?_, ?_, ?_⟩
        · have hrecord : recorded.machine.history th = s.machine.history th ++
              [.delivered (s.machine.deliveryNow th f e)] :=
            s.machine.history_recordDelivery_self th f e
          rw [hrs, hhistory, hrecord, List.append_assoc, List.append_assoc, List.singleton_append]
        · have hdelivery : HookRecord.delivery? (.delivered (s.machine.deliveryNow th f e)) =
              some (f, e) := rfl
          rw [List.filterMap_cons_some hdelivery, List.filterMap_append,
            HookRecord.filterMap_delivery?_installed, hdelivered]
          rfl
        · have hrecorded : recorded.machine.hook th = s.machine.hook th := rfl
          rw [hlast, hhook, hrecorded, List.filterMap_cons_none rfl, List.filterMap_append,
            HookRecord.filterMap_installation?_installed, List.getLast?_append]
          cases (rs.filterMap (·.installation?)).getLast? <;> rfl
      · cases h

/-- Without an installation the hook comes back as it was. -/
theorem Completes.deliverAll (hin : (s.machine.hook th).inHook = true)
    (h : Completes th (deliverAll (call nesting) th f es) s s') :
    s'.machine.hook th = s.machine.hook th ∧
      s'.machine.deliveries th = s.machine.deliveries th ++ es.map fun e => (f, e) := by
  obtain ⟨rs, hhistory, hdelivered, hhook⟩ := deliverAll_history hin h.ok
  have hinstalled : rs.filterMap (·.installation?) = [] := by
    have hmore := Machine.installations_of_history hhistory
    rw [h.kept] at hmore
    exact List.self_eq_append_right.mp hmore
  constructor
  · rw [hhook, hinstalled]
    rfl
  · rw [Machine.deliveries_of_history hhistory, hdelivered]

/-- What ran while a thread was marked, if it ran to its end. -/
theorem whileInHook_ok {x : Exec Unit} (hout : (s.machine.hook th).inHook = false)
    (h : whileInHook th x s = .ok () s') :
    ∃ s₁, x { s with machine := s.machine.setInHook th true } = .ok () s₁ ∧
      s' = { s₁ with machine := s₁.machine.setInHook th false } := by
  have hrun : whileInHook th x s = (x.attempt >>= fun r =>
      onMachine (·.setInHook th false) >>= fun _ => resume r)
        { s with machine := s.machine.setInHook th true } := by
    unfold whileInHook
    rw [bind_apply]
    change (if (s.machine.hook th).inHook = true then _ else _ : Exec Unit) s = _
    rw [if_neg (by simp [hout])]
    rfl
  rw [hrun, bind_apply] at h
  simp only [attempt] at h
  cases hx : x { s with machine := s.machine.setInHook th true } with
  | ok a s₁ =>
      rw [hx] at h
      cases h
      exact ⟨s₁, rfl, rfl⟩
  | error e s₁ =>
      rw [hx] at h
      cases h

/-- A completed delivery has handed out what was pending. -/
theorem Completes.deliver {pending : Option PendingEvents}
    (hcalls : ∀ p, pending = some p → (s.machine.hook th).Calls p)
    (h : Completes th (Exec.deliver (call nesting) th pending) s s') :
    s'.machine.hook th = s.machine.hook th ∧
      s'.machine.deliveries th = s.machine.deliveries th ++ pendingDeliveries pending := by
  cases pending with
  | none =>
      have hsame : s' = s := by
        cases h.ok
        rfl
      rw [hsame]
      exact ⟨rfl, (List.append_nil _).symm⟩
  | some p =>
      have hp := hcalls p rfl
      have hexists := Machine.isSome_of_function hp.function
      let marked : Session := { s with machine := s.machine.setInHook th true }
      have hmarked : marked.machine.hook th = { s.machine.hook th with inHook := true } :=
        Machine.hook_setInHook_self hexists true
      obtain ⟨delivered, hdelivered, rfl⟩ : ∃ delivered : Session,
          Exec.deliverAll (call nesting) th p.function p.events marked = .ok () delivered ∧
            s' = { delivered with machine := delivered.machine.setInHook th false } :=
        whileInHook_ok hp.outside h.ok
      have hall : Completes th (Exec.deliverAll (call nesting) th p.function p.events) marked
          delivered := ⟨hdelivered, h.kept⟩
      have hin : (marked.machine.hook th).inHook = true := by rw [hmarked]
      obtain ⟨hhook, hdeliveries⟩ := hall.deliverAll hin
      constructor
      · have hexists' : (delivered.machine.thread? th).isSome := by
          apply Machine.isSome_of_inHook
          rw [hhook, hin]
        rw [Machine.hook_setInHook_self hexists', hhook, hmarked]
        have hout := hp.outside
        cases hs : s.machine.hook th
        rw [hs] at hout
        cases hout
        rfl
      · exact hdeliveries

/-- A completed report has handed out what its notification called for, and the hook is
as the notification left it. -/
theorem Completes.report (note : Machine → Machine × Option PendingEvents)
    (hnoted : Machine.Noted th s.machine (note s.machine).1 (note s.machine).2)
    (h : Completes th (fromMachine note >>= Exec.deliver (call nesting) th) s s') :
    s'.machine.hook th = (note s.machine).1.hook th ∧
      s'.machine.deliveries th =
        s.machine.deliveries th ++ pendingDeliveries (note s.machine).2 := by
  let noted : Session := { s with machine := (note s.machine).1 }
  have hhistory : noted.machine.history th = s.machine.history th :=
    Machine.history_congr hnoted.journal th
  have hdeliver : Completes th (Exec.deliver (call nesting) th (note s.machine).2) noted s' := by
    refine ⟨h.ok, ?_⟩
    rw [h.kept, Machine.installations, Machine.installations, hhistory]
  obtain ⟨hhook, hdeliveries⟩ := hdeliver.deliver hnoted.pending
  refine ⟨hhook, ?_⟩
  rw [hdeliveries, Machine.deliveries, Machine.deliveries, hhistory]

end Exec

end ScriptDebug
