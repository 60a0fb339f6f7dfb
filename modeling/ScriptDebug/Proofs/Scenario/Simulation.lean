import ScriptDebug.Proofs.Scenario.Guard

/-!
# Two computations side by side

A computation is simulated by another one from a relation of sessions to a second one:
started from related sessions both end alike, and again in related sessions, unless the
first one halts in a way that is left out of account.

## Implementation notes

What is left out of account is a set of halts.  It is empty for parts that cannot fail, and
holds the end of the allowed nesting for whole runs, which nothing catches.  With all halts
in it, only success counts.
-/

namespace ScriptDebug

namespace Exec

variable {α β : Type} {E E' : Halt → Prop} {R R' R'' S S' : Session → Session → Prop}
  {s t : Session}

/-- How a computation ends, the session apart. -/
def outcome (x : Exec α) (s : Session) : Except Halt α :=
  match x s with
  | .ok a _ => .ok a
  | .error h _ => .error h

/-- A computation halts, in one of certain ways. -/
def Halts (E : Halt → Prop) (x : Exec α) (s : Session) : Prop := ∃ h s', x s = .error h s' ∧ E h

/-- A computation halts in one of certain ways from every session. -/
def Sinks (E : Halt → Prop) (x : Exec α) : Prop := ∀ s, Halts E x s

/-- From sessions in the first relation both computations end alike, in sessions in the
second one, unless the first computation halts in one of certain ways. -/
def Simulates (E : Halt → Prop) (R R' : Session → Session → Prop) (x y : Exec α) : Prop :=
  ∀ s t, R s t → Halts E x s ∨ x.outcome s = y.outcome t ∧ R' (x.final s) (y.final t)

/-- No halt is left out of account. -/
def Never : Halt → Prop := fun _ => False

/-- Runs that nest too deep are left out of account. -/
def Deep : Halt → Prop := fun h => h = .tooDeep

/-- Only success counts. -/
def Always : Halt → Prop := fun _ => True

/-- A single pair of sessions. -/
def Pair (s t : Session) : Session → Session → Prop := fun s' t' => s' = s ∧ t' = t

/-- The same session twice, with a property of its machine. -/
def Twice (I : Machine → Prop) : Session → Session → Prop := fun s t => t = s ∧ I s.machine

/-! ## Ends of computations -/

theorem attempt_apply (x : Exec α) (s : Session) :
    x.attempt s = .ok (x.outcome s) (x.final s) := by
  simp only [attempt, outcome, final]
  cases x s <;> rfl

theorem apply_of_outcome_ok {x : Exec α} {a : α} (h : x.outcome s = .ok a) :
    x s = .ok a (x.final s) := by
  simp only [outcome, final] at h ⊢
  cases hx : x s with
  | ok b s' =>
      rw [hx] at h
      cases h
      rfl
  | error e s' =>
      rw [hx] at h
      cases h

/-- What a computation returns, as a test that can be run. -/
theorem apply_of_toOption_outcome {x : Exec α} {a : α} (h : (x.outcome s).toOption = some a) :
    x s = .ok a (x.final s) := by
  apply apply_of_outcome_ok
  cases hr : x.outcome s with
  | ok b =>
      rw [hr] at h
      cases h
      rfl
  | error e =>
      rw [hr] at h
      cases h

theorem apply_of_outcome_error {x : Exec α} {h : Halt} (hx : x.outcome s = .error h) :
    x s = .error h (x.final s) := by
  simp only [outcome, final] at hx ⊢
  cases hr : x s with
  | ok b s' =>
      rw [hr] at hx
      cases hx
  | error e s' =>
      rw [hr] at hx
      cases hx
      rfl

theorem outcome_of_ok {x : Exec α} {a : α} {s' : Session} (h : x s = .ok a s') :
    x.outcome s = .ok a := by
  rw [outcome, h]

theorem outcome_of_error {x : Exec α} {h : Halt} {s' : Session} (hx : x s = .error h s') :
    x.outcome s = .error h := by
  rw [outcome, hx]

theorem final_of_ok {x : Exec α} {a : α} {s' : Session} (h : x s = .ok a s') :
    x.final s = s' := by
  rw [final, h]

theorem final_of_error {x : Exec α} {h : Halt} {s' : Session} (hx : x s = .error h s') :
    x.final s = s' := by
  rw [final, hx]

/-! ## Halting -/

namespace Halts

variable {x : Exec α}

theorem mono (h : Halts E x s) (hE : ∀ h, E h → E' h) : Halts E' x s := by
  obtain ⟨e, s', hx, he⟩ := h
  exact ⟨e, s', hx, hE e he⟩

theorem bind (h : Halts E x s) (f : α → Exec β) : Halts E (x >>= f) s := by
  obtain ⟨e, s', hx, he⟩ := h
  exact ⟨e, s', bind_eq_of_error hx f, he⟩

theorem bind_of_ok {f : α → Exec β} {a : α} {s' : Session} (hx : x s = .ok a s')
    (h : Halts E (f a) s') : Halts E (x >>= f) s := by
  obtain ⟨e, t, hf, he⟩ := h
  exact ⟨e, t, (bind_eq_of_ok hx f).trans hf, he⟩

/-- After an attempt it depends on what is made of the failure. -/
theorem attempt_bind (h : Halts E' x s) {f : Except Halt α → Exec β}
    (hf : ∀ h, E' h → Sinks E (f (.error h))) : Halts E (x.attempt >>= f) s := by
  obtain ⟨e, s', hx, he⟩ := h
  exact .bind_of_ok (attempt_eq_of_error hx) (hf e he s')

end Halts

namespace Sinks

theorem throw {h : Halt} (hh : E h) : Sinks E (MonadExcept.throw h : Exec α) :=
  fun s => ⟨h, s, rfl, hh⟩

theorem resume {h : Halt} (hh : E h) : Sinks E (Exec.resume (.error h) : Exec α) := throw hh

theorem bind {x : Exec α} (hx : Sinks E x) (f : α → Exec β) : Sinks E (x >>= f) :=
  fun s => (hx s).bind f

theorem after_onMachine {g : Machine → Machine} {f : Unit → Exec β} (hf : Sinks E (f ())) :
    Sinks E (Exec.onMachine g >>= f) :=
  fun _ => .bind_of_ok rfl (hf _)

theorem after_attempt (x : Exec α) {f : Except Halt α → Exec β} (hf : ∀ r, Sinks E (f r)) :
    Sinks E (x.attempt >>= f) :=
  fun s => .bind_of_ok (attempt_apply x s) (hf _ _)

end Sinks

/-! ## Simulation -/

namespace Simulates

variable {x y : Exec α} {f g : α → Exec β}

theorem mono (h : Simulates E R R' x y) (hE : ∀ h, E h → E' h) (hR : ∀ s t, S s t → R s t)
    (hR' : ∀ s t, R' s t → S' s t) : Simulates E' S S' x y := by
  intro s t hst
  exact (h s t (hR s t hst)).imp (fun hx => hx.mono hE) fun ⟨ho, hf⟩ => ⟨ho, hR' _ _ hf⟩

/-- What cannot fail may be used wherever something is left out of account. -/
theorem of_never (h : Simulates Never R R' x y) : Simulates E R R' x y :=
  h.mono (fun _ => False.elim) (fun _ _ => id) fun _ _ => id

/-- One may assume more of the sessions at the start. -/
theorem weaken (h : Simulates E R R' x y) (hS : ∀ s t, S s t → R s t) : Simulates E S R' x y :=
  h.mono (fun _ => id) hS fun _ _ => id

/-- It is enough to look at each pair of sessions to start from. -/
theorem of_each (h : ∀ s t, R s t → Simulates E (Pair s t) R' x y) : Simulates E R R' x y :=
  fun s t hst => h s t hst s t ⟨rfl, rfl⟩

theorem from_pair (h : Simulates E R R' x y) (hst : R s t) : Simulates E (Pair s t) R' x y := by
  rintro _ _ ⟨rfl, rfl⟩
  exact h _ _ hst

/-- What ends in known sessions. -/
theorem of_ok {a : α} {s' t' : Session} (hx : x s = .ok a s') (hy : y t = .ok a t')
    (h : R' s' t') : Simulates E (Pair s t) R' x y := by
  rintro _ _ ⟨rfl, rfl⟩
  refine .inr ⟨(outcome_of_ok hx).trans (outcome_of_ok hy).symm, ?_⟩
  rw [final_of_ok hx, final_of_ok hy]
  exact h

theorem of_error {e : Halt} {s' t' : Session} (hx : x s = .error e s') (hy : y t = .error e t')
    (h : R' s' t') : Simulates E (Pair s t) R' x y := by
  rintro _ _ ⟨rfl, rfl⟩
  refine .inr ⟨(outcome_of_error hx).trans (outcome_of_error hy).symm, ?_⟩
  rw [final_of_error hx, final_of_error hy]
  exact h

/-- What agrees on machines is simulated on the same session. -/
theorem of_leads {I J : Machine → Prop} (h : Leads I J x y) :
    Simulates E (Twice I) (Twice J) x y := by
  rintro _ s ⟨rfl, hs⟩
  obtain ⟨heq, hfinal⟩ := h s hs
  have houtcome : x.outcome s = y.outcome s := by simp only [outcome, heq]
  have hsame : y.final s = x.final s := by simp only [final, heq]
  exact .inr ⟨houtcome, hsame, hfinal⟩

theorem pure (a : α) : Simulates E R R (Pure.pure a) (Pure.pure a) :=
  fun _ _ hst => .inr ⟨rfl, hst⟩

theorem throw (h : Halt) :
    Simulates E R R (MonadExcept.throw h : Exec α) (MonadExcept.throw h) :=
  fun _ _ hst => .inr ⟨rfl, hst⟩

theorem raise (e : ScriptError) : Simulates E R R (Exec.raise e : Exec α) (Exec.raise e) :=
  throw _

theorem resume (r : Except Halt α) : Simulates E R R (Exec.resume r) (Exec.resume r) := by
  cases r with
  | ok a => exact pure a
  | error h => exact throw h

/-- A computation that halts at once needs no counterpart. -/
theorem of_sinks (hx : Sinks E x) : Simulates E R R' x y := fun s _ _ => .inl (hx s)

/-- In sequence; a first part that fails must have come as far as the second part, unless the
failure is left out of account. -/
theorem bind (hx : Simulates E R R' x y) (hf : ∀ a, Simulates E R' R'' (f a) (g a))
    (hfail : ∀ h, ¬ E h → ∀ s t, R' s t → R'' s t) : Simulates E R R'' (x >>= f) (y >>= g) := by
  intro s t hst
  obtain hhalts | ⟨houtcome, hfinal⟩ := hx s t hst
  · exact .inl (hhalts.bind f)
  cases hr : x.outcome s with
  | ok a =>
      have hxs := apply_of_outcome_ok hr
      have hyt := apply_of_outcome_ok (houtcome.symm.trans hr)
      obtain hhalts | ⟨houtcome', hfinal'⟩ := hf a _ _ hfinal
      · exact .inl (.bind_of_ok hxs hhalts)
      · refine .inr ⟨?_, ?_⟩
        · simp only [outcome, bind_eq_of_ok hxs, bind_eq_of_ok hyt]
          exact houtcome'
        · rw [final_bind_of_ok hxs, final_bind_of_ok hyt]
          exact hfinal'
  | error h =>
      have hxs := apply_of_outcome_error hr
      have hyt := apply_of_outcome_error (houtcome.symm.trans hr)
      by_cases hh : E h
      · exact .inl ⟨h, _, bind_eq_of_error hxs f, hh⟩
      · refine .inr ⟨?_, ?_⟩
        · rw [outcome_of_error (bind_eq_of_error hxs f), outcome_of_error (bind_eq_of_error hyt g)]
        · rw [final_of_error (bind_eq_of_error hxs f), final_of_error (bind_eq_of_error hyt g)]
          exact hfail h hh _ _ hfinal

/-- In sequence, after first parts that end in known sessions. -/
theorem bind_of_ok {a : α} {s' t' : Session} (hx : x s = .ok a s') (hy : y t = .ok a t')
    (h : Simulates E (Pair s' t') R (f a) (g a)) :
    Simulates E (Pair s t) R (x >>= f) (y >>= g) := by
  rintro _ _ ⟨rfl, rfl⟩
  obtain hhalts | ⟨houtcome, hfinal⟩ := h s' t' ⟨rfl, rfl⟩
  · exact .inl (.bind_of_ok hx hhalts)
  · refine .inr ⟨?_, ?_⟩
    · simp only [outcome, bind_eq_of_ok hx, bind_eq_of_ok hy]
      exact houtcome
    · rw [final_bind_of_ok hx, final_bind_of_ok hy]
      exact hfinal

/-- In sequence, with one relation all along. -/
theorem seq (hx : Simulates E S R x y) (hf : ∀ a, Simulates E R R (f a) (g a)) :
    Simulates E S R (x >>= f) (y >>= g) :=
  hx.bind hf fun _ _ _ _ => id

/-- After an attempt the second part comes in any case, and must not make up for a halt that
is left out of account. -/
theorem attempt_bind (hx : Simulates E' R R' x y) {f g : Except Halt α → Exec β}
    (hf : ∀ r, Simulates E R' R'' (f r) (g r)) (hsinks : ∀ h, E' h → Sinks E (f (.error h))) :
    Simulates E R R'' (x.attempt >>= f) (y.attempt >>= g) := by
  intro s t hst
  obtain hhalts | ⟨houtcome, hfinal⟩ := hx s t hst
  · exact .inl (hhalts.attempt_bind hsinks)
  have hxs := attempt_apply x s
  have hyt := attempt_apply y t
  rw [← houtcome] at hyt
  obtain hhalts | ⟨houtcome', hfinal'⟩ := hf (x.outcome s) _ _ hfinal
  · exact .inl (.bind_of_ok hxs hhalts)
  · refine .inr ⟨?_, ?_⟩
    · simp only [outcome, bind_eq_of_ok hxs, bind_eq_of_ok hyt]
      exact houtcome'
    · rw [final_bind_of_ok hxs, final_bind_of_ok hyt]
      exact hfinal'

theorem onMachine_bind {k l : Machine → Machine}
    (h : ∀ s t, R s t → R' { s with machine := k s.machine } { t with machine := l t.machine })
    {f g : Unit → Exec β} (hfg : Simulates E R' R'' (f ()) (g ())) :
    Simulates E R R'' (Exec.onMachine k >>= f) (Exec.onMachine l >>= g) :=
  fun s t hst => hfg { s with machine := k s.machine } { t with machine := l t.machine } (h s t hst)

/-- Reading both machines first. -/
theorem machine_bind {f g : Machine → Exec β}
    (h : ∀ s t, R s t → Simulates E (Pair s t) R' (f s.machine) (g t.machine)) :
    Simulates E R R' (Exec.machine >>= f) (Exec.machine >>= g) :=
  fun s t hst => h s t hst s t ⟨rfl, rfl⟩

/-- Reading both sessions first. -/
theorem get_bind {f g : Session → Exec β}
    (h : ∀ s t, R s t → Simulates E (Pair s t) R' (f s) (g t)) :
    Simulates E R R' (MonadState.get >>= f) (MonadState.get >>= g) :=
  fun s t hst => h s t hst s t ⟨rfl, rfl⟩

/-- An answer that is read off both machines. -/
theorem reads {f : Machine → α} (hf : ∀ s t, R s t → f t.machine = f s.machine) :
    Simulates E R R (do return f (← machine)) (do return f (← machine)) := by
  apply machine_bind
  intro s t hst
  rw [hf s t hst]
  exact (pure _).from_pair hst

/-- Both machines change, with one answer. -/
theorem fromMachine {f : Machine → Machine × α}
    (hf : ∀ s t, R s t → (f t.machine).2 = (f s.machine).2 ∧
      R' { s with machine := (f s.machine).1 } { t with machine := (f t.machine).1 }) :
    Simulates E R R' (Exec.fromMachine f) (Exec.fromMachine f) := by
  intro s t hst
  obtain ⟨hanswer, hR⟩ := hf s t hst
  refine .inr ⟨?_, hR⟩
  change Except.ok (f s.machine).2 = Except.ok (f t.machine).2
  rw [hanswer]

/-- Both machines change. -/
theorem onMachine {f : Machine → Machine}
    (hf : ∀ s t, R s t → R' { s with machine := f s.machine } { t with machine := f t.machine }) :
    Simulates E R R' (Exec.onMachine f) (Exec.onMachine f) :=
  fun s t hst => .inr ⟨rfl, hf s t hst⟩

/-- Both sessions change. -/
theorem session {f g : Session → Session} (hfg : ∀ s t, R s t → R' (f s) (g t)) :
    Simulates E R R' (modify f) (modify g) :=
  fun s t hst => .inr ⟨rfl, hfg s t hst⟩

end Simulates

end Exec

end ScriptDebug
