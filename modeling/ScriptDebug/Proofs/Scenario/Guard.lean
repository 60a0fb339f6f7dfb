import ScriptDebug.Proofs.Scenario.Agreement
import ScriptDebug.Scenario.Run

/-!
# Guarded runs

A guarded run tests the machine before and after every call and every command, however
deep inside the run, and fails at the first test that is not passed.  A guarded run in
which no test fails is the run without guards.

## Implementation notes

What holds between two tests is often less than what a test ensures, so two computations
are compared from one property of machines to another.  A failure may be caught before
the next test, but then the machine is one that fails it: a computation is `Fallen` when
it fails with such a machine, and `Testable` says less, that it leaves one.
-/

namespace ScriptDebug

namespace Exec

variable {α β : Type}

section Definitions

variable (ok : Machine → Bool)

/-- Fail if the machine does not pass a test. -/
def guard : Exec Unit := fun s => if ok s.machine then .ok () s else .error .tooDeep s

/-- Run a computation between two tests of the machine. -/
def guarded (x : Exec α) : Exec α := do
  guard ok
  let result ← attempt x
  guard ok
  resume result

mutual

/-- Call a function with every call and every command guarded. -/
def guardedCall (nesting : Nat) : Caller := fun th f args =>
  match nesting with
  | 0 => guarded ok (throw .tooDeep)
  | n + 1 => guarded ok (invoke (guardedCall n) (guardedBody n) th f args)

/-- Run a body with every call and every command guarded. -/
def guardedBody (nesting : Nat) : BodyRunner := fun here cs =>
  match nesting with
  | 0 => throw .tooDeep
  | n + 1 =>
    runCommands
      (fun c => guarded ok (perform ⟨guardedCall n, guardedBody n, guardedBlock n⟩ here c)) here cs

/-- Perform a block with every call and every command guarded. -/
def guardedBlock (nesting : Nat) (here : Surroundings) (cs : List Command) :
    Exec (List Reply) :=
  match nesting with
  | 0 => throw .tooDeep
  | n + 1 =>
    performAll
      (fun c => guarded ok (perform ⟨guardedCall n, guardedBody n, guardedBlock n⟩ here c)) cs

end

/-- What commands may run when guarded. -/
def guardedRunner (nesting : Nat) : Runner :=
  ⟨guardedCall ok nesting, guardedBody ok nesting, guardedBlock ok nesting⟩

/-- A computation fails with a machine that does not pass the test. -/
def Fallen (x : Exec α) (s : Session) : Prop :=
  ∃ h s', x s = .error h s' ∧ ok s'.machine = false

/-- A computation fails from every machine that does not pass the test, with another one. -/
def Fatal (x : Exec α) : Prop := ∀ s, ok s.machine = false → Fallen ok x s

/-- Wherever `I` holds, the second computation falls, or both do the same and lead to `J`. -/
def Guided (I J : Machine → Prop) (x y : Exec α) : Prop :=
  ∀ s, I s.machine → Fallen ok y s ∨ x s = y s ∧ J (x.final s).machine

/-- Wherever `I` holds, the second computation leaves a machine that does not pass the test,
or both do the same and lead to `J`. -/
def Testable (I J : Machine → Prop) (x y : Exec α) : Prop :=
  ∀ s, I s.machine → ok (y.final s).machine = false ∨ x s = y s ∧ J (x.final s).machine

end Definitions

variable {ok : Machine → Bool} {I J K : Machine → Prop}

instance (x : Exec α) (s : Session) : Decidable (Fallen ok x s) :=
  match hx : x s with
  | .ok a s' => isFalse (by rintro ⟨_, _, h, _⟩; cases hx.symm.trans h)
  | .error h s' =>
    decidable_of_iff (ok s'.machine = false)
      ⟨fun hok => ⟨h, s', hx, hok⟩, by rintro ⟨_, _, h, hok⟩; cases hx.symm.trans h; exact hok⟩

/-! ## Parts of computations -/

theorem bind_eq_of_ok {x : Exec α} {s s' : Session} {a : α} (h : x s = .ok a s') (f : α → Exec β) :
    (x >>= f) s = f a s' := by
  rw [bind_apply, h]

theorem bind_eq_of_error {x : Exec α} {s s' : Session} {e : Halt} (h : x s = .error e s')
    (f : α → Exec β) : (x >>= f) s = .error e s' := by
  rw [bind_apply, h]

theorem final_bind_of_ok {x : Exec α} {s s' : Session} {a : α} (h : x s = .ok a s')
    (f : α → Exec β) : (x >>= f).final s = (f a).final s' := by
  rw [final_bind, h]

theorem function_of_function {here : Surroundings} {s : Session} {t : Term} {g : FunctionId}
    (h : s.evalTerm here t = .function g) : function here t s = .ok g s := by
  rw [function, bind_eq_of_ok (x := value here t) rfl, h]
  rfl

/-- An attempt has a result, and with it the session that the computation leaves. -/
theorem attempt_eq (x : Exec α) (s : Session) : ∃ r, x.attempt s = .ok r (x.final s) := by
  simp only [attempt, final]
  cases x s with
  | ok a s' => exact ⟨_, rfl⟩
  | error h s' => exact ⟨_, rfl⟩

theorem attempt_eq_of_ok {x : Exec α} {s s' : Session} {a : α} (hx : x s = .ok a s') :
    x.attempt s = .ok (.ok a) s' := by
  simp only [attempt, hx]

theorem attempt_eq_of_error {x : Exec α} {s s' : Session} {h : Halt} (hx : x s = .error h s') :
    x.attempt s = .ok (.error h) s' := by
  simp only [attempt, hx]

theorem guard_eq_of_passed {s : Session} (h : ok s.machine = true) : guard ok s = .ok () s :=
  if_pos h

theorem guard_eq_of_failed {s : Session} (h : ok s.machine = false) :
    guard ok s = .error .tooDeep s := by
  rw [guard, h]
  rfl

/-! ## Falling -/

namespace Fallen

variable {x : Exec α} {s s' : Session}

theorem bind (h : Fallen ok x s) (f : α → Exec β) : Fallen ok (x >>= f) s := by
  obtain ⟨e, s', hx, hok⟩ := h
  exact ⟨e, s', bind_eq_of_error hx f, hok⟩

theorem bind_of_ok {f : α → Exec β} {a : α} (hx : x s = .ok a s') (h : Fallen ok (f a) s') :
    Fallen ok (x >>= f) s := by
  obtain ⟨e, t, hf, hok⟩ := h
  exact ⟨e, t, (bind_eq_of_ok hx f).trans hf, hok⟩

/-- After an attempt it depends on what is made of the failure. -/
theorem attempt_bind (h : Fallen ok x s) {f : Except Halt α → Exec β}
    (hf : ∀ h, Fatal ok (f (.error h))) : Fallen ok (x.attempt >>= f) s := by
  obtain ⟨e, s', hx, hok⟩ := h
  exact bind_of_ok (attempt_eq_of_error hx) (hf e s' hok)

theorem final (h : Fallen ok x s) : ok (x.final s).machine = false := by
  obtain ⟨e, s', hx, hok⟩ := h
  simpa only [Exec.final, hx] using hok

end Fallen

namespace Fatal

theorem throw (h : Halt) : Fatal ok (MonadExcept.throw h : Exec α) :=
  fun s hok => ⟨h, s, rfl, hok⟩

theorem resume (h : Halt) : Fatal ok (Exec.resume (.error h) : Exec α) := throw h

theorem guard : Fatal ok (Exec.guard ok) :=
  fun s hok => ⟨.tooDeep, s, guard_eq_of_failed hok, hok⟩

theorem bind {x : Exec α} (hx : Fatal ok x) (f : α → Exec β) : Fatal ok (x >>= f) :=
  fun s hok => (hx s hok).bind f

theorem guarded (x : Exec α) : Fatal ok (Exec.guarded ok x) := guard.bind _

theorem after_onMachine {f : Machine → Machine} (hf : ∀ m, ok m = false → ok (f m) = false)
    {g : Unit → Exec β} (hg : Fatal ok (g ())) : Fatal ok (Exec.onMachine f >>= g) :=
  fun _ hok => Fallen.bind_of_ok rfl (hg _ (hf _ hok))

/-- What keeps a machine from passing the test may come before. -/
theorem after_attempt {x : Exec α} (hx : Agree (fun m => ok m = false) x x)
    {f : Except Halt α → Exec β} (hf : ∀ r, Fatal ok (f r)) : Fatal ok (x.attempt >>= f) := by
  intro s hok
  obtain ⟨r, hr⟩ := x.attempt_eq s
  exact .bind_of_ok hr (hf r _ (hx s hok).2)

/-- What comes before fails too, or does nothing. -/
theorem after_resume {r : Except Halt α} {f : α → Exec β} (hf : ∀ a, Fatal ok (f a)) :
    Fatal ok (Exec.resume r >>= f) := by
  cases r with
  | ok a => exact hf a
  | error h => exact (resume h).bind f

/-- A computation that falls at once leaves machines that do not pass as they are. -/
theorem agree {x : Exec α} (hx : Fatal ok x) : Agree (fun m => ok m = false) x x :=
  fun s hok => ⟨rfl, (hx s hok).final⟩

end Fatal

/-! ## Guided computations -/

namespace Guided

variable {x y : Exec α} {f g : α → Exec β}

/-- What agrees needs no guide. -/
theorem of_leads (h : Leads I J x y) : Guided ok I J x y := fun s hs => .inr (h s hs)

theorem of_agree (h : Agree I x y) : Guided ok I I x y := of_leads h

theorem testable (h : Guided ok I J x y) : Testable ok I J x y :=
  fun s hs => (h s hs).imp_left Fallen.final

theorem mono {I' J' : Machine → Prop} (h : Guided ok I J x y) (hI : ∀ m, I' m → I m)
    (hJ : ∀ m, J m → J' m) : Guided ok I' J' x y := by
  intro s hs
  exact (h s (hI _ hs)).imp_right fun ⟨heq, hfinal⟩ => ⟨heq, hJ _ hfinal⟩

/-- From a machine with the property to start from. -/
theorem from_machine (h : Guided ok I J x y) {m : Machine} (hm : I m) :
    Guided ok (· = m) J x y :=
  h.mono (fun _ heq => heq ▸ hm) fun _ => id

/-- In sequence; a first part that fails must have come as far as the second part. -/
theorem bind (hx : Guided ok I J x y) (hf : ∀ a, Guided ok J K (f a) (g a))
    (hfail : ∀ m, J m → K m) : Guided ok I K (x >>= f) (y >>= g) := by
  intro s hs
  obtain hfallen | ⟨heq, hfinal⟩ := hx s hs
  · exact .inl (hfallen.bind g)
  rw [final_bind, bind_apply, bind_apply, ← heq]
  simp only [final] at hfinal
  cases hr : x s with
  | ok a s' =>
      rw [hr] at hfinal heq
      obtain hfallen | hrest := hf a s' hfinal
      · exact .inl (.bind_of_ok heq.symm hfallen)
      · exact .inr hrest
  | error h s' =>
      rw [hr] at hfinal
      exact .inr ⟨rfl, hfail _ hfinal⟩

/-- After an attempt the second part comes in any case, and must not make up for a fall. -/
theorem attempt_bind (hx : Guided ok I J x y) {f g : Except Halt α → Exec β}
    (hf : ∀ r, Guided ok J K (f r) (g r)) (hfatal : ∀ h, Fatal ok (g (.error h))) :
    Guided ok I K (x.attempt >>= f) (y.attempt >>= g) := by
  intro s hs
  obtain hfallen | ⟨heq, hfinal⟩ := hx s hs
  · exact .inl (hfallen.attempt_bind hfatal)
  obtain ⟨r, hr⟩ := x.attempt_eq s
  have hr' : y.attempt s = .ok r (x.final s) := by
    rw [← hr]
    simp only [attempt, heq]
  obtain hfallen | ⟨hrest, hlast⟩ := hf r _ hfinal
  · exact .inl (.bind_of_ok hr' hfallen)
  · refine .inr ⟨?_, ?_⟩
    · rw [bind_eq_of_ok hr, bind_eq_of_ok hr', hrest]
    · rw [final_bind, hr]
      exact hlast

theorem onMachine_bind {f : Machine → Machine} (h : ∀ m, I m → J (f m)) {x y : Unit → Exec β}
    (hxy : Guided ok J K (x ()) (y ())) :
    Guided ok I K (Exec.onMachine f >>= x) (Exec.onMachine f >>= y) :=
  fun s hs => hxy { s with machine := f s.machine } (h _ hs)

theorem fromMachine_bind {f : Machine → Machine × α} {x y : α → Exec β}
    (h : ∀ m, I m → Guided ok (· = (f m).1) K (x (f m).2) (y (f m).2)) :
    Guided ok I K (Exec.fromMachine f >>= x) (Exec.fromMachine f >>= y) :=
  fun s hs => h _ hs { s with machine := (f s.machine).1 } rfl

/-- Reading the machine first. -/
theorem machine_bind {f g : Machine → Exec α} (h : ∀ m, I m → Guided ok (· = m) J (f m) (g m)) :
    Guided ok I J (Exec.machine >>= f) (Exec.machine >>= g) :=
  fun s hs => h s.machine hs s rfl

/-- Guards ensure what machines have that pass the test. -/
theorem guarded (h : ∀ m, J m → ok m = true → I m) (hxy : Testable ok I J x y) :
    Guided ok J I x (Exec.guarded ok y) := by
  intro s hs
  cases hbefore : ok s.machine with
  | false => exact .inl (Fatal.guarded y s hbefore)
  | true =>
      obtain ⟨r, hr⟩ := y.attempt_eq s
      have hresume : Exec.resume r (y.final s) = y s := by
        rw [← bind_eq_of_ok hr Exec.resume, attempt_resume]
      have hguarded : Exec.guarded ok y s =
          (Exec.guard ok >>= fun _ => Exec.resume r) (y.final s) := by
        rw [Exec.guarded, bind_eq_of_ok (guard_eq_of_passed hbefore), bind_eq_of_ok hr]
      cases hafter : ok (y.final s).machine with
      | false =>
          refine .inl ⟨.tooDeep, y.final s, ?_, hafter⟩
          rw [hguarded, bind_eq_of_error (guard_eq_of_failed hafter)]
      | true =>
          have hpassed := hxy s (h _ hs hbefore)
          rw [hafter] at hpassed
          obtain ⟨heq, hfinal⟩ := hpassed.resolve_left (by simp)
          refine .inr ⟨?_, h _ hfinal ?_⟩
          · rw [hguarded, bind_eq_of_ok (guard_eq_of_passed hafter), hresume, heq]
          · rw [Exec.final, heq]
            exact hafter

end Guided

namespace Testable

variable {x y : Exec α}

/-- From a machine with the property to start from. -/
theorem from_machine (h : Testable ok I J x y) {m : Machine} (hm : I m) :
    Testable ok (· = m) J x y :=
  fun s hs => h s (hs ▸ hm)

/-- Reading the machine first. -/
theorem machine_bind {f g : Machine → Exec α}
    (h : ∀ m, I m → Testable ok (· = m) J (f m) (g m)) :
    Testable ok I J (Exec.machine >>= f) (Exec.machine >>= g) :=
  fun s hs => h s.machine hs s rfl

/-- After a first part that cannot fall. -/
theorem bind {f g : α → Exec β} (hx : Agree I x y) (hf : ∀ a, Testable ok I J (f a) (g a))
    (hfail : ∀ m, I m → J m) : Testable ok I J (x >>= f) (y >>= g) := by
  intro s hs
  obtain ⟨heq, hfinal⟩ := hx s hs
  rw [final_bind, final_bind, bind_apply, bind_apply, ← heq]
  simp only [final] at hfinal
  cases hr : x s with
  | ok a s' =>
      rw [hr] at hfinal
      exact hf a s' hfinal
  | error h s' =>
      rw [hr] at hfinal
      exact .inr ⟨rfl, hfail _ hfinal⟩

/-- What comes after an attempt without touching the machine leaves a fall to the next
test, even if it catches the failure. -/
theorem attempt_bind (hxy : Testable ok I J x y) {f : Except Halt α → Exec β}
    (hf : ∀ r s, ((f r).final s).machine = s.machine) :
    Testable ok I J (x.attempt >>= f) (y.attempt >>= f) := by
  intro s hs
  have hmachine : ∀ z : Exec α, ((z.attempt >>= f).final s).machine = (z.final s).machine := by
    intro z
    obtain ⟨r, hr⟩ := z.attempt_eq s
    rw [final_bind, hr]
    exact hf r _
  rw [hmachine x, hmachine y]
  obtain hfallen | ⟨heq, hfinal⟩ := hxy s hs
  · exact .inl hfallen
  · refine .inr ⟨?_, hfinal⟩
    simp only [bind_apply, attempt, heq]

end Testable

end Exec

end ScriptDebug
