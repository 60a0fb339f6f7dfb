import ScriptDebug.Scenario.Session

/-!
# Computations that agree under an invariant

Two computations agree between two properties of machines when they do the same from
every session whose machine has the first, and leave a machine with the second, whether
they succeed or fail (`Leads`).  Where both properties are one, it is an invariant
(`Agree`).  A computation that agrees with itself just keeps the invariant.

## Implementation notes

Most uses are about one computation.  The second computation is for comparing a run
with the same run under watch.
-/

namespace ScriptDebug

namespace Exec

variable {α β : Type} {I J K : Machine → Prop}

/-- The session that a computation leaves, whether it succeeds or fails. -/
def final (x : Exec α) (s : Session) : Session :=
  match x s with
  | .ok _ s => s
  | .error _ s => s

/-- Both computations do the same wherever `I` holds, and lead to `J`. -/
def Leads (I J : Machine → Prop) (x y : Exec α) : Prop :=
  ∀ s, I s.machine → x s = y s ∧ J (x.final s).machine

/-- Both computations do the same wherever the invariant holds, and keep it. -/
def Agree (I : Machine → Prop) (x y : Exec α) : Prop := Leads I I x y

theorem bind_apply (x : Exec α) (f : α → Exec β) (s : Session) : (x >>= f) s =
    match x s with
    | .ok a s => f a s
    | .error h s => .error h s := by
  simp only [bind, EStateM.bind]
  cases x s <;> rfl

/-- A computation leaves what its second part leaves, if it comes to that. -/
theorem final_bind (x : Exec α) (f : α → Exec β) (s : Session) : (x >>= f).final s =
    match x s with
    | .ok a s => (f a).final s
    | .error _ s => s := by
  simp only [final, bind_apply]
  cases x s <;> rfl

/-- An attempt of a sequence hands on to its second part, or fails as a whole. -/
theorem attempt_bind_bind {γ : Type} (x : Exec α) (f : α → Exec β) (k : Except Halt β → Exec γ) :
    (x >>= f).attempt >>= k = x.attempt >>= fun r =>
      match r with
      | .ok a => (f a).attempt >>= k
      | .error h => k (.error h) := by
  funext s
  simp only [bind_apply, attempt]
  cases x s with
  | ok a s' => simp only [bind_apply, attempt]
  | error h s' => rfl

@[simp] theorem final_attempt (x : Exec α) (s : Session) : x.attempt.final s = x.final s := by
  simp only [final, attempt]
  cases x s <;> rfl

@[simp] theorem final_resume (r : Except Halt α) (s : Session) : (resume r).final s = s := by
  cases r <;> rfl

namespace Leads

variable {x y : Exec α} {f g : α → Exec β}

/-- One may assume more at the start and ask for less at the end. -/
theorem mono {I' J' : Machine → Prop} (h : Leads I J x y) (hI : ∀ m, I' m → I m)
    (hJ : ∀ m, J m → J' m) : Leads I' J' x y := by
  intro s hs
  obtain ⟨heq, hfinal⟩ := h s (hI _ hs)
  exact ⟨heq, hJ _ hfinal⟩

/-- It is enough to look at each machine to start from. -/
theorem of_each (h : ∀ m, I m → Leads (· = m) J x y) : Leads I J x y :=
  fun s hs => h s.machine hs s rfl

/-- In sequence; a first part that fails must have come as far as the second part. -/
theorem bind (hx : Leads I J x y) (hf : ∀ a, Leads J K (f a) (g a)) (hfail : ∀ m, J m → K m) :
    Leads I K (x >>= f) (y >>= g) := by
  intro s hs
  obtain ⟨heq, hfinal⟩ := hx s hs
  rw [final_bind, bind_apply, bind_apply, ← heq]
  simp only [final] at hfinal
  cases hr : x s with
  | ok a s' =>
      rw [hr] at hfinal
      exact hf a s' hfinal
  | error h s' =>
      rw [hr] at hfinal
      exact ⟨rfl, hfail _ hfinal⟩

theorem attempt (hx : Leads I J x y) : Leads I J x.attempt y.attempt := by
  intro s hs
  obtain ⟨heq, hfinal⟩ := hx s hs
  rw [final_attempt]
  exact ⟨by simp only [Exec.attempt, heq], hfinal⟩

/-- After an attempt the second part comes in any case. -/
theorem attempt_bind (hx : Leads I J x y) {f g : Except Halt α → Exec β}
    (hf : ∀ r, Leads J K (f r) (g r)) : Leads I K (x.attempt >>= f) (y.attempt >>= g) := by
  intro s hs
  obtain ⟨heq, hfinal⟩ := hx s hs
  rw [final_bind, bind_apply, bind_apply]
  simp only [final, Exec.attempt, ← heq] at hfinal ⊢
  cases hr : x s with
  | ok a s' =>
      rw [hr] at hfinal
      exact hf (.ok a) s' hfinal
  | error h s' =>
      rw [hr] at hfinal
      exact hf (.error h) s' hfinal

/-- An attempt of a sequence, part by part. -/
theorem bind_attempt_bind {γ : Type} (hx : Leads I J x y) {k l : Except Halt β → Exec γ}
    (hf : ∀ a, Leads J K ((f a).attempt >>= k) ((g a).attempt >>= l))
    (hfail : ∀ h, Leads J K (k (.error h)) (l (.error h))) :
    Leads I K ((x >>= f).attempt >>= k) ((y >>= g).attempt >>= l) := by
  rw [attempt_bind_bind, attempt_bind_bind]
  apply hx.attempt_bind
  intro r
  cases r with
  | ok a => exact hf a
  | error h => exact hfail h

theorem onMachine_bind {f : Machine → Machine} (h : ∀ m, I m → J (f m)) {x y : Unit → Exec β}
    (hxy : Leads J K (x ()) (y ())) :
    Leads I K (Exec.onMachine f >>= x) (Exec.onMachine f >>= y) :=
  fun s hs => hxy { s with machine := f s.machine } (h _ hs)

/-- An update of a known machine. -/
theorem onMachine_from {m : Machine} {f : Machine → Machine} {x y : Unit → Exec β}
    (hxy : Leads (· = f m) K (x ()) (y ())) :
    Leads (· = m) K (Exec.onMachine f >>= x) (Exec.onMachine f >>= y) :=
  onMachine_bind (J := (· = f m)) (fun _ heq => congrArg f heq) hxy

theorem fromMachine_bind {f : Machine → Machine × α} {x y : α → Exec β}
    (h : ∀ m, I m → Leads (· = (f m).1) K (x (f m).2) (y (f m).2)) :
    Leads I K (Exec.fromMachine f >>= x) (Exec.fromMachine f >>= y) :=
  fun s hs => h _ hs { s with machine := (f s.machine).1 } rfl

/-- Reading the machine first. -/
theorem machine_bind {f g : Machine → Exec α} (h : ∀ m, I m → Leads (· = m) J (f m) (g m)) :
    Leads I J (Exec.machine >>= f) (Exec.machine >>= g) :=
  fun s hs => h s.machine hs s rfl

end Leads

namespace Agree

variable {x y : Exec α}

theorem left (h : Agree I x y) : Agree I x x := fun s hs => ⟨rfl, (h s hs).2⟩

/-- From a machine with the invariant, a computation that keeps it leads to it. -/
theorem leads_from (h : Agree I x y) {m : Machine} (hm : I m) : Leads (· = m) I x y :=
  h.mono (fun _ heq => heq ▸ hm) fun _ => id

/-- A computation that never changes the machine keeps every invariant of it. -/
theorem of_machine_eq (h : ∀ s, (x.final s).machine = s.machine) : Agree I x x :=
  fun s hs => ⟨rfl, (h s).symm ▸ hs⟩

theorem pure (a : α) : Agree I (Pure.pure a) (Pure.pure a) := of_machine_eq fun _ => rfl

theorem throw (h : Halt) : Agree I (MonadExcept.throw h : Exec α) (MonadExcept.throw h) :=
  of_machine_eq fun _ => rfl

theorem raise (e : ScriptError) : Agree I (Exec.raise e : Exec α) (Exec.raise e) := throw _

theorem resume (r : Except Halt α) : Agree I (Exec.resume r) (Exec.resume r) :=
  of_machine_eq fun s => by rw [final_resume]

theorem get : Agree I (MonadState.get : Exec Session) MonadState.get := of_machine_eq fun _ => rfl

theorem machine : Agree I Exec.machine Exec.machine := of_machine_eq fun _ => rfl

theorem bind (hx : Agree I x y) {f g : α → Exec β} (hf : ∀ a, Agree I (f a) (g a)) :
    Agree I (x >>= f) (y >>= g) :=
  Leads.bind hx hf fun _ => id

theorem attempt (hx : Agree I x y) : Agree I x.attempt y.attempt := Leads.attempt hx

/-- Changes of a session outside its machine keep every invariant of the machine. -/
theorem session {f : Session → Session} (h : ∀ s, (f s).machine = s.machine) :
    Agree I (modify f : Exec Unit) (modify f) :=
  of_machine_eq h

theorem onMachine {f : Machine → Machine} (h : ∀ m, I m → I (f m)) :
    Agree I (Exec.onMachine f) (Exec.onMachine f) :=
  fun _ hs => ⟨rfl, h _ hs⟩

theorem fromMachine {f : Machine → Machine × α} (h : ∀ m, I m → I (f m).1) :
    Agree I (Exec.fromMachine f) (Exec.fromMachine f) :=
  fun _ hs => ⟨rfl, h _ hs⟩

/-- Reading the machine first: what is read satisfies the invariant. -/
theorem machine_bind {f g : Machine → Exec α} (h : ∀ m, I m → Agree I (f m) (g m)) :
    Agree I (Exec.machine >>= f) (Exec.machine >>= g) :=
  Leads.machine_bind fun m hm => (h m hm).leads_from hm

end Agree

end Exec

end ScriptDebug
