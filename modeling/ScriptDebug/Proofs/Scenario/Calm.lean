import ScriptDebug.Proofs.Machine.Threads
import ScriptDebug.Proofs.Scenario.Bodies

/-!
# Changes that leave threads alone

Most operations change objects only: every thread keeps its calls and its hook, and
the journal gets no entry (`Calm`).  The one operation of the library and of the
reflection interface that does more replaces the hook of a thread.
-/

namespace ScriptDebug

namespace Machine

/-- Neither threads nor journal change, and bodies keep a property. -/
structure Calm (P : Command → Prop) (m m' : Machine) : Prop where
  thread : ∀ th, m'.thread th = m.thread th
  journal : m'.journal = m.journal
  bodies : m.store.Every P → m'.store.Every P

namespace Calm

variable {P : Command → Prop} {m m' : Machine}

theorem refl (m : Machine) : Calm P m m := ⟨fun _ => rfl, rfl, id⟩

theorem ofBodies {store : Store} (h : m.store.Every P → store.Every P) :
    Calm P m { m with store } :=
  ⟨fun _ => rfl, rfl, h⟩

/-- A new store with the functions of the old one. -/
theorem ofStore {store : Store} (h : store.functions = m.store.functions) :
    Calm P m { m with store } :=
  .ofBodies fun hP => hP.congr h

theorem newFunction {o : FunctionObject} (ho : o.routine.Every P) :
    Calm P m { m with store := (m.store.newFunction o).1 } :=
  .ofBodies fun hP => hP.newFunction ho

theorem setUpvalueCell (f : FunctionId) (slot : Nat) (c : CellId) :
    Calm P m { m with store := m.store.setUpvalueCell f slot c } :=
  .ofBodies fun hP => hP.setUpvalueCell f slot c

theorem kindMetatables (k : KindMetatables) : Calm P m { m with kindMetatables := k } :=
  ⟨fun _ => rfl, rfl, id⟩

/-- A thread looks the same before it exists as when it is new. -/
theorem newThread (m : Machine) : Calm P m m.newThread.1 where
  thread th := by
    simp only [Machine.newThread, Machine.thread, thread?, Array.getElem?_push]
    split
    · rename_i heq
      rw [Array.getElem?_eq_none (by omega)]
      rfl
    · rfl
  journal := rfl
  bodies := id

theorem recordTrace (m : Machine) (th : ThreadId) : Calm P m (m.recordTrace th) := by
  unfold Machine.recordTrace
  split
  · split
    · exact ⟨fun _ => rfl, rfl, id⟩
    · exact refl m
  · exact refl m

/-- Marking a thread outside its hook and removing the mark changes no thread. -/
theorem setInHook_twice {th : ThreadId} (h : (m.hook th).inHook = false) :
    Calm P m ((m.setInHook th true).setInHook th false) where
  thread th' := by
    rw [thread_setInHook]
    split
    · rename_i heq
      obtain ⟨rfl, hsome⟩ := heq
      have hself : (m.setInHook th true).thread th =
          { m.thread th with hook := { m.hook th with inHook := true } } := by
        rw [thread_setInHook, if_pos ⟨rfl, by simpa [setInHook] using hsome⟩]
      rw [Machine.hook, hself, ← h]
      rfl
    · rename_i hne
      rw [thread_setInHook, if_neg]
      intro hc
      exact hne ⟨hc.1, by rw [setInHook, thread?_setThread_isSome]; exact hc.2⟩
  journal := rfl
  bodies := id

end Calm

end Machine

/-! ## Changes of the store -/

namespace Store

@[simp] theorem functions_write (s : Store) (l : Location) (v : Value) :
    (s.write l v).functions = s.functions := by
  cases l <;> rfl

theorem functions_setCell? {s s' : Store} {c : CellId} {v : Value}
    (h : s.setCell? c v = some s') : s'.functions = s.functions := by
  obtain ⟨l, -, rfl⟩ := Option.map_eq_some_iff.mp h
  exact functions_write s l v

theorem functions_closeCell? {s s' : Store} {c : CellId}
    (h : s.closeCell? c = some s') : s'.functions = s.functions := by
  obtain ⟨v, -, rfl⟩ := Option.map_eq_some_iff.mp h
  exact functions_write s (.cell c) v

@[simp] theorem functions_setFields (s : Store) (t : TableId) (fields : List (String × Value)) :
    (s.setFields t fields).functions = s.functions := by
  induction fields generalizing s with
  | nil => rfl
  | cons p fields ih => exact ih (s.setField t p.1 p.2)

@[simp] theorem functions_newInfoTable (s : Store) (info : SelectedInfo) :
    (s.newInfoTable info).1.functions = s.functions := by
  simp only [newInfoTable]
  split
  · rw [functions_setFields]
    rfl
  · rw [functions_setFields]
    rfl

end Store

namespace Machine

variable {P : Command → Prop} {m m' : Machine}

/-! ## The reflection interface -/

theorem calm_of_setLocal? {th : ThreadId} {level n : Int} {v : Value} {name : String}
    (h : m.setLocal? th level n v = some (name, m')) : Calm P m m' := by
  simp only [setLocal?, Option.bind_eq_bind, Option.bind_eq_some_iff, Prod.exists] at h
  obtain ⟨fr, -, name', store, hset, hm⟩ := h
  cases hm
  obtain ⟨p, -, hp⟩ := Option.map_eq_some_iff.mp hset
  cases hp
  exact .ofStore rfl

theorem calm_of_setUpvalue? {f : FunctionId} {n : Int} {v : Value} {name : String}
    (h : m.setUpvalue? f n v = some (name, m')) : Calm P m m' := by
  simp only [setUpvalue?, Option.bind_eq_bind, Option.bind_eq_some_iff] at h
  obtain ⟨cell, -, store, hset, hm⟩ := h
  cases hm
  exact .ofStore (Store.functions_setCell? hset)

theorem calm_of_joinUpvalues {f f' : FunctionId} {n n' : Int}
    (h : m.joinUpvalues f n f' n' = .ok m') : Calm P m m' := by
  simp only [joinUpvalues] at h
  split at h
  · cases h
  · cases h
  · split at h
    · cases h
    · cases h
    · cases h
      exact .setUpvalueCell _ _ _

theorem calm_of_setMetatable {v : Value} {mt : Option TableId}
    (h : m.setMetatable v mt = .ok m') : Calm P m m' := by
  simp only [setMetatable] at h
  split at h
  · split at h
    · cases h
      exact .ofStore rfl
    · cases h
  · split at h
    · cases h
      exact .ofStore rfl
    · cases h
  · cases h
    exact .kindMetatables _

theorem calm_of_setUserValue {target v : Value}
    (h : m.setUserValue target v = .ok m') : Calm P m m' := by
  simp only [setUserValue] at h
  split at h
  · split at h
    · split at h
      · cases h
        exact .ofStore rfl
      · cases h
    · cases h
  · cases h

/-! ## The library -/

/-- Either threads and journal stay as they are, or one thread gets another hook. -/
def Silent (P : Command → Prop) (m m' : Machine) : Prop :=
  Calm P m m' ∨ ∃ th f mask count, m' = m.setHook th f mask count

/-- Every machine that an outcome comes with satisfies a property. -/
def Leaves (Q : Machine → Prop) (x : LibraryOutcome) : Prop :=
  ∀ vs m', x = .ok (vs, m') → Q m'

section Leaves

variable {Q : Machine → Prop} {α : Type}

theorem leaves_ok {vs : List Value} (h : Q m') : Leaves Q (.ok (vs, m')) := by
  intro vs' m'' heq
  cases heq
  exact h

theorem leaves_error (e : NativeError) : Leaves Q (.error e) := by
  intro vs m' heq
  cases heq

theorem leaves_bind {x : Except NativeError α} {f : α → LibraryOutcome}
    (h : ∀ a, x = .ok a → Leaves Q (f a)) : Leaves Q (x >>= f) := by
  cases x with
  | error e => exact leaves_error e
  | ok a => exact h a rfl

/-- Errors of scripts turn into errors of native functions on the way. -/
theorem leaves_bind_mapError {x : Except ScriptError α} {f : α → LibraryOutcome}
    (h : ∀ a, x = .ok a → Leaves Q (f a)) : Leaves Q (x.mapError NativeError.ofScript >>= f) := by
  cases x with
  | error e => exact leaves_error _
  | ok a => exact h a rfl

end Leaves

variable {current : ThreadId} {args : List Value}

theorem infoResults_calm (m : Machine) (th : ThreadId) (target : InfoTarget) (what : String) :
    Calm P m (m.infoResults th target what).2 := by
  unfold infoResults
  split
  · exact .ofStore (Store.functions_newInfoTable _ _)
  · exact .refl m

theorem libGetInfo_leaves : Leaves (Calm P m) (m.libGetInfo current args) := by
  apply leaves_bind
  intro a _
  apply leaves_bind
  intro target _
  have hresults : ∀ what, Leaves (Calm P m) (.ok (m.infoResults a.thread target what)) :=
    fun what => leaves_ok (m.infoResults_calm a.thread target what)
  split
  · exact hresults _
  · exact hresults _
  · exact leaves_error _

theorem libGetLocal_leaves : Leaves (Calm P m) (m.libGetLocal current args) := by
  apply leaves_bind
  intro a _
  apply leaves_bind
  intro target _
  apply leaves_bind
  intro n _
  split <;> exact leaves_ok (.refl m)

theorem libSetLocal_leaves : Leaves (Calm P m) (m.libSetLocal current args) := by
  apply leaves_bind
  intro a _
  apply leaves_bind
  intro level _
  apply leaves_bind
  intro n _
  dsimp only
  split
  · rename_i hset
    exact leaves_ok (calm_of_setLocal? hset)
  · exact leaves_ok (.refl m)

theorem libSetUpvalue_leaves : Leaves (Calm P m) (m.libSetUpvalue args) := by
  apply leaves_bind
  intro f _
  apply leaves_bind
  intro n _
  split
  · rename_i hset
    exact leaves_ok (calm_of_setUpvalue? hset)
  · exact leaves_ok (.refl m)

theorem libUpvalueJoin_leaves : Leaves (Calm P m) (m.libUpvalueJoin args) := by
  apply leaves_bind
  intro f _
  apply leaves_bind
  intro n _
  apply leaves_bind
  intro f' _
  apply leaves_bind
  intro n' _
  apply leaves_bind_mapError
  intro m' hjoin
  exact leaves_ok (calm_of_joinUpvalues hjoin)

theorem libSetMetatable_leaves : Leaves (Calm P m) (m.libSetMetatable args) := by
  suffices ∀ mt, Leaves (Calm P m) (do
      let m' ← (m.setMetatable (args.getD 0 .nil) mt).mapError NativeError.ofScript
      pure ([args.getD 0 .nil], m')) by
    simp only [libSetMetatable]
    split
    · exact this _
    · exact this _
    · exact leaves_error _
  intro mt
  exact leaves_bind_mapError fun m' hset => leaves_ok (calm_of_setMetatable hset)

theorem libSetUserValue_leaves : Leaves (Calm P m) (m.libSetUserValue args) :=
  leaves_bind_mapError fun _ hset => leaves_ok (calm_of_setUserValue hset)

theorem libSetHook_leaves : Leaves (Silent P m) (m.libSetHook current args) := by
  apply leaves_bind
  intro a _
  split
  · exact leaves_ok (.inr ⟨_, _, _, _, rfl⟩)
  · suffices ∀ f mask, Leaves (Silent P m) (do
        let count ← optionalInteger LibraryFunction.setHook.name (a.position 2) 0 (a.get 2)
        pure ([], m.setHook a.thread (some f) mask (min count.toInt.toNat maxHookCount))) by
      split
      · exact this _ _
      · exact leaves_error _
    intro f mask
    exact leaves_bind fun count _ => leaves_ok (.inr ⟨_, _, _, _, rfl⟩)
  · exact leaves_error _

theorem libTraceback_leaves : Leaves (Calm P m) (m.libTraceback current args) := by
  apply leaves_bind
  intro a _
  have hdump : ∀ (default : Int64) (message : Option String), Leaves (Calm P m) (do
      let level ← optionalInteger LibraryFunction.traceback.name (a.position 1) default (a.get 1)
      pure ([.string (m.traceback a.thread message (m.stackLevel current a.thread level))], m)) :=
    fun _ _ => leaves_bind fun _ _ => leaves_ok (.refl m)
  dsimp only
  split
  · exact hdump _ _
  · exact hdump _ _
  · split
    · exact hdump _ _
    · exact leaves_ok (.refl m)

/-- What any function of the library does to a machine. -/
theorem run_leaves (f : LibraryFunction) : Leaves (Silent P m) (f.run m current args) := by
  have hcalm : ∀ {x : LibraryOutcome}, Leaves (Calm P m) x → Leaves (Silent P m) x :=
    fun h vs m' heq => .inl (h vs m' heq)
  have hread : ∀ {vs : List Value}, Leaves (Silent P m) (.ok (vs, m)) :=
    leaves_ok (.inl (.refl m))
  simp only [LibraryFunction.run]
  split
  · cases f
    case getInfo => exact hcalm libGetInfo_leaves
    case getLocal => exact hcalm libGetLocal_leaves
    case setLocal => exact hcalm libSetLocal_leaves
    case setUpvalue => exact hcalm libSetUpvalue_leaves
    case upvalueJoin => exact hcalm libUpvalueJoin_leaves
    case setMetatable => exact hcalm libSetMetatable_leaves
    case setUserValue => exact hcalm libSetUserValue_leaves
    case setHook => exact libSetHook_leaves
    case traceback => exact hcalm libTraceback_leaves
    case getRegistry => exact hread
    case getUserValue => exact hread
    case getHook => exact leaves_bind fun _ _ => hread
    case getUpvalue => exact leaves_bind fun _ _ => leaves_bind fun _ _ => hread
    case getMetatable =>
        simp only [libGetMetatable]
        split <;> exact hread
    case upvalueId =>
        apply leaves_bind
        intro f _
        apply leaves_bind
        intro n _
        split <;> exact hread
  · exact leaves_error _

section Registering

variable {I : Store → Prop}
  (hnew : ∀ s (f : LibraryFunction), I s → I (s.newFunction ⟨.native f.name, .library f⟩).1)
  (hother : ∀ s s', I s → s'.functions = s.functions → I s')

include hnew hother

private theorem foldl_newFunction_induction (table : TableId) (fs : List LibraryFunction)
    {s : Store} (h : I s) :
    I (fs.foldl (fun s f =>
      let (s, id) := s.newFunction ⟨.native f.name, .library f⟩
      s.setField table f.name (.function id)) s) := by
  induction fs generalizing s with
  | nil => exact h
  | cons f fs ih => exact ih (hother _ _ (hnew s f h) rfl)

/-- What every new function of the library keeps, and every change that leaves the functions
alone, is kept by registering the library. -/
theorem registerLibrary_induction (h : I m.store) : I m.registerLibrary.1.store := by
  simp only [Machine.registerLibrary]
  have htable : I m.store.newTable.1 := hother _ _ h rfl
  have hall := foldl_newFunction_induction hnew hother m.store.newTable.2 LibraryFunction.all htable
  split
  · exact hother _ _ hall rfl
  · exact hother _ _ hall rfl

end Registering

/-- Registering the library changes the objects only. -/
theorem registerLibrary_eq (m : Machine) :
    m.registerLibrary.1 = { m with store := m.registerLibrary.1.store } := by
  simp only [Machine.registerLibrary]

theorem Calm.registerLibrary (m : Machine) : Calm P m m.registerLibrary.1 := by
  rw [registerLibrary_eq]
  apply Calm.ofBodies
  intro h
  exact registerLibrary_induction (fun _ _ hs => hs.newFunction trivial) (fun _ _ => .congr) h

/-- An invariant that neither calm changes nor new hooks can break. -/
structure Steady (P : Command → Prop) (I : Machine → Prop) : Prop where
  calm : ∀ {m m'}, I m → Calm P m m' → I m'
  setHook : ∀ {m} th f mask count, I m → I (m.setHook th f mask count)

theorem Steady.silent {I : Machine → Prop} (hI : Steady P I) (hm : I m) (h : Silent P m m') :
    I m' := by
  obtain h | ⟨th, f, mask, count, rfl⟩ := h
  · exact hI.calm hm h
  · exact hI.setHook th f mask count hm

end Machine

end ScriptDebug
