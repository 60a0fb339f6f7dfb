import ScriptDebug.Proofs.CallStack.Represented
import ScriptDebug.Proofs.Library.LevelQuery

/-!
# Script levels

A script that calls a library function counts levels from its own call, as the typed
interface does before the library function is called.  The library function finds its own
call on the stack, unless the thread is inside a hook, and makes up for it.

## Implementation notes

Only stacks that represent a list of calls are considered.  There are no others in any
state of a run, by `Machine.Represented.reportInvariant`.
-/

namespace ScriptDebug

/-! ## The call of the library function -/

namespace Machine

variable {m : Machine} {th target : ThreadId} {g : FunctionId} {n : Int64} {l : List Frame}

/-- The machine when a native function has been entered. -/
def entered (m : Machine) (th : ThreadId) (g : FunctionId) : Machine := (m.noteCall th (.bare g)).1

theorem levelShift_ne (h : th ≠ target) : m.levelShift th target = 0 :=
  if_neg fun hc => h hc.1

theorem levelShift_inHook (hin : (m.hook th).inHook = true) : m.levelShift th th = 0 := by
  apply if_neg
  rintro ⟨-, hout⟩
  cases hin.symm.trans hout

/-- Where nothing is shifted the level is taken as it is. -/
theorem stackLevel_of_shift_zero (h : m.levelShift th target = 0) :
    m.stackLevel th target n = n.toInt := by
  rw [stackLevel, h, Int.add_zero]
  exact Int.min_eq_left n.toInt_le

/-- Outside a hook the library function finds its own call. -/
theorem levelShift_of_native {fr : Frame} (hout : (m.hook th).inHook = false)
    (hfr : (m.calls th).frame? 1 = some fr) (hnative : m.store.isNative fr.callee = true) :
    m.levelShift th th = 1 := by
  simp only [levelShift, hout, hfr, hnative, and_self, if_true]

theorem entered_outside (hout : (m.hook th).inHook = false) : m.entered th g =
    m.setThread th { m.thread th with stack := some ((m.calls th).push (.bare g)) } :=
  congrArg Prod.fst (noteCall_outside hout _)

theorem entered_inHook (hin : (m.hook th).inHook = true) : m.entered th g = m :=
  congrArg Prod.fst (noteCall_inHook hin _)

theorem entered_calls (hexists : (m.thread? th).isSome) (hout : (m.hook th).inHook = false) :
    (m.entered th g).calls th = (m.calls th).push (.bare g) := by
  rw [entered_outside hout, calls, thread_setThread_self hexists]
  rfl

theorem entered_calls_ne (h : th ≠ target) : (m.entered th g).calls target = m.calls target :=
  congrArg Thread.calls ((m.noteCall_noted th (.bare g)).others target h.symm)

theorem entered_store : (m.entered th g).store = m.store := (m.noteCall_noted th (.bare g)).store

/-- The own call of the library function is the innermost. -/
theorem frame?_entered (hrep : (m.calls th).Represents l) (hexists : (m.thread? th).isSome)
    (hout : (m.hook th).inHook = false) :
    ((m.entered th g).calls th).frame? 1 = some (.bare g) := by
  rw [entered_calls hexists hout, hrep.frame?_push]

/-- Outside a hook levels are one higher while the library function runs, up to the largest. -/
theorem stackLevel_entered (hrep : (m.calls th).Represents l) (hexists : (m.thread? th).isSome)
    (hout : (m.hook th).inHook = false) (hnative : m.store.isNative g = true) :
    (m.entered th g).stackLevel th th n = min (n.toInt + 1) Int64.maxValue.toInt := by
  have hout' : ((m.entered th g).hook th).inHook = false := by
    rw [entered_outside hout, hook_setThread_stack, hout]
  have hshift : (m.entered th g).levelShift th th = 1 := by
    apply levelShift_of_native hout' (frame?_entered hrep hexists hout)
    rw [entered_store]
    exact hnative
  rw [stackLevel, hshift]

end Machine

namespace Exec

open Machine

variable {s : Session} {th : ThreadId} {g : FunctionId} {name : String} {q : LibraryFunction}
  {args vs : List Value} {store : Store} {k : Nat}

theorem machine_apply (s : Session) : Exec.machine s = .ok s.machine s := rfl

theorem enter_quiet (caller : Caller) {fr : Frame} {m : Machine}
    (h : s.machine.noteCall th fr = (m, none)) :
    enter caller th fr s = .ok () { s with machine := m } := by
  simp only [enter, bind_apply, fromMachine, h]
  rfl

theorem leave_quiet (caller : Caller) {m : Machine} (h : s.machine.noteReturn th = (m, none)) :
    leave caller th s = .ok () { s with machine := m } := by
  simp only [leave, bind_apply, fromMachine, h]
  rfl

/-- A call of a library function whose notifications call for no events. -/
theorem call_library_ok {entered ran left : Machine}
    (hg : s.machine.store.function? g = some ⟨.native name, .library q⟩)
    (henter : s.machine.noteCall th (.bare g) = (entered, none))
    (hrun : q.run entered th args = .ok (vs, ran)) (hleave : ran.noteReturn th = (left, none)) :
    call (k + 1) th g args s = .ok vs { s with machine := left } := by
  have hentered := enter_quiet (call k) henter
  have hleft := leave_quiet (s := { s with machine := ran }) (call k) hleave
  have hnative : callNative (call k) (body k) g (.library q) th args s =
      .ok vs { s with machine := left } := by
    simp only [callNative, runNative, runLibrary, bind_apply, machine_apply, attempt, hentered,
      hrun, hleft]
    rfl
  rw [call_succ, ← hnative]
  simp only [invoke, bind_apply, machine_apply, hg]

/-- A call of a function gives an answer: its values and its objects.  The calls and the
hooks of all threads are as before. -/
def Answers (k : Nat) (th : ThreadId) (g : FunctionId) (args : List Value) (s : Session)
    (r : List Value × Machine) : Prop :=
  ∃ s', call (k + 1) th g args s = .ok r.1 s' ∧ s'.machine.store = r.2.store ∧
    ∀ th', (s'.machine.calls th').frames = (s.machine.calls th').frames ∧
      s'.machine.hook th' = s.machine.hook th'

theorem Answers.congr {r r' : List Value × Machine} (h : Answers k th g args s r)
    (hr : LevelQuery.SameAnswer r r') : Answers k th g args s r' := by
  obtain ⟨s', hcall, hstore, hkept⟩ := h
  exact ⟨s', hr.1 ▸ hcall, hstore.trans hr.2, hkept⟩

/-- Inside a hook the library function is not seen at all. -/
theorem answers_inHook (hg : s.machine.store.function? g = some ⟨.native name, .library q⟩)
    (hin : (s.machine.hook th).inHook = true)
    (hrun : q.run s.machine th args = .ok (vs, { s.machine with store })) :
    Answers k th g args s (vs, { s.machine with store }) :=
  ⟨_, call_library_ok hg (noteCall_inHook hin _) hrun (noteReturn_inHook hin), rfl,
    fun _ => ⟨rfl, rfl⟩⟩

/-- Outside a hook the library function is on the stack while it runs. -/
theorem answers_outside (hstacks : s.machine.Represented)
    (hexists : (s.machine.thread? th).isSome)
    (hg : s.machine.store.function? g = some ⟨.native name, .library q⟩)
    (hout : (s.machine.hook th).inHook = false)
    (hcall : (s.machine.hook th).callEvents = none)
    (hret : (s.machine.hook th).returnEvents = none)
    (hrun : q.run (s.machine.entered th g) th args =
      .ok (vs, { s.machine.entered th g with store })) :
    Answers k th g args s (vs, { s.machine.entered th g with store }) := by
  have henter : s.machine.noteCall th (.bare g) = (s.machine.entered th g, none) := by
    rw [← hcall, entered_outside hout]
    exact noteCall_outside hout _
  let ran : Machine := { s.machine.entered th g with store }
  have hcalls : ran.calls th = (s.machine.calls th).push (.bare g) := entered_calls hexists hout
  have hhook : ∀ th', ran.hook th' = s.machine.hook th' := by
    intro th'
    change (s.machine.entered th g).hook th' = s.machine.hook th'
    rw [entered_outside hout, hook_setThread_stack]
  have hleave : ran.noteReturn th =
      (ran.setThread th { ran.thread th with stack := some (ran.calls th).pop }, none) := by
    rw [noteReturn_outside ((congrArg (·.inHook) (hhook th)).trans hout), hhook, hret]
  refine ⟨_, call_library_ok hg henter hrun hleave, rfl, ?_⟩
  intro th'
  refine ⟨?_, (hook_setThread_stack ..).trans (hhook th')⟩
  by_cases hth : th = th'
  · subst hth
    have hexists' : (ran.thread? th).isSome := by
      change ((s.machine.entered th g).thread? th).isSome
      rw [entered_outside hout, thread?_setThread_isSome]
      exact hexists
    obtain ⟨l, hl⟩ := hstacks th
    have hleft : (ran.setThread th
        { ran.thread th with stack := some (ran.calls th).pop }).calls th =
          ((s.machine.calls th).push (.bare g)).pop := by
      rw [calls, thread_setThread_self hexists', hcalls]
      rfl
    rw [hleft, (hl.push _).pop.frames_eq, hl.frames_eq, List.tail_cons]
  · have hsame : (ran.setThread th
        { ran.thread th with stack := some (ran.calls th).pop }).calls th' =
          s.machine.calls th' := by
      rw [calls_setThread_ne hth]
      exact entered_calls_ne hth
    rw [hsame]

end Exec

/-! ## Levels as scripts count them -/

section ScriptLevels

open Exec

variable {s : Session} {th : ThreadId} {g : FunctionId} {name : String} {q : LevelQuery}
  {level : Value} {n : Int64} {args own : List Value} {k : Nat}

/-- What a call of the library function gives, in terms of its own level. -/
theorem answers_asked (hstacks : s.machine.Represented)
    (hexists : (s.machine.thread? th).isSome)
    (hg : s.machine.store.function? g = some ⟨.native name, .library q.function⟩)
    (hcall : (s.machine.hook th).callEvents = none)
    (hret : (s.machine.hook th).returnEvents = none)
    (hlevel : level.toInteger? = some n) (hasked : q.Asked level args) {target : ThreadId}
    {shift : Nat}
    (hown : Arguments.ofValues (s.machine.entered th g) th q.function.name own =
      .ok ⟨target, shift, args⟩) :
    Answers k th g own s (q.answer (s.machine.entered th g) target
      ((s.machine.entered th g).stackLevel th target n)) := by
  have hexists' : ((s.machine.entered th g).thread? th).isSome := by
    rw [Machine.entered, Machine.noteCall, Machine.putThread, Machine.thread?_setThread_isSome]
    exact hexists
  have hrun := LevelQuery.run_asked hexists' hown hasked hlevel
  obtain ⟨store, hstore⟩ := q.answer_machine (s.machine.entered th g) target
    ((s.machine.entered th g).stackLevel th target n)
  rw [← Prod.eta (q.answer _ _ _), hstore] at hrun ⊢
  cases hin : (s.machine.hook th).inHook with
  | true =>
      rw [Machine.entered_inHook hin] at hrun ⊢
      exact answers_inHook hg hin hrun
  | false => exact answers_outside hstacks hexists hg hin hcall hret hrun

/-- Outside a hook a level from 1 outward means the same to the library function as it did
before the call. -/
theorem answer_entered {m : Machine} {l : List Frame} (hrep : (m.calls th).Represents l)
    (hexists : (m.thread? th).isSome) (hout : (m.hook th).inHook = false)
    (hfirst : ∀ fr ∈ (m.calls th).frames, fr.callee ≠ g)
    (hdepth : n = Int64.maxValue → (m.depth th : Int) + 1 < n.toInt) (hn : 1 ≤ n.toInt) :
    LevelQuery.SameAnswer
      (q.answer (m.entered th g) th (min (n.toInt + 1) Int64.maxValue.toInt))
      (q.answer m th n.toInt) := by
  have hcalls := Machine.entered_calls (g := g) hexists hout
  have hpush : LevelQuery.SameAnswer (q.answer (m.entered th g) th (n.toInt + 1))
      (q.answer m th n.toInt) :=
    LevelQuery.answer_push hrep hcalls Machine.entered_store rfl hfirst hn
  by_cases hmax : n = Int64.maxValue
  · have hbound := hdepth hmax
    have hlevel : min (n.toInt + 1) Int64.maxValue.toInt = n.toInt := by
      rw [← hmax]
      omega
    have hdeep : (((m.entered th g).calls th).depth : Int) < n.toInt := by
      rw [hcalls, CallStack.push_depth]
      exact hbound
    have hbeyond : LevelQuery.SameAnswer (q.answer (m.entered th g) th n.toInt)
        (q.answer (m.entered th g) th (n.toInt + 1)) :=
      LevelQuery.answer_of_depth_lt (l := .bare g :: l) (hcalls ▸ hrep.push _) (by omega) hdeep
    rw [hlevel]
    exact ⟨hbeyond.1.trans hpush.1, hbeyond.2.trans hpush.2⟩
  · have hlevel : min (n.toInt + 1) Int64.maxValue.toInt = n.toInt + 1 := by
      have hne : n.toInt ≠ Int64.maxValue.toInt := fun heq => hmax (Int64.toInt_inj.mp heq)
      have hle := n.toInt_le
      omega
    rw [hlevel]
    exact hpush

/-- The levels that a script passes are those of the typed interface before the call: from
1 outward, on its own thread inside and outside a hook, and all levels on other threads.
Level 0 is the library function itself outside a hook; otherwise no call is at levels below
1.  Stacks are represented in every state of every run.  The largest level alone takes a
stack that a machine has room for, since levels end there. -/
theorem script_levels_are_callers_levels (hstacks : s.machine.Represented)
    (hexists : (s.machine.thread? th).isSome)
    (hg : s.machine.store.function? g = some ⟨.native name, .library q.function⟩)
    (hcall : (s.machine.hook th).callEvents = none)
    (hret : (s.machine.hook th).returnEvents = none)
    (hfirst : ∀ fr ∈ (s.machine.calls th).frames, fr.callee ≠ g)
    (hlevel : level.toInteger? = some n) (hasked : q.Asked level args)
    (hdepth : n = Int64.maxValue → (s.machine.depth th : Int) + 1 < n.toInt) (k : Nat) :
    let m := s.machine
    let running := m.entered th g
    (∀ own, own = args ∨ own = .thread th :: args →
      (1 ≤ n.toInt → Answers k th g own s (q.answer m th n.toInt)) ∧
      ((m.hook th).inHook = false → n.toInt = 0 →
        (running.calls th).frame? 1 = some (.bare g) ∧
          Answers k th g own s (q.answer running th 1)) ∧
      ((m.hook th).inHook = false → n.toInt < 0 →
        Answers k th g own s (q.absent running th)) ∧
      ((m.hook th).inHook = true → n.toInt ≤ 0 → Answers k th g own s (q.absent m th))) ∧
    ∀ target, (m.thread? target).isSome → target ≠ th →
      Answers k th g (.thread target :: args) s (q.answer m target n.toInt) := by
  intro m running
  obtain ⟨l, hrep⟩ := hstacks th
  have hnative : m.store.isNative g = true := by
    simp only [m, Store.isNative, Store.nativeName?, Store.callable?, hg]
    rfl
  have hthreads : ∀ target, (running.thread? target).isSome = (m.thread? target).isSome := by
    intro target
    exact Machine.thread?_setThread_isSome m th _ target
  have hasks : ∀ {target shift own}, Arguments.ofValues running th q.function.name own =
      .ok ⟨target, shift, args⟩ →
        Answers k th g own s (q.answer running target (running.stackLevel th target n)) :=
    fun hown => answers_asked hstacks hexists hg hcall hret hlevel hasked hown
  constructor
  · intro own hown
    have hanswers : Answers k th g own s (q.answer running th (running.stackLevel th th n)) := by
      obtain rfl | rfl := hown
      · exact hasks (hasked.ofValues hlevel _)
      · exact hasks (LevelQuery.ofValues_thread ((hthreads th).trans hexists) _ _)
    cases hin : (m.hook th).inHook with
    | true =>
        have hrunning : running = m := Machine.entered_inHook hin
        rw [hrunning, Machine.stackLevel_of_shift_zero (Machine.levelShift_inHook hin)] at hanswers
        refine ⟨fun _ => hanswers, (by simp), (by simp), ?_⟩
        intro _ hn
        rw [← LevelQuery.answer_of_lt_one (k := n.toInt) (by omega)]
        exact hanswers
    | false =>
        rw [Machine.stackLevel_entered hrep hexists hin hnative] at hanswers
        refine ⟨?_, ?_, ?_, (by simp)⟩
        · intro hn
          exact hanswers.congr (answer_entered hrep hexists hin hfirst hdepth hn)
        · intro _ hn
          rw [hn] at hanswers
          exact ⟨Machine.frame?_entered hrep hexists hin, hanswers⟩
        · intro _ hn
          rw [← LevelQuery.answer_of_lt_one (k := min (n.toInt + 1) Int64.maxValue.toInt)
            (by omega)]
          exact hanswers
  · intro target htarget hne
    have hown := hasks (LevelQuery.ofValues_thread ((hthreads target).trans htarget)
      q.function.name args)
    rw [Machine.stackLevel_of_shift_zero (Machine.levelShift_ne hne.symm)] at hown
    exact hown.congr (LevelQuery.answer_congr (Machine.entered_calls_ne hne.symm)
      Machine.entered_store rfl _)

end ScriptLevels

/-- A thread in a call of a script function with one local, and the library function that
reads locals. -/
def levelSession : Session :=
  let p : Prototype := ⟨none, 0, 0, 0, false, 1, #[], #[], #[], [⟨"x", 0, 1⟩], #[]⟩
  let start := Session.start ⟨[], .default, false, true⟩
  let machine := start.machine.setThread Machine.mainThread
    ⟨some (CallStack.empty.push (.script ⟨1⟩ [] ⟨0⟩ 1)), .initial⟩
  { start with machine := { machine with
      store := { machine.store with
        functions := #[⟨.native "getlocal", .library .getLocal⟩, ⟨.script p #[], .scripted "f" []⟩]
        windows := #[#[.integer 7]] } } }

/-- Level 1, also as a float, is the call of the script function. -/
theorem level_one_is_caller : ∃ s', Exec.call 1 Machine.mainThread ⟨0⟩
    [.float ⟨0x3FF0000000000000⟩, .integer 1] levelSession =
      .ok [.string "x", .integer 7] s' := by
  have hstacks : levelSession.machine.Represented := by
    have hstart : (Session.start ⟨[], .default, false, true⟩).machine.Represented :=
      Session.represented_run (show (Session.start _).run [] = some ([], _) from rfl)
    have hcalls : ∃ l, (Thread.mk (some (CallStack.empty.push (.script ⟨1⟩ [] ⟨0⟩ 1)))
        .initial).calls.Represents l :=
      ⟨_, CallStack.Represents.empty.push (.script ⟨1⟩ [] ⟨0⟩ 1)⟩
    exact (hstart.setThread Machine.mainThread hcalls).congr fun _ => rfl
  have hg : levelSession.machine.store.function? ⟨0⟩ =
      some ⟨.native "getlocal", .library (LevelQuery.getLocal 1).function⟩ := rfl
  have hlevel : (Value.float ⟨0x3FF0000000000000⟩).toInteger? = some 1 := by decide +kernel
  have hasked : (LevelQuery.getLocal 1).Asked (.float ⟨0x3FF0000000000000⟩)
      [.float ⟨0x3FF0000000000000⟩, .integer 1] := .getLocal rfl
  have hfirst : ∀ fr ∈ (levelSession.machine.calls Machine.mainThread).frames,
      fr.callee ≠ ⟨0⟩ := by decide +kernel
  obtain ⟨hown, -⟩ := script_levels_are_callers_levels hstacks (by decide +kernel) hg
    (by decide +kernel) (by decide +kernel) hfirst hlevel hasked (by decide) 0
  obtain ⟨s', hcall, -⟩ := (hown _ (.inl rfl)).1 (by decide)
  have hvalues : ((LevelQuery.getLocal 1).answer levelSession.machine Machine.mainThread
      (1 : Int64).toInt).1 = [.string "x", .integer 7] := by decide +kernel
  exact ⟨s', hvalues ▸ hcall⟩

end ScriptDebug
