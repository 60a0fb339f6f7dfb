import ScriptDebug.Proofs.Hook.Mark

/-!
# Installing hooks from scripts

A script installs a hook in one piece.  Either all arguments are good, and the thread gets
the function, the mask and the count that they ask for and starts counting anew, or one of
them is not, and nothing happens to any thread.

## Implementation notes

What arguments ask for (`HookRequest`) and what is wrong with them (`HookRefused`) is told
from the whole list of arguments, by indices into it; a thread in front moves the others.
-/

namespace ScriptDebug

/-! ## Arguments with an optional thread -/

/-- How many threads stand in front of the arguments proper. -/
def leadingThreads : List Value → Nat
  | .thread _ :: _ => 1
  | _ => 0

/-- The thread that arguments are about: the one in front, or else the calling one. -/
def addressed (current : ThreadId) : List Value → ThreadId
  | .thread th :: _ => th
  | _ => current

theorem getD_leadingThreads (args : List Value) (n : Nat) :
    args.getD (leadingThreads args + n) .nil = (args.drop (leadingThreads args)).getD n .nil := by
  rw [List.getD_eq_getElem?_getD, List.getD_eq_getElem?_getD, List.getElem?_drop]

namespace Arguments

variable {m : Machine} {current : ThreadId}

/-- The arguments as they are understood. -/
def understood (current : ThreadId) (args : List Value) : Arguments :=
  ⟨addressed current args, leadingThreads args, args.drop (leadingThreads args)⟩

/-- Only the thread in front can be refused. -/
theorem ofValues_eq (hcurrent : (m.thread? current).isSome) (function : String)
    (args : List Value) : ofValues m current function args =
      if (m.thread? (addressed current args)).isSome then .ok (understood current args)
      else .error (.badArgument 1 function "invalid thread") := by
  cases args with
  | nil => exact (if_pos hcurrent).symm
  | cons v rest =>
    cases v with
    | thread th => rfl
    | _ => exact (if_pos hcurrent).symm

@[simp] theorem thread_understood (args : List Value) :
    (understood current args).thread = addressed current args := rfl

@[simp] theorem get_understood (args : List Value) (n : Nat) :
    (understood current args).get n = args.getD (leadingThreads args + n) .nil :=
  (getD_leadingThreads args n).symm

@[simp] theorem position_understood (args : List Value) (n : Nat) :
    (understood current args).position n = leadingThreads args + n + 1 := rfl

end Arguments

/-! ## What arguments ask for -/

/-- The count that an argument stands for; it may be missing. -/
inductive HookCount : Value → Int → Prop
  | missing : HookCount .nil 0
  | number {v : Value} {i : Int64} (h : v.toInteger? = some i) : HookCount v i.toInt

/-- The function, the mask and the count that arguments ask for.  Without a function nothing
else is looked at. -/
inductive HookRequest (args : List Value) : Option FunctionId → String → Int → Prop
  | remove (h : args.getD (leadingThreads args) .nil = .nil) : HookRequest args none "" 0
  | install {f : FunctionId} {mask : String} {count : Int}
      (hf : args.getD (leadingThreads args) .nil = .function f)
      (hmask : args.getD (leadingThreads args + 1) .nil = .string mask)
      (hcount : HookCount (args.getD (leadingThreads args + 2) .nil) count) :
      HookRequest args (some f) mask count

theorem HookRequest.of_none {args : List Value} {f : Option FunctionId} {mask : String}
    {count : Int} (h : HookRequest args f mask count) (hf : f = none) : mask = "" ∧ count = 0 := by
  cases h with
  | remove => exact ⟨rfl, rfl⟩
  | install => cases hf

/-- The first thing that is wrong with arguments: its position among them all, and the
complaint about it. -/
inductive HookRefused (m : Machine) (current : ThreadId) (args : List Value) :
    Nat → String → Prop
  | thread {th : ThreadId} {rest : List Value} (hargs : args = .thread th :: rest)
      (hth : ¬ (m.thread? th).isSome) : HookRefused m current args 1 "invalid thread"
  | function {v : Value} (hth : (m.thread? (addressed current args)).isSome)
      (hv : args.getD (leadingThreads args) .nil = v) (hnil : v ≠ .nil)
      (hwrong : ∀ f, v ≠ .function f) :
      HookRefused m current args (leadingThreads args + 1) (mismatchText "function" v)
  | mask {f : FunctionId} {v : Value} (hth : (m.thread? (addressed current args)).isSome)
      (hf : args.getD (leadingThreads args) .nil = .function f)
      (hv : args.getD (leadingThreads args + 1) .nil = v) (hwrong : ∀ s, v ≠ .string s) :
      HookRefused m current args (leadingThreads args + 2) (mismatchText "string" v)
  | count {f : FunctionId} {mask : String} {v : Value}
      (hth : (m.thread? (addressed current args)).isSome)
      (hf : args.getD (leadingThreads args) .nil = .function f)
      (hmask : args.getD (leadingThreads args + 1) .nil = .string mask)
      (hv : args.getD (leadingThreads args + 2) .nil = v) (hnil : v ≠ .nil)
      (hwrong : v.toInteger? = none) :
      HookRefused m current args (leadingThreads args + 3) (mismatchText "number" v)

section Arguments

variable {m : Machine} {current : ThreadId} {args : List Value}

theorem optionalInteger_of_hookCount {v : Value} {count : Int} (h : HookCount v count)
    (function : String) (position : Nat) :
    ∃ i, optionalInteger function position 0 v = .ok i ∧ i.toInt = count := by
  cases h with
  | missing => exact ⟨0, rfl, rfl⟩
  | @number _ i hi =>
    refine ⟨i, ?_, rfl⟩
    have hnil : v.isNil = false := by
      cases v <;> first | rfl | cases hi
    simp only [optionalInteger, hnil, Bool.false_eq_true, if_false, integerArgument, hi]

theorem optionalInteger_of_wrong {v : Value} (hnil : v ≠ .nil) (h : v.toInteger? = none)
    (function : String) (position : Nat) : optionalInteger function position 0 v =
      .error (.typeMismatch position function "number" v) := by
  have hnil' : v.isNil = false := by simpa [Value.isNil] using hnil
  simp only [optionalInteger, hnil', Bool.false_eq_true, if_false, integerArgument, h]

theorem hookCount_or_wrong (v : Value) :
    (∃ count, HookCount v count) ∨ (v ≠ .nil ∧ v.toInteger? = none) := by
  by_cases hnil : v = .nil
  · subst hnil
    exact .inl ⟨0, .missing⟩
  · cases hv : v.toInteger? with
    | some i => exact .inl ⟨_, .number hv⟩
    | none => exact .inr ⟨hnil, rfl⟩

/-- Arguments are good or wrong. -/
theorem hookRefused_or_request (hcurrent : (m.thread? current).isSome) (args : List Value) :
    (∃ position complaint, HookRefused m current args position complaint) ∨
      ((m.thread? (addressed current args)).isSome ∧
        ∃ f mask count, HookRequest args f mask count) := by
  by_cases hth : (m.thread? (addressed current args)).isSome
  · cases hf : args.getD (leadingThreads args) .nil with
    | nil => exact .inr ⟨hth, _, _, _, .remove hf⟩
    | function f =>
      cases hmask : args.getD (leadingThreads args + 1) .nil with
      | string mask =>
        obtain ⟨count, hcount⟩ | ⟨hnil, hwrong⟩ :=
          hookCount_or_wrong (args.getD (leadingThreads args + 2) .nil)
        · exact .inr ⟨hth, _, _, _, .install hf hmask hcount⟩
        · exact .inl ⟨_, _, .count hth hf hmask rfl hnil hwrong⟩
      | _ => exact .inl ⟨_, _, .mask hth hf hmask fun _ => Value.noConfusion⟩
    | _ =>
      exact .inl ⟨_, _, .function hth hf Value.noConfusion fun _ => Value.noConfusion⟩
  · cases args with
    | nil => exact absurd hcurrent hth
    | cons v rest =>
      cases v with
      | thread th => exact .inl ⟨_, _, .thread rfl hth⟩
      | _ => exact absurd hcurrent hth

end Arguments

/-! ## What hooks are told as -/

/-- The letters for events that occur in a text, each once and in their order. -/
def hookLetters (mask : String) : String :=
  String.ofList ("clr".toList.filter fun c => mask.toList.contains c)

theorem HookMask.text_ofString (mask : String) :
    (HookMask.ofString mask).text = hookLetters mask := by
  have hletters : "clr".toList = ['c', 'l', 'r'] := rfl
  simp only [ofString_eq, text, hookLetters, hletters, List.filter_cons, List.filter_nil]
  by_cases hc : mask.toList.contains 'c' = true <;>
    by_cases hl : mask.toList.contains 'l' = true <;>
      by_cases hr : mask.toList.contains 'r' = true <;> simp only [hc, hl, hr] <;> rfl

/-- A function, letters and a count as the results of `gethook`. -/
def hookResults (f : Option FunctionId) (letters : String) (count : Int) : List Value :=
  [match f with
    | some f => .function f
    | none => .nil,
    .string letters, .integer (.ofInt count)]

/-! ## Replacing hooks -/

namespace Machine

theorem maxHookCount_eq : maxHookCount = 4294967295 := by decide

/-- The count of a hook for the count that is asked for. -/
def clampedCount (count : Int) : Nat := min count.toNat maxHookCount

theorem clampedCount_eq (count : Int) :
    (clampedCount count : Int) = max 0 (min count 4294967295) := by
  rw [clampedCount, maxHookCount_eq]
  omega

end Machine

namespace Hook

section Replace

variable (h : Hook) (f : Option FunctionId) (mask : String) (count : Nat)

@[simp] theorem function_replace : (h.replace f mask count).function = f := by
  cases f <;> rfl

@[simp] theorem counter_replace : (h.replace f mask count).counter = 0 := by
  cases f <;> rfl

@[simp] theorem lastLine_replace : (h.replace f mask count).lastLine = none := by
  cases f <;> rfl

variable {f mask count}

theorem text_replace (count : Nat) (hremove : f = none → mask = "") :
    (h.replace f mask count).mask.text = hookLetters mask := by
  cases f with
  | none =>
    rw [hremove rfl]
    rfl
  | some f => exact HookMask.text_ofString mask

theorem count_replace (hremove : f = none → count = 0) :
    (h.replace f mask count).count = count := by
  cases f with
  | none => exact (hremove rfl).symm
  | some f => rfl

end Replace

/-- Without a function a hook has neither a mask nor a count. -/
def Regular (h : Hook) : Prop := h.function = none → h.mask = .empty ∧ h.count = 0

namespace Regular

variable {h h' : Hook}

theorem of_sameSetup (hreg : h.Regular) (hs : SameSetup h h') : h'.Regular := by
  intro hnone
  rw [hs.mask, hs.count]
  exact hreg (hs.function.symm.trans hnone)

theorem replace (h : Hook) (f : Option FunctionId) (mask : String) (count : Nat) :
    (h.replace f mask count).Regular := by
  intro hnone
  cases f with
  | none => exact ⟨rfl, rfl⟩
  | some f => cases hnone

/-- What a regular hook is told as asks for that hook. -/
theorem hookRequest (hreg : h.Regular) (hcount : h.count ≤ Machine.maxHookCount) {args : List Value}
    (hargs : args.drop (leadingThreads args) = hookResults h.function h.mask.text h.count) :
    HookRequest args h.function h.mask.text h.count := by
  have hget : ∀ n, args.getD (leadingThreads args + n) .nil =
      (hookResults h.function h.mask.text h.count).getD n .nil := by
    intro n
    rw [getD_leadingThreads, hargs]
  cases hf : h.function with
  | none =>
    obtain ⟨hmask, hcount⟩ := hreg hf
    rw [hmask, hcount]
    refine .remove ((hget 0).trans ?_)
    rw [hf]
    rfl
  | some f =>
    have hnumber : HookCount (.integer (.ofInt h.count)) (Int64.ofInt h.count).toInt :=
      .number rfl
    rw [Machine.maxHookCount_eq] at hcount
    rw [Int64.toInt_ofInt_of_le (by omega) (by omega)] at hnumber
    refine .install ((hget 0).trans ?_) (hget 1) ?_
    · rw [hf]
      rfl
    · rw [hget 2]
      exact hnumber

/-- Installing what a regular hook is told as gives the configuration of that hook. -/
theorem replace_eq_install (hreg : h.Regular) (hcount : h.count ≤ Machine.maxHookCount)
    (h' : Hook) : h'.replace h.function h.mask.text (Machine.clampedCount h.count) =
      h'.install h.function h.mask h.count := by
  have hclamped : Machine.clampedCount h.count = h.count := by
    rw [Machine.clampedCount, Int.toNat_natCast, Nat.min_eq_left hcount]
  cases hf : h.function with
  | none =>
    obtain ⟨hmask, hzero⟩ := hreg hf
    rw [hmask, hzero]
    rfl
  | some f => rw [hclamped, Hook.replace, HookMask.ofString_text]

end Regular

end Hook

namespace Machine

variable {m m' : Machine} {current th : ThreadId} {args : List Value}

/-! ## Refusal -/

theorem libSetHook_of_refused {position : Nat} {complaint : String}
    (hcurrent : (m.thread? current).isSome) (h : HookRefused m current args position complaint) :
    m.libSetHook current args =
      .error (.badArgument position LibraryFunction.setHook.name complaint) := by
  simp only [libSetHook, Arguments.ofValues_eq hcurrent]
  cases h with
  | @thread th rest hargs hth =>
    subst hargs
    have habsent : ¬ (m.thread? (addressed current (.thread th :: rest))).isSome := hth
    simp only [if_neg habsent]
    rfl
  | @function v hth hv hnil hwrong =>
    simp only [if_pos hth, bind, Except.bind, Arguments.get_understood, Nat.add_zero, hv]
    cases v with
    | nil => exact absurd rfl hnil
    | function f => exact absurd rfl (hwrong f)
    | _ => rfl
  | @mask f v hth hf hv hwrong =>
    simp only [if_pos hth, bind, Except.bind, Arguments.get_understood, Nat.add_zero, hf, hv]
    cases v with
    | string s => exact absurd rfl (hwrong s)
    | _ => rfl
  | count hth hf hmask hv hnil hwrong =>
    simp only [if_pos hth, bind, Except.bind, Arguments.get_understood, Nat.add_zero, hf, hmask,
      hv, optionalInteger_of_wrong hnil hwrong]
    rfl

/-! ## Installation -/

theorem libSetHook_of_request {f : Option FunctionId} {mask : String} {count : Int}
    (hcurrent : (m.thread? current).isSome) (hth : (m.thread? (addressed current args)).isSome)
    (h : HookRequest args f mask count) : m.libSetHook current args =
      .ok ([], m.setHook (addressed current args) f mask (clampedCount count)) := by
  simp only [libSetHook, Arguments.ofValues_eq hcurrent, if_pos hth]
  cases h with
  | remove h =>
    simp only [bind, Except.bind, Arguments.get_understood, Nat.add_zero, h]
    rfl
  | install hf hmask hcount =>
    obtain ⟨i, hi, rfl⟩ := optionalInteger_of_hookCount hcount LibraryFunction.setHook.name
      ((Arguments.understood current args).position 2)
    simp only [bind, Except.bind, Arguments.get_understood, Nat.add_zero, hf, hmask, hi]
    rfl

/-- A thread has a hook installed, with the effects that are seen of it. -/
structure HookReplaced (m : Machine) (th : ThreadId) (f : Option FunctionId) (mask : String)
    (count : Int) (m' : Machine) : Prop where
  function : (m'.hook th).function = f
  letters : (m'.hook th).mask.text = hookLetters mask
  clamped : ((m'.hook th).count : Int) = max 0 (min count 4294967295)
  counter : (m'.hook th).counter = 0
  lastLine : (m'.hook th).lastLine = none
  inHook : (m'.hook th).inHook = (m.hook th).inHook
  stack : (m'.thread th).stack = (m.thread th).stack
  others : ∀ th', th' ≠ th → m'.thread th' = m.thread th'
  present : ∀ th', (m'.thread? th').isSome = (m.thread? th').isSome
  rest : m' = { m with threads := m'.threads, journal := m'.journal }
  /-- What `gethook` tells any thread that asks for this one. -/
  reported : ∀ asker args, (m.thread? asker).isSome → addressed asker args = th →
    LibraryFunction.getHook.run m' asker args =
      .ok (hookResults f (hookLetters mask) (max 0 (min count 4294967295)), m')
  regular : (m'.hook th).Regular

theorem libGetHook_eq (hcurrent : (m.thread? current).isSome)
    (hth : (m.thread? (addressed current args)).isSome) : m.libGetHook current args =
      .ok (hookResults (m.hook (addressed current args)).function
        (m.hook (addressed current args)).mask.text (m.hook (addressed current args)).count, m) := by
  simp only [libGetHook, Arguments.ofValues_eq hcurrent, if_pos hth, hookResults,
    Int64.ofInt_eq_ofNat]
  rfl

theorem hookReplaced_setHook {f : Option FunctionId} {mask : String} {count : Int}
    (hth : (m.thread? th).isSome) (hremove : f = none → mask = "" ∧ count = 0) :
    m.HookReplaced th f mask count (m.setHook th f mask (clampedCount count)) := by
  have hthread := thread_setHook_self hth f mask (clampedCount count)
  have hhook : (m.setHook th f mask (clampedCount count)).hook th =
      (m.hook th).replace f mask (clampedCount count) := congrArg (·.hook) hthread
  have hpresent : ∀ th', ((m.setHook th f mask (clampedCount count)).thread? th').isSome =
      (m.thread? th').isSome := thread?_setThread_isSome m th _
  have hletters := (m.hook th).text_replace (clampedCount count) fun hf => (hremove hf).1
  have hclamped : (((m.hook th).replace f mask (clampedCount count)).count : Int) =
      max 0 (min count 4294967295) := by
    rw [Hook.count_replace, clampedCount_eq]
    intro hf
    rw [(hremove hf).2]
    rfl
  exact
    { function := by rw [hhook, Hook.function_replace]
      letters := by rw [hhook, hletters]
      clamped := by rw [hhook, hclamped]
      counter := by rw [hhook, Hook.counter_replace]
      lastLine := by rw [hhook, Hook.lastLine_replace]
      inHook := by rw [hhook, Hook.replace_inHook]
      stack := by rw [hthread]
      others := fun th' hne => thread_setHook_ne hne.symm f mask _
      present := hpresent
      rest := rfl
      reported := by
        intro asker args hold haddressed
        have hasker := (hpresent asker).trans hold
        have hth' : ((m.setHook th f mask (clampedCount count)).thread?
            (addressed asker args)).isSome := by
          rw [haddressed, hpresent, hth]
        simp only [LibraryFunction.run, libGetHook_eq hasker hth', haddressed, hhook,
          Hook.function_replace, hletters, hclamped]
        exact if_pos hasker
      regular := by
        rw [hhook]
        exact Hook.Regular.replace _ f mask _ }

end Machine

/-! ## Regular hooks -/

theorem Hook.Regular.threadInvariant : Exec.ThreadInvariant fun t => t.hook.Regular where
  setHook {t} f mask count _ := .replace t.hook f mask count
  setInHook _ ht := ht
  unwindTo d ht := by
    rw [Thread.hook_unwindTo]
    exact ht
  noted hn ht := ht.of_sameSetup hn.setup

/-- Hooks are regular in every state between the commands of a session. -/
theorem Session.regular_run {setup : SessionSetup} {s : Session} {cs : List Command}
    {reports : List StepReport} (h : (start setup).run cs = some (reports, s)) :
    s.machine.Throughout fun t => t.hook.Regular :=
  throughout_run Hook.Regular.threadInvariant (fun _ => ⟨rfl, rfl⟩) h

namespace Exec

variable {s : Session} {current : ThreadId} {args : List Value}

theorem runLibrary_getHook (hcurrent : (s.machine.thread? current).isSome)
    (hth : (s.machine.thread? (addressed current args)).isSome) :
    runLibrary .getHook current args s =
      .ok (hookResults (s.machine.hook (addressed current args)).function
        (s.machine.hook (addressed current args)).mask.text
        (s.machine.hook (addressed current args)).count) s := by
  simp only [runLibrary, LibraryFunction.run, if_pos hcurrent, Machine.libGetHook_eq hcurrent hth]

theorem runLibrary_setHook_of_refused {position : Nat} {complaint : String}
    (hcurrent : (s.machine.thread? current).isSome)
    (h : HookRefused s.machine current args position complaint) :
    runLibrary .setHook current args s = .error (.raised (.ofNative
      (.badArgument position LibraryFunction.setHook.name complaint))) s := by
  simp only [runLibrary, LibraryFunction.run, if_pos hcurrent,
    Machine.libSetHook_of_refused hcurrent h]

theorem runLibrary_setHook_of_request {f : Option FunctionId} {mask : String} {count : Int}
    (hcurrent : (s.machine.thread? current).isSome)
    (hth : (s.machine.thread? (addressed current args)).isSome)
    (h : HookRequest args f mask count) : runLibrary .setHook current args s =
      .ok [] { s with machine :=
        s.machine.setHook (addressed current args) f mask (Machine.clampedCount count) } := by
  simp only [runLibrary, LibraryFunction.run, if_pos hcurrent,
    Machine.libSetHook_of_request hcurrent hth h]

/-- A call of `sethook` is refused over its first wrong argument and changes nothing, or else
replaces the hook of the thread that is addressed and nothing besides.  What `gethook` told
of a hook installs the same configuration again, at any later time and for any thread; that
the hook is regular is no restriction, since the hooks in all runs are. -/
theorem setHook_refused_or_replaced :
    (∀ (s : Session) (current : ThreadId) (args : List Value),
      (s.machine.thread? current).isSome →
      (∃ position complaint, HookRefused s.machine current args position complaint ∧
        runLibrary .setHook current args s = .error (.raised (.ofNative
          (.badArgument position LibraryFunction.setHook.name complaint))) s) ∨
      ∃ f mask count m', HookRequest args f mask count ∧
        runLibrary .setHook current args s = .ok [] { s with machine := m' } ∧
        s.machine.HookReplaced (addressed current args) f mask count m') ∧
    (∀ (s : Session) (current : ThreadId) (args : List Value) (h : Hook),
      (s.machine.thread? current).isSome →
      (s.machine.thread? (addressed current args)).isSome →
      s.machine.hook (addressed current args) = h →
      h.Regular → h.count ≤ Machine.maxHookCount →
      ∃ answer, runLibrary .getHook current args s = .ok answer s ∧
        ∀ (s' : Session) (current' : ThreadId) (args' : List Value),
          (s'.machine.thread? current').isSome →
          (s'.machine.thread? (addressed current' args')).isSome →
          args'.drop (leadingThreads args') = answer →
          ∃ m', runLibrary .setHook current' args' s' = .ok [] { s' with machine := m' } ∧
            m'.hook (addressed current' args') =
              (s'.machine.hook (addressed current' args')).install h.function h.mask h.count) ∧
    ∀ (setup : SessionSetup) (cs : List Command) (reports : List StepReport) (s : Session),
      (Session.start setup).run cs = some (reports, s) →
        ∀ th, (s.machine.hook th).Regular := by
  refine ⟨?_, ?_, fun _ _ _ _ => Session.regular_run⟩
  · intro s current args hcurrent
    obtain ⟨position, complaint, hrefused⟩ | ⟨hth, f, mask, count, hrequest⟩ :=
      hookRefused_or_request hcurrent args
    · exact .inl ⟨position, complaint, hrefused, runLibrary_setHook_of_refused hcurrent hrefused⟩
    · exact .inr ⟨f, mask, count, _, hrequest,
        runLibrary_setHook_of_request hcurrent hth hrequest,
        Machine.hookReplaced_setHook hth hrequest.of_none⟩
  · intro s current args h hcurrent hth hh hreg hcount
    subst hh
    refine ⟨_, runLibrary_getHook hcurrent hth, ?_⟩
    intro s' current' args' hcurrent' hth' hanswer
    refine ⟨_, runLibrary_setHook_of_request hcurrent' hth' (hreg.hookRequest hcount hanswer), ?_⟩
    rw [Machine.hook, Machine.thread_setHook_self hth']
    exact hreg.replace_eq_install hcount _

/-- A session with two threads, neither of which has a hook. -/
def twoThreadSession : Session :=
  let start := Session.start ⟨[], .default, false, true⟩
  { start with machine := start.machine.newThread.1 }

/-- The main thread installs a hook for the other one, with a mask that names an event twice
and a negative count; without a mask its third argument is refused. -/
theorem setHook_for_other_thread :
    let s := twoThreadSession
    let thread : Value := .thread ⟨1⟩
    let function : Value := .function ⟨0⟩
    (∃ m', runLibrary .setHook ⟨0⟩ [thread, function, .string "rxcr", .integer (-3)] s =
        .ok [] { s with machine := m' } ∧ m'.hook ⟨0⟩ = s.machine.hook ⟨0⟩ ∧
      LibraryFunction.getHook.run m' ⟨0⟩ [thread] =
        .ok ([function, .string "cr", .integer 0], m')) ∧
    runLibrary .setHook ⟨0⟩ [thread, function] s = .error (.raised (.ofNative
      (.badArgument 3 "sethook" (mismatchText "string" .nil)))) s := by
  dsimp only
  obtain ⟨hcall, -⟩ := setHook_refused_or_replaced
  constructor
  · obtain ⟨position, complaint, hrefused, -⟩ | ⟨f, mask, count, m', hrequest, hrun, hreplaced⟩ :=
      hcall twoThreadSession ⟨0⟩
        [.thread ⟨1⟩, .function ⟨0⟩, .string "rxcr", .integer (-3)] rfl
    · cases hrefused with
      | thread hargs hth =>
        cases hargs
        exact absurd rfl hth
      | function _ hv _ hwrong => exact absurd hv.symm (hwrong _)
      | mask _ _ hv hwrong => exact absurd hv.symm (hwrong _)
      | count _ _ _ hv _ hwrong =>
        subst hv
        cases hwrong
    · cases hrequest with
      | remove h => cases h
      | install hf hmask hcount =>
        cases hf
        cases hmask
        cases hcount with
        | number h =>
          cases h
          exact ⟨m', hrun, congrArg Thread.hook (hreplaced.others ⟨0⟩ (by decide)),
            hreplaced.reported ⟨0⟩ [.thread ⟨1⟩] rfl rfl⟩
  · obtain ⟨position, complaint, hrefused, hrun⟩ | ⟨f, mask, count, m', hrequest, -⟩ :=
      hcall twoThreadSession ⟨0⟩ [.thread ⟨1⟩, .function ⟨0⟩] rfl
    · cases hrefused with
      | thread hargs hth =>
        cases hargs
        exact absurd rfl hth
      | function _ hv _ hwrong => exact absurd hv.symm (hwrong _)
      | mask _ _ hv _ =>
        subst hv
        exact hrun
      | count _ _ hmask _ _ _ => cases hmask
    · cases hrequest with
      | remove h => cases h
      | install _ hmask _ => cases hmask

end Exec

end ScriptDebug
