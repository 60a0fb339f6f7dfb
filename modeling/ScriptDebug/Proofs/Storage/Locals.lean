import ScriptDebug.Proofs.CallStack.Represented
import ScriptDebug.Proofs.Storage.Locations

/-!
# Locals of active calls

The locals of a call are read and assigned in the same registers, those that are live.  An
assignment that misses them writes nothing.  A local that is assigned is read back under the
same name, and no other register changes.  Varargs, which negative numbers count, can only
be read.

## Implementation notes

Which registers of a call are live depends on its window, on the top that was last reported
and on the scopes of local variables at its instruction.  An assignment changes none of
them, so reading afterwards finds the same register.  That every level up to the depth has a
call is known of stacks that represent a list, as they do in every state of a session
(`Session.represented_run`) and along every run of steps (`Machine.represented_run`).
-/

namespace ScriptDebug

namespace Frame

variable {s : Store} {fr : Frame} {n : Int} {w : WindowId} {slot : Nat}

/-- The local variables in scope, in the order of their registers. -/
def scopedLocals (s : Store) (fr : Frame) : List LocalVariable :=
  ((fr.prototype? s).map fun p => p.localsAt fr.pc).getD []

theorem activeLocals_eq_length (s : Store) (fr : Frame) :
    fr.activeLocals s = (fr.scopedLocals s).length := by
  rw [activeLocals, scopedLocals]
  cases fr.prototype? s <;> rfl

/-- A live register has the name of its local variable, if there is one. -/
theorem reportedName_eq (hn : 1 ≤ n) : fr.reportedName s n =
    ((fr.scopedLocals s)[n.toNat - 1]?.map (·.name)).getD temporaryName := by
  have hsucc : n.toNat = (n.toNat - 1) + 1 := by omega
  rw [reportedName, localName?, scopedLocals, hsucc]
  cases fr.prototype? s with
  | none => rfl
  | some p =>
    rw [Option.bind_some, Prototype.localName?_succ]
    rfl

/-- A local is kept in a register below the size of the window, and below the top or the
number of local variables in scope. -/
theorem register?_eq_some : fr.register? s n = some (w, slot) ↔
    (fr.window = some w ∧ 1 ≤ n ∧
      n ≤ (min (s.windowSize w) (max fr.top (fr.activeLocals s)) : Nat)) ∧
      n.toNat - 1 = slot := by
  rw [register?, Option.ite_none_right_eq_some, Option.map_eq_some_iff]
  constructor
  · rintro ⟨⟨hlow, hhigh⟩, w', hw, heq⟩
    cases heq
    rw [liveRegisters, hw] at hhigh
    exact ⟨⟨hw, hlow, hhigh⟩, rfl⟩
  · rintro ⟨⟨hw, hlow, hhigh⟩, rfl⟩
    refine ⟨⟨hlow, ?_⟩, w, hw, rfl⟩
    rw [liveRegisters, hw]
    exact hhigh

end Frame

namespace Machine

variable {m m' : Machine} {th : ThreadId} {level n : Int} {v : Value} {name : String}
  {fr : Frame} {w : WindowId}

/-! ## Reading and assigning -/

/-- Local `n` of the call at a level is kept in the window: the window is as long, and the
number is at most the top or the number of local variables in scope. -/
structure HasLocal (m : Machine) (th : ThreadId) (level n : Int) (fr : Frame) (w : WindowId) :
    Prop where
  frame : (m.calls th).frame? level = some fr
  window : fr.window = some w
  one_le : 1 ≤ n
  live : n ≤ (min (m.store.windowSize w) (max fr.top (fr.activeLocals m.store)) : Nat)

theorem hasLocal_iff : m.HasLocal th level n fr w ↔
    (m.calls th).frame? level = some fr ∧
      fr.register? m.store n = some (w, n.toNat - 1) := by
  rw [Frame.register?_eq_some]
  constructor
  · intro h
    exact ⟨h.frame, ⟨h.window, h.one_le, h.live⟩, rfl⟩
  · rintro ⟨hfr, ⟨hw, hlow, hhigh⟩, -⟩
    exact ⟨hfr, hw, hlow, hhigh⟩

/-- The register of a local is inside the window. -/
theorem HasLocal.lt_windowSize (h : m.HasLocal th level n fr w) :
    n.toNat - 1 < m.store.windowSize w := by
  have hlow := h.one_le
  have hlive := h.live
  omega

/-- An assignment to a register moves no local. -/
theorem HasLocal.setRegister (h : m.HasLocal th level n fr w) (w' : WindowId) (slot : Nat)
    (v : Value) :
    { m with store := m.store.setRegister w' slot v }.HasLocal th level n fr w := by
  refine ⟨h.frame, h.window, h.one_le, ?_⟩
  rw [Store.windowSize_setRegister]
  exact h.live

theorem setLocal?_eq_some : m.setLocal? th level n v = some (name, m') ↔
    ∃ fr w, m.HasLocal th level n fr w ∧ fr.reportedName m.store n = name ∧
      { m with store := m.store.setRegister w (n.toNat - 1) v } = m' := by
  simp only [setLocal?, Option.bind_eq_bind, Option.bind_eq_some_iff, Frame.setLocal?,
    Option.map_eq_some_iff, Option.pure_def, Option.some.injEq, Prod.mk.injEq]
  constructor
  · rintro ⟨fr, hfr, -, ⟨⟨w, slot⟩, hreg, rfl⟩, hname, hm'⟩
    obtain ⟨-, rfl⟩ := Frame.register?_eq_some.mp hreg
    exact ⟨fr, w, hasLocal_iff.mpr ⟨hfr, hreg⟩, hname, hm'⟩
  · rintro ⟨fr, w, hlocal, hname, hm'⟩
    obtain ⟨hfr, hreg⟩ := hasLocal_iff.mp hlocal
    exact ⟨fr, hfr, _, ⟨(w, n.toNat - 1), hreg, rfl⟩, hname, hm'⟩

theorem getLocal?_eq_some (hn : 0 ≤ n) : m.getLocal? th level n = some (name, v) ↔
    ∃ fr w, m.HasLocal th level n fr w ∧ fr.reportedName m.store n = name ∧
      m.store.register w (n.toNat - 1) = v := by
  have hnonneg : ¬ n < 0 := by omega
  simp only [getLocal?, Option.bind_eq_some_iff, Frame.getLocal?, if_neg hnonneg,
    Option.map_eq_some_iff, Prod.mk.injEq]
  constructor
  · rintro ⟨fr, hfr, ⟨w, slot⟩, hreg, hname, hv⟩
    obtain ⟨-, rfl⟩ := Frame.register?_eq_some.mp hreg
    exact ⟨fr, w, hasLocal_iff.mpr ⟨hfr, hreg⟩, hname, hv⟩
  · rintro ⟨fr, w, hlocal, hname, hv⟩
    obtain ⟨hfr, hreg⟩ := hasLocal_iff.mp hlocal
    exact ⟨fr, hfr, (w, n.toNat - 1), hreg, hname, hv⟩

/-- A negative number reads a vararg of the call. -/
theorem getLocal?_of_neg (hn : n < 0) (hfr : (m.calls th).frame? level = some fr) :
    m.getLocal? th level n = fr.varargs[n.natAbs - 1]?.map fun v => (varargName, v) := by
  rw [getLocal?, hfr, Option.bind_some, Frame.getLocal?, if_pos hn, Frame.vararg?, if_pos hn]

theorem isSome_setLocal? :
    (m.setLocal? th level n v).isSome ↔ ∃ fr w, m.HasLocal th level n fr w := by
  rw [Option.isSome_iff_exists]
  constructor
  · rintro ⟨⟨name, m'⟩, h⟩
    obtain ⟨fr, w, hlocal, -⟩ := setLocal?_eq_some.mp h
    exact ⟨fr, w, hlocal⟩
  · rintro ⟨fr, w, hlocal⟩
    exact ⟨_, setLocal?_eq_some.mpr ⟨fr, w, hlocal, rfl, rfl⟩⟩

theorem isSome_getLocal? (hn : 0 ≤ n) :
    (m.getLocal? th level n).isSome ↔ ∃ fr w, m.HasLocal th level n fr w := by
  rw [Option.isSome_iff_exists]
  constructor
  · rintro ⟨⟨name, v⟩, h⟩
    obtain ⟨fr, w, hlocal, -⟩ := (getLocal?_eq_some hn).mp h
    exact ⟨fr, w, hlocal⟩
  · rintro ⟨fr, w, hlocal⟩
    exact ⟨_, (getLocal?_eq_some hn).mpr ⟨fr, w, hlocal, rfl, rfl⟩⟩

theorem isSome_getLocal?_of_neg (hn : n < 0) : (m.getLocal? th level n).isSome ↔
    ∃ fr, (m.calls th).frame? level = some fr ∧ -n ≤ fr.varargs.length := by
  cases hfr : (m.calls th).frame? level with
  | none => simp [getLocal?, hfr]
  | some fr =>
    rw [getLocal?_of_neg hn hfr, Option.isSome_map, isSome_getElem?]
    constructor
    · intro hlt
      exact ⟨fr, rfl, by omega⟩
    · rintro ⟨fr', heq, hle⟩
      cases heq
      omega

/-- What the assignment of a local does. -/
structure LocalAssigned (m : Machine) (th : ThreadId) (level n : Int) (v : Value) (fr : Frame)
    (w : WindowId) (name : String) (m' : Machine) : Prop where
  /-- The name is that of the local variable in the register, if there is one. -/
  name_eq : name = ((fr.scopedLocals m.store)[n.toNat - 1]?.map (·.name)).getD temporaryName
  /-- There is none beyond the number of local variables in scope. -/
  unnamed : (fr.scopedLocals m.store)[n.toNat - 1]? = none ↔ fr.activeLocals m.store < n
  /-- Reading reports the same name. -/
  read : (m.getLocal? th level n).map (·.1) = some name
  readBack : m'.getLocal? th level n = some (name, v)
  /-- The window differs in one register, and no other window does. -/
  registers : ∀ w' slot, m'.store.register w' slot =
    if w' = w ∧ slot = n.toNat - 1 then v else m.store.register w' slot
  sizes : ∀ w', m'.store.windowSize w' = m.store.windowSize w'
  /-- Everything that is no register stays as it is. -/
  rest : m' = { m with store := { m.store with windows := m'.store.windows } }

theorem localAssigned_of_setLocal? (hlocal : m.HasLocal th level n fr w)
    (h : m.setLocal? th level n v = some (name, m')) :
    m.LocalAssigned th level n v fr w name m' := by
  have hpos : 1 ≤ n := hlocal.one_le
  have hn : 0 ≤ n := by omega
  obtain ⟨fr', w', hlocal', rfl, rfl⟩ := setLocal?_eq_some.mp h
  -- a level has one call, and a call has one window
  obtain rfl : fr = fr' := Option.some.inj (hlocal.frame.symm.trans hlocal'.frame)
  obtain rfl : w = w' := Option.some.inj (hlocal.window.symm.trans hlocal'.window)
  have hregisters : ∀ w' slot,
      (m.store.setRegister w (n.toNat - 1) v).register w' slot =
        if w' = w ∧ slot = n.toNat - 1 then v else m.store.register w' slot := by
    intro w' slot
    simp only [Store.register_setRegister, hlocal.lt_windowSize, and_true]
  refine
    { name_eq := Frame.reportedName_eq hpos
      unnamed := ?_
      read := ?_
      readBack := ?_
      registers := hregisters
      sizes := Store.windowSize_setRegister _ _ _ _
      rest := rfl }
  · rw [List.getElem?_eq_none_iff, Frame.activeLocals_eq_length]
    omega
  · rw [(getLocal?_eq_some hn).mpr ⟨fr, w, hlocal, rfl, rfl⟩, Option.map_some]
  · refine (getLocal?_eq_some hn).mpr ⟨fr, w, hlocal.setRegister w _ v, rfl, ?_⟩
    rw [hregisters, if_pos ⟨rfl, rfl⟩]

/-! ## Calls along a run -/

theorem calls_assign (m : Machine) (r : Route) (v : Value) (th : ThreadId) :
    (m.assign r v).calls th = m.calls th := by
  cases hr : m.place? r with
  | none => rw [assign_eq_self hr]
  | some l =>
    rw [assign_eq_write hr]
    rfl

theorem represented_apply (hm : m.Represented) (op : Access) : (m.apply op).Represented := by
  cases op with
  | assign r v => exact hm.congr (m.calls_assign r v)
  | closeCell c => exact hm.congr fun _ => rfl
  | joinUpvalues f n f' n' =>
    refine hm.congr fun th => ?_
    rw [apply]
    split
    · rename_i m' hm'
      obtain ⟨slot, c, rfl⟩ := joinUpvalues_ok hm'
      rfl
    · rfl
  | enter th fr => exact hm.noted (m.noteCall_noted th fr)
  | instruction th pc varargs top => exact hm.noted (m.noteInstruction_noted th pc varargs top)
  | leave th => exact hm.noted (m.noteReturn_noted th)
  | unwind th depth => exact hm.unwindTo th depth
  | newWindow registers => exact hm.congr fun _ => rfl
  | newCell cell => exact hm.congr fun _ => rfl
  | newFunction o => exact hm.congr fun _ => rfl

theorem represented_run (hm : m.Represented) (ops : List Access) : (m.run ops).Represented := by
  induction ops generalizing m with
  | nil => exact hm
  | cons op ops ih => exact ih (represented_apply hm op)

/-- A new machine has no calls. -/
theorem represented_new (settings : Settings) (hasInterpreter : Bool) :
    (new settings hasInterpreter).Represented := by
  intro th
  have hcalls : (new settings hasInterpreter).calls th = .empty := by
    obtain ⟨i⟩ := th
    cases i with
    | zero => rfl
    | succ i => rfl
  rw [hcalls]
  exact ⟨[], .empty⟩

theorem isSome_frame?_iff (hm : m.Represented) :
    ((m.calls th).frame? level).isSome ↔ 1 ≤ level ∧ level ≤ m.depth th := by
  obtain ⟨l, hl⟩ := hm th
  have hdepth : m.depth th = l.length := hl.depth_eq
  rw [hl.frame?_eq, hdepth]
  split
  · rename_i hlevel
    rw [isSome_getElem?]
    omega
  · rename_i hlevel
    simp [hlevel]

/-! ## Agreement -/

/-- Reading and assigning address the same locals: those whose registers are live in a call
at an active level.  The name is that of the local variable in the register, and an assigned
local is read back, while no other register changes.  An assignment that finds no local has
no effect.  Negative numbers read the varargs of the call and assign nothing, and no
assignment changes a call. -/
theorem locals_read_where_assigned (m : Machine) (hm : m.Represented) (th : ThreadId)
    (level n : Int) (v : Value) :
    (((m.calls th).frame? level).isSome ↔ 1 ≤ level ∧ level ≤ m.depth th) ∧
    ((m.setLocal? th level n v).isSome ↔ 1 ≤ n ∧ (m.getLocal? th level n).isSome) ∧
    ((m.setLocal? th level n v).isSome ↔ ∃ fr w, m.HasLocal th level n fr w) ∧
    (∀ fr w name m', m.HasLocal th level n fr w →
      m.setLocal? th level n v = some (name, m') →
      m.LocalAssigned th level n v fr w name m') ∧
    (m.setLocal? th level n v = none → m.assign (.frame th level n) v = m) ∧
    (n = 0 → m.getLocal? th level n = none) ∧
    (n < 0 →
      m.setLocal? th level n v = none ∧
      ((m.getLocal? th level n).isSome ↔
        ∃ fr, (m.calls th).frame? level = some fr ∧ -n ≤ fr.varargs.length) ∧
      ∀ fr, (m.calls th).frame? level = some fr →
        m.getLocal? th level n = fr.varargs[n.natAbs - 1]?.map fun v => (varargName, v)) ∧
    ∀ th', (m.assign (.frame th level n) v).calls th' = m.calls th' := by
  have hset : (m.setLocal? th level n v).isSome ↔ ∃ fr w, m.HasLocal th level n fr w :=
    isSome_setLocal?
  have hnone : n < 1 → ¬ ∃ fr w, m.HasLocal th level n fr w := by
    rintro hn ⟨fr, w, hlocal⟩
    exact absurd hlocal.one_le (by omega)
  refine ⟨isSome_frame?_iff hm, ?_, hset, ?_, ?_, ?_, ?_, m.calls_assign _ v⟩
  · rw [hset]
    constructor
    · rintro ⟨fr, w, hlocal⟩
      have hn := hlocal.one_le
      exact ⟨hn, (isSome_getLocal? (by omega)).mpr ⟨fr, w, hlocal⟩⟩
    · rintro ⟨hn, hget⟩
      exact (isSome_getLocal? (by omega)).mp hget
  · intro fr w name m' hlocal h
    exact localAssigned_of_setLocal? hlocal h
  · intro h
    rw [assign, h, Option.map_none, Option.getD_none]
  · intro hn
    rw [← Option.not_isSome_iff_eq_none, isSome_getLocal? (by omega)]
    exact hnone (by omega)
  · intro hn
    rw [← Option.not_isSome_iff_eq_none, hset]
    exact ⟨hnone (by omega), isSome_getLocal?_of_neg hn, fun fr hfr => getLocal?_of_neg hn hfr⟩

/-- A call with two varargs of a function with one local variable, which has reported that
two of its three registers are live. -/
def oneCall : List Access :=
  let p : Prototype := ⟨none, 0, 0, 0, true, 3, #[], #[], #[], [⟨"x", 0, 9⟩], #[]⟩
  [.newWindow #[.nil, .nil, .nil], .newFunction ⟨.script p #[], .scripted "f" []⟩,
    .enter mainThread (.script ⟨0⟩ [.integer 5, .integer 6] ⟨0⟩ 3),
    .instruction mainThread 1 [.integer 5, .integer 6] 2]

/-- The second local is a temporary and can be assigned, there is no third one, and the
second vararg can be read only. -/
theorem second_local_is_assigned :
    let m := (new .default false).run oneCall
    m.Represented ∧
      (∃ m', m.setLocal? mainThread 1 2 (.integer 7) = some (temporaryName, m') ∧
        m'.getLocal? mainThread 1 2 = some (temporaryName, .integer 7) ∧
        m'.store.register ⟨0⟩ 0 = .nil) ∧
      m.setLocal? mainThread 1 3 (.integer 7) = none ∧
      m.getLocal? mainThread 1 (-2) = some (varargName, .integer 6) ∧
      m.setLocal? mainThread 1 (-2) (.integer 7) = none := by
  intro m
  have hm : m.Represented := represented_run (represented_new .default false) oneCall
  have hframe : (m.calls mainThread).frame? 1 =
      some ⟨⟨0⟩, 1, 2, [.integer 5, .integer 6], some ⟨0⟩⟩ := by decide
  have hlocal : m.HasLocal mainThread 1 2 _ ⟨0⟩ := ⟨hframe, rfl, by decide, by decide⟩
  obtain ⟨-, -, hsecond, hassigned, -⟩ :=
    locals_read_where_assigned m hm mainThread 1 2 (.integer 7)
  obtain ⟨-, hthird, -⟩ := locals_read_where_assigned m hm mainThread 1 3 (.integer 7)
  obtain ⟨-, -, -, -, -, -, hvararg, -⟩ :=
    locals_read_where_assigned m hm mainThread 1 (-2) (.integer 7)
  obtain ⟨⟨name, m'⟩, hset⟩ := Option.isSome_iff_exists.mp (hsecond.mpr ⟨_, _, hlocal⟩)
  have hdone := hassigned _ _ _ _ hlocal hset
  have hname : name = temporaryName := hdone.name_eq.trans (by decide)
  subst hname
  refine ⟨hm, ⟨m', hset, hdone.readBack, ?_⟩, ?_, ?_, (hvararg (by decide)).1⟩
  · rw [hdone.registers]
    rfl
  · rw [← Option.not_isSome_iff_eq_none, hthird]
    decide
  · exact (hvararg (by decide)).2.2 _ hframe

end Machine

end ScriptDebug
