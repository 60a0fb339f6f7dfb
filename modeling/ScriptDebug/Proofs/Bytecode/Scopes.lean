import Mathlib.Data.List.Count
import ScriptDebug.Bytecode.Prototype

/-!
# Scopes of local variables

Scopes may be nested, overlap, be empty or have ended.  The scan of a table ends at the first
variable that starts later, whatever comes behind it.  In a table that is ordered by starts
it finds all variables in scope, and numbers them in the order of the table.

## Implementation notes

What the scan finds and what it leaves out make up the variables in scope, in any table
(`localsInScope_eq_append`).  The order is needed only to see that nothing behind the end of
the scan has started.
-/

namespace ScriptDebug

/-- The scope of the variable contains `pc`. -/
def LocalVariable.InScope (v : LocalVariable) (pc : Nat) : Prop := v.startPc ≤ pc ∧ pc < v.endPc

instance (v : LocalVariable) (pc : Nat) : Decidable (v.InScope pc) :=
  inferInstanceAs (Decidable (_ ∧ _))

namespace Prototype

/-- The local variables whose scope contains `pc`, in the order of the table and whatever
that order is. -/
def localsInScope (p : Prototype) (pc : Nat) : List LocalVariable :=
  p.locals.filter fun v => v.startPc ≤ pc ∧ pc < v.endPc

/-- The entries of the table from the first one on that starts later than `pc`. -/
def localsBehindStop (p : Prototype) (pc : Nat) : List LocalVariable :=
  p.locals.dropWhile fun v => v.startPc ≤ pc

/-- The table is ordered by starts, as a compiler emits it. -/
def LocalsOrdered (p : Prototype) : Prop := p.locals.Pairwise fun v w => v.startPc ≤ w.startPc

instance (p : Prototype) : Decidable p.LocalsOrdered :=
  inferInstanceAs (Decidable (List.Pairwise _ _))

/-- The `n`-th entry of the table whose scope contains `pc`, counted from 1, is `v`. -/
def IsNthInScope (p : Prototype) (pc n : Nat) (v : LocalVariable) : Prop :=
  ∃ i, p.locals[i]? = some v ∧ v.InScope pc ∧
    (p.locals.take i).countP (fun w => w.InScope pc) + 1 = n

variable {p : Prototype} {pc reg k : Nat} {v : LocalVariable} {name : String}

/-! ## Variables in scope -/

theorem localsInScope_eq_filter (p : Prototype) (pc : Nat) :
    p.localsInScope pc = p.locals.filter fun v => v.InScope pc := rfl

theorem length_localsInScope (p : Prototype) (pc : Nat) :
    (p.localsInScope pc).length = p.locals.countP fun v => v.InScope pc := by
  rw [localsInScope_eq_filter, List.countP_eq_length_filter]

/-- What is left of a list by a filter, told by the places in the list. -/
theorem getElem?_filter_eq {α : Type*} (q : α → Bool) (l : List α) (k : Nat) :
    (l.filter q)[k]? = l[l.findIdxNth q k]? := by
  induction l generalizing k with
  | nil => simp
  | cons a l ih =>
    by_cases ha : q a = true
    -- an element that is left is the first, and the places of the others are one further on
    · rw [List.filter_cons_of_pos ha]
      cases k with
      | zero =>
        rw [List.findIdxNth_cons_zero_of_pos ha]
        rfl
      | succ k =>
        rw [List.findIdxNth_cons_succ_of_pos ha]
        exact ih k
    · rw [List.filter_cons_of_neg ha, List.findIdxNth_cons_of_neg (Bool.eq_false_iff.mpr ha)]
      exact ih k

/-- An element that a filter leaves keeps the number of those before it as its place. -/
theorem getElem?_filter_eq_some {α : Type*} {q : α → Bool} {l : List α} {k : Nat} {a : α} :
    (l.filter q)[k]? = some a ↔
      ∃ i, l[i]? = some a ∧ q a = true ∧ (l.take i).countP q = k := by
  constructor
  · intro h
    obtain ⟨hk, -⟩ := List.getElem?_eq_some_iff.mp h
    have hcount : k < l.countP q := by rwa [List.countP_eq_length_filter]
    have ha : q a = true := (List.mem_filter.mp (List.mem_of_getElem? h)).2
    refine ⟨l.findIdxNth q k, by rw [← getElem?_filter_eq, h], ha, ?_⟩
    rw [← List.countPBefore_eq_countP_take, List.countPBefore_findIdxNth_of_lt_countP hcount]
  · rintro ⟨i, hi, ha, rfl⟩
    obtain ⟨hlt, rfl⟩ := List.getElem?_eq_some_iff.mp hi
    rw [← List.countPBefore_eq_countP_take, getElem?_filter_eq,
      List.findIdxNth_countPBefore_of_lt_length_of_pos ha, hi]

theorem getElem?_localsInScope_eq_some :
    (p.localsInScope pc)[k]? = some v ↔ p.IsNthInScope pc (k + 1) v := by
  simp only [localsInScope_eq_filter, getElem?_filter_eq_some, IsNthInScope, decide_eq_true_eq,
    Nat.add_right_cancel_iff]

/-! ## The end of the scan -/

/-- The variables in scope are those that the scan finds and those behind its end. -/
theorem localsInScope_eq_append (p : Prototype) (pc : Nat) : p.localsInScope pc =
    p.localsAt pc ++ (p.localsBehindStop pc).filter fun v => v.InScope pc := by
  have hfound : p.localsAt pc =
      (p.locals.takeWhile fun v => v.startPc ≤ pc).filter fun v => v.InScope pc := by
    -- what the scan has passed has started, so only the ends of the scopes matter
    apply List.filter_congr
    intro v hv
    have hstart := of_decide_eq_true (List.all_eq_true.mp List.all_takeWhile v hv)
    simp [LocalVariable.InScope, hstart]
  rw [hfound, localsBehindStop, ← List.filter_append, List.takeWhile_append_dropWhile,
    localsInScope_eq_filter]

/-- The variables that count as local at `pc` are those in scope, up to the first in the
table that starts later. -/
theorem localsAt_prefix (p : Prototype) (pc : Nat) : p.localsAt pc <+: p.localsInScope pc :=
  ⟨_, (p.localsInScope_eq_append pc).symm⟩

/-- A variable that is listed behind one of a later start is in scope and is not found. -/
example : let p : Prototype := { (default : Prototype) with locals := [⟨"a", 4, 8⟩, ⟨"b", 0, 8⟩] }
    p.localsAt 2 = [] ∧ p.localsInScope 2 = [⟨"b", 0, 8⟩] := by decide

theorem exists_inScope_of_localName? (h : p.localName? (reg + 1) pc = some name) :
    ∃ v, (p.localsInScope pc)[reg]? = some v ∧ v.name = name := by
  rw [localName?_succ, Option.map_eq_some_iff] at h
  obtain ⟨v, hv, hname⟩ := h
  obtain ⟨hreg, rfl⟩ := List.getElem?_eq_some_iff.mp hv
  exact ⟨_, List.prefix_iff_getElem?.mp (p.localsAt_prefix pc) reg hreg, hname⟩

/-- The scan finds all variables in scope exactly if there are none behind its end. -/
theorem localsAt_eq_localsInScope_iff :
    p.localsAt pc = p.localsInScope pc ↔ ∀ v ∈ p.localsBehindStop pc, ¬ v.InScope pc := by
  rw [localsInScope_eq_append, List.self_eq_append_right, List.filter_eq_nil_iff]
  simp only [decide_eq_true_eq]

/-! ## Ordered tables -/

/-- Nothing behind the end of the scan has started: the first entry there has not, and the
others start no earlier. -/
theorem LocalsOrdered.lt_startPc (h : p.LocalsOrdered) (hv : v ∈ p.localsBehindStop pc) :
    pc < v.startPc := by
  have hordered : (p.localsBehindStop pc).Pairwise fun v w => v.startPc ≤ w.startPc :=
    h.sublist (List.dropWhile_sublist _)
  obtain ⟨w, rest, hbehind⟩ := List.exists_cons_of_ne_nil (List.ne_nil_of_mem hv)
  have hfirst : pc < w.startPc := by
    have hstop := List.head?_dropWhile_not (fun v => decide (v.startPc ≤ pc)) p.locals
    rw [← localsBehindStop, hbehind, List.head?_cons] at hstop
    exact Nat.not_le.mp (of_decide_eq_false hstop)
  rw [hbehind] at hv hordered
  rcases List.mem_cons.mp hv with rfl | hrest
  · exact hfirst
  · exact Nat.lt_of_lt_of_le hfirst (List.rel_of_pairwise_cons hordered hrest)

theorem LocalsOrdered.not_inScope (h : p.LocalsOrdered) (hv : v ∈ p.localsBehindStop pc) :
    ¬ v.InScope pc :=
  fun hscope => absurd hscope.1 (Nat.not_le.mpr (h.lt_startPc hv))

theorem LocalsOrdered.localsAt_eq (h : p.LocalsOrdered) (pc : Nat) :
    p.localsAt pc = p.localsInScope pc :=
  localsAt_eq_localsInScope_iff.mpr fun _ => h.not_inScope

/-- In an ordered table the number of local variables at `pc` is the number of entries whose
scope contains it.  Number `n` names the `n`-th such entry of the table, and there is a name
exactly for the numbers from 1 to that of the local variables.  No variable in scope is left
behind the end of the scan. -/
theorem local_numbers_name_scopes (h : p.LocalsOrdered) (pc : Nat) :
    p.activeLocals pc = p.locals.countP (fun v => v.InScope pc) ∧
    (∀ n name, p.localName? n pc = some name ↔ ∃ v, p.IsNthInScope pc n v ∧ v.name = name) ∧
    (∀ n, (p.localName? n pc).isSome ↔ 1 ≤ n ∧ n ≤ p.activeLocals pc) ∧
    p.localsAt pc = p.localsInScope pc ∧ ∀ v ∈ p.localsBehindStop pc, ¬ v.InScope pc := by
  have hfound := h.localsAt_eq pc
  refine ⟨?_, ?_, fun n => p.isSome_localName?_iff n pc, hfound, fun _ => h.not_inScope⟩
  · rw [activeLocals, hfound, length_localsInScope]
  · intro n name
    cases n with
    | zero => simp [IsNthInScope]
    | succ k =>
      rw [localName?_succ, hfound, Option.map_eq_some_iff]
      simp only [getElem?_localsInScope_eq_some]

/-- Scopes that are nested, overlap, are empty, have ended or begin later, and two of one
name. -/
def nestedScopes : Prototype where
  source := none
  lineDefined := 0
  lastLineDefined := 0
  paramCount := 0
  isVararg := false
  windowSize := 4
  code := #[]
  lines := #[]
  constants := #[]
  locals := [⟨"a", 0, 10⟩, ⟨"b", 2, 5⟩, ⟨"c", 4, 4⟩, ⟨"d", 5, 12⟩, ⟨"e", 6, 8⟩, ⟨"a", 6, 7⟩,
    ⟨"f", 9, 10⟩]
  upvalues := #[]

/-- The fourth of the variables in scope is the inner one of two of the same name. -/
theorem fourth_scope_is_inner :
    nestedScopes.LocalsOrdered ∧ nestedScopes.activeLocals 6 = 4 ∧
      nestedScopes.localName? 2 6 = some "d" ∧ nestedScopes.localName? 4 6 = some "a" ∧
      ¬ (nestedScopes.localName? 5 6).isSome := by
  have hordered : nestedScopes.LocalsOrdered := by decide
  obtain ⟨hactive, hname, hpresent, -⟩ := local_numbers_name_scopes hordered 6
  have hfour : nestedScopes.activeLocals 6 = 4 := hactive.trans (by decide)
  have hsecond : nestedScopes.IsNthInScope 6 2 ⟨"d", 5, 12⟩ := ⟨3, rfl, by decide, by decide⟩
  have hfourth : nestedScopes.IsNthInScope 6 4 ⟨"a", 6, 7⟩ := ⟨5, rfl, by decide, by decide⟩
  refine ⟨hordered, hfour, (hname 2 "d").mpr ⟨_, hsecond, rfl⟩,
    (hname 4 "a").mpr ⟨_, hfourth, rfl⟩, ?_⟩
  rw [hpresent, hfour]
  decide

end Prototype

end ScriptDebug
