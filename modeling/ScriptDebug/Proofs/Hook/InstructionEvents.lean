import Mathlib.Data.List.Induction
import ScriptDebug.Proofs.Hook.Pending

/-!
# The events of instructions

The count and line events of a sequence of instructions, told from nothing but the mask,
the count and the lines; and the bookkeeping of a hook that keeps up with them.

## Implementation notes

A hook remembers the number of instructions only if it has a count, and the last line
only if its mask asks for lines (`afterLines`).
-/

namespace ScriptDebug

namespace HookEvent

/-- Whether an event is one of instructions. -/
def ofInstruction : HookEvent → Bool
  | line _ | count => true
  | call | ret => false

end HookEvent

namespace Hook

/-! ## The stream -/

/-- The count event of the `k`-th instruction. -/
def countEvent (n k : Nat) : List HookEvent := if 0 < n ∧ n ∣ k then [.count] else []

/-- The line event of an instruction, given the line before. -/
def lineEvent (mask : HookMask) (previous : Option Nat) : Option Nat → List HookEvent
  | some l => if mask.line ∧ previous ≠ some l then [.line l] else []
  | none => []

/-- The events of an instruction on a line, after instructions on the lines `seen`. -/
def eventsAfter (mask : HookMask) (n : Nat) (seen : List (Option Nat)) (line : Option Nat) :
    List HookEvent :=
  countEvent n (seen.length + 1) ++ lineEvent mask seen.getLast?.join line

/-- The events of instructions on lines, in order. -/
def stream (mask : HookMask) (n : Nat) (lines : List (Option Nat)) : List HookEvent :=
  (List.range lines.length).flatMap fun k => eventsAfter mask n (lines.take k) lines[k]?.join

/-- A hook that was installed before instructions on the lines `seen`. -/
def afterLines (f : FunctionId) (mask : HookMask) (n : Nat) (inHook : Bool)
    (seen : List (Option Nat)) : Hook :=
  ⟨some f, mask, n, if n = 0 then 0 else seen.length, inHook,
    if mask.line then seen.getLast?.join else none⟩

variable {f : FunctionId} {mask : HookMask} {n : Nat} {seen : List (Option Nat)}

theorem stream_concat (line : Option Nat) :
    stream mask n (seen ++ [line]) = stream mask n seen ++ eventsAfter mask n seen line := by
  have hbefore : ∀ k ∈ List.range seen.length,
      eventsAfter mask n ((seen ++ [line]).take k) (seen ++ [line])[k]?.join =
        eventsAfter mask n (seen.take k) seen[k]?.join := by
    intro k hk
    have hlt : k < seen.length := List.mem_range.mp hk
    rw [List.take_append_of_le_length (Nat.le_of_lt hlt), List.getElem?_append_left hlt]
  have hlast : eventsAfter mask n ((seen ++ [line]).take seen.length)
      (seen ++ [line])[seen.length]?.join = eventsAfter mask n seen line := by
    rw [List.take_left, List.getElem?_concat_length]
    rfl
  rw [stream, List.length_append, List.length_singleton, List.range_succ, List.flatMap_append,
    List.flatMap_singleton, hlast, List.flatMap_def, List.map_congr_left hbefore]
  rfl

theorem mem_eventsAfter {line : Option Nat} {e : HookEvent} (h : e ∈ eventsAfter mask n seen line) :
    e = .count ∨ ∃ l, e = .line l := by
  obtain h | h := List.mem_append.mp h
  · left
    unfold countEvent at h
    split at h
    · exact List.mem_singleton.mp h
    · cases h
  · right
    unfold lineEvent at h
    split at h
    · split at h
      · exact ⟨_, List.mem_singleton.mp h⟩
      · cases h
    · cases h

theorem filter_eventsAfter (line : Option Nat) :
    (eventsAfter mask n seen line).filter (·.ofInstruction) = eventsAfter mask n seen line := by
  apply List.filter_eq_self.mpr
  intro e he
  obtain rfl | ⟨l, rfl⟩ := mem_eventsAfter he <;> rfl

theorem count_eventsAfter (line : Option Nat) : (eventsAfter mask n seen line).count .count =
    if n ∣ seen.length + 1 then 1 else 0 := by
  have hlines : (lineEvent mask seen.getLast?.join line).count .count = 0 := by
    unfold lineEvent
    split
    · split <;> rfl
    · rfl
  have hcounts : (countEvent n (seen.length + 1)).count .count =
      if n ∣ seen.length + 1 then 1 else 0 := by
    unfold countEvent
    cases n with
    | zero => simp
    | succ n => split <;> simp_all
  rw [eventsAfter, List.count_append, hcounts, hlines, Nat.add_zero]

/-- Of `n` instructions in a row, one has a count event. -/
theorem count_stream (mask : HookMask) (n : Nat) (lines : List (Option Nat)) :
    (stream mask n lines).count .count = lines.length / n := by
  induction lines using List.reverseRec with
  | nil => simp [stream]
  | append_singleton seen line ih =>
      rw [stream_concat, List.count_append, ih, count_eventsAfter, List.length_append,
        List.length_singleton, Nat.succ_div]

/-! ## One instruction -/

/-- Instructions are counted only if there is a count. -/
theorem countInstruction_eq (function : Option FunctionId) (k : Nat) (inHook : Bool)
    (last : Option Nat) :
    (Hook.mk function mask n (if n = 0 then 0 else k) inHook last).countInstruction =
      (⟨function, mask, n, if n = 0 then 0 else k + 1, inHook, last⟩, countEvent n (k + 1)) := by
  unfold countInstruction
  by_cases hn : n = 0
  · simp [countEvent, hn]
  · simp [countEvent, hn, Nat.pos_of_ne_zero hn, Nat.dvd_iff_mod_eq_zero]

/-- Lines are noted only if the mask asks for them. -/
theorem noteLine_eq (function : Option FunctionId) (counter : Nat) (inHook : Bool)
    (line : Option Nat) :
    (Hook.mk function mask n counter inHook
        (if mask.line then seen.getLast?.join else none)).noteLine line =
      (⟨function, mask, n, counter, inHook,
        if mask.line then (seen ++ [line]).getLast?.join else none⟩,
        lineEvent mask seen.getLast?.join line) := by
  rw [List.getLast?_concat]
  cases hmask : mask.line <;> cases line <;> simp [noteLine, lineEvent, hmask]

/-- What one instruction outside the hook does to it. -/
theorem instructionEvents_afterLines (line : Option Nat) :
    (afterLines f mask n false seen).instructionEvents line =
      (afterLines f mask n false (seen ++ [line]),
        if (eventsAfter mask n seen line).isEmpty then none
        else some ⟨f, eventsAfter mask n seen line⟩) := by
  have harmed : (afterLines f mask n false seen).armed? = some f := rfl
  rw [instructionEvents, harmed]
  dsimp only
  rw [afterLines, countInstruction_eq]
  dsimp only
  rw [noteLine_eq, afterLines, List.length_append]
  rfl

/-! ## Calls and returns -/

/-- Events that go to a function and are none of instructions. -/
def Aside (f : FunctionId) (pending : Option PendingEvents) : Prop :=
  ∀ p, pending = some p → p.function = f ∧ p.events.filter (·.ofInstruction) = []

theorem aside_of_single {h : Hook} {e : HookEvent} {b : Bool} (hf : h.function = some f)
    (he : e.ofInstruction = false) :
    Aside f (h.armed?.bind fun f => if b then some ⟨f, [e]⟩ else none) := by
  intro p hp
  obtain ⟨g, hg, hp⟩ := Option.bind_eq_some_iff.mp hp
  obtain rfl : f = g := Option.some.inj (hf.symm.trans (armed?_eq_some hg).2)
  split at hp
  · cases hp
    exact ⟨rfl, by simp [he]⟩
  · cases hp

end Hook

end ScriptDebug
