import ScriptDebug.Thread.Basic

/-!
# Pending events

What a notification calls for is settled at once: the function that is installed, and
events that the configuration asks for.  More than one event arises only where an
instruction completes a count and enters a line.
-/

namespace ScriptDebug

namespace Hook

/-- Whether the configuration asks for an event. -/
def asks (h : Hook) : HookEvent → Bool
  | .call => h.mask.call
  | .ret => h.mask.ret
  | .line _ => h.mask.line
  | .count => 0 < h.count

/-- The same configuration and mark; only the bookkeeping of instructions may differ. -/
structure SameSetup (h h' : Hook) : Prop where
  function : h'.function = h.function
  mask : h'.mask = h.mask
  count : h'.count = h.count
  inHook : h'.inHook = h.inHook

/-- The events that may come at once: a single one, or a count and then a line. -/
inductive Batch : List HookEvent → Prop
  | single (e : HookEvent) : Batch [e]
  | countLine (n : Nat) : Batch [.count, .line n]

/-- A hook outside its own run calls for pending events. -/
structure Calls (h : Hook) (p : PendingEvents) : Prop where
  outside : h.inHook = false
  function : h.function = some p.function
  asked : ∀ e ∈ p.events, h.asks e = true
  batch : Batch p.events

variable {h h' : Hook} {p : PendingEvents} {f : FunctionId}

namespace SameSetup

theorem refl (h : Hook) : SameSetup h h := ⟨rfl, rfl, rfl, rfl⟩

theorem trans {h'' : Hook} (hs : SameSetup h h') (hs' : SameSetup h' h'') : SameSetup h h'' :=
  ⟨hs'.function.trans hs.function, hs'.mask.trans hs.mask, hs'.count.trans hs.count,
    hs'.inHook.trans hs.inHook⟩

theorem asks (hs : SameSetup h h') (e : HookEvent) : h'.asks e = h.asks e := by
  cases e with
  | call => exact congrArg (·.call) hs.mask
  | ret => exact congrArg (·.ret) hs.mask
  | line n => exact congrArg (·.line) hs.mask
  | count => exact congrArg (decide <| 0 < ·) hs.count

theorem calls (hs : SameSetup h h') (hc : h.Calls p) : h'.Calls p where
  outside := hs.inHook.trans hc.outside
  function := hs.function.trans hc.function
  asked e he := (hs.asks e).trans (hc.asked e he)
  batch := hc.batch

end SameSetup

theorem armed?_eq_some (ha : h.armed? = some f) : h.inHook = false ∧ h.function = some f := by
  unfold armed? at ha
  split at ha
  · cases ha
  · rename_i hin
    exact ⟨by simpa using hin, ha⟩

/-- A single event that an armed hook asks for. -/
private theorem calls_single {e : HookEvent} (he : h.asks e = true)
    (hp : (h.armed?.bind fun f => some ⟨f, [e]⟩) = some p) : h.Calls p := by
  obtain ⟨f, ha, hp⟩ := Option.bind_eq_some_iff.mp hp
  obtain ⟨hout, hf⟩ := armed?_eq_some ha
  cases hp
  refine ⟨hout, hf, ?_, .single e⟩
  intro e' he'
  rw [List.mem_singleton.mp he']
  exact he

theorem calls_of_callEvents (hp : h.callEvents = some p) : h.Calls p := by
  unfold callEvents at hp
  split at hp
  · rename_i hmask
    exact calls_single (e := .call) hmask hp
  · simp at hp

theorem calls_of_returnEvents (hp : h.returnEvents = some p) : h.Calls p := by
  unfold returnEvents at hp
  split at hp
  · rename_i hmask
    exact calls_single (e := .ret) hmask hp
  · simp at hp

theorem countInstruction_spec (h : Hook) : SameSetup h h.countInstruction.1 ∧
    (h.countInstruction.2 = [] ∨ h.countInstruction.2 = [.count] ∧ h.asks .count = true) := by
  unfold countInstruction
  split
  · exact ⟨.refl h, .inl rfl⟩
  · rename_i hcount
    constructor
    · exact ⟨rfl, rfl, rfl, rfl⟩
    · dsimp only
      split
      · have hasks : h.asks .count = true := by
          simp only [asks, decide_eq_true_eq]
          omega
        exact .inr ⟨rfl, hasks⟩
      · exact .inl rfl

theorem noteLine_spec (h : Hook) (line : Option Nat) : SameSetup h (h.noteLine line).1 ∧
    ((h.noteLine line).2 = [] ∨
      ∃ n, (h.noteLine line).2 = [.line n] ∧ h.asks (.line n) = true) := by
  unfold noteLine
  split
  · exact ⟨.refl h, .inl rfl⟩
  · rename_i hmask
    constructor
    · exact ⟨rfl, rfl, rfl, rfl⟩
    · have hasks : h.mask.line = true := by simpa using hmask
      cases line with
      | none => exact .inl rfl
      | some n =>
          dsimp only
          split
          · exact .inl rfl
          · exact .inr ⟨n, rfl, hasks⟩

/-- An instruction leaves the configuration alone and calls for what it asks for. -/
theorem instructionEvents_spec (h : Hook) (line : Option Nat) :
    SameSetup h (h.instructionEvents line).1 ∧
      ∀ p, (h.instructionEvents line).2 = some p → h.Calls p := by
  unfold instructionEvents
  cases ha : h.armed? with
  | none => exact ⟨.refl h, fun p hp => by cases hp⟩
  | some f =>
      obtain ⟨hout, hf⟩ := armed?_eq_some ha
      obtain ⟨hsetup, hcount⟩ := h.countInstruction_spec
      obtain ⟨hsetup', hline⟩ := h.countInstruction.1.noteLine_spec line
      refine ⟨hsetup.trans hsetup', ?_⟩
      intro p hp
      dsimp only at hp
      rcases hcount with hc | ⟨hc, hasks⟩ <;> rcases hline with hl | ⟨n, hl, hasks'⟩ <;>
        rw [hc, hl] at hp <;> cases hp
      · exact ⟨hout, hf, by simpa [hsetup.asks] using hasks', .single _⟩
      · exact ⟨hout, hf, by simpa using hasks, .single _⟩
      · refine ⟨hout, hf, ?_, .countLine n⟩
        intro e he
        simp only [List.cons_append, List.nil_append, List.mem_cons, List.not_mem_nil,
          or_false] at he
        obtain rfl | rfl := he
        · exact hasks
        · rw [← hsetup.asks]
          exact hasks'

end Hook

end ScriptDebug
