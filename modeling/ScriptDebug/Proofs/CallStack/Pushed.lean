import ScriptDebug.Proofs.CallStack.Refinement
import ScriptDebug.Reflection.Traceback

/-!
# One call more

Pushing a call moves every call out by one level.  All that is told of the calls of a
stack from their levels is the same one level further out: their names, lines and locals,
and the entries of a traceback.

## Implementation notes

A description also lists the lines of every call of the same function.  So it is the same
only if the pushed call is of a function that was not running.
-/

namespace ScriptDebug

namespace CallStack

namespace Represents

variable {cs : CallStack} {l : List Frame}

theorem frames_push (h : cs.Represents l) (fr : Frame) : (cs.push fr).frames = fr :: cs.frames := by
  rw [(h.push fr).frames_eq, h.frames_eq]

theorem frame?_push_succ (h : cs.Represents l) (fr : Frame) {n : Int} (hn : 1 ≤ n) :
    (cs.push fr).frame? (n + 1) = cs.frame? n := by
  have hcond : (1 ≤ n + 1 ∧ n + 1 ≤ (fr :: l).length) ↔ (1 ≤ n ∧ n ≤ l.length) := by
    rw [List.length_cons]
    omega
  have hplace : (n + 1).toNat - 1 = (n.toNat - 1) + 1 := by omega
  rw [(h.push fr).frame?_eq, h.frame?_eq, hplace, List.getElem?_cons_succ]
  simp only [hcond]

theorem mem_frames_of_frame? (h : cs.Represents l) {n : Int} {fr : Frame}
    (hfr : cs.frame? n = some fr) : fr ∈ cs.frames := by
  rw [h.frame?_eq] at hfr
  split at hfr
  · rw [h.frames_eq]
    exact List.mem_of_getElem? hfr
  · cases hfr

/-- The levels of the other calls are one higher. -/
theorem levels_push (h : cs.Represents l) (fr : Frame) : (cs.push fr).levels =
    (fr, 1) :: cs.levels.map fun p => (p.1, p.2 + 1) := by
  rw [levels, h.frames_push, List.zipIdx_cons, levels, List.zipIdx_succ]

theorem length_levels (h : cs.Represents l) : cs.levels.length = cs.depth := by
  rw [levels, List.length_zipIdx, h.frames_eq, h.depth_eq]

end Represents

/-- There are no calls at levels beyond the depth. -/
theorem frame?_of_depth_lt {cs : CallStack} {n : Int} (hn : cs.depth < n) : cs.frame? n = none :=
  if_neg (by omega)

/-- There are no calls at levels below 1. -/
theorem frame?_of_lt_one {cs : CallStack} {n : Int} (hn : n < 1) : cs.frame? n = none :=
  if_neg (by omega)

end CallStack

namespace Store

variable {cs : CallStack} {l : List Frame} {n : Int}

theorem callName?_push (s : Store) (h : cs.Represents l) (fr : Frame) (hn : 0 ≤ n) :
    s.callName? (cs.push fr) (n + 1) = s.callName? cs n := by
  have hcaller : (cs.push fr).callerOf? (n + 1) = cs.callerOf? n :=
    h.frame?_push_succ fr (by omega)
  rw [callName?, callName?, hcaller]

/-- The description of a call after another function was called. -/
theorem infoAtLevel?_push (s : Store) (size : Nat) (h : cs.Represents l) (r : InfoRequest)
    {fr : Frame} (hfirst : ∀ fr' ∈ cs.frames, fr'.callee ≠ fr.callee) (hn : 1 ≤ n) :
    s.infoAtLevel? size (cs.push fr) r (n + 1) = s.infoAtLevel? size cs r n := by
  rw [infoAtLevel?, infoAtLevel?, h.frame?_push_succ fr hn]
  cases hfr : cs.frame? n with
  | none => rfl
  | some fr' =>
      have hother : (fr.callee == fr'.callee) = false :=
        beq_eq_false_iff_ne.mpr fun heq => hfirst fr' (h.mem_frames_of_frame? hfr) heq.symm
      have hlevel : ((n + 1).toNat : Int) = (n.toNat : Int) + 1 := by omega
      simp only [Option.map_some, functionInfo, activeLines, Option.bind_some, h.frames_push,
        List.filter_cons, hother, hlevel, s.callName?_push h fr (Int.natCast_nonneg _)]
      rfl

theorem traceback_congr {cs' : CallStack} {n' : Int} (s : Store) (size : Nat)
    (message : Option String)
    (h : s.traceEntries size cs' n' = s.traceEntries size cs n) :
    s.traceback size cs' message n' = s.traceback size cs message n := by
  unfold traceback
  rw [h]

/-- The entries of a traceback are of the calls further out. -/
theorem traceback_push (s : Store) (size : Nat) (h : cs.Represents l) (fr : Frame)
    (message : Option String) (hn : 1 ≤ n) :
    s.traceback size (cs.push fr) message (n + 1) = s.traceback size cs message n := by
  apply traceback_congr
  have hplace : (max (n + 1) 1).toNat - 1 = ((max n 1).toNat - 1) + 1 := by omega
  rw [traceEntries, traceEntries, h.levels_push, hplace, List.drop_succ_cons,
    ← List.map_drop, List.map_map]
  apply List.map_congr_left
  rintro ⟨fr', level⟩ _
  exact congrArg (s.traceEntry size fr') (s.callName?_push h fr (Int.natCast_nonneg level))

/-- Below level 1 a traceback starts at the innermost call. -/
theorem traceback_of_lt_one (s : Store) (size : Nat) (message : Option String) (hn : n < 1) :
    s.traceback size cs message n = s.traceback size cs message 1 := by
  apply traceback_congr
  have hmax : max n 1 = max 1 1 := by omega
  rw [traceEntries, traceEntries, hmax]

/-- Beyond the depth there are no entries. -/
theorem traceback_of_depth_lt (s : Store) (size : Nat) (h : cs.Represents l)
    (message : Option String) {n' : Int} (hn : cs.depth < n) (hn' : cs.depth < n') :
    s.traceback size cs message n = s.traceback size cs message n' := by
  have hnone : ∀ k : Int, cs.depth < k → s.traceEntries size cs k = [] := by
    intro k hk
    rw [traceEntries, List.drop_eq_nil_of_le, List.map_nil]
    rw [h.length_levels]
    omega
  apply traceback_congr
  rw [hnone n hn, hnone n' hn']

end Store

end ScriptDebug
