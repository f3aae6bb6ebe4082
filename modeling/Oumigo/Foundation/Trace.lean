import Mathlib.Tactic.Common

/-!
# Traces whose events are justified by the past

A trace lists events newest first.  `Justified J` says that every event stands in
the relation `J` to the events before it, so that a fact about one event of a long
run is read off at that event.
-/

namespace Trace

variable {ε : Type} {J K : ε → List ε → Prop}

def Justified (J : ε → List ε → Prop) : List ε → Prop
  | [] => True
  | event :: before => J event before ∧ Justified J before

namespace Justified

theorem cons {event : ε} {before : List ε} (reason : J event before)
    (past : Justified J before) : Justified J (event :: before) := ⟨reason, past⟩

theorem past {event : ε} {before : List ε} (trace : Justified J (event :: before)) :
    Justified J before := trace.2

theorem mono (weaken : ∀ event before, J event before → K event before) {trace : List ε}
    (justified : Justified J trace) : Justified K trace := by
  induction trace with
  | nil => trivial
  | cons event before ih => exact ⟨weaken event before justified.1, ih justified.2⟩

/-- What one event's justification says of it alone holds of every event. -/
theorem forall_mem {A : ε → Prop} (reads : ∀ event before, J event before → A event)
    {trace : List ε} (justified : Justified J trace) : ∀ event ∈ trace, A event := by
  induction trace with
  | nil => intro event member; cases member
  | cons event before ih =>
    intro other member
    rcases List.mem_cons.mp member with rfl | older
    · exact reads _ _ justified.1
    · exact ih justified.2 other older

/-- Two conditions that agree wherever the past is justified hold of the same traces. -/
theorem iff {K L : ε → List ε → Prop} (same : ∀ event before, J event before →
    Justified J before → (K event before ↔ L event before)) {trace : List ε}
    (justified : Justified J trace) : Justified K trace ↔ Justified L trace := by
  induction trace with
  | nil => exact Iff.rfl
  | cons event before ih => exact and_congr (same _ _ justified.1 justified.2) (ih justified.2)

end Justified

instance decidableJustified [∀ event before, Decidable (J event before)] :
    (trace : List ε) → Decidable (Justified J trace)
  | [] => isTrue trivial
  | event :: before =>
      have := decidableJustified before
      inferInstanceAs (Decidable (J event before ∧ Justified J before))

end Trace
