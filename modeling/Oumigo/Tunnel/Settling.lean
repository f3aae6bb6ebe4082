import Oumigo.Foundation.Variant
import Oumigo.Tunnel.Resizing
import Oumigo.Worker.Lifecycle
import Mathlib.Data.Finset.Card

/-!
# A resize reaches the tunnel slots

Without another resize, the signals that are on their way and the rounds they cause are counted
down by the steps of the loop and of the supervisor, and one of these steps is enabled until
the slots are settled.

* `TunnelSlots.unsettled`: how many such steps are left at most.
* `TunnelSlots.Kept.settled_setPoolSize`: the coordinator's view of a resize and the slots'.
* `tunnel_slots_settle`: the result.
-/

namespace Oumigo

namespace SlotsEvent

/-- A call of `set_pool_size`. -/
def resizes : SlotsEvent → Bool
  | .resize _ => true
  | _ => false

/-- A signal, or a step of `_supervise` in its loop. -/
def settles : SlotsEvent → Bool
  | .signal | .signalled | .starts | .resumes | .spawns | .scan | .parks => true
  | _ => false

end SlotsEvent

namespace TunnelSlots

/-! ## What is left to do -/

/-- The steps that the signals will cost, where a round compares `n` keys. -/
def signalsLeft (n : Nat) (signalling : Bool) (callbacks : Nat) : Nat :=
  (if signalling then n + 5 else 0) + callbacks * (n + 4)

/-- The steps of the supervisor until it waits. -/
def roundLeft (n : Nat) (resized : Bool) : SupervisorPc → Nat
  | .notStarted => n + 3
  | .top => n + 2
  | .scanning rest _ => rest.length + 1
  | .waiting => if resized then n + 3 else 0
  | .stopping | .stopped => 0

/-- The indexes that have a task or are to have one. -/
def span (s : TunnelSlots) : Finset Nat := s.slots.keys.toFinset ∪ Finset.range s.poolSize

/-- How far the slots are from being settled, where a round compares `n` keys. -/
def unsettledBy (n : Nat) (s : TunnelSlots) : Nat :=
  signalsLeft n s.signalling s.callbacks + roundLeft n s.resized s.pc

/-- How far the slots are from being settled. -/
def unsettled (s : TunnelSlots) : Nat := s.unsettledBy s.span.card

variable {s s' : TunnelSlots} {e : SlotsEvent} {n m d : Nat}

theorem signalsLeft_mono (less : n ≤ m) (signalling : Bool) (callbacks : Nat) :
    signalsLeft n signalling callbacks ≤ signalsLeft m signalling callbacks := by
  unfold signalsLeft
  have called : callbacks * (n + 4) ≤ callbacks * (m + 4) := Nat.mul_le_mul_left _ (by omega)
  split <;> omega

theorem roundLeft_mono (less : n ≤ m) (resized : Bool) (pc : SupervisorPc) :
    roundLeft n resized pc ≤ roundLeft m resized pc := by
  unfold roundLeft
  split
  case h_4 => split <;> omega
  all_goals omega

theorem unsettledBy_mono (less : n ≤ m) : s.unsettledBy n ≤ s.unsettledBy m :=
  Nat.add_le_add (signalsLeft_mono less _ _) (roundLeft_mono less _ _)

/-- A round registers no task beyond the span. -/
theorem span_card_le (size : s'.poolSize = s.poolSize)
    (keys : ∀ i ∈ s'.slots.keys, i ∈ s.slots.keys ∨ i < s.poolSize) :
    s'.span.card ≤ s.span.card := by
  apply Finset.card_le_card
  intro i member
  simp only [span, Finset.mem_union, List.mem_toFinset, Finset.mem_range, size] at member ⊢
  rcases member with registered | small
  · exact keys i registered
  · exact Or.inr small

/-- What a step does to what is left; the count after it may use the span before it. -/
structure CountsDown (s s' : TunnelSlots) (d : Nat) : Prop where
  size : s'.poolSize = s.poolSize
  keys : ∀ i ∈ s'.slots.keys, i ∈ s.slots.keys ∨ i < s.poolSize
  lower : s'.unsettledBy s.span.card + d ≤ s.unsettledBy s.span.card

theorem CountsDown.unsettled (down : CountsDown s s' d) : s'.unsettled + d ≤ s.unsettled :=
  (Nat.add_le_add_right (unsettledBy_mono (span_card_le down.size down.keys)) d).trans down.lower

theorem keys_length_le : s.slots.keys.length ≤ s.span.card := by
  have nodup : s.slots.keys.Nodup := s.slots.nodup
  rw [← List.toFinset_card_of_nodup nodup]
  exact Finset.card_le_card Finset.subset_union_left

/-! ## Every step -/

theorem signalsLeft_signal (callbacks : Nat) :
    signalsLeft n false callbacks + 1 ≤ signalsLeft n true callbacks ∧
      signalsLeft n false (callbacks + 1) + 1 ≤ signalsLeft n true callbacks := by
  simp only [signalsLeft, Bool.false_eq_true, if_false, if_true, Nat.succ_mul]
  omega

theorem signalsLeft_signalled {callbacks : Nat} (called : 0 < callbacks) (signalling : Bool) :
    signalsLeft n signalling (callbacks - 1) + (n + 4) = signalsLeft n signalling callbacks := by
  obtain ⟨before, rfl⟩ := Nat.exists_eq_succ_of_ne_zero (Nat.ne_of_gt called)
  simp only [signalsLeft, Nat.succ_sub_one, Nat.succ_mul]
  omega

theorem countsDown_signal (run : s.step .signal = some s') : CountsDown s s' 1 := by
  obtain ⟨signalling, run⟩ := Option.ite_none_right_eq_some.mp run
  rw [← Option.some.inj run]
  obtain ⟨unheard, heard⟩ := signalsLeft_signal (n := s.span.card) s.callbacks
  refine ⟨rfl, fun i => Or.inl, ?_⟩
  simp only [unsettledBy, signalling]
  split <;> omega

theorem countsDown_signalled (run : s.step .signalled = some s') : CountsDown s s' 1 := by
  obtain ⟨⟨free, called⟩, run⟩ := Option.ite_none_right_eq_some.mp run
  rw [← Option.some.inj run]
  have cost := signalsLeft_signalled (n := s.span.card) called s.signalling
  have round : roundLeft s.span.card true s.pc ≤ s.span.card + 3 := by
    unfold loopFree at free
    rcases of_decide_eq_true free with at_ | at_ <;> simp [roundLeft, at_]
  refine ⟨rfl, fun i => Or.inl, ?_⟩
  simp only [unsettledBy]
  omega

/-- A step of the supervisor that leaves the signals alone. -/
theorem countsDown_round (frame : Frame s s')
    (keys : ∀ i ∈ s'.slots.keys, i ∈ s.slots.keys ∨ i < s.poolSize)
    (lower : roundLeft s.span.card s'.resized s'.pc + d ≤ roundLeft s.span.card s.resized s.pc) :
    CountsDown s s' d := by
  refine ⟨frame.poolSize, keys, ?_⟩
  simp only [unsettledBy, frame.signalling, frame.callbacks]
  omega

theorem countsDown_spawns (inv : s.Kept) (run : s.step .spawns = some s') :
    CountsDown s s' 1 := by
  obtain ⟨top, run⟩ := Option.ite_none_right_eq_some.mp run
  rw [← Option.some.inj run]
  have done := inv.tracked.spawns (List.range s.poolSize)
  have frame := frame_foldl (s := s) frame_spawn (List.range s.poolSize)
  generalize (List.range s.poolSize).foldl spawn s = s₁ at done frame
  have keys : ∀ i ∈ s₁.slots.keys, i ∈ s.slots.keys ∨ i < s.poolSize := by
    intro i member
    by_cases small : i < s.poolSize
    · exact Or.inr small
    · obtain ⟨task, found⟩ := done.tracked.mem_keys.mp member
      rw [done.other i (by simpa using small)] at found
      exact Or.inl (inv.tracked.mem_keys.mpr ⟨task, found⟩)
  refine countsDown_round (frame.trans ⟨rfl, rfl, rfl, rfl⟩) keys ?_
  have compared := keys_length_le.trans (span_card_le frame.poolSize keys)
  simp only [roundLeft, top]
  omega

theorem countsDown_parks (inv : s.Kept) {stale : List Nat} (at_ : s.pc = .scanning [] stale) :
    CountsDown s { stale.foldl drop s with resized := false, pc := .waiting } 1 := by
  have done := inv.tracked.drops stale
  have frame := frame_foldl (s := s) frame_drop stale
  generalize stale.foldl drop s = s₁ at done frame
  have keys : ∀ i ∈ s₁.slots.keys, i ∈ s.slots.keys := by
    intro i member
    obtain ⟨task, found⟩ := done.tracked.mem_keys.mp member
    rw [done.task?] at found
    exact inv.tracked.mem_keys.mpr ⟨task, (Option.ite_none_left_eq_some.mp found).2⟩
  refine countsDown_round (frame.trans ⟨rfl, rfl, rfl, rfl⟩)
    (fun i member => Or.inl (keys i member)) ?_
  simp [roundLeft, at_]

/-- **Every step but a resize counts down**, or leaves the count as it is. -/
theorem countsDown_step (inv : s.Kept) (calm : e.resizes = false) (run : s.step e = some s') :
    CountsDown s s' e.settles.toNat := by
  cases e with
  | resize size => cases calm
  | signal => exact countsDown_signal run
  | signalled => exact countsDown_signalled run
  | starts =>
    obtain ⟨at_, run⟩ := Option.ite_none_right_eq_some.mp run
    rw [← Option.some.inj run]
    exact countsDown_round ⟨rfl, rfl, rfl, rfl⟩ (fun i => Or.inl) (by
      simp [roundLeft, at_, SlotsEvent.settles])
  | resumes =>
    obtain ⟨⟨at_, resized⟩, run⟩ := Option.ite_none_right_eq_some.mp run
    rw [← Option.some.inj run]
    exact countsDown_round ⟨rfl, rfl, rfl, rfl⟩ (fun i => Or.inl) (by
      simp [roundLeft, at_, resized, SlotsEvent.settles])
  | spawns => exact countsDown_spawns inv run
  | scan =>
    simp only [TunnelSlots.step] at run
    split at run
    · next at_ =>
      rw [← Option.some.inj run]
      exact countsDown_round ⟨rfl, rfl, rfl, rfl⟩ (fun i => Or.inl) (by
        simp [roundLeft, at_, SlotsEvent.settles])
    · cases run
  | parks =>
    simp only [TunnelSlots.step] at run
    split at run
    · next at_ =>
      rw [← Option.some.inj run]
      exact countsDown_parks inv at_
    · cases run
  | wake =>
    obtain ⟨-, run⟩ := Option.ite_none_right_eq_some.mp run
    rw [← Option.some.inj run]
    exact countsDown_round ⟨rfl, rfl, rfl, rfl⟩ (fun i => Or.inl) le_rfl
  | stop =>
    obtain ⟨at_, run⟩ := Option.ite_none_right_eq_some.mp run
    rw [← Option.some.inj run]
    have frame := frame_foldl (s := s) frame_cancel s.slots.keys
    have slots := slots_cancels (s := s) s.slots.keys
    generalize s.slots.keys.foldl cancel s = s₁ at frame slots
    exact countsDown_round (frame.trans ⟨rfl, rfl, rfl, rfl⟩)
      (fun i member => Or.inl (slots ▸ member)) (by simp [roundLeft, SlotsEvent.settles])
  | finishes =>
    obtain ⟨-, run⟩ := Option.ite_none_right_eq_some.mp run
    rw [← Option.some.inj run]
    exact countsDown_round ⟨rfl, rfl, rfl, rfl⟩ (fun i => Or.inl) (by
      simp [roundLeft, SlotsEvent.settles])
  | slot t e =>
    obtain ⟨-, run⟩ := Option.ite_none_right_eq_some.mp run
    obtain ⟨task, -, ran⟩ := Option.bind_eq_some_iff.mp run
    obtain ⟨after, -, rfl⟩ := Option.map_eq_some_iff.mp ran
    exact ⟨rfl, fun i => Or.inl, le_rfl⟩

/-- Until the slots are settled, a step that counts down is enabled. -/
theorem settles_enabled (running : s.Running) (not_yet : ¬ s.Settled) :
    ∃ e, e.settles = true ∧ (s.step e).isSome = true := by
  cases at_ : s.pc with
  | notStarted => exact ⟨.starts, rfl, by simp [TunnelSlots.step, at_]⟩
  | top => exact ⟨.spawns, rfl, by simp [TunnelSlots.step, at_]⟩
  | scanning rest stale =>
    cases rest with
    | nil => exact ⟨.parks, rfl, by simp [TunnelSlots.step, at_]⟩
    | cons i rest => exact ⟨.scan, rfl, by simp [TunnelSlots.step, at_]⟩
  | waiting =>
    by_cases signalling : s.signalling = true
    · exact ⟨.signal, rfl, by simp [TunnelSlots.step, signalling]⟩
    · by_cases called : 0 < s.callbacks
      · exact ⟨.signalled, rfl, by simp [TunnelSlots.step, loopFree, at_, called]⟩
      · refine ⟨.resumes, rfl, ?_⟩
        have resized : s.resized = true := by
          by_contra unset
          exact not_yet ⟨at_, not_or.mpr ⟨signalling, called⟩, Bool.eq_false_of_not_eq_true unset⟩
        simp [TunnelSlots.step, at_, resized]
  | stopping => exact absurd at_ running.1
  | stopped => exact absurd at_ running.2

/-- What `unsettled` counts in a run without a resize, which keeps the size. -/
theorem unsettled_isVariant (n size : Nat) :
    ((tunnelSlots n).without SlotsEvent.resizes).IsVariant
      (fun s => s.Kept ∧ s.poolSize = size) SlotsEvent.settles unsettled := by
  rintro s e s' ⟨inv, same⟩ run
  obtain ⟨calm, run⟩ := Transition.System.step_without.mp run
  have down := countsDown_step inv calm run
  exact ⟨⟨inv.step run, down.size.trans same⟩, down.unsettled⟩

/-- The tasks of a settled client, after a run without a resize. -/
theorem Kept.settled_run {es : List SlotsEvent} (inv : s.Kept)
    (calm : ∀ e ∈ es, e.resizes = false) (steps : (tunnelSlots n).run s es = some s')
    (settled : s'.Settled) (i : Nat) : (s'.task? i).isSome = true ↔ i < s.poolSize := by
  rw [← Transition.System.run_without calm] at steps
  obtain ⟨after, size⟩ := Transition.System.run_stable
    (fun t e t' kept run => (unsettled_isVariant n s.poolSize t e t' kept run).1) ⟨inv, rfl⟩ steps
  obtain ⟨waiting, quiet, unset⟩ := settled
  rw [← size, ← after.waiting waiting quiet unset i, after.tracked.mem_keys,
    Option.isSome_iff_exists]

/-- The size that the coordinator sees is the one that the supervisor reads. -/
theorem poolSize_resize {size : Nat} (tunnel : TunnelClient)
    (run : s.step (.resize size) = some s') :
    (tunnel.setPoolSize (some size)).poolSize = s'.poolSize := by
  obtain ⟨-, run⟩ := Option.ite_none_left_eq_some.mp run
  have stored : (max 1 (size : Int)).toNat = max 1 size := by omega
  rw [stored] at run
  split at run
  · next unchanged =>
    rw [← Option.some.inj run]
    exact unchanged
  · rw [← Option.some.inj run]
    rfl

/-- **From the acknowledgement to the slots.**  Once the slots are settled again after the
coordinator passed a size on, they are those of the size that it has for the tunnel. -/
theorem Kept.settled_setPoolSize {size : Nat} {s₁ : TunnelSlots} {es : List SlotsEvent}
    (inv : s.Kept) (tunnel : TunnelClient) (run : s.step (.resize size) = some s₁)
    (calm : ∀ e ∈ es, e.resizes = false) (steps : (tunnelSlots n).run s₁ es = some s')
    (settled : s'.Settled) (i : Nat) :
    (s'.task? i).isSome = true ↔ i < (tunnel.setPoolSize (some size)).poolSize := by
  rw [poolSize_resize tunnel run]
  exact (inv.step run).settled_run calm steps settled i

end TunnelSlots

open TunnelSlots in
/-- **A resize reaches the slots.**  Take any state that is reached, and any steps from there with
no other resize among them.  At most `unsettled` of them are signals or steps of the supervisor in
its loop; until the slots are settled or the client is stopped one more of these is enabled, and
once they are settled a task is registered for exactly the indexes below the size. -/
theorem tunnel_slots_settle {n : Nat} {s s' : TunnelSlots} {es : List SlotsEvent}
    (reached : (tunnelSlots n).Reachable s) (steps : (tunnelSlots n).run s es = some s')
    (calm : ∀ e ∈ es, e.resizes = false) :
    es.countP SlotsEvent.settles ≤ s.unsettled ∧
    (s'.Running → ¬ s'.Settled → ∃ e, e.settles = true ∧ (s'.step e).isSome = true) ∧
    (s'.Settled → ∀ i, (s'.task? i).isSome = true ↔ i < s.poolSize) := by
  have inv := kept_of_reachable reached
  refine ⟨?_, settles_enabled, inv.settled_run calm steps⟩
  rw [← Transition.System.run_without calm] at steps
  have bound := (unsettled_isVariant n s.poolSize).count_le ⟨inv, rfl⟩ steps
  omega

/-- A pool of two that is told to be one when the supervisor begins. -/
def askedToShrink : TunnelSlots :=
  { TunnelSlots.initial 2 with pc := .top, poolSize := 1, signalling := true }

theorem tunnel_slots_settle_shrink :
    askedToShrink.unsettled = 9 ∧
      [SlotsEvent.spawns, .scan, .signal, .parks].countP SlotsEvent.settles ≤
        askedToShrink.unsettled := by
  have start : (tunnelSlots 2).run (.initial 2) [.starts, .resize 1] = some askedToShrink := rfl
  obtain ⟨s', steps⟩ : ∃ s', (tunnelSlots 2).run askedToShrink
      [.spawns, .scan, .signal, .parks] = some s' := ⟨_, rfl⟩
  exact ⟨by decide, (tunnel_slots_settle (.of_run rfl start) steps (by decide)).1⟩

end Oumigo
