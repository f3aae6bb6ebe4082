import Oumigo.Auth.Throttle
import Oumigo.Foundation.Window
import Mathlib.Algebra.Order.Ring.Rat

/-!
# Failed attempts in a window

`FailureLimiter` of `service/manager/access.py` over any sequence of calls on any addresses.
The failures are pruned as a side effect of both methods; `recent_run` says that this never shows:
what `_recent` leaves is always the recorded failures that are recent enough.

A worker-facing endpoint checks the source and records a denial without giving the event loop a
turn in between, so a failure is recorded right after a check of its address (`Checked`).
-/

namespace Oumigo

/-- A call of `FailureLimiter`, with what it reads from the monotonic clock.  `record` reads it
to prune, and again for the failure. -/
inductive LimiterCall where
  | blocked (clock : Rat) (host : Option String)
  | record (pruned clock : Rat) (host : Option String)
  deriving DecidableEq

namespace LimiterCall

/-- The clock is read for an address only. -/
def readings : LimiterCall → List Rat
  | .blocked clock (some _) => [clock]
  | .record pruned clock (some _) => [pruned, clock]
  | .blocked _ none => []
  | .record _ _ none => []

/-- When a call records a failure of an address. -/
def failure (host : String) : LimiterCall → Option Rat
  | .record _ clock host' => if host' = some host then some clock else none
  | .blocked _ _ => none

end LimiterCall

/-- The clock does not go backwards. -/
def Clocked (calls : List LimiterCall) : Prop :=
  (calls.flatMap LimiterCall.readings).Pairwise (· ≤ ·)

instance (calls : List LimiterCall) : Decidable (Clocked calls) :=
  inferInstanceAs (Decidable (List.Pairwise _ _))

/-- The recorded failures of an address. -/
def failuresOf (host : String) (calls : List LimiterCall) : List Rat :=
  calls.filterMap (LimiterCall.failure host)

/-- A request: when its source is checked, and, if its credential turns out bad, what `record`
reads from the clock. -/
structure Attempt where
  host : Option String
  checked : Rat
  pruned : Rat
  recorded : Rat
  fails : Bool

namespace FailureLimiter

/-- `FailureLimiter(max_failures, window_s)`. -/
def new (maxFailures : Nat) (windowS : Rat) : FailureLimiter :=
  ⟨maxFailures, windowS, fun _ => []⟩

/-- `record`, with its two readings of the clock. -/
def recordAt (limiter : FailureLimiter) (pruned clock : Rat) : Option String → FailureLimiter
  | none => limiter
  | some host => limiter.withFailures host (limiter.recent pruned host ++ [clock])

/-- A call. -/
def call (limiter : FailureLimiter) : LimiterCall → FailureLimiter
  | .blocked clock host => (limiter.blocked clock host).2
  | .record pruned clock host => limiter.recordAt pruned clock host

/-- A sequence of calls. -/
def run (limiter : FailureLimiter) (calls : List LimiterCall) : FailureLimiter :=
  calls.foldl call limiter

/-- Each failure is recorded after a check of its address that let it pass, with no failure of
that address recorded in between. -/
def Checked (limiter : FailureLimiter) (calls : List LimiterCall) : Prop :=
  ∀ before pruned clock host after, calls = before ++ .record pruned clock (some host) :: after →
    ∃ earlier checked between, before = earlier ++ .blocked checked (some host) :: between ∧
      ((limiter.run earlier).blocked checked (some host)).1 = false ∧
      failuresOf host between = []

/-- The calls of a request: `worker_source`, then `_deny` where the source passes. -/
def attemptCalls (limiter : FailureLimiter) (a : Attempt) : List LimiterCall :=
  .blocked a.checked a.host ::
    if (limiter.blocked a.checked a.host).1 = false ∧ a.fails = true then
      [.record a.pruned a.recorded a.host]
    else []

/-- The calls of requests, one after the other. -/
def attempted (limiter : FailureLimiter) : List Attempt → List LimiterCall
  | [] => []
  | a :: rest => limiter.attemptCalls a ++ attempted (limiter.run (limiter.attemptCalls a)) rest

/-- In the model of the endpoints one reading stands for both. -/
theorem record_eq_recordAt (limiter : FailureLimiter) (clock : Rat) (host : Option String) :
    limiter.record clock host = limiter.recordAt clock clock host := by
  cases host <;> rfl

end FailureLimiter

open FailureLimiter

variable {calls before after : List LimiterCall} {call : LimiterCall} {host : String}
  {maxFailures : Nat} {windowS clock start : Rat}

/-! ## The recorded failures -/

theorem failuresOf_append (host : String) (calls later : List LimiterCall) :
    failuresOf host (calls ++ later) = failuresOf host calls ++ failuresOf host later :=
  List.filterMap_append

/-- A failure is recorded at a reading of the clock. -/
theorem LimiterCall.failure_mem (recorded : call.failure host = some clock) :
    clock ∈ call.readings := by
  cases call with
  | blocked _ _ => cases recorded
  | record pruned time host' =>
    simp only [LimiterCall.failure, Option.ite_none_right_eq_some, Option.some.injEq] at recorded
    obtain ⟨rfl, rfl⟩ := recorded
    exact List.mem_cons_of_mem _ List.mem_cons_self

theorem mem_failuresOf (member : clock ∈ failuresOf host calls) :
    clock ∈ calls.flatMap LimiterCall.readings := by
  obtain ⟨call, inside, recorded⟩ := List.mem_filterMap.mp member
  exact List.mem_flatMap.mpr ⟨call, inside, LimiterCall.failure_mem recorded⟩

theorem Clocked.append (clocked : Clocked (before ++ after)) :
    Clocked before ∧ Clocked after ∧ ∀ t ∈ before.flatMap LimiterCall.readings,
      ∀ t' ∈ after.flatMap LimiterCall.readings, t ≤ t' := by
  unfold Clocked at clocked
  rw [List.flatMap_append] at clocked
  exact List.pairwise_append.mp clocked

theorem Clocked.cons (clocked : Clocked (call :: calls)) :
    Clocked calls ∧ ∀ t ∈ call.readings, ∀ t' ∈ calls.flatMap LimiterCall.readings, t ≤ t' := by
  unfold Clocked at clocked
  rw [List.flatMap_cons] at clocked
  exact (List.pairwise_append.mp clocked).2

theorem Clocked.failures (clocked : Clocked calls) : (failuresOf host calls).Pairwise (· ≤ ·) := by
  induction calls with
  | nil => exact List.Pairwise.nil
  | cons call rest ih =>
    obtain ⟨later, order⟩ := clocked.cons
    unfold failuresOf
    rw [List.filterMap_cons]
    cases recorded : call.failure host with
    | none => exact ih later
    | some clock =>
      apply List.Pairwise.cons _ (ih later)
      intro t member
      exact order clock (LimiterCall.failure_mem recorded) t (mem_failuresOf member)

/-! ## What the limiter keeps -/

namespace FailureLimiter

variable {limiter : FailureLimiter}

theorem run_append (calls : List LimiterCall) (call : LimiterCall) :
    limiter.run (calls ++ [call]) = (limiter.run calls).call call := by
  simp [run]

@[simp]
theorem withFailures_windowS (host : String) (times : List Rat) :
    (limiter.withFailures host times).windowS = limiter.windowS := rfl

@[simp]
theorem withFailures_maxFailures (host : String) (times : List Rat) :
    (limiter.withFailures host times).maxFailures = limiter.maxFailures := rfl

theorem call_limits (call : LimiterCall) :
    (limiter.call call).windowS = limiter.windowS ∧
      (limiter.call call).maxFailures = limiter.maxFailures := by
  cases call with
  | blocked clock host => cases host <;> exact ⟨rfl, rfl⟩
  | record pruned clock host => cases host <;> exact ⟨rfl, rfl⟩

theorem run_limits (limiter : FailureLimiter) (calls : List LimiterCall) :
    (limiter.run calls).windowS = limiter.windowS ∧
      (limiter.run calls).maxFailures = limiter.maxFailures := by
  induction calls using List.reverseRecOn with
  | nil => exact ⟨rfl, rfl⟩
  | append_singleton calls call ih =>
    rw [run_append]
    exact ⟨(call_limits call).1.trans ih.1, (call_limits call).2.trans ih.2⟩

/-- A call changes the failures of its address: it prunes them at some reading, and appends the
failure it records. -/
theorem failures_call (limiter : FailureLimiter) (call : LimiterCall) (host : String) :
    (limiter.call call).failures host = limiter.failures host ∧ call.failure host = none ∨
    ∃ clock ∈ call.readings, (limiter.call call).failures host =
      limiter.recent clock host ++ (call.failure host).toList := by
  cases call with
  | blocked clock host' =>
    cases host' with
    | none => exact Or.inl ⟨rfl, rfl⟩
    | some other =>
      by_cases same : host = other
      · apply Or.inr
        refine ⟨clock, List.mem_singleton_self _, ?_⟩
        rw [same]
        exact (if_pos rfl).trans (List.append_nil _).symm
      · exact Or.inl ⟨if_neg same, rfl⟩
  | record pruned clock host' =>
    cases host' with
    | none => exact Or.inl ⟨rfl, by simp [LimiterCall.failure]⟩
    | some other =>
      by_cases same : host = other
      · apply Or.inr
        refine ⟨pruned, List.mem_cons_self, ?_⟩
        have recorded : (LimiterCall.record pruned clock (some other)).failure host =
            some clock := if_pos (by rw [same])
        rw [recorded, same]
        exact if_pos rfl
      · have skipped : (LimiterCall.record pruned clock (some other)).failure host = none := by
          simpa [LimiterCall.failure] using Ne.symm same
        exact Or.inl ⟨if_neg same, skipped⟩

/-- **What `_recent` leaves** after any calls, at any later time: the recorded failures that are
recent enough. -/
theorem recent_run (maxFailures : Nat) (windowS : Rat) (host : String) (clocked : Clocked calls)
    (past : ∀ t ∈ calls.flatMap LimiterCall.readings, t ≤ clock) :
    ((new maxFailures windowS).run calls).recent clock host =
      (failuresOf host calls).filter (clock - windowS ≤ ·) := by
  induction calls using List.reverseRecOn generalizing clock with
  | nil => rfl
  | append_singleton calls call ih =>
    obtain ⟨before, -, order⟩ := clocked.append
    rw [List.flatMap_append, List.flatMap_singleton] at past
    rw [List.flatMap_singleton] at order
    have sooner : ∀ t ∈ calls.flatMap LimiterCall.readings, t ≤ clock := fun t member =>
      past t (List.mem_append_left _ member)
    have width := (run_limits (new maxFailures windowS) calls).1
    have recorded : failuresOf host [call] = (call.failure host).toList := by
      simp [failuresOf, List.filterMap_cons]
      cases call.failure host <;> rfl
    rw [run_append, failuresOf_append, recorded]
    unfold recent
    rw [(call_limits call).1, width]
    rcases failures_call ((new maxFailures windowS).run calls) call host with
      ⟨same, nothing⟩ | ⟨pruned, reading, same⟩
    · have kept := ih before sooner
      unfold recent at kept
      rw [width] at kept
      rw [same, nothing, kept]
      simp
    · have kept := ih before fun t member => order t member pruned reading
      have sorted : (failuresOf host (calls ++ [call])).Pairwise (· ≤ ·) := clocked.failures
      rw [failuresOf_append, recorded] at sorted
      have shorter : ((failuresOf host calls).filter (pruned - windowS ≤ ·) ++
          (call.failure host).toList).Pairwise (· ≤ ·) :=
        sorted.sublist (List.filter_sublist.append (List.Sublist.refl _))
      have cutoffs : pruned - windowS ≤ clock - windowS :=
        sub_le_sub_right (past pruned (List.mem_append_right _ reading)) windowS
      rw [same, kept]
      show List.dropWhile (fun t => t < clock - windowS) _ = _
      rw [Window.dropWhile_lt (clock - windowS) shorter, List.filter_append, List.filter_append]
      exact congrArg (· ++ _) (Window.filter_filter cutoffs _)

/-- `blocked` after any calls counts the failures in the window. -/
theorem blocked_run (clocked : Clocked calls)
    (past : ∀ t ∈ calls.flatMap LimiterCall.readings, t ≤ clock) :
    (((new maxFailures windowS).run calls).blocked clock (some host)).1 = true ↔
      maxFailures ≤ Window.count (clock - windowS) clock (failuresOf host calls) := by
  have kept := recent_run maxFailures windowS host clocked past
  have bound := (run_limits (new maxFailures windowS) calls).2
  have recorded : ∀ t ∈ failuresOf host calls, t ≤ clock := fun t member =>
    past t (mem_failuresOf member)
  show decide (_ ≤ (((new maxFailures windowS).run calls).recent clock host).length) = true ↔ _
  rw [bound, kept, decide_eq_true_eq, Window.length_filter recorded]
  rfl

/-! ## Checked attempts -/

/-- A failure recorded after a check was admitted by the window. -/
theorem Checked.limited (checked : Checked (new maxFailures windowS) calls)
    (clocked : Clocked calls) (host : String) :
    Window.Limited maxFailures windowS (failuresOf host calls) := by
  intro front t back split
  obtain ⟨before, rest, rfl, same, rest_split⟩ := List.filterMap_eq_append_iff.mp split
  obtain ⟨quiet, call, after, rfl, nothing, recorded, -⟩ :=
    List.filterMap_eq_cons_iff.mp rest_split
  have silent : failuresOf host quiet = [] := List.filterMap_eq_nil_iff.mpr nothing
  cases call with
  | blocked _ _ => cases recorded
  | record pruned clock host' =>
    simp only [LimiterCall.failure, Option.ite_none_right_eq_some, Option.some.injEq] at recorded
    obtain ⟨rfl, rfl⟩ := recorded
    rw [← List.append_assoc] at clocked
    obtain ⟨earlier, seen, between, passed, free, none⟩ :=
      checked (before ++ quiet) pruned clock host after (List.append_assoc _ _ _).symm
    have fails : front = failuresOf host earlier := by
      have whole : failuresOf host (before ++ quiet) =
          failuresOf host (earlier ++ .blocked seen (some host) :: between) :=
        congrArg (failuresOf host) passed
      rw [failuresOf_append, silent, List.append_nil, failuresOf_append] at whole
      rw [← same]
      exact whole.trans ((congrArg (_ ++ ·) none).trans (List.append_nil _))
    rw [passed, List.append_assoc, List.cons_append] at clocked
    obtain ⟨old, tail, order⟩ := clocked.append
    have checkedNow : ∀ t ∈ earlier.flatMap LimiterCall.readings, t ≤ seen := fun t member =>
      order t member seen (List.mem_flatMap.mpr ⟨_, List.mem_cons_self, List.mem_cons_self⟩)
    have sooner : seen ≤ clock := by
      obtain ⟨-, order⟩ := tail.cons
      apply order seen List.mem_cons_self clock
      apply List.mem_flatMap.mpr ⟨.record pruned clock (some host), by simp, ?_⟩
      exact List.mem_cons_of_mem _ List.mem_cons_self
    have room : ¬ maxFailures ≤ Window.count (seen - windowS) seen (failuresOf host earlier) := by
      rw [← blocked_run old checkedNow, free]
      exact Bool.false_ne_true
    have fits : Window.count (clock - windowS) clock (failuresOf host earlier) ≤
        Window.count (seen - windowS) seen (failuresOf host earlier) := by
      apply Window.count_mono
      intro t member low _
      exact ⟨(sub_le_sub_right sooner windowS).trans low, checkedNow t (mem_failuresOf member)⟩
    rw [fails]
    omega

/-- Requests make their calls as `Checked` says. -/
theorem checked_attempted (limiter : FailureLimiter) (attempts : List Attempt) :
    limiter.Checked (attempted limiter attempts) := by
  induction attempts generalizing limiter with
  | nil =>
    intro before pruned clock host after split
    simp [attempted] at split
  | cons a rest ih =>
    intro before pruned clock host after split
    rw [attempted] at split
    rcases List.append_eq_append_iff.mp split with ⟨late, same, later⟩ | ⟨own, same, later⟩
    · obtain ⟨earlier, seen, between, rfl, free, none⟩ :=
        ih (limiter.run (limiter.attemptCalls a)) late pruned clock host after later
      refine ⟨limiter.attemptCalls a ++ earlier, seen, between, ?_, ?_, none⟩
      · rw [same, List.append_assoc]
      · rw [← free]
        unfold run
        rw [List.foldl_append]
    · cases own with
      | nil =>
        -- the other requests do not begin with a failure either
        obtain ⟨earlier, seen, between, absurd, -⟩ :=
          ih (limiter.run (limiter.attemptCalls a)) [] pruned clock host after later.symm
        simp at absurd
      | cons first own =>
        rw [List.cons_append, List.cons.injEq] at later
        obtain ⟨rfl, -⟩ := later
        unfold attemptCalls at same
        cases before with
        | nil => cases (List.cons.inj same).1
        | cons check before =>
          obtain ⟨rfl, records⟩ := List.cons.inj same
          split at records
          · next passes =>
            cases before with
            | nil =>
              obtain ⟨-, -, address⟩ := LimiterCall.record.inj (List.cons.inj records).1
              refine ⟨[], a.checked, [], ?_, ?_, rfl⟩
              · rw [address, List.nil_append]
              · rw [← address]
                exact passes.1
            | cons other before => simp at records
          · simp at records

/-- **An exact sliding window**: an address is blocked exactly when its failures in the window
that ends now have reached the limit, and if every failure follows a check that let it pass, no
window holds more failures than the limit. -/
theorem failure_limiter_exact (maxFailures : Nat) (windowS : Rat) (calls : List LimiterCall)
    (clocked : Clocked calls) :
    (∀ before clock host after, calls = before ++ .blocked clock (some host) :: after →
      ((((new maxFailures windowS).run before).blocked clock (some host)).1 = true ↔
        maxFailures ≤ Window.count (clock - windowS) clock (failuresOf host before))) ∧
    (Checked (new maxFailures windowS) calls → ∀ host start,
      Window.count start (start + windowS) (failuresOf host calls) ≤ maxFailures) := by
  constructor
  · rintro before clock host after rfl
    obtain ⟨earlier, -, order⟩ := clocked.append
    apply blocked_run earlier
    intro t member
    exact order t member clock (List.mem_flatMap.mpr ⟨_, List.mem_cons_self, List.mem_cons_self⟩)
  · intro checked host start
    exact (checked.limited clocked host).count_le clocked.failures start

/-- Two failures of one address are let pass and a third is not, between calls on another. -/
def burst : List LimiterCall :=
  [.blocked 0 (some "203.0.113.7"), .record 0 0 (some "203.0.113.7"),
    .blocked 1 (some "198.51.100.9"), .blocked 2 (some "203.0.113.7"),
    .record 2 3 (some "203.0.113.7"), .blocked 60 (some "203.0.113.7")]

theorem failure_limiter_exact_burst :
    (((new 2 60).run (burst.take 5)).blocked 60 (some "203.0.113.7")).1 = true ∧
    Window.count 0 60 (failuresOf "203.0.113.7" burst) ≤ 2 := by
  have clocked : Clocked burst := by decide +kernel
  obtain ⟨exact, bound⟩ := failure_limiter_exact 2 60 burst clocked
  have attempts : burst = attempted (new 2 60)
      [⟨some "203.0.113.7", 0, 0, 0, true⟩, ⟨some "198.51.100.9", 1, 1, 1, false⟩,
        ⟨some "203.0.113.7", 2, 2, 3, true⟩, ⟨some "203.0.113.7", 60, 60, 60, true⟩] := by
    decide +kernel
  have checked : Checked (new 2 60) burst := by
    rw [attempts]
    exact checked_attempted _ _
  constructor
  · apply (exact (burst.take 5) 60 "203.0.113.7" [] rfl).mpr
    decide +kernel
  · have window := bound checked "203.0.113.7" 0
    rwa [zero_add] at window

end FailureLimiter

end Oumigo
