import Oumigo.Tunnel.Slots
import Mathlib.Algebra.BigOperators.Group.List.Basic
import Mathlib.Data.List.Perm.Subperm
import Mathlib.Tactic.Linarith
import Mathlib.Tactic.Positivity

/-!
# The worker keeps its tunnel slots

The size of the pool is stored by one thread and read, several times in a round, by another.  A
round may then act on sizes that are no longer asked for; what makes up for it is the signal that
follows each store, which `_supervise` cannot miss, because nothing sets the event between its
first read and `clear`.

* `SlotTask.Timed`: the backoff of a slot.
* `TunnelSlots.Kept`: the invariant.
* `TunnelSlots.Kept.step`: every step keeps it.
* `tunnel_slots_kept`: what follows for the tasks, `connected` and the backoff.
-/

namespace Oumigo

/-! ## One slot -/

/-- The backoff after so many failed dials. -/
def backoffAfter (failed : Nat) : Rat := min (2 ^ failed / 2) backoffMax

theorem backoffAfter_succ (failed : Nat) :
    min (backoffAfter failed * 2) backoffMax = backoffAfter (failed + 1) := by
  unfold backoffAfter backoffMax
  rw [pow_succ]
  rcases le_total ((2 : Rat) ^ failed / 2) 30 with below | above
  · rw [min_eq_left below, div_mul_eq_mul_div]
  · rw [min_eq_right above, min_eq_right (by norm_num), min_eq_right (by linarith)]

theorem backoffAfter_zero : backoffAfter 0 = backoffStart := by
  unfold backoffAfter backoffMax backoffStart
  norm_num

theorem backoffAfter_pos (failed : Nat) : 0 < backoffAfter failed := by
  unfold backoffAfter backoffMax
  exact lt_min (by positivity) (by norm_num)

namespace SlotTask

variable {task task' : SlotTask} {wake : Nat} {e : SlotEvent} {d : Int}

/-- What a slot adds to `connected`. -/
def carries (task : SlotTask) : Int := if task.pc = .carrying then 1 else 0

/-- The backoff is that of the failed dials since the last reset, and a wait lasts about as long
as the backoff before the last of them. -/
structure Timed (task : SlotTask) : Prop where
  backoff : task.backoff = backoffAfter task.failed
  delay : ∀ delay waits, task.pc = .backingOff delay waits → ∃ failed, task.failed = failed + 1 ∧
    backoffAfter failed / 2 ≤ delay ∧ delay ≤ 3 / 2 * backoffAfter failed

theorem timed_create (i : Nat) : (create i).Timed :=
  ⟨backoffAfter_zero.symm, by simp [create]⟩

/-- A task that does not wait keeps its backoff. -/
theorem Timed.moved (timed : task.Timed) (backoff : task'.backoff = task.backoff)
    (failed : task'.failed = task.failed)
    (quiet : ∀ delay waits, task'.pc ≠ .backingOff delay waits) : task'.Timed :=
  ⟨by rw [backoff, failed, timed.backoff], fun delay waits at_ => absurd at_ (quiet delay waits)⟩

/-- What a step does, whichever it is. -/
structure Moved (task task' : SlotTask) (d : Int) : Prop where
  running : task.pc ≠ .done
  index : task'.index = task.index
  cancelled : task'.cancelled = task.cancelled
  carries : task'.carries = task.carries + d
  timed : task.Timed → task'.Timed

theorem backsOff_moved {jitter : Rat} (idle : task.pc ≠ .done ∧ task.pc ≠ .carrying)
    (run : (task.backsOff wake jitter).map (·, (0 : Int)) = some (task', d)) :
    Moved task task' d := by
  obtain ⟨after, backed, same⟩ := Option.map_eq_some_iff.mp run
  obtain ⟨⟨low, high⟩, back⟩ := Option.ite_none_right_eq_some.mp backed
  cases same
  cases back
  refine ⟨idle.1, rfl, rfl, ?_, fun timed => ⟨?_, fun delay waits at_ => ?_⟩⟩
  · simp [SlotTask.carries, idle.2]
  · change min (task.backoff * 2) backoffMax = backoffAfter (task.failed + 1)
    rw [timed.backoff, backoffAfter_succ]
  · cases at_
    have positive := backoffAfter_pos task.failed
    refine ⟨task.failed, rfl, ?_, ?_⟩
    · rw [timed.backoff]
      nlinarith
    · rw [timed.backoff]
      nlinarith

theorem moved_pc {pc : SlotPc} (running : task.pc ≠ .done)
    (carries : (if pc = .carrying then 1 else 0) = task.carries + d)
    (quiet : ∀ delay waits, pc ≠ .backingOff delay waits) : Moved task { task with pc := pc } d :=
  ⟨running, rfl, rfl, carries, fun timed => timed.moved rfl rfl quiet⟩

theorem step_moved (run : task.step wake e = some (task', d)) : Moved task task' d := by
  unfold step at run
  split at run
  · split at run
    · next at_ =>
      cases run
      exact moved_pc (by simp [at_]) (by simp [SlotTask.carries, at_]) (by simp)
    · cases run
    · next other ended =>
      cases run
      exact moved_pc ended (by simp [SlotTask.carries, show task.pc ≠ .carrying from other])
        (by simp)
    · cases run
  · split at run
    case h_2 at_ =>
      cases run
      exact ⟨by simp [at_], rfl, rfl, by simp [SlotTask.carries, at_], fun _ =>
        ⟨backoffAfter_zero.symm, by simp⟩⟩
    case h_3 at_ => exact backsOff_moved (by simp [at_]) run
    case h_7 at_ => exact backsOff_moved (by simp [at_]) run
    case h_9 at_ =>
      obtain ⟨-, run⟩ := Option.ite_none_right_eq_some.mp run
      cases run
      exact ⟨by simp [at_], rfl, rfl, by simp [SlotTask.carries, at_], fun _ =>
        ⟨backoffAfter_zero.symm, by simp⟩⟩
    case h_11 => cases run
    -- the rest only moves on
    all_goals
      next at_ =>
      cases run
      exact moved_pc (by simp [at_]) (by simp [SlotTask.carries, at_]) (by simp)

end SlotTask

/-! ## The registered tasks -/

namespace TunnelSlots

variable {s s' : TunnelSlots} {i j t : Nat} {task task' : SlotTask}

/-- What the slots add to `connected`. -/
def carried (tasks : List SlotTask) : Int := (tasks.map SlotTask.carries).sum

theorem carried_append (tasks : List SlotTask) (i : Nat) :
    carried (tasks ++ [.create i]) = carried tasks := by
  simp [carried, SlotTask.carries, SlotTask.create]

theorem carries_cancel (task : SlotTask) : task.cancel.carries = task.carries := by
  unfold SlotTask.cancel
  split <;> rfl

theorem carried_modify (tasks : List SlotTask) (t : Nat) :
    carried (tasks.modify t SlotTask.cancel) = carried tasks := by
  have same : (tasks.modify t SlotTask.cancel).map SlotTask.carries =
      tasks.map SlotTask.carries := by
    apply List.ext_getElem?
    intro n
    rw [List.getElem?_map, List.getElem?_map, List.getElem?_modify]
    cases tasks[n]? with
    | none => rfl
    | some task => by_cases here : t = n <;> simp [here, carries_cancel]
  rw [carried, same, carried]

theorem carried_set {tasks : List SlotTask} (found : tasks[t]? = some task) (task' : SlotTask) :
    carried (tasks.set t task') = carried tasks + (task'.carries - task.carries) := by
  obtain ⟨inside, here⟩ := List.getElem?_eq_some_iff.mp found
  have length : t < (tasks.map SlotTask.carries).length := by simpa using inside
  rw [carried, List.map_set, List.sum_set', dif_pos length, List.getElem_map, here, carried]
  omega

/-- The supervisor's dictionary and the tasks. -/
structure Tracked (s : TunnelSlots) : Prop where
  registered : ∀ i t, s.slots.get? i = some t → ∃ task, s.tasks[t]? = some task ∧ task.index = i
  known : ∀ t task, s.tasks[t]? = some task → task.Live → s.slots.get? task.index = some t
  counted : s.connected = carried s.tasks
  timed : ∀ task ∈ s.tasks, task.Timed

/-- No registered task was cancelled. -/
def Wanted (s : TunnelSlots) : Prop := ∀ i task, s.task? i = some task → task.cancelled = false

theorem task?_eq_some : s.task? i = some task ↔
    ∃ t, s.slots.get? i = some t ∧ s.tasks[t]? = some task :=
  Option.bind_eq_some_iff

theorem Tracked.task?_of_get? (inv : s.Tracked) (found : s.slots.get? i = some t) :
    ∃ task, s.task? i = some task ∧ s.tasks[t]? = some task ∧ task.index = i := by
  obtain ⟨task, here, index⟩ := inv.registered i t found
  exact ⟨task, task?_eq_some.mpr ⟨t, found, here⟩, here, index⟩

/-- A live task is the one registered for its index. -/
theorem Tracked.task?_of_live (inv : s.Tracked) (here : s.tasks[t]? = some task)
    (live : task.Live) : s.task? task.index = some task :=
  task?_eq_some.mpr ⟨t, inv.known t task here live, here⟩

/-! ## Creating tasks -/

/-- What the rounds of the supervisor leave as it is. -/
structure Frame (s s' : TunnelSlots) : Prop where
  poolSize : s'.poolSize = s.poolSize
  signalling : s'.signalling = s.signalling
  callbacks : s'.callbacks = s.callbacks
  connected : s'.connected = s.connected

theorem Frame.refl (s : TunnelSlots) : Frame s s := ⟨rfl, rfl, rfl, rfl⟩

theorem Frame.trans {s'' : TunnelSlots} (first : Frame s s') (second : Frame s' s'') :
    Frame s s'' :=
  ⟨second.poolSize.trans first.poolSize, second.signalling.trans first.signalling,
    second.callbacks.trans first.callbacks, second.connected.trans first.connected⟩

theorem frame_foldl {f : TunnelSlots → Nat → TunnelSlots} (frame : ∀ s i, Frame s (f s i))
    (is : List Nat) : Frame s (is.foldl f s) := by
  induction is generalizing s with
  | nil => exact .refl s
  | cons i is ih => exact (frame s i).trans ih

theorem frame_spawn (s : TunnelSlots) (i : Nat) : Frame s (s.spawn i) := by
  unfold spawn
  split
  · exact ⟨rfl, rfl, rfl, rfl⟩
  · exact .refl s

theorem frame_cancel (s : TunnelSlots) (i : Nat) : Frame s (s.cancel i) := by
  unfold cancel
  split
  · exact ⟨rfl, rfl, rfl, rfl⟩
  · exact .refl s

theorem frame_drop (s : TunnelSlots) (i : Nat) : Frame s (s.drop i) :=
  (frame_cancel s i).trans ⟨rfl, rfl, rfl, rfl⟩

theorem task?_place (inv : s.Tracked) :
    (s.place i).task? j = if j = i then some (.create i) else s.task? j := by
  unfold task? place
  rw [Dict.get?_set]
  by_cases same : j = i
  · simp [same]
  · rw [if_neg same, if_neg same]
    cases found : s.slots.get? j with
    | none => rfl
    | some t =>
      obtain ⟨task, here, -⟩ := inv.registered j t found
      obtain ⟨inside, -⟩ := List.getElem?_eq_some_iff.mp here
      exact List.getElem?_append_left inside

theorem Tracked.place (inv : s.Tracked) (free : ∀ task, s.task? i = some task → task.pc = .done) :
    (s.place i).Tracked where
  registered j t found := by
    change (s.slots.set i s.tasks.length).get? j = some t at found
    rw [Dict.get?_set] at found
    split at found
    · next same =>
      cases found
      exact ⟨.create i, by simp [TunnelSlots.place], same.symm⟩
    · obtain ⟨task, here, index⟩ := inv.registered j t found
      obtain ⟨inside, -⟩ := List.getElem?_eq_some_iff.mp here
      exact ⟨task, (List.getElem?_append_left inside).trans here, index⟩
  known t task here live := by
    change (s.tasks ++ [SlotTask.create i])[t]? = some task at here
    change (s.slots.set i s.tasks.length).get? task.index = some t
    rw [Dict.get?_set]
    rcases Nat.lt_or_ge t s.tasks.length with inside | beyond
    · rw [List.getElem?_append_left inside] at here
      have known := inv.known t task here live
      rw [if_neg, known]
      intro same
      rw [same] at known
      exact live.2 (free task (task?_eq_some.mpr ⟨t, known, here⟩))
    · rw [List.getElem?_append_right beyond, List.getElem?_singleton] at here
      obtain ⟨last, same⟩ := Option.ite_none_right_eq_some.mp here
      cases same
      rw [show t = s.tasks.length by omega]
      exact if_pos rfl
  counted := by
    change s.connected = carried (s.tasks ++ [.create i])
    rw [carried_append, inv.counted]
  timed task member := by
    rcases List.mem_append.mp member with old | new
    · exact inv.timed task old
    · rw [List.mem_singleton.mp new]
      exact SlotTask.timed_create i

theorem spawn_cases (s : TunnelSlots) (i : Nat) :
    (∃ task, s.task? i = some task ∧ task.pc ≠ .done ∧ s.spawn i = s) ∨
      (∀ task, s.task? i = some task → task.pc = .done) ∧ s.spawn i = s.place i := by
  unfold spawn
  cases found : s.task? i with
  | none => exact Or.inr ⟨by simp, if_pos rfl⟩
  | some task =>
    by_cases ended : task.pc = .done
    · refine Or.inr ⟨fun other same => ?_, if_pos (by simpa using ended)⟩
      rw [← Option.some.inj same, ended]
    · exact Or.inl ⟨task, rfl, ended, if_neg (by simpa using ended)⟩

/-- What creating tasks for these indices does. -/
structure Spawned (s s' : TunnelSlots) (is : List Nat) : Prop where
  tracked : s'.Tracked
  wanted : s.Wanted → s'.Wanted
  there : ∀ i ∈ is, ∃ task, s'.task? i = some task ∧ task.pc ≠ .done
  other : ∀ i, i ∉ is → s'.task? i = s.task? i

theorem Tracked.spawn (inv : s.Tracked) (i : Nat) : Spawned s (s.spawn i) [i] := by
  rcases spawn_cases s i with ⟨task, found, running, same⟩ | ⟨free, same⟩
  · rw [same]
    refine ⟨inv, id, fun j member => ?_, fun _ _ => rfl⟩
    rw [List.mem_singleton.mp member]
    exact ⟨task, found, running⟩
  · rw [same]
    refine ⟨inv.place free, fun wanted j task found => ?_, fun j member => ?_, fun j other => ?_⟩
    · rw [task?_place inv] at found
      split at found
      · rw [← Option.some.inj found]
        rfl
      · exact wanted j task found
    · rw [List.mem_singleton.mp member, task?_place inv, if_pos rfl]
      exact ⟨_, rfl, by simp [SlotTask.create]⟩
    · rw [task?_place inv, if_neg (List.mem_singleton.not.mp other)]

theorem Tracked.spawns (inv : s.Tracked) (is : List Nat) :
    Spawned s (is.foldl TunnelSlots.spawn s) is := by
  induction is generalizing s with
  | nil => exact ⟨inv, id, by simp, fun _ _ => rfl⟩
  | cons i is ih =>
    have first := inv.spawn i
    have rest := ih first.tracked
    refine ⟨rest.tracked, fun wanted => rest.wanted (first.wanted wanted), fun j member => ?_,
      fun j absent => ?_⟩
    · by_cases later : j ∈ is
      · exact rest.there j later
      · rw [List.foldl_cons, rest.other j later]
        apply first.there
        rcases List.mem_cons.mp member with same | inside
        · exact List.mem_singleton.mpr same
        · exact absurd inside later
    · rw [List.mem_cons, not_or] at absent
      obtain ⟨other, later⟩ := absent
      rw [List.foldl_cons, rest.other j later, first.other j (List.mem_singleton.not.mpr other)]

/-! ## Cancelling tasks -/

theorem not_live_cancel (task : SlotTask) : ¬ task.cancel.Live := by
  unfold SlotTask.cancel
  split
  · next ended => exact fun live => live.2 ended
  · exact fun live => nomatch live.1

theorem index_cancel (task : SlotTask) : task.cancel.index = task.index := by
  unfold SlotTask.cancel
  split <;> rfl

theorem timed_cancel (timed : task.Timed) : task.cancel.Timed := by
  unfold SlotTask.cancel
  split
  · exact timed
  · exact ⟨timed.backoff, timed.delay⟩

theorem slots_cancel (s : TunnelSlots) (i : Nat) : (s.cancel i).slots = s.slots := by
  unfold cancel
  split <;> rfl

/-- The tasks after a cancellation. -/
theorem getElem?_cancel (s : TunnelSlots) (i t : Nat) : (s.cancel i).tasks[t]? =
    if s.slots.get? i = some t then s.tasks[t]?.map SlotTask.cancel else s.tasks[t]? := by
  unfold cancel
  cases found : s.slots.get? i with
  | none => rfl
  | some t' =>
    rw [List.getElem?_modify]
    by_cases same : t' = t <;> simp [same]

theorem task?_cancel (inv : s.Tracked) :
    (s.cancel i).task? j = if j = i then (s.task? j).map SlotTask.cancel else s.task? j := by
  unfold task?
  rw [slots_cancel]
  cases found : s.slots.get? j with
  | none => simp
  | some t =>
    rw [Option.bind_some, Option.bind_some, getElem?_cancel]
    by_cases same : j = i
    · rw [← same, if_pos found, if_pos rfl]
    · rw [if_neg same, if_neg]
      intro also
      obtain ⟨task, here, index⟩ := inv.registered j t found
      obtain ⟨task', here', index'⟩ := inv.registered i t also
      rw [here] at here'
      cases here'
      exact same (index.symm.trans index')

theorem Tracked.cancel (inv : s.Tracked) (i : Nat) : (s.cancel i).Tracked where
  registered j t found := by
    rw [slots_cancel] at found
    obtain ⟨task, here, index⟩ := inv.registered j t found
    rw [getElem?_cancel, here]
    split
    · exact ⟨task.cancel, rfl, (index_cancel task).trans index⟩
    · exact ⟨task, rfl, index⟩
  known t task here live := by
    rw [slots_cancel]
    rw [getElem?_cancel] at here
    split at here
    · obtain ⟨old, -, rfl⟩ := Option.map_eq_some_iff.mp here
      exact absurd live (not_live_cancel old)
    · exact inv.known t task here live
  counted := by
    rw [(frame_cancel s i).connected, inv.counted]
    unfold TunnelSlots.cancel
    split
    · rw [carried_modify]
    · rfl
  timed task member := by
    obtain ⟨t, here⟩ := List.mem_iff_getElem?.mp member
    rw [getElem?_cancel] at here
    split at here
    · obtain ⟨old, found, rfl⟩ := Option.map_eq_some_iff.mp here
      exact timed_cancel (inv.timed old (List.mem_of_getElem? found))
    · exact inv.timed task (List.mem_of_getElem? here)

theorem task?_drop (inv : s.Tracked) :
    (s.drop i).task? j = if j = i then none else s.task? j := by
  have cancelled := task?_cancel inv (i := i) (j := j)
  unfold task? at cancelled ⊢
  rw [slots_cancel] at cancelled
  change ((s.slots.erase i).get? j).bind (fun t => (s.cancel i).tasks[t]?) = _
  rw [Dict.get?_erase]
  by_cases same : j = i
  · rw [if_pos same, if_pos same]
    rfl
  · rw [if_neg same, if_neg same, cancelled, if_neg same]

theorem Tracked.drop (inv : s.Tracked) (i : Nat) : (s.drop i).Tracked where
  registered j t found := by
    change (s.slots.erase i).get? j = some t at found
    rw [Dict.get?_erase] at found
    obtain ⟨-, found⟩ := Option.ite_none_left_eq_some.mp found
    exact (inv.cancel i).registered j t (by rwa [slots_cancel])
  known t task here live := by
    have known := (inv.cancel i).known t task here live
    change (s.slots.erase i).get? task.index = some t
    rw [Dict.get?_erase, if_neg, ← slots_cancel s i, known]
    intro same
    have found := (inv.cancel i).task?_of_live here live
    rw [task?_cancel inv, if_pos same] at found
    obtain ⟨old, -, rfl⟩ := Option.map_eq_some_iff.mp found
    exact not_live_cancel old live
  counted := (inv.cancel i).counted
  timed := (inv.cancel i).timed

/-- What dropping these indices does. -/
structure Dropped (s s' : TunnelSlots) (is : List Nat) : Prop where
  tracked : s'.Tracked
  task? : ∀ i, s'.task? i = if i ∈ is then none else s.task? i

theorem Tracked.drops (inv : s.Tracked) (is : List Nat) :
    Dropped s (is.foldl TunnelSlots.drop s) is := by
  induction is generalizing s with
  | nil => exact ⟨inv, by simp⟩
  | cons i is ih =>
    have rest := ih (inv.drop i)
    refine ⟨rest.tracked, fun j => ?_⟩
    rw [List.foldl_cons, rest.task? j, task?_drop inv]
    by_cases later : j ∈ is <;> by_cases same : j = i <;> simp [later, same]

theorem slots_cancels (is : List Nat) : (is.foldl TunnelSlots.cancel s).slots = s.slots := by
  induction is generalizing s with
  | nil => rfl
  | cons i is ih => rw [List.foldl_cons, ih, slots_cancel]

theorem Tracked.cancels (inv : s.Tracked) (is : List Nat) :
    (is.foldl TunnelSlots.cancel s).Tracked ∧ ∀ i task,
      (is.foldl TunnelSlots.cancel s).task? i = some task →
        (i ∈ is ∨ ∀ old, s.task? i = some old → ¬ old.Live) → ¬ task.Live := by
  induction is generalizing s with
  | nil =>
    refine ⟨inv, fun i task found either => ?_⟩
    rcases either with member | ended
    · cases member
    · exact ended task found
  | cons i is ih =>
    obtain ⟨tracked, rest⟩ := ih (inv.cancel i)
    refine ⟨tracked, fun j task found either => ?_⟩
    rw [List.foldl_cons] at found
    by_cases later : j ∈ is
    · exact rest j task found (Or.inl later)
    · apply rest j task found
      right
      intro old here
      rw [task?_cancel inv] at here
      split at here
      · obtain ⟨older, -, rfl⟩ := Option.map_eq_some_iff.mp here
        exact not_live_cancel older
      · next other =>
        rcases either with member | ended
        · rcases List.mem_cons.mp member with same | inside
          · exact absurd same other
          · exact absurd inside later
        · exact ended old here

/-! ## The invariant -/

/-- A store of `_pool_size` whose signal the loop has not run. -/
def Raised (s : TunnelSlots) : Prop := s.signalling = true ∨ 0 < s.callbacks

instance (s : TunnelSlots) : Decidable s.Raised := inferInstanceAs (Decidable (_ ∨ _))

/-- `_supervise` has not left its loop. -/
def Running (s : TunnelSlots) : Prop := s.pc ≠ .stopping ∧ s.pc ≠ .stopped

/-- What is known in the middle of a round, if no store came after its first read. -/
structure Scanned (s : TunnelSlots) (rest stale : List Nat) : Prop where
  there : ∀ i < s.poolSize, ∃ task, s.task? i = some task ∧ task.pc ≠ .done
  large : ∀ i ∈ stale, s.poolSize ≤ i
  sorted : ∀ i ∈ s.slots.keys, i ∈ rest ∨ i ∈ stale ∨ i < s.poolSize

structure Kept (s : TunnelSlots) : Prop where
  tracked : s.Tracked
  wanted : s.Running → s.Wanted
  ended : ¬ s.Running → ∀ (t : Nat) (task : SlotTask), s.tasks[t]? = some task → ¬ task.Live
  begun : s.pc = .notStarted → s.callbacks = 0
  scanning : ∀ rest stale, s.pc = .scanning rest stale → ¬ s.Raised → s.Scanned rest stale
  waiting : s.pc = .waiting → ¬ s.Raised → s.resized = false →
    ∀ i, i ∈ s.slots.keys ↔ i < s.poolSize

theorem Tracked.mem_keys (inv : s.Tracked) : i ∈ s.slots.keys ↔ ∃ task, s.task? i = some task := by
  rw [Dict.mem_keys, Option.isSome_iff_exists]
  constructor
  · rintro ⟨t, found⟩
    obtain ⟨task, here, -⟩ := inv.task?_of_get? found
    exact ⟨task, here⟩
  · rintro ⟨task, here⟩
    obtain ⟨t, found, -⟩ := task?_eq_some.mp here
    exact ⟨t, found⟩

theorem kept_initial (n : Nat) : (initial n).Kept where
  tracked := ⟨by simp [initial, Dict.get?, Dict.empty], by simp [initial], rfl, by simp [initial]⟩
  wanted _ i task found := by simp [initial, TunnelSlots.task?, Dict.get?, Dict.empty] at found
  ended stopped := absurd ⟨by simp [initial], by simp [initial]⟩ stopped
  begun _ := rfl
  scanning := by simp [initial]
  waiting := by simp [initial]

theorem Tracked.same (inv : s.Tracked) (slots : s'.slots = s.slots) (tasks : s'.tasks = s.tasks)
    (connected : s'.connected = s.connected) : s'.Tracked := by
  refine ⟨?_, ?_, ?_, ?_⟩
  · rw [slots, tasks]
    exact inv.registered
  · rw [slots, tasks]
    exact inv.known
  · rw [connected, tasks]
    exact inv.counted
  · rw [tasks]
    exact inv.timed

theorem running_of_free (free : s.loopFree = true) :
    (∀ rest stale, s.pc ≠ .scanning rest stale) ∧ s.pc ≠ .notStarted := by
  unfold loopFree at free
  rcases of_decide_eq_true free with at_ | at_ <;> simp [at_]

/-- A step of a slot. -/
theorem Kept.slot (inv : s.Kept) (free : s.loopFree = true) (here : s.tasks[t]? = some task)
    {d : Int} (moved : SlotTask.Moved task task' d) :
    Kept { s with tasks := s.tasks.set t task', connected := s.connected + d } := by
  obtain ⟨inside, -⟩ := List.getElem?_eq_some_iff.mp here
  obtain ⟨outside, begun⟩ := running_of_free free
  have after (t' : Nat) : (s.tasks.set t task')[t']? =
      if t' = t then some task' else s.tasks[t']? := by
    rw [List.getElem?_set]
    by_cases same : t = t'
    · rw [if_pos same, if_pos inside, if_pos same.symm]
    · rw [if_neg same, if_neg (Ne.symm same)]
  have live : task'.Live → task.Live := by
    rintro ⟨kept, -⟩
    exact ⟨moved.cancelled ▸ kept, moved.running⟩
  refine ⟨⟨fun i t' found => ?_, fun t' other found is => ?_, ?_, fun other member => ?_⟩,
    fun running i other found => ?_, fun stopped t' other found is => ?_, inv.begun,
    fun rest stale at_ => absurd at_ (outside rest stale), inv.waiting⟩
  · obtain ⟨old, there, index⟩ := inv.tracked.registered i t' found
    dsimp only
    rw [after]
    split
    · next same =>
      rw [same, here] at there
      cases there
      exact ⟨task', rfl, moved.index.trans index⟩
    · exact ⟨old, there, index⟩
  · dsimp only at found
    rw [after] at found
    split at found
    · next same =>
      cases found
      rw [moved.index, same]
      exact inv.tracked.known t task here (live is)
    · exact inv.tracked.known t' other found is
  · dsimp only
    rw [carried_set here, inv.tracked.counted, moved.carries]
    omega
  · rcases List.mem_or_eq_of_mem_set member with old | rfl
    · exact inv.tracked.timed other old
    · exact moved.timed (inv.tracked.timed task (List.mem_of_getElem? here))
  · obtain ⟨t', registered, there⟩ := task?_eq_some.mp found
    dsimp only at there
    rw [after] at there
    split at there
    · next same =>
      cases there
      rw [moved.cancelled]
      exact inv.wanted running i task (task?_eq_some.mpr ⟨t', registered, same ▸ here⟩)
    · exact inv.wanted running i other (task?_eq_some.mpr ⟨t', registered, there⟩)
  · dsimp only at found
    rw [after] at found
    split at found
    · cases found
      exact inv.ended stopped t task here (live is)
    · exact inv.ended stopped t' other found is

/-- A round begins. -/
theorem Kept.begins (inv : s.Kept) (running : s.Running) : Kept { s with pc := .top } where
  tracked := inv.tracked.same rfl rfl rfl
  wanted _ := inv.wanted running
  ended stopped := absurd ⟨by simp, by simp⟩ stopped
  begun := by simp
  scanning := by simp
  waiting := by simp

/-- The loop that creates tasks. -/
theorem Kept.spawns (inv : s.Kept) (top : s.pc = .top) {s₁ : TunnelSlots}
    (spawned : (List.range s.poolSize).foldl TunnelSlots.spawn s = s₁) :
    Kept { s₁ with pc := .scanning s₁.slots.keys [] } := by
  have done := inv.tracked.spawns (List.range s.poolSize)
  have frame := frame_foldl (s := s) frame_spawn (List.range s.poolSize)
  rw [spawned] at done frame
  have wanted := inv.wanted (by simp [Running, top])
  refine ⟨done.tracked.same rfl rfl rfl, fun _ => done.wanted wanted, fun stopped => ?_, by simp,
    fun rest stale at_ _ => ?_, by simp⟩
  · exact absurd ⟨by simp, by simp⟩ stopped
  · cases at_
    refine ⟨fun i small => ?_, by simp, fun i member => Or.inl member⟩
    apply done.there i
    rw [List.mem_range, ← frame.poolSize]
    exact small

/-- One comparison with the size. -/
theorem Scanned.next {rest stale : List Nat} (scanned : s.Scanned (i :: rest) stale) :
    s.Scanned rest (if s.poolSize ≤ i then stale ++ [i] else stale) := by
  refine ⟨scanned.there, fun j member => ?_, fun j member => ?_⟩
  · split at member
    · next large =>
      rcases List.mem_append.mp member with before | here
      · exact scanned.large j before
      · rw [List.mem_singleton.mp here]
        exact large
    · exact scanned.large j member
  · have known := scanned.sorted j member
    rw [List.mem_cons] at known
    split
    · rw [List.mem_append, List.mem_singleton]
      tauto
    · next small =>
      rcases known with (here | later) | large | within
      · exact Or.inr (Or.inr (by omega))
      · exact Or.inl later
      · exact Or.inr (Or.inl large)
      · exact Or.inr (Or.inr within)

theorem Kept.scan {rest stale : List Nat} (inv : s.Kept)
    (at_ : s.pc = .scanning (i :: rest) stale) :
    Kept { s with pc := .scanning rest (if s.poolSize ≤ i then stale ++ [i] else stale) } := by
  refine ⟨inv.tracked.same rfl rfl rfl, fun _ => inv.wanted (by simp [Running, at_]),
    fun stopped => absurd ⟨by simp, by simp⟩ stopped, by simp, fun rest' stale' now calm => ?_,
    by simp⟩
  cases now
  obtain ⟨there, large, sorted⟩ := (inv.scanning _ _ at_ calm).next
  exact ⟨there, large, sorted⟩

/-- The end of a round. -/
theorem Kept.parks {stale : List Nat} (inv : s.Kept) (at_ : s.pc = .scanning [] stale)
    {s₁ : TunnelSlots} (dropped : stale.foldl TunnelSlots.drop s = s₁) :
    Kept { s₁ with resized := false, pc := .waiting } := by
  have done := inv.tracked.drops stale
  have frame := frame_foldl (s := s) frame_drop stale
  rw [dropped] at done frame
  have wanted := inv.wanted (by simp [Running, at_])
  refine ⟨done.tracked.same rfl rfl rfl, fun _ i task found => ?_, fun stopped => ?_, by simp,
    by simp, fun _ calm _ i => ?_⟩
  · have found : s₁.task? i = some task := found
    rw [done.task?] at found
    exact wanted i task (Option.ite_none_left_eq_some.mp found).2
  · exact absurd ⟨by simp, by simp⟩ stopped
  · have quiet : ¬ s.Raised := by
      unfold Raised at calm ⊢
      rwa [frame.signalling, frame.callbacks] at calm
    have scanned := inv.scanning [] stale at_ quiet
    change i ∈ s₁.slots.keys ↔ i < s₁.poolSize
    rw [done.tracked.mem_keys, frame.poolSize]
    constructor
    · rintro ⟨task, found⟩
      rw [done.task?] at found
      obtain ⟨absent, found⟩ := Option.ite_none_left_eq_some.mp found
      rcases scanned.sorted i (inv.tracked.mem_keys.mpr ⟨task, found⟩) with none | large | small
      · cases none
      · exact absurd large absent
      · exact small
    · intro small
      obtain ⟨task, found, -⟩ := scanned.there i small
      refine ⟨task, ?_⟩
      rw [done.task?, if_neg, found]
      intro large
      exact absurd (scanned.large i large) (by omega)

/-- The cancellation of `_supervise`. -/
theorem Kept.stop (inv : s.Kept) :
    Kept { s.slots.keys.foldl TunnelSlots.cancel s with pc := .stopping } := by
  obtain ⟨tracked, ended⟩ := inv.tracked.cancels s.slots.keys
  refine ⟨tracked.same rfl rfl rfl, fun running => absurd rfl running.1,
    fun _ t task here live => ?_, by simp, by simp, by simp⟩
  have registered := tracked.known t task here live
  have found := tracked.task?_of_live here live
  refine ended _ task found (Or.inl ?_) live
  rw [Dict.mem_keys, ← slots_cancels (s := s) s.slots.keys, registered]
  rfl

/-- **Every step keeps the invariant.** -/
theorem Kept.step {e : SlotsEvent} (inv : s.Kept) (run : s.step e = some s') : s'.Kept := by
  cases e with
  | resize size =>
    obtain ⟨-, run⟩ := Option.ite_none_left_eq_some.mp run
    split at run
    · exact Option.some.inj run ▸ inv
    · rw [← Option.some.inj run]
      exact ⟨inv.tracked.same rfl rfl rfl, inv.wanted, inv.ended, inv.begun,
        fun _ _ _ calm => absurd (Or.inl rfl) calm, fun _ calm => absurd (Or.inl rfl) calm⟩
  | signal =>
    obtain ⟨-, run⟩ := Option.ite_none_right_eq_some.mp run
    rw [← Option.some.inj run]
    by_cases before : s.pc = .notStarted ∨ s.pc = .stopped
    · have outside : (∀ rest stale, s.pc ≠ .scanning rest stale) ∧ s.pc ≠ .waiting := by
        rcases before with at_ | at_ <;> simp [at_]
      rw [if_pos before]
      exact ⟨inv.tracked.same rfl rfl rfl, inv.wanted, inv.ended, inv.begun,
        fun rest stale at_ => absurd at_ (outside.1 rest stale), fun at_ => absurd at_ outside.2⟩
    · rw [if_neg before]
      have raised : 0 < s.callbacks + 1 := Nat.succ_pos _
      exact ⟨inv.tracked.same rfl rfl rfl, inv.wanted, inv.ended,
        fun at_ => absurd (Or.inl at_) before, fun _ _ _ calm => absurd (Or.inr raised) calm,
        fun _ calm => absurd (Or.inr raised) calm⟩
  | signalled =>
    obtain ⟨⟨free, -⟩, run⟩ := Option.ite_none_right_eq_some.mp run
    obtain ⟨outside, begun⟩ := running_of_free free
    rw [← Option.some.inj run]
    exact ⟨inv.tracked.same rfl rfl rfl, inv.wanted, inv.ended, fun at_ => absurd at_ begun,
      fun rest stale at_ => absurd at_ (outside rest stale), fun _ _ unset => by cases unset⟩
  | starts =>
    obtain ⟨before, run⟩ := Option.ite_none_right_eq_some.mp run
    rw [← Option.some.inj run]
    exact inv.begins (by simp [Running, before])
  | resumes =>
    obtain ⟨⟨before, -⟩, run⟩ := Option.ite_none_right_eq_some.mp run
    rw [← Option.some.inj run]
    exact inv.begins (by simp [Running, before])
  | spawns =>
    obtain ⟨top, run⟩ := Option.ite_none_right_eq_some.mp run
    rw [← Option.some.inj run]
    exact inv.spawns top rfl
  | scan =>
    simp only [TunnelSlots.step] at run
    split at run
    · next i rest stale at_ =>
      rw [← Option.some.inj run]
      exact inv.scan at_
    · cases run
  | parks =>
    simp only [TunnelSlots.step] at run
    split at run
    · next stale at_ =>
      rw [← Option.some.inj run]
      exact inv.parks at_ rfl
    · cases run
  | wake =>
    obtain ⟨-, run⟩ := Option.ite_none_right_eq_some.mp run
    rw [← Option.some.inj run]
    refine ⟨inv.tracked.same rfl rfl rfl, inv.wanted, inv.ended, inv.begun, ?_, inv.waiting⟩
    intro rest stale at_ calm
    have old := inv.scanning rest stale at_ calm
    exact ⟨old.there, old.large, old.sorted⟩
  | stop =>
    obtain ⟨-, run⟩ := Option.ite_none_right_eq_some.mp run
    rw [← Option.some.inj run]
    exact inv.stop
  | finishes =>
    obtain ⟨⟨before, -⟩, run⟩ := Option.ite_none_right_eq_some.mp run
    rw [← Option.some.inj run]
    exact ⟨inv.tracked.same rfl rfl rfl, fun running => absurd rfl running.2,
      fun _ => inv.ended (by simp [Running, before]), by simp, by simp, by simp⟩
  | slot t e =>
    obtain ⟨free, run⟩ := Option.ite_none_right_eq_some.mp run
    obtain ⟨task, here, ran⟩ := Option.bind_eq_some_iff.mp run
    obtain ⟨after, stepped, rfl⟩ := Option.map_eq_some_iff.mp ran
    exact inv.slot free here (SlotTask.step_moved stepped)

theorem kept_of_reachable {n : Nat} (reached : (tunnelSlots n).Reachable s) : s.Kept := by
  apply reached.invariant
  · rintro s rfl
    exact kept_initial n
  · exact fun s e s' inv _ run => inv.step run

/-! ## What the worker keeps -/

/-- The supervisor waits, and no resize is on its way. -/
def Settled (s : TunnelSlots) : Prop := s.pc = .waiting ∧ ¬ s.Raised ∧ s.resized = false

instance (s : TunnelSlots) : Decidable s.Settled := inferInstanceAs (Decidable (_ ∧ _ ∧ _))

theorem carried_eq (tasks : List SlotTask) :
    carried tasks = (tasks.countP (·.pc = .carrying) : Int) := by
  induction tasks with
  | nil => rfl
  | cons task tasks ih =>
    have split : carried (task :: tasks) = task.carries + carried tasks := List.sum_cons
    rw [split, ih, List.countP_cons, SlotTask.carries]
    by_cases at_ : task.pc = .carrying
    · rw [if_pos at_, if_pos (decide_eq_true at_)]
      omega
    · rw [if_neg at_, if_neg (by simpa using at_)]
      omega

theorem Tracked.unique {t' : Nat} (inv : s.Tracked) (here : s.tasks[t]? = some task)
    (there : s.tasks[t']? = some task') (live : task.Live) (live' : task'.Live)
    (same : task.index = task'.index) : t = t' := by
  have known := inv.known t task here live
  rw [same, inv.known t' task' there live'] at known
  exact (Option.some.inj known).symm

/-- Live tasks have different indexes, so there are no more of them than indexes they can have. -/
theorem Tracked.countP_live_le {size : Nat} (inv : s.Tracked)
    (small : ∀ task ∈ s.tasks, task.Live → task.index < size) :
    s.tasks.countP (·.Live) ≤ size := by
  have nodup : ((s.tasks.filter (·.Live)).map SlotTask.index).Nodup := by
    rw [List.Nodup, List.pairwise_map, List.pairwise_filter, List.pairwise_iff_getElem]
    intro t t' inside inside' before live live' same
    have equal := inv.unique (List.getElem?_eq_getElem inside) (List.getElem?_eq_getElem inside')
      (of_decide_eq_true live) (of_decide_eq_true live') same
    omega
  have below : (s.tasks.filter (·.Live)).map SlotTask.index ⊆ List.range size := by
    intro i member
    obtain ⟨task, kept, rfl⟩ := List.mem_map.mp member
    obtain ⟨inside, live⟩ := List.mem_filter.mp kept
    exact List.mem_range.mpr (small task inside (of_decide_eq_true live))
  have bound := (nodup.subperm below).length_le
  rwa [List.length_map, List.length_range, ← List.countP_eq_length_filter] at bound

/-- Once settled, the live tasks are tasks of the indexes below the size. -/
theorem Kept.index_lt (inv : s.Kept) (settled : s.Settled) (member : task ∈ s.tasks)
    (live : task.Live) : task.index < s.poolSize := by
  obtain ⟨t, here⟩ := List.getElem?_of_mem member
  have found := inv.tracked.task?_of_live here live
  obtain ⟨waiting, calm, unset⟩ := settled
  exact (inv.waiting waiting calm unset task.index).mp (inv.tracked.mem_keys.mpr ⟨task, found⟩)

end TunnelSlots

open TunnelSlots in
/-- **The worker keeps its tunnel slots.**  Whatever the coordinator, the manager and the network
do:

* `connected` counts the tasks that carry;
* an index has one live task at most, and a registered task was not cancelled;
* once no resize is on its way, a task is registered for exactly the indexes below the size last
  stored, and there are no more live tasks than that;
* after a stop no task is live;
* a slot waits between half and one and a half times the backoff of its failed dials. -/
theorem tunnel_slots_kept {n : Nat} {s : TunnelSlots} (reached : (tunnelSlots n).Reachable s) :
    s.connected = (s.tasks.countP (·.pc = .carrying) : Int) ∧
    (∀ (t t' : Nat) (task task' : SlotTask), s.tasks[t]? = some task →
      s.tasks[t']? = some task' → task.Live → task'.Live → task.index = task'.index → t = t') ∧
    (s.Running → s.Wanted) ∧
    (s.Settled → (∀ i, (s.task? i).isSome = true ↔ i < s.poolSize) ∧
      s.tasks.countP (·.Live) ≤ s.poolSize) ∧
    (¬ s.Running → ∀ task ∈ s.tasks, ¬ task.Live) ∧
    ∀ task ∈ s.tasks, task.Timed := by
  have inv := kept_of_reachable reached
  refine ⟨?_, fun t t' task task' => inv.tracked.unique, inv.wanted,
    fun settled => ⟨fun i => ?_, ?_⟩, fun stopped task member => ?_, inv.tracked.timed⟩
  · rw [inv.tracked.counted, carried_eq]
  · obtain ⟨waiting, calm, unset⟩ := settled
    rw [← inv.waiting waiting calm unset i, inv.tracked.mem_keys, Option.isSome_iff_exists]
  · exact inv.tracked.countP_live_le fun task member live => inv.index_lt settled member live
  · obtain ⟨t, here⟩ := List.getElem?_of_mem member
    exact inv.ended stopped t task here

/-- A pool of two that is told to be one, in the middle of a round. -/
def shrinking : List SlotsEvent :=
  [.starts, .spawns, .resize 1, .scan, .signal, .scan, .parks, .slot 0 .begins, .slot 0 .opens,
    .signalled, .resumes, .spawns, .scan, .parks]

/-- One slot carries, the other is cancelled and has not yet unwound. -/
def shrunk : TunnelSlots :=
  { TunnelSlots.initial 1 with
    pc := .waiting
    slots := Dict.empty.set 0 0
    tasks := [{ SlotTask.create 0 with pc := .carrying }, (SlotTask.create 1).cancel]
    connected := 1 }

theorem run_shrinking : (tunnelSlots 2).run (.initial 2) shrinking = some shrunk := rfl

theorem tunnel_slots_kept_shrunk :
    shrunk.connected = shrunk.tasks.countP (·.pc = .carrying) ∧
      shrunk.tasks.countP (·.Live) ≤ 1 ∧ ∀ task ∈ shrunk.tasks, task.Timed := by
  obtain ⟨connected, -, -, settled, -, timed⟩ := tunnel_slots_kept (.of_run rfl run_shrinking)
  exact ⟨connected, (settled ⟨rfl, by decide, rfl⟩).2, timed⟩

end Oumigo
