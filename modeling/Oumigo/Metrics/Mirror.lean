import Oumigo.Foundation.Transition
import Oumigo.Metrics.Store

/-!
# The dashboard's mirror of the metric store

`MetricMirror` of `service/manager/dashboard/source.py`, beside the store it pulls from.
A refresh asks the store for the gauge points after its watermark less the overlap, or
after the start of its window while it has none, and forgets what has left the window.

The pull's reply is that of `since` at the time of the refresh.  A pull that fails changes
no row and no watermark, so it is no step here.
-/

namespace Oumigo

/-- `MetricMirror`, as far as its rows go. -/
structure MetricMirror (V : Type := Rat) where
  prefixes : List String := ["worker:", "gpu:"]
  /-- in seconds, as is `overlap` -/
  retention : Int := 90 * 60
  overlap : Int := 60
  rows : Dict (NodeId × String × Int) V
  /-- `none` for the empty string -/
  maxTs : Option Int := none

namespace MetricMirror

variable {V : Type}

/-- The start of the window, with the fraction of a second dropped. -/
def cutoff (mirror : MetricMirror V) (now : Rat) : Int := (now - mirror.retention).floor

/-- `_after`. -/
def after (mirror : MetricMirror V) (now : Rat) : Int :=
  match mirror.maxTs with
  | none => mirror.cutoff now
  | some seen => seen - mirror.overlap

/-- The loop of `refresh` at one point. -/
def take (mirror : MetricMirror V) (p : (NodeId × String × Int) × V) : MetricMirror V :=
  { mirror with
    rows := mirror.rows.set p.1 p.2
    maxTs := match mirror.maxTs with
      | none => some p.1.2.2
      | some seen => if seen < p.1.2.2 then some p.1.2.2 else some seen }

/-- `_prune`. -/
def prune (mirror : MetricMirror V) (now : Rat) : MetricMirror V :=
  { mirror with rows := mirror.rows.filterMap fun key value =>
      if key.2.2 < mirror.cutoff now then none else some value }

/-- `refresh`, when the pull succeeds. -/
def refresh (mirror : MetricMirror V) (store : MetricStore V) (now : Rat) : MetricMirror V :=
  let points := store.since (some (mirror.after now)) mirror.prefixes
  (points.foldl take mirror).prune now

/-- The metrics the mirror is for: `worker:` and `gpu:`. -/
def Gauge (mirror : MetricMirror V) (metric : String) : Prop :=
  ∃ start ∈ mirror.prefixes, Python.startsWith start metric

/-- The metrics the store's `LIKE` sends it. -/
def Pulled (mirror : MetricMirror V) (metric : String) : Prop :=
  ∃ start ∈ mirror.prefixes, MetricStore.like start metric

/-- **Complete**: the mirror's rows are the store's gauge facts of the window that ends at
`now`. -/
def Complete (mirror : MetricMirror V) (store : MetricStore V) (now : Rat) : Prop :=
  ∀ key value, mirror.rows.get? key = some value ↔
    store.fact.get? key = some value ∧ mirror.Gauge key.2.1 ∧ mirror.cutoff now ≤ key.2.2

variable {mirror : MetricMirror V} {store : MetricStore V} {now : Rat}
  {key : NodeId × String × Int} {value : V} {points : List ((NodeId × String × Int) × V)}

/-! ## One refresh -/

theorem rows_foldl_take : (points.foldl take mirror).rows = mirror.rows.update points := by
  induction points generalizing mirror with
  | nil => rfl
  | cons p rest ih => exact ih

/-- A refresh changes rows and watermark only. -/
theorem settings_foldl_take (mirror : MetricMirror V)
    (points : List ((NodeId × String × Int) × V)) :
    (points.foldl take mirror).prefixes = mirror.prefixes ∧
    (points.foldl take mirror).retention = mirror.retention ∧
    (points.foldl take mirror).overlap = mirror.overlap := by
  induction points generalizing mirror with
  | nil => exact ⟨rfl, rfl, rfl⟩
  | cons p rest ih => exact ih (mirror.take p)

/-- The watermark only rises, and is there once a point was taken. -/
theorem maxTs_foldl_take_none (none_ : (points.foldl take mirror).maxTs = none) :
    mirror.maxTs = none ∧ points = [] := by
  induction points generalizing mirror with
  | nil => exact ⟨none_, rfl⟩
  | cons p rest ih =>
    have taken := (ih none_).1
    unfold take at taken
    cases seen : mirror.maxTs with
    | none => simp [seen] at taken
    | some slot =>
      simp only [seen] at taken
      split at taken <;> cases taken

theorem like_of_startsWith {start metric : String} (starts : Python.startsWith start metric) :
    MetricStore.like start metric = true := by
  unfold MetricStore.like Python.startsWith Python.lower
  unfold Python.startsWith at starts
  rw [List.isPrefixOf_iff_prefix] at starts ⊢
  rw [String.toList_ofList, String.toList_ofList]
  exact starts.map Char.toLower

theorem Gauge.pulled {metric : String} (gauge : mirror.Gauge metric) : mirror.Pulled metric := by
  obtain ⟨start, member, starts⟩ := gauge
  exact ⟨start, member, like_of_startsWith starts⟩

end MetricMirror

namespace MetricStore

variable {V : Type} {store : MetricStore V} {slot : Int} {starts : List String}
  {key : NodeId × String × Int} {value : V}

/-- The points of `since` are the facts after the slot. -/
theorem mem_since (some_ : starts ≠ []) :
    (key, value) ∈ store.since (some slot) starts ↔
      store.fact.get? key = some value ∧ slot < key.2.2 ∧
        ∃ start ∈ starts, like start key.2.1 := by
  have full : starts.isEmpty = false := by simpa using some_
  simp [since, List.mem_mergeSort, List.mem_filter, Dict.mem_entries, full]

theorem nodup_since : ((store.since (some slot) starts).map Prod.fst).Nodup := by
  have sorted := (List.mergeSort_perm (store.fact.entries.filter fun row =>
    (slot < row.1.2.2) && (starts.isEmpty || starts.any fun start => like start row.1.2.1))
      fun row row' => row.1.2.2 ≤ row'.1.2.2).map Prod.fst
  apply sorted.nodup_iff.mpr
  exact store.fact.nodup.sublist (List.filter_sublist.map Prod.fst)

end MetricStore

namespace MetricMirror

variable {V : Type} {mirror : MetricMirror V} {store : MetricStore V} {now : Rat}
  {key : NodeId × String × Int} {value : V}

/-- What a refresh leaves of the mirror: its settings, and the pruned union of its rows and
the points of the pull. -/
theorem refresh_eq (mirror : MetricMirror V) (store : MetricStore V) (now : Rat) :
    (mirror.refresh store now).prefixes = mirror.prefixes ∧
    (mirror.refresh store now).retention = mirror.retention ∧
    (mirror.refresh store now).overlap = mirror.overlap ∧
    ∀ key, (mirror.refresh store now).rows.get? key =
      if key.2.2 < mirror.cutoff now then none
      else (mirror.rows.update
        (store.since (some (mirror.after now)) mirror.prefixes)).get? key := by
  obtain ⟨prefixes, retention, overlap⟩ := settings_foldl_take mirror
    (store.since (some (mirror.after now)) mirror.prefixes)
  refine ⟨prefixes, retention, overlap, fun key => ?_⟩
  unfold refresh prune cutoff
  rw [Dict.get?_filterMap, rows_foldl_take, retention]
  cases (mirror.rows.update _).get? key with
  | none => simp
  | some value =>
    rw [Option.bind_some]

theorem gauge_refresh {metric : String} :
    (mirror.refresh store now).Gauge metric ↔ mirror.Gauge metric := by
  unfold Gauge
  rw [(refresh_eq mirror store now).1]

theorem pulled_refresh {metric : String} :
    (mirror.refresh store now).Pulled metric ↔ mirror.Pulled metric := by
  unfold Pulled
  rw [(refresh_eq mirror store now).1]

theorem cutoff_refresh {now' : Rat} :
    (mirror.refresh store now).cutoff now' = mirror.cutoff now' := by
  unfold cutoff
  rw [(refresh_eq mirror store now).2.1]

/-- A mirror that still has no watermark pulled nothing. -/
theorem maxTs_refresh_none (unseen : (mirror.refresh store now).maxTs = none) :
    mirror.maxTs = none ∧ store.since (some (mirror.after now)) mirror.prefixes = [] :=
  maxTs_foldl_take_none unseen

/-- **One refresh**: a row is a fact the pull reached, or the old row where it did not. -/
theorem get?_refresh (some_ : mirror.prefixes ≠ []) :
    (mirror.refresh store now).rows.get? key = some value ↔
      mirror.cutoff now ≤ key.2.2 ∧
      ((mirror.after now < key.2.2 ∧ mirror.Pulled key.2.1 ∧ store.fact.get? key = some value) ∨
        (¬(mirror.after now < key.2.2 ∧ mirror.Pulled key.2.1 ∧ (store.fact.get? key).isSome) ∧
          mirror.rows.get? key = some value)) := by
  have pull : ∀ v, (key, v) ∈ store.since (some (mirror.after now)) mirror.prefixes ↔
      store.fact.get? key = some v ∧ mirror.after now < key.2.2 ∧ mirror.Pulled key.2.1 :=
    fun v => MetricStore.mem_since some_
  rw [(refresh_eq mirror store now).2.2.2 key]
  by_cases stale : key.2.2 < mirror.cutoff now
  · rw [if_pos stale]
    simp [stale]
  · rw [if_neg stale]
    have inside : mirror.cutoff now ≤ key.2.2 := by omega
    by_cases reached : mirror.after now < key.2.2 ∧ mirror.Pulled key.2.1 ∧
        (store.fact.get? key).isSome
    · obtain ⟨later, pulled, present⟩ := reached
      obtain ⟨v, fact⟩ := Option.isSome_iff_exists.mp present
      have row := Dict.get?_update_mem (d := mirror.rows) MetricStore.nodup_since
        ((pull v).mpr ⟨fact, later, pulled⟩)
      simp [row, fact, later, pulled, inside]
    · have absent : key ∉ (store.since (some (mirror.after now)) mirror.prefixes).map
          Prod.fst := by
        intro member
        obtain ⟨⟨_, v⟩, point, rfl⟩ := List.mem_map.mp member
        obtain ⟨fact, later, pulled⟩ := (pull v).mp point
        exact reached ⟨later, pulled, by rw [fact]; rfl⟩
      rw [Dict.get?_update_of_not_mem absent]
      constructor
      · intro row
        exact ⟨inside, Or.inr ⟨reached, row⟩⟩
      · intro known
        rcases known.2 with ⟨later, pulled, fact⟩ | ⟨_, row⟩
        · exact (reached ⟨later, pulled, by rw [fact]; rfl⟩).elim
        · exact row

end MetricMirror

/-! ## Reports and refreshes in any order -/

/-- The store and the mirror of one dashboard, and the time of the last step. -/
structure MirroringState (V : Type := Rat) where
  store : MetricStore V
  mirror : MetricMirror V
  clock : Rat

/-- One atomic step. -/
inductive MirroringEvent (V : Type := Rat) where
  /-- a worker's batch reaches the manager, late or not -/
  | ingest (nodeId : NodeId) (points : List (MetricPoint V)) (now : Rat)
  /-- the mirror's refresh succeeds -/
  | refresh (now : Rat)

namespace Mirroring

variable {V : Type}

/-- A step; every event can happen at any time. -/
def step (s : MirroringState V) : MirroringEvent V → Option (MirroringState V)
  | .ingest nodeId points now =>
      some { s with store := s.store.ingest nodeId points now, clock := now }
  | .refresh now => some { s with mirror := s.mirror.refresh s.store now, clock := now }

/-- A manager and a dashboard that have just started. -/
structure Fresh (s : MirroringState V) : Prop where
  fact : s.store.fact = .empty
  rows : s.mirror.rows = .empty
  maxTs : s.mirror.maxTs = none
  prefixes : s.mirror.prefixes ≠ []
  retention : s.mirror.retention ≤ s.store.retentionS

/-- The store and the mirror under any reports and refreshes. -/
def system (V : Type) : Transition.System (MirroringState V) (MirroringEvent V) where
  init := Fresh
  step := step

/-- A point the mirror's next pull does not miss: it is stamped after the watermark less the
overlap, or the mirror has it already, or it is older than the mirror's window. -/
def InTime (mirror : MetricMirror V) (nodeId : NodeId) (now : Rat) (p : MetricPoint V) : Prop :=
  (∀ seen, mirror.maxTs = some seen → seen - mirror.overlap < p.timestamp) ∨
  mirror.rows.get? (nodeId, p.metric, p.timestamp) = some p.value ∨
  p.timestamp < mirror.cutoff now

/-- The steps that cannot lose a point.  The clock does not run backwards; the batch's
gauge points are in time and named as the mirror names them; and a mirror without a
watermark finds no point at the first second of its window. -/
def Punctual (s : MirroringState V) : MirroringEvent V → Prop
  | .ingest nodeId points now =>
      s.clock ≤ now ∧ ∀ p ∈ points, s.mirror.Pulled p.metric →
        s.mirror.Gauge p.metric ∧ InTime s.mirror nodeId now p
  | .refresh now =>
      s.clock ≤ now ∧ (s.mirror.maxTs = none → ∀ key value,
        s.store.fact.get? key = some value → s.mirror.Pulled key.2.1 →
          key.2.2 ≠ s.mirror.cutoff now)

variable {s s' : MirroringState V} {event : MirroringEvent V} {now now' : Rat}

theorem cutoff_mono (mirror : MetricMirror V) (later : now ≤ now') :
    mirror.cutoff now ≤ mirror.cutoff now' := by
  apply Rat.floor_monotone
  exact sub_le_sub_right later _

/-- The store keeps what the mirror's window shows. -/
theorem store_cutoff_le (now : Rat) (retention : s.mirror.retention ≤ s.store.retentionS) :
    s.store.cutoff now ≤ s.mirror.cutoff now := by
  apply Rat.floor_monotone
  exact sub_le_sub_left retention now

/-- **Invariant**: the mirror's rows are facts, or about to leave the window; and the facts
its next pull will not reach are among its rows. -/
structure Inv (s : MirroringState V) : Prop where
  prefixes : s.mirror.prefixes ≠ []
  retention : s.mirror.retention ≤ s.store.retentionS
  named : ∀ key value, s.store.fact.get? key = some value → s.mirror.Pulled key.2.1 →
    s.mirror.Gauge key.2.1
  kept : ∀ key value, s.mirror.rows.get? key = some value → s.mirror.Gauge key.2.1 ∧
    ((s.store.fact.get? key).isSome = true ∨ key.2.2 < s.mirror.cutoff s.clock)
  behind : ∀ seen, s.mirror.maxTs = some seen → ∀ key value,
    s.store.fact.get? key = some value → s.mirror.Gauge key.2.1 →
      key.2.2 ≤ seen - s.mirror.overlap →
        s.mirror.rows.get? key = some value ∨ key.2.2 < s.mirror.cutoff s.clock
  unseen : s.mirror.maxTs = none → ∀ key, s.mirror.rows.get? key = none

theorem Fresh.inv (fresh : Fresh s) : Inv s where
  prefixes := fresh.prefixes
  retention := fresh.retention
  named := by
    intro key value found
    rw [fresh.fact] at found
    cases found
  kept := by
    intro key value found
    rw [fresh.rows] at found
    cases found
  behind := by
    intro seen watermark
    rw [fresh.maxTs] at watermark
    cases watermark
  unseen := by
    intro _ key
    rw [fresh.rows]
    rfl

/-- A fact after a batch: it was there before, or is a point of the batch. -/
theorem fact_ingest {store : MetricStore V} {nodeId : NodeId} {points : List (MetricPoint V)}
    {key : NodeId × String × Int} {value : V}
    (found : (store.ingest nodeId points now).fact.get? key = some value) :
    store.fact.get? key = some value ∨
    ∃ p ∈ points, key = (nodeId, p.metric, p.timestamp) ∧ value = p.value := by
  rw [MetricStore.get?_ingest] at found
  split at found
  · cases found
  · rcases MetricStore.get?_upsert_cases nodeId store.fact points key with
      old | ⟨p, member, same, new⟩
    · exact Or.inl (old.symm.trans found)
    · rw [new] at found
      exact Or.inr ⟨p, member, same, (Option.some.inj found).symm⟩

/-- A batch removes only what the store's retention removes. -/
theorem isSome_ingest {store : MetricStore V} {nodeId : NodeId} {points : List (MetricPoint V)}
    {key : NodeId × String × Int} (present : (store.fact.get? key).isSome = true)
    (fresh : store.cutoff now ≤ key.2.2) :
    ((store.ingest nodeId points now).fact.get? key).isSome = true := by
  have inside : ¬ key.2.2 < store.cutoff now := by omega
  rw [MetricStore.get?_ingest, if_neg inside]
  rcases MetricStore.get?_upsert_cases nodeId store.fact points key with old | ⟨_, _, _, new⟩
  · rw [old]
    exact present
  · rw [new]
    rfl

/-- **Step, a report**: points in time leave the invariant. -/
theorem Inv.ingest {nodeId : NodeId} {points : List (MetricPoint V)} (inv : Inv s)
    (punctual : Punctual s (.ingest nodeId points now)) :
    Inv { s with store := s.store.ingest nodeId points now, clock := now } := by
  obtain ⟨forward, inTime⟩ := punctual
  have cutoffs : s.mirror.cutoff s.clock ≤ s.mirror.cutoff now := cutoff_mono s.mirror forward
  refine ⟨inv.prefixes, inv.retention, ?_, ?_, ?_, inv.unseen⟩
  · intro key value found pulled
    rcases fact_ingest found with old | ⟨p, member, rfl, rfl⟩
    · exact inv.named key value old pulled
    · exact (inTime p member pulled).1
  · intro key value row
    obtain ⟨gauge, present | stale⟩ := inv.kept key value row
    · refine ⟨gauge, ?_⟩
      by_cases inside : s.mirror.cutoff now ≤ key.2.2
      · have kept := (store_cutoff_le now inv.retention).trans inside
        exact Or.inl (isSome_ingest present kept)
      · exact Or.inr (by simpa using inside)
    · exact ⟨gauge, Or.inr (lt_of_lt_of_le stale cutoffs)⟩
  · intro seen watermark key value found gauge low
    rcases fact_ingest found with old | ⟨p, member, rfl, rfl⟩
    · rcases inv.behind seen watermark key value old gauge low with row | stale
      · exact Or.inl row
      · exact Or.inr (lt_of_lt_of_le stale cutoffs)
    · rcases (inTime p member gauge.pulled).2 with late | row | stale
      · have above := late seen watermark
        exact absurd low (not_le.mpr above)
      · exact Or.inl row
      · exact Or.inr stale

/-- **A refresh of a mirror that keeps the invariant is complete.** -/
theorem Inv.complete (inv : Inv s) (punctual : Punctual s (.refresh now)) :
    (s.mirror.refresh s.store now).Complete s.store now := by
  obtain ⟨forward, edge⟩ := punctual
  have cutoffs : s.mirror.cutoff s.clock ≤ s.mirror.cutoff now := cutoff_mono s.mirror forward
  -- what the pull does not reach is a row already
  have unreached : ∀ key value, s.store.fact.get? key = some value → s.mirror.Gauge key.2.1 →
      s.mirror.cutoff now ≤ key.2.2 → ¬ s.mirror.after now < key.2.2 →
        s.mirror.rows.get? key = some value := by
    intro key value fact gauge inside missed
    unfold MetricMirror.after at missed
    cases watermark : s.mirror.maxTs with
    | none =>
      have first := edge watermark key value fact gauge.pulled
      simp only [watermark] at missed
      omega
    | some seen =>
      simp only [watermark] at missed
      rcases inv.behind seen watermark key value fact gauge (by omega) with row | stale
      · exact row
      · omega
  intro key value
  rw [MetricMirror.get?_refresh inv.prefixes, MetricMirror.gauge_refresh,
    MetricMirror.cutoff_refresh]
  constructor
  · intro ⟨inside, found⟩
    rcases found with ⟨_, pulled, fact⟩ | ⟨missed, row⟩
    · exact ⟨fact, inv.named key value fact pulled, inside⟩
    · obtain ⟨gauge, present | stale⟩ := inv.kept key value row
      · obtain ⟨value', fact⟩ := Option.isSome_iff_exists.mp present
        have below : ¬ s.mirror.after now < key.2.2 :=
          fun later => missed ⟨later, gauge.pulled, present⟩
        have row' := unreached key value' fact gauge inside below
        rw [row] at row'
        cases row'
        exact ⟨fact, gauge, inside⟩
      · omega
  · intro ⟨fact, gauge, inside⟩
    refine ⟨inside, ?_⟩
    by_cases later : s.mirror.after now < key.2.2
    · exact Or.inl ⟨later, gauge.pulled, fact⟩
    · exact Or.inr ⟨fun reached => later reached.1, unreached key value fact gauge inside later⟩

/-- **Step, a refresh.** -/
theorem Inv.refresh (inv : Inv s) (punctual : Punctual s (.refresh now)) :
    Inv { s with mirror := s.mirror.refresh s.store now, clock := now } := by
  have complete := inv.complete punctual
  have settings := MetricMirror.refresh_eq s.mirror s.store now
  refine ⟨?_, ?_, ?_, ?_, ?_, ?_⟩
  · rw [settings.1]
    exact inv.prefixes
  · rw [settings.2.1]
    exact inv.retention
  · intro key value fact pulled
    rw [MetricMirror.pulled_refresh] at pulled
    rw [MetricMirror.gauge_refresh]
    exact inv.named key value fact pulled
  · intro key value row
    obtain ⟨fact, gauge, _⟩ := (complete key value).mp row
    exact ⟨gauge, Or.inl (by rw [fact]; rfl)⟩
  · intro seen _ key value fact gauge _
    by_cases inside : (s.mirror.refresh s.store now).cutoff now ≤ key.2.2
    · exact Or.inl ((complete key value).mpr ⟨fact, gauge, inside⟩)
    · exact Or.inr (by simpa using inside)
  · intro unseen key
    obtain ⟨before, nothing⟩ := MetricMirror.maxTs_refresh_none unseen
    rw [settings.2.2.2, nothing]
    have empty := inv.unseen before key
    split
    · rfl
    · exact empty

theorem Inv.step (inv : Inv s) (punctual : Punctual s event) (run : step s event = some s') :
    Inv s' := by
  cases event with
  | ingest nodeId points now =>
    cases run
    exact inv.ingest punctual
  | refresh now =>
    cases run
    exact inv.refresh punctual

theorem inv_of_reachable (reached : (system V).ReachableBy Punctual s) : Inv s :=
  reached.invariant (fun _ fresh => Fresh.inv fresh) fun _ _ _ inv punctual run => inv.step punctual run

/-- **The mirror is complete** after each refresh of a run whose points come in time. -/
theorem mirror_complete (reached : (system V).ReachableBy Punctual s)
    (punctual : Punctual s (.refresh now)) :
    (s.mirror.refresh s.store now).Complete s.store now :=
  (inv_of_reachable reached).complete punctual

/-! ## A late batch -/

/-- A manager and a dashboard as they start. -/
def started : MirroringState :=
  { store := ⟨24 * 60 * 60, .empty⟩, mirror := { rows := .empty }, clock := 0 }

/-- A worker's report, a refresh, and the report another worker could not send for two
minutes. -/
def lateReport : List MirroringEvent :=
  [.ingest "a" [⟨99995, "worker:cpu", 1⟩] 100000, .refresh 100001,
    .ingest "b" [⟨99880, "worker:cpu", 1⟩] 100002]

theorem started_fresh : Fresh started where
  fact := rfl
  rows := rfl
  maxTs := rfl
  prefixes := by decide
  retention := by decide +kernel

/-- The theorem at a punctual worker's report. -/
theorem mirror_complete_punctual : ∃ s : MirroringState,
    (system Rat).run started [.ingest "a" [⟨99995, "worker:cpu", 1⟩] 100000] = some s ∧
    (s.mirror.refresh s.store 100001).Complete s.store 100001 := by
  have here : Punctual started (.ingest "a" [⟨99995, "worker:cpu", 1⟩] 100000) := by
    refine ⟨by decide +kernel, fun p member _ => ?_⟩
    rw [List.mem_singleton] at member
    subst member
    refine ⟨⟨"worker:", by decide, by decide⟩, Or.inl fun seen watermark => ?_⟩
    cases watermark
  refine ⟨_, rfl, mirror_complete (.step (.init started_fresh) here rfl) ⟨by decide +kernel, ?_⟩⟩
  intro _ key value fact _
  rcases fact_ingest fact with old | ⟨p, member, rfl, rfl⟩
  · cases old
  · rw [List.mem_singleton] at member
    subst member
    decide +kernel

/-- **A late batch is skipped**: two minutes late, it is in the store and not in the mirror. -/
theorem late_batch_missed : ¬ ∀ (s : MirroringState) (now : Rat), (system Rat).Reachable s →
    (s.mirror.refresh s.store now).Complete s.store now := by
  intro claim
  obtain ⟨s, run⟩ : ∃ s, (system Rat).run started lateReport = some s := ⟨_, rfl⟩
  have reached : (system Rat).Reachable s := .of_run started_fresh run
  cases run
  have row := ((claim _ 100006 reached) ("b", "worker:cpu", 99880) 1).mpr
    ⟨by decide +kernel, ⟨"worker:", by decide +kernel, by decide⟩, by decide +kernel⟩
  exact absurd row (by decide +kernel)

end Mirroring

end Oumigo
