import Oumigo.Foundation.Transition
import Oumigo.Metrics.Finite
import Oumigo.Metrics.Store

/-!
# A worker's metrics up to the manager's answers

`MetricsCollector` of `service/worker/metrics.py` with what it reads of the backend, and the
manager's store behind `/metrics`.  Both sides encode JSON that has no NaN and no infinities:
a report that holds one raises before it is sent.  What psutil and the GPU report are numbers.

`metrics_delivery`: as long as every text read is `Sane`, no report raises at the worker.
-/

namespace Oumigo

open Python

/-- `_RequestRateTracker`. -/
structure RequestRateTracker where
  samples : List (Int × PyFloat)

namespace RequestRateTracker

/-- `update`. -/
def update (t : RequestRateTracker) (slot : Int) (cumulative : Option PyFloat) :
    Option PyFloat × RequestRateTracker :=
  match cumulative with
  | none => (none, t)
  | some count =>
      let kept := t.samples.dropWhile fun sample => sample.1 < slot - 180
      let rate := match kept with
        | [] => none
        | (refEpoch, refCount) :: _ =>
            let window := slot - refEpoch
            let delta := count.sub refCount
            if 60 ≤ window ∧ (PyFloat.num 0).le delta = true then
              some (((delta.div (.num window)).mul (.num 60)).round 2)
            else none
      (rate, ⟨kept ++ [(slot, count)]⟩)

end RequestRateTracker

/-- What the sampler finds at a slot. -/
structure SlotReading where
  host : Dict String Rat
  gpu : Dict String Rat
  /-- the backend's `/metrics`, if it answered with 200 -/
  text : Option String
  /-- set while the node serves -/
  vllmStart : Option Rat

/-- A worker that samples and reports, and the manager's store. -/
structure CollectorState where
  buffer : MetricsBuffer PyFloat
  tracker : RequestRateTracker
  /-- the batch whose report is under way -/
  inFlight : Option (List (MetricRow PyFloat))
  store : MetricStore PyFloat

/-- What becomes of a report that could be encoded. -/
inductive Delivery where
  /-- the manager is reached and accepts the credential -/
  | accepted
  /-- the manager accepts it, but the reply is lost -/
  | unanswered
  /-- the manager is not reached, or refuses -/
  | refused

/-- One atomic step. -/
inductive CollectorEvent where
  /-- `_sample_at` -/
  | sample (slot : Int) (reading : SlotReading)
  /-- `_flush_once` up to its `_send` -/
  | flush
  /-- `_send`, and what follows it -/
  | send (delivery : Delivery) (now : Rat)
  /-- the manager ingests a report of another worker -/
  | report (other : NodeId) (points : List (MetricPoint PyFloat)) (now : Rat)

namespace CollectorState

/-- `collect_vllm_metrics`. -/
def vllmMetrics (reading : SlotReading) : Dict String PyFloat :=
  match reading.text with
  | some text => parsePrometheus "vllm:" text
  | none => .empty

/-- The readings that are numbers. -/
def numbers (readings : Dict String Rat) : List (String × PyFloat) :=
  readings.entries.map fun entry => (entry.1, .num entry.2)

/-- What is read at a slot, the later source winning. -/
def scraped (reading : SlotReading) : Dict String PyFloat :=
  Oumigo.update (Oumigo.update (Oumigo.update .empty (numbers reading.host))
    (numbers reading.gpu)) (vllmMetrics reading).entries

/-- `if value is not None: metrics[key] = value`. -/
def setSome (metrics : Dict String PyFloat) (key : String) (value : Option PyFloat) :
    Dict String PyFloat :=
  match value with
  | some v => metrics.set key v
  | none => metrics

/-- The metrics of a slot, and the tracker after it. -/
def collect (workerStart : Rat) (tracker : RequestRateTracker) (slot : Int)
    (reading : SlotReading) : Dict String PyFloat × RequestRateTracker :=
  let metrics := scraped reading
  let (rpm, tracker) := tracker.update slot (metrics.get? "vllm:request_success_total_stop")
  let metrics := setSome metrics "vllm:num_requests_per_minute" rpm
  let metrics := metrics.set "worker:start_timestamp" (.num workerStart)
  (setSome metrics "vllm:start_timestamp" (reading.vllmStart.map .num), tracker)

/-- `_sample_at`. -/
def sample (nodeId : NodeId) (workerStart : Rat) (s : CollectorState) (slot : Int)
    (reading : SlotReading) : CollectorState :=
  let (metrics, tracker) := collect workerStart s.tracker slot reading
  let rows := metrics.entries.map fun entry => ⟨nodeId, slot, entry.1, entry.2⟩
  { s with buffer := (s.buffer.append rows).2, tracker := tracker }

/-- What a report says of the rows of a batch. -/
def points (batch : List (MetricRow PyFloat)) : List (MetricPoint PyFloat) :=
  batch.map fun row => ⟨row.gridEpoch, row.metric, row.value⟩

/-- The encoder takes these points. -/
def encodable (points : List (MetricPoint PyFloat)) : Bool :=
  points.all fun point => point.value.isFinite

/-- `store.ingest`; SQLite has NaN for NULL, and refuses the batch. -/
def ingest (s : CollectorState) (nodeId : NodeId) (points : List (MetricPoint PyFloat))
    (now : Rat) : Option CollectorState :=
  if points.any fun point => point.value = .nan then none
  else some { s with store := s.store.ingest nodeId points now }

/-- `_flush_once` up to its `_send`; an empty batch is not sent. -/
def flush (s : CollectorState) : Option CollectorState :=
  match s.inFlight with
  | some _ => none
  | none =>
      let (batch, buffer) := s.buffer.drain
      if batch = [] then some { s with buffer := buffer }
      else some { s with buffer := buffer, inFlight := some batch }

/-- `_flush_once` when `_send` raised. -/
def restore (s : CollectorState) (batch : List (MetricRow PyFloat)) : CollectorState :=
  { s with buffer := (s.buffer.restore batch).2, inFlight := none }

/-- `_send`, and what follows it. -/
def send (nodeId : NodeId) (s : CollectorState) (delivery : Delivery) (now : Rat) :
    Option CollectorState :=
  match s.inFlight with
  | none => none
  | some batch =>
      if !encodable (points batch) then some (s.restore batch)
      else
        match delivery with
        | .refused => some (s.restore batch)
        | .unanswered =>
            some ((s.ingest nodeId (points batch) now).getD s |>.restore batch)
        | .accepted =>
            match s.ingest nodeId (points batch) now with
            | some s' => some { s' with inFlight := none }
            | none => some (s.restore batch)

def step (nodeId : NodeId) (workerStart : Rat) (s : CollectorState) :
    CollectorEvent → Option CollectorState
  | .sample slot reading => some (s.sample nodeId workerStart slot reading)
  | .flush => s.flush
  | .send delivery now => s.send nodeId delivery now
  | .report other points now => if encodable points then s.ingest other points now else none

end CollectorState

/-- Every interleaving, from an empty buffer and an empty store. -/
def collectorSystem (nodeId : NodeId) (workerStart : Rat) :
    Transition.System CollectorState CollectorEvent where
  init s := s.buffer.rows = [] ∧ s.tracker.samples = [] ∧ s.inFlight = none ∧
    s.store.fact = .empty
  step := CollectorState.step nodeId workerStart

namespace CollectorState

variable {nodeId : NodeId} {workerStart : Rat} {s s' : CollectorState}

/-- Every value under way is finite. -/
structure Finite (s : CollectorState) : Prop where
  rows : ∀ row ∈ s.buffer.rows, row.value.isFinite = true
  flying : ∀ batch, s.inFlight = some batch → ∀ row ∈ batch, row.value.isFinite = true
  tracker : ∀ sample ∈ s.tracker.samples, sample.2.isFinite = true
  store : ∀ key v, s.store.fact.get? key = some v → v.isFinite = true

/-! ## Sampling -/

theorem isFinite_rate {t : RequestRateTracker} (slot : Int) {cumulative : Option PyFloat}
    (samples : ∀ sample ∈ t.samples, sample.2.isFinite = true)
    (count : ∀ c, cumulative = some c → c.isFinite = true) :
    (∀ rate, (t.update slot cumulative).1 = some rate → rate.isFinite = true) ∧
      ∀ sample ∈ (t.update slot cumulative).2.samples, sample.2.isFinite = true := by
  cases cumulative with
  | none =>
    constructor
    · intro rate none
      cases none
    · exact samples
  | some c =>
    have finite := count c rfl
    have kept : ∀ sample ∈ t.samples.dropWhile fun sample => sample.1 < slot - 180,
        sample.2.isFinite = true :=
      fun sample member => samples sample ((List.dropWhile_sublist _).subset member)
    unfold RequestRateTracker.update
    dsimp only
    constructor
    · intro rate same
      split at same
      · cases same
      · next refEpoch refCount rest shape =>
        split at same
        · cases same
          have reference : refCount.isFinite = true :=
            kept (refEpoch, refCount) (shape ▸ List.mem_cons_self)
          exact PyFloat.isFinite_round (PyFloat.isFinite_mul
            (PyFloat.isFinite_div (PyFloat.isFinite_sub finite reference) rfl) rfl)
        · cases same
    · intro sample member
      rcases List.mem_append.mp member with old | new
      · exact kept sample old
      · rw [List.mem_singleton.mp new]
        exact finite

theorem isFinite_update {out : Dict String PyFloat} {pairs : List (String × PyFloat)}
    (start : ∀ key v, out.get? key = some v → v.isFinite = true)
    (more : ∀ pair ∈ pairs, pair.2.isFinite = true) :
    ∀ key v, (Oumigo.update out pairs).get? key = some v → v.isFinite = true := by
  intro key v found
  rcases get?_update_cases found with old | new
  · exact start key v old
  · exact more _ new

theorem isFinite_setSome {metrics : Dict String PyFloat} {value : Option PyFloat} (key : String)
    (start : ∀ k v, metrics.get? k = some v → v.isFinite = true)
    (new : ∀ v, value = some v → v.isFinite = true) :
    ∀ k v, (setSome metrics key value).get? k = some v → v.isFinite = true := by
  unfold setSome
  split
  · next v => exact finite_set start (new v rfl)
  · exact start

theorem isFinite_scraped {reading : SlotReading}
    (sane : ∀ text, reading.text = some text → Sane text) :
    ∀ key v, (scraped reading).get? key = some v → v.isFinite = true := by
  have numeric (readings : Dict String Rat) : ∀ pair ∈ numbers readings,
      pair.2.isFinite = true := by
    intro pair member
    obtain ⟨entry, -, rfl⟩ := List.mem_map.mp member
    rfl
  have vllm : ∀ pair ∈ (vllmMetrics reading).entries, pair.2.isFinite = true := by
    intro pair member
    have found := Dict.mem_entries.mp member
    unfold vllmMetrics at found
    cases text : reading.text with
    | none =>
      rw [text] at found
      cases found
    | some t =>
      rw [text] at found
      exact isFinite_parse (sane t text) _ _ found
  have none : ∀ key v, (Dict.empty : Dict String PyFloat).get? key = some v →
      v.isFinite = true := fun key v found => nomatch found
  exact isFinite_update (isFinite_update (isFinite_update none
    (numeric reading.host)) (numeric reading.gpu)) vllm

theorem isFinite_collect (workerStart : Rat) {tracker : RequestRateTracker} (slot : Int)
    {reading : SlotReading} (samples : ∀ sample ∈ tracker.samples, sample.2.isFinite = true)
    (sane : ∀ text, reading.text = some text → Sane text) :
    (∀ key v, (collect workerStart tracker slot reading).1.get? key = some v →
      v.isFinite = true) ∧
    ∀ sample ∈ (collect workerStart tracker slot reading).2.samples,
      sample.2.isFinite = true := by
  have read := isFinite_scraped sane
  obtain ⟨rated, tracked⟩ := isFinite_rate slot samples
    (read "vllm:request_success_total_stop")
  have derived := isFinite_setSome "vllm:num_requests_per_minute" read rated
  have started := @finite_set _ "worker:start_timestamp" (.num workerStart) derived rfl
  refine ⟨isFinite_setSome "vllm:start_timestamp" started ?_, tracked⟩
  intro v same
  obtain ⟨start, -, rfl⟩ := Option.map_eq_some_iff.mp same
  rfl

/-! ## Steps -/

theorem Finite.sample {slot : Int} {reading : SlotReading} (finite : s.Finite)
    (sane : ∀ text, reading.text = some text → Sane text) :
    (s.sample nodeId workerStart slot reading).Finite := by
  obtain ⟨metrics, tracked⟩ := isFinite_collect workerStart slot finite.tracker sane
  refine ⟨?_, finite.flying, tracked, finite.store⟩
  intro row member
  have kept := MetricsBuffer.evict_sublist.subset member
  rcases List.mem_append.mp kept with old | new
  · exact finite.rows row old
  · obtain ⟨entry, listed, rfl⟩ := List.mem_map.mp new
    exact metrics entry.1 entry.2 (Dict.mem_entries.mp listed)

theorem Finite.flush (finite : s.Finite) (ran : s.flush = some s') : s'.Finite := by
  unfold CollectorState.flush at ran
  cases flying : s.inFlight with
  | some batch =>
    rw [flying] at ran
    cases ran
  | none =>
    rw [flying] at ran
    dsimp only [MetricsBuffer.drain] at ran
    have drained : ∀ row ∈ ([] : List (MetricRow PyFloat)), row.value.isFinite = true :=
      fun row member => nomatch member
    split at ran
    · cases ran
      refine ⟨drained, ?_, finite.tracker, finite.store⟩
      intro batch same
      dsimp only at same
      cases same
    · cases ran
      refine ⟨drained, ?_, finite.tracker, finite.store⟩
      intro batch same
      cases same
      exact finite.rows

theorem Finite.restore {batch : List (MetricRow PyFloat)} (finite : s.Finite)
    (rows : ∀ row ∈ batch, row.value.isFinite = true) : (s.restore batch).Finite := by
  refine ⟨?_, ?_, finite.tracker, finite.store⟩
  · intro row member
    have kept := MetricsBuffer.evict_sublist.subset member
    rcases List.mem_append.mp kept with returned | old
    · exact rows row returned
    · exact finite.rows row old
  · intro batch same
    cases same

theorem encodable_points {batch : List (MetricRow PyFloat)}
    (rows : ∀ row ∈ batch, row.value.isFinite = true) : encodable (points batch) = true := by
  unfold encodable
  rw [List.all_eq_true]
  intro point member
  obtain ⟨row, inside, rfl⟩ := List.mem_map.mp member
  exact rows row inside

/-- The store takes what could be encoded. -/
theorem ingest_encodable {n : NodeId} {points : List (MetricPoint PyFloat)} (now : Rat)
    (encoded : encodable points = true) :
    s.ingest n points now = some { s with store := s.store.ingest n points now } := by
  unfold CollectorState.ingest
  rw [if_neg]
  intro some
  obtain ⟨point, member, nan⟩ := List.any_eq_true.mp some
  have finite := List.all_eq_true.mp encoded point member
  rw [of_decide_eq_true nan] at finite
  cases finite

theorem Finite.ingest {n : NodeId} {points : List (MetricPoint PyFloat)} {now : Rat}
    (finite : s.Finite) (encoded : encodable points = true) :
    CollectorState.Finite { s with store := s.store.ingest n points now } := by
  refine ⟨finite.rows, finite.flying, finite.tracker, ?_⟩
  intro key v found
  have stored : (s.store.ingest n points now).fact.get? key = some v := found
  rw [MetricStore.get?_ingest] at stored
  split at stored
  · cases stored
  · rcases MetricStore.get?_upsert_cases n s.store.fact points key with
      old | ⟨point, member, -, new⟩
    · exact finite.store key v (old.symm.trans stored)
    · have same : point.value = v := Option.some.inj (new.symm.trans stored)
      exact same ▸ List.all_eq_true.mp encoded point member

theorem Finite.send {delivery : Delivery} {now : Rat} (finite : s.Finite)
    (ran : s.send nodeId delivery now = some s') : s'.Finite := by
  unfold CollectorState.send at ran
  cases flying : s.inFlight with
  | none =>
    rw [flying] at ran
    cases ran
  | some batch =>
    have rows := finite.flying batch flying
    have encoded := encodable_points rows
    rw [flying] at ran
    dsimp only at ran
    rw [encoded, ingest_encodable now encoded] at ran
    have ingested : CollectorState.Finite
        { s with store := s.store.ingest nodeId (points batch) now } := finite.ingest encoded
    cases delivery with
    | refused =>
      cases ran
      exact finite.restore rows
    | unanswered =>
      cases ran
      exact ingested.restore rows
    | accepted =>
      cases ran
      refine ⟨ingested.rows, ?_, ingested.tracker, ingested.store⟩
      intro batch none
      cases none

/-- Every text that a step reads is sane. -/
def SaneReading (_ : CollectorState) : CollectorEvent → Prop
  | .sample _ reading => ∀ text, reading.text = some text → Sane text
  | _ => True

theorem finite_reachable
    (reached : (collectorSystem nodeId workerStart).ReachableBy SaneReading s) : s.Finite := by
  refine reached.invariant ?_ ?_
  · rintro s ⟨rows, tracker, flying, store⟩
    refine ⟨?_, ?_, ?_, ?_⟩
    · rw [rows]
      exact fun row member => nomatch member
    · rw [flying]
      exact fun batch none => nomatch none
    · rw [tracker]
      exact fun sample member => nomatch member
    · rw [store]
      exact fun key v none => nomatch none
  · intro s e s' finite sane ran
    cases e with
    | sample slot reading =>
      cases ran
      exact finite.sample sane
    | flush => exact finite.flush ran
    | send delivery now => exact finite.send ran
    | report other points now =>
      have ran : (if encodable points = true then s.ingest other points now else none) =
          some s' := ran
      split at ran
      · next encoded =>
        rw [ingest_encodable now encoded] at ran
        cases ran
        exact finite.ingest encoded
      · cases ran

end CollectorState

/-- Metrics are delivered: what is buffered is finite, a report that the manager accepts
leaves nothing to report, and what the manager answers can be encoded. -/
structure MetricsDelivered (nodeId : NodeId) (workerStart : Rat) (s : CollectorState) : Prop where
  finite : ∀ row ∈ s.buffer.rows, row.value.isFinite = true
  /-- a flush with nothing sampled meanwhile -/
  flush : s.inFlight = none → s.buffer.rows ≠ [] → ∀ now,
    (collectorSystem nodeId workerStart).run s [.flush, .send .accepted now] =
      some { s with
        buffer := { s.buffer with rows := [] }
        store := s.store.ingest nodeId (CollectorState.points s.buffer.rows) now }
  /-- a report under way: nothing comes back to the buffer -/
  send : ∀ batch now, s.inFlight = some batch →
    s.step nodeId workerStart (.send .accepted now) =
      some { s with
        inFlight := none
        store := s.store.ingest nodeId (CollectorState.points batch) now }
  since : ∀ after starts, ∀ row ∈ s.store.since after starts, row.2.isFinite = true
  latest : ∀ node ∈ s.store.latestPerNode, ∀ metric ∈ node.2.2, metric.2.isFinite = true

namespace CollectorState

variable {nodeId : NodeId} {workerStart : Rat} {s : CollectorState}

theorem send_accepted (finite : s.Finite) {batch : List (MetricRow PyFloat)} (now : Rat)
    (flying : s.inFlight = some batch) :
    s.send nodeId .accepted now =
      some { s with
        inFlight := none
        store := s.store.ingest nodeId (points batch) now } := by
  have encoded := encodable_points (finite.flying batch flying)
  unfold CollectorState.send
  rw [flying]
  dsimp only
  rw [encoded, ingest_encodable now encoded]
  rfl

theorem delivered_of_finite (finite : s.Finite) : MetricsDelivered nodeId workerStart s where
  finite := finite.rows
  flush idle some now := by
    have drained : s.flush = .some { s with
        buffer := { s.buffer with rows := [] }
        inFlight := .some s.buffer.rows } := by
      unfold CollectorState.flush
      rw [idle]
      exact if_neg some
    have steps : (collectorSystem nodeId workerStart).run s [.flush, .send .accepted now] =
        s.flush.bind fun taken => (taken.send nodeId .accepted now).bind .some := rfl
    rw [steps, drained, Option.bind_some, send_accepted (finite.flush drained) now rfl, idle]
    rfl
  send batch now flying := send_accepted finite now flying
  since after starts row member := by
    have inside := (List.mem_filter.mp (List.mem_mergeSort.mp member)).1
    exact finite.store row.1 row.2 (Dict.mem_entries.mp inside)
  latest node member metric told := by
    obtain ⟨n, -, latest⟩ := List.mem_filterMap.mp member
    obtain ⟨slot, -, rfl⟩ := Option.map_eq_some_iff.mp latest
    obtain ⟨row, inside, kept⟩ := List.mem_filterMap.mp (List.mem_mergeSort.mp told)
    split at kept
    · cases kept
      exact finite.store row.1 row.2 (Dict.mem_entries.mp inside)
    · cases kept

end CollectorState

/-- A worker that has just started. -/
def freshCollector : CollectorState := ⟨⟨1800, 300, []⟩, ⟨[]⟩, none, ⟨86400, .empty⟩⟩

/-- A slot at which only the backend says something. -/
def scrapedText (text : String) : SlotReading := ⟨.empty, .empty, some text, none⟩

theorem sane_running : Sane "vllm:num_requests_running 1\n" where
  samples := by
    have all : ((samples "vllm:" "vllm:num_requests_running 1\n").all
        fun x => x.value.isFinite) = true := by decide +kernel
    exact fun x member => Or.inl (List.all_eq_true.mp all x member)
  histograms key fam found := by
    have none : (scrape "vllm:" "vllm:num_requests_running 1\n").hist.entries.length = 0 := by
      decide +kernel
    have empty := List.eq_nil_of_length_eq_zero none
    have member := Dict.mem_entries.mpr found
    rw [empty] at member
    cases member

end Oumigo
