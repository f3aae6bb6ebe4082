import Oumigo.Foundation.Transition
import Oumigo.Metrics.Store

/-!
# From the sampler to the store

The sampler and the reporter of one `MetricsCollector` (`service/worker/metrics.py`)
with the manager's `/metrics` endpoint.  The sampler appends a slot's rows at a time;
the reporter drains the buffer, sends the batch, and restores it when the report
failed.  A batch that was sent may reach the manager at any time, also after the
reporter gave up on it, or never.

`sampled`, `evictions`, `prunes` and `arrived` record what happened, for statements
about all rows ever sampled; no operation reads them but `arrived`, which says which
attempts can be answered.
-/

namespace Oumigo

/-- What a report says of a row. -/
def MetricRow.point (row : MetricRow) : MetricPoint := ⟨row.gridEpoch, row.metric, row.value⟩

/-- A worker that samples and reports, and the manager's store. -/
structure ReportingState where
  buffer : MetricsBuffer
  /-- the batches sent so far, by attempt -/
  sent : List (List MetricRow)
  /-- the attempt whose reply the reporter waits for -/
  inFlight : Option Nat
  /-- the attempts that reached the manager -/
  arrived : List Nat
  store : MetricStore
  sampled : List MetricRow
  evictions : List Eviction
  prunes : List Rat

/-- One atomic step. -/
inductive ReportingEvent where
  /-- the sampler appends the metrics of a slot -/
  | sample (slot : Int) (metrics : Dict String Rat)
  /-- `_flush_once` up to its `_send` -/
  | flush
  /-- the manager ingests the batch of an attempt -/
  | ingest (attempt : Nat) (now : Rat)
  /-- the reply arrives -/
  | succeed
  /-- the report fails; the manager may have ingested it -/
  | fail
  /-- the manager ingests a report of another node -/
  | report (other : NodeId) (points : List MetricPoint) (now : Rat)

namespace ReportingState

/-- The rows of an attempt. -/
def batch (s : ReportingState) (attempt : Nat) : List MetricRow := (s.sent[attempt]?).getD []

/-- The batch in flight. -/
def flying (s : ReportingState) : List MetricRow :=
  match s.inFlight with
  | some attempt => s.batch attempt
  | none => []

/-- `_sample_at`, for metrics that were collected: one sample for a slot, and slots in
order. -/
def sample (nodeId : NodeId) (s : ReportingState) (slot : Int) (metrics : Dict String Rat) :
    Option ReportingState :=
  if ∀ row ∈ s.sampled, row.gridEpoch < slot then
    let rows := metrics.entries.map fun entry => ⟨nodeId, slot, entry.1, entry.2⟩
    if rows = [] then some s
    else
      let (passes, buffer) := s.buffer.append rows
      some { s with
        buffer := buffer
        sampled := s.sampled ++ rows
        evictions := s.evictions ++ passes }
  else none

/-- `_flush_once` up to its `_send`; an empty batch is not sent. -/
def flush (s : ReportingState) : Option ReportingState :=
  match s.inFlight with
  | some _ => none
  | none =>
      let (batch, buffer) := s.buffer.drain
      if batch = [] then some { s with buffer := buffer }
      else some { s with
        buffer := buffer
        sent := s.sent ++ [batch]
        inFlight := some s.sent.length }

/-- `_flush_once` when `_send` raised. -/
def fail (s : ReportingState) : Option ReportingState :=
  match s.inFlight with
  | none => none
  | some attempt =>
      let (passes, buffer) := s.buffer.restore (s.batch attempt)
      some { s with
        buffer := buffer
        inFlight := none
        evictions := s.evictions ++ passes }

/-- The manager's `/metrics`, for the batch of an attempt that has not arrived yet. -/
def ingest (nodeId : NodeId) (s : ReportingState) (attempt : Nat) (now : Rat) :
    Option ReportingState :=
  if attempt < s.sent.length ∧ attempt ∉ s.arrived then
    some { s with
      store := s.store.ingest nodeId ((s.batch attempt).map MetricRow.point) now
      arrived := attempt :: s.arrived
      prunes := now :: s.prunes }
  else none

def step (nodeId : NodeId) (s : ReportingState) : ReportingEvent → Option ReportingState
  | .sample slot metrics => s.sample nodeId slot metrics
  | .flush => s.flush
  | .ingest attempt now => s.ingest nodeId attempt now
  | .succeed =>
      match s.inFlight with
      | some attempt => if attempt ∈ s.arrived then some { s with inFlight := none } else none
      | none => none
  | .fail => s.fail
  | .report other points now =>
      if other = nodeId then none
      else some { s with store := s.store.ingest other points now, prunes := now :: s.prunes }

end ReportingState

/-- Every interleaving, from an empty buffer and a store without facts of the node. -/
def reportingSystem (nodeId : NodeId) : Transition.System ReportingState ReportingEvent where
  init s := s.buffer.rows = [] ∧ s.sent = [] ∧ s.inFlight = none ∧ s.arrived = [] ∧
    s.sampled = [] ∧ s.evictions = [] ∧ s.prunes = [] ∧
    ∀ metric slot, s.store.fact.get? (nodeId, metric, slot) = none
  step := ReportingState.step nodeId

namespace ReportingState

variable {nodeId : NodeId} {s s' : ReportingState}

/-! ## Rows that are accounted for -/

/-- The store has the row, or had to prune it at one of `prunes`. -/
def Delivered (store : MetricStore) (prunes : List Rat) (row : MetricRow) : Prop :=
  store.fact.get? row.key = some row.value ∨ ∃ now ∈ prunes, row.gridEpoch < store.cutoff now

/-- The row was dropped from a full buffer. -/
def Evicted (s : ReportingState) (row : MetricRow) : Prop :=
  ∃ pass ∈ s.evictions, row ∈ pass.dropped

/-- What holds between steps. -/
structure Inv (nodeId : NodeId) (s : ReportingState) : Prop where
  /-- the rows under way are sampled ones, in the order they were sampled -/
  ordered : (s.flying ++ s.buffer.rows).Sublist s.sampled
  sorted : s.sampled.Pairwise fun r r' => r.gridEpoch ≤ r'.gridEpoch
  keys : (s.sampled.map MetricRow.key).Nodup
  node : ∀ row ∈ s.sampled, row.nodeId = nodeId
  sent : ∀ attempt, ∀ row ∈ s.batch attempt, row ∈ s.sampled
  flying : ∀ attempt, s.inFlight = some attempt → attempt < s.sent.length
  arrived : ∀ attempt ∈ s.arrived, attempt < s.sent.length
  /-- the store has the sampled values only -/
  values : ∀ metric slot v, s.store.fact.get? (nodeId, metric, slot) = some v →
    ∃ row ∈ s.sampled, row.key = (nodeId, metric, slot) ∧ row.value = v
  delivered : ∀ attempt ∈ s.arrived, ∀ row ∈ s.batch attempt,
    Delivered s.store s.prunes row
  kept : ∀ row ∈ s.sampled, row ∈ s.flying ++ s.buffer.rows ∨
    Delivered s.store s.prunes row ∨ s.Evicted row
  evictions : ∀ pass ∈ s.evictions, MetricsBuffer.Oldest s.buffer.capacityS pass

theorem inv_initial (start : (reportingSystem nodeId).init s) : Inv nodeId s := by
  obtain ⟨buffer, sent, inFlight, arrived, sampled, evictions, -, store⟩ := start
  have flying : s.flying = [] := by
    unfold ReportingState.flying
    rw [inFlight]
  have noBatch (attempt : Nat) : s.batch attempt = [] := by
    unfold batch
    rw [sent]
    rfl
  refine ⟨?_, ?_, ?_, ?_, ?_, ?_, ?_, ?_, ?_, ?_, ?_⟩
  · rw [flying, buffer, sampled]
    exact List.Sublist.refl _
  · rw [sampled]
    exact List.Pairwise.nil
  · rw [sampled]
    exact List.nodup_nil
  · rw [sampled]
    exact fun row member => nomatch member
  · intro attempt row member
    rw [noBatch] at member
    cases member
  · intro attempt same
    rw [inFlight] at same
    cases same
  · rw [arrived]
    exact fun attempt member => nomatch member
  · intro metric slot v found
    rw [store] at found
    cases found
  · rw [arrived]
    exact fun attempt member => nomatch member
  · rw [sampled]
    exact fun row member => nomatch member
  · rw [evictions]
    exact fun pass member => nomatch member

/-- A key names one sampled row. -/
theorem Inv.eq_of_key (inv : Inv nodeId s) {row row' : MetricRow} (left : row ∈ s.sampled)
    (right : row' ∈ s.sampled) (same : row.key = row'.key) : row = row' :=
  List.inj_on_of_nodup_map inv.keys left right same

/-! ## The manager ingests -/

/-- A batch that agrees with a row leaves it in the store, or prunes it. -/
theorem Delivered.ingest {store : MetricStore} {prunes : List Rat} {row : MetricRow} {n : NodeId}
    {points : List MetricPoint} (now : Rat) (delivered : Delivered store prunes row)
    (agree : ∀ p ∈ points, row.key = (n, p.metric, p.timestamp) → p.value = row.value) :
    Delivered (store.ingest n points now) (now :: prunes) row := by
  rcases delivered with found | ⟨time, member, expired⟩
  · by_cases expired : row.gridEpoch < store.cutoff now
    · exact Or.inr ⟨now, List.mem_cons_self, expired⟩
    · refine Or.inl ((MetricStore.get?_ingest.trans (if_neg expired)).trans ?_)
      rcases MetricStore.get?_upsert_cases n store.fact points row.key with
        old | ⟨p, member, same, value⟩
      · exact old.trans found
      · rw [value, agree p member same]
  · exact Or.inr ⟨time, List.mem_cons_of_mem _ member, expired⟩

/-- The rows of a batch are in the store once it was ingested, unless they were pruned. -/
theorem delivered_of_mem {store : MetricStore} {prunes : List Rat} {row : MetricRow}
    {points : List MetricPoint} (now : Rat) (key : row.key = (nodeId, row.metric, row.gridEpoch))
    (agree : ∀ p ∈ points, row.key = (nodeId, p.metric, p.timestamp) → p.value = row.value)
    (member : row.point ∈ points) :
    Delivered (store.ingest nodeId points now) (now :: prunes) row := by
  by_cases expired : row.gridEpoch < store.cutoff now
  · exact Or.inr ⟨now, List.mem_cons_self, expired⟩
  · obtain ⟨q, inside, same, value⟩ := MetricStore.get?_upsert_mem nodeId store.fact member
    have sampled : q.value = row.value := agree q inside (key.trans same.symm)
    refine Or.inl ((MetricStore.get?_ingest.trans (if_neg expired)).trans ?_)
    rw [key, ← sampled]
    exact value

theorem Inv.key_eq (inv : Inv nodeId s) {row : MetricRow} (member : row ∈ s.sampled) :
    row.key = (nodeId, row.metric, row.gridEpoch) := by
  unfold MetricRow.key
  rw [inv.node row member]

/-- The rows of a batch agree with every sampled row. -/
theorem Inv.agree (inv : Inv nodeId s) {row : MetricRow} (member : row ∈ s.sampled)
    (attempt : Nat) :
    ∀ p ∈ (s.batch attempt).map MetricRow.point, row.key = (nodeId, p.metric, p.timestamp) →
      p.value = row.value := by
  intro p inside same
  obtain ⟨row', sent, rfl⟩ := List.mem_map.mp inside
  have sampled := inv.sent attempt row' sent
  have key : row'.key = row.key := (inv.key_eq sampled).trans same.symm
  rw [inv.eq_of_key sampled member key]
  rfl

theorem Inv.ingest (inv : Inv nodeId s) {attempt : Nat} {now : Rat}
    (run : s.ingest nodeId attempt now = some s') : Inv nodeId s' := by
  unfold ReportingState.ingest at run
  split at run
  · next fresh =>
    cases run
    refine { inv with arrived := ?_, values := ?_, delivered := ?_, kept := ?_ }
    · intro a member
      rcases List.mem_cons.mp member with rfl | old
      · exact fresh.1
      · exact inv.arrived a old
    · intro metric slot v found
      rw [MetricStore.get?_ingest] at found
      split at found
      · cases found
      · rcases MetricStore.get?_upsert_cases nodeId s.store.fact
          ((s.batch attempt).map MetricRow.point) (nodeId, metric, slot) with
          old | ⟨p, inside, same, value⟩
        · exact inv.values metric slot v (old.symm.trans found)
        · obtain ⟨row, sent, rfl⟩ := List.mem_map.mp inside
          have sampled := inv.sent attempt row sent
          exact ⟨row, sampled, (inv.key_eq sampled).trans same.symm,
            Option.some.inj (value.symm.trans found)⟩
    · intro a member row sent
      have sampled := inv.sent a row sent
      rcases List.mem_cons.mp member with rfl | old
      · exact delivered_of_mem now (inv.key_eq sampled) (inv.agree sampled a)
          (List.mem_map_of_mem sent)
      · exact (inv.delivered a old row sent).ingest now (inv.agree sampled attempt)
    · intro row member
      refine (inv.kept row member).imp id (Or.imp (fun delivered => ?_) id)
      exact delivered.ingest now (inv.agree member attempt)
  · cases run

/-- Another node's report has no point of this node. -/
theorem Inv.report (inv : Inv nodeId s) {other : NodeId} (points : List MetricPoint) (now : Rat)
    (foreign : other ≠ nodeId) :
    Inv nodeId { s with store := s.store.ingest other points now, prunes := now :: s.prunes } := by
  have untouched {row : MetricRow} (member : row ∈ s.sampled) :
      ∀ p ∈ points, row.key = (other, p.metric, p.timestamp) → p.value = row.value := by
    intro p _ same
    rw [inv.key_eq member] at same
    exact (foreign (congrArg Prod.fst same).symm).elim
  refine { inv with values := ?_, delivered := ?_, kept := ?_ }
  · intro metric slot v found
    rw [MetricStore.get?_ingest] at found
    split at found
    · cases found
    · rcases MetricStore.get?_upsert_cases other s.store.fact points (nodeId, metric, slot) with
        old | ⟨p, -, same, -⟩
      · exact inv.values metric slot v (old.symm.trans found)
      · exact (foreign (congrArg Prod.fst same).symm).elim
  · intro a member row sent
    exact (inv.delivered a member row sent).ingest now (untouched (inv.sent a row sent))
  · intro row member
    refine (inv.kept row member).imp id (Or.imp (fun delivered => ?_) id)
    exact delivered.ingest now (untouched member)

/-! ## The worker samples and reports -/

/-- An eviction accounts for what it drops. -/
theorem Inv.evict (inv : Inv nodeId s) :
    Inv nodeId { s with
      buffer := s.buffer.evict.2
      evictions := s.evictions ++ s.buffer.evict.1 } := by
  have rest : (s.flying ++ s.buffer.evict.2.rows).Sublist
      (s.flying ++ s.buffer.rows) := MetricsBuffer.evict_sublist.append_left _
  have buffered := inv.sorted.sublist ((List.sublist_append_right _ _).trans inv.ordered)
  refine { inv with ordered := ?_, kept := ?_, evictions := ?_ }
  · exact rest.trans inv.ordered
  · intro row member
    rcases inv.kept row member with under_way | delivered | ⟨pass, old, dropped⟩
    · rcases List.mem_append.mp under_way with flying | rows
      · exact Or.inl (List.mem_append_left _ flying)
      · rcases MetricsBuffer.mem_evict rows with ⟨pass, new, dropped⟩ | kept
        · exact Or.inr (Or.inr ⟨pass, List.mem_append_right _ new, dropped⟩)
        · exact Or.inl (List.mem_append_right _ kept)
    · exact Or.inr (Or.inl delivered)
    · exact Or.inr (Or.inr ⟨pass, List.mem_append_left _ old, dropped⟩)
  · intro pass member
    rcases List.mem_append.mp member with old | new
    · exact inv.evictions pass old
    · exact MetricsBuffer.evict_oldest buffered pass new

theorem Inv.fail (inv : Inv nodeId s) (run : s.fail = some s') : Inv nodeId s' := by
  unfold ReportingState.fail at run
  cases waiting : s.inFlight with
  | none =>
    rw [waiting] at run
    cases run
  | some attempt =>
    rw [waiting] at run
    cases run
    have flying : s.flying = s.batch attempt := by
      unfold ReportingState.flying
      rw [waiting]
    -- the batch is put back in front of what was sampled since
    have restored : Inv nodeId { s with
        buffer := { s.buffer with rows := s.batch attempt ++ s.buffer.rows }
        inFlight := none } := by
      refine { inv with ordered := ?_, flying := ?_, kept := ?_ }
      · exact flying ▸ inv.ordered
      · exact fun a same => nomatch same
      · exact flying ▸ inv.kept
    exact restored.evict

theorem Inv.flush (inv : Inv nodeId s) (run : s.flush = some s') : Inv nodeId s' := by
  unfold ReportingState.flush at run
  cases waiting : s.inFlight with
  | some attempt =>
    rw [waiting] at run
    cases run
  | none =>
    have flying : s.flying = [] := by
      unfold ReportingState.flying
      rw [waiting]
    have ordered := inv.ordered
    have kept := inv.kept
    rw [flying, List.nil_append] at ordered
    rw [flying] at kept
    rw [waiting] at run
    dsimp only [MetricsBuffer.drain] at run
    split at run
    · next empty =>
      cases run
      rw [empty] at kept
      exact { inv with
        ordered := List.nil_sublist _
        flying := fun a same => nomatch same
        kept := kept }
    · cases run
      have batch_lt {a : Nat} (known : a < s.sent.length) :
          ((s.sent ++ [s.buffer.rows])[a]?).getD [] = s.batch a := by
        rw [List.getElem?_append_left known]
        rfl
      have batch_last : ((s.sent ++ [s.buffer.rows])[s.sent.length]?).getD [] = s.buffer.rows := by
        rw [List.getElem?_concat_length]
        rfl
      have longer : (s.sent ++ [s.buffer.rows]).length = s.sent.length + 1 := List.length_append
      refine { inv with
        ordered := ?_, sent := ?_, flying := ?_, arrived := ?_, delivered := ?_, kept := ?_ }
      · change (((s.sent ++ [s.buffer.rows])[s.sent.length]?).getD [] ++ []).Sublist s.sampled
        rw [batch_last, List.append_nil]
        exact ordered
      · intro attempt row member
        change row ∈ ((s.sent ++ [s.buffer.rows])[attempt]?).getD [] at member
        by_cases known : attempt < s.sent.length
        · rw [batch_lt known] at member
          exact inv.sent attempt row member
        · by_cases last : attempt = s.sent.length
          · rw [last, batch_last] at member
            exact ordered.subset member
          · rw [List.getElem?_eq_none (by omega)] at member
            cases member
      · rintro attempt ⟨⟩
        change s.sent.length < (s.sent ++ [s.buffer.rows]).length
        omega
      · intro attempt member
        have known := inv.arrived attempt member
        change attempt < (s.sent ++ [s.buffer.rows]).length
        omega
      · intro attempt member row sent
        change row ∈ ((s.sent ++ [s.buffer.rows])[attempt]?).getD [] at sent
        rw [batch_lt (inv.arrived attempt member)] at sent
        exact inv.delivered attempt member row sent
      · change ∀ row ∈ s.sampled, row ∈ ((s.sent ++ [s.buffer.rows])[s.sent.length]?).getD [] ++ [] ∨
          Delivered s.store s.prunes row ∨ s.Evicted row
        rw [batch_last, List.append_nil]
        exact kept

theorem Inv.sample (inv : Inv nodeId s) {slot : Int} {metrics : Dict String Rat}
    (run : s.sample nodeId slot metrics = some s') : Inv nodeId s' := by
  unfold ReportingState.sample at run
  split at run
  · next newer =>
    dsimp only at run
    split at run
    · cases run
      exact inv
    · cases run
      let rows : List MetricRow := metrics.entries.map fun entry => ⟨nodeId, slot, entry.1, entry.2⟩
      have fresh : ∀ row ∈ rows, row.gridEpoch = slot ∧ row.nodeId = nodeId := by
        intro row member
        obtain ⟨entry, -, rfl⟩ := List.mem_map.mp member
        exact ⟨rfl, rfl⟩
      have distinct : (rows.map MetricRow.key).Nodup := by
        have names : (rows.map MetricRow.metric).Nodup := by
          rw [List.map_map]
          exact metrics.nodup
        refine List.Nodup.of_map (fun key : NodeId × String × Int => key.2.1) ?_
        rw [List.map_map]
        exact names
      have appended : Inv nodeId { s with
          buffer := { s.buffer with rows := s.buffer.rows ++ rows }
          sampled := s.sampled ++ rows } := by
        refine { inv with
          ordered := ?_, sorted := ?_, keys := ?_, node := ?_, sent := ?_, values := ?_, kept := ?_ }
        · change (s.flying ++ (s.buffer.rows ++ rows)).Sublist _
          rw [← List.append_assoc]
          exact inv.ordered.append_right rows
        · refine List.pairwise_append.mpr ⟨inv.sorted, ?_, ?_⟩
          · refine List.pairwise_of_forall_mem_list fun row member row' member' => ?_
            exact le_of_eq ((fresh row member).1.trans (fresh row' member').1.symm)
          · intro row member row' member'
            have older := newer row member
            have slot' := (fresh row' member').1
            omega
        · rw [List.map_append]
          refine inv.keys.append distinct ?_
          intro key old new
          obtain ⟨row, member, rfl⟩ := List.mem_map.mp old
          obtain ⟨row', member', same⟩ := List.mem_map.mp new
          have older := newer row member
          have slot' := (fresh row' member').1
          have epochs : row'.gridEpoch = row.gridEpoch := congrArg (fun key => key.2.2) same
          omega
        · intro row member
          rcases List.mem_append.mp member with old | new
          · exact inv.node row old
          · exact (fresh row new).2
        · exact fun attempt row sent => List.mem_append_left _ (inv.sent attempt row sent)
        · intro metric slot v found
          obtain ⟨row, member, key⟩ := inv.values metric slot v found
          exact ⟨row, List.mem_append_left _ member, key⟩
        · intro row member
          change row ∈ s.flying ++ (s.buffer.rows ++ rows) ∨ _
          rw [← List.append_assoc]
          rcases List.mem_append.mp member with old | new
          · exact (inv.kept row old).imp (List.mem_append_left _) id
          · exact Or.inl (List.mem_append_right _ new)
      exact appended.evict
  · cases run

theorem inv_step (inv : Inv nodeId s) {e : ReportingEvent} (run : s.step nodeId e = some s') :
    Inv nodeId s' := by
  cases e with
  | sample slot metrics => exact inv.sample run
  | flush => exact inv.flush run
  | ingest attempt now => exact inv.ingest run
  | succeed =>
    change (match s.inFlight with | some attempt => _ | none => none) = some s' at run
    cases waiting : s.inFlight with
    | none =>
      rw [waiting] at run
      cases run
    | some attempt =>
      rw [waiting] at run
      dsimp only at run
      split at run
      · next answered =>
        cases run
        have flying : s.flying = s.batch attempt := by
          unfold ReportingState.flying
          rw [waiting]
        refine { inv with ordered := ?_, flying := ?_, kept := ?_ }
        · exact (List.sublist_append_right _ _).trans inv.ordered
        · exact fun a same => nomatch same
        · intro row member
          rcases inv.kept row member with under_way | rest
          · rcases List.mem_append.mp under_way with sent | buffered
            · rw [flying] at sent
              exact Or.inr (Or.inl (inv.delivered attempt answered row sent))
            · exact Or.inl buffered
          · exact Or.inr rest
      · cases run
  | fail => exact inv.fail run
  | report other points now =>
    change (if other = nodeId then none else _) = some s' at run
    split at run
    · cases run
    · next foreign =>
      cases run
      exact inv.report points now foreign

theorem inv_of_reachable (reached : (reportingSystem nodeId).Reachable s) : Inv nodeId s :=
  reached.invariant (fun _ => inv_initial) fun _ _ _ inv _ run => inv_step inv run

end ReportingState

open ReportingState in
/-- **Metrics are delivered.**  At every moment each sampled row is buffered, in flight,
in the store, or accounted for as dropped from a full buffer or older than the
retention; no row is under way twice; and the store has each row at most once, with
the sampled value, and has it once a batch with it was ingested. -/
theorem metrics_delivered {nodeId : NodeId} {s : ReportingState}
    (reached : (reportingSystem nodeId).Reachable s) :
    (∀ row ∈ s.sampled, row ∈ s.buffer.rows ∨ row ∈ s.flying ∨
      s.store.fact.get? row.key = some row.value ∨
      (∃ pass ∈ s.evictions, row ∈ pass.dropped) ∨
      ∃ now ∈ s.prunes, row.gridEpoch < s.store.cutoff now) ∧
    (∀ pass ∈ s.evictions, MetricsBuffer.Oldest s.buffer.capacityS pass) ∧
    ((s.flying ++ s.buffer.rows).map MetricRow.key).Nodup ∧
    (∀ row ∈ s.sampled, (s.store.fact.entries.filter fun entry => entry.1 = row.key) <+:
      [(row.key, row.value)]) ∧
    ∀ attempt ∈ s.arrived, ∀ row ∈ s.batch attempt,
      (s.store.fact.entries.filter fun entry => entry.1 = row.key) = [(row.key, row.value)] ∨
      ∃ now ∈ s.prunes, row.gridEpoch < s.store.cutoff now := by
  have inv := inv_of_reachable reached
  have keys : ((s.flying ++ s.buffer.rows).map MetricRow.key).Nodup :=
    inv.keys.sublist (inv.ordered.map MetricRow.key)
  have stored (row : MetricRow) (member : row ∈ s.sampled) :
      s.store.fact.get? row.key = none ∨ s.store.fact.get? row.key = some row.value := by
    cases found : s.store.fact.get? row.key with
    | none => exact Or.inl rfl
    | some v =>
      rw [inv.key_eq member] at found
      obtain ⟨row', member', same, rfl⟩ := inv.values _ _ v found
      rw [inv.eq_of_key member' member (same.trans (inv.key_eq member).symm)]
      exact Or.inr rfl
  refine ⟨fun row member => ?_, inv.evictions, keys, fun row member => ?_,
    fun attempt answered row sent => ?_⟩
  · rcases inv.kept row member with under_way | (found | expired) | evicted
    · rcases List.mem_append.mp under_way with flying | buffered
      · exact Or.inr (Or.inl flying)
      · exact Or.inl buffered
    · exact Or.inr (Or.inr (Or.inl found))
    · exact Or.inr (Or.inr (Or.inr (Or.inr expired)))
    · exact Or.inr (Or.inr (Or.inr (Or.inl evicted)))
  · rw [Dict.filter_key]
    rcases stored row member with none | some
    · rw [none]
      exact List.nil_prefix
    · rw [some]
      exact List.prefix_refl _
  · rcases inv.delivered attempt answered row sent with found | expired
    · rw [Dict.filter_key, found]
      exact Or.inl rfl
    · exact Or.inr expired

/-- A batch is ingested, its reply is lost, the reporter sends it again. -/
def retriedRun : Option ReportingState :=
  (reportingSystem "n").run ⟨⟨1800, 300, []⟩, [], none, [], ⟨86400, .empty⟩, [], [], []⟩
    [.sample 5 ⟨[("cpu", 1)], List.nodup_singleton _⟩, .flush, .ingest 0 6, .fail,
      .sample 10 ⟨[("cpu", 2)], List.nodup_singleton _⟩, .flush, .ingest 1 11, .succeed]

theorem metrics_delivered_retried :
    ∃ s, retriedRun = some s ∧
      s.store.fact.entries = [(("n", "cpu", 5), 1), (("n", "cpu", 10), 2)] ∧
      ∀ row ∈ s.sampled, (s.store.fact.entries.filter fun entry => entry.1 = row.key) <+:
        [(row.key, row.value)] := by
  have stored : (retriedRun.map fun s => s.store.fact.entries) =
      some [(("n", "cpu", 5), 1), (("n", "cpu", 10), 2)] := by decide +kernel
  obtain ⟨s, ran, entries⟩ := Option.map_eq_some_iff.mp stored
  have reached : (reportingSystem "n").Reachable s :=
    .of_run ⟨rfl, rfl, rfl, rfl, rfl, rfl, rfl, fun _ _ => rfl⟩ ran
  exact ⟨s, ran, entries, (metrics_delivered reached).2.2.2.1⟩

end Oumigo
