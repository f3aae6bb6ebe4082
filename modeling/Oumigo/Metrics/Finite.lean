import Oumigo.Metrics.Prometheus

/-!
# Texts that give finite values only

`Sane` is a condition on a text of metrics: no sample that the parser keeps is NaN or
infinite, and every histogram with an observation is one that a quantile of exists for.
`isFinite_parse`: then all that the parser returns is finite.
-/

namespace Oumigo

open Python

/-- A histogram whose quantiles exist: its edges are numbers, but for one `+Inf`, and then
some bucket holds three quarters of the observations. -/
structure Family.Sound (fam : Family) : Prop where
  edges : ∀ p ∈ bucketPoints fam.buckets, p.1.isFinite = true ∨ p.1 = .inf false
  single : ((bucketPoints fam.buckets).filter fun p => p.1.isInf).length ≤ 1
  covered : (∃ p ∈ bucketPoints fam.buckets, p.1.isInf = true) →
    ∃ p ∈ bucketPoints fam.buckets, ((PyFloat.num (3 / 4)).mul fam.count).le p.2 = true

/-- A text of metrics that no non-finite value comes of. -/
structure Sane (text : String) : Prop where
  samples : ∀ x ∈ samples "vllm:" text,
    x.value.isFinite = true ∨ route x.name x.labels = .dropped
  histograms : ∀ key fam, (scrape "vllm:" text).hist.get? key = some fam →
    (PyFloat.num 0).lt fam.count = true → fam.Sound

/-! ## What is gathered -/

/-- All values of a family are finite. -/
structure Family.Finite (fam : Family) : Prop where
  buckets : ∀ bound v, fam.buckets.get? bound = some v → v.isFinite = true
  sum : fam.sum.isFinite = true
  count : fam.count.isFinite = true
  stats : ∀ stat v, fam.stats.get? stat = some v → v.isFinite = true

/-- All values that were gathered are finite. -/
structure Scrape.Finite (s : Scrape) : Prop where
  scalars : ∀ key v, s.scalars.get? key = some v → v.isFinite = true
  hist : ∀ key fam, s.hist.get? key = some fam → fam.Finite

theorem finite_set {d : Dict String PyFloat} {key : String} {value : PyFloat}
    (finite : ∀ k v, d.get? k = some v → v.isFinite = true) (new : value.isFinite = true) :
    ∀ k v, (d.set key value).get? k = some v → v.isFinite = true := by
  intro k v found
  rw [Dict.get?_set] at found
  split at found
  · cases found
    exact new
  · exact finite k v found

theorem Scrape.Finite.patch {s : Scrape} (finite : s.Finite) (key : String × String)
    {change : Family → Family} (keeps : ∀ fam, fam.Finite → (change fam).Finite) :
    (s.patch key change).Finite where
  scalars := finite.scalars
  hist k fam found := by
    unfold Scrape.patch at found
    rw [Dict.get?_set] at found
    split at found
    · cases found
      apply keeps
      cases old : s.hist.get? key with
      | none =>
        refine ⟨?_, rfl, rfl, ?_⟩
        · intro bound v none
          cases none
        · intro stat v none
          cases none
      | some fam => exact finite.hist key fam old
    · exact finite.hist k fam found

theorem Scrape.Finite.take {s : Scrape} {x : Sample} (finite : s.Finite)
    (value : x.value.isFinite = true ∨ route x.name x.labels = .dropped) : (s.take x).Finite := by
  unfold Scrape.take
  rcases value with value | dropped
  · split
    · exact finite
    · exact finite.patch _ fun fam kept =>
        ⟨finite_set kept.buckets value, kept.sum, kept.count, kept.stats⟩
    · exact finite.patch _ fun fam kept => ⟨kept.buckets, value, kept.count, kept.stats⟩
    · exact finite.patch _ fun fam kept => ⟨kept.buckets, kept.sum, value, kept.stats⟩
    · exact finite.patch _ fun fam kept =>
        ⟨kept.buckets, kept.sum, kept.count, finite_set kept.stats value⟩
    · exact ⟨finite_set finite.scalars value, finite.hist⟩
  · rw [dropped]
    exact finite

theorem Scrape.Finite.foldl {s : Scrape} {xs : List Sample} (finite : s.Finite)
    (values : ∀ x ∈ xs, x.value.isFinite = true ∨ route x.name x.labels = .dropped) :
    (xs.foldl Scrape.take s).Finite := by
  induction xs generalizing s with
  | nil => exact finite
  | cons x rest ih =>
    exact ih (finite.take (values x List.mem_cons_self))
      fun y member => values y (List.mem_cons_of_mem _ member)

theorem Sane.finite {text : String} (sane : Sane text) : (scrape "vllm:" text).Finite := by
  refine Scrape.Finite.foldl ⟨?_, ?_⟩ sane.samples
  · intro key v none
    cases none
  · intro key fam none
    cases none

/-! ## Summaries -/

section Quantiles

variable {pts : List (PyFloat × PyFloat)}

/-- The edges are in order, finite but for `+Inf`, which comes once. -/
structure Edges (pts : List (PyFloat × PyFloat)) : Prop where
  sorted : pts.Pairwise fun p p' => p.1.sortLe p'.1 = true
  edges : ∀ p ∈ pts, p.1.isFinite = true ∨ p.1 = .inf false
  single : (pts.filter fun p => p.1.isInf).length ≤ 1
  counts : ∀ p ∈ pts, p.2.isFinite = true

theorem Edges.tail {p : PyFloat × PyFloat} (edges : Edges (p :: pts)) : Edges pts where
  sorted := (List.pairwise_cons.mp edges.sorted).2
  edges q member := edges.edges q (List.mem_cons_of_mem _ member)
  single := by
    have whole := edges.single
    rw [List.filter_cons] at whole
    split at whole
    · exact (Nat.le_succ _).trans whole
    · exact whole
  counts q member := edges.counts q (List.mem_cons_of_mem _ member)

/-- `+Inf` is the last edge. -/
theorem Edges.last_of_inf {p : PyFloat × PyFloat} (edges : Edges (p :: pts))
    (inf : p.1 = .inf false) : pts = [] := by
  cases rest : pts with
  | nil => rfl
  | cons q more =>
    subst rest
    have after := (List.pairwise_cons.mp edges.sorted).1 q List.mem_cons_self
    rw [inf] at after
    have twice := edges.single
    have second : q.1.isInf = true := by
      rcases PyFloat.sortLe_inf after with same | nan
      · rw [same]
        rfl
      · rcases edges.edges q (List.mem_cons_of_mem _ List.mem_cons_self) with finite | same
        · rw [nan] at finite
          cases finite
        · rw [same]
          rfl
    have first : p.1.isInf = true := by rw [inf]; rfl
    rw [List.filter_cons_of_pos (by simpa using first),
      List.filter_cons_of_pos (by simpa using second)] at twice
    simp at twice

theorem isFinite_quantileLoop {rank last prevBound prevCount v : PyFloat} (edges : Edges pts)
    (target : rank.isFinite = true) (bound : prevBound.isFinite = true)
    (count : prevCount.isFinite = true)
    (reached : (∃ p ∈ pts, rank.le p.2 = true) ∨
      last.isFinite = true ∧ ∀ p ∈ pts, p.1.isFinite = true)
    (found : quantileLoop rank last prevBound prevCount pts = some v) : v.isFinite = true := by
  induction pts generalizing prevBound prevCount with
  | nil =>
    cases found
    rcases reached with ⟨p, member, -⟩ | ⟨finite, -⟩
    · cases member
    · exact PyFloat.isFinite_round finite
  | cons p rest ih =>
    obtain ⟨edge, held⟩ := p
    have counted : held.isFinite = true := edges.counts _ List.mem_cons_self
    unfold quantileLoop at found
    split at found
    · split at found
      · split at found
        · cases found
          exact bound
        · cases found
      · next notInf =>
        have finite : edge.isFinite = true := by
          rcases edges.edges (edge, held) List.mem_cons_self with finite | inf
          · exact finite
          · exact absurd (by rw [show edge = _ from inf]; rfl) notInf
        dsimp only at found
        split at found
        · cases found
          exact PyFloat.isFinite_round finite
        · cases found
          exact PyFloat.isFinite_round (PyFloat.isFinite_add bound
            (PyFloat.isFinite_div (PyFloat.isFinite_mul (PyFloat.isFinite_sub finite bound)
              (PyFloat.isFinite_sub target count)) (PyFloat.isFinite_sub counted count)))
    · next below =>
      have later : (∃ p ∈ rest, rank.le p.2 = true) ∨
          last.isFinite = true ∧ ∀ p ∈ rest, p.1.isFinite = true := by
        rcases reached with ⟨p, member, enough⟩ | ⟨finite, all⟩
        · rcases List.mem_cons.mp member with rfl | member
          · exact absurd enough below
          · exact Or.inl ⟨p, member, enough⟩
        · exact Or.inr ⟨finite, fun p member => all p (List.mem_cons_of_mem _ member)⟩
      have finite : edge.isFinite = true := by
        rcases edges.edges (edge, held) List.mem_cons_self with finite | inf
        · exact finite
        · have none := edges.last_of_inf inf
          subst none
          rcases reached with ⟨p, member, enough⟩ | ⟨-, all⟩
          · rw [List.mem_singleton.mp member] at enough
            exact absurd enough below
          · exact all _ List.mem_cons_self
      exact ih edges.tail finite counted later found

theorem isFinite_highestEdge {maximum : Option PyFloat} {prev v : PyFloat}
    (start : ∀ m, maximum = some m → m.isFinite = true)
    (finite : ∀ p ∈ pts, p.1.isFinite = true)
    (found : highestEdge maximum prev pts = some v) : v.isFinite = true := by
  induction pts generalizing maximum prev with
  | nil => exact start v found
  | cons p rest ih =>
    refine ih ?_ (fun q member => finite q (List.mem_cons_of_mem _ member)) found
    intro m same
    split at same
    · cases same
      exact finite p List.mem_cons_self
    · exact start m same

end Quantiles

section Summaries

variable {fam : Family} {v : PyFloat}

theorem Family.Finite.edges (finite : fam.Finite) (sound : fam.Sound) :
    Edges (bucketPoints fam.buckets) where
  sorted := by
    refine List.pairwise_mergeSort ?_ ?_ _
    · exact fun _ _ _ => PyFloat.sortLe_trans
    · exact fun p p' => PyFloat.sortLe_total p.1 p'.1
  edges := sound.edges
  single := sound.single
  counts p member := by
    obtain ⟨entry, inside, named⟩ := List.mem_filterMap.mp (List.mem_mergeSort.mp member)
    obtain ⟨bound, -, rfl⟩ := Option.map_eq_some_iff.mp named
    exact finite.buckets entry.1 entry.2 (Dict.mem_entries.mp inside)

theorem isFinite_quantileInterp {q : Rat} (finite : fam.Finite) (sound : fam.Sound)
    (positive : (PyFloat.num 0).lt fam.count = true) (part : q ≤ 3 / 4)
    (found : quantileInterp (bucketPoints fam.buckets) fam.count q = some v) :
    v.isFinite = true := by
  have edges := finite.edges sound
  obtain ⟨c, count⟩ := PyFloat.eq_num_of_isFinite finite.count
  rw [count] at positive found
  have above : 0 < c := by simpa [PyFloat.lt] using positive
  unfold quantileInterp at found
  cases last : (bucketPoints fam.buckets).getLast? with
  | none =>
    rw [last] at found
    cases found
  | some final =>
    rw [last] at found
    dsimp only at found
    split at found
    · cases found
    · refine isFinite_quantileLoop edges rfl rfl rfl ?_ found
      by_cases unbounded : ∃ p ∈ bucketPoints fam.buckets, p.1.isInf = true
      · obtain ⟨p, member, enough⟩ := sound.covered unbounded
        refine Or.inl ⟨p, member, ?_⟩
        obtain ⟨held, counted⟩ := PyFloat.eq_num_of_isFinite (edges.counts p member)
        rw [count, counted] at enough
        rw [counted]
        have most : 3 / 4 * c ≤ held := by simpa [PyFloat.mul, PyFloat.le] using enough
        have less : q * c ≤ 3 / 4 * c := mul_le_mul_of_nonneg_right part above.le
        simpa [PyFloat.mul, PyFloat.le] using less.trans most
      · have all : ∀ p ∈ bucketPoints fam.buckets, p.1.isFinite = true := by
          intro p member
          rcases sound.edges p member with finite | inf
          · exact finite
          · exact absurd ⟨p, member, by rw [inf]; rfl⟩ unbounded
        exact Or.inr ⟨all final (List.mem_of_getLast? last), all⟩

theorem isFinite_histogramAggregates {base : String} (finite : fam.Finite)
    (sound : (PyFloat.num 0).lt fam.count = true → fam.Sound) :
    ∀ pair ∈ histogramAggregates base fam.buckets fam.sum fam.count, pair.2.isFinite = true := by
  intro pair member
  unfold histogramAggregates at member
  split at member
  · rw [List.mem_singleton.mp member]
    exact finite.count
  · next observed =>
    obtain ⟨c, count⟩ := PyFloat.eq_num_of_isFinite finite.count
    have positive : (PyFloat.num 0).lt fam.count = true := by
      rw [count] at observed ⊢
      simpa [PyFloat.le, PyFloat.lt] using observed
    have edges := finite.edges (sound positive)
    have head : ∀ pair ∈ [(base ++ "_count", fam.count),
        (base ++ "_mean", (fam.sum.div fam.count).round 6)], pair.2.isFinite = true := by
      intro pair member
      rcases List.mem_cons.mp member with rfl | member
      · exact finite.count
      · rw [List.mem_singleton.mp member]
        exact PyFloat.isFinite_round (PyFloat.isFinite_div finite.sum finite.count)
    have finiteEdge : ∀ p ∈ (bucketPoints fam.buckets).filter (fun p => !p.1.isInf),
        p.1.isFinite = true := by
      intro p member
      obtain ⟨inside, notInf⟩ := List.mem_filter.mp member
      rcases edges.edges p inside with finite | inf
      · exact finite
      · rw [inf] at notInf
        cases notInf
    have lastEdge : ∀ m, ((bucketPoints fam.buckets).filter fun p => !p.1.isInf).getLast?.map
        Prod.fst = some m → m.isFinite = true := by
      intro m same
      obtain ⟨p, last, rfl⟩ := Option.map_eq_some_iff.mp same
      exact finiteEdge p (List.mem_of_getLast? last)
    dsimp only at member
    split at member
    · exact head pair member
    · rcases List.mem_append.mp member with front | summary
      · exact head pair front
      · obtain ⟨edge, listed, value⟩ := List.mem_filterMap.mp summary
        obtain ⟨v, found, rfl⟩ := Option.map_eq_some_iff.mp value
        simp only [List.mem_cons, List.not_mem_nil, or_false] at listed
        rcases listed with rfl | rfl | rfl | rfl | rfl
        · obtain ⟨p, first, lowest⟩ := Option.bind_eq_some_iff.mp found
          split at lowest
          · exact lastEdge v lowest
          · next notInf =>
            cases lowest
            rcases edges.edges p (List.mem_of_find?_eq_some first) with finite | inf
            · exact finite
            · rw [inf] at notInf
              exact absurd rfl notInf
        · exact isFinite_quantileInterp finite (sound positive) positive (by norm_num) found
        · exact isFinite_quantileInterp finite (sound positive) positive (by norm_num) found
        · exact isFinite_quantileInterp finite (sound positive) positive (by norm_num) found
        · exact isFinite_highestEdge lastEdge finiteEdge found

theorem isFinite_summary {base suffix : String} (finite : fam.Finite)
    (sound : (PyFloat.num 0).lt fam.count = true → fam.Sound) :
    ∀ pair ∈ fam.summary base suffix, pair.2.isFinite = true := by
  intro pair member
  unfold Family.summary at member
  dsimp only at member
  split at member
  · rcases List.mem_cons.mp member with rfl | stat
    · exact finite.count
    · obtain ⟨name, -, value⟩ := List.mem_filterMap.mp stat
      obtain ⟨v, found, rfl⟩ := Option.map_eq_some_iff.mp value
      exact PyFloat.isFinite_round (finite.stats name v found)
  · exact isFinite_histogramAggregates finite sound pair member

end Summaries

/-- **All that is read of a sane text is finite.** -/
theorem isFinite_parse {text : String} (sane : Sane text) :
    ∀ key v, (parsePrometheus "vllm:" text).get? key = some v → v.isFinite = true := by
  have gathered := sane.finite
  have each : ∀ entry ∈ (scrape "vllm:" text).hist.entries,
      ∀ pair ∈ entry.2.summary entry.1.1 entry.1.2, pair.2.isFinite = true := by
    intro entry member
    have stored := Dict.mem_entries.mp member
    exact isFinite_summary (gathered.hist _ _ stored) (sane.histograms _ _ stored)
  unfold parsePrometheus Scrape.flatten
  have start := gathered.scalars
  generalize (scrape "vllm:" text).hist.entries = entries at each
  generalize (scrape "vllm:" text).scalars = out at start
  induction entries generalizing out with
  | nil => exact start
  | cons entry rest ih =>
    refine ih (fun e member => each e (List.mem_cons_of_mem _ member)) _ ?_
    intro key v found
    rcases get?_update_cases found with old | new
    · exact start key v old
    · exact each entry List.mem_cons_self _ new

end Oumigo
