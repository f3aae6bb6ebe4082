import Oumigo.Metrics.Quantile
import Mathlib.Data.List.Nodup

/-!
# The distribution summary of a histogram

`_histogram_aggregates` of `service/worker/metrics.py` on well-formed histograms.  `summary_eq`
says what it emits in terms of ranks: `_min` and `_max` are the quantiles at the counts of the
lowest and of the highest populated bucket, upper edges both, while the tiles lie inside their
buckets.  So a tile is below `_min` where the lowest populated bucket holds more than its share.
-/

namespace Oumigo

open Python Interpolation

/-! ## From the labels to the bucket list -/

/-- The buckets whose bound can be read, in the order of the text. -/
def parsedBuckets (buckets : Dict String PyFloat) : List (PyFloat × PyFloat) :=
  buckets.entries.filterMap fun entry => (boundOf entry.1).map fun bound => (bound, entry.2)

/-- The labels and counts are those of a bucket list, in any order. -/
def Buckets.Describes (b : Buckets) (buckets : Dict String PyFloat) : Prop :=
  (parsedBuckets buckets).Perm b.points

instance (b : Buckets) (buckets : Dict String PyFloat) : Decidable (b.Describes buckets) :=
  inferInstanceAs (Decidable (List.Perm _ _))

namespace Buckets

variable {b : Buckets} {buckets : Dict String PyFloat}

/-- A bound comes before a larger one and not after it. -/
theorem points_sorted : b.points.Pairwise fun p p' =>
    p.1.sortLe p'.1 = true ∧ p'.1.sortLe p.1 = false := by
  unfold points
  rw [List.pairwise_append, List.pairwise_map]
  refine ⟨(List.pairwise_cons.mp b.bounds).2.imp fun {p p'} less => ?_, by simp, ?_⟩
  · exact ⟨decide_eq_true less.le, decide_eq_false less.not_ge⟩
  · intro p member p' last
    obtain ⟨bucket, -, rfl⟩ := List.mem_map.mp member
    rw [List.mem_singleton.mp last]
    exact ⟨rfl, rfl⟩

/-- **`_bucket_points`** finds the bucket list, whatever the order of the labels. -/
theorem bucketPoints_eq (described : b.Describes buckets) : bucketPoints buckets = b.points := by
  have sorted : (bucketPoints buckets).Pairwise fun p p' => p.1.sortLe p'.1 = true := by
    apply List.pairwise_mergeSort
    · intro p p' p''
      exact PyFloat.sortLe_trans
    · intro p p'
      exact PyFloat.sortLe_total p.1 p'.1
  have perm : (bucketPoints buckets).Perm b.points :=
    (List.mergeSort_perm _ _).trans described
  -- two buckets of the list that come before each other are the same
  have antisymm := List.Pairwise.forall_of_forall_of_flip
    (R := fun p p' : PyFloat × PyFloat =>
      p.1.sortLe p'.1 = true → p'.1.sortLe p.1 = true → p = p')
    (fun _ _ _ _ => rfl)
    (b.points_sorted.imp fun order _ back => by simp [order.2] at back)
    (b.points_sorted.imp fun order le _ => by simp [order.2] at le)
  refine List.Perm.eq_of_pairwise ?_ sorted (points_sorted.imp And.left) perm
  intro p p' member member'
  exact antisymm (perm.mem_iff.mp member) member'

end Buckets

/-! ## The extremes -/

/-- A well-formed cumulative histogram. -/
structure Histogram extends Buckets where
  nonneg : ∀ bucket ∈ finite, 0 ≤ bucket.2

namespace Histogram

variable {h : Histogram} {bucket : Rat × Rat}

/-- The last finite bucket, with the count of all the observations in finite buckets. -/
def last (h : Histogram) : Rat × Rat := h.finite.getLastD (0, 0)

/-- The lowest finite bucket with an observation. -/
def lowest (h : Histogram) : Option (Rat × Rat) := h.finite.find? fun bucket => 0 < bucket.2

/-- The highest finite bucket with an observation: none after it adds to the count. -/
def highest (h : Histogram) : Option (Rat × Rat) :=
  if 0 < h.last.2 then (landing h.last.2 (0, 0) h.finite).2 else none

theorem count_le_last (member : bucket ∈ h.finite) : bucket.2 ≤ h.last.2 := by
  obtain ⟨last, found, le⟩ := Buckets.count_le_last member
  unfold Histogram.last
  rwa [List.getLastD_eq_getLast?, found]

theorem edge_eq : h.edge = if 0 < h.last.2 then some h.last.1 else none := Buckets.edge_eq

theorem lowestEdge_points :
    lowestEdge h.points (h.finite.map toPoint) =
      (h.lowest.or h.finite.getLast?).map fun bucket => .num bucket.1 := by
  have found : (h.finite.map toPoint).find? (fun p => (PyFloat.num 0).lt p.2) =
      h.lowest.map toPoint := by
    rw [List.find?_map]
    rfl
  have some_ : (PyFloat.num 0).lt (.num h.total) = true := decide_eq_true h.observed
  unfold lowestEdge Buckets.points
  rw [List.find?_append, found]
  cases h.lowest with
  | some bucket => rfl
  | none => simp [some_, PyFloat.isInf, toPoint, Function.comp_def]

/-- The loop for the maximum stops to move at the knot that reaches the last count. -/
theorem highestEdge_points {maximum : Option PyFloat} {first : Rat × Rat}
    {knots : List (Rat × Rat)} (counts : (first.2 :: knots.map Prod.snd).Pairwise (· ≤ ·)) :
    highestEdge maximum (.num first.2) (knots.map toPoint) =
      if first.2 < (knots.getLastD first).2 then
        (landing (knots.getLastD first).2 first knots).2.map fun knot => .num knot.1
      else maximum := by
  induction knots generalizing first maximum with
  | nil => simp [highestEdge]
  | cons knot rest ih =>
    obtain ⟨before, later⟩ := List.pairwise_cons.mp counts
    have step : first.2 ≤ knot.2 := before knot.2 List.mem_cons_self
    have most : knot.2 ≤ (rest.getLastD knot).2 := by
      rcases List.mem_cons.mp (List.getLastD_mem_cons (l := rest) (a := knot)) with same | member
      · rw [same]
      · exact (List.pairwise_cons.mp later).1 _ (List.mem_map_of_mem member)
    rw [List.map_cons, List.getLastD_cons]
    simp only [highestEdge, toPoint]
    rw [ih later]
    rcases lt_or_eq_of_le most with beyond | same
    · rw [if_pos beyond, if_pos (step.trans_lt beyond), landing_cons_of_lt beyond]
    · -- no later bucket has an observation
      rw [← same, if_neg (lt_irrefl _), landing_cons_of_le le_rfl]
      simp [PyFloat.lt]

theorem last_mem (populated : 0 < h.last.2) : h.last ∈ h.finite := by
  rcases List.mem_cons.mp (List.getLastD_mem_cons (l := h.finite) (a := ((0, 0) : Rat × Rat)))
    with same | member
  · unfold Histogram.last at populated
    rw [same] at populated
    exact absurd populated (lt_irrefl 0)
  · exact member

/-- The upper edge of a bucket is the quantile at its count, if none in front has that count. -/
theorem quantile_count {front back : List (Rat × Rat)} (split : h.finite = front ++ bucket :: back)
    (below : ∀ other ∈ front, other.2 < bucket.2) (positive : 0 < bucket.2) :
    h.quantile (bucket.2 / h.total) = some bucket.1 := by
  have past : ((0, 0) : Rat × Rat).2 < bucket.2 := positive
  unfold Buckets.quantile
  rw [div_mul_cancel₀ _ h.observed.ne', split, valueAt_knot past below]
  rfl

theorem lowest_spec (found : h.lowest = some bucket) :
    0 < bucket.2 ∧ bucket ∈ h.finite ∧ h.quantile (bucket.2 / h.total) = some bucket.1 := by
  obtain ⟨populated, front, back, split, empty⟩ := List.find?_eq_some_iff_append.mp found
  have positive : 0 < bucket.2 := of_decide_eq_true populated
  refine ⟨positive, by simp [split], quantile_count split (fun other member => ?_) positive⟩
  have none_ : ¬ 0 < other.2 := by simpa using empty other member
  exact (not_lt.mp none_).trans_lt positive

theorem highest_spec (populated : 0 < h.last.2) :
    ∃ bucket, h.highest = some bucket ∧ h.quantile (h.last.2 / h.total) = some bucket.1 := by
  unfold highest
  rw [if_pos populated]
  cases lands : (landing h.last.2 (0, 0) h.finite).2 with
  | none =>
    have short := landing_none_iff.mp lands h.last (last_mem populated)
    exact absurd short (lt_irrefl _)
  | some bucket =>
    obtain ⟨front, back, split, below, reached, -⟩ := landing_split lands
    have same : h.last.2 = bucket.2 :=
      le_antisymm reached (count_le_last (by simp [split]))
    rw [same] at populated below ⊢
    exact ⟨bucket, rfl, quantile_count split below populated⟩

theorem highestEdge_eq :
    highestEdge ((h.finite.map toPoint).getLast?.map Prod.fst) (.num 0) (h.finite.map toPoint) =
      (h.highest.or h.finite.getLast?).map fun bucket => .num bucket.1 := by
  have counts : (((0, 0) : Rat × Rat).2 :: h.finite.map Prod.snd).Pairwise (· ≤ ·) := by
    refine List.pairwise_cons.mpr ⟨?_, (List.pairwise_append.mp h.counts).1⟩
    intro count member
    obtain ⟨bucket, inside, rfl⟩ := List.mem_map.mp member
    exact h.nonneg bucket inside
  refine (highestEdge_points counts).trans ?_
  by_cases populated : 0 < h.last.2
  · obtain ⟨bucket, found, -⟩ := highest_spec populated
    have lands := found
    unfold highest at lands
    rw [if_pos populated] at lands
    rw [found]
    exact (if_pos populated).trans (congrArg _ lands)
  · unfold highest
    rw [if_neg populated, Option.none_or, List.getLast?_map, Option.map_map]
    exact if_neg populated

end Histogram

/-! ## What is emitted -/

/-- The five numbers of a summary, where it has them. -/
structure FiveNumbers where
  min : Option PyFloat
  tile25 : Option PyFloat
  median : Option PyFloat
  tile75 : Option PyFloat
  max : Option PyFloat
  deriving DecidableEq

/-- The five numbers are in order, where all are emitted. -/
def FiveNumbers.Ordered (s : FiveNumbers) : Prop :=
  ∀ min ∈ s.min, ∀ tile25 ∈ s.tile25, ∀ median ∈ s.median, ∀ tile75 ∈ s.tile75, ∀ max ∈ s.max,
    min.le tile25 = true ∧ tile25.le median = true ∧ median.le tile75 = true ∧
      tile75.le max = true

instance (s : FiveNumbers) : Decidable s.Ordered := by
  delta FiveNumbers.Ordered
  infer_instance

/-- The five numbers, read from the keys of `base`. -/
def fiveNumbers (base : String) (summary : List (String × PyFloat)) : FiveNumbers where
  min := summary.lookup (base ++ "_min")
  tile25 := summary.lookup (base ++ "_tile25")
  median := summary.lookup (base ++ "_median")
  tile75 := summary.lookup (base ++ "_tile75")
  max := summary.lookup (base ++ "_max")

/-- A key that is emitted if it has a value. -/
theorem lookup_emitted {key : String} {edges : List (String × Option PyFloat)}
    (nodup : (edges.map Prod.fst).Nodup) :
    (edges.filterMap fun edge => edge.2.map fun value => (edge.1, value)).lookup key =
      (edges.lookup key).join := by
  induction edges with
  | nil => rfl
  | cons edge rest ih =>
    rcases edge with ⟨name, value⟩
    obtain ⟨fresh, later⟩ := List.nodup_cons.mp nodup
    rcases eq_or_ne key name with rfl | other
    · have absent : rest.lookup key = none := by
        rw [List.lookup_eq_none_iff]
        intro edge member
        have apart : key ≠ edge.1 := by
          intro same
          rw [same] at fresh
          exact fresh (List.mem_map.mpr ⟨edge, member, rfl⟩)
        simpa using apart
      cases value with
      | none => simp [ih later, absent]
      | some value => simp
    · have skip : (key == name) = false := by simpa using other
      cases value with
      | none => simp [List.lookup_cons, skip, ih later]
      | some value => simp [List.lookup_cons, skip, ih later]

/-- A value that is emitted, if it is, as a quantile to six decimals. -/
def Rounded (value : Option PyFloat) (exact : Option Rat) : Prop :=
  value.map (·.round 6) = exact.map fun v => .num (roundTo 6 v)

/-- At six decimals the one value is at most the other, where both are emitted. -/
def RoundedLe (value value' : Option PyFloat) : Prop :=
  ∀ x ∈ value, ∀ x' ∈ value', (x.round 6).le (x'.round 6) = true

theorem RoundedLe.of_rounded {value value' : Option PyFloat} {exact exact' : Option Rat}
    (rounded : Rounded value exact) (rounded' : Rounded value' exact')
    (le : ∀ v ∈ exact, ∀ v' ∈ exact', v ≤ v') : RoundedLe value value' := by
  intro x member x' member'
  unfold Rounded at rounded rounded'
  rw [Option.mem_def.mp member, Option.map_some] at rounded
  rw [Option.mem_def.mp member', Option.map_some] at rounded'
  obtain ⟨v, found, same⟩ := Option.map_eq_some_iff.mp rounded.symm
  obtain ⟨v', found', same'⟩ := Option.map_eq_some_iff.mp rounded'.symm
  rw [← same, ← same']
  exact decide_eq_true (roundTo_mono (le v found v' found'))

theorem Rounded.isSome {value : Option PyFloat} {exact : Option Rat}
    (rounded : Rounded value exact) : value.isSome = exact.isSome := by
  have same := congrArg Option.isSome rounded
  simpa using same

theorem returned_round (l : Leaving) :
    l.returned.map (·.round 6) = l.exact.map (·.round 6) := by
  have again : ∀ x : PyFloat, (x.round 6).round 6 = x.round 6 := by
    intro x
    cases x with
    | nan => rfl
    | inf negative => rfl
    | num q => exact congrArg PyFloat.num (roundTo_roundTo 6 q)
  cases l with
  | overflow edge => rfl
  | flat bound => exact congrArg some (again bound)
  | inside value divisor => exact congrArg some (again value)
  | fallthrough last => exact congrArg some (again last)

namespace Histogram

variable {h : Histogram} {buckets : Dict String PyFloat}

/-- **What `_histogram_aggregates` emits**, for any order of the labels. -/
theorem summary_eq (described : h.Describes buckets) (base : String) (hsum : PyFloat) :
    fiveNumbers base (histogramAggregates base buckets hsum (.num h.total)) =
      { min := (h.lowest.or h.finite.getLast?).map fun bucket => .num bucket.1
        tile25 := (h.leaves (1 / 4)).returned
        median := (h.leaves (1 / 2)).returned
        tile75 := (h.leaves (3 / 4)).returned
        max := (h.highest.or h.finite.getLast?).map fun bucket => .num bucket.1 } := by
  have some_ : ¬ (PyFloat.num h.total).le (.num 0) = true := by
    simpa [PyFloat.le] using h.observed
  have listed : h.points ≠ [] := by simp [Buckets.points]
  have finite : (h.points.filter fun p => !p.1.isInf) = h.finite.map toPoint := by
    simp [Buckets.points, List.filter_map, toPoint, Function.comp_def, PyFloat.isInf]
  unfold histogramAggregates
  rw [if_neg some_, Buckets.bucketPoints_eq described, if_neg listed]
  dsimp only
  rw [finite, lowestEdge_points, highestEdge_eq, Buckets.quantileInterp_points,
    Buckets.quantileInterp_points, Buckets.quantileInterp_points]
  have nodup : ∀ a b c d e : Option PyFloat, ([(base ++ "_min", a), (base ++ "_tile25", b),
      (base ++ "_median", c), (base ++ "_tile75", d), (base ++ "_max", e)].map Prod.fst).Nodup := by
    intros
    simp
  have keys : ∀ key key' : String, (base ++ key == base ++ key') = (key == key') := by
    intro key key'
    rw [Bool.eq_iff_iff, beq_iff_eq, beq_iff_eq, String.append_right_inj]
  simp [fiveNumbers, List.lookup_cons, lookup_emitted (nodup _ _ _ _ _), keys]

/-! ## The order of the five numbers -/

theorem rounded_tile {q : Rat} (positive : 0 < q) (most : q ≤ 1) :
    Rounded (h.leaves q).returned (h.quantile q) := by
  unfold Rounded
  rw [returned_round, Buckets.exact_leaves positive most, Option.map_map]
  rfl

theorem rounded_bound (bucket : Option (Rat × Rat)) :
    Rounded (bucket.map fun bucket => .num bucket.1) (bucket.map Prod.fst) := by
  cases bucket <;> rfl

/-- A tile has a value if there is an observation in a finite bucket. -/
theorem quantile_isSome {q : Rat} (positive : 0 < q) :
    (h.quantile q).isSome = true ↔ 0 < h.last.2 := by
  rw [← Option.ne_none_iff_isSome, Ne, Buckets.quantile_none_iff positive, edge_eq]
  split <;> simp_all

theorem exists_lowest (populated : 0 < h.last.2) : ∃ bucket, h.lowest = some bucket := by
  apply Option.isSome_iff_exists.mp
  rw [lowest, List.find?_isSome]
  exact ⟨h.last, last_mem populated, decide_eq_true populated⟩

theorem count_div_pos {count : Rat} (positive : 0 < count) : 0 < count / h.total :=
  div_pos positive h.observed

/-- The lowest populated bucket against a tile. -/
theorem lowest_le_quantile {q v : Rat} {bucket : Rat × Rat} (found : h.lowest = some bucket)
    (reached : bucket.2 ≤ q * h.total) (value : h.quantile q = some v) : bucket.1 ≤ v := by
  obtain ⟨positive, -, edge⟩ := lowest_spec found
  exact Buckets.quantile_mono (count_div_pos positive) ((div_le_iff₀ h.observed).mpr reached)
    edge value

theorem quantile_le_lowest {q v : Rat} {bucket : Rat × Rat} (found : h.lowest = some bucket)
    (positive : 0 < q) (short : q * h.total ≤ bucket.2) (value : h.quantile q = some v) :
    v ≤ bucket.1 := by
  obtain ⟨-, -, edge⟩ := lowest_spec found
  exact Buckets.quantile_mono positive ((le_div_iff₀ h.observed).mpr short) value edge

/-- The highest populated bucket against a tile whose rank is in a finite bucket. -/
theorem quantile_le_highest {q v : Rat} {bucket : Rat × Rat} (found : h.highest = some bucket)
    (positive : 0 < q) (reached : q * h.total ≤ h.last.2) (value : h.quantile q = some v) :
    v ≤ bucket.1 := by
  have populated : 0 < h.last.2 := (Buckets.rank_pos positive).trans_le reached
  obtain ⟨top, same, edge⟩ := highest_spec populated
  rw [found] at same
  cases same
  exact Buckets.quantile_mono positive ((le_div_iff₀ h.observed).mpr reached) value edge

/-- No quantile is beyond the last finite bound. -/
theorem quantile_le_last {q v : Rat} (positive : 0 < q) (value : h.quantile q = some v) :
    v ≤ h.last.1 := by
  unfold Buckets.quantile at value
  rcases Option.or_eq_some_iff.mp value with inside | ⟨-, edge⟩
  · exact valueAt_le_last h.bounds (Buckets.rank_pos positive) inside
  · rw [edge_eq] at edge
    split at edge
    · exact le_of_eq (Option.some.inj edge).symm
    · cases edge

/-- The lowest populated bucket is not above the highest one. -/
theorem lowest_le_highest {low high : Rat × Rat} (found : h.lowest = some low)
    (found' : h.highest = some high) : low.1 ≤ high.1 := by
  obtain ⟨positive, member, edge⟩ := lowest_spec found
  refine quantile_le_highest found' (count_div_pos positive) ?_ edge
  rw [div_mul_cancel₀ _ h.observed.ne']
  exact count_le_last member

/-- The emitted extremes are in order as they are. -/
theorem edges_ordered : ∀ low ∈ h.lowest.or h.finite.getLast?,
    ∀ high ∈ h.highest.or h.finite.getLast?, low.1 ≤ high.1 := by
  intro low member high member'
  by_cases populated : 0 < h.last.2
  · obtain ⟨bucket, found⟩ := exists_lowest populated
    obtain ⟨top, found', -⟩ := highest_spec populated
    rw [found, Option.some_or] at member
    rw [found', Option.some_or] at member'
    cases member
    cases member'
    exact lowest_le_highest found found'
  · -- nothing was observed in a finite bucket: both are the last bound
    have none_ : h.lowest = none := by
      rw [lowest, List.find?_eq_none]
      intro bucket member
      have small := (count_le_last member).trans (not_lt.mp populated)
      simpa using small
    have top : h.highest = none := if_neg populated
    rw [none_, Option.none_or] at member
    rw [top, Option.none_or] at member'
    cases member.symm.trans member'
    exact le_rfl

/-- The buckets whose upper edges are emitted. -/
theorem lowest_mem : ∀ bucket ∈ h.lowest.or h.finite.getLast?, bucket ∈ h.finite := by
  intro bucket member
  rcases Option.or_eq_some_iff.mp member with found | ⟨-, last⟩
  · exact (lowest_spec found).2.1
  · exact List.mem_of_getLast? last

theorem highest_mem : ∀ bucket ∈ h.highest.or h.finite.getLast?, bucket ∈ h.finite := by
  intro bucket member
  rcases Option.or_eq_some_iff.mp member with found | ⟨-, last⟩
  · unfold highest at found
    split at found
    · obtain ⟨front, back, split, -⟩ := landing_split found
      simp [split]
    · cases found
  · exact List.mem_of_getLast? last

/-- There is an upper edge to emit as soon as there is a finite bucket. -/
theorem edge_isSome {bucket : Option (Rat × Rat)}
    (inside : ∀ x ∈ bucket.or h.finite.getLast?, x ∈ h.finite) :
    ((bucket.or h.finite.getLast?).map fun bucket => PyFloat.num bucket.1).isSome = true ↔
      h.finite ≠ [] := by
  rw [Option.isSome_map]
  constructor
  · intro found none_
    obtain ⟨x, same⟩ := Option.isSome_iff_exists.mp found
    have member := inside x same
    rw [none_] at member
    cases member
  · intro some_
    rw [Option.isSome_or, List.getLast?_eq_some_getLast some_]
    exact Bool.or_true _

theorem edge_fixed {bucket : Option (Rat × Rat)} (inside : ∀ x ∈ bucket, x ∈ h.finite)
    (short : ∀ bucket ∈ h.finite, roundTo 6 bucket.1 = bucket.1) :
    ∀ x ∈ bucket.map fun bucket => PyFloat.num bucket.1, x.round 6 = x := by
  intro x member
  obtain ⟨bucket, found, rfl⟩ := Option.map_eq_some_iff.mp member
  exact congrArg PyFloat.num (short bucket (inside bucket found))

/-- What is returned has six decimals if the bounds have. -/
theorem returned_fixed {q : Rat} (positive : 0 < q) (most : q ≤ 1)
    (short : ∀ bucket ∈ h.finite, roundTo 6 bucket.1 = bucket.1) :
    ∀ x ∈ (h.leaves q).returned, x.round 6 = x := by
  rw [Buckets.leaves_eq positive most]
  intro x member
  cases lands : (landing (q * h.total) (0, 0) h.finite).2 with
  | some knot =>
    simp only [leavingAt, lands, Leaving.returned, Option.mem_some_iff] at member
    subst member
    exact congrArg PyFloat.num (roundTo_roundTo 6 _)
  | none =>
    rw [landing_past (landing_none_iff.mp lands)] at member
    simp only [leavingAt, Leaving.returned, Option.mem_def] at member
    split at member
    · next populated =>
      cases member
      exact congrArg PyFloat.num (short h.last (last_mem populated))
    · cases member

end Histogram

/-- The histogram of `servedBuckets`. -/
def servedHistogram : Histogram where
  toBuckets := servedBuckets
  nonneg := by decide +kernel

/-- One bucket with everything in it. -/
def oneBucket : Histogram where
  finite := [(1, 10)]
  total := 10
  bounds := by
    unfold Spread
    decide +kernel
  counts := by decide +kernel
  observed := ten_observed
  nonneg := by decide +kernel

/-- More than a quarter beyond the finite buckets, the last of them empty. -/
def overflowing : Histogram where
  finite := [(1, 4), (2, 4)]
  total := 10
  bounds := by
    unfold Spread
    decide +kernel
  counts := by decide +kernel
  observed := ten_observed
  nonneg := by decide +kernel

/-- A quarter in a lowest bucket whose bound needs seven decimals. -/
def narrowBucket : Histogram where
  finite := [(4 / 10000000, 1), (1, 4)]
  total := 4
  bounds := by
    unfold Spread
    decide +kernel
  counts := by decide +kernel
  observed := by decide +kernel
  nonneg := by decide +kernel

/-- These labels are those of the histogram, and its summary is out of order. -/
def Disordered (h : Histogram) (buckets : Dict String PyFloat) : Prop :=
  h.Describes buckets ∧
    ¬ (fiveNumbers "m" (histogramAggregates "m" buckets (.num 5) (.num h.total))).Ordered

theorem disordered_of_values {h : Histogram} {buckets : Dict String PyFloat}
    (described : h.Describes buckets)
    (values : ¬ FiveNumbers.Ordered
      { min := (h.lowest.or h.finite.getLast?).map fun bucket => .num bucket.1
        tile25 := (h.leaves (1 / 4)).returned
        median := (h.leaves (1 / 2)).returned
        tile75 := (h.leaves (3 / 4)).returned
        max := (h.highest.or h.finite.getLast?).map fun bucket => .num bucket.1 }) :
    Disordered h buckets := by
  refine ⟨described, ?_⟩
  rw [Histogram.summary_eq described]
  exact values

end Oumigo
