import Oumigo.Foundation.Interpolation
import Oumigo.Metrics.Prometheus

/-!
# Quantiles of a bucket list

`_quantile_interp` of `service/worker/metrics.py` on the bucket lists that a histogram really
has (`Buckets`).  `Leaving` says which of its return statements the loop reaches and what is
returned there before rounding; on a bucket list that is the interpolation between knots
(`leaves_eq`), so the general facts about ranks and knots apply.
-/

namespace Oumigo

open Python Interpolation

/-- A return statement of `_quantile_interp`, with the value before it is rounded. -/
inductive Leaving where
  /-- in `+Inf`: this one is not rounded at all -/
  | overflow (edge : Option PyFloat)
  /-- a bucket without an observation of its own -/
  | flat (bound : PyFloat)
  /-- interpolated, and what was divided by -/
  | inside (value divisor : PyFloat)
  /-- after the loop -/
  | fallthrough (last : PyFloat)
  deriving DecidableEq

/-- The value before it is rounded. -/
def Leaving.exact : Leaving → Option PyFloat
  | overflow edge => edge
  | flat bound => some bound
  | inside value _ => some value
  | fallthrough last => some last

/-- The value that is returned. -/
def Leaving.returned : Leaving → Option PyFloat
  | overflow edge => edge
  | flat bound => some (bound.round 6)
  | inside value _ => some (value.round 6)
  | fallthrough last => some (last.round 6)

/-- Where the loop of `_quantile_interp` returns. -/
def leaving (rank last prevBound prevCount : PyFloat) : List (PyFloat × PyFloat) → Leaving
  | [] => .fallthrough last
  | (bound, count) :: rest =>
      if rank.le count then
        if bound.isInf then
          .overflow (if (PyFloat.num 0).lt prevCount then some prevBound else none)
        else
          let inBucket := count.sub prevCount
          if inBucket.le (.num 0) then .flat bound
          else
            let part := ((bound.sub prevBound).mul (rank.sub prevCount)).div inBucket
            .inside (prevBound.add part) inBucket
      else leaving rank last bound count rest

/-- The loop returns the rounded value of the statement at which it leaves. -/
theorem quantileLoop_eq {rank last prevBound prevCount : PyFloat}
    {pts : List (PyFloat × PyFloat)} :
    quantileLoop rank last prevBound prevCount pts =
      (leaving rank last prevBound prevCount pts).returned := by
  induction pts generalizing prevBound prevCount with
  | nil => rfl
  | cons point rest ih =>
    rcases point with ⟨bound, count⟩
    unfold quantileLoop leaving
    split
    · split
      · rfl
      · dsimp only
        split <;> rfl
    · exact ih

/-- A well-formed cumulative bucket list: the buckets with a finite bound, as bounds and counts,
and the count of `+Inf`. -/
structure Buckets where
  finite : List (Rat × Rat)
  total : Rat
  /-- the bounds are positive and increase -/
  bounds : Spread (0, 0) finite
  /-- the counts do not decrease, up to that of `+Inf` -/
  counts : (finite.map Prod.snd ++ [total]).Pairwise (· ≤ ·)
  observed : 0 < total

/-- A bucket as the parser holds it. -/
def toPoint (bucket : Rat × Rat) : PyFloat × PyFloat := (.num bucket.1, .num bucket.2)

/-- What `_quantile_interp` sees of the landing of a rank. -/
def leavingAt (rank : Rat) (landed : (Rat × Rat) × Option (Rat × Rat)) : Leaving :=
  match landed.2 with
  | some knot =>
      .inside (.num (between landed.1 knot rank)) (.num (knot.2 - landed.1.2))
  | none => .overflow (if 0 < landed.1.2 then some (.num landed.1.1) else none)

/-- **The loop finds the landing.**  The bucket in front is always short of the rank, so a
bucket that reaches it has observations of its own. -/
theorem leaving_points {rank total : Rat} {last : PyFloat} {first : Rat × Rat}
    {knots : List (Rat × Rat)} (past : first.2 < rank) (within : rank ≤ total) :
    leaving (.num rank) last (.num first.1) (.num first.2)
      (knots.map toPoint ++ [(.inf false, .num total)]) =
      leavingAt rank (landing rank first knots) := by
  induction knots generalizing first with
  | nil =>
    have reached : (PyFloat.num rank).le (.num total) = true := decide_eq_true within
    by_cases seen : 0 < first.2 <;>
      simp [leaving, leavingAt, landing, reached, seen, PyFloat.isInf, PyFloat.lt]
  | cons knot rest ih =>
    rw [List.map_cons, List.cons_append]
    rcases le_or_gt rank knot.2 with reached | short
    · have width : ¬ knot.2 + -first.2 ≤ 0 := by
        have apart := past.trans_le reached
        linarith
      rw [landing_cons_of_le reached]
      simp only [leaving, toPoint, leavingAt, between, PyFloat.le, PyFloat.isInf, PyFloat.sub,
        PyFloat.neg, PyFloat.add, PyFloat.mul, PyFloat.div, reached, width, decide_true,
        decide_false, if_true, Bool.false_eq_true, if_false, sub_eq_add_neg]
    · have missed : (PyFloat.num rank).le (.num knot.2) = false := decide_eq_false short.not_ge
      rw [landing_cons_of_lt short, ← ih short]
      simp [leaving, toPoint, missed]

namespace Buckets

variable {b : Buckets} {q q' : Rat} {v v' : Rat}

/-- The list that `_bucket_points` gives. -/
def points (b : Buckets) : List (PyFloat × PyFloat) :=
  b.finite.map toPoint ++ [(.inf false, .num b.total)]

/-- The return statement that `_quantile_interp` reaches. -/
def leaves (b : Buckets) (q : Rat) : Leaving :=
  leaving (.num (q * b.total)) (.inf false) (.num 0) (.num 0) b.points

/-- The largest finite bound, if its cumulative count is positive. -/
def edge (b : Buckets) : Option Rat :=
  (b.finite.getLast?.filter fun bucket => 0 < bucket.2).map Prod.fst

/-- The quantile without rounding. -/
def quantile (b : Buckets) (q : Rat) : Option Rat :=
  (valueAt (q * b.total) (0, 0) b.finite).or b.edge

theorem quantileInterp_points : quantileInterp b.points (.num b.total) q =
    (b.leaves q).returned := by
  have last : b.points.getLast? = some (.inf false, .num b.total) := List.getLast?_concat
  have some_ : (PyFloat.num b.total).le (.num 0) = false := decide_eq_false b.observed.not_ge
  unfold quantileInterp
  rw [last]
  dsimp only
  rw [if_neg (by simp [some_]), quantileLoop_eq]
  rfl

theorem rank_pos (positive : 0 < q) : 0 < q * b.total := mul_pos positive b.observed

theorem rank_le (most : q ≤ 1) : q * b.total ≤ b.total := by
  have scaled := mul_le_mul_of_nonneg_right most b.observed.le
  rwa [one_mul] at scaled

theorem leaves_eq (positive : 0 < q) (most : q ≤ 1) :
    b.leaves q = leavingAt (q * b.total) (landing (q * b.total) (0, 0) b.finite) := by
  have past : ((0, 0) : Rat × Rat).2 < q * b.total := rank_pos positive
  exact leaving_points past (rank_le most)

/-- No finite count is beyond that of the last finite bucket. -/
theorem count_le_last {bucket : Rat × Rat} (member : bucket ∈ b.finite) :
    ∃ last, b.finite.getLast? = some last ∧ bucket.2 ≤ last.2 := by
  have ordered := (List.pairwise_append.mp b.counts).1
  rcases List.eq_nil_or_concat b.finite with none | ⟨init, last, split⟩
  · rw [none] at member
    cases member
  · rw [List.concat_eq_append] at split
    refine ⟨last, by rw [split, List.getLast?_concat], ?_⟩
    rw [split] at member ordered
    rw [List.map_append, List.pairwise_append] at ordered
    rcases List.mem_append.mp member with before | same
    · exact ordered.2.2 bucket.2 (List.mem_map_of_mem before) last.2 (by simp)
    · rw [List.mem_singleton.mp same]

theorem edge_of_reached {bucket : Rat × Rat} (member : bucket ∈ b.finite)
    (positive : 0 < bucket.2) : ∃ last, b.finite.getLast? = some last ∧ b.edge = some last.1 := by
  obtain ⟨last, found, le⟩ := count_le_last member
  refine ⟨last, found, ?_⟩
  unfold edge
  rw [found, Option.filter_some, if_pos (decide_eq_true (positive.trans_le le))]
  rfl

/-- In `+Inf` the code looks at the last bucket before it. -/
theorem edge_eq : b.edge =
    if 0 < (b.finite.getLastD (0, 0)).2 then some (b.finite.getLastD (0, 0)).1 else none := by
  unfold edge
  rw [List.getLastD_eq_getLast?]
  cases b.finite.getLast? with
  | none => simp
  | some last =>
    simp only [Option.filter_some, Option.getD_some]
    split_ifs <;> simp_all

theorem exact_leaves (positive : 0 < q) (most : q ≤ 1) :
    (b.leaves q).exact = (b.quantile q).map .num := by
  rw [leaves_eq positive most]
  unfold quantile valueAt
  cases lands : (landing (q * b.total) (0, 0) b.finite).2 with
  | some knot =>
    simp [leavingAt, lands, Leaving.exact]
  | none =>
    rw [landing_past (landing_none_iff.mp lands)]
    simp only [leavingAt, Leaving.exact, Option.map_none, Option.none_or, edge_eq]
    split <;> rfl

theorem quantile_none_iff (positive : 0 < q) : b.quantile q = none ↔ b.edge = none := by
  unfold quantile
  rw [Option.or_eq_none_iff]
  constructor
  · exact And.right
  · intro missing
    refine ⟨?_, missing⟩
    by_contra reached
    rw [valueAt_none_iff] at reached
    push Not at reached
    obtain ⟨bucket, member, le⟩ := reached
    obtain ⟨last, -, found⟩ := edge_of_reached member ((rank_pos positive).trans_le le)
    rw [found] at missing
    cases missing

/-- The quantile grows with `q`. -/
theorem quantile_mono (positive : 0 < q) (le : q ≤ q') (value : b.quantile q = some v)
    (value' : b.quantile q' = some v') : v ≤ v' := by
  have ranks : q * b.total ≤ q' * b.total := mul_le_mul_of_nonneg_right le b.observed.le
  unfold quantile at value value'
  rcases Option.or_eq_some_iff.mp value with inside | ⟨beyond, edge⟩
  · rcases Option.or_eq_some_iff.mp value' with inside' | ⟨-, edge'⟩
    · exact valueAt_mono b.bounds (rank_pos positive) ranks inside inside'
    · have most := valueAt_le_last b.bounds (rank_pos positive) inside
      rw [edge_eq] at edge'
      split at edge'
      · cases edge'
        exact most
      · cases edge'
  · have beyond' : valueAt (q' * b.total) (0, 0) b.finite = none :=
      valueAt_none_iff.mpr fun bucket member =>
        (valueAt_none_iff.mp beyond bucket member).trans_le ranks
    rw [beyond', Option.none_or, edge] at value'
    exact le_of_eq (Option.some.inj value')

end Buckets

/-- **The quantile of a bucket list**: the loop returns inside the first bucket that reaches the
rank, dividing by a positive number, or in `+Inf`; it never passes the end, and what it returns
grows with `q`. -/
theorem quantileInterp_correct (b : Buckets) {q : Rat} (positive : 0 < q) (most : q ≤ 1) :
    quantileInterp b.points (.num b.total) q = (b.leaves q).returned ∧
      ((∃ front bound count back value, b.finite = front ++ (bound, count) :: back ∧
          (∀ bucket ∈ front, bucket.2 < q * b.total) ∧ q * b.total ≤ count ∧
          b.leaves q = .inside (.num value) (.num (count - (front.getLastD (0, 0)).2)) ∧
          0 < count - (front.getLastD (0, 0)).2 ∧
          (front.getLastD (0, 0)).1 < value ∧ value ≤ bound) ∨
        ((∀ bucket ∈ b.finite, bucket.2 < q * b.total) ∧
          b.leaves q = .overflow (b.edge.map .num))) ∧
      ∀ q', q ≤ q' → q' ≤ 1 →
        ((b.leaves q).exact = none ↔ (b.leaves q').exact = none) ∧
        ∀ x x', (b.leaves q).exact = some x → (b.leaves q').exact = some x' → x.le x' = true := by
  refine ⟨Buckets.quantileInterp_points, ?_, ?_⟩
  · have leaves := b.leaves_eq positive most
    cases lands : (landing (q * b.total) (0, 0) b.finite).2 with
    | some knot =>
      left
      obtain ⟨front, back, split, below, reached, before⟩ := landing_split lands
      have apart := b.bounds.landing lands
      have short : (landing (q * b.total) (0, 0) b.finite).1.2 < q * b.total :=
        landing_short (Buckets.rank_pos positive)
      refine ⟨front, knot.1, knot.2, back,
        between (landing (q * b.total) (0, 0) b.finite).1 knot (q * b.total), split, below, reached,
        ?_, ?_, ?_, between_le apart.le short reached⟩
      · rw [leaves, ← before]
        simp [leavingAt, lands]
      · rw [← before]
        exact sub_pos.mpr (short.trans_le reached)
      · rw [← before]
        exact between_gt apart short reached
    | none =>
      right
      have past := landing_none_iff.mp lands
      refine ⟨past, ?_⟩
      rw [leaves, landing_past past, Buckets.edge_eq]
      simp only [leavingAt]
      split <;> rfl
  · intro q' le most'
    have positive' := positive.trans_le le
    rw [Buckets.exact_leaves positive most, Buckets.exact_leaves positive' most',
      Option.map_eq_none_iff, Option.map_eq_none_iff, Buckets.quantile_none_iff positive,
      Buckets.quantile_none_iff positive']
    refine ⟨Iff.rfl, fun x x' value value' => ?_⟩
    obtain ⟨v, found, rfl⟩ := Option.map_eq_some_iff.mp value
    obtain ⟨v', found', rfl⟩ := Option.map_eq_some_iff.mp value'
    exact decide_eq_true (Buckets.quantile_mono positive le found found')

theorem ten_observed : (0 : Rat) < 10 := by norm_num

/-- A worker's time to first token, with ten requests. -/
def servedBuckets : Buckets where
  finite := [(1 / 100, 0), (1 / 20, 2), (1 / 10, 6), (1 / 2, 9), (1, 10)]
  total := 10
  bounds := by
    unfold Spread
    decide +kernel
  counts := by decide +kernel
  observed := ten_observed

theorem quantileInterp_correct_served :
    quantileInterp servedBuckets.points (.num servedBuckets.total) (1 / 4) =
      some (.num (9 / 160)) := by
  have positive : (0 : Rat) < 1 / 4 := by norm_num
  have most : (1 / 4 : Rat) ≤ 1 := by norm_num
  have returned := (quantileInterp_correct servedBuckets positive most).1
  rw [returned]
  decide +kernel

end Oumigo
