import Oumigo.Foundation.Dict
import Oumigo.Foundation.Float
import Oumigo.Foundation.Text

/-!
# The worker's Prometheus parser

`_parse_prometheus` of `service/worker/metrics.py` and what it calls.  A line of the text
is a `Sample` or is skipped; `Sample.route` says what becomes of a sample by its name and
labels, and `Scrape.take` files its value there; `Scrape.flatten` makes the summaries.

Bucket bounds are sorted as the interpreter sorts them as long as no bound is NaN.
-/

namespace Oumigo

open Python

/-- `_HIST_AGGREGATE_METRICS`. -/
def histAggregateMetrics : List String :=
  ["vllm:e2e_request_latency_seconds", "vllm:time_to_first_token_seconds",
    "vllm:request_time_per_output_token_seconds", "vllm:request_queue_time_seconds",
    "vllm:request_prompt_tokens", "vllm:request_generation_tokens"]

/-- `_NOISE_LABELS`. -/
def noiseLabels : List String := ["model_name", "model", "engine"]

/-- `_EXCLUDED_PREFIXES`. -/
def excludedStarts : List String := ["vllm:engine_sleep_state", "vllm:estimated_"]

/-- `_sanitize`: each run of other characters is an underscore, none at the ends. -/
def sanitize (value : String) : String :=
  let runs := (value.toList.splitOnP fun c => !c.isAlphanum).filter (· ≠ [])
  lower (String.ofList (List.intercalate ['_'] runs))

/-- A line that is not skipped. -/
structure Sample where
  name : String
  labels : Dict String String
  value : PyFloat

/-- `dict(pairs)`. -/
def dictOf (pairs : List (String × String)) : Dict String String :=
  pairs.foldl (fun d pair => d.set pair.1 pair.2) .empty

/-- The part of the parser's loop that reads a line; `none` where it skips the line. -/
def sampleOf (start raw : String) : Option Sample :=
  let line := strip raw
  if line = "" || startsWith "#" line then none
  else
    let (name, labelsPart, tail) :=
      if '{' ∈ line.toList then
        let (name, rest) := partition line '{'
        let (labelsPart, tail) := partition rest '}'
        (name, labelsPart, tail)
      else
        let (name, tail) := partition line ' '
        (name, "", tail)
    let name := strip name
    if !startsWith start name || (beforeEnd "_info" name).isSome ||
        (beforeEnd "_created" name).isSome then none
    else if excludedStarts.any fun excluded => startsWith excluded name then none
    else
      match split tail with
      | [] => none
      | token :: _ =>
          (floatOf token).map fun value =>
            ⟨name, dictOf (findLabels labelsPart.toList.length labelsPart.toList), value⟩

/-- The label values that are appended to the key. -/
def suffixOf (labels : Dict String String) : String :=
  let sig := labels.entries.filter fun label => label.1 ∉ noiseLabels && label.1 ≠ "le"
  let sorted := sig.mergeSort fun label label' => decide (label.1 ≤ label'.1)
  String.intercalate "_" (sorted.map fun label => sanitize label.2)

/-- What becomes of a sample. -/
inductive Route where
  | dropped
  | bucket (base suffix bound : String)
  | sum (base suffix : String)
  | count (base suffix : String)
  | stat (base suffix stat : String)
  | scalar (key : String)
  deriving DecidableEq

/-- The statistics a backend may export in place of buckets. -/
def preAggregated : List String := ["min", "max", "mean"]

/-- The part of the parser's loop that decides by the name and the labels. -/
def route (name : String) (labels : Dict String String) : Route :=
  let suffix := suffixOf labels
  let selected (base : String) (into : Route) : Route :=
    if base ∈ histAggregateMetrics then into else .dropped
  match beforeEnd "_bucket" name with
  | some base =>
      match labels.get? "le" with
      | some bound => selected base (.bucket base suffix bound)
      | none => .dropped
  | none =>
      match beforeEnd "_sum" name with
      | some base => selected base (.sum base suffix)
      | none =>
          match beforeEnd "_count" name with
          | some base => selected base (.count base suffix)
          | none =>
              let key := if suffix = "" then name else name ++ "_" ++ suffix
              let found := preAggregated.findSome? fun stat =>
                (beforeEnd ("_" ++ stat) name).map fun base => (stat, base)
              match found with
              | some (stat, base) =>
                  if base ∈ histAggregateMetrics then .stat base suffix stat else .scalar key
              | none => .scalar key

/-- What the parser gathers of one histogram. -/
structure Family where
  buckets : Dict String PyFloat := .empty
  sum : PyFloat := .num 0
  count : PyFloat := .num 0
  /-- `min`, `max` and `mean`, where the backend exports them -/
  stats : Dict String PyFloat := .empty

/-- The dicts `scalars` and `hist` of the parser. -/
structure Scrape where
  scalars : Dict String PyFloat := .empty
  hist : Dict (String × String) Family := .empty

namespace Scrape

/-- `hist.setdefault(key, ...)`, then a change of the family. -/
def patch (s : Scrape) (key : String × String) (change : Family → Family) : Scrape :=
  { s with hist := s.hist.set key (change ((s.hist.get? key).getD {})) }

/-- File a sample. -/
def take (s : Scrape) (x : Sample) : Scrape :=
  match route x.name x.labels with
  | .dropped => s
  | .bucket base suffix bound =>
      s.patch (base, suffix) fun fam => { fam with buckets := fam.buckets.set bound x.value }
  | .sum base suffix => s.patch (base, suffix) fun fam => { fam with sum := x.value }
  | .count base suffix => s.patch (base, suffix) fun fam => { fam with count := x.value }
  | .stat base suffix stat =>
      s.patch (base, suffix) fun fam => { fam with stats := fam.stats.set stat x.value }
  -- one model in the fleet: the last line of a key wins
  | .scalar key => { s with scalars := s.scalars.set key x.value }

end Scrape

/-! ## Summaries -/

/-- The bound a bucket's label names. -/
def boundOf (bound : String) : Option PyFloat :=
  if lower (lstripPlus bound) = "inf" then some (.inf false) else floatOf bound

/-- `_bucket_points`. -/
def bucketPoints (buckets : Dict String PyFloat) : List (PyFloat × PyFloat) :=
  let pts := buckets.entries.filterMap fun entry =>
    (boundOf entry.1).map fun bound => (bound, entry.2)
  pts.mergeSort fun p p' => p.1.sortLe p'.1

/-- The loop of `_quantile_interp`. -/
def quantileLoop (rank last prevBound prevCount : PyFloat) :
    List (PyFloat × PyFloat) → Option PyFloat
  | [] => some (last.round 6)
  | (bound, count) :: rest =>
      if rank.le count then
        if bound.isInf then
          -- in +Inf: the best one can say is the largest finite edge
          if (PyFloat.num 0).lt prevCount then some prevBound else none
        else
          let inBucket := count.sub prevCount
          if inBucket.le (.num 0) then some (bound.round 6)
          else
            let part := ((bound.sub prevBound).mul (rank.sub prevCount)).div inBucket
            some ((prevBound.add part).round 6)
      else quantileLoop rank last bound count rest

/-- `_quantile_interp`. -/
def quantileInterp (pts : List (PyFloat × PyFloat)) (total : PyFloat) (q : Rat) :
    Option PyFloat :=
  match pts.getLast? with
  | none => none
  | some last =>
      if total.le (.num 0) then none
      else quantileLoop ((PyFloat.num q).mul total) last.1 (.num 0) (.num 0) pts

/-- The upper edge of the first bucket with an observation. -/
def lowestEdge (pts finite : List (PyFloat × PyFloat)) : Option PyFloat :=
  (pts.find? fun p => (PyFloat.num 0).lt p.2).bind fun p =>
    if p.1.isInf then finite.getLast?.map Prod.fst else some p.1

/-- The loop for the upper edge of the highest finite bucket with an observation. -/
def highestEdge (maximum : Option PyFloat) (prev : PyFloat) :
    List (PyFloat × PyFloat) → Option PyFloat
  | [] => maximum
  | (bound, count) :: rest =>
      highestEdge (if prev.lt count then some bound else maximum) count rest

/-- `_histogram_aggregates`, in the order of its dict. -/
def histogramAggregates (base : String) (buckets : Dict String PyFloat) (hsum hcount : PyFloat) :
    List (String × PyFloat) :=
  if hcount.le (.num 0) then [(base ++ "_count", hcount)]
  else
    let head := [(base ++ "_count", hcount), (base ++ "_mean", (hsum.div hcount).round 6)]
    let pts := bucketPoints buckets
    if pts = [] then head
    else
      let finite := pts.filter fun p => !p.1.isInf
      let edges := [(base ++ "_min", lowestEdge pts finite),
        (base ++ "_tile25", quantileInterp pts hcount (1 / 4)),
        (base ++ "_median", quantileInterp pts hcount (1 / 2)),
        (base ++ "_tile75", quantileInterp pts hcount (3 / 4)),
        (base ++ "_max", highestEdge (finite.getLast?.map Prod.fst) (.num 0) finite)]
      head ++ edges.filterMap fun edge => edge.2.map fun value => (edge.1, value)

/-- A summary a backend exports itself. -/
def suppliedAggregates (base : String) (fam : Family) : List (String × PyFloat) :=
  (base ++ "_count", fam.count) :: preAggregated.filterMap fun stat =>
    (fam.stats.get? stat).map fun value => (base ++ "_" ++ stat, value.round 6)

/-- What one histogram adds to the result. -/
def Family.summary (base suffix : String) (fam : Family) : List (String × PyFloat) :=
  let aggBase := if suffix = "" then base else base ++ "_" ++ suffix
  if fam.buckets.entries = [] then suppliedAggregates aggBase fam
  else histogramAggregates aggBase fam.buckets fam.sum fam.count

/-- `out.update(pairs)`. -/
def update (out : Dict String PyFloat) (pairs : List (String × PyFloat)) : Dict String PyFloat :=
  pairs.foldl (fun out pair => out.set pair.1 pair.2) out

/-- The parser's result. -/
def Scrape.flatten (s : Scrape) : Dict String PyFloat :=
  s.hist.entries.foldl (fun out entry => update out (entry.2.summary entry.1.1 entry.1.2))
    s.scalars

/-- The samples of a text. -/
def samples (start text : String) : List Sample := (splitlines text).filterMap (sampleOf start)

/-- The loop of `_parse_prometheus`. -/
def scrape (start text : String) : Scrape := (samples start text).foldl Scrape.take {}

/-- `_parse_prometheus`. -/
def parsePrometheus (start text : String) : Dict String PyFloat := (scrape start text).flatten

/-! ## Filing and reading back -/

section

variable {s : Scrape} {x : Sample} {key : String}

theorem Scrape.take_scalar (routed : route x.name x.labels = .scalar key) :
    s.take x = { s with scalars := s.scalars.set key x.value } := by
  unfold Scrape.take
  rw [routed]

/-- Samples that are all kept as they are. -/
theorem Scrape.take_scalars {α : Type} {xs : List α} {sample : α → Sample} {key : α → String}
    (routed : ∀ a ∈ xs, route (sample a).name (sample a).labels = .scalar (key a)) :
    (xs.map sample).foldl Scrape.take s =
      { s with scalars := update s.scalars (xs.map fun a => (key a, (sample a).value)) } := by
  induction xs generalizing s with
  | nil => rfl
  | cons a rest ih =>
    rw [List.map_cons, List.foldl_cons, Scrape.take_scalar (routed a List.mem_cons_self),
      ih fun b member => routed b (List.mem_cons_of_mem _ member)]
    rfl

theorem Scrape.patch_patch {key : String × String} {f g : Family → Family} :
    (s.patch key f).patch key g = s.patch key (g ∘ f) := by
  have found : ((s.hist.set key (f ((s.hist.get? key).getD {}))).get? key) =
      some (f ((s.hist.get? key).getD {})) := by
    rw [Dict.get?_set, if_pos rfl]
  unfold Scrape.patch
  dsimp only
  rw [found, Dict.set_set]
  rfl

variable {out : Dict String PyFloat} {pairs : List (String × PyFloat)} {value : PyFloat}

theorem update_append (more : List (String × PyFloat)) :
    update out (pairs ++ more) = update (update out pairs) more := List.foldl_append

theorem get?_update_cases (found : (update out pairs).get? key = some value) :
    out.get? key = some value ∨ (key, value) ∈ pairs := Dict.get?_update_cases found

theorem get?_update_of_not_mem (absent : key ∉ pairs.map Prod.fst) :
    (update out pairs).get? key = out.get? key := Dict.get?_update_of_not_mem absent

theorem get?_update_mem (nodup : (pairs.map Prod.fst).Nodup) (member : (key, value) ∈ pairs) :
    (update out pairs).get? key = some value := Dict.get?_update_mem nodup member

end

end Oumigo
