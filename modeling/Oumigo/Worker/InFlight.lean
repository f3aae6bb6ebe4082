import Oumigo.Worker.HFServer

/-!
# What the transformer backend reports is what it does

Whatever the interleaving, the gauge of running requests is the number of requests in flight, and
the counters are sums over the requests that were answered to their end: the `finally` of each
request gives back what its beginning took, and an aborted request is counted nowhere.  The
supervisor reads EXECUTING exactly while a request is in flight.
-/

namespace Oumigo

open Python

/-! ## Sums over the requests -/

theorem sum_replaced {α : Type} {l : List α} {i : Nat} {a : α} (found : l[i]? = some a) (b : α)
    (f : α → Int) : ((l.set i b).map f).sum = (l.map f).sum - f a + f b := by
  induction l generalizing i with
  | nil => cases found
  | cons c l ih =>
    cases i with
    | zero =>
      cases found
      simp only [List.set_cons_zero, List.map_cons, List.sum_cons]
      omega
    | succ i =>
      have rest := ih found
      simp only [List.set_cons_succ, List.map_cons, List.sum_cons, rest]
      omega

theorem le_sum_of_getElem {α : Type} {l : List α} {i : Nat} {a : α} (found : l[i]? = some a)
    {f : α → Int} (nonneg : ∀ x, 0 ≤ f x) : f a ≤ (l.map f).sum := by
  induction l generalizing i with
  | nil => cases found
  | cons c l ih =>
    have here := nonneg c
    rw [List.map_cons, List.sum_cons]
    cases i with
    | zero =>
      cases found
      have rest : 0 ≤ (l.map f).sum := by
        apply List.sum_nonneg
        intro x member
        obtain ⟨y, -, rfl⟩ := List.mem_map.mp member
        exact nonneg y
      omega
    | succ i =>
      have rest := ih found
      omega

namespace HFRequest

/-- The request holds the run counter. -/
def InFlight : HFRequest → Prop
  | .whole _ _ => True
  | .stream s => s.pc ≠ .created
  | _ => False

instance (r : HFRequest) : Decidable r.InFlight := by
  cases r <;> (unfold InFlight; infer_instance)

/-- One for a request in flight. -/
def running (r : HFRequest) : Int := if r.InFlight then 1 else 0

/-- What the request was recorded with. -/
def served? : HFRequest → Option HFServed
  | .answered served _ => some served
  | .streamed served _ => some served
  | _ => none

/-- A sum over requests adds nothing for one that was not recorded. -/
def adds (f : HFServed → Int) (r : HFRequest) : Int := r.served?.elim 0 f

theorem running_nonneg (r : HFRequest) : 0 ≤ r.running := by
  unfold running
  split <;> decide

end HFRequest

namespace HFState

variable {server : HFServer} {s s' : HFState} {e : HFEvent}

/-- The sum of `f` over the requests. -/
def total (s : HFState) (f : HFRequest → Int) : Int := (s.requests.map f).sum

/-- The statistics add up. -/
structure Accounted (s : HFState) : Prop where
  running : s.stats.numRunning = s.total HFRequest.running
  prompt : s.stats.promptTokensTotal = s.total (HFRequest.adds HFServed.promptTokens)
  generation : s.stats.generationTokensTotal = s.total (HFRequest.adds HFServed.completionTokens)
  finished : ∀ reason, (s.stats.success.get? reason).getD 0 =
    if reason = "stop" then s.total (HFRequest.adds fun _ => 1) else 0
  count : (s.stats.latencyCount : Int) = s.total (HFRequest.adds fun _ => 1)

/-- What a step does to the statistics when request `a` becomes `b`. -/
structure Books (stats stats' : VllmStats) (a b : HFRequest) : Prop where
  running : stats'.numRunning = stats.numRunning - a.running + b.running
  prompt : stats'.promptTokensTotal =
    stats.promptTokensTotal + b.adds HFServed.promptTokens
  generation : stats'.generationTokensTotal =
    stats.generationTokensTotal + b.adds HFServed.completionTokens
  finished : ∀ reason, (stats'.success.get? reason).getD 0 =
    (stats.success.get? reason).getD 0 + if reason = "stop" then b.adds fun _ => 1 else 0
  count : (stats'.latencyCount : Int) = stats.latencyCount + b.adds fun _ => 1

theorem Accounted.become (inv : s.Accounted) {i : Nat} {a b : HFRequest} {stats : VllmStats}
    (found : s.requests[i]? = some a) (unrecorded : a.served? = none)
    (books : Books s.stats stats a b) : (s.become i b stats).Accounted := by
  have sums (f : HFRequest → Int) :
      (s.become i b stats).total f = s.total f - f a + f b := sum_replaced found b f
  have none (f : HFServed → Int) : a.adds f = 0 := by
    rw [HFRequest.adds, unrecorded]
    rfl
  refine ⟨?_, ?_, ?_, fun reason => ?_, ?_⟩
  · rw [sums, ← inv.running]
    exact books.running
  · rw [sums, ← inv.prompt, none]
    have := books.prompt
    change stats.promptTokensTotal = _
    omega
  · rw [sums, ← inv.generation, none]
    have := books.generation
    change stats.generationTokensTotal = _
    omega
  · rw [sums, none]
    have before := inv.finished reason
    have after := books.finished reason
    change (stats.success.get? reason).getD 0 = _
    rw [after, before]
    split <;> omega
  · rw [sums, ← inv.count, none]
    have := books.count
    change (stats.latencyCount : Int) = _
    omega

/-- A request that is in flight has taken the counter. -/
theorem Accounted.positive (inv : s.Accounted) {i : Nat} {a : HFRequest}
    (found : s.requests[i]? = some a) : a.running ≤ s.stats.numRunning := by
  rw [inv.running]
  exact le_sum_of_getElem found HFRequest.running_nonneg

/-! ## Each step keeps the books -/

/-- Nothing is begun, ended or recorded. -/
theorem Books.keep {stats : VllmStats} {a b : HFRequest} (same : b.running = a.running)
    (unrecorded : b.served? = none) : Books stats stats a b := by
  refine ⟨by omega, ?_, ?_, fun reason => ?_, ?_⟩ <;>
    simp [HFRequest.adds, unrecorded]

/-- A request begins. -/
theorem Books.inc {stats : VllmStats} {a b : HFRequest} (before : a.running = 0)
    (now : b.running = 1) (unrecorded : b.served? = none) :
    Books stats (stats.call .incRunning) a b := by
  refine ⟨?_, ?_, ?_, fun reason => ?_, ?_⟩
  · change stats.numRunning + 1 = _
    omega
  all_goals simp [HFRequest.adds, unrecorded, VllmStats.call]

/-- A request in flight is aborted. -/
theorem Books.dec {stats : VllmStats} {a b : HFRequest} (before : a.running = 1)
    (held : a.running ≤ stats.numRunning) (now : b.running = 0) (unrecorded : b.served? = none) :
    Books stats (stats.call .decRunning) a b := by
  refine ⟨?_, ?_, ?_, fun reason => ?_, ?_⟩
  · change max 0 (stats.numRunning - 1) = _
    omega
  all_goals simp [HFRequest.adds, unrecorded, VllmStats.call]

/-- A request is recorded and gives the counter back, in either order. -/
theorem Books.finish {stats stats' : VllmStats} {a b : HFRequest} {served : HFServed}
    (before : a.running = 1) (held : a.running ≤ stats.numRunning) (now : b.running = 0)
    (recorded : b.served? = some served)
    (either : stats' = HFState.record (stats.call .decRunning) served ∨
      stats' = (HFState.record stats served).call .decRunning) : Books stats stats' a b := by
  have adds (f : HFServed → Int) : b.adds f = f served := by
    rw [HFRequest.adds, recorded]
    rfl
  have after : stats'.numRunning = max 0 (stats.numRunning - 1) ∧
      stats'.promptTokensTotal = stats.promptTokensTotal + served.promptTokens ∧
      stats'.generationTokensTotal = stats.generationTokensTotal + served.completionTokens ∧
      stats'.success = stats.success.set "stop" ((stats.success.get? "stop").getD 0 + 1) ∧
      stats'.latencyCount = stats.latencyCount + 1 := by
    rcases either with rfl | rfl <;> exact ⟨rfl, rfl, rfl, rfl, rfl⟩
  obtain ⟨running, prompt, generation, success, count⟩ := after
  refine ⟨?_, ?_, ?_, fun reason => ?_, ?_⟩
  · rw [running]
    omega
  · rw [prompt, adds]
  · rw [generation, adds]
  · rw [success, adds, Dict.get?_set]
    split
    · next same => rw [same, Option.getD_some]
    · rw [Int.add_zero]
  · rw [count, adds]
    norm_cast

theorem streamAt_eq {i : Nat} {stream : HFStream} (here : s.streamAt i = some stream) :
    s.requests[i]? = some (.stream stream) := by
  unfold streamAt at here
  split at here
  · next found => exact Option.some.inj here ▸ found
  · cases here

theorem running_stream {stream : HFStream} (begun : stream.pc ≠ .created) :
    (HFRequest.stream stream).running = 1 :=
  if_pos begun

/-- A stream that goes on is in flight before and after. -/
theorem Accounted.goesOn (inv : s.Accounted) {i : Nat} {pc : StreamPc}
    {next : HFStream → HFStream} (begun : pc ≠ .created)
    (stays : ∀ stream, stream.pc = pc → (next stream).pc ≠ .created)
    (run : s.goesOn i pc next = some s') : s'.Accounted := by
  obtain ⟨stream, here, ran⟩ := Option.bind_eq_some_iff.mp run
  obtain ⟨⟨at_, -⟩, same⟩ := Option.ite_none_right_eq_some.mp ran
  rw [← Option.some.inj same]
  apply inv.become (streamAt_eq here) rfl
  apply Books.keep _ rfl
  rw [running_stream (stays stream at_), running_stream (at_ ▸ begun)]

/-- A new request. -/
theorem Accounted.arrive (inv : s.Accounted) {r : HFRequest} {stats : VllmStats}
    (unrecorded : r.served? = none)
    (either : r.running = 0 ∧ stats = s.stats ∨
      r.running = 1 ∧ stats = s.stats.call .incRunning) :
    Accounted ⟨stats, s.requests ++ [r]⟩ := by
  have sums (f : HFRequest → Int) : total ⟨stats, s.requests ++ [r]⟩ f = s.total f + f r := by
    simp [total]
  have none (f : HFServed → Int) : r.adds f = 0 := by
    rw [HFRequest.adds, unrecorded]
    rfl
  rcases either with ⟨idle, rfl⟩ | ⟨busy, rfl⟩
  · refine ⟨?_, ?_, ?_, fun reason => ?_, ?_⟩
    · rw [sums, idle, Int.add_zero]
      exact inv.running
    all_goals rw [sums, none, Int.add_zero]
    · exact inv.prompt
    · exact inv.generation
    · exact inv.finished reason
    · exact inv.count
  · refine ⟨?_, ?_, ?_, fun reason => ?_, ?_⟩
    · rw [sums, busy, ← inv.running]
      rfl
    all_goals rw [sums, none, Int.add_zero]
    · exact inv.prompt
    · exact inv.generation
    · exact inv.finished reason
    · exact inv.count

/-- A request that is let in waits for the engine, or is a stream that has not begun. -/
theorem handle_cases {body : PyVal} {chat : Bool} {r : HFRequest}
    (handled : server.handle body chat = .ok r) : (∃ model, r = .whole chat model) ∨
      ∃ model usage, r = .stream ⟨chat, model, usage, "", 0, 0, [], .created, [], []⟩ := by
  unfold HFServer.handle at handled
  cases model : body.get "model" with
  | error exn =>
    rw [model] at handled
    cases handled
  | ok model' =>
    cases streamed : body.get "stream" with
    | error exn =>
      rw [model, streamed] at handled
      cases handled
    | ok stream =>
      rw [model, streamed] at handled
      change (if stream.truthy = true then _ else _) = _ at handled
      split at handled
      · cases options : body.get "stream_options" with
        | error exn =>
          rw [options] at handled
          cases handled
        | ok value =>
          rw [options] at handled
          change ((value.or (.dict [])).get "include_usage" >>= _) = _ at handled
          cases usage : (value.or (.dict [])).get "include_usage" with
          | error exn =>
            rw [usage] at handled
            cases handled
          | ok flag =>
            rw [usage] at handled
            exact Or.inr ⟨_, _, (Except.ok.inj handled).symm⟩
      · exact Or.inl ⟨_, (Except.ok.inj handled).symm⟩

/-- A request is refused, waits for the engine, or becomes a stream. -/
theorem step_request {body : PyVal} {chat : Bool}
    (run : s.step server (.request body chat) = some s') :
    s' = s ∨ (∃ model, s' = ⟨s.stats.call .incRunning, s.requests ++ [.whole chat model]⟩) ∨
      ∃ model usage, s' = ⟨s.stats,
        s.requests ++ [.stream ⟨chat, model, usage, "", 0, 0, [], .created, [], []⟩]⟩ := by
  cases handled : server.handle body chat with
  | error exn =>
    simp only [HFState.step, handled, Option.some.injEq] at run
    exact Or.inl run.symm
  | ok r =>
    rcases handle_cases handled with ⟨model, rfl⟩ | ⟨model, usage, rfl⟩
    · simp only [HFState.step, handled, Option.some.injEq] at run
      exact Or.inr (Or.inl ⟨model, run.symm⟩)
    · simp only [HFState.step, handled, Option.some.injEq] at run
      exact Or.inr (Or.inr ⟨model, usage, run.symm⟩)

/-- The engine's answer is for a request that waits for it. -/
theorem step_generated {i : Nat} {text id : String} {created : Int} {served : HFServed}
    (run : s.step server (.generated i text id created served) = some s') :
    ∃ chat model payload, s.requests[i]? = some (.whole chat model) ∧
      s' = s.become i (.answered served payload)
        (record (s.stats.call .decRunning) served) := by
  simp only [HFState.step] at run
  split at run
  · next chat model found =>
    exact ⟨chat, model, _, found, (Option.some.inj run).symm⟩
  · cases run

theorem Accounted.step (inv : s.Accounted) (run : s.step server e = some s') : s'.Accounted := by
  cases e with
  | request body chat =>
    rcases step_request run with rfl | ⟨model, rfl⟩ | ⟨model, usage, rfl⟩
    · exact inv
    · exact inv.arrive rfl (Or.inr ⟨rfl, rfl⟩)
    · exact inv.arrive rfl (Or.inl ⟨rfl, rfl⟩)
  | generated i text id created served =>
    obtain ⟨chat, model, payload, found, rfl⟩ := step_generated run
    apply inv.become found rfl
    exact Books.finish rfl (inv.positive found) rfl rfl (Or.inl rfl)
  | begins i id created inputLen =>
    obtain ⟨stream, here, ran⟩ := Option.bind_eq_some_iff.mp run
    obtain ⟨created, same⟩ := Option.ite_none_right_eq_some.mp ran
    rw [← Option.some.inj same]
    apply inv.become (streamAt_eq here) rfl
    refine Books.inc ?_ (running_stream (by simp)) rfl
    exact if_neg fun begun => begun created
  | piece i text => exact inv.goesOn (by simp) (fun stream here => by simp [here]) run
  | exhausted i => exact inv.goesOn (by simp) (fun stream here => by simp) run
  | joined i => exact inv.goesOn (by simp) (fun stream here => by simp) run
  | taken i =>
    obtain ⟨stream, here, ran⟩ := Option.bind_eq_some_iff.mp run
    split at ran
    · cases ran
    · next frame rest outbox =>
      rw [← Option.some.inj ran]
      apply inv.become (streamAt_eq here) rfl
      exact Books.keep rfl rfl
  | finishes i latency =>
    obtain ⟨stream, here, ran⟩ := Option.bind_eq_some_iff.mp run
    obtain ⟨⟨closing, -⟩, same⟩ := Option.ite_none_right_eq_some.mp ran
    rw [← Option.some.inj same]
    have found := streamAt_eq here
    apply inv.become found rfl
    exact Books.finish (running_stream (by simp [closing])) (inv.positive found) rfl rfl
      (Or.inr rfl)
  | aborts i =>
    obtain ⟨r, found, ran⟩ := Option.bind_eq_some_iff.mp run
    obtain ⟨after, released, rfl⟩ := Option.map_eq_some_iff.mp ran
    have held := inv.positive found
    cases r with
    | whole chat model =>
      cases released
      exact inv.become found rfl (Books.dec rfl held rfl rfl)
    | stream stream =>
      cases released
      apply inv.become found rfl
      dsimp only
      split
      · next created => exact Books.keep (if_neg fun begun => begun created).symm rfl
      · next begun => exact Books.dec (running_stream begun) held rfl rfl
    | answered | streamed | aborted => cases released

theorem accounted_of_reachable (reached : (hfSystem server).Reachable s) : s.Accounted := by
  apply reached.invariant
  · rintro s rfl
    refine ⟨rfl, rfl, rfl, fun reason => ?_, rfl⟩
    rw [show (({} : VllmStats).success.get? reason).getD 0 = _ from
      VllmStats.after_finished reason []]
    simp [finished, total]
  · exact fun s e s' inv _ run => inv.step run

end HFState

/-! ## The supervisor's reading -/

/-- The first characters of the gauges. -/
def gaugeStart : String := "vllm:num_"

/-- The lines of the metrics other than the gauge start otherwise. -/
theorem other_heads : (["vllm:prompt_tokens_total ", "vllm:generation_tokens_total ",
      "vllm:request_success_total\x7bfinished_reason=\"", VllmStats.e2e ++ "_count ",
      VllmStats.e2e ++ "_min ", VllmStats.e2e ++ "_max ", VllmStats.e2e ++ "_mean "].all
        fun head => gaugeStart.toList.length ≤ head.toList.length &&
          !startsWith gaugeStart head) = true ∧
    (runGauges.all (startsWith gaugeStart ·)) = true := by
  decide +kernel

/-- A line that starts otherwise is not added. -/
theorem gaugeOf_other {head rest : String} (fits : gaugeStart.toList.length ≤ head.toList.length)
    (other : startsWith gaugeStart head = false) : gaugeOf runGauges (head ++ rest) = none := by
  have unwanted : runGauges.any (startsWith · (head ++ rest)) = false := by
    rw [List.any_eq_false]
    intro gauge wanted begins
    have front := List.all_eq_true.mp other_heads.2 gauge wanted
    unfold startsWith at front begins other
    rw [List.isPrefixOf_iff_prefix] at front begins
    rw [String.toList_append] at begins
    have within := List.prefix_of_prefix_length_le (front.trans begins)
      (List.prefix_append _ _) fits
    rw [← List.isPrefixOf_iff_prefix, other] at within
    cases within
  unfold gaugeOf
  rw [unwanted]
  split <;> rfl

theorem afterLastSpace_token {front text : String} (visible : ∀ c ∈ text.toList, c ≠ ' ') :
    afterLastSpace (front ++ " " ++ text) = some text := by
  have chars : (front ++ " " ++ text).toList = front.toList ++ ' ' :: text.toList := by simp
  unfold afterLastSpace
  rw [chars, if_pos (List.mem_append_right _ List.mem_cons_self)]
  have taken : (front.toList ++ ' ' :: text.toList).reverse.takeWhile (· ≠ ' ') =
      text.toList.reverse := by
    rw [List.reverse_append, List.reverse_cons, List.append_assoc]
    rw [List.takeWhile_append_of_pos]
    · simp
    · intro c member
      simpa using visible c (List.mem_reverse.mp member)
  rw [taken, List.reverse_reverse, String.ofList_toList]

/-- The gauge's own line. -/
theorem gaugeOf_running (i : Int) : gaugeOf runGauges ("vllm:num_requests_running " ++
    toString i) = some (.num i) := by
  have number := number_int i
  have split := VllmStats.head_running.split
  have line : "vllm:num_requests_running " ++ toString i =
      "vllm:num_requests_running" ++ (" " ++ toString i) := by
    rw [split, String.append_assoc]
  obtain ⟨stripped, -, comment⟩ := @strip_line _ (" " ++ toString i)
    VllmStats.head_running.series (by simp) number.last
  have wanted : runGauges.any (startsWith ·
      ("vllm:num_requests_running" ++ (" " ++ toString i))) = true := by
    rw [List.any_eq_true]
    refine ⟨_, List.mem_cons_self, ?_⟩
    unfold startsWith
    rw [List.isPrefixOf_iff_prefix, String.toList_append]
    exact List.prefix_append _ _
  have last : afterLastSpace ("vllm:num_requests_running" ++ (" " ++ toString i)) =
      some (toString i) := by
    rw [← String.append_assoc]
    apply afterLastSpace_token
    rintro c member rfl
    exact absurd (number.visible _ member) (by decide)
  rw [line]
  unfold gaugeOf
  rw [stripped, comment, wanted, if_neg (by simp), if_pos rfl, last, Option.bind_some,
    number.read]

theorem filterMap_gauges (s : VllmStats) :
    s.lines.filterMap (gaugeOf runGauges) = [.num s.numRunning] := by
  obtain ⟨heads, -⟩ := other_heads
  simp only [List.all_cons, List.all_nil, Bool.and_true, Bool.and_eq_true, decide_eq_true_eq,
    Bool.not_eq_true'] at heads
  obtain ⟨prompt, generation, reason, count, least, greatest, mean⟩ := heads
  have reasons : (finishReasons.map fun reason =>
      "vllm:request_success_total\x7bfinished_reason=\"" ++ reason ++ "\"\x7d " ++
        toString ((s.success.get? reason).getD 0)).filterMap (gaugeOf runGauges) = [] := by
    rw [List.filterMap_eq_nil_iff]
    intro line member
    obtain ⟨name, -, rfl⟩ := List.mem_map.mp member
    rw [String.append_assoc, String.append_assoc]
    exact gaugeOf_other reason.1 reason.2
  unfold VllmStats.lines
  rw [List.filterMap_append, List.filterMap_append, List.filterMap_append, reasons,
    List.filterMap_cons_some (gaugeOf_running _),
    List.filterMap_cons_none (gaugeOf_other prompt.1 prompt.2),
    List.filterMap_cons_none (gaugeOf_other generation.1 generation.2),
    List.filterMap_cons_none (gaugeOf_other count.1 count.2)]
  split
  · rw [List.filterMap_cons_none (gaugeOf_other least.1 least.2),
      List.filterMap_cons_none (gaugeOf_other greatest.1 greatest.2),
      List.filterMap_cons_none (gaugeOf_other mean.1 mean.2)]
    rfl
  · rfl

/-- **The supervisor reads the gauge** and nothing else of the metrics. -/
theorem sumGauges_render (s : VllmStats) : sumGauges s.render runGauges = .num s.numRunning := by
  have whole := s.lines_whole
  obtain ⟨line, rest, shape⟩ : ∃ line rest, s.lines = line :: rest := ⟨_, _, rfl⟩
  have lines : splitlines s.render = s.lines := by
    rw [shape] at whole
    rw [VllmStats.render, shape, splitlines_join whole]
  rw [sumGauges, lines, filterMap_gauges]
  simp [PyFloat.add]

namespace HFState

variable {server : HFServer} {s : HFState}

theorem Accounted.in_flight_iff (inv : s.Accounted) :
    0 < s.stats.numRunning ↔ ∃ r ∈ s.requests, r.InFlight := by
  rw [inv.running]
  constructor
  · intro positive
    by_contra absent
    have idle : ∀ r ∈ s.requests, ¬ r.InFlight := fun r known busy => absent ⟨r, known, busy⟩
    have none : s.total HFRequest.running = 0 := by
      apply List.sum_eq_zero
      intro x member
      obtain ⟨r, known, rfl⟩ := List.mem_map.mp member
      exact if_neg (idle r known)
    omega
  · rintro ⟨r, known, busy⟩
    obtain ⟨i, found⟩ := List.getElem?_of_mem known
    have held := le_sum_of_getElem found HFRequest.running_nonneg
    rw [HFRequest.running, if_pos busy] at held
    exact held

theorem total_running (s : HFState) :
    s.total HFRequest.running = (s.requests.countP fun r => decide r.InFlight : Nat) := by
  unfold total
  induction s.requests with
  | nil => rfl
  | cons r rest ih =>
    rw [List.map_cons, List.sum_cons, ih, List.countP_cons, HFRequest.running]
    by_cases busy : r.InFlight
    · simp [busy, Int.add_comm]
    · simp [busy]

theorem total_adds (s : HFState) (f : HFServed → Int) :
    s.total (HFRequest.adds f) = ((s.requests.filterMap HFRequest.served?).map f).sum := by
  unfold total
  induction s.requests with
  | nil => rfl
  | cons r rest ih =>
    rw [List.map_cons, List.sum_cons, ih, HFRequest.adds]
    cases recorded : r.served? with
    | none =>
      rw [List.filterMap_cons_none recorded]
      exact Int.zero_add _
    | some served =>
      rw [List.filterMap_cons_some recorded]
      rfl

theorem total_ones (s : HFState) :
    s.total (HFRequest.adds fun _ => 1) = (s.requests.filterMap HFRequest.served?).length := by
  rw [total_adds]
  simp

/-- The metrics say whether a request is in flight. -/
theorem Accounted.observed (inv : s.Accounted) :
    observedRunState (some (200, s.stats.render)) = .executing ↔ ∃ r ∈ s.requests, r.InFlight := by
  rw [← inv.in_flight_iff]
  simp only [observedRunState, sumGauges_render]
  by_cases positive : 0 < s.stats.numRunning <;> simp [PyFloat.lt, positive]

end HFState

open HFState in
/-- **The backend's numbers are its requests.**  In every state that any interleaving of requests,
engine and consumers reaches:

* the gauge is the number of requests in flight, and the supervisor that reads the metrics then
  observes EXECUTING if and only if there is one;
* the token counters and the number of latencies are sums over the requests that were answered or
  streamed to their end, all of which count as `stop`; an aborted request adds nothing. -/
theorem hf_server_accounted {server : HFServer} {s : HFState}
    (reached : (hfSystem server).Reachable s) :
    s.stats.numRunning = (s.requests.countP fun r => decide r.InFlight : Nat) ∧
    (observedRunState (some (200, s.stats.render)) = .executing ↔
      ∃ r ∈ s.requests, r.InFlight) ∧
    s.stats.promptTokensTotal =
      ((s.requests.filterMap HFRequest.served?).map HFServed.promptTokens).sum ∧
    s.stats.generationTokensTotal =
      ((s.requests.filterMap HFRequest.served?).map HFServed.completionTokens).sum ∧
    s.stats.latencyCount = (s.requests.filterMap HFRequest.served?).length ∧
    ∀ reason, (s.stats.success.get? reason).getD 0 =
      if reason = "stop" then ((s.requests.filterMap HFRequest.served?).length : Int) else 0 := by
  have inv := accounted_of_reachable reached
  have finished := inv.finished
  have count := inv.count
  simp only [total_ones] at finished count
  refine ⟨?_, inv.observed, ?_, ?_, by omega, finished⟩
  · rw [inv.running, total_running]
  · rw [inv.prompt, total_adds]
  · rw [inv.generation, total_adds]

/-- One request is answered, one streams. -/
def twoRequests : List HFEvent :=
  [.request (.dict []) true, .request (.dict [("stream", .bool true)]) true,
    .begins 1 "1" 0 5, .generated 0 "hi" "0" 0 ⟨3, 7, 2⟩, .taken 1, .piece 1 "a"]

theorem hf_server_accounted_two : ∃ s,
    (hfSystem ⟨"m", fun _ => 1, fun _ => "\x7b\x7d"⟩).run ⟨{}, []⟩ twoRequests = some s ∧
      s.stats.numRunning = 1 ∧ s.stats.promptTokensTotal = 7 ∧
      observedRunState (some (200, s.stats.render)) = .executing := by
  obtain ⟨s, steps⟩ : ∃ s, (hfSystem ⟨"m", fun _ => 1, fun _ => "\x7b\x7d"⟩).run ⟨{}, []⟩
      twoRequests = some s := ⟨_, rfl⟩
  obtain ⟨running, observed, prompt, -⟩ := hf_server_accounted (.of_run rfl steps)
  cases steps
  exact ⟨_, rfl, running, prompt, observed.mpr ⟨_, List.mem_cons_of_mem _ List.mem_cons_self,
    by simp [HFRequest.InFlight]⟩⟩

end Oumigo
