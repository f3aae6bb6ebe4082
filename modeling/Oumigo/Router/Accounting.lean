import Oumigo.Router.Promotion

/-!
# Slot accounting of the worker pool

`Ledger` is what every interleaving keeps of the in-flight counts, the calls, the
grants and the waiter queue: a count is the number of calls that hold a slot on
the node, a pending call is queued under its own predicate, a queued call holds
nothing, a held slot was granted, and a granted call is not pending.
`Ledger.replace` covers every section that changes one call, `Ledger.concat`
the arrival of a new one.
-/

namespace Oumigo

namespace PoolState

/-- The slot on `n` that `call` was granted and has not given back, as a number. -/
def slotOn (n : NodeId) (call : Asyncio.Call NodeRecord) : Nat :=
  if call.held?.any fun r => r.nodeId = n then 1 else 0

/-- The slots on `n` that are granted and not yet given back. -/
def heldOn (calls : List PoolCall) (n : NodeId) : Nat :=
  calls.countP fun x => x.call.held?.any fun r => r.nodeId = n

structure Ledger (inflight : NodeId → Nat) (calls : List PoolCall) (grants : List Grant)
    (queue : List Waiter) : Prop where
  counted : ∀ n, inflight n = heldOn calls n
  queued : ∀ c eligible, calls[c]? = some ⟨eligible, .suspended .pending⟩ →
    ⟨c, eligible⟩ ∈ queue
  waiting : ∀ w ∈ queue, ∃ call, calls[w.call]? = some ⟨w.eligible, call⟩ ∧ call.held? = none
  arrival : queue.Pairwise fun w w' => w.call < w'.call
  granted : ∀ c eligible call r, calls[c]? = some ⟨eligible, call⟩ → call.held? = some r →
    ∃ g ∈ grants, g.call = c ∧ g.eligible = eligible ∧ g.record = r
  admissible : ∀ g ∈ grants, g.record ∈ g.pool.available g.eligible
  answered : ∀ g ∈ grants, ∃ x, calls[g.call]? = some x ∧ x.call.pending = false

/-- The ledger of a state between two sections. -/
def Inv (s : PoolState) : Prop := Ledger s.pool.inflight s.calls s.grants s.pool.waiters

theorem inv_initial {registry : Registry} {defaultCapacity : Nat} {rng : List Nat}
    {tunnels : Option TunnelRegistry} :
    (initial (.new registry defaultCapacity rng tunnels)).Inv where
  counted := fun _ => rfl
  queued := fun _ _ found => nomatch found
  waiting := fun _ member => nomatch member
  arrival := List.Pairwise.nil
  granted := fun _ _ _ _ found => nomatch found
  admissible := fun _ member => nomatch member
  answered := fun _ member => nomatch member

@[simp] theorem slotOn_of_held?_none {call : Asyncio.Call NodeRecord} {n : NodeId}
    (nothing : call.held? = none) : slotOn n call = 0 := by
  simp [slotOn, nothing]

theorem slotOn_of_held? {call : Asyncio.Call NodeRecord} {n : NodeId} {r : NodeRecord}
    (held : call.held? = some r) : slotOn n call = if r.nodeId = n then 1 else 0 := by
  simp [slotOn, held]

section Ledger

variable {inflight inflight' : NodeId → Nat} {calls : List PoolCall} {grants grants' : List Grant}
  {queue queue' : List Waiter} {c : CallId} {eligible : Eligible} {r : NodeRecord}
  {old new : Asyncio.Call NodeRecord}

/-- A call that holds a slot has left the queue. -/
theorem Ledger.not_queued (books : Ledger inflight calls grants queue)
    (called : calls[c]? = some ⟨eligible, old⟩) (held : old.held? = some r) :
    ∀ w ∈ queue, w.call ≠ c := by
  rintro w member rfl
  obtain ⟨call, found, nothing⟩ := books.waiting w member
  cases called.symm.trans found
  cases held.symm.trans nothing

/-- A held slot is counted. -/
theorem Ledger.inflight_pos (books : Ledger inflight calls grants queue)
    (called : calls[c]? = some ⟨eligible, old⟩) (held : old.held? = some r) :
    0 < inflight r.nodeId := by
  rw [books.counted, heldOn, List.countP_pos_iff]
  exact ⟨_, List.mem_of_getElem? called, by simp [held]⟩

/-- Waiters whose futures are done may leave the queue. -/
theorem Ledger.drop (books : Ledger inflight calls grants queue)
    (sub : queue'.Sublist queue)
    (left : ∀ w ∈ queue, w ∈ queue' ∨
      ∀ eligible, calls[w.call]? ≠ some ⟨eligible, .suspended .pending⟩) :
    Ledger inflight calls grants queue' where
  counted := books.counted
  queued := fun c eligible pending => by
    rcases left _ (books.queued c eligible pending) with kept | done
    · exact kept
    · exact (done eligible pending).elim
  waiting := fun w member => books.waiting w (sub.subset member)
  arrival := books.arrival.sublist sub
  granted := books.granted
  admissible := books.admissible
  answered := books.answered

/-- **One call changes.**  The books stay right when the count follows the slot the
call holds, the call is not left pending, only its own entry leaves the queue, and
a slot it now holds was granted. -/
theorem Ledger.replace (books : Ledger inflight calls grants queue)
    (called : calls[c]? = some ⟨eligible, old⟩)
    (count : ∀ n, inflight' n + slotOn n old = inflight n + slotOn n new)
    (settled : new.pending = false)
    (sub : queue'.Sublist queue) (others : ∀ w ∈ queue, w.call ≠ c → w ∈ queue')
    (gone : new.held? = none ∨ ∀ w ∈ queue', w.call ≠ c)
    (known : grants ⊆ grants')
    (source : ∀ r, new.held? = some r →
      ∃ g ∈ grants', g.call = c ∧ g.eligible = eligible ∧ g.record = r)
    (fresh : ∀ g ∈ grants', g ∈ grants ∨
      (g.call = c ∧ g.record ∈ g.pool.available g.eligible)) :
    Ledger inflight' (calls.modify c fun x => { x with call := new }) grants' queue' where
  counted := fun n => by
    have change := Deque.countP_modify (p := fun x => x.call.held?.any fun r => r.nodeId = n)
      (f := fun x => { x with call := new }) called
    have before := books.counted n
    have after := count n
    unfold heldOn at before ⊢
    unfold slotOn at after
    dsimp only at change
    omega
  queued := fun d eligible' pending => by
    rw [List.getElem?_modify] at pending
    obtain ⟨x, found, eq⟩ := Option.map_eq_some_iff.mp pending
    by_cases same : c = d
    · rw [if_pos same] at eq
      cases eq
      cases settled
    · rw [if_neg same] at eq
      cases eq
      exact others _ (books.queued d eligible' found) (Ne.symm same)
  waiting := fun w member => by
    obtain ⟨call, found, nothing⟩ := books.waiting w (sub.subset member)
    rw [List.getElem?_modify, found]
    by_cases same : c = w.call
    · rcases gone with empty | elsewhere
      · exact ⟨new, by simp [same], empty⟩
      · exact (elsewhere w member same.symm).elim
    · exact ⟨call, by simp [same], nothing⟩
  arrival := books.arrival.sublist sub
  granted := fun d eligible' call r found held => by
    rw [List.getElem?_modify] at found
    obtain ⟨x, before, eq⟩ := Option.map_eq_some_iff.mp found
    by_cases same : c = d
    · subst same
      rw [if_pos rfl] at eq
      cases called.symm.trans before
      cases eq
      exact source r held
    · rw [if_neg same] at eq
      cases eq
      obtain ⟨g, member, rest⟩ := books.granted d eligible' call r before held
      exact ⟨g, known member, rest⟩
  admissible := fun g member => (fresh g member).elim (books.admissible g) And.right
  answered := fun g member => by
    have at_g : ∀ x, calls[g.call]? = some x → x.call.pending = false ∨ c = g.call →
        ∃ y, (calls.modify c fun x => { x with call := new })[g.call]? = some y ∧
          y.call.pending = false := by
      intro x found done
      refine ⟨_, by rw [List.getElem?_modify, found]; rfl, ?_⟩
      dsimp only
      by_cases same : c = g.call
      · rw [if_pos same]; exact settled
      · rw [if_neg same]; exact done.resolve_right same
    rcases fresh g member with earlier | ⟨own, -⟩
    · obtain ⟨x, found, done⟩ := books.answered g earlier
      exact at_g x found (Or.inl done)
    · exact at_g _ (own ▸ called) (Or.inr own.symm)

/-- A call changes what it waits for, not the slot it holds. -/
theorem Ledger.relabel (books : Ledger inflight calls grants queue)
    (called : calls[c]? = some ⟨eligible, old⟩) (same : new.held? = old.held?)
    (settled : new.pending = false) :
    Ledger inflight (calls.modify c fun x => { x with call := new }) grants queue :=
  books.replace called (fun n => by unfold slotOn; rw [same]) settled (.refl _)
    (fun _ member _ => member)
    (by
      cases held : old.held? with
      | none => exact Or.inl (same.trans held)
      | some r => exact Or.inr (books.not_queued called held))
    (fun _ member => member)
    (fun r held => books.granted c eligible old r called (same.symm.trans held))
    (fun _ => Or.inl)

/-- A call gives its slot back. -/
theorem Ledger.giveBack (books : Ledger inflight calls grants queue)
    (called : calls[c]? = some ⟨eligible, old⟩) (held : old.held? = some r)
    (down : inflight' r.nodeId = inflight r.nodeId - 1)
    (frame : ∀ n, n ≠ r.nodeId → inflight' n = inflight n) :
    Ledger inflight' (calls.modify c fun x => { x with call := .ended }) grants queue := by
  refine books.replace called (fun n => ?_) rfl (.refl _) (fun _ member _ => member)
    (Or.inl rfl) (fun _ member => member) (fun r held => nomatch held) fun _ => Or.inl
  rw [slotOn_of_held? held, slotOn_of_held?_none Asyncio.Call.held?_ended]
  have counted := books.inflight_pos called held
  by_cases same : r.nodeId = n
  · subst same
    rw [if_pos rfl, down]
    omega
  · rw [if_neg same, frame n (Ne.symm same)]

/-- The waiter `w` is resolved with a worker that was available to it. -/
theorem Ledger.resolve {p : WorkerPool} {w : Waiter} {pre rest : List Waiter}
    (books : Ledger p.inflight calls grants (pre ++ w :: rest))
    (pending : calls[w.call]? = some ⟨w.eligible, .suspended .pending⟩)
    (offered : r ∈ p.available w.eligible) {g : Grant} (grant : g = ⟨p, w.call, w.eligible, r⟩) :
    Ledger (p.take r).inflight
      (calls.modify w.call fun x => { x with call := .suspended (.resolved r) })
      (grants ++ [g]) (pre ++ rest) := by
  have distinct : ∀ x ∈ pre ++ rest, x.call ≠ w.call := by
    intro x member same
    obtain ⟨-, after, before⟩ := List.pairwise_append.mp books.arrival
    rcases List.mem_append.mp member with left | right
    · exact Nat.ne_of_lt (before x left w List.mem_cons_self) same
    · exact Nat.ne_of_gt (List.rel_of_pairwise_cons after right) same
  refine books.replace pending (fun n => ?_) rfl (List.Sublist.append_left (List.sublist_cons_self ..) _)
    (fun x member other => ?_) (Or.inr distinct) (List.subset_append_left ..) (fun r' held => ?_)
    (fun g' member => ?_)
  · rw [WorkerPool.inflight_take, slotOn_of_held?_none Asyncio.Call.held?_pending,
      slotOn_of_held? Asyncio.Call.held?_resolved]
    rfl
  · rcases List.mem_append.mp member with left | right
    · exact List.mem_append_left _ left
    · rcases List.mem_cons.mp right with rfl | right
      · exact (other rfl).elim
      · exact List.mem_append_right _ right
  · cases held
    exact ⟨g, by simp, by rw [grant], by rw [grant], by rw [grant]⟩
  · rcases List.mem_append.mp member with earlier | last
    · exact Or.inl earlier
    · cases List.mem_singleton.mp last
      rw [grant]
      exact Or.inr ⟨rfl, offered⟩

/-- A new call arrives that does not queue. -/
theorem Ledger.concat (books : Ledger inflight calls grants queue)
    (count : ∀ n, inflight' n = inflight n + slotOn n new) (settled : new.pending = false)
    (known : grants ⊆ grants')
    (source : ∀ r, new.held? = some r →
      ∃ g ∈ grants', g.call = calls.length ∧ g.eligible = eligible ∧ g.record = r)
    (fresh : ∀ g ∈ grants', g ∈ grants ∨
      (g.call = calls.length ∧ g.record ∈ g.pool.available g.eligible)) :
    Ledger inflight' (calls ++ [⟨eligible, new⟩]) grants' queue where
  counted := fun n => by
    have before := books.counted n
    have after := count n
    unfold heldOn at before ⊢
    unfold slotOn at after
    rw [List.countP_append, List.countP_singleton, after, before]
  queued := fun d eligible' pending => by
    rcases Deque.getElem?_concat_cases pending with before | ⟨-, eq⟩
    · exact books.queued d eligible' before
    · cases eq
      cases settled
  waiting := fun w member => by
    obtain ⟨call, found, nothing⟩ := books.waiting w member
    exact ⟨call, Deque.getElem?_append_of_some found, nothing⟩
  arrival := books.arrival
  granted := fun d eligible' call r found held => by
    rcases Deque.getElem?_concat_cases found with before | ⟨rfl, eq⟩
    · obtain ⟨g, member, rest⟩ := books.granted d eligible' call r before held
      exact ⟨g, known member, rest⟩
    · cases eq
      exact source r held
  admissible := fun g member => (fresh g member).elim (books.admissible g) And.right
  answered := fun g member => by
    rcases fresh g member with earlier | ⟨own, -⟩
    · obtain ⟨x, found, done⟩ := books.answered g earlier
      exact ⟨x, Deque.getElem?_append_of_some found, done⟩
    · exact ⟨_, own ▸ List.getElem?_concat_length, settled⟩

/-- A new call arrives and queues at the end. -/
theorem Ledger.enqueue (books : Ledger inflight calls grants queue) :
    Ledger inflight (calls ++ [⟨eligible, .suspended .pending⟩]) grants
      (queue ++ [⟨calls.length, eligible⟩]) where
  counted := fun n => by
    have before := books.counted n
    unfold heldOn at before ⊢
    rw [List.countP_append, List.countP_singleton]
    simpa using before
  queued := fun d eligible' pending => by
    rcases Deque.getElem?_concat_cases pending with before | ⟨rfl, eq⟩
    · exact List.mem_append_left _ (books.queued d eligible' before)
    · cases eq
      exact List.mem_append_right _ (List.mem_singleton.mpr rfl)
  waiting := fun w member => by
    rcases List.mem_append.mp member with earlier | last
    · obtain ⟨call, found, nothing⟩ := books.waiting w earlier
      exact ⟨call, Deque.getElem?_append_of_some found, nothing⟩
    · cases List.mem_singleton.mp last
      exact ⟨_, List.getElem?_concat_length, rfl⟩
  arrival := by
    refine List.pairwise_append.mpr ⟨books.arrival, List.pairwise_singleton .., ?_⟩
    intro w earlier w' last
    cases List.mem_singleton.mp last
    obtain ⟨call, found, -⟩ := books.waiting w earlier
    exact Deque.lt_length_of_some found
  granted := fun d eligible' call r found held => by
    rcases Deque.getElem?_concat_cases found with before | ⟨rfl, eq⟩
    · exact books.granted d eligible' call r before held
    · cases eq
      cases held
  admissible := books.admissible
  answered := fun g member => by
    obtain ⟨x, found, done⟩ := books.answered g member
    exact ⟨x, Deque.getElem?_append_of_some found, done⟩

end Ledger

/-! ## Every section keeps the ledger -/

variable {s s' : PoolState} {l kept : List Waiter}

/-- The loop of `_promote`, with `pre` the waiters it has kept so far. -/
theorem Promotes.ledger (loop : Promotes s l s' kept) {pre : List Waiter}
    (books : Ledger s.pool.inflight s.calls s.grants (pre ++ l)) :
    Ledger s'.pool.inflight s'.calls s'.grants (pre ++ kept) := by
  induction loop generalizing pre with
  | nil => exact books
  | @skip s _ w _ _ done _ ih =>
    refine ih (books.drop (List.Sublist.append_left (List.sublist_cons_self ..) _) ?_)
    intro x member
    rcases List.mem_append.mp member with left | right
    · exact Or.inl (List.mem_append_left _ left)
    · rcases List.mem_cons.mp right with rfl | right
      · refine Or.inr fun eligible pending => ?_
        rw [futureDone_eq_false.mpr ⟨eligible, pending⟩] at done
        cases done
      · exact Or.inl (List.mem_append_right _ right)
  | @grant s _ w _ _ r open' offered _ ih =>
    obtain ⟨eligible, pending⟩ := futureDone_eq_false.mp open'
    obtain ⟨call, called, -⟩ := books.waiting w (by simp)
    cases pending.symm.trans called
    exact ih (books.resolve (p := s.drawn.pool) pending offered rfl)
  | keep _ _ _ ih =>
    rw [List.append_cons] at books ⊢
    exact ih books

theorem Promoted.inv (promoted : Promoted s s') (inv : s.Inv) : s'.Inv := by
  obtain ⟨s₁, kept, loop, rfl⟩ := promoted
  have books : Ledger s.pool.inflight s.calls s.grants ([] ++ s.pool.waiters) := inv
  exact loop.ledger books

theorem inv_acquire (inv : s.Inv) (eligible : Eligible) : (s.acquire eligible).Inv := by
  obtain ⟨s₁, promoted, result⟩ := s.acquire_cases eligible
  have before := promoted.inv inv
  have length := promoted.length
  rcases result with ⟨r, offered, result⟩ | ⟨-, -, result⟩ | ⟨-, -, result⟩
  · rw [result]
    refine Ledger.concat before (fun n => ?_) rfl (List.subset_append_left ..) (fun r' held => ?_)
      (fun g member => ?_)
    · rw [slotOn_of_held? Asyncio.Call.held?_returned]
      exact WorkerPool.inflight_take
    · cases held
      exact ⟨_, List.mem_append_right _ (List.mem_singleton.mpr rfl), length.symm, rfl, rfl⟩
    · rcases List.mem_append.mp member with earlier | last
      · exact Or.inl earlier
      · cases List.mem_singleton.mp last
        exact Or.inr ⟨length.symm, offered⟩
  · rw [result]
    exact Ledger.concat before (fun n => rfl) rfl (fun _ member => member)
      (fun r held => nomatch held) fun _ => Or.inl
  · rw [result, ← length]
    exact Ledger.enqueue before

variable {c : CallId} {eligible : Eligible} {call : Asyncio.Call NodeRecord} {r : NodeRecord}

/-- The first half of a `release` by a caller that holds the slot. -/
theorem inv_giveBack (inv : s.Inv) (called : s.calls[c]? = some ⟨eligible, call⟩)
    (held : call.held? = some r) :
    ({ s.setCall c .ended with pool := s.pool.giveBack r.nodeId } : PoolState).Inv := by
  unfold Inv
  rw [WorkerPool.giveBack_waiters]
  exact Ledger.giveBack inv called held WorkerPool.inflight_giveBack
    fun n other => WorkerPool.inflight_giveBack_ne other

theorem inv_release (inv : s.Inv) (called : s.calls[c]? = some ⟨eligible, call⟩)
    (held : call.held? = some r) : ((s.setCall c .ended).release r.nodeId).Inv :=
  (promoted_release _ _).inv (inv_giveBack inv called held)

theorem inv_resume (inv : s.Inv) (run : s.resume c = some s') : s'.Inv := by
  obtain ⟨eligible, w, called, ⟨r, resumed, rfl⟩ | ⟨cause, resumed, outcome⟩⟩ := resume_cases run
  · exact Ledger.relabel inv called (Asyncio.WaitFor.result?_of_resume_ok resumed).symm rfl
  · rcases outcome with ⟨⟨x, member, same⟩, rfl⟩ | ⟨-, ⟨r, held, rfl⟩ | ⟨nothing, rfl⟩⟩
    · obtain ⟨call, found, nothing⟩ := inv.waiting x member
      rw [same, called] at found
      cases found
      have ended : Ledger s.pool.inflight (s.setCall c .ended).calls s.grants s.pool.waiters :=
        Ledger.relabel inv called nothing.symm rfl
      refine ended.drop List.filter_sublist fun w member => ?_
      by_cases own : w.call = c
      · refine Or.inr fun eligible pending => ?_
        have after : (s.setCall c .ended).Pending w.call eligible := pending
        rcases pending_setCall after with ⟨other, -⟩ | ⟨-, impossible⟩
        · exact other own
        · cases impossible
      · exact Or.inl (List.mem_filter.mpr ⟨member, by simpa using own⟩)
    · exact inv_release inv called held
    · exact Ledger.relabel inv called nothing.symm rfl

theorem inv_interrupt {cause : Asyncio.Interrupt} (inv : s.Inv)
    (run : s.interrupt c cause = some s') : s'.Inv := by
  obtain ⟨eligible, w, called, rfl⟩ := interrupt_cases run
  refine Ledger.relabel inv called Asyncio.Call.held?_interrupt ?_
  exact Bool.eq_false_iff.mpr fun pending => by
    have same := Asyncio.Call.pending_iff.mp pending
    injection same with same
    exact Asyncio.WaitFor.interrupt_ne_pending same

theorem inv_step {e : PoolEvent} (inv : s.Inv) (run : s.step e = some s') : s'.Inv := by
  cases e with
  | acquire eligible => cases run; exact inv_acquire inv eligible
  | resume c => exact inv_resume inv run
  | interrupt c cause => exact inv_interrupt inv run
  | release c =>
    obtain ⟨eligible, r, called, rfl⟩ := releaseHeld_cases run
    exact inv_release inv called rfl
  | tick => cases run; exact (promoted_tick s).inv inv
  | environment registry tunnels => cases run; exact inv

theorem inv_of_reachable (reached : poolSystem.Reachable s) : s.Inv :=
  reached.invariant (I := Inv) (fun s start => by
    obtain ⟨_, _, _, _, rfl⟩ := start
    exact inv_initial) fun _ _ _ inv _ run => inv_step inv run

end PoolState

end Oumigo
