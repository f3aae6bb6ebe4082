import Oumigo.Router.Admission

/-!
# The discipline of the waiter queue

A waiter whose workers are all acceptable to an earlier one is never served before
it; a newcomer takes no slot that a queued request accepts; after each section
that can free or find capacity nobody waits beside a free slot of its own; and a
waiter that leaves does not reorder the others.
-/

namespace Oumigo

namespace PoolState

variable {s s' : PoolState} {l kept : List Waiter} {e : PoolEvent} {c d : CallId}
  {eligible : Eligible}

/-! ## Nobody waits beside a free slot -/

/-- No queued request accepts a routable worker with a free slot. -/
def Settled (s : PoolState) : Prop :=
  ∀ c eligible, s.Pending c eligible → s.pool.available eligible = []

theorem Promotes.exhausted (loop : Promotes s l s' kept) :
    ∀ w ∈ kept, s'.pool.available w.eligible = [] := by
  induction loop with
  | nil => exact fun w member => nomatch member
  | skip _ _ ih => exact ih
  | grant _ _ _ ih => exact ih
  | keep _ nothing loop ih =>
    intro w member
    rcases List.mem_cons.mp member with rfl | later
    · exact loop.busier.available_eq_nil nothing
    · exact ih w later

theorem Promoted.settled (promoted : Promoted s s') (inv : s.Inv) : s'.Settled := by
  have after := promoted.inv inv
  obtain ⟨s₁, kept, loop, rfl⟩ := promoted
  intro c eligible pending
  exact loop.exhausted _ (after.queued c eligible pending)

theorem settled_acquire (inv : s.Inv) (eligible : Eligible) : (s.acquire eligible).Settled := by
  obtain ⟨s₁, promoted, result⟩ := s.acquire_cases eligible
  have before := promoted.settled inv
  intro c eligible' pending
  rcases result with ⟨r, -, result⟩ | ⟨-, -, result⟩ | ⟨nothing, -, result⟩ <;>
    rw [result] at pending ⊢
  · rcases Deque.getElem?_concat_cases pending with earlier | ⟨-, eq⟩
    · exact (WorkerPool.Busier.take s₁.pool r).available_eq_nil (before c eligible' earlier)
    · cases eq
  · rcases Deque.getElem?_concat_cases pending with earlier | ⟨-, eq⟩
    · exact before c eligible' earlier
    · cases eq
  · rcases Deque.getElem?_concat_cases pending with earlier | ⟨-, eq⟩
    · exact before c eligible' earlier
    · cases eq
      exact nothing

/-- A call that is no longer pending takes nothing from the others. -/
theorem Settled.setCall {call : Asyncio.Call NodeRecord} (settled : s.Settled)
    (done : call ≠ .suspended .pending) : (s.setCall c call).Settled := by
  intro d eligible pending
  rcases pending_setCall pending with ⟨-, before⟩ | ⟨-, same⟩
  · exact settled d eligible before
  · exact (done same).elim

theorem settled_release (inv : s.Inv) {call : Asyncio.Call NodeRecord} {r : NodeRecord}
    (called : s.calls[c]? = some ⟨eligible, call⟩) (held : call.held? = some r) :
    ((s.setCall c .ended).release r.nodeId).Settled :=
  (promoted_release _ _).settled (inv_giveBack inv called held)

theorem settled_interrupt {cause : Asyncio.Interrupt} (settled : s.Settled)
    (run : s.interrupt c cause = some s') : s'.Settled := by
  obtain ⟨eligible, w, -, rfl⟩ := interrupt_cases run
  refine settled.setCall fun same => ?_
  injection same with same
  exact Asyncio.WaitFor.interrupt_ne_pending same

theorem settled_resume (inv : s.Inv) (settled : s.Settled) (run : s.resume c = some s') :
    s'.Settled := by
  obtain ⟨eligible, w, called, ⟨r, -, rfl⟩ | ⟨cause, -, ⟨-, rfl⟩ | ⟨-, ⟨r, held, rfl⟩ | ⟨-, rfl⟩⟩⟩⟩ :=
    resume_cases run
  · exact settled.setCall (by simp)
  · exact Settled.setCall (s := s) (c := c) settled (by simp)
  · exact settled_release inv called held
  · exact settled.setCall (by simp)

/-! ## Nobody overtakes -/

/-- Whoever is behind `a` in the queue and accepts only workers that `a` accepts is
granted a slot only after `a` was, in the steps from `s` to `s'`. -/
def NoOvertaking (s s' : PoolState) : Prop :=
  ∀ a b, Deque.Before s.pool.waiters a b → s.Pending a.call a.eligible →
    (∀ r ∈ s.pool.registry.list, b.eligible.accepts r = true → a.eligible.accepts r = true) →
    ∀ ahead g behind, s'.grants = s.grants ++ (ahead ++ g :: behind) → g.call = b.call →
      ∃ g' ∈ ahead, g'.call = a.call

theorem Promotes.noOvertaking (loop : Promotes s l s' kept) {a b : Waiter}
    (before : Deque.Before l a b) (arrival : l.Pairwise fun w w' => w.call < w'.call)
    (pending : s.Pending a.call a.eligible)
    (sub : ∀ r ∈ s.pool.registry.list,
      b.eligible.accepts r = true → a.eligible.accepts r = true)
    {ahead behind : List Grant} {g : Grant}
    (grants : s'.grants = s.grants ++ (ahead ++ g :: behind)) (served : g.call = b.call) :
    ∃ g' ∈ ahead, g'.call = a.call := by
  induction loop generalizing ahead with
  | nil => exact (List.not_mem_nil before.left).elim
  | @skip s _ w _ _ done _ ih =>
    rcases before.of_cons with ⟨rfl, -⟩ | before
    · rw [futureDone_eq_false.mpr ⟨_, pending⟩] at done
      cases done
    · exact ih before (List.pairwise_cons.mp arrival).2 pending sub grants
  | @grant s _ w rest _ r _ offered loop ih =>
    obtain ⟨behind_w, sorted⟩ := List.pairwise_cons.mp arrival
    obtain ⟨new, granted, -⟩ := loop.granted
    have split : (⟨s.drawn.pool, w.call, w.eligible, r⟩ : Grant) :: new = ahead ++ g :: behind := by
      have total := granted.grants.symm.trans grants
      exact List.append_cancel_left ((List.append_assoc ..).symm.trans total)
    cases ahead with
    | nil =>
      -- the first grant of the loop is to `w`, which is not behind anybody here
      cases split
      have b_rest : b ∈ rest := by
        rcases before.of_cons with ⟨-, member⟩ | before
        · exact member
        · exact before.right
      exact absurd served (Nat.ne_of_lt (behind_w b b_rest))
    | cons first ahead =>
      obtain ⟨rfl, tail⟩ := List.cons.inj split
      rcases before.of_cons with ⟨rfl, -⟩ | before
      · exact ⟨_, List.mem_cons_self, rfl⟩
      · have later := behind_w a before.left
        have waits : (s.drawn.resolve w r).Pending a.call a.eligible :=
          Pending.setCall_ne (s := s.drawn.grant w.call w.eligible r) pending (Nat.ne_of_gt later)
        obtain ⟨g', member, same⟩ := ih before sorted waits sub
          (granted.grants.trans (congrArg _ tail))
        exact ⟨g', List.mem_cons_of_mem _ member, same⟩
  | @keep s _ w rest _ _ nothing loop ih =>
    obtain ⟨behind_w, sorted⟩ := List.pairwise_cons.mp arrival
    rcases before.of_cons with ⟨rfl, b_rest⟩ | before
    · -- what was not there for `a` is not there for `b` later in the loop
      obtain ⟨new, granted, source⟩ := loop.granted
      have split := List.append_cancel_left (granted.grants.symm.trans grants)
      obtain ⟨busier, offered, queued⟩ := source g (by rw [split]; simp)
      have own : g.eligible = b.eligible := by
        have distinct : (rest.map Waiter.call).Nodup := by
          rw [List.Nodup, List.pairwise_map]
          exact sorted.imp fun lt => Nat.ne_of_lt lt
        exact congrArg Waiter.eligible
          (List.inj_on_of_nodup_map distinct queued b_rest served)
      have at_s := busier.available offered
      rw [own] at at_s
      obtain ⟨listed, routable, accepted, free⟩ := WorkerPool.mem_available.mp at_s
      have for_a := WorkerPool.mem_available.mpr ⟨listed, routable, sub _ listed accepted, free⟩
      rw [nothing] at for_a
      cases for_a
    · exact ih before sorted pending sub grants

theorem NoOvertaking.of_grants_eq (same : s'.grants = s.grants) : NoOvertaking s s' := by
  intro a b _ _ _ ahead g behind grants _
  have nothing := List.append_cancel_left
    ((List.append_nil s.grants).trans (same.symm.trans grants))
  simp at nothing

theorem Promoted.noOvertaking (promoted : Promoted s s') (inv : s.Inv) : NoOvertaking s s' := by
  obtain ⟨s₁, kept, loop, rfl⟩ := promoted
  exact fun a b before pending sub ahead g behind grants served =>
    loop.noOvertaking before inv.arrival pending sub grants served

theorem noOvertaking_acquire (inv : s.Inv) (eligible : Eligible) :
    NoOvertaking s (s.acquire eligible) := by
  obtain ⟨s₁, promoted, ⟨r, -, result⟩ | ⟨-, -, result⟩ | ⟨-, -, result⟩⟩ :=
    s.acquire_cases eligible
  · intro a b before pending sub ahead g behind grants served
    rw [result] at grants
    obtain ⟨new, granted⟩ := promoted.granted
    -- the last grant is the newcomer's own; the others are those of `_promote`
    rcases List.eq_nil_or_concat behind with rfl | ⟨behind, last, rfl⟩
    · have newcomer : g.call = s.calls.length := by
        have ends := congrArg List.getLast? grants
        simp [grant] at ends
        rw [← ends]
      obtain ⟨call, called, -⟩ := inv.waiting b before.right
      have known := Deque.lt_length_of_some called
      exact absurd (served.symm.trans newcomer) (Nat.ne_of_lt known)
    · refine promoted.noOvertaking inv a b before pending sub ahead g behind ?_ served
      have grants : s₁.grants ++ [⟨s₁.drawn.pool, s.calls.length, eligible, r⟩] =
          (s.grants ++ (ahead ++ g :: behind)) ++ [last] := by
        simpa [grant, drawn] using grants
      exact (List.append_inj' grants rfl).1
  · rw [result]
    exact promoted.noOvertaking inv
  · rw [result]
    exact promoted.noOvertaking inv

theorem noOvertaking_release (inv : s.Inv) {call : Asyncio.Call NodeRecord} {r : NodeRecord}
    (called : s.calls[c]? = some ⟨eligible, call⟩) (held : call.held? = some r) :
    NoOvertaking s ((s.setCall c .ended).release r.nodeId) := by
  intro a b before pending sub
  refine (promoted_release (s.setCall c .ended) r.nodeId).noOvertaking (inv_giveBack inv called held)
    a b (by simpa using before) (pending.setCall_ne fun same => ?_) (by simpa using sub)
  rw [← same, pending] at called
  cases called
  cases held

theorem noOvertaking_step (inv : s.Inv) (run : s.step e = some s') : NoOvertaking s s' := by
  cases e with
  | acquire eligible => cases run; exact noOvertaking_acquire inv eligible
  | resume c =>
    obtain ⟨eligible, w, called,
      ⟨r, -, rfl⟩ | ⟨cause, -, ⟨-, rfl⟩ | ⟨-, ⟨r, held, rfl⟩ | ⟨-, rfl⟩⟩⟩⟩ := resume_cases run
    · exact .of_grants_eq rfl
    · exact .of_grants_eq rfl
    · exact noOvertaking_release inv called held
    · exact .of_grants_eq rfl
  | interrupt c cause =>
    obtain ⟨eligible, w, -, rfl⟩ := interrupt_cases run
    exact .of_grants_eq rfl
  | release c =>
    obtain ⟨eligible, r, called, rfl⟩ := releaseHeld_cases run
    exact noOvertaking_release inv called rfl
  | tick => cases run; exact (promoted_tick s).noOvertaking inv
  | environment registry tunnels => cases run; exact .of_grants_eq rfl

/-- A newcomer that is served at once takes a slot nobody queued can use. -/
theorem newcomer_takes_leftover (inv : s.Inv) {r : NodeRecord}
    (returned : (s.acquire eligible).calls[s.calls.length]? = some ⟨eligible, .returned r⟩)
    {eligible' : Eligible} (pending : (s.acquire eligible).Pending c eligible') :
    eligible'.accepts r = false := by
  obtain ⟨s₁, promoted, outcome⟩ := s.acquire_cases eligible
  rw [← promoted.length] at returned
  rcases outcome with ⟨r', offered, result⟩ | ⟨-, -, result⟩ | ⟨-, -, result⟩ <;>
    rw [result] at returned pending <;>
    cases List.getElem?_concat_length.symm.trans returned
  rcases Deque.getElem?_concat_cases pending with earlier | ⟨-, eq⟩
  · have exhausted := promoted.settled inv c eligible' earlier
    obtain ⟨listed, routable, -, free⟩ := WorkerPool.mem_available.mp offered
    refine Bool.eq_false_iff.mpr fun accepted => ?_
    have for_c := WorkerPool.mem_available.mpr ⟨listed, routable, accepted, free⟩
    rw [exhausted] at for_c
    cases for_c
  · cases eq

/-! ## Leaving the queue -/

theorem Promoted.waiters_sublist (promoted : Promoted s s') :
    s'.pool.waiters.Sublist s.pool.waiters := by
  obtain ⟨s₁, kept, loop, rfl⟩ := promoted
  exact loop.kept_sublist

theorem resume_waiters_sublist (run : s.resume c = some s') :
    s'.pool.waiters.Sublist s.pool.waiters := by
  obtain ⟨eligible, w, called,
    ⟨r, -, rfl⟩ | ⟨cause, -, ⟨-, rfl⟩ | ⟨-, ⟨r, held, rfl⟩ | ⟨-, rfl⟩⟩⟩⟩ := resume_cases run
  · exact .refl _
  · exact List.filter_sublist
  · simpa using (promoted_release (s.setCall c .ended) r.nodeId).waiters_sublist
  · exact .refl _

theorem Inv.waiters_nodup (inv : s.Inv) : s.pool.waiters.Nodup := by
  refine inv.arrival.imp ?_
  rintro w _ ahead rfl
  exact Nat.lt_irrefl _ ahead

end PoolState

open PoolState in
/-- **Queue discipline.**  What any step of any interleaving does to the queue. -/
theorem pool_queue_discipline {s s' : PoolState} {e : PoolEvent}
    (reached : poolSystem.Reachable s) (run : s.step e = some s') :
    -- nobody is served before an earlier request that accepts all of its workers
    NoOvertaking s s' ∧
    (∀ a b, Deque.Before s.pool.waiters a b → s.Pending a.call a.eligible →
      s.Pending b.call b.eligible →
      (∀ r ∈ s.pool.registry.list, b.eligible.accepts r = true → a.eligible.accepts r = true) →
      ∀ x r, s'.calls[b.call]? = some x → x.call.held? = some r →
        ¬ s'.Pending a.call a.eligible) ∧
    (∀ eligible r, e = .acquire eligible →
      s'.calls[s.calls.length]? = some ⟨eligible, .returned r⟩ →
      ∀ c eligible', s'.Pending c eligible' → eligible'.accepts r = false) ∧
    -- no free slot beside a waiter that accepts it
    ((∃ eligible, e = .acquire eligible) ∨ (∃ c, e = .release c) ∨ e = .tick → s'.Settled) ∧
    (∀ c, (e = .resume c ∨ ∃ cause, e = .interrupt c cause) → s.Settled → s'.Settled) ∧
    -- leaving the queue does not reorder the others
    (∀ c cause, e = .interrupt c cause → s'.pool.waiters = s.pool.waiters) ∧
    ∀ c, e = .resume c → s'.pool.waiters.Sublist s.pool.waiters ∧
      ∀ a ∈ s'.pool.waiters, ∀ b ∈ s'.pool.waiters,
        (Deque.Before s'.pool.waiters a b ↔ Deque.Before s.pool.waiters a b) := by
  have inv := inv_of_reachable reached
  have after := inv_step inv run
  refine ⟨noOvertaking_step inv run, ?_, ?_, ?_, ?_, ?_, ?_⟩
  · intro a b before first second sub x r called held still
    obtain ⟨new, grants, -⟩ := new_grants run
    obtain ⟨g, member, served, -⟩ := after.granted b.call x.eligible x.call r called held
    rw [grants] at member
    rcases List.mem_append.mp member with earlier | recent
    · obtain ⟨y, found, done⟩ := inv.answered g earlier
      rw [served, second] at found
      cases found
      cases done
    · obtain ⟨ahead, behind, rfl⟩ := List.append_of_mem recent
      obtain ⟨g', inside, same⟩ :=
        noOvertaking_step inv run a b before first sub ahead g behind grants served
      obtain ⟨y, found, done⟩ := after.answered g' (by rw [grants]; simp [inside])
      rw [same, still] at found
      cases found
      cases done
  · rintro eligible r rfl returned c eligible' pending
    cases run
    exact newcomer_takes_leftover inv returned pending
  · rintro (⟨eligible, rfl⟩ | ⟨c, rfl⟩ | rfl)
    · cases run; exact settled_acquire inv eligible
    · obtain ⟨eligible, r, called, rfl⟩ := releaseHeld_cases run
      exact settled_release inv called rfl
    · cases run; exact (promoted_tick s).settled inv
  · rintro c (rfl | ⟨cause, rfl⟩) settled
    · exact settled_resume inv settled run
    · exact settled_interrupt settled run
  · rintro c cause rfl
    obtain ⟨eligible, w, -, rfl⟩ := interrupt_cases run
    rfl
  · rintro c rfl
    have sub := resume_waiters_sublist run
    exact ⟨sub, fun a left b right =>
      ⟨fun before => before.mono sub, fun before => before.restrict sub inv.waiters_nodup left right⟩⟩

/-- With the one slot taken, two callers wait; the release serves the first of them. -/
theorem pool_queue_discipline_two_waiters :
    PoolState.NoOvertaking (((oneWorker.acquire none).acquire none).acquire none)
        ((((oneWorker.acquire none).acquire none).acquire none).setCall 0 .ended |>.release "n") ∧
      ((((oneWorker.acquire none).acquire none).acquire none).setCall 0 .ended
        |>.release "n").pool.waiters.map Waiter.call = [2] :=
  ⟨(pool_queue_discipline (e := .release 0) (.step (e := .acquire none) (.step (e := .acquire none)
    (.step (e := .acquire none) (.init ⟨_, _, _, _, rfl⟩) trivial rfl) trivial rfl) trivial rfl)
    (by rfl)).1, by decide⟩

end Oumigo
