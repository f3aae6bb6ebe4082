import Oumigo.Tunnel.Registry

/-!
# Who holds a tunnel connection

`TunnelState.Inv` is what every interleaving of the registry's sections keeps:
the idle queue is a duplicate-free part of the node's live set and nobody has
been given any of it, a connection is given out at most once and only to a
caller of its own node, and a pending caller sits in its node's queue, which is
in arrival order, with nothing idle beside it.
-/

namespace Oumigo

namespace TunnelState

/-- Call `f` waits for a connection of node `n`. -/
def Pending (s : TunnelState) (f : CallId) (n : NodeId) : Prop :=
  s.calls[f]? = some ⟨n, .suspended .pending⟩

/-- Call `f` has been given connection `c`, and has not raised since. -/
def Holds (s : TunnelState) (f : CallId) (c : ConnId) : Prop :=
  ∃ call, s.calls[f]? = some call ∧ call.call.held? = some c

structure Inv (s : TunnelState) : Prop where
  known : ∀ n, ∀ c ∈ s.reg.all n, ∃ conn, s.reg.conns[c]? = some conn ∧ conn.nodeId = n
  all_nodup : ∀ n, (s.reg.all n).Nodup
  idle_subset : ∀ n, s.reg.idle n ⊆ s.reg.all n
  idle_nodup : ∀ n, (s.reg.idle n).Nodup
  idle_free : ∀ n, ∀ c ∈ s.reg.idle n, ∀ conn, s.reg.conns[c]? = some conn →
    conn.borrowed = false
  handed_nodup : (s.handed.map Prod.snd).Nodup
  handed : ∀ f c, (f, c) ∈ s.handed → ∃ conn call, s.reg.conns[c]? = some conn ∧
    conn.borrowed = true ∧ s.calls[f]? = some call ∧ call.nodeId = conn.nodeId
  holds_handed : ∀ f c, s.Holds f c → (f, c) ∈ s.handed
  waiting : ∀ n, ∀ f ∈ s.reg.waiters n, ∃ call, s.calls[f]? = some call ∧ call.nodeId = n
  arrival : ∀ n, (s.reg.waiters n).Pairwise (· < ·)
  queued : ∀ f n, s.Pending f n → f ∈ s.reg.waiters n
  starved : ∀ f n, s.Pending f n → s.reg.idle n = []

theorem inv_initial : initial.Inv where
  known := fun _ _ member => nomatch member
  all_nodup := fun _ => List.nodup_nil
  idle_subset := fun _ _ member => nomatch member
  idle_nodup := fun _ => List.nodup_nil
  idle_free := fun _ _ member => nomatch member
  handed_nodup := List.nodup_nil
  handed := fun _ _ member => nomatch member
  holds_handed := fun _ _ ⟨_, found, _⟩ => nomatch found
  waiting := fun _ _ member => nomatch member
  arrival := fun _ => List.Pairwise.nil
  queued := fun _ _ found => nomatch found
  starved := fun _ _ found => nomatch found

variable {s : TunnelState}

/-- A connection in the idle queue was given to nobody. -/
theorem Inv.not_handed_of_idle (inv : s.Inv) {n : NodeId} {c : ConnId}
    (idle : c ∈ s.reg.idle n) (f : CallId) : (f, c) ∉ s.handed := by
  intro member
  obtain ⟨conn, _, found, borrowed, _⟩ := inv.handed f c member
  rw [inv.idle_free n c idle conn found] at borrowed
  cases borrowed

/-- A connection that does not exist yet was given to nobody. -/
theorem Inv.not_handed_of_fresh (inv : s.Inv) {c : ConnId} (fresh : s.reg.conns[c]? = none)
    (f : CallId) : (f, c) ∉ s.handed := by
  intro member
  obtain ⟨conn, _, found, _⟩ := inv.handed f c member
  rw [fresh] at found
  cases found

theorem Inv.not_mem_all_of_fresh (inv : s.Inv) {c : ConnId} (fresh : s.reg.conns[c]? = none)
    (n : NodeId) : c ∉ s.reg.all n := by
  intro member
  obtain ⟨conn, found, _⟩ := inv.known n c member
  rw [fresh] at found
  cases found

theorem futureDone_eq_false {calls : List TunnelCall} {f : CallId} :
    futureDone calls f = false ↔ ∃ n, calls[f]? = some ⟨n, .suspended .pending⟩ := by
  unfold futureDone
  cases found : calls[f]? with
  | none => simp
  | some c =>
      obtain ⟨n, call⟩ := c
      simp

/-! ## Replacing one call -/

section SetCall

variable {f g : CallId} {c : ConnId} {n : NodeId} {call : Asyncio.Call ConnId}

theorem setCall_nodeId (f : CallId) (call : Asyncio.Call ConnId) {old : TunnelCall}
    (called : s.calls[g]? = some old) :
    ∃ new, (s.setCall f call).calls[g]? = some new ∧ new.nodeId = old.nodeId := by
  refine ⟨if f = g then { old with call := call } else old, ?_, by split <;> rfl⟩
  rw [getElem?_setCall, called]
  rfl

theorem holds_setCall (holds : (s.setCall f call).Holds g c) :
    (g ≠ f ∧ s.Holds g c) ∨ (g = f ∧ call.held? = some c) := by
  obtain ⟨new, called, held⟩ := holds
  rw [getElem?_setCall] at called
  obtain ⟨old, found, rfl⟩ := Option.map_eq_some_iff.mp called
  by_cases same : f = g
  · rw [if_pos same] at held
    exact Or.inr ⟨same.symm, held⟩
  · rw [if_neg same] at held
    exact Or.inl ⟨Ne.symm same, old, found, held⟩

theorem pending_setCall (pending : (s.setCall f call).Pending g n) :
    (g ≠ f ∧ s.Pending g n) ∨ (g = f ∧ call = .suspended .pending) := by
  unfold Pending at pending
  rw [getElem?_setCall] at pending
  obtain ⟨old, found, eq⟩ := Option.map_eq_some_iff.mp pending
  by_cases same : f = g
  · rw [if_pos same] at eq
    exact Or.inr ⟨same.symm, congrArg TunnelCall.call eq⟩
  · rw [if_neg same] at eq
    exact Or.inl ⟨Ne.symm same, found.trans (congrArg some eq)⟩

end SetCall

/-! ## A new connection -/

/-- The state after a new connection of node `n` goes to the waiter `f`. -/
def handedOver (s : TunnelState) (n : NodeId) (f : CallId) (rest : List CallId) :
    TunnelState where
  reg :=
    { conns := s.reg.conns ++ [{ nodeId := n, borrowed := true }]
      idle := s.reg.idle
      all := Function.update s.reg.all n (s.reg.all n ++ [s.reg.conns.length])
      waiters := Function.update s.reg.waiters n rest }
  calls := (s.setCall f (.suspended (.resolved s.reg.conns.length))).calls
  handed := s.handed ++ [(f, s.reg.conns.length)]

/-- The state after a new connection of node `n` is parked. -/
def parked (s : TunnelState) (n : NodeId) : TunnelState where
  reg :=
    { conns := s.reg.conns ++ [{ nodeId := n }]
      idle := Function.update s.reg.idle n (s.reg.idle n ++ [s.reg.conns.length])
      all := Function.update s.reg.all n (s.reg.all n ++ [s.reg.conns.length])
      waiters := Function.update s.reg.waiters n [] }
  calls := s.calls
  handed := s.handed

/-- A new connection goes to the first waiter that is still pending, and is
parked only when there is none. -/
theorem add_cases (s : TunnelState) (n : NodeId) :
    (∃ f dropped rest m, s.reg.waiters n = dropped ++ f :: rest ∧ s.Pending f m ∧
      (∀ d ∈ dropped, futureDone s.calls d = true) ∧ s.add n = s.handedOver n f rest) ∨
    ((∀ f ∈ s.reg.waiters n, futureDone s.calls f = true) ∧ s.add n = s.parked n) := by
  unfold add
  cases popped : Deque.popUntil (fun f => !futureDone s.calls f) (s.reg.waiters n) with
  | mk result rest =>
    cases result with
    | some f =>
      obtain ⟨found, dropped, queue, skipped⟩ := Deque.popUntil_some popped
      obtain ⟨m, pending⟩ := futureDone_eq_false.mp (by simpa using found)
      refine Or.inl ⟨f, dropped, rest, m, queue, pending, by simpa using skipped, ?_⟩
      simp [handedOver, TunnelRegistry.borrow, setCall, Deque.modify_concat]
    | none =>
      obtain ⟨rfl, skipped⟩ := Deque.popUntil_none popped
      exact Or.inr ⟨by simpa using skipped, rfl⟩

variable {n : NodeId}

theorem mem_update_concat {all : NodeId → List ConnId} {n n' : NodeId} {c x : ConnId} :
    c ∈ Function.update all n (all n ++ [x]) n' ↔ c ∈ all n' ∨ (n' = n ∧ c = x) := by
  by_cases same : n' = n
  · subst same
    simp
  · simp [same]

/-- The queue a new connection leaves is the rest of the node's old one. -/
theorem sublist_update {waiters : NodeId → List CallId} {queue : List CallId}
    (sub : queue.Sublist (waiters n)) (n' : NodeId) :
    (Function.update waiters n queue n').Sublist (waiters n') := by
  by_cases same : n' = n
  · subst same
    rw [Function.update_self]
    exact sub
  · rw [Function.update_of_ne same]

/-- The live sets after `add`, shared by both of its outcomes. -/
theorem Inv.known_add (inv : s.Inv) (conn : TunnelConn) (at_n : conn.nodeId = n) :
    ∀ n', ∀ c ∈ Function.update s.reg.all n (s.reg.all n ++ [s.reg.conns.length]) n',
      ∃ conn', (s.reg.conns ++ [conn])[c]? = some conn' ∧ conn'.nodeId = n' := by
  intro n' c member
  rcases mem_update_concat.mp member with old | ⟨rfl, rfl⟩
  · obtain ⟨conn', found, node⟩ := inv.known n' c old
    exact ⟨conn', Deque.getElem?_append_of_some found, node⟩
  · exact ⟨conn, List.getElem?_concat_length, at_n⟩

theorem Inv.all_nodup_add (inv : s.Inv) (n' : NodeId) :
    (Function.update s.reg.all n (s.reg.all n ++ [s.reg.conns.length]) n').Nodup := by
  by_cases same : n' = n
  · subst same
    rw [Function.update_self]
    exact Deque.nodup_concat
      (inv.not_mem_all_of_fresh Deque.getElem?_length_eq_none n') (inv.all_nodup n')
  · rw [Function.update_of_ne same]
    exact inv.all_nodup n'

theorem Inv.handedOver (inv : s.Inv) {f : CallId} {dropped rest : List CallId} {m : NodeId}
    (queue : s.reg.waiters n = dropped ++ f :: rest) (pending : s.Pending f m)
    (skipped : ∀ d ∈ dropped, futureDone s.calls d = true) :
    (s.handedOver n f rest).Inv := by
  have shorter : ∀ n', ((s.handedOver n f rest).reg.waiters n').Sublist (s.reg.waiters n') :=
    sublist_update (queue ▸ (List.sublist_cons_self f rest).trans
      (List.sublist_append_right dropped _))
  have at_n : m = n := by
    obtain ⟨call, called, node⟩ := inv.waiting n f (by simp [queue])
    cases pending.symm.trans called
    exact node
  exact {
    known := inv.known_add _ rfl
    all_nodup := inv.all_nodup_add
    idle_subset := fun n' c member =>
      mem_update_concat.mpr (Or.inl (inv.idle_subset n' member))
    idle_nodup := inv.idle_nodup
    idle_free := fun n' c member conn found => by
      rcases Deque.getElem?_concat_cases found with old | ⟨rfl, -⟩
      · exact inv.idle_free n' c member conn old
      · exact (inv.not_mem_all_of_fresh Deque.getElem?_length_eq_none n'
          (inv.idle_subset n' member)).elim
    handed_nodup := by
      change ((s.handed ++ [_]).map Prod.snd).Nodup
      rw [List.map_append]
      refine Deque.nodup_concat (fun member => ?_) inv.handed_nodup
      obtain ⟨⟨g, c⟩, given, rfl⟩ := List.mem_map.mp member
      exact inv.not_handed_of_fresh Deque.getElem?_length_eq_none g given
    handed := fun g c member => by
      rcases List.mem_append.mp member with old | new
      · obtain ⟨conn, call, found, borrowed, called, node⟩ := inv.handed g c old
        obtain ⟨call', called', node'⟩ := setCall_nodeId f _ called
        exact ⟨conn, call', Deque.getElem?_append_of_some found, borrowed, called',
          node'.trans node⟩
      · cases List.mem_singleton.mp new
        obtain ⟨call', called', node'⟩ := setCall_nodeId f _ pending
        exact ⟨_, call', List.getElem?_concat_length, rfl, called', node'.trans at_n⟩
    holds_handed := fun g c holds => by
      rcases holds_setCall holds with ⟨-, old⟩ | ⟨rfl, held⟩
      · exact List.mem_append_left _ (inv.holds_handed g c old)
      · cases held
        exact List.mem_append_right _ (List.mem_singleton.mpr rfl)
    waiting := fun n' g member => by
      obtain ⟨call, called, node⟩ := inv.waiting n' g ((shorter n').subset member)
      obtain ⟨call', called', node'⟩ := setCall_nodeId f _ called
      exact ⟨call', called', node'.trans node⟩
    arrival := fun n' => (inv.arrival n').sublist (shorter n')
    queued := fun g n' waits => by
      rcases pending_setCall waits with ⟨other, old⟩ | ⟨-, resolved⟩
      · have member := inv.queued g n' old
        by_cases same : n' = n
        · subst same
          rw [queue] at member
          change g ∈ Function.update s.reg.waiters n' rest n'
          rw [Function.update_self]
          rcases List.mem_append.mp member with done | later
          · have done := skipped g done
            rw [futureDone_eq_false.mpr ⟨n', old⟩] at done
            cases done
          · exact (List.mem_cons.mp later).resolve_left other
        · change g ∈ Function.update s.reg.waiters n rest n'
          rw [Function.update_of_ne same]
          exact member
      · cases resolved
    starved := fun g n' waits => by
      rcases pending_setCall waits with ⟨-, old⟩ | ⟨-, resolved⟩
      · exact inv.starved g n' old
      · cases resolved }

theorem Inv.parked (inv : s.Inv) (skipped : ∀ f ∈ s.reg.waiters n, futureDone s.calls f = true) :
    (s.parked n).Inv := by
  have nobody : ∀ g, ¬ s.Pending g n := fun g pending => by
    have done := skipped g (inv.queued g n pending)
    rw [futureDone_eq_false.mpr ⟨n, pending⟩] at done
    cases done
  have fresh : ∀ n', s.reg.conns.length ∉ s.reg.all n' :=
    inv.not_mem_all_of_fresh Deque.getElem?_length_eq_none
  exact {
    known := inv.known_add _ rfl
    all_nodup := inv.all_nodup_add
    idle_subset := fun n' c member => by
      rcases mem_update_concat.mp member with old | new
      · exact mem_update_concat.mpr (Or.inl (inv.idle_subset n' old))
      · exact mem_update_concat.mpr (Or.inr new)
    idle_nodup := fun n' => by
      change (Function.update s.reg.idle n (s.reg.idle n ++ [s.reg.conns.length]) n').Nodup
      by_cases same : n' = n
      · subst same
        rw [Function.update_self]
        exact Deque.nodup_concat (fun member => fresh n' (inv.idle_subset n' member))
          (inv.idle_nodup n')
      · rw [Function.update_of_ne same]
        exact inv.idle_nodup n'
    idle_free := fun n' c member conn found => by
      rcases mem_update_concat.mp member with old | ⟨rfl, rfl⟩
      · rcases Deque.getElem?_concat_cases found with found | ⟨rfl, -⟩
        · exact inv.idle_free n' c old conn found
        · exact (fresh n' (inv.idle_subset n' old)).elim
      · rcases Deque.getElem?_concat_cases found with found | ⟨-, rfl⟩
        · rw [Deque.getElem?_length_eq_none] at found
          cases found
        · rfl
    handed_nodup := inv.handed_nodup
    handed := fun g c member => by
      obtain ⟨conn, call, found, rest⟩ := inv.handed g c member
      exact ⟨conn, call, Deque.getElem?_append_of_some found, rest⟩
    holds_handed := inv.holds_handed
    waiting := fun n' g member => inv.waiting n' g
      ((sublist_update (List.nil_sublist _) n').subset member)
    arrival := fun n' => (inv.arrival n').sublist (sublist_update (List.nil_sublist _) n')
    queued := fun g n' waits => by
      by_cases same : n' = n
      · exact (nobody g (same ▸ waits)).elim
      · change g ∈ Function.update s.reg.waiters n [] n'
        rw [Function.update_of_ne same]
        exact inv.queued g n' waits
    starved := fun g n' waits => by
      by_cases same : n' = n
      · exact (nobody g (same ▸ waits)).elim
      · change Function.update s.reg.idle n _ n' = []
        rw [Function.update_of_ne same]
        exact inv.starved g n' waits }

theorem Inv.add (inv : s.Inv) (n : NodeId) : (s.add n).Inv := by
  rcases s.add_cases n with ⟨f, dropped, rest, m, queue, pending, skipped, result⟩ |
    ⟨skipped, result⟩
  · rw [result]
    exact inv.handedOver queue pending skipped
  · rw [result]
    exact inv.parked skipped

/-! ## A caller asks for a connection -/

/-- The state after a caller takes the parked connection `c` of node `n`. -/
def taken (s : TunnelState) (n : NodeId) (c : ConnId) (rest : List ConnId) : TunnelState where
  reg := { s.reg.borrow c with idle := Function.update s.reg.idle n rest }
  calls := s.calls ++ [⟨n, .returned c⟩]
  handed := s.handed ++ [(s.calls.length, c)]

/-- The state after a caller joins the queue of node `n`. -/
def joined (s : TunnelState) (n : NodeId) : TunnelState where
  reg :=
    { s.reg with
      idle := Function.update s.reg.idle n []
      waiters := Function.update s.reg.waiters n (s.reg.waiters n ++ [s.calls.length]) }
  calls := s.calls ++ [⟨n, .suspended .pending⟩]
  handed := s.handed

/-- A caller gets the first parked connection that is still open, and joins the
queue only when there is none. -/
theorem acquire_cases (s : TunnelState) (n : NodeId) :
    (∃ c dropped rest, s.reg.idle n = dropped ++ c :: rest ∧ s.reg.isClosed c = false ∧
      (∀ d ∈ dropped, s.reg.isClosed d = true) ∧ s.acquire n = s.taken n c rest) ∨
    ((∀ c ∈ s.reg.idle n, s.reg.isClosed c = true) ∧ s.acquire n = s.joined n) := by
  unfold acquire
  cases popped : Deque.popUntil (fun c => !s.reg.isClosed c) (s.reg.idle n) with
  | mk result rest =>
    cases result with
    | some c =>
      obtain ⟨found, dropped, queue, skipped⟩ := Deque.popUntil_some popped
      exact Or.inl ⟨c, dropped, rest, queue, by simpa using found, by simpa using skipped, rfl⟩
    | none =>
      obtain ⟨rfl, skipped⟩ := Deque.popUntil_none popped
      exact Or.inr ⟨by simpa using skipped, rfl⟩

theorem Inv.node_unique (inv : s.Inv) {n n' : NodeId} {c : ConnId} (left : c ∈ s.reg.all n)
    (right : c ∈ s.reg.all n') : n = n' := by
  obtain ⟨conn, found, rfl⟩ := inv.known n c left
  obtain ⟨conn', found', rfl⟩ := inv.known n' c right
  cases found.symm.trans found'
  rfl

theorem holds_concat {x : TunnelCall} {calls : List TunnelCall} {f : CallId} {c : ConnId}
    (same : s.calls = calls ++ [x]) (holds : s.Holds f c) :
    (∃ call, calls[f]? = some call ∧ call.call.held? = some c) ∨
      (f = calls.length ∧ x.call.held? = some c) := by
  obtain ⟨call, called, held⟩ := holds
  rw [same] at called
  rcases Deque.getElem?_concat_cases called with old | ⟨at_end, rfl⟩
  · exact Or.inl ⟨call, old, held⟩
  · exact Or.inr ⟨at_end, held⟩

theorem Inv.taken (inv : s.Inv) {c : ConnId} {dropped rest : List ConnId}
    (queue : s.reg.idle n = dropped ++ c :: rest) : (s.taken n c rest).Inv := by
  have idle : c ∈ s.reg.idle n := by simp [queue]
  have shorter : ∀ n', ((s.taken n c rest).reg.idle n').Sublist (s.reg.idle n') :=
    sublist_update (queue ▸ (List.sublist_cons_self c rest).trans
      (List.sublist_append_right dropped _))
  -- no idle queue keeps the connection: its own had it once, other nodes never
  have gone : ∀ n', c ∉ (s.taken n c rest).reg.idle n' := fun n' member => by
    have there := inv.idle_subset n' ((shorter n').subset member)
    cases inv.node_unique (inv.idle_subset n idle) there
    change c ∈ Function.update s.reg.idle n rest n at member
    rw [Function.update_self] at member
    have distinct := inv.idle_nodup n
    rw [queue] at distinct
    exact (List.nodup_cons.mp (List.nodup_append.mp distinct).2.1).1 member
  obtain ⟨own, ownFound, ownNode⟩ := inv.known n c (inv.idle_subset n idle)
  exact {
    known := fun n' d member => by
      obtain ⟨conn, found, node⟩ := inv.known n' d member
      refine ⟨_, (TunnelRegistry.getElem?_borrow).trans (congrArg _ found), ?_⟩
      split <;> exact node
    all_nodup := inv.all_nodup
    idle_subset := fun n' d member => inv.idle_subset n' ((shorter n').subset member)
    idle_nodup := fun n' => (inv.idle_nodup n').sublist (shorter n')
    idle_free := fun n' d member conn found => by
      rw [show (s.taken n c rest).reg.conns = (s.reg.borrow c).conns from rfl,
        TunnelRegistry.getElem?_borrow] at found
      obtain ⟨old, before, rfl⟩ := Option.map_eq_some_iff.mp found
      split
      · next same => exact (gone n' (same ▸ member)).elim
      · exact inv.idle_free n' d ((shorter n').subset member) old before
    handed_nodup := by
      change ((s.handed ++ [_]).map Prod.snd).Nodup
      rw [List.map_append]
      refine Deque.nodup_concat (fun member => ?_) inv.handed_nodup
      obtain ⟨⟨g, d⟩, given, rfl⟩ := List.mem_map.mp member
      exact inv.not_handed_of_idle idle g given
    handed := fun g d member => by
      rcases List.mem_append.mp member with old | new
      · obtain ⟨conn, call, found, borrowed, called, node⟩ := inv.handed g d old
        refine ⟨_, call, (TunnelRegistry.getElem?_borrow).trans (congrArg _ found), ?_,
          Deque.getElem?_append_of_some called, ?_⟩
        · split <;> simp [borrowed]
        · split <;> exact node
      · cases List.mem_singleton.mp new
        refine ⟨_, _, (TunnelRegistry.getElem?_borrow).trans (congrArg _ ownFound), ?_,
          List.getElem?_concat_length, ?_⟩
        · simp
        · simp [ownNode]
    holds_handed := fun g d holds => by
      rcases holds_concat rfl holds with ⟨call, called, held⟩ | ⟨rfl, held⟩
      · exact List.mem_append_left _ (inv.holds_handed g d ⟨call, called, held⟩)
      · cases held
        exact List.mem_append_right _ (List.mem_singleton.mpr rfl)
    waiting := fun n' g member => by
      obtain ⟨call, called, node⟩ := inv.waiting n' g member
      exact ⟨call, Deque.getElem?_append_of_some called, node⟩
    arrival := inv.arrival
    queued := fun g n' waits => by
      rcases Deque.getElem?_concat_cases waits with old | ⟨-, new⟩
      · exact inv.queued g n' old
      · cases new
    starved := fun g n' waits => by
      rcases Deque.getElem?_concat_cases waits with old | ⟨-, new⟩
      · have none_idle := inv.starved g n' old
        exact List.eq_nil_of_subset_nil (none_idle ▸ (shorter n').subset)
      · cases new }

theorem Inv.joined (inv : s.Inv) : (s.joined n).Inv := by
  have shorter : ∀ n', ((s.joined n).reg.idle n').Sublist (s.reg.idle n') :=
    sublist_update (List.nil_sublist _)
  exact {
    known := inv.known
    all_nodup := inv.all_nodup
    idle_subset := fun n' d member => inv.idle_subset n' ((shorter n').subset member)
    idle_nodup := fun n' => (inv.idle_nodup n').sublist (shorter n')
    idle_free := fun n' d member => inv.idle_free n' d ((shorter n').subset member)
    handed_nodup := inv.handed_nodup
    handed := fun g d member => by
      obtain ⟨conn, call, found, borrowed, called, node⟩ := inv.handed g d member
      exact ⟨conn, call, found, borrowed, Deque.getElem?_append_of_some called, node⟩
    holds_handed := fun g d holds => by
      rcases holds_concat rfl holds with ⟨call, called, held⟩ | ⟨-, held⟩
      · exact inv.holds_handed g d ⟨call, called, held⟩
      · cases held
    waiting := fun n' g member => by
      rcases mem_update_concat.mp member with old | ⟨rfl, rfl⟩
      · obtain ⟨call, called, node⟩ := inv.waiting n' g old
        exact ⟨call, Deque.getElem?_append_of_some called, node⟩
      · exact ⟨_, List.getElem?_concat_length, rfl⟩
    arrival := fun n' => by
      change (Function.update s.reg.waiters n _ n').Pairwise (· < ·)
      by_cases same : n' = n
      · subst same
        rw [Function.update_self]
        refine List.pairwise_append.mpr ⟨inv.arrival n', List.pairwise_singleton _ _, ?_⟩
        intro g member d new
        rw [List.mem_singleton.mp new]
        obtain ⟨call, called, -⟩ := inv.waiting n' g member
        exact Deque.lt_length_of_some called
      · rw [Function.update_of_ne same]
        exact inv.arrival n'
    queued := fun g n' waits => by
      refine mem_update_concat.mpr ?_
      rcases Deque.getElem?_concat_cases waits with old | ⟨rfl, new⟩
      · exact Or.inl (inv.queued g n' old)
      · cases new
        exact Or.inr ⟨rfl, rfl⟩
    starved := fun g n' waits => by
      rcases Deque.getElem?_concat_cases waits with old | ⟨-, new⟩
      · have none_idle := inv.starved g n' old
        exact List.eq_nil_of_subset_nil (none_idle ▸ (shorter n').subset)
      · cases new
        exact Function.update_self .. }

theorem Inv.acquire (inv : s.Inv) (n : NodeId) : (s.acquire n).Inv := by
  rcases s.acquire_cases n with ⟨c, dropped, rest, queue, -, -, result⟩ | ⟨-, result⟩
  · rw [result]
    exact inv.taken queue
  · rw [result]
    exact inv.joined

/-! ## A suspended caller runs again, or is interrupted -/

/-- A caller that can run returns the connection in its future or raises; either
way it has left its node's queue. -/
theorem resume_cases {s' : TunnelState} {f : CallId} (run : s.resume f = some s') :
    ∃ n w, s.calls[f]? = some ⟨n, .suspended w⟩ ∧
      ((∃ c, w.resume = some (.ok c) ∧ s' = (s.leave n f).setCall f (.returned c)) ∨
        ∃ cause, w.resume = some (.error cause) ∧ s' = (s.leave n f).setCall f .ended) := by
  unfold resume at run
  split at run
  · next n w called =>
    refine ⟨n, w, called, ?_⟩
    split at run
    · next c resumed => exact Or.inl ⟨c, resumed, (Option.some.inj run).symm⟩
    · next cause resumed => exact Or.inr ⟨cause, resumed, (Option.some.inj run).symm⟩
    · cases run
  · cases run

theorem interrupt_cases {s' : TunnelState} {f : CallId} {cause : Asyncio.Interrupt}
    (run : s.interrupt f cause = some s') :
    ∃ n w, s.calls[f]? = some ⟨n, .suspended w⟩ ∧
      s' = s.setCall f (.suspended (w.interrupt cause)) := by
  unfold interrupt at run
  split at run
  · next n w called => exact ⟨n, w, called, (Option.some.inj run).symm⟩
  · cases run

/-- Replacing a call by one that is not queued and holds nothing new. -/
theorem Inv.setCall (inv : s.Inv) {f : CallId} {old : TunnelCall}
    {call : Asyncio.Call ConnId} (called : s.calls[f]? = some old)
    (settled : call ≠ .suspended .pending)
    (kept : ∀ c, call.held? = some c → old.call.held? = some c) :
    (s.setCall f call).Inv where
  known := inv.known
  all_nodup := inv.all_nodup
  idle_subset := inv.idle_subset
  idle_nodup := inv.idle_nodup
  idle_free := inv.idle_free
  handed_nodup := inv.handed_nodup
  handed := fun g d member => by
    obtain ⟨conn, call', found, borrowed, called', node⟩ := inv.handed g d member
    obtain ⟨new, there, node'⟩ := setCall_nodeId f call called'
    exact ⟨conn, new, found, borrowed, there, node'.trans node⟩
  holds_handed := fun g d holds => by
    rcases holds_setCall holds with ⟨-, before⟩ | ⟨rfl, held⟩
    · exact inv.holds_handed g d before
    · exact inv.holds_handed g d ⟨old, called, kept d held⟩
  waiting := fun n' g member => by
    obtain ⟨call', called', node⟩ := inv.waiting n' g member
    obtain ⟨new, there, node'⟩ := setCall_nodeId f call called'
    exact ⟨new, there, node'.trans node⟩
  arrival := inv.arrival
  queued := fun g n' waits => by
    rcases pending_setCall waits with ⟨-, before⟩ | ⟨-, pending⟩
    · exact inv.queued g n' before
    · exact (settled pending).elim
  starved := fun g n' waits => by
    rcases pending_setCall waits with ⟨-, before⟩ | ⟨-, pending⟩
    · exact inv.starved g n' before
    · exact (settled pending).elim

/-- A call that is not pending may leave its queue. -/
theorem Inv.leave (inv : s.Inv) {f : CallId} (settled : ∀ m, ¬ s.Pending f m) (n : NodeId) :
    (s.leave n f).Inv := by
  have shorter : ∀ n', ((s.leave n f).reg.waiters n').Sublist (s.reg.waiters n') :=
    sublist_update List.erase_sublist
  exact {
    known := inv.known
    all_nodup := inv.all_nodup
    idle_subset := inv.idle_subset
    idle_nodup := inv.idle_nodup
    idle_free := inv.idle_free
    handed_nodup := inv.handed_nodup
    handed := inv.handed
    holds_handed := inv.holds_handed
    waiting := fun n' g member => inv.waiting n' g ((shorter n').subset member)
    arrival := fun n' => (inv.arrival n').sublist (shorter n')
    queued := fun g n' waits => by
      have member := inv.queued g n' waits
      change g ∈ Function.update s.reg.waiters n _ n'
      by_cases same : n' = n
      · subst same
        rw [Function.update_self]
        have other : g ≠ f := fun eq => settled n' (eq ▸ waits)
        exact (List.mem_erase_of_ne other).mpr member
      · rw [Function.update_of_ne same]
        exact member
    starved := inv.starved }

theorem Inv.resume (inv : s.Inv) {f : CallId} {s' : TunnelState}
    (run : s.resume f = some s') : s'.Inv := by
  obtain ⟨n, w, called, result⟩ := resume_cases run
  have left : w ≠ .pending → (s.leave n f).Inv := fun running =>
    inv.leave (fun m pending => by
      cases called.symm.trans pending
      exact running rfl) n
  rcases result with ⟨c, resumed, rfl⟩ | ⟨cause, resumed, rfl⟩
  · refine (left (Asyncio.WaitFor.ne_pending_of_resume resumed)).setCall called (by simp) ?_
    intro d held
    cases held
    exact Asyncio.WaitFor.result?_of_resume_ok resumed
  · exact (left (Asyncio.WaitFor.ne_pending_of_resume resumed)).setCall called (by simp)
      fun d held => nomatch held

theorem Inv.interrupt (inv : s.Inv) {f : CallId} {cause : Asyncio.Interrupt}
    {s' : TunnelState} (run : s.interrupt f cause = some s') : s'.Inv := by
  obtain ⟨n, w, called, rfl⟩ := interrupt_cases run
  exact inv.setCall called (by simp) fun c held => by simpa using held

/-! ## A connection closes, or leaves the registry -/

theorem Inv.close (inv : s.Inv) (c : ConnId) : { s with reg := s.reg.close c }.Inv where
  known := fun n d member => by
    obtain ⟨conn, found, node⟩ := inv.known n d member
    refine ⟨_, (TunnelRegistry.getElem?_close).trans (congrArg _ found), ?_⟩
    split <;> exact node
  all_nodup := inv.all_nodup
  idle_subset := inv.idle_subset
  idle_nodup := inv.idle_nodup
  idle_free := fun n d member conn found => by
    rw [TunnelRegistry.getElem?_close] at found
    obtain ⟨old, before, rfl⟩ := Option.map_eq_some_iff.mp found
    split <;> exact inv.idle_free n d member old before
  handed_nodup := inv.handed_nodup
  handed := fun g d member => by
    obtain ⟨conn, call, found, borrowed, called, node⟩ := inv.handed g d member
    refine ⟨_, call, (TunnelRegistry.getElem?_close).trans (congrArg _ found), ?_, called, ?_⟩
    · split <;> exact borrowed
    · split <;> exact node
  holds_handed := inv.holds_handed
  waiting := inv.waiting
  arrival := inv.arrival
  queued := inv.queued
  starved := inv.starved

theorem Inv.remove (inv : s.Inv) (c : ConnId) (n : NodeId) :
    { s with reg := s.reg.remove c n }.Inv := by
  have live : ∀ n', ((s.reg.remove c n).all n').Sublist (s.reg.all n') :=
    sublist_update List.erase_sublist
  have shorter : ∀ n', ((s.reg.remove c n).idle n').Sublist (s.reg.idle n') :=
    sublist_update (by split <;> simp [List.erase_sublist])
  exact {
    known := fun n' d member => inv.known n' d ((live n').subset member)
    all_nodup := fun n' => (inv.all_nodup n').sublist (live n')
    idle_subset := fun n' d member => by
      change d ∈ Function.update s.reg.all n _ n'
      change d ∈ Function.update s.reg.idle n _ n' at member
      by_cases same : n' = n
      · subst same
        rw [Function.update_self] at member ⊢
        split at member
        · cases member
        · obtain ⟨other, inside⟩ := (inv.idle_nodup n').mem_erase_iff.mp member
          exact (List.mem_erase_of_ne other).mpr (inv.idle_subset n' inside)
      · rw [Function.update_of_ne same] at member ⊢
        exact inv.idle_subset n' member
    idle_nodup := fun n' => (inv.idle_nodup n').sublist (shorter n')
    idle_free := fun n' d member => inv.idle_free n' d ((shorter n').subset member)
    handed_nodup := inv.handed_nodup
    handed := inv.handed
    holds_handed := inv.holds_handed
    waiting := inv.waiting
    arrival := inv.arrival
    queued := inv.queued
    starved := fun g n' waits =>
      List.eq_nil_of_subset_nil (inv.starved g n' waits ▸ (shorter n').subset) }

/-- Every section of the source keeps the invariant. -/
theorem Inv.step (inv : s.Inv) {e : TunnelEvent} {s' : TunnelState}
    (run : s.step e = some s') : s'.Inv := by
  cases e with
  | add n => cases run; exact inv.add n
  | acquire n => cases run; exact inv.acquire n
  | resume f => exact inv.resume run
  | interrupt f cause => exact inv.interrupt run
  | remove c =>
    obtain ⟨conn, -, rfl⟩ := Option.map_eq_some_iff.mp run
    exact inv.remove c _
  | close c =>
    obtain ⟨conn, -, rfl⟩ := Option.map_eq_some_iff.mp run
    exact inv.close c

theorem inv_of_reachable {s : TunnelState} (reached : tunnelSystem.Reachable s) : s.Inv :=
  reached.invariant (fun _ start => start ▸ inv_initial) fun _ _ _ inv _ run => inv.step run

end TunnelState

end Oumigo
