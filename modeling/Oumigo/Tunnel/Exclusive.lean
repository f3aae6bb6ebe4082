import Oumigo.Tunnel.Handover

/-!
# Exclusivity and work conservation of the tunnel registry

In every state any interleaving reaches, a connection is given out at most once
and only to a caller of its own node, an idle connection was given to nobody, and
no caller waits beside an idle connection; and each step serves the waiters of a
node in arrival order and hands over no connection that was closed when it was
taken from the idle queue.
-/

namespace Oumigo

namespace TunnelState

variable {s s' : TunnelState} {e : TunnelEvent} {f g : CallId} {n : NodeId} {c : ConnId}

/-- A pending call holds nothing. -/
theorem Pending.not_holds (pending : s.Pending f n) : ¬ s.Holds f c := by
  rintro ⟨call, called, held⟩
  cases pending.symm.trans called
  cases held

/-- A caller that has joined the queue later waits behind the one before it. -/
theorem Inv.mem_dropped (inv : s.Inv) {dropped rest : List CallId}
    (queue : s.reg.waiters n = dropped ++ g :: rest) (ahead : f < g)
    (waits : f ∈ s.reg.waiters n) : f ∈ dropped := by
  have sorted := inv.arrival n
  rw [queue] at sorted waits
  rcases List.mem_append.mp waits with here | later
  · exact here
  · rcases List.mem_cons.mp later with rfl | later
    · exact (Nat.lt_irrefl _ ahead).elim
    · have behind := List.rel_of_pairwise_cons (List.pairwise_append.mp sorted).2.1 later
      exact (Nat.lt_asymm ahead behind).elim

/-- Only `add` gives a pending call a connection, and then to the first pending
waiter of the queue. -/
theorem Inv.served_in_order (inv : s.Inv) (run : s.step e = some s') (ahead : f < g)
    (first : s.Pending f n) (second : s.Pending g n) : ¬ s'.Holds g c := by
  intro holds
  cases e with
  | add m =>
    cases run
    rcases s.add_cases m with ⟨h, dropped, rest, k, queue, pending, skipped, result⟩ |
      ⟨-, result⟩
    · rw [result] at holds
      rcases holds_setCall holds with ⟨-, before⟩ | ⟨rfl, -⟩
      · exact second.not_holds before
      · obtain ⟨call, called, node⟩ := inv.waiting m g (by simp [queue])
        cases second.symm.trans called
        cases node
        have done := skipped f (inv.mem_dropped queue ahead (inv.queued f _ first))
        rw [futureDone_eq_false.mpr ⟨_, first⟩] at done
        cases done
    · rw [result] at holds
      exact second.not_holds holds
  | acquire m =>
    cases run
    have early := Deque.lt_length_of_some second
    rcases s.acquire_cases m with ⟨d, dropped, rest, queue, -, -, result⟩ | ⟨-, result⟩ <;>
    · rw [result] at holds
      rcases holds_concat rfl holds with before | ⟨rfl, -⟩
      · exact second.not_holds before
      · exact (Nat.lt_irrefl _ early).elim
  | resume h =>
    obtain ⟨m, w, called, ⟨d, resumed, rfl⟩ | ⟨cause, resumed, rfl⟩⟩ := resume_cases run <;>
    · rcases holds_setCall holds with ⟨-, before⟩ | ⟨rfl, -⟩
      · exact second.not_holds before
      · cases second.symm.trans called
        cases resumed
  | interrupt h cause =>
    obtain ⟨m, w, called, rfl⟩ := interrupt_cases run
    rcases holds_setCall holds with ⟨-, before⟩ | ⟨rfl, held⟩
    · exact second.not_holds before
    · cases second.symm.trans called
      cases held
  | remove d =>
    obtain ⟨conn, -, rfl⟩ := Option.map_eq_some_iff.mp run
    exact second.not_holds holds
  | close d =>
    obtain ⟨conn, -, rfl⟩ := Option.map_eq_some_iff.mp run
    exact second.not_holds holds

/-- The record of what was given out only grows. -/
theorem handed_mono (run : s.step e = some s') : s.handed <+: s'.handed := by
  cases e with
  | add m =>
    cases run
    rcases s.add_cases m with ⟨h, dropped, rest, k, -, -, -, result⟩ | ⟨-, result⟩
    · rw [result]; exact List.prefix_append _ _
    · rw [result]; exact List.prefix_rfl
  | acquire m =>
    cases run
    rcases s.acquire_cases m with ⟨d, dropped, rest, -, -, -, result⟩ | ⟨-, result⟩
    · rw [result]; exact List.prefix_append _ _
    · rw [result]; exact List.prefix_rfl
  | resume h =>
    obtain ⟨m, w, -, ⟨d, -, rfl⟩ | ⟨cause, -, rfl⟩⟩ := resume_cases run <;>
      exact List.prefix_rfl
  | interrupt h cause =>
    obtain ⟨m, w, -, rfl⟩ := interrupt_cases run
    exact List.prefix_rfl
  | remove d =>
    obtain ⟨conn, -, rfl⟩ := Option.map_eq_some_iff.mp run
    exact List.prefix_rfl
  | close d =>
    obtain ⟨conn, -, rfl⟩ := Option.map_eq_some_iff.mp run
    exact List.prefix_rfl

/-- A connection that `acquire` returns at once was open in the idle queue. -/
theorem acquire_open (returned : (s.acquire n).calls[s.calls.length]? = some ⟨n, .returned c⟩) :
    c ∈ s.reg.idle n ∧ s.reg.isClosed c = false := by
  rcases s.acquire_cases n with ⟨d, dropped, rest, queue, isOpen, -, result⟩ | ⟨-, result⟩
  · rw [result] at returned
    cases List.getElem?_concat_length.symm.trans returned
    exact ⟨by simp [queue], isOpen⟩
  · rw [result] at returned
    cases List.getElem?_concat_length.symm.trans returned

end TunnelState

open TunnelState in
/-- **Exclusivity and work conservation.**  The state clauses hold in every state
some interleaving reaches, the step clauses of every step taken from it. -/
theorem tunnel_exclusive_and_conserving {s : TunnelState}
    (reached : tunnelSystem.Reachable s) :
    -- given to at most one caller in its whole life, and to one of its own node
    (s.handed.map Prod.snd).Nodup ∧
    (∀ f c, (f, c) ∈ s.handed → ∃ conn call, s.reg.conns[c]? = some conn ∧
      s.calls[f]? = some call ∧ call.nodeId = conn.nodeId) ∧
    (∀ f c, s.Holds f c → (f, c) ∈ s.handed) ∧
    -- never idle and borrowed, never idle twice, idle only while live
    (∀ n, ∀ c ∈ s.reg.idle n, ∃ conn, s.reg.conns[c]? = some conn ∧ conn.borrowed = false ∧
      ∀ f, (f, c) ∉ s.handed) ∧
    (∀ n, (s.reg.idle n).Nodup ∧ s.reg.idle n ⊆ s.reg.all n) ∧
    -- nobody waits beside an open idle connection
    (∀ f n, s.Pending f n → ∀ c ∈ s.reg.idle n, s.reg.isClosed c = true) ∧
    ∀ e s', s.step e = some s' →
      s.handed <+: s'.handed ∧
      -- an earlier caller of the node is served first
      (∀ f g n c, f < g → s.Pending f n → s.Pending g n → ¬ s'.Holds g c) ∧
      -- what `acquire` returns at once was open when it left the idle queue
      ∀ n c, e = .acquire n → s'.calls[s.calls.length]? = some ⟨n, .returned c⟩ →
        c ∈ s.reg.idle n ∧ s.reg.isClosed c = false := by
  have inv := inv_of_reachable reached
  refine ⟨inv.handed_nodup, ?_, inv.holds_handed, ?_, ?_, ?_, ?_⟩
  · intro f c member
    obtain ⟨conn, call, found, -, called, node⟩ := inv.handed f c member
    exact ⟨conn, call, found, called, node⟩
  · intro n c idle
    obtain ⟨conn, found, -⟩ := inv.known n c (inv.idle_subset n idle)
    exact ⟨conn, found, inv.idle_free n c idle conn found, inv.not_handed_of_idle idle⟩
  · exact fun n => ⟨inv.idle_nodup n, inv.idle_subset n⟩
  · intro f n pending c idle
    rw [inv.starved f n pending] at idle
    cases idle
  · intro e s' run
    refine ⟨handed_mono run, fun f g n c ahead first second =>
      inv.served_in_order run ahead first second, ?_⟩
    rintro n c rfl returned
    cases run
    exact acquire_open returned

/-- Two callers wait, and the one connection that comes goes to the first. -/
theorem tunnel_exclusive_and_conserving_two_waiters :
    ((((TunnelState.initial.acquire "n").acquire "n").add "n").handed.map Prod.snd).Nodup ∧
      (((TunnelState.initial.acquire "n").acquire "n").add "n").handed = [(0, 0)] :=
  ⟨(tunnel_exclusive_and_conserving (.step (e := .add "n") (.step (e := .acquire "n")
      (.step (e := .acquire "n") (.init rfl) trivial rfl) trivial rfl) trivial rfl)).1, rfl⟩

end Oumigo
