/-
  Turntf.Relay.Channel — a reliable-ordered relay as the channel its applications are given.

  The pair of connections runs over a network that loses, repeats and reorders envelopes, with
  windows, acknowledgements and retransmissions at both ends. None of that is seen from above:
  what the `Send` and `Receive` calls of the two applications do in any run is a run of two
  first-in first-out queues (`messages_fifo`).
-/

import Turntf.Lib.Fifo
import Turntf.Relay.Closing

namespace Turntf.Relay

open Lts Ends

/-- What an application sees of its end: the messages whose `Send` returned nil, in that order,
    and the messages it has received. -/
def RelayConnection.history (c : RelayConnection) : Fifo.History Bytes :=
  ⟨queuedPayloads c.returns, c.recv.consumed⟩

def Pair.history (p : Pair) : Side → Fifo.History Bytes := fun x => (p x).history

section

variable {c c' : RelayConnection} {a : RelayConnection.Action}

theorem DispatchEffect.consumed (h : DispatchEffect c c') : c'.recv.consumed = c.recv.consumed := by
  cases h with
  | order _ _ _ ho => exact (order_frame ho).2.2.2.1
  | @release env =>
    show (c.recv.release env).consumed = _
    unfold Recv.release
    split <;> rfl
  | _ => rfl

/-- A message that is taken out of `recvCh` stays taken. -/
theorem StepEffect.consumed_grows (h : StepEffect c a c') : c.recv.consumed <+: c'.recv.consumed := by
  have htake : ∀ data rest, c.recv.consumed <+: (c.take data rest).recv.consumed :=
    fun _ _ => List.prefix_append _ _
  have hsame : c'.recv = c.recv → c.recv.consumed <+: c'.recv.consumed := by
    intro hr
    rw [hr]
  cases h with
  | packet => exact List.prefix_rfl
  | reader h => cases readerStep_effect h <;> exact List.prefix_rfl
  | dispatcher h => rw [h.consumed]
  | ackWorker h => exact hsame (ackStep_frame h).recv
  | sender _ rest => exact hsame rest.recv
  | @call call => cases call with
    | send data => cases data <;> exact hsame rfl
    | _ => exact hsame rfl
  | run _ h => cases h with
    | receive => exact htake _ _
    | _ => exact hsame rfl
  | take => exact htake _ _
  | _ => exact hsame rfl

end

section

variable {config : Side → RelayConfig} {relayID : String} {session : Side → SessionRef} {p : Pair}

theorem history_grows {ok : Pair → PairAction → Prop} {m : PairAction} {q : Pair}
    (h : Reach Pair.step ok (· = Pair.new config relayID session) p) (hs : p.step m = some q) :
    Fifo.Grows p.history q.history := by
  obtain ⟨hown, hother⟩ := stepAt_cases hs
  constructor <;> intro x <;> by_cases hx : x = m.1
  · subst hx
    exact (step_line (queued h m.1).cap hown).queued_grows
  · simp only [Pair.history, hother x hx, List.prefix_rfl]
  · subst hx
    exact (step_effect hown).consumed_grows
  · simp only [Pair.history, hother x hx, List.prefix_rfl]

/-- What one application received, followed by what waits in its `recvCh`, is a first part of what
    the `Send` calls of the other were told is queued. -/
theorem received_queued (ho : ∀ x, (config x).reliability = .reliableOrdered)
    (h : Reach Pair.step Network (· = Pair.new config relayID session) p) (x : Side) :
    (p x).recv.consumed ++ (p x).recv.recvCh <+: queuedPayloads (p x.peer).returns := by
  have hr : ∀ x, (config x).reliability ≠ .bestEffort := fun x => by rw [ho x]; exact Reliability.noConfusion
  rw [(inOrder ho h x).ordered.received, pushed_eq_take ho h x, (queued h x.peer).line.order]
  calc (p x.peer).xmit.assigned.take _
      <+: (p x.peer).xmit.assigned := List.take_prefix _ _
    _ <+: (p x.peer).xmit.took := (sending hr h x.peer).window.prefixed
    _ <+: _ := List.prefix_append _ _

/-- Seen from the applications a reliable-ordered relay is two first-in first-out queues, whatever
    the network does: the sends and receives of every run are a run of the channel, which then holds
    the messages still to be received, those in `recvCh` first. -/
theorem messages_fifo (ho : ∀ x, (config x).reliability = .reliableOrdered) {tr : List (Pair × PairAction)}
    (h : Trace Pair.step Network (· = Pair.new config relayID session) tr p) :
    exec Fifo.step (fun _ => []) (Fifo.visible Pair.history tr p) = some (Fifo.onTheWay p.history) ∧
      ∀ x, (p x).recv.recvCh <+: Fifo.onTheWay p.history x := by
  constructor
  · refine Fifo.refines (G := fun _ => True) ?_ (fun p m q hr hs => history_grows hr hs) (fun _ _ _ _ _ => trivial)
      (fun p hr _ x => ?_) h trivial
    · intro p hp x
      rw [hp]
      rfl
    · exact (List.prefix_append _ _).trans (received_queued ho hr x)
  · intro x
    obtain ⟨rest, hrest⟩ := received_queued ho h.reach x
    show _ <+: (queuedPayloads (p x.peer).returns).drop (p x).recv.consumed.length
    rw [← hrest, List.append_assoc, List.drop_left]
    exact List.prefix_append _ _

/-- Frame 2 arrives before frame 1, and frame 1 twice; then the application takes a message. -/
theorem messages_fifo_reordered : ∃ (tr : List (Pair × PairAction)) (p : Pair),
    Fifo.visible Pair.history tr p = [.put .a [[10]], .put .a [[20]], .got .b [[10]]] ∧
      exec Fifo.step (fun _ => []) (Fifo.visible Pair.history tr p) = some (Fifo.onTheWay p.history) ∧
      Fifo.onTheWay p.history .b = [[20]] := by
  let data (seq : Nat) (payload : Bytes) := sampleEnvelope .a .kindData seq 0 payload
  have h : ((record (guarded Pair.step Network) [] (samplePair .reliableOrdered 8) (List.flatten
      [opened, sends .a 0 [10], sends .a 1 [20], gets .b (data 2 [20]) 4 6, gets .b (data 1 [10]) 3 11,
        gets .b (data 1 [10]) 1 0, [(.b, .receive)]])).any fun r =>
      Fifo.visible Pair.history r.1 r.2 = [.put .a [[10]], .put .a [[20]], .got .b [[10]]] ∧
        Fifo.onTheWay r.2.history .b = [[20]]) = true := by
    decide +kernel
  obtain ⟨tr, p, hp, hw⟩ := trace_any (I := fun p => p = samplePair .reliableOrdered 8) _ rfl h
  simp only [decide_eq_true_eq] at hw
  exact ⟨tr, p, hw.1, ( messages_fifo (fun _ => rfl) hp).1, hw.2⟩

end

end Turntf.Relay
