/-
  Turntf.Stream.Pipe — a stream as the byte channel its users are given.

  The two connections of a stream resume, retransmit and acknowledge over a transport that
  loses, repeats, delays and reorders frames. From above none of it shows: what the `Write`
  and `Read` calls of the two ends pass on and copy out in any run is a run of two first-in
  first-out queues of bytes (`bytes_fifo`).
-/

import Turntf.Lib.Fifo
import Turntf.Stream.Ledger

namespace Turntf.Stream

open Lts Ends

/-- What `Write` passed to `sender.Data` and what `Read` copied out. -/
def StreamEnd.history (e : StreamEnd) : Fifo.History UInt8 := ⟨e.hist.written, e.hist.readOut⟩

def Sys.history (s : Sys) : Side → Fifo.History UInt8 := fun x => (s.ends x).history

theorem step_readOut {s s' : Sys} {m : Move} (hs : s.step m = some s') (x : Side) :
    (s.ends x).hist.readOut <+: (s'.ends x).hist.readOut := by
  rcases step_cases hs with ⟨y, c, _, hc⟩ | ⟨i, how, _, ⟨mv⟩⟩
  · by_cases e : x = y
    · obtain ⟨_, _, at', hh, _⟩ := noteCall_frame (s.ends y) c
      rw [e, hc.own, hh]
    · rw [Side.eq_peer_of_ne e, hc.other]
  · obtain ⟨e, n, extra, hi⟩ := mv.inner
    by_cases he : x = mv.x.side
    · rw [he, mv.own, hi.own]
      exact hi.effect.fixed.2.2
    · rw [Side.eq_peer_of_ne he, mv.other]

theorem history_grows {s s' : Sys} {m : Move} (hs : s.step m = some s') : Fifo.Grows s.history s'.history where
  put x := by
    obtain ⟨v, hv⟩ := step_written hs x
    exact ⟨v, hv.symm⟩
  got := step_readOut hs

section

variable {id : StreamID} {window : Side → UInt64} {maxFrameSize : Side → Nat} {accepted : Side → Bool} {s : Sys}

theorem received_written (h : Reach Sys.step Network (fun s => s = Sys.new id window maxFrameSize accepted) s)
    (hn : Counted s) (x : Side) :
    (s.ends x).hist.readOut ++ (s.ends x).conn.readBuf <+: (s.ends x.peer).hist.written := by
  have hr := ((sound h hn).intact x.peer).received
  rw [Side.peer_peer] at hr
  calc (s.ends x).hist.readOut ++ (s.ends x).conn.readBuf
      <+: (s.ends x).hist.readOut ++ (s.ends x).conn.readBuf ++ s.hand x := List.prefix_append _ _
    _ = (s.ends x.peer).hist.written.take _ := by rw [List.append_assoc, hr]
    _ <+: (s.ends x.peer).hist.written := List.take_prefix _ _

/-- Seen from its users a stream is two first-in first-out queues of bytes, whatever the transport
    does and however often either end resumes: the writes and reads of every run are a run of the
    channel, which then holds the bytes still to be read, those in `readBuf` first. -/
theorem bytes_fifo {tr : List (Sys × Move)}
    (h : Trace Sys.step Network (fun s => s = Sys.new id window maxFrameSize accepted) tr s) (hn : Counted s) :
    exec Fifo.step (fun _ => []) (Fifo.visible Sys.history tr s) = some (Fifo.onTheWay s.history) ∧
      ∀ x, (s.ends x).conn.readBuf <+: Fifo.onTheWay s.history x := by
  constructor
  · refine Fifo.refines (G := Counted) ?_ (fun s m t _ hs => history_grows hs) (fun _ _ _ hs => step_counted hs)
      (fun s hr hn x => ?_) h hn
    · intro s hs x
      rw [hs]
      rfl
    · exact (List.prefix_append _ _).trans (received_written hr hn x)
  · intro x
    obtain ⟨rest, hrest⟩ := received_written h.reach hn x
    show _ <+: (s.ends x.peer).hist.written.drop (s.ends x).hist.readOut.length
    rw [← hrest, List.append_assoc, List.drop_left]
    exact List.prefix_append _ _

/-- The first Data frame and its Ack are lost, a resume goes through, and the frame it sends again
    arrives twice; then two of the three bytes are read. -/
theorem bytes_fifo_resumed : ∃ (tr : List (Sys × Move)) (s : Sys),
    Fifo.visible Sys.history tr s = [.put .a [1, 2, 3], .got .b [1, 2]] ∧
      exec Fifo.step (fun _ => []) (Fifo.visible Sys.history tr s) = some (Fifo.onTheWay s.history) ∧
      Fifo.onTheWay s.history .b = [3] := by
  let resume : StreamFrame := { kind := .frameResume, id := sampleID, epoch := 2 }
  let ack : StreamFrame := { kind := .frameAck, id := sampleID, epoch := 2, window := 8 }
  let data : StreamFrame := { kind := .frameData, id := sampleID, epoch := 2, payload := [1, 2, 3] }
  have h : ((record (guarded Sys.step Network) [] (samplePair 8) (List.flatten
      [[.call .a (.write [1, 2, 3])], runs 0 9 .taken, [.call .a .resume], runs 1 7 .taken,
        [.call .b (.handleFrame resume)], runs 2 9 .taken, [.call .a (.handleFrame ack)], runs 3 6 .taken,
        runs 1 1 .go, runs 1 4 .taken, [.call .b (.handleFrame data)], runs 4 12 .taken,
        [.call .b (.handleFrame data)], runs 5 12 .taken, [.call .b (.read 2)], runs 6 9 .taken])).any fun r =>
      Fifo.visible Sys.history r.1 r.2 = [.put .a [1, 2, 3], .got .b [1, 2]] ∧
        Fifo.onTheWay r.2.history .b = [3] ∧
        (r.2.ends .a).hist.written.length < 2 ^ 64 ∧ (r.2.ends .b).hist.written.length < 2 ^ 64) = true := by
    decide +kernel
  obtain ⟨tr, s, hs, hw⟩ := trace_any (I := fun s => s = samplePair 8) _ rfl h
  simp only [decide_eq_true_eq] at hw
  obtain ⟨hv, hrest, ha', hb'⟩ := hw
  have hn : Counted s := fun x => by cases x <;> assumption
  exact ⟨tr, s, hv, ( bytes_fifo hs hn).1, hrest⟩

end

end Turntf.Stream
