/-
  Turntf.Stream.Effects — all that one step of a call can do to its end of a stream.

  Most steps only move the call (`Effect.still`); the others are listed one by one, each
  with the position it is taken from, the end it leaves and where the call goes on.
  `pcStep_effect` says that the list is complete; the invariants of a stream are proved
  over this list and not over the positions of the code.
-/

import Turntf.Stream.Steps

namespace Turntf.Stream

open Ends

/-! ## What a call has in its hands -/

/-- The frames a call has made and not yet given to the transport. -/
def Pc.outgoing : Pc → List StreamFrame
  | .read (.lockResponse ack) | .read (.unlockHandle ack) | .read (.send ack) => [ack]
  | .write (.send _ _ frame) => [frame]
  | .resume (.lockMu _ _ frames) | .resume (.register _ _ frames) | .resume (.sendResume _ _ frames _)
  | .resume (.sentResume frames _) | .resume (.await frames _) | .resume (.send frames) | .resume (.sent frames) => frames
  | .handle (.lockAppend _ ack) | .handle (.append _ ack) | .handle (.lockWindow ack) | .handle (.setWindow ack)
  | .handle (.lockResponse ack) | .handle (.unlockHandle ack) | .handle (.send ack) => [ack]
  | _ => []

/-- The frame of the peer a call is handling. -/
def Pc.incoming : Pc → List StreamFrame
  | .handle (.enter f) | .handle (.lockHandle f) | .handle (.dispatch f) | .handle (.lockCheck f _)
  | .handle (.checkData f _) | .handle (.accept f) => [f]
  | _ => []

/-- The bytes a handler has accepted and not yet appended to the read buffer. -/
def Pc.hand : Pc → Bytes
  | .handle (.lockAppend payload _) | .handle (.append payload _) => payload
  | _ => []

/-- The bytes a running `Write` has passed to `sender.Data`. -/
def Pc.progress : Pc → Bytes
  | .write (.snapshot done _) | .write (.lockMu done _ _ _) | .write (.credit done _ _ _) | .write (.parked done _ _)
  | .write (.data done _ _) | .write (.send done _ _) | .write (.sent done _) | .write (.unlock done _) => done
  | _ => []

namespace Next

/-- The frames in the hands of the call or given to the transport by the step. -/
def frames : Next Pc → List StreamFrame
  | .goto pc => pc.outgoing
  | .send f pc => f :: pc.outgoing
  | .ret _ => []

def incoming (n : Next Pc) : List StreamFrame := (n.pc?.map Pc.incoming).getD []

def hand (n : Next Pc) : Bytes := (n.pc?.map Pc.hand).getD []

def progress (n : Next Pc) : Bytes := (n.pc?.map Pc.progress).getD []

end Next

/-- Where `terminate` returns to when it is through. -/
def Pc.terminating (pc : Pc) (err : StreamError) (t : TerminatePc) : Prop :=
  (∃ epoch, pc = .close (.terminate epoch t)) ∧ err = .closed ∨ pc = .handle (.terminate t) ∧ err = .eof

inductive Effect (e : StreamEnd) : Pc → StreamEnd → Next Pc → Prop
  | still {pc : Pc} {n : Next Pc} (hand : n.hand = pc.hand) (progress : n.progress = pc.progress)
      (frames : ∀ f ∈ n.frames, f ∈ pc.outgoing) (incoming : ∀ f ∈ n.incoming, f ∈ pc.incoming) : Effect e pc e n
  | closed {k : Nat} {err : StreamError} (hb : e.conn.readBuf = []) (hc : e.conn.closeErr = some err) :
      Effect e (.read (.look k))
        { e with hist.eofs := e.hist.eofs ++ if err = .eof then [e.hist.readOut] else [] } (.ret (some err))
  | take {k : Nat} {e' : StreamEnd}
      (he : e' = { e with
        conn.readBuf := e.conn.readBuf.drop k
        hist.readOut := e.hist.readOut ++ e.conn.readBuf.take k }) :
      Effect e (.read (.take k)) e'
        (.goto (.read (if e.conn.isClosed then .drained else .lockResponse e'.conn.creditFrame)))
  | data {done rest : Bytes} {available : UInt64} {k : Nat} {f : StreamFrame} {s : StreamSenderState}
      (hk : k = chunkSize rest e.maxFrameSize available) (hd : e.conn.sender.data (rest.take k) = .ok (f, s)) :
      Effect e (.write (.data done rest available))
        { e with
          conn.sender := s
          hist.written := e.hist.written ++ rest.take k
          hist.made := e.hist.made ++ [(f, e.credit)] }
        (.goto (.write (.send (done ++ rest.take k) (rest.drop k) f)))
  | refused {done rest : Bytes} {available : UInt64} {err : StreamError}
      (hd : e.conn.sender.data (rest.take (chunkSize rest e.maxFrameSize available)) = .error err) :
      Effect e (.write (.data done rest available)) { e with hist.refused := e.hist.refused ++ [err] }
        (.goto (.write (.unlock done (some err))))
  | report {done : Bytes} {err : Option StreamError} :
      Effect e (.write (.unlock done err)) { e with hist.reported := e.hist.reported ++ done } (.ret err)
  | resume {epoch acked : UInt64} {fs : List StreamFrame} {s : StreamSenderState}
      (hr : e.conn.sender.resume (epoch + 1) acked = .ok (fs, s)) :
      Effect e (.resume (.resume epoch acked)) { e with conn.sender := s } (.goto (.resume (.lockMu (epoch + 1) acked fs)))
  | register {epoch acked : UInt64} {fs : List StreamFrame} (hc : e.conn.closeErr = none) :
      Effect e (.resume (.register epoch acked fs)) { e with conn := e.conn.registerResume epoch }
        (.goto (.resume (.sendResume epoch acked fs e.conn.readyMade)))
  | sendResume {epoch acked : UInt64} {fs : List StreamFrame} {ready : Nat} :
      Effect e (.resume (.sendResume epoch acked fs ready)) e
        (.send { kind := .frameResume, id := e.conn.id, epoch := epoch, offset := acked } (.resume (.sentResume fs ready)))
  | clear {ready : Nat} {err : StreamError} :
      Effect e (.resume (.clear ready err)) { e with conn := e.conn.clearResume ready }
        (.goto (.resume (.unlock (some err))))
  | terminate {pc : Pc} {err : StreamError} {t : TerminatePc} {e' : StreamEnd} {t' : Option TerminatePc} {n : Next Pc}
      (hpc : pc.terminating err t) (ht : terminateStep e err t = some (e', t')) (hand : n.hand = [])
      (progress : n.progress = []) (frames : n.frames = []) (incoming : n.incoming = []) : Effect e pc e' n
  | sendClose {epoch : UInt64} :
      Effect e (.close (.send epoch)) e (.send { kind := .frameClose, id := e.conn.id, epoch := epoch } (.close .sent))
  | sendOpenAck {f : StreamFrame} :
      Effect e (.handle (.sendOpenAck f)) e (.send (openAck f) (.handle .sentOpenAck))
  | acknowledge {f : StreamFrame} {o : UInt64} {s : StreamSenderState}
      (ho : f.kind = .frameAck ∧ o = f.offset ∨ f.kind = .frameOpenAck ∧ o = 0)
      (hs : e.conn.sender.acknowledge f.epoch o f.window = .ok s) :
      Effect e (.handle (.dispatch f))
        { e with conn.sender := s, hist.applied := e.hist.applied ++ [(o, f.window)] } (.goto (.handle (.lockCredit f)))
  | resumed {f ack : StreamFrame} {r : StreamReceiverState} (hr : e.conn.receiver.resume f.epoch f.offset = .ok (ack, r)) :
      Effect e (.handle (.dispatch f)) { e with conn.receiver := r } (.goto (.handle (.lockWindow ack)))
  | storeCredit {f : StreamFrame} {pc : HandlePc} (hpc : pc = .markOpen ∨ pc = .unlock none) :
      Effect e (.handle (.storeCredit f)) { e with conn := e.conn.storeCredit f } (.goto (.handle pc))
  | markOpen : Effect e (.handle .markOpen) { e with conn.opened := true } (.goto (.handle (.unlock none)))
  | accept {f ack : StreamFrame} {payload : Bytes} {r : StreamReceiverState}
      (ha : e.conn.receiver.accept f = .ok (payload, ack, r)) :
      Effect e (.handle (.accept f)) { e with conn.receiver := r } (.goto (.handle (.lockAppend payload ack)))
  | append {payload : Bytes} {ack : StreamFrame} :
      Effect e (.handle (.append payload ack)) { e with conn := e.conn.appendData payload }
        (.goto (.handle (.lockResponse { ack with window := (e.conn.appendData payload).free })))
  | window {ack : StreamFrame} :
      Effect e (.handle (.setWindow ack)) e (.goto (.handle (.lockResponse { ack with window := e.conn.free })))

section

variable {e e' : StreamEnd} {sent : Option StreamError} {how : Choice}

/-- Of the connection, `terminate` touches the close reason and the channel, in one step. -/
theorem terminateStep_frame {err : StreamError} {t : TerminatePc} {t' : Option TerminatePc}
    (h : terminateStep e err t = some (e', t')) :
    e'.hist = e.hist ∧ e'.out = e.out ∧ ∃ reason state, e'.conn = { e.conn with closeErr := reason, state := state } ∧
      (reason = e.conn.closeErr ∧ state = e.conn.state ∨ t = .set ∧ reason = some err ∧ state = e.conn.state + 1) := by
  cases t <;> simp only [terminateStep] at h <;> (repeat' split at h) <;> cases h <;>
    first
    | exact ⟨rfl, rfl, _, _, rfl, .inl ⟨rfl, rfl⟩⟩
    | exact ⟨rfl, rfl, _, _, rfl, .inr ⟨rfl, rfl, rfl⟩⟩

theorem readStep_effect {pc : ReadPc} {n : Next ReadPc} (h : readStep e sent pc = some (e', n)) :
    Effect e (.read pc) e' (n.map .read) := by
  cases pc with
  | look k =>
    simp only [readStep] at h
    split at h
    · cases h; exact .still rfl rfl (fun _ h => h) (fun _ h => h)
    · rename_i hb
      simp only [ne_eq, Decidable.not_not] at hb
      split at h
      · rename_i hc
        cases h; exact .closed hb hc
      · cases h; exact .still rfl rfl (fun _ h => h) (fun _ h => h)
  | take k =>
    simp only [readStep] at h
    split at h
    · cases h; exact .still rfl rfl (fun _ h => h) (fun _ h => h)
    · cases h; exact .take rfl
  | parked k state =>
    simp only [readStep] at h
    split at h
    · cases h; exact .still rfl rfl (fun _ h => h) (fun _ h => h)
    · cases h
  | _ => cases h; exact .still rfl rfl (fun _ h => h) (fun _ h => h)

theorem writeStep_effect {pc : WritePc} {n : Next WritePc} (h : writeStep e sent pc = some (e', n)) :
    Effect e (.write pc) e' (n.map .write) := by
  cases pc with
  | data done rest available =>
    simp only [writeStep] at h
    split at h
    · rename_i hd
      cases h; exact .refused hd
    · rename_i hd
      cases h; exact .data rfl hd
  | unlock done err => cases h; exact .report
  | _ =>
    simp only [writeStep] at h
    (repeat' split at h) <;> cases h <;> exact .still rfl rfl (fun _ h => h) (fun _ h => h)

theorem resumeStep_effect {pc : ResumePc} {n : Next ResumePc} (h : resumeStep e sent how pc = some (e', n)) :
    Effect e (.resume pc) e' (n.map .resume) := by
  cases pc with
  | resume epoch acked =>
    simp only [resumeStep] at h
    split at h
    · cases h; exact .still rfl rfl (fun _ h => h) (fun _ h => h)
    · rename_i hr
      cases h; exact .resume hr
  | register epoch acked fs =>
    simp only [resumeStep] at h
    split at h
    · cases h; exact .still rfl rfl (fun _ h => by cases h) (fun _ h => h)
    · rename_i hc
      cases h; exact .register hc
  | sendResume epoch acked fs ready => cases h; exact .sendResume
  | clear ready err => cases h; exact .clear
  | sentResume fs ready =>
    simp only [resumeStep] at h
    split at h <;> cases h
    · exact .still rfl rfl (fun _ h => h) (fun _ h => h)
    · exact .still rfl rfl (fun _ h => by cases h) (fun _ h => h)
  | await fs ready =>
    simp only [resumeStep] at h
    (repeat' split at h) <;> cases h
    · exact .still rfl rfl (fun _ h => h) (fun _ h => h)
    · exact .still rfl rfl (fun _ h => by cases h) (fun _ h => h)
    · exact .still rfl rfl (fun _ h => by cases h) (fun _ h => h)
  | sent fs =>
    simp only [resumeStep] at h
    split at h <;> cases h
    · exact .still rfl rfl (fun _ h => h) (fun _ h => h)
    · exact .still rfl rfl (fun _ h => by cases h) (fun _ h => h)
  | _ =>
    simp only [resumeStep] at h
    (repeat' split at h) <;> cases h <;> exact .still rfl rfl (fun _ h => h) (fun _ h => h)

theorem closeStep_effect {pc : ClosePc} {n : Next ClosePc} (h : closeStep e sent pc = some (e', n)) :
    Effect e (.close pc) e' (n.map .close) := by
  cases pc with
  | terminate epoch t =>
    obtain ⟨⟨e₁, t'⟩, ht, he⟩ := Option.map_eq_some_iff.mp h
    cases he
    cases t' <;> exact .terminate (.inl ⟨⟨epoch, rfl⟩, rfl⟩) ht rfl rfl rfl rfl
  | send epoch => cases h; exact .sendClose
  | isClosed =>
    simp only [closeStep] at h
    cases h
    split <;> exact .still rfl rfl (fun _ h => h) (fun _ h => h)
  | _ => cases h; exact .still rfl rfl (fun _ h => h) (fun _ h => h)

theorem dispatchStep_effect {f : StreamFrame} :
    Effect e (.handle (.dispatch f)) (dispatchStep e f).1 ((dispatchStep e f).2.map .handle) := by
  have hstill : ∀ err, Effect e (.handle (.dispatch f)) e ((Next.goto (HandlePc.unlock err)).map .handle) :=
    fun err => .still rfl rfl (fun _ h => h) (fun _ h => by cases h)
  unfold dispatchStep
  split
  · rename_i hk
    unfold acknowledgeStep
    split
    · exact hstill _
    · rename_i s hs
      exact .acknowledge (.inr ⟨hk, rfl⟩) hs
  · rename_i hk
    unfold acknowledgeStep
    split
    · exact hstill _
    · rename_i s hs
      exact .acknowledge (.inl ⟨hk, rfl⟩) hs
  · split
    · exact hstill _
    · exact .still rfl rfl (fun _ h => h) (fun _ h => h)
  · split
    · exact hstill _
    · rename_i hr
      exact .resumed hr
  · split
    · exact hstill _
    · exact .still rfl rfl (fun _ h => h) (fun _ h => by cases h)
  · exact hstill _
  · exact hstill _

theorem handleStep_effect {pc : HandlePc} {n : Next HandlePc} (h : handleStep e sent pc = some (e', n)) :
    Effect e (.handle pc) e' (n.map .handle) := by
  cases pc with
  | terminate t =>
    obtain ⟨⟨e₁, t'⟩, ht, he⟩ := Option.map_eq_some_iff.mp h
    cases he
    cases t' <;> exact .terminate (.inr ⟨rfl, rfl⟩) ht rfl rfl rfl rfl
  | enter f =>
    simp only [handleStep, enterStep] at h
    (repeat' split at h) <;> cases h <;> first
      | exact .still rfl rfl (fun _ h => h) (fun _ h => h)
      | exact .still rfl rfl (fun _ h => h) (fun _ h => by cases h)
  | dispatch f =>
    simp only [handleStep, Option.some.injEq] at h
    have := dispatchStep_effect (e := e) (f := f)
    rwa [h] at this
  | sendOpenAck f => cases h; exact .sendOpenAck
  | storeCredit f =>
    simp only [handleStep] at h
    split at h <;> cases h
    · exact .storeCredit (.inl rfl)
    · exact .storeCredit (.inr rfl)
  | markOpen => cases h; exact .markOpen
  | checkData f u =>
    simp only [handleStep] at h
    split at h <;> cases h
    · exact .still rfl rfl (fun _ h => h) (fun _ h => by cases h)
    · exact .still rfl rfl (fun _ h => h) (fun _ h => h)
  | accept f =>
    simp only [handleStep] at h
    split at h
    · cases h; exact .still rfl rfl (fun _ h => h) (fun _ h => by cases h)
    · rename_i ha
      cases h; exact .accept ha
  | append payload ack => cases h; exact .append
  | setWindow ack => cases h; exact .window
  | _ => cases h; exact .still rfl rfl (fun _ h => h) (fun _ h => h)

/-- The list of effects is complete. -/
theorem pcStep_effect {pc : Pc} {n : Next Pc} (h : pcStep e sent how pc = some (e', n)) : Effect e pc e' n := by
  cases pc <;> obtain ⟨⟨e₁, n₁⟩, hs, he⟩ := Option.map_eq_some_iff.mp h <;> cases he
  · exact readStep_effect hs
  · exact writeStep_effect hs
  · exact resumeStep_effect hs
  · exact closeStep_effect hs
  · exact handleStep_effect hs

end

/-! ## The step of a thread -/

/-- What the calls of `ys` at the end `x` have in their hands, by `φ`. -/
def gather (φ : Pc → Bytes) (x : Side) (ys : List Act) : Bytes := ys.flatMap fun y => if y.side = x then φ y.pc else []

def Sys.hand (s : Sys) (x : Side) : Bytes := gather Pc.hand x s.acts

def Sys.progress (s : Sys) (x : Side) : Bytes := gather Pc.progress x s.acts

@[simp] theorem gather_append (φ : Pc → Bytes) (x : Side) (ys zs : List Act) :
    gather φ x (ys ++ zs) = gather φ x ys ++ gather φ x zs := List.flatMap_append

@[simp] theorem gather_cons (φ : Pc → Bytes) (x : Side) (y : Act) (zs : List Act) :
    gather φ x (y :: zs) = (if y.side = x then φ y.pc else []) ++ gather φ x zs := List.flatMap_cons

/-- What is in hand only behind a mutex is nowhere but with its holder. -/
theorem gather_elsewhere {φ : Pc → Bytes} {m : Mutex} (hφ : ∀ pc, m ∉ pc.holds → φ pc = []) {x : Side} {ys : List Act}
    (h : ∀ y ∈ ys, (⟨x, m⟩ : Lock) ∉ y.holds) : gather φ x ys = [] := by
  refine List.flatMap_eq_nil_iff.mpr fun y hy => ?_
  split
  · rename_i hs
    refine hφ y.pc fun hm => h y hy (List.mem_map.mpr ⟨m, hm, by rw [hs]⟩)
  · rfl

theorem Pc.hand_of_free {pc : Pc} (h : .handleMu ∉ pc.holds) : pc.hand = [] := by
  cases pc with
  | handle pc => cases pc <;> first | rfl | exact absurd List.mem_cons_self h
  | _ => rfl

theorem Pc.progress_of_free {pc : Pc} (h : .writeMu ∉ pc.holds) : pc.progress = [] := by
  cases pc with
  | write pc => cases pc <;> first | rfl | exact absurd List.mem_cons_self h
  | _ => rfl

/-- The step of a thread is the step of its top call. The end notes the frame it sends; on
    top of the call there may come the one that handles that frame. -/
structure Inner {s s' : Sys} {i : Nat} {how : Choice} (mv : Moves s s' i how) (e : StreamEnd) (n : Next Pc)
    (extra : List StreamFrame) : Prop where
  effect : Effect (s.ends mv.x.side) mv.x.pc e n
  step : pcStep (s.ends mv.x.side) mv.sent how mv.x.pc = some (e, n)
  own : mv.e = { e with out := e.out ++ extra }
  given : ∀ f ∈ extra, f ∈ n.frames
  new : ∀ y ∈ mv.new, (y.side = mv.x.side ∧ n.pc? = some y.pc) ∨
    ∃ f ∈ extra, y = ⟨mv.x.side.peer, .handle (.enter f)⟩
  moved : ∀ pc, n.pc? = some pc → ⟨mv.x.side, pc⟩ ∈ mv.new
  gathers : ∀ φ : Pc → Bytes, (∀ f, φ (.handle (.enter f)) = []) → ∀ z,
    gather φ z mv.new = if mv.x.side = z then (n.pc?.map φ).getD [] else []

theorem Moves.inner {s s' : Sys} {i : Nat} {how : Choice} (mv : Moves s s' i how) : ∃ e n extra, Inner mv e n extra := by
  rcases actStep_cases mv.step with ⟨pc, hp, hn, _⟩ | ⟨err, hp, hn, _⟩ | ⟨e₀, f, pc, hp, he, hn | ⟨_, hn⟩⟩
  · refine ⟨_, _, [], pcStep_effect hp, hp, by simp, fun _ h => absurd h List.not_mem_nil, ?_, ?_, ?_⟩
    · intro y hy
      rw [hn] at hy
      rw [List.mem_singleton.mp hy]
      exact .inl ⟨rfl, rfl⟩
    · rintro _ ⟨⟩
      rw [hn]
      exact List.mem_cons_self
    · intro φ _ z
      rw [hn]
      simp [gather, Next.pc?]
  · refine ⟨_, _, [], pcStep_effect hp, hp, by simp, fun _ h => absurd h List.not_mem_nil, ?_, ?_, ?_⟩
    · intro y hy
      rw [hn] at hy
      cases hy
    · intro pc hpc
      cases hpc
    · intro φ _ z
      rw [hn]
      simp [gather, Next.pc?]
  · refine ⟨_, _, [f], pcStep_effect hp, hp, he, fun g hg => ?_, ?_, ?_, ?_⟩
    · rw [List.mem_singleton.mp hg]
      exact List.mem_cons_self
    · intro y hy
      rw [hn] at hy
      rw [List.mem_singleton.mp hy]
      exact .inl ⟨rfl, rfl⟩
    · rintro _ ⟨⟩
      rw [hn]
      exact List.mem_cons_self
    · intro φ _ z
      rw [hn]
      simp [gather, Next.pc?]
  · refine ⟨_, _, [f], pcStep_effect hp, hp, he, fun g hg => ?_, ?_, ?_, ?_⟩
    · rw [List.mem_singleton.mp hg]
      exact List.mem_cons_self
    · intro y hy
      rw [hn] at hy
      rcases List.mem_cons.mp hy with rfl | hy
      · exact .inr ⟨f, List.mem_cons_self, rfl⟩
      · rw [List.mem_singleton.mp hy]
        exact .inl ⟨rfl, rfl⟩
    · rintro _ ⟨⟩
      rw [hn]
      exact List.mem_cons_of_mem _ List.mem_cons_self
    · intro φ hφ z
      rw [hn]
      simp [gather, Next.pc?, hφ]

section

variable {s s' : Sys} {i : Nat} {how : Choice} {mv : Moves s s' i how} {e : StreamEnd} {n : Next Pc}
  {extra : List StreamFrame}

theorem Inner.moved_acts (hi : Inner mv e n extra) {pc : Pc} (hn : n.pc? = some pc) : ⟨mv.x.side, pc⟩ ∈ s'.acts := by
  rw [mv.acts']
  exact List.mem_append_left _ (List.mem_append_right _ (hi.moved pc hn))

theorem Moves.gather_own (mv : Moves s s' i how) (φ : Pc → Bytes) :
    gather φ mv.x.side s.acts = gather φ mv.x.side mv.L ++ (φ mv.x.pc ++ gather φ mv.x.side mv.R) := by
  rw [mv.acts, gather_append, gather_cons, if_pos rfl]

theorem Inner.gather_own (hi : Inner mv e n extra) {φ : Pc → Bytes} (hφ : ∀ f, φ (.handle (.enter f)) = []) :
    gather φ mv.x.side s'.acts =
      gather φ mv.x.side mv.L ++ ((n.pc?.map φ).getD [] ++ gather φ mv.x.side mv.R) := by
  rw [mv.acts', gather_append, gather_append, hi.gathers φ hφ, if_pos rfl, List.append_assoc]

theorem Inner.gather_peer (hi : Inner mv e n extra) {φ : Pc → Bytes} (hφ : ∀ f, φ (.handle (.enter f)) = []) :
    gather φ mv.x.side.peer s'.acts = gather φ mv.x.side.peer s.acts := by
  rw [mv.acts', mv.acts, gather_append, gather_append, gather_append, gather_cons, hi.gathers φ hφ,
    if_neg (Side.ne_peer _), List.append_nil, if_neg (Side.ne_peer _), List.nil_append]

/-- The other calls at an end have nothing in hand of what a call holds the mutex for. -/
theorem Moves.gather_others (mv : Moves s s' i how) (hx : Locks.Exclusive Act.holds s.acts) {φ : Pc → Bytes} {m : Mutex}
    (hφ : ∀ pc, m ∉ pc.holds → φ pc = []) (hm : m ∈ mv.x.pc.holds) :
    gather φ mv.x.side mv.L = [] ∧ gather φ mv.x.side mv.R = [] := by
  have hl : (⟨mv.x.side, m⟩ : Lock) ∈ mv.x.holds := List.mem_map.mpr ⟨_, hm, rfl⟩
  rw [mv.acts] at hx
  refine ⟨gather_elsewhere hφ fun y hy => ?_, gather_elsewhere hφ fun y hy => ?_⟩
  · exact hx.elsewhere hl (List.mem_append_left _ hy)
  · exact hx.elsewhere hl (List.mem_append_right _ hy)

end

/-! ## What the calls of one end rely on -/

/-- Each call at the end `x` has `Q` of that end and its position. -/
def Relies (Q : StreamEnd → Pc → Prop) (x : Side) (s : Sys) : Prop := ∀ y ∈ s.acts, y.side = x → Q (s.ends x) y.pc

/-- A call that starts leaves the connections as they are. -/
theorem Calls.conn {s s' : Sys} {z : Side} {c : Call} (hc : Calls s s' z c) (x : Side) :
    (s'.ends x).conn = (s.ends x).conn := by
  by_cases e : x = z
  · rw [e, hc.own]
    cases c <;> rfl
  · rw [Side.eq_peer_of_ne e, hc.other]

theorem call_relies {Q : StreamEnd → Pc → Prop} {s s' : Sys} {x z : Side} {c : Call} (hc : Calls s s' z c)
    (h : Relies Q x s) (hnote : ∀ pc, Q (s.ends x) pc → Q (s'.ends x) pc)
    (hstart : ∀ pc, c.start = some pc → Q (s'.ends x) pc) : Relies Q x s' := by
  intro y hy hside
  rw [hc.acts'] at hy
  rcases List.mem_append.mp hy with hy | hy
  · exact hnote _ (h y hy hside)
  · obtain ⟨pc, hpc, rfl⟩ := Option.map_eq_some_iff.mp (Option.mem_toList.mp hy)
    exact hstart pc hpc

/-- A step at the end `x` keeps what its calls rely on if it does so for the call that moves
    and for every other one; a step at the other end does. -/
theorem Inner.relies {Q : StreamEnd → Pc → Prop} {s s' : Sys} {i : Nat} {how : Choice} {mv : Moves s s' i how}
    {e : StreamEnd} {n : Next Pc} {extra : List StreamFrame} (hi : Inner mv e n extra) {x : Side}
    (h : mv.x.side ≠ x → Relies Q x s) (henter : ∀ f, Q (s'.ends x) (.handle (.enter f)))
    (hmoved : mv.x.side = x → ∀ pc, n.pc? = some pc → Q (s'.ends x) pc)
    (hothers : mv.x.side = x → ∀ y ∈ mv.L ++ mv.R, y.side = x → Q (s'.ends x) y.pc) : Relies Q x s' := by
  intro y hy hside
  rcases mv.mem_cases hy with hy | hy
  · by_cases he : mv.x.side = x
    · exact hothers he y hy hside
    · rw [Side.eq_peer_of_ne (Ne.symm he), mv.other, ← Side.eq_peer_of_ne (Ne.symm he)]
      exact h he y (mv.mem_others hy) hside
  · rcases hi.new y hy with ⟨hs, hn⟩ | ⟨f, _, rfl⟩
    · exact hmoved (hs.symm.trans hside) y.pc hn
    · exact henter f

end Turntf.Stream
