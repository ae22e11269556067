/-
  Turntf.Stream.MuxRegistry — which connections a `StreamMux` has registered, and when it lets go
  of them (`DialID`, `handleOpen`, `remove` and `StreamMux.Close` in `stream_conn.go`).

  `MuxState` is the mux together with the map that its sections behind `m.mu` keep, as the code
  writes it: a registration inserts, `remove` deletes only what is still its own, `Close` swaps
  in an empty map. A connection is between its closing and its removal only while its
  `terminate` is on the way from one to the other, that is while `doneOnce` is running.

  Proved (`mux_lifecycle`):
  (1) The lookups of the model are lookups in that map.
  (2) While the mux is not closed, a connection that is not terminated is in the map; one that is
      terminated is out of it; an entry goes with its own connection or with `Close`.
  (3) A call that registered a connection and returns an error has it terminated.
  (4) When a `Close` has returned, the map is empty and every connection is terminated.
-/

import Mathlib.Data.List.AList
import Turntf.Lib.Lts
import Turntf.Stream.MuxLife

namespace Turntf.Stream

open Lts

/-! ## The map -/

/-- `map[StreamID]*StreamConn`, a connection by its number. -/
abbrev Streams := AList fun _ : StreamID => Nat

def Streams.remove (streams : Streams) (id : StreamID) (k : Nat) : Streams :=
  if streams.lookup id = some k then streams.erase id else streams

structure MuxState where
  mux : StreamMux
  streams : Streams

namespace MuxState

variable (s : MuxState)

/-- `m.streams[id] = conn`, in a step that makes a connection. -/
def insert (m' : StreamMux) (id : StreamID) : Streams :=
  if s.mux.conns.length < m'.conns.length then s.streams.insert id s.mux.conns.length else s.streams

/-- What a call at this position does to the map, in its step to `m'`. -/
def update (m' : StreamMux) : MuxPc → Streams
  | .handleFrame frame => s.insert m' frame.id
  | .dial id => s.insert m' id
  | .closeStreams => ∅
  | pc =>
    match pc.terminates with
    | some (k, .remove) => ((s.mux.conns[k]?).map fun e => s.streams.remove e.conn.id k).getD s.streams
    | _ => s.streams

def step (a : MuxMove) : Option MuxState :=
  (s.mux.step a).map fun m' => ⟨m', match a with
    | .call _ => s.streams
    | .run i _ => ((s.mux.calls[i]?).map (s.update m')).getD s.streams⟩

def Initial : Prop := ∃ cfg, s = ⟨.new cfg, ∅⟩

end MuxState

/-! ## The map and the lives -/

/-- The map has the connections that are registered, each under its own ID. -/
def Mapped (m : StreamMux) (streams : Streams) : Prop :=
  ∀ id k, streams.lookup id = some k ↔ ∃ l, m.lives[k]? = some l ∧ l.registered = true ∧ l.id = id

section

variable {m m' : StreamMux} {s s' : MuxState} {streams : Streams} {i k : Nat} {pc pc' : MuxPc} {l l' : EndLife}
  {id : StreamID} {t : TerminatePc} {t' : Option TerminatePc}

theorem Mapped.find (h : Mapped m streams) (id : StreamID) : m.find id = streams.lookup id := by
  cases hf : m.find id with
  | some k =>
    obtain ⟨hlt, hp, -⟩ := List.findIdx?_eq_some_iff_getElem.mp hf
    simp only [Bool.and_eq_true, decide_eq_true_eq] at hp
    exact ((h id k).mpr ⟨_, lives_get (List.getElem?_eq_getElem hlt), hp.1, hp.2⟩).symm
  | none =>
    cases hl : streams.lookup id with
    | none => rfl
    | some k =>
      obtain ⟨l, hk, hr, hid⟩ := (h id k).mp hl
      obtain ⟨e, he, rfl⟩ := Option.map_eq_some_iff.mp (List.getElem?_map ▸ hk)
      have hno := List.findIdx?_eq_none_iff.mp hf e (List.mem_of_getElem? he)
      have hr : e.registered = true := hr
      have hid : e.conn.id = id := hid
      simp [hr, hid] at hno

theorem Mapped.same (h : Mapped m streams) (hl : m'.lives = m.lives) : Mapped m' streams := by
  unfold Mapped
  rw [hl]
  exact h

theorem Mapped.insert (h : Mapped m streams) (hn : m.find id = none)
    (hl : m'.lives = m.lives ++ [⟨id, true, .fresh, false⟩]) :
    Mapped m' (AList.insert id m.lives.length streams) := by
  intro id' k
  have hnone : streams.lookup id = none := (h.find id).symm.trans hn
  by_cases hid : id' = id
  · subst hid
    rw [AList.lookup_insert, Option.some.injEq]
    constructor
    · rintro rfl
      exact ⟨_, by rw [hl, List.getElem?_concat_length], rfl, rfl⟩
    · rintro ⟨l, hk, hr, hid⟩
      rcases lives_append hl hk with hk | ⟨hk, -⟩
      · cases hnone.symm.trans ((h _ k).mpr ⟨l, hk, hr, hid⟩)
      · exact hk.symm
  · rw [AList.lookup_insert_ne hid, h]
    constructor
    · rintro ⟨l, hk, hrest⟩
      exact ⟨l, hl ▸ Slots.snoc_get hk, hrest⟩
    · rintro ⟨l, hk, hr, he⟩
      rcases lives_append hl hk with hk | ⟨-, rfl⟩
      · exact ⟨l, hk, hr, he⟩
      · exact absurd he.symm hid

/-- A connection goes on, registered or not as before. -/
theorem Mapped.goes (h : Mapped m streams) (hk : m.lives[k]? = some l) (hl : m'.lives = m.lives.set k l')
    (hid : l'.id = l.id) (hr : l'.registered = l.registered) : Mapped m' streams := by
  intro id' j
  rw [h]
  constructor
  · rintro ⟨lj, hj, hrj, hidj⟩
    rcases Slots.set_get k l' hj with ⟨rfl, hj'⟩ | ⟨-, hj'⟩
    · cases hk.symm.trans hj
      exact ⟨l', hl ▸ hj', hr.trans hrj, hid.trans hidj⟩
    · exact ⟨lj, hl ▸ hj', hrj, hidj⟩
  · rintro ⟨lj, hj, hrj, hidj⟩
    rcases lives_set hl hj with ⟨rfl, rfl⟩ | ⟨-, hj⟩
    · exact ⟨l, hk, hr.symm.trans hrj, hid.symm.trans hidj⟩
    · exact ⟨lj, hj, hrj, hidj⟩

/-- `remove` takes out the entry of its own connection, if there is one, and no other. -/
theorem Mapped.remove (h : Mapped m streams) (hk : m.lives[k]? = some l) (hl : m'.lives = m.lives.set k l')
    (hr : l'.registered = false) : Mapped m' (streams.remove l.id k) := by
  -- of the connections registered under the ID, this one is the only one
  have hlookup : ∀ id' j, (streams.remove l.id k).lookup id' = some j ↔ j ≠ k ∧ streams.lookup id' = some j := by
    intro id' j
    unfold Streams.remove
    split
    · rename_i hown
      by_cases hid : id' = l.id
      · rw [hid, AList.lookup_erase, hown]
        simp [eq_comm]
      · rw [AList.lookup_erase_ne hid]
        refine ⟨fun hj => ⟨?_, hj⟩, fun hj => hj.2⟩
        rintro rfl
        obtain ⟨l₁, hl₁, -, hid₁⟩ := (h id' j).mp hj
        cases hk.symm.trans hl₁
        exact hid hid₁.symm
    · rename_i hown
      refine ⟨fun hj => ⟨?_, hj⟩, fun hj => hj.2⟩
      rintro rfl
      obtain ⟨l₁, hl₁, hr₁, hid₁⟩ := (h id' j).mp hj
      cases hk.symm.trans hl₁
      exact hown (hid₁ ▸ hj)
  intro id' j
  rw [hlookup, h]
  constructor
  · rintro ⟨hne, lj, hj, hrest⟩
    exact ⟨lj, by rw [hl, List.getElem?_set_ne (Ne.symm hne), hj], hrest⟩
  · rintro ⟨lj, hj, hrj, hidj⟩
    rcases lives_set hl hj with ⟨-, rfl⟩ | ⟨hne, hj⟩
    · cases hr.symm.trans hrj
    · exact ⟨hne, lj, hj, hrj, hidj⟩

theorem update_remove (hk : s.mux.lives[k]? = some l) (ht : pc.terminates = some (k, .remove)) :
    s.update m' pc = s.streams.remove l.id k := by
  obtain ⟨e, he, rfl⟩ := Option.map_eq_some_iff.mp (List.getElem?_map ▸ hk)
  cases pc with
  | conn | terminate => simp only [MuxState.update, ht, he, Option.map_some, Option.getD_some, StreamEnd.life]
  | _ => cases ht

theorem update_keeps (ht : ∀ k, pc.terminates ≠ some (k, .remove)) (hpc : pc ≠ .closeStreams)
    (hlen : m'.lives.length = s.mux.lives.length) : s.update m' pc = s.streams := by
  have hinsert : ∀ id, s.insert m' id = s.streams := by
    intro id
    rw [StreamMux.lives, StreamMux.lives, List.length_map, List.length_map] at hlen
    exact if_neg (by omega)
  unfold MuxState.update
  split
  · exact hinsert _
  · exact hinsert _
  · exact absurd rfl hpc
  · split
    · exact absurd ‹_› (ht _)
    · rfl

theorem insert_new (hl : m'.lives.length = s.mux.lives.length + 1) :
    s.insert m' id = s.streams.insert id s.mux.lives.length := by
  rw [StreamMux.lives, StreamMux.lives, List.length_map, List.length_map] at hl
  rw [MuxState.insert, if_pos (by omega), StreamMux.lives, List.length_map]

/-- A step of `terminate`: the map goes along with the flag of the connection. -/
theorem Mapped.terminates (h : Mapped s.mux s.streams) (hk : s.mux.lives[k]? = some l)
    (hpc : pc.terminates = some (k, t)) (ht : Terminates l t l' t') (hl : m'.lives = s.mux.lives.set k l') :
    Mapped m' (s.update m' pc) := by
  have hkeeps (hne : t ≠ .remove) : s.update m' pc = s.streams := by
    refine update_keeps (fun k' he => hne ?_) ?_ (by rw [hl, List.length_set])
    · rw [hpc] at he
      cases he
      rfl
    · rintro rfl
      cases hpc
  cases ht with
  | enter | set =>
    rw [hkeeps nofun]
    exact h.goes hk hl rfl rfl
  | late | locked =>
    rw [hkeeps nofun]
    exact h.goes hk hl rfl rfl
  | remove =>
    rw [update_remove hk hpc]
    exact h.remove hk hl rfl

theorem Quiet.keeps_map (h : Quiet m pc pc') : (∀ k, pc.terminates ≠ some (k, .remove)) ∧ pc ≠ .closeStreams := by
  cases h with
  | conn hpc | connReturns hpc => exact ⟨fun k => by simp [MuxPc.terminates, hpc], MuxPc.noConfusion⟩
  | _ => exact ⟨fun k => by simp [MuxPc.terminates], MuxPc.noConfusion⟩

theorem Mapped.run (h : Mapped s.mux s.streams) (heff : MuxLife s.mux m' pc pc') : Mapped m' (s.update m' pc) := by
  cases heff with
  | quiet hl _ hq =>
    rw [update_keeps hq.keeps_map.1 hq.keeps_map.2 (by rw [hl])]
    exact h.same hl
  | opened _ hn hl | dialed _ hn hl =>
    rw [MuxState.update, insert_new (by simp [hl])]
    exact h.insert hn hl
  | connTerminates hk hpc _ ht hl => exact h.terminates hk (by rw [MuxPc.terminates, hpc]; rfl) ht hl
  | terminates hk ht hl => exact h.terminates hk rfl ht hl
  | closes _ hl | ends hl => exact h.same hl
  | swaps _ hl =>
    intro id k
    refine ⟨fun hlookup => absurd hlookup (by simp [MuxState.update]), ?_⟩
    rintro ⟨l, hk, hr, -⟩
    rw [hl, List.getElem?_map] at hk
    obtain ⟨l₀, -, rfl⟩ := Option.map_eq_some_iff.mp hk
    cases hr

/-- A step of the mux with its map. -/
theorem MuxState.step_cases {a : MuxMove} (h : s.step a = some s') :
    (∃ c pc, a = .call c ∧ s.mux.start c = some pc ∧
      s' = { s with mux := { s.mux with calls := s.mux.calls ++ [pc] } }) ∨
    ∃ i how pc pc', a = .run i how ∧ s.mux.calls[i]? = some pc ∧ MuxLife s.mux s'.mux pc pc' ∧
      s'.mux.calls = s.mux.calls.set i pc' ∧ s'.streams = s.update s'.mux pc := by
  obtain ⟨m', hm, rfl⟩ := Option.map_eq_some_iff.mp h
  rcases StreamMux.step_lives hm with ⟨c, pc, rfl, hstart, rfl⟩ | ⟨i, how, pc, pc', rfl, hpc, heff, hcalls⟩
  · exact .inl ⟨c, pc, rfl, hstart, rfl⟩
  · exact .inr ⟨i, how, pc, pc', rfl, hpc, heff, hcalls, by simp [hpc]⟩

theorem MuxState.step_mux {a : MuxMove} (h : s.step a = some s') : s.mux.step a = some s'.mux := by
  obtain ⟨m', hm, rfl⟩ := Option.map_eq_some_iff.mp h
  exact hm

theorem mux_sound {ok : MuxState → MuxMove → Prop} (h : Reach MuxState.step ok MuxState.Initial s) :
    MuxSound s.mux ∧ Mapped s.mux s.streams := by
  refine h.keeps (P := fun s => MuxSound s.mux ∧ Mapped s.mux s.streams) ?_ ?_
  · rintro s ⟨cfg, rfl⟩
    exact ⟨.new cfg, fun id k => ⟨fun hl => absurd hl nofun, fun ⟨l, hl, _⟩ => absurd hl nofun⟩⟩
  · intro s a s' _ ih _ hs
    refine ⟨ih.1.step (MuxState.step_mux hs), ?_⟩
    rcases MuxState.step_cases hs with ⟨c, pc, -, -, rfl⟩ | ⟨i, how, pc, pc', -, -, heff, -, hmap⟩
    · exact ih.2
    · rw [hmap]
      exact ih.2.run heff

end

/-! ## Calls that made a connection, and calls of `Close` -/

/-- Where a call is that made the connection `k`: before it can return an error, it sees to it
    that the connection is terminated, or that it was. -/
def MuxPc.Owes (k : Nat) (l : EndLife) : MuxPc → Prop
  | .sendAck _ k' true | .ackSent _ k' true _ | .offer _ k' | .sendOpen k' | .openSent k' _ | .await k' => k' = k
  | .terminate k' _ _ (.returned (some _)) | .terminate k' _ _ (.sendClose ..) => k' = k
  | .sendClose .. => l.doneOnce = .finished
  | .returned (some _) => l.doneOnce = .finished ∨ l.closed = true
  | .returned none => True
  | _ => False

/-- Where a call of `Close` is. -/
def MuxPc.Closes (once : Once) : MuxPc → Prop
  | .close | .closeStreams | .closing _ | .terminate _ _ _ (.closing _) => True
  | .returned _ => once = .finished
  | _ => False

section

variable {m m' : StreamMux} {s s' : MuxState} {i k : Nat} {pc pc' : MuxPc} {l l' : EndLife}

theorem MuxPc.Owes.ages {swap : Prop} (h : pc.Owes k l) (hages : Ages swap l l') : pc.Owes k l' := by
  unfold MuxPc.Owes at h
  split at h
  all_goals first
    | exact hages.finished h
    | exact h.imp hages.finished hages.closed
    | exact h
    | exact h.elim

theorem Quiet.owes {swap : Prop} (hq : Quiet m pc pc') (h : pc.Owes k l) (hk : m.lives[k]? = some l)
    (hages : Ages swap l l') : pc'.Owes k l' := by
  cases hq with
  | @acks _ _ created => cases created with
    | true => exact h
    | false => exact h.elim
  | ackFailed | acked | full | opens | openFailed | awaits | cancelled => exact h
  | offered | dialed => trivial
  | @closeSent _ _ err => cases err with
    | none => trivial
    | some err => exact .inl (hages.finished h)
  | @closed k₀ l₀ err hl hc =>
    obtain rfl : k₀ = k := h
    cases hk.symm.trans hl
    cases err with
    | none => trivial
    | some err => exact .inr (hages.closed hc)
  | _ => exact h.elim

theorem MuxLife.owes (heff : MuxLife m m' pc pc') (hpc : Knowing m pc) (h : pc.Owes k l) (hk : m.lives[k]? = some l) :
    ∃ l', m'.lives[k]? = some l' ∧ pc'.Owes k l' := by
  obtain ⟨l', hk', hages⟩ := heff.ages hpc hk
  refine ⟨l', hk', ?_⟩
  cases heff with
  | quiet _ _ hq => exact hq.owes h hk hages
  | @terminates k₀ err after l₀ l₁ t t' hk₀ ht hl =>
    -- `terminate` has returned only when it was through, here or elsewhere
    have hdone (he : k₀ = k) (ht : Terminates l₀ t l₁ none) : l'.doneOnce = .finished := by
      subst he
      rcases lives_set hl hk' with ⟨-, rfl⟩ | ⟨hne, -⟩
      · exact ht.returned
      · exact absurd rfl hne
    cases after with
    | returned err => cases err with
      | none => exact h.elim
      | some err => cases t' with
        | none => exact .inl (hdone h ht)
        | some t' => exact h
    | sendClose => cases t' with
      | none => exact hdone h ht
      | some t' => exact h
    | _ => exact h.elim
  | _ => exact h.elim

theorem MuxLife.finished (heff : MuxLife m m' pc pc') (h : m.once = .finished) : m'.once = .finished := by
  rcases heff.once_cases with hs | ⟨hf, -⟩ | ⟨-, ho, -⟩
  · exact hs.once.trans h
  · cases hf.symm.trans h
  · exact ho

theorem MuxLife.isClose (heff : MuxLife m m' pc pc') (h : pc.Closes m.once) : pc'.Closes m'.once := by
  cases heff with
  | quiet _ hs hq => cases hq with
    | closedBefore ho => exact hs.once.trans ho
    | next => trivial
    | _ => exact h.elim
  | @terminates k err after _ _ t t' => cases after with
    | closing ks => cases t' <;> trivial
    | _ => exact h.elim
  | closes | swaps => trivial
  | ends _ _ ho => exact ho
  | _ => exact h.elim

/-- A call is where it was, or this was its step. -/
theorem MuxState.step_call {a : MuxMove} (hs : s.step a = some s') (hi : s.mux.calls[i]? = some pc) :
    ∃ pc', s'.mux.calls[i]? = some pc' ∧ (MuxLife s.mux s'.mux pc pc' ∨ pc' = pc ∧
      (s'.mux = { s.mux with calls := s'.mux.calls } ∨ ∃ q ∈ s.mux.calls, ∃ q', MuxLife s.mux s'.mux q q')) := by
  rcases MuxState.step_cases hs with ⟨c, q, -, -, rfl⟩ | ⟨j, how, q, q', -, hj, heff, hcalls, -⟩
  · exact ⟨pc, Slots.snoc_get hi, .inr ⟨rfl, .inl rfl⟩⟩
  · rw [hcalls]
    rcases Slots.set_get j q' hi with ⟨rfl, hi'⟩ | ⟨-, hi'⟩
    · cases hi.symm.trans hj
      exact ⟨q', hi', .inl heff⟩
    · exact ⟨pc, hi', .inr ⟨rfl, .inr ⟨q, List.mem_of_getElem? hj, q', heff⟩⟩⟩

/-- The calls that made a connection, and those of `Close`, by the steps that say so. -/
structure Told (tr : List (MuxState × MuxMove)) (s : MuxState) : Prop where
  makers : ∀ st ∈ tr, ∀ i how s', st.2 = .run i how → st.1.step st.2 = some s' →
    st.1.mux.conns.length < s'.mux.conns.length →
    ∃ pc l, s.mux.calls[i]? = some pc ∧ s.mux.lives[st.1.mux.conns.length]? = some l ∧
      pc.Owes st.1.mux.conns.length l
  closers : ∀ st ∈ tr, st.2 = .call .close →
    ∃ pc, s.mux.calls[st.1.mux.calls.length]? = some pc ∧ pc.Closes s.mux.once

theorem Told.owes_step {a : MuxMove} (hsound : MuxSound s.mux) (hs : s.step a = some s')
    (h : ∃ pc l, s.mux.calls[i]? = some pc ∧ s.mux.lives[k]? = some l ∧ pc.Owes k l) :
    ∃ pc l, s'.mux.calls[i]? = some pc ∧ s'.mux.lives[k]? = some l ∧ pc.Owes k l := by
  obtain ⟨pc, l, hi, hk, ho⟩ := h
  obtain ⟨pc', hi', heff | ⟨rfl, hsame | ⟨q, hq, q', heff⟩⟩⟩ := MuxState.step_call hs hi
  · obtain ⟨l', hk', ho'⟩ := heff.owes (hsound.knowing (List.mem_of_getElem? hi)) ho hk
    exact ⟨pc', l', hi', hk', ho'⟩
  · exact ⟨pc', l, hi', by rw [hsame]; exact hk, ho⟩
  · obtain ⟨l', hk', hages⟩ := heff.ages (hsound.knowing hq) hk
    exact ⟨pc', l', hi', hk', ho.ages hages⟩

theorem Told.closes_step {a : MuxMove} (hs : s.step a = some s')
    (h : ∃ pc, s.mux.calls[i]? = some pc ∧ pc.Closes s.mux.once) :
    ∃ pc, s'.mux.calls[i]? = some pc ∧ pc.Closes s'.mux.once := by
  obtain ⟨pc, hi, hc⟩ := h
  obtain ⟨pc', hi', heff | ⟨rfl, hsame | ⟨q, -, q', heff⟩⟩⟩ := MuxState.step_call hs hi
  · exact ⟨pc', hi', heff.isClose hc⟩
  · exact ⟨pc', hi', by rw [hsame]; exact hc⟩
  · refine ⟨pc', hi', ?_⟩
    unfold MuxPc.Closes at hc ⊢
    split at hc
    all_goals first
      | exact heff.finished hc
      | exact hc

/-- The step that makes a connection leaves its call with the connection on its hands. -/
theorem MuxState.makes {how : Choice} (hs : s.step (.run i how) = some s')
    (hlen : s.mux.conns.length < s'.mux.conns.length) :
    ∃ pc l, s'.mux.calls[i]? = some pc ∧ s'.mux.lives[s.mux.conns.length]? = some l ∧ pc.Owes s.mux.conns.length l := by
  have hlives : ∀ m : StreamMux, m.lives.length = m.conns.length := fun m => List.length_map _
  rcases MuxState.step_cases hs with ⟨c, q, ha, -⟩ | ⟨j, how', pc, pc', ha, hj, heff, hcalls, -⟩
  · cases ha
  cases ha
  have hi : s'.mux.calls[i]? = some pc' := by
    rw [hcalls, List.getElem?_set_self (List.getElem?_eq_some_iff.mp hj).1]
  have hsame (hl : s'.mux.lives.length = s.mux.lives.length) : False := by
    rw [hlives, hlives] at hl
    omega
  cases heff with
  | quiet hl | closes _ hl | ends hl => exact (hsame (by rw [hl])).elim
  | connTerminates _ _ _ _ hl | terminates _ _ hl => exact (hsame (by rw [hl, List.length_set])).elim
  | swaps _ hl => exact (hsame (by rw [hl, List.length_map])).elim
  | opened _ _ hl | dialed _ _ hl =>
    exact ⟨_, _, hi, by rw [hl, ← hlives, List.getElem?_concat_length], rfl⟩

theorem Told.step {tr : List (MuxState × MuxMove)} {a : MuxMove} (h : Told tr s) (hsound : MuxSound s.mux)
    (hs : s.step a = some s') : Told (tr ++ [(s, a)]) s' := by
  refine ⟨fun st hst i how s₁ ha hs₁ hlen => ?_, fun st hst ha => ?_⟩
  · rcases List.mem_append.mp hst with hst | hst
    · exact Told.owes_step hsound hs (h.makers st hst i how s₁ ha hs₁ hlen)
    · cases List.mem_singleton.mp hst
      cases hs.symm.trans hs₁
      obtain rfl : a = .run i how := ha
      exact MuxState.makes hs hlen
  · rcases List.mem_append.mp hst with hst | hst
    · exact Told.closes_step hs (h.closers st hst ha)
    · cases List.mem_singleton.mp hst
      obtain rfl : a = .call .close := ha
      rcases MuxState.step_cases hs with ⟨c, pc, hc, hstart, rfl⟩ | ⟨_, _, _, _, hc, -⟩
      · cases hc
        cases hstart
        exact ⟨.close, List.getElem?_concat_length, trivial⟩
      · cases hc

theorem told {ok : MuxState → MuxMove → Prop} {tr : List (MuxState × MuxMove)}
    (h : Trace MuxState.step ok MuxState.Initial tr s) : Told tr s := by
  refine h.keeps (fun _ _ => ⟨fun _ hst => absurd hst List.not_mem_nil, fun _ hst => absurd hst List.not_mem_nil⟩) ?_
  intro tr s a t htr ih _ hs
  exact ih.step (mux_sound htr.reach).1 hs

/-! ## The whole -/

/-- A terminated connection is in the map only while its `terminate` is on the way to `remove`. -/
theorem MuxSound.unmapped (h : MuxSound s.mux) (hmap : Mapped s.mux s.streams) (hk : s.mux.lives[k]? = some l)
    (hc : l.closed = true) (hrun : l.doneOnce ≠ .running) (id : StreamID) : s.streams.lookup id ≠ some k := by
  intro hl
  obtain ⟨l', hk', hr, -⟩ := (hmap id k).mp hl
  cases hk.symm.trans hk'
  have hok := h.lives l (List.mem_of_getElem? hk)
  cases hd : l.doneOnce with
  | fresh => exact hok.closed hc hd
  | running => exact hrun hd
  | finished => cases hr.symm.trans (hok.finished hd).2

theorem MuxSound.registered (h : MuxSound m) (hc : m.closed = false) (hk : m.lives[k]? = some l)
    (ho : l.closed = false) : l.registered = true := by
  have hmem := List.mem_of_getElem? hk
  by_contra hr
  have hf := h.early (.inl (h.fresh.mpr hc)) l hmem (by simpa using hr)
  cases ho.symm.trans ((h.lives l hmem).finished hf).1

/-- An entry goes with the `terminate` of its own connection or with `Close`. -/
theorem MuxSound.entry_lost {a : MuxMove} {id : StreamID} (h : MuxSound s.mux) (hmap : Mapped s.mux s.streams)
    (hmap' : Mapped s'.mux s'.streams) (hs : s.step a = some s') (hl : s.streams.lookup id = some k) :
    s'.streams.lookup id = some k ∨ s.mux.closed = true ∨
      ∃ l, s'.mux.lives[k]? = some l ∧ l.doneOnce = .finished := by
  rcases MuxState.step_cases hs with ⟨c, pc, -, -, rfl⟩ | ⟨i, how, pc, pc', -, hpc, heff, -, -⟩
  · exact .inl hl
  have hmem := List.mem_of_getElem? hpc
  obtain ⟨l, hk, hr, hid⟩ := (hmap id k).mp hl
  obtain ⟨l', hk', hages⟩ := heff.ages (h.knowing hmem) hk
  cases hr' : l'.registered with
  | true => exact .inl ((hmap' id k).mpr ⟨l', hk', hr', hages.sameID.trans hid⟩)
  | false =>
    rcases hages.lost hr' with hlost | hf | rfl
    · cases hr.symm.trans hlost
    · exact .inr (.inr ⟨l', hk', hf⟩)
    · exact .inr (.inl (h.running hmem List.mem_cons_self).2)

theorem lives_conns {p : EndLife → Prop} (h : ∃ l, m.lives[k]? = some l ∧ p l) :
    ∃ e, m.conns[k]? = some e ∧ p e.life := by
  obtain ⟨l, hk, hp⟩ := h
  obtain ⟨e, he, rfl⟩ := Option.map_eq_some_iff.mp (List.getElem?_map ▸ hk)
  exact ⟨e, he, hp⟩

/-- In every run of a mux with its map: the model looks up what the map has. While the mux is not
    closed, a connection that is not terminated is in the map under its ID; a terminated one is
    not, once its `terminate` is through; an entry is taken out by the `terminate` of its own
    connection or by `Close`. A call that made a connection and returned an error leaves it
    terminated. When a call of `Close` has returned, the map is empty and every connection is
    terminated. -/
theorem mux_lifecycle {tr : List (MuxState × MuxMove)} (h : Trace MuxState.step free MuxState.Initial tr s) :
    (∀ id, s.streams.lookup id = s.mux.find id) ∧
    (∀ k e, s.mux.conns[k]? = some e → s.mux.closed = false → e.conn.isClosed = false →
      s.streams.lookup e.conn.id = some k) ∧
    (∀ k e, s.mux.conns[k]? = some e → e.conn.isClosed = true → e.doneOnce ≠ .running →
      ∀ id, s.streams.lookup id ≠ some k) ∧
    (∀ a s' id k, s.step a = some s' → s.streams.lookup id = some k → s'.streams.lookup id = some k ∨
      s.mux.closed = true ∨ ∃ e, s'.mux.conns[k]? = some e ∧ e.doneOnce = .finished) ∧
    (∀ st ∈ tr, ∀ i how s' err, st.2 = .run i how → st.1.step st.2 = some s' →
      st.1.mux.conns.length < s'.mux.conns.length → s.mux.calls[i]? = some (.returned (some err)) →
      ∃ e, s.mux.conns[st.1.mux.conns.length]? = some e ∧ e.conn.isClosed = true ∧
        (e.doneOnce ≠ .running → ∀ id, s.streams.lookup id ≠ some st.1.mux.conns.length)) ∧
    (∀ st ∈ tr, ∀ err, st.2 = .call .close → s.mux.calls[st.1.mux.calls.length]? = some (.returned err) →
      s.mux.once = .finished) ∧
    (s.mux.once = .finished → (∀ id, s.streams.lookup id = none) ∧ ∀ e ∈ s.mux.conns, e.conn.isClosed = true) := by
  obtain ⟨hsound, hmap⟩ := mux_sound h.reach
  have htold := told h
  refine ⟨fun id => (hmap.find id).symm, fun k e hk hc ho => ?_, fun k e hk hc hrun => ?_, fun a s' id k hs hl => ?_,
    fun st hst i how s' err ha hs hlen hret => ?_, fun st hst err ha hret => ?_, fun hend => ⟨fun id => ?_, fun e he => ?_⟩⟩
  · exact (hmap _ k).mpr ⟨_, lives_get hk, hsound.registered hc (lives_get hk) ho, rfl⟩
  · exact hsound.unmapped hmap (lives_get hk) hc hrun
  · have hmap' := (mux_sound (.step a h.reach trivial hs)).2
    rcases hsound.entry_lost hmap hmap' hs hl with hl | hc | hf
    · exact .inl hl
    · exact .inr (.inl hc)
    · exact .inr (.inr (lives_conns hf))
  · obtain ⟨pc, l, hi, hk, howes⟩ := htold.makers st hst i how s' ha hs hlen
    cases hi.symm.trans hret
    have hclosed : l.closed = true := by
      rcases howes with hf | hc
      · exact ((hsound.lives l (List.mem_of_getElem? hk)).finished hf).1
      · exact hc
    exact lives_conns (p := fun l => l.closed = true ∧ (l.doneOnce ≠ .running → ∀ id, s.streams.lookup id ≠ some _))
      ⟨l, hk, hclosed, fun hrun => hsound.unmapped hmap hk hclosed hrun⟩
  · obtain ⟨pc, hi, hc⟩ := htold.closers st hst ha
    cases hi.symm.trans hret
    exact hc
  · cases hl : s.streams.lookup id with
    | none => rfl
    | some k =>
      obtain ⟨l, hk, hr, -⟩ := (hmap id k).mp hl
      have hmem := List.mem_of_getElem? hk
      cases hr.symm.trans ((hsound.lives l hmem).finished (hsound.ended hend l hmem)).2
  · have hmem : e.life ∈ s.mux.lives := List.mem_map_of_mem he
    exact ((hsound.lives _ hmem).finished (hsound.ended hend _ hmem)).1

end

/-- A stream is dialed; the peer opens another, whose OpenAck the transport refuses; the mux is
    closed. -/
def dialedAndClosed : List MuxMove := List.flatten
  [[.call (.dial sampleID), .run 0 .go, .run 0 .taken, .run 0 .go],
    [.call (.handleFrame { kind := .frameOpen, id := .replicate 16 8, epoch := 1, window := 4 }), .run 1 .go,
      .run 1 (.refused .closed), .run 1 .go], List.replicate 4 (.run 1 .go),
    [.call .close], List.replicate 8 (.run 2 .go)]

theorem mux_lifecycle_closed : ∃ tr s, Trace MuxState.step free MuxState.Initial tr s ∧ s.mux.conns.length = 2 ∧
    s.mux.once = .finished ∧ (∀ id, s.streams.lookup id = none) ∧ ∀ e ∈ s.mux.conns, e.conn.isClosed = true := by
  have h : (record (guarded MuxState.step free) [] ⟨.new ⟨4, 8, 1⟩, ∅⟩ dialedAndClosed).any (fun r =>
      r.2.mux.conns.length = 2 ∧ r.2.mux.once = .finished) = true := by
    decide +kernel
  obtain ⟨tr, s, htr, hw⟩ := trace_any (I := MuxState.Initial) _ ⟨_, rfl⟩ h
  simp only [decide_eq_true_eq] at hw
  exact ⟨tr, s, htr, hw.1, hw.2, (mux_lifecycle htr).2.2.2.2.2.2 hw.2⟩

end Turntf.Stream
