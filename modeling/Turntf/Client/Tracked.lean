/-
  Turntf.Client.Tracked — tracked stream sends complete exactly once
  (`SendStreamFrameTracked`, `completeStreamSend`, `failAllStreamSends` of `client.go`).

  The ID of a tracked send is at one place at a time (`tally`): in `streamSendPending`, with
  a goroutine that took it from there and has yet to report it, or among the reports. The
  read loop, the teardown of a transport and `Close` take entries; so does a call whose frame
  was not written, which does not look whether its entry is still there. So:

  - `pending_limit`: the table never exceeds its limit.
  - `tracked_once`: as long as a failing call finds its entry, and no `Close` is in the middle
    of its reports when the teardown of a transport ends, a call that failed is never
    reported, and one that was written is reported at most once, and exactly once when its
    transport has been torn down.
  - `reported_and_failed`: a call that has not yet locked `writeMu` when its transport is torn
    down is reported by the teardown, and returns an error all the same.
-/

import Turntf.Lib.Locks
import Turntf.Client.Generations

namespace Turntf.Client

open Lts

/-! ## Where an ID is -/

/-- How many of the results are of the request ID. -/
def completions (results : List StreamSendResult) (id : Nat) : Nat := (results.map (·.requestID)).count id

@[simp] theorem completions_nil (id : Nat) : completions [] id = 0 := rfl

@[simp] theorem completions_append (as bs : List StreamSendResult) (id : Nat) :
    completions (as ++ bs) id = completions as id + completions bs id := by
  simp [completions]

/-- What was taken from the table and is yet to be reported. -/
def queued (c : Client) : List StreamSendResult := c.run.queue ++ c.closers.flatMap fun closer => closer.pc.queue

def tally (c : Client) (id : Nat) : Nat :=
  c.streamSendPending.keys.count id + completions c.queued id + completions c.results id

theorem completions_queued (c : Client) (id : Nat) :
    completions c.queued id =
      completions c.run.queue id + completions (c.closers.flatMap fun closer => closer.pc.queue) id :=
  completions_append _ _ id

theorem completions_streamSendResults (c : Client) (err : Err) (id : Nat) :
    completions (c.streamSendResults err) id = c.streamSendPending.keys.count id := by
  simp [completions, streamSendResults, AList.keys, List.keys, Function.comp_def]

theorem completions_closers {closers : List Closer} {j : Nat} {closer : Closer} (hj : closers[j]? = some closer) (new : Closer)
    (id : Nat) :
    completions ((closers.set j new).flatMap fun closer => closer.pc.queue) id + completions closer.pc.queue id =
      completions (closers.flatMap fun closer => closer.pc.queue) id + completions new.pc.queue id := by
  obtain ⟨hs, hset⟩ := Locks.split_at hj
  have hold := congrArg (fun closers => completions (closers.flatMap fun closer : Closer => closer.pc.queue) id) hs
  simp only [List.flatMap_append, List.flatMap_cons, completions_append] at hold
  simp only [hset, List.flatMap_append, List.flatMap_cons, completions_append]
  omega

/-! ## The invariant -/

/-- The transport whose teardown has emptied the table. -/
def RunPc.emptied : RunPc → Option Nat
  | .notifyAll g _ _ => some g
  | _ => none

/-- A tracked send of this request ID whose entry was not taken back. -/
def Call.Tracks (id : Nat) (call : Call) : Prop := call.requestID = id ∧ call.isTracked ∧ call.pc.listed call.kind

structure Tracks (c : Client) : Prop where
  once : ∀ id, c.tally id ≤ 1
  owner : ∀ id, 0 < c.tally id → ∃ i, At c.views i (·.Tracks id)
  kept : c.cfg.streamSendHandler → ∀ call ∈ c.views, call.isTracked → call.pc.listed call.kind →
    0 < c.tally call.requestID
  gone : ∀ call ∈ c.views, call.isTracked → ∀ g, call.conn = some g → g ∈ c.torn ∨ c.run.emptied = some g →
    call.requestID ∉ c.streamSendPending.keys
  reported : ∀ call ∈ c.views, call.isTracked → ∀ g, call.conn = some g → g ∈ c.torn →
    completions c.queued call.requestID = 0

section

variable {c c' : Client} {i j : Nat} {call call' : Call}

/-- A step that leaves the calls alone and moves IDs from place to place. -/
theorem Tracks.goes (ht : Tracks c) (hviews : c'.views = c.views) (hcfg : c'.cfg = c.cfg) (htorn : c'.torn = c.torn)
    (hle : ∀ id, c'.tally id ≤ c.tally id) (hge : c.cfg.streamSendHandler → ∀ id, c.tally id ≤ c'.tally id)
    (hkeys : ∀ id ∈ c'.streamSendPending.keys, id ∈ c.streamSendPending.keys)
    (hempty : ∀ g, c'.run.emptied = some g → c.run.emptied = some g ∨ c'.streamSendPending.keys = [])
    (hqueued : ∀ id, id ∉ c.streamSendPending.keys → completions c'.queued id ≤ completions c.queued id) : Tracks c' := by
  refine ⟨fun id => Nat.le_trans (hle id) (ht.once id), ?_, ?_, ?_, ?_⟩
  · rw [hviews]
    exact fun id hpos => ht.owner id (Nat.lt_of_lt_of_le hpos (hle id))
  · rw [hviews, hcfg]
    intro hhandler call hc htracked hl
    exact Nat.lt_of_lt_of_le (ht.kept hhandler call hc htracked hl) (hge hhandler _)
  · rw [hviews, htorn]
    intro call hc htracked g hg hgone hmem
    rcases hgone with hgone | hgone
    · exact ht.gone call hc htracked g hg (.inl hgone) (hkeys _ hmem)
    · rcases hempty g hgone with h | h
      · exact ht.gone call hc htracked g hg (.inr h) (hkeys _ hmem)
      · rw [h] at hmem
        exact absurd hmem List.not_mem_nil
  · rw [hviews, htorn]
    intro call hc htracked g hg hgone
    have hle := hqueued _ (ht.gone call hc htracked g hg (.inl hgone))
    have hzero := ht.reported call hc htracked g hg hgone
    omega

/-! ## Steps of the calls -/

/-- The call at `i` goes on, the IDs stay where they are. -/
theorem Tracks.set (ht : Tracks c) (hcalls : c'.calls = c.calls.set i call') (hcall : c.calls[i]? = some call)
    (hid : call'.requestID = call.requestID) (hkind : call'.kind = call.kind)
    (hlisted : call.isTracked → call'.pc.listed call.kind = call.pc.listed call.kind)
    (hconn : ∀ g, call'.conn = some g → call.conn = some g ∨ g ∉ c.torn ∧ c.run.emptied ≠ some g)
    (hcfg : c'.cfg = c.cfg) (htorn : c'.torn = c.torn) (hrun : c'.run = c.run) (hclosers : c'.closers = c.closers)
    (htable : c'.streamSendPending = c.streamSendPending) (hresults : c'.results = c.results) : Tracks c' := by
  have hmem := List.mem_of_getElem? (views_get hcall)
  have hviews : c'.views = c.views.set i call'.view := by simp [views, hcalls]
  have htracked : call'.isTracked = call.isTracked := by simp only [Call.isTracked, hkind]
  have hqueued : c'.queued = c.queued := by simp only [queued, hrun, hclosers]
  have htally (id : Nat) : c'.tally id = c.tally id := by simp only [tally, htable, hqueued, hresults]
  refine ⟨fun id => htally id ▸ ht.once id, ?_, ?_, ?_, ?_⟩
  · intro id hpos
    rw [htally] at hpos
    obtain ⟨k, hk⟩ := ht.owner id hpos
    refine ⟨k, hviews ▸ hk.set (views_get hcall) fun hw => ⟨hid.trans hw.1, htracked.trans hw.2.1, ?_⟩⟩
    have hold : call.pc.listed call.kind = true := hw.2.2
    show call'.pc.listed call'.kind = true
    rw [hkind, hlisted hw.2.1, hold]
  · rw [hviews, hcfg]
    intro hhandler
    refine forall_set (fun x hx => htally x.requestID ▸ ht.kept hhandler x hx) fun htr hl => ?_
    rw [htally]
    show 0 < c.tally call'.requestID
    rw [hid]
    refine ht.kept hhandler call.view hmem (htracked ▸ htr) ?_
    have hl : call'.pc.listed call'.kind = true := hl
    rwa [hkind, hlisted (htracked ▸ htr)] at hl
  · rw [hviews, htorn, hrun, htable]
    refine forall_set ht.gone fun htr g hg hgone => ?_
    show call'.requestID ∉ _
    rw [hid]
    rcases hconn g hg with hg | ⟨h₁, h₂⟩
    · exact ht.gone call.view hmem (htracked ▸ htr) g hg hgone
    · exact absurd hgone (not_or.mpr ⟨h₁, h₂⟩)
  · rw [hviews, htorn, hqueued]
    refine forall_set ht.reported fun htr g hg hgone => ?_
    show completions c.queued call'.requestID = 0
    rw [hid]
    rcases hconn g hg with hg | ⟨h₁, _⟩
    · exact ht.reported call.view hmem (htracked ▸ htr) g hg hgone
    · exact absurd hgone h₁

/-- An ID that is in the table is nowhere else. -/
theorem Tracks.alone (ht : Tracks c) {id : Nat} (h : id ∈ c.streamSendPending.keys) :
    c.streamSendPending.keys.count id = 1 ∧ completions c.queued id = 0 ∧ completions c.results id = 0 := by
  have honce := ht.once id
  have hpos := List.count_pos_iff.mpr h
  unfold tally at honce
  omega

/-- A call that has no entry yet has its ID nowhere. -/
theorem Tracks.absent (hs : Sound c) (ht : Tracks c) (hcall : c.calls[i]? = some call) (hpos : 0 < call.requestID)
    (hl : call.pc.listed call.kind = false) : c.tally call.requestID = 0 := by
  cases hzero : c.tally call.requestID with
  | zero => rfl
  | succ n =>
    obtain ⟨k, x, hx, hid, _, hlisted⟩ := ht.owner call.requestID (by omega)
    obtain ⟨y, hy, rfl⟩ := Option.map_eq_some_iff.mp ((List.getElem?_map).symm.trans hx)
    have hsame := hs.same hcall hy hid.symm hpos
    subst hsame
    cases hcall.symm.trans hy
    exact absurd (hl.symm.trans hlisted) nofun

/-- The entry of a new tracked send. -/
theorem Tracks.registers {metadata : StreamSendMetadata} (hs : Sound c) (ht : Tracks c) (hcall : c.calls[i]? = some call)
    (hk : call.kind = .tracked metadata) (hpc : call.pc = .register) :
    Tracks ({ c with streamSendPending := c.streamSendPending.insert call.requestID metadata }.setCall i
      { call with pc := .capture }) := by
  have hlt := (List.getElem?_eq_some_iff.mp (views_get hcall)).1
  have hold := hs.calls call (List.mem_of_getElem? hcall)
  have hpos : 0 < call.requestID := hold.numbered (by simp [hk]) (by rw [hpc]; rfl)
  have hconn : call.conn = none := hold.early (by rw [hpc]; rfl)
  have hzero := ht.absent hs hcall hpos (by rw [hk, hpc]; rfl)
  have hnot : call.requestID ∉ c.streamSendPending.keys := by
    intro h
    have := List.count_pos_iff.mpr h
    unfold tally at hzero
    omega
  have hkeys : (c.streamSendPending.insert call.requestID metadata).keys = call.requestID :: c.streamSendPending.keys := by
    rw [AList.keys_insert, List.erase_of_not_mem hnot]
  generalize hc' : ({ c with streamSendPending := c.streamSendPending.insert call.requestID metadata }.setCall i
      { call with pc := .capture }) = c'
  have hviews : c'.views = c.views.set i ({ call with pc := .capture } : Call).view := by simp [← hc', views, setCall]
  have htable : c'.streamSendPending.keys = call.requestID :: c.streamSendPending.keys := by rw [← hc']; exact hkeys
  have hqueued : c'.queued = c.queued := by rw [← hc']; rfl
  have htally (id : Nat) : c'.tally id = c.tally id + if id = call.requestID then 1 else 0 := by
    have hresults : c'.results = c.results := by rw [← hc']; rfl
    simp only [tally, htable, hqueued, hresults, List.count_cons]
    by_cases hid : id = call.requestID
    · simp [hid]
      omega
    · simp [hid, Ne.symm hid]
  have hrun : c'.run = c.run := by rw [← hc']; rfl
  have htorn : c'.torn = c.torn := by rw [← hc']; rfl
  have hcfg : c'.cfg = c.cfg := by rw [← hc']; rfl
  refine ⟨fun id => ?_, fun id hid => ?_, ?_, ?_, ?_⟩
  · rw [htally]
    by_cases hid : id = call.requestID
    · rw [if_pos hid, hid, hzero]
    · rw [if_neg hid]
      exact ht.once id
  · rw [hviews]
    by_cases he : id = call.requestID
    · exact ⟨i, _, List.getElem?_set_self hlt, he.symm, by simp [Call.view, Call.isTracked, hk], by simp [Call.view, hk, CallPc.listed]⟩
    · rw [htally, if_neg he] at hid
      obtain ⟨k, hk'⟩ := ht.owner id hid
      exact ⟨k, hk'.set (views_get hcall) fun hw => absurd hw.1.symm he⟩
  · rw [hviews, hcfg]
    intro hhandler
    refine forall_set (fun x hx htr hl => ?_) fun _ _ => ?_
    · have := ht.kept hhandler x hx htr hl
      rw [htally]
      omega
    · show 0 < c'.tally call.requestID
      rw [htally, if_pos rfl]
      omega
  · rw [hviews, htorn, hrun, htable]
    refine forall_set (fun x hx htr g hg hgone hmem => ?_) fun _ g hg => ?_
    · rcases List.mem_cons.mp hmem with hid | hmem
      · -- the transport of another call
        obtain ⟨k, hx⟩ := List.mem_iff_getElem?.mp hx
        obtain ⟨y, hy, rfl⟩ := Option.map_eq_some_iff.mp ((List.getElem?_map).symm.trans hx)
        have hsame := hs.same hcall hy hid.symm hpos
        subst hsame
        cases hcall.symm.trans hy
        exact absurd (hconn.symm.trans hg) (by simp)
      · exact ht.gone x hx htr g hg hgone hmem
    · exact absurd (hconn.symm.trans hg) (by simp)
  · rw [hviews, htorn, hqueued]
    refine forall_set ht.reported fun _ g hg => ?_
    exact absurd (hconn.symm.trans hg) (by simp)

/-- A failing call finds its entry and takes it back. -/
theorem Tracks.takesBack {metadata : StreamSendMetadata} {err : Err} (hs : Sound c) (ht : Tracks c)
    (hcall : c.calls[i]? = some call) (hk : call.kind = .tracked metadata) (hpc : call.pc = .failed err)
    (hfound : call.requestID ∈ c.streamSendPending.keys) :
    Tracks ({ c with streamSendPending := c.streamSendPending.erase call.requestID }.setCall i
      { call with pc := .returned (.error err) }) := by
  have hmem := List.mem_of_getElem? (views_get hcall)
  have hpos : 0 < call.requestID := (hs.calls call (List.mem_of_getElem? hcall)).listed (by rw [hk, hpc]; rfl)
  obtain ⟨hone, hqueued0, hresults0⟩ := ht.alone hfound
  generalize hc' : ({ c with streamSendPending := c.streamSendPending.erase call.requestID }.setCall i
      { call with pc := .returned (.error err) }) = c'
  have hviews : c'.views = c.views.set i ({ call with pc := .returned (.error err) } : Call).view := by
    simp [← hc', views, setCall]
  have htable : c'.streamSendPending.keys = c.streamSendPending.keys.erase call.requestID := by
    rw [← hc']
    exact AList.keys_erase _ _
  have hqueued : c'.queued = c.queued := by rw [← hc']; rfl
  have hresults : c'.results = c.results := by rw [← hc']; rfl
  have hself : c'.tally call.requestID = 0 := by
    simp only [tally, htable, hqueued, hresults, List.count_erase_self]
    omega
  have hother {id : Nat} (hid : id ≠ call.requestID) : c'.tally id = c.tally id := by
    simp only [tally, htable, hqueued, hresults, List.count_erase_of_ne hid]
  have hrun : c'.run = c.run := by rw [← hc']; rfl
  have htorn : c'.torn = c.torn := by rw [← hc']; rfl
  have hcfg : c'.cfg = c.cfg := by rw [← hc']; rfl
  refine ⟨fun id => ?_, fun id hid => ?_, ?_, ?_, ?_⟩
  · by_cases he : id = call.requestID
    · rw [he, hself]
      omega
    · rw [hother he]
      exact ht.once id
  · have he : id ≠ call.requestID := by
      intro he
      rw [he, hself] at hid
      omega
    rw [hother he] at hid
    obtain ⟨k, hk'⟩ := ht.owner id hid
    exact ⟨k, hviews ▸ hk'.set (views_get hcall) fun hw => absurd hw.1.symm he⟩
  · rw [hviews, hcfg]
    intro hhandler x hx htr hl
    obtain ⟨k, hx⟩ := List.mem_iff_getElem?.mp hx
    rcases Slots.get_set hx with ⟨rfl, rfl⟩ | ⟨hik, hx⟩
    · simp [Call.view, hk, CallPc.listed] at hl
    · obtain ⟨y, hy, rfl⟩ := Option.map_eq_some_iff.mp ((List.getElem?_map).symm.trans hx)
      have he : y.requestID ≠ call.requestID := fun he => hik (hs.same hcall hy he.symm hpos).symm
      show 0 < c'.tally y.requestID
      rw [hother he]
      exact ht.kept hhandler y.view (List.mem_of_getElem? hx) htr hl
  · rw [hviews, htorn, hrun, htable]
    exact forall_set (fun x hx htr g hg hgone hm => ht.gone x hx htr g hg hgone (List.mem_of_mem_erase hm))
      fun htr g hg hgone hm => ht.gone call.view hmem htr g hg hgone (List.mem_of_mem_erase hm)
  · rw [hviews, htorn, hqueued]
    exact forall_set ht.reported fun htr g hg hgone => ht.reported call.view hmem htr g hg hgone

theorem CallEffect.tracks (hs : Sound c) (ht : Tracks c) (hcall : c.calls[i]? = some call)
    (hback : ∀ err, call.isTracked → call.pc = .failed err → call.requestID ∈ c.streamSendPending.keys)
    (h : CallEffect c i call c') : Tracks c' := by
  have hmem := List.mem_of_getElem? hcall
  have hold := hs.calls call hmem
  cases h with
  | moves pc' ctx' ch hgoes hch =>
    exact ht.set rfl hcall rfl rfl (fun _ => hgoes.listed) (fun _ => .inl) rfl rfl rfl rfl rfl rfl
  | numbers pc' hpc hl hplaced hf hsends =>
    have hconn : call.conn = none := hold.early (by rw [hpc]; rfl)
    refine ⟨ht.once, fun id hid => ?_, fun hhandler => ?_, ?_, ?_⟩
    · obtain ⟨k, hk⟩ := ht.owner id hid
      refine ⟨k, ?_⟩
      rw [views, setCall, List.map_set]
      refine hk.set (views_get hcall) fun hw => absurd hw.2.2 ?_
      show ¬ call.pc.listed call.kind = true
      rw [hpc]
      cases call.kind <;> simp [CallPc.listed]
    · rw [views, setCall, List.map_set]
      refine forall_set (ht.kept hhandler) fun _ h => ?_
      exact absurd (hl.symm.trans h) Bool.false_ne_true
    · rw [views, setCall, List.map_set]
      exact forall_set ht.gone fun _ g hg => absurd (hconn.symm.trans hg) (by simp)
    · rw [views, setCall, List.map_set]
      exact forall_set ht.reported fun _ g hg => absurd (hconn.symm.trans hg) (by simp)
  | registersRpc ping hk hpc =>
    exact ht.set rfl hcall rfl rfl (by simp [Call.isTracked, hk]) (fun _ => .inl) rfl rfl rfl rfl rfl rfl
  | registersTracked metadata hk hpc hlimit => exact ht.registers hs hcall hk hpc
  | captures g hpc hconn =>
    refine ht.set rfl hcall rfl rfl ?_ (fun g' hg' => .inr ?_) rfl rfl rfl rfl rfl rfl
    · intro _
      rw [hpc]
      cases call.kind <;> rfl
    · cases hg'
      refine ⟨(hs.generations.captured hconn).2, fun he => ?_⟩
      have hserves := hs.generations.served g hconn
      cases hrun : c.run with
      | notifyAll g' err results => rw [hrun] at hserves; cases hserves
      | _ => rw [hrun] at he; cases he
  | hands hpc =>
    refine ht.set rfl hcall rfl rfl ?_ (fun _ => .inl) rfl rfl rfl rfl rfl rfl
    intro _
    rw [hpc]
    cases call.kind <;> rfl
  | invalidates g pc' hgoes =>
    apply invalidateTransport_cases (P := fun d => Tracks (d.setCall i { call with pc := pc' }))
    · exact ht.set rfl hcall rfl rfl (fun _ => hgoes.listed) (fun _ => .inl) rfl rfl rfl rfl rfl rfl
    · exact ht.set rfl hcall rfl rfl (fun _ => hgoes.listed) (fun _ => .inl) rfl rfl rfl rfl rfl rfl
  | takesBack metadata err hk hpc => exact ht.takesBack hs hcall hk hpc (hback err (by simp [Call.isTracked, hk]) hpc)
  | unregisters ping res pc' hk hpc hl he hsends =>
    exact ht.set rfl hcall rfl rfl (by simp [Call.isTracked, hk]) (fun _ => .inl) rfl rfl rfl rfl rfl rfl

/-! ## Steps of `run` and of `Close` -/

/-- An entry goes from the table to the goroutine that takes it. -/
theorem count_erase {keys : List Nat} {id : Nat} (h : id ∈ keys) (x : Nat) :
    (keys.erase id).count x + (if x = id then 1 else 0) = keys.count x := by
  by_cases hx : x = id
  · have := List.count_pos_iff.mpr h
    simp [hx]
    omega
  · simp [hx, List.count_erase_of_ne hx]

theorem completions_singleton (result : StreamSendResult) (id : Nat) :
    completions [result] id = if id = result.requestID then 1 else 0 := by
  by_cases h : id = result.requestID
  · simp [completions, h]
  · simp [completions, h, Ne.symm h]

/-- The handler is called with a result that was queued, if it takes results at all. -/
theorem notifyStreamSend_results (c : Client) (result : StreamSendResult) (id : Nat) :
    completions (c.notifyStreamSend result).results id ≤ completions c.results id + completions [result] id ∧
      (c.cfg.streamSendHandler → completions (c.notifyStreamSend result).results id =
        completions c.results id + completions [result] id) := by
  unfold notifyStreamSend
  split
  · simp
  · rename_i h
    exact ⟨Nat.le_add_right _ _, fun h' => absurd h' h⟩

theorem RunPc.emptied_tears {pc : RunPc} {g : Nat} (h : pc.emptied = some g) : pc.tears = some g := by
  cases pc <;> simp_all [RunPc.emptied, RunPc.tears]

theorem RunPc.tears_emptied {pc : RunPc} {g : Nat} (h : pc.tears = some g) (hq : pc.queue ≠ []) : pc.emptied = some g := by
  cases pc <;> simp_all [RunPc.emptied, RunPc.tears, RunPc.queue]

/-- A step that takes nothing from the table and reports nothing. -/
theorem Tracks.quiet (ht : Tracks c) (hviews : c'.views = c.views) (hcfg : c'.cfg = c.cfg) (htorn : c'.torn = c.torn)
    (htable : c'.streamSendPending = c.streamSendPending) (hqueued : ∀ id, completions c'.queued id = completions c.queued id)
    (hresults : c'.results = c.results) (hempty : ∀ g, c'.run.emptied = some g → c.run.emptied = some g) :
    Tracks c' := by
  have htally (id : Nat) : c'.tally id = c.tally id := by simp only [tally, htable, hqueued, hresults]
  refine ht.goes hviews hcfg htorn (fun id => Nat.le_of_eq (htally id)) (fun _ id => Nat.le_of_eq (htally id).symm) ?_
    (fun g h => .inl (hempty g h)) (fun id _ => Nat.le_of_eq (hqueued id))
  rw [htable]
  exact fun _ h => h

/-- The table is emptied, and its entries are now to be reported. -/
theorem Tracks.takes (ht : Tracks c) (hviews : c'.views = c.views) (hcfg : c'.cfg = c.cfg) (htorn : c'.torn = c.torn)
    (htable : c'.streamSendPending.keys = [])
    (hqueued : ∀ id, completions c'.queued id = completions c.queued id + c.streamSendPending.keys.count id)
    (hresults : c'.results = c.results) : Tracks c' := by
  have htally (id : Nat) : c'.tally id = c.tally id := by
    simp only [tally, htable, hqueued, hresults, List.count_nil]
    omega
  refine ht.goes hviews hcfg htorn (fun id => Nat.le_of_eq (htally id)) (fun _ id => Nat.le_of_eq (htally id).symm) ?_
    (fun _ _ => .inr htable) fun id hid => ?_
  · rw [htable]
    exact fun id h => absurd h List.not_mem_nil
  · rw [hqueued, List.count_eq_zero.mpr hid]
    exact Nat.le_refl _

/-- A result that was to be reported is reported. -/
theorem Tracks.reports {result : StreamSendResult} (ht : Tracks c) (hviews : c'.views = c.views)
    (hcfg : c'.cfg = c.cfg) (htorn : c'.torn = c.torn) (htable : c'.streamSendPending = c.streamSendPending)
    (hqueued : ∀ id, completions c.queued id = completions c'.queued id + completions [result] id)
    (hresults : c'.results = (c.notifyStreamSend result).results)
    (hempty : ∀ g, c'.run.emptied = some g → c.run.emptied = some g) : Tracks c' := by
  have hcount := notifyStreamSend_results c result
  refine ht.goes hviews hcfg htorn (fun id => ?_) (fun hhandler id => ?_) ?_ (fun g h => .inl (hempty g h)) fun id _ => ?_
  · have := (hcount id).1
    have := hqueued id
    simp only [tally, htable, hresults]
    omega
  · have := (hcount id).2 hhandler
    have := hqueued id
    simp only [tally, htable, hresults]
    omega
  · rw [htable]
    exact fun _ h => h
  · have := hqueued id
    omega

theorem notifyStreamSend_same (c : Client) (result : StreamSendResult) :
    ∃ results, c.notifyStreamSend result = { c with results := results } := by
  unfold notifyStreamSend
  split
  · exact ⟨_, rfl⟩
  · exact ⟨c.results, rfl⟩

theorem RunEffect.tracks (ht : Tracks c) (h : RunEffect c c')
    (hlast : ∀ g err, c.run = .notifyAll g err [] → ∀ closer ∈ c.closers, closer.pc.queue = []) : Tracks c' := by
  have hviews := h.views
  have hqueue {d : Client} (hclosers : d.closers = c.closers) (h : d.run.queue = c.run.queue) (id : Nat) :
      completions d.queued id = completions c.queued id := by
    simp only [queued, hclosers, h]
  cases h with
  | idles pc' stop first delay slept hserves htears htears' hq hq' hd =>
    refine ht.quiet hviews rfl rfl rfl (hqueue rfl (hq'.trans hq.symm)) rfl fun g h => ?_
    exact absurd (htears'.symm.trans (RunPc.emptied_tears h)) nofun
  | logsIn info hpc => exact ht.quiet hviews rfl rfl rfl (hqueue rfl (by rw [hpc]; rfl)) rfl nofun
  | resolves g requestID ch res orElse hpc hl => exact ht.quiet hviews rfl rfl rfl (hqueue rfl (by rw [hpc]; rfl)) rfl nofun
  | delivers g ch r hpc => exact ht.quiet hviews rfl rfl rfl (hqueue rfl (by rw [hpc]; rfl)) rfl nofun
  | clears g err hpc => exact ht.quiet hviews rfl rfl rfl (hqueue rfl (by rw [hpc]; rfl)) rfl nofun
  | failsPending g err hpc => exact ht.quiet hviews rfl rfl rfl (hqueue rfl (by rw [hpc]; rfl)) rfl nofun
  | failsLast err hpc => exact ht.quiet hviews rfl rfl rfl (hqueue rfl (by rw [hpc]; rfl)) rfl nofun
  | completes g requestID metadata err hpc hl =>
    have hmem : requestID ∈ c.streamSendPending.keys := AList.mem_keys.mp (AList.lookup_isSome.mp (by rw [hl]; rfl))
    have hq : c.run.queue = [] := by rw [hpc]; rfl
    have hkeys (id : Nat) : (c.streamSendPending.erase requestID).keys.count id + (if id = requestID then 1 else 0) =
        c.streamSendPending.keys.count id := by
      rw [AList.keys_erase]
      exact count_erase hmem id
    generalize hc' : ({ c with
      streamSendPending := c.streamSendPending.erase requestID
      run := .notify g ⟨requestID, metadata, err⟩ } : Client) = c' at hviews ⊢
    have htable : c'.streamSendPending = c.streamSendPending.erase requestID := by rw [← hc']
    have hqueued (id : Nat) : completions c'.queued id = completions c.queued id + if id = requestID then 1 else 0 := by
      have hrun : c'.run.queue = [⟨requestID, metadata, err⟩] := by rw [← hc']; rfl
      have hclosers : c'.closers = c.closers := by rw [← hc']
      rw [completions_queued, completions_queued, hrun, hq, hclosers, completions_singleton, completions_nil, Nat.zero_add]
      exact Nat.add_comm _ _
    have htally (id : Nat) : c'.tally id = c.tally id := by
      have hresults : c'.results = c.results := by rw [← hc']
      have := hkeys id
      simp only [tally, htable, hqueued, hresults]
      omega
    refine ht.goes hviews (by rw [← hc']) (by rw [← hc']) (fun id => Nat.le_of_eq (htally id))
      (fun _ id => Nat.le_of_eq (htally id).symm) ?_ (by rw [← hc']; exact nofun) ?_
    · rw [htable, AList.keys_erase]
      exact fun id h => List.mem_of_mem_erase h
    · intro id hid
      have hne : id ≠ requestID := fun he => hid (he ▸ hmem)
      rw [hqueued, if_neg hne]
      exact Nat.le_refl _
  | reports result pc' hserves htears hq hd =>
    obtain ⟨results, hsame⟩ := notifyStreamSend_same c result
    have hresults : (c.notifyStreamSend result).results = results := by rw [hsame]
    rw [hsame] at hviews ⊢
    refine ht.reports hviews rfl rfl rfl (fun id => ?_) hresults.symm fun g h => ?_
    · rw [completions_queued, completions_queued, hq, ← List.singleton_append, completions_append]
      show _ = completions pc'.queue id + completions (c.closers.flatMap fun closer => closer.pc.queue) id + _
      omega
    · exact RunPc.tears_emptied (htears.symm.trans (RunPc.emptied_tears h)) (by rw [hq]; nofun)
  | failsStreams g err hpc =>
    have hq : c.run.queue = [] := by rw [hpc]; rfl
    generalize hc' : ({ c with
      streamSendPending := ∅, run := .notifyAll g err (c.streamSendResults .disconnected) } : Client) = c' at hviews ⊢
    have htable : c'.streamSendPending.keys = [] := by rw [← hc']; rfl
    have hqueued (id : Nat) : completions c'.queued id = completions c.queued id + c.streamSendPending.keys.count id := by
      have hrun : c'.run.queue = c.streamSendResults .disconnected := by rw [← hc']; rfl
      have hclosers : c'.closers = c.closers := by rw [← hc']
      rw [completions_queued, completions_queued, hrun, hq, hclosers, completions_streamSendResults, completions_nil]
      omega
    exact ht.takes hviews (by rw [← hc']) (by rw [← hc']) htable hqueued (by rw [← hc'])
  | tornDown g err hpc =>
    have hq : c.run.queue = [] := by rw [hpc]; rfl
    have hqueued : c.queued = [] := by
      simp only [queued, hq, List.nil_append, List.flatMap_eq_nil_iff]
      exact hlast g err hpc
    have hqueued' : queued { c with torn := c.torn ++ [g], run := .decide (some err) } = [] := by
      simp only [queued, RunPc.queue, List.nil_append, List.flatMap_eq_nil_iff]
      exact hlast g err hpc
    have htally (id : Nat) : tally { c with torn := c.torn ++ [g], run := .decide (some err) } id = c.tally id := by
      simp only [tally, hqueued, hqueued']
    refine ⟨fun id => (htally id).symm ▸ ht.once id, fun id hid => ht.owner id (htally id ▸ hid),
      fun hhandler call hc htr hl => (htally _).symm ▸ ht.kept hhandler call hc htr hl, ?_, ?_⟩
    · intro call hc htr g' hg' hgone
      rcases hgone with hgone | hgone
      · rcases List.mem_append.mp hgone with hgone | hgone
        · exact ht.gone call hc htr g' hg' (.inl hgone)
        · cases List.mem_singleton.mp hgone
          exact ht.gone call hc htr g hg' (.inr (by rw [hpc]; rfl))
      · cases hgone
    · intro call _ _ _ _ _
      rw [hqueued']
      rfl

theorem CloseEffect.tracks {closer : Closer} (ht : Tracks c) (hj : c.closers[j]? = some closer)
    (h : CloseEffect c j closer c') : Tracks c' := by
  -- the reports of one `Close` change, those of the others and of `run` do not
  have hset (d : Client) (pc' : ClosePc) (hrun : d.run = c.run)
      (hclosers : d.closers = c.closers.set j { closer with pc := pc' }) (id : Nat) :
      completions d.queued id + completions closer.pc.queue id = completions c.queued id + completions pc'.queue id := by
    have := completions_closers hj { closer with pc := pc' } id
    rw [completions_queued, completions_queued, hrun, hclosers]
    simp only at this
    omega
  cases h with
  | idles pc' canceled hq hq' =>
    refine ht.quiet rfl rfl rfl rfl (fun id => ?_) rfl fun _ h => h
    have := hset ({ c with canceled := canceled }.closerAt j closer pc') pc' rfl rfl id
    rwa [hq, hq', completions_nil] at this
  | closes hpc =>
    refine ht.quiet rfl rfl rfl rfl (fun id => ?_) rfl fun _ h => h
    have := hset ({ c with closed := true, conn := none, authenticated := false, loginInfo := .zero }.closerAt j closer
      .cancel) .cancel rfl rfl id
    rwa [hpc] at this
  | takes hpc =>
    refine ht.takes rfl rfl rfl rfl (fun id => ?_) rfl
    have := hset ({ c with streamSendPending := ∅ }.closerAt j closer (.notifyAll (c.streamSendResults .closed)))
      (.notifyAll (c.streamSendResults .closed)) rfl rfl id
    rwa [hpc, show ClosePc.queue .failStreams = [] from rfl, completions_nil,
      show ClosePc.queue (.notifyAll (c.streamSendResults .closed)) = c.streamSendResults .closed from rfl,
      completions_streamSendResults] at this
  | reports result results hpc =>
    obtain ⟨new, hsame⟩ := notifyStreamSend_same c result
    have hresults : (c.notifyStreamSend result).results = new := by rw [hsame]
    rw [hsame]
    refine ht.reports rfl rfl rfl rfl (fun id => ?_) hresults.symm fun _ h => h
    have := hset ({ c with results := new }.closerAt j closer (.notifyAll results)) (.notifyAll results) rfl rfl id
    rw [hpc, ClosePc.queue, ClosePc.queue, ← List.singleton_append, completions_append] at this
    omega

/-! ## Runs -/

def CallPc.succeeded : CallPc → Bool
  | .returned (.ok _) => true
  | _ => false

theorem CallPc.succeeded_iff {pc : CallPc} : pc.succeeded ↔ ∃ res, pc = .returned (.ok res) := by
  unfold CallPc.succeeded
  split <;> simp_all

def CallPc.failedWith (err : Err) : CallPc → Bool
  | .returned (.error err') => err' = err
  | _ => false

theorem CallPc.failedWith_iff {pc : CallPc} {err : Err} : pc.failedWith err ↔ pc = .returned (.error err) := by
  unfold CallPc.failedWith
  split <;> simp_all

/-- The call is about to take its entry back. -/
def CallPc.failing : CallPc → Bool
  | .failed _ => true
  | _ => false

/-- The teardown has reported all it took. -/
def RunPc.drained : RunPc → Bool
  | .notifyAll _ _ [] => true
  | _ => false

/-- A tracked send that failed finds its entry, and no `Close` has reports left when a teardown
    ends. -/
def Intact (c : Client) : Action → Prop
  | .step i _ => ∀ call ∈ c.calls[i]?, call.isTracked → call.pc.failing → call.requestID ∈ c.streamSendPending.keys
  | .serve _ => c.run.drained → ∀ closer ∈ c.closers, closer.pc.queue = []
  | _ => True

instance (c : Client) : (a : Action) → Decidable (Intact c a)
  | .step i _ => inferInstanceAs (Decidable (∀ call ∈ c.calls[i]?, call.isTracked → call.pc.failing →
      call.requestID ∈ c.streamSendPending.keys))
  | .serve _ => inferInstanceAs (Decidable (c.run.drained → ∀ closer ∈ c.closers, closer.pc.queue = []))
  | .connect | .call _ | .done _ _ | .cleanup _ | .close | .closeStep _ => .isTrue trivial

theorem StepEffect.tracks {a : Action} (hs : Sound c) (ht : Tracks c) (hok : Intact c a) (h : StepEffect c a c') :
    Tracks c' := by
  cases h with
  | call i how call hcall heff =>
    refine heff.tracks hs ht hcall fun err htracked hpc => ?_
    exact hok call hcall htracked (by rw [hpc]; rfl)
  | starts request kind pc hp hl hn hsends =>
    have hviews : views { c with calls := c.calls ++ [newCall kind pc] } = c.views ++ [newCall kind pc] := by
      simp only [views, List.map_append, List.map_cons, List.map_nil]
      rfl
    refine ⟨ht.once, ?_, ?_, ?_, ?_⟩
    · rw [hviews]
      intro id hid
      obtain ⟨k, hk⟩ := ht.owner id hid
      exact ⟨k, hk.append⟩
    · rw [hviews]
      exact fun hhandler => forall_append (ht.kept hhandler) fun _ h => absurd (hl.symm.trans h) Bool.false_ne_true
    · rw [hviews]
      exact forall_append ht.gone fun _ _ hg => absurd hg (by simp [newCall])
    · rw [hviews]
      exact forall_append ht.reported fun _ _ hg => absurd hg (by simp [newCall])
  | leaves i deadline call err hcall =>
    exact ht.set rfl hcall rfl rfl (fun _ => rfl) (fun _ => .inl) rfl rfl rfl rfl rfl rfl
  | cleans i call hcall => exact ht.quiet rfl rfl rfl rfl (fun _ => rfl) rfl fun _ h => h
  | connects hpc heff =>
    refine heff.tracks ht fun g err h => ?_
    rw [hpc] at h
    cases h
  | connected => exact ht
  | run how heff =>
    refine heff.tracks ht fun g err hpc => ?_
    exact hok (by rw [hpc]; rfl)
  | closer j closer hj heff => exact heff.tracks ht hj
  | startsClose started =>
    refine ht.quiet rfl rfl rfl rfl (fun id => ?_) rfl fun _ h => h
    simp [queued, ClosePc.queue]

/-- The table grows only while it is below its limit. -/
theorem StepEffect.table {a : Action} (h : StepEffect c a c') : c'.cfg = c.cfg ∧
    (c'.streamSendPending.entries.length ≤ c.streamSendPending.entries.length ∨
      c'.streamSendPending.entries.length ≤ c.streamSendPending.entries.length + 1 ∧
        c.streamSendPending.entries.length < c.cfg.streamSendPendingLimit) := by
  have herase (id : Nat) : (c.streamSendPending.erase id).entries.length ≤ c.streamSendPending.entries.length :=
    (List.kerase_sublist id _).length_le
  have hrun {c' : Client} (h : RunEffect c c') : c'.cfg = c.cfg ∧
      c'.streamSendPending.entries.length ≤ c.streamSendPending.entries.length := by
    cases h with
    | completes g requestID => exact ⟨rfl, herase requestID⟩
    | failsStreams => exact ⟨rfl, Nat.zero_le _⟩
    | reports result =>
      obtain ⟨results, hsame⟩ := notifyStreamSend_same c result
      rw [hsame]
      exact ⟨rfl, Nat.le_refl _⟩
    | _ => exact ⟨rfl, Nat.le_refl _⟩
  cases h with
  | call i how call hcall heff =>
    cases heff with
    | registersTracked metadata hk hpc hlimit =>
      refine ⟨rfl, .inr ⟨?_, hlimit⟩⟩
      exact Nat.succ_le_succ (List.kerase_sublist call.requestID _).length_le
    | takesBack => exact ⟨rfl, .inl (herase _)⟩
    | invalidates g pc' =>
      apply invalidateTransport_cases (P := fun d => (d.setCall i { call with pc := pc' }).cfg = c.cfg ∧
        ((d.setCall i { call with pc := pc' }).streamSendPending.entries.length ≤ _ ∨ _))
      · exact ⟨rfl, .inl (Nat.le_refl _)⟩
      · exact ⟨rfl, .inl (Nat.le_refl _)⟩
    | _ => exact ⟨rfl, .inl (Nat.le_refl _)⟩
  | connects hpc heff => exact (hrun heff).imp_right .inl
  | run how heff => exact (hrun heff).imp_right .inl
  | closer j closer hj heff =>
    cases heff with
    | takes => exact ⟨rfl, .inl (Nat.zero_le _)⟩
    | reports result =>
      obtain ⟨results, hsame⟩ := notifyStreamSend_same c result
      rw [hsame]
      exact ⟨rfl, .inl (Nat.le_refl _)⟩
    | _ => exact ⟨rfl, .inl (Nat.le_refl _)⟩
  | _ => exact ⟨rfl, .inl (Nat.le_refl _)⟩

end

section

variable {ok : Client → Action → Prop} {c : Client} {i : Nat} {call : Call}

theorem pending_limit (h : Reach step ok Initial c) :
    c.streamSendPending.entries.length ≤ c.cfg.streamSendPendingLimit := by
  refine h.keeps (P := fun c => (c.streamSendPending.entries.length : Int) ≤ c.cfg.streamSendPendingLimit) ?_
    fun c a c' hr hle _ h => ?_
  · rintro c ⟨cfg, rfl⟩
    show (0 : Int) ≤ cfg.normalized.streamSendPendingLimit
    simp only [Config.normalized, defaultStreamSendPendingLimit]
    split
    · decide
    · omega
  · obtain ⟨hcfg, htable⟩ := (step_effect (sound hr).placed h).table
    rw [hcfg]
    omega

theorem new_tracks (cfg : Config) : Tracks (.new cfg) := by
  have htally (id : Nat) : tally (.new cfg) id = 0 := rfl
  refine ⟨fun id => (htally id).symm ▸ Nat.zero_le 1, fun id h => ?_, fun _ _ h => absurd h List.not_mem_nil,
    fun _ h => absurd h List.not_mem_nil, fun _ h => absurd h List.not_mem_nil⟩
  rw [htally] at h
  cases h

theorem tracks (h : Reach step Intact Initial c) : Tracks c := by
  refine h.keeps ?_ fun c a c' hr ht hok h => (step_effect (sound hr).placed h).tracks (sound hr) ht hok
  rintro c ⟨cfg, rfl⟩
  exact new_tracks cfg

/-- A call that returned an error has its ID nowhere. -/
theorem Tracks.returned {err : Err} (hs : Sound c) (ht : Tracks c) (hcall : c.calls[i]? = some call)
    (htracked : call.isTracked) (hpc : call.pc = .returned (.error err)) : c.tally call.requestID = 0 := by
  have hl : call.pc.listed call.kind = false := by
    rw [hpc]
    unfold Call.isTracked at htracked
    cases hk : call.kind with
    | tracked metadata => rfl
    | rpc ping => rw [hk] at htracked; cases htracked
    | frame => rfl
  cases hid : call.requestID with
  | succ n => exact hid ▸ ht.absent hs hcall (by omega) hl
  | zero =>
    -- no entry is under the ID of a call that has none
    cases hzero : c.tally 0 with
    | zero => rfl
    | succ n =>
      obtain ⟨k, x, hx, hxid, _, hlisted⟩ := ht.owner 0 (by omega)
      obtain ⟨y, hy, rfl⟩ := Option.map_eq_some_iff.mp ((List.getElem?_map).symm.trans hx)
      have hpos := (hs.calls y (List.mem_of_getElem? hy)).listed hlisted
      exact absurd hxid (Nat.ne_of_gt hpos)

/-- In a run where every tracked send that fails finds its entry, and no `Close` has reports
    left when a teardown ends: a call that returned an error is never reported, and one that
    returned its request ID is reported at most once, and exactly once when its transport has
    been torn down. -/
theorem tracked_once (h : Reach step Intact Initial c) (hcall : c.calls[i]? = some call) (htracked : call.isTracked) :
    (∀ err, call.pc = .returned (.error err) → completions c.results call.requestID = 0) ∧
    (∀ res, call.pc = .returned (.ok res) → 0 < call.requestID ∧ completions c.results call.requestID ≤ 1 ∧
      ∃ g, call.conn = some g ∧
        (g ∈ c.torn → c.cfg.streamSendHandler → completions c.results call.requestID = 1)) ∧
    c.streamSendPending.entries.length ≤ c.cfg.streamSendPendingLimit := by
  have hs := sound h
  have ht := tracks h
  have hold := hs.calls call (List.mem_of_getElem? hcall)
  have hview := List.mem_of_getElem? (views_get hcall)
  refine ⟨fun err hpc => ?_, fun res hpc => ?_, pending_limit h⟩
  · have hzero := ht.returned hs hcall htracked hpc
    unfold tally at hzero
    omega
  · obtain ⟨metadata, hk⟩ : ∃ metadata, call.kind = .tracked metadata := by
      unfold Call.isTracked at htracked
      cases hk : call.kind with
      | tracked metadata => exact ⟨metadata, rfl⟩
      | rpc ping => rw [hk] at htracked; cases htracked
      | frame => rw [hk] at htracked; cases htracked
    have hlisted : call.pc.listed call.kind = true := by rw [hk, hpc]; rfl
    have honce := ht.once call.requestID
    obtain ⟨g, hg⟩ := Option.ne_none_iff_exists'.mp (hold.sends (by rw [hk, hpc]; rfl))
    refine ⟨hold.listed hlisted, ?_, g, hg, fun htorn hhandler => ?_⟩
    · unfold tally at honce
      omega
    · -- it is somewhere, and neither in the table nor about to be reported
      have hkept := ht.kept hhandler call.view hview htracked hlisted
      have hgone := List.count_eq_zero.mpr (ht.gone call.view hview htracked g hg (.inl htorn))
      have hreported := ht.reported call.view hview htracked g hg htorn
      simp only [Call.view] at hkept hgone hreported
      unfold tally at hkept honce
      omega

end

/-- A send to a user, with an opening frame. -/
def sampleSend : Request := .tracked ⟨1, 2⟩ ⟨0, ""⟩ { kind := .frameOpen, id := .replicate 16 0, epoch := 1 }

/-- A tracked send that the server confirms, and then the transport is lost. -/
theorem tracked_once_confirmed : ∃ (c : Client) (call : Call), call.isTracked ∧ call.pc.succeeded ∧
    call.conn = some 0 ∧ 0 ∈ c.torn ∧ c.cfg.streamSendHandler ∧ completions c.results call.requestID = 1 := by
  have h : ((exec (guarded step Intact) (.new sampleConfig) (List.flatten [[.connect], logsIn, [.call sampleSend], runs 0 6,
      [.step 0 (.result none), .serve (.receive (.streamFrameResult 1)), .serve .go, .serve .go],
      disconnects 4])).any fun (c : Client) =>
        c.calls[0]?.any fun (call : Call) => call.isTracked ∧ call.pc.succeeded ∧ call.conn = some 0 ∧ 0 ∈ c.torn ∧
          c.cfg.streamSendHandler) = true := by
    decide +kernel
  obtain ⟨c, hr, hw⟩ := reach_any (I := Initial) _ (.init ⟨sampleConfig, rfl⟩) h
  simp only [Option.any_eq_true, decide_eq_true_eq] at hw
  obtain ⟨call, hcall, htracked, hok, hconn, htorn, hhandler⟩ := hw
  obtain ⟨res, hpc⟩ := CallPc.succeeded_iff.mp hok
  obtain ⟨_, _, g, hg, hone⟩ := (tracked_once hr hcall htracked).2.1 res hpc
  cases hconn.symm.trans hg
  exact ⟨c, call, htracked, hok, hconn, htorn, hhandler, hone htorn hhandler⟩

/-- A tracked send has captured its transport and not yet locked `writeMu` when the transport
    is torn down: the teardown reports its ID, and then it returns `ErrDisconnected`. -/
theorem reported_and_failed : ∃ (c : Client) (call : Call), Reach step free Initial c ∧ c.calls[0]? = some call ∧
    call.isTracked ∧ call.pc = .returned (.error .disconnected) ∧ completions c.results call.requestID = 1 := by
  have h : ((exec (guarded step free) (.new sampleConfig) (List.flatten [[.connect], logsIn, [.call sampleSend], runs 0 3,
      disconnects 4, [.serve .go], runs 0 3])).any fun (c : Client) =>
        c.calls[0]?.any fun (call : Call) => call.isTracked ∧ call.pc.failedWith .disconnected ∧
          completions c.results call.requestID = 1) = true := by
    decide +kernel
  obtain ⟨c, hr, hw⟩ := reach_any (I := Initial) _ (.init ⟨sampleConfig, rfl⟩) h
  simp only [Option.any_eq_true, decide_eq_true_eq] at hw
  obtain ⟨call, hcall, htracked, hfailed, hone⟩ := hw
  exact ⟨c, call, hr, hcall, htracked, CallPc.failedWith_iff.mp hfailed, hone⟩

end Turntf.Client
