/-
  Turntf.Client.Generations — what every state of the client keeps: request IDs and transport
  generations.

  - `Sound.unique`: a request ID belongs to one call.
  - `Sound.served`: `c.conn` is the transport that `run` serves, which is the latest one that
    logged in. So a transport whose teardown has cleared the state is never captured again
    (`Sound.captured`).
-/

import Turntf.Lib.Slots
import Turntf.Client.Effects

namespace Turntf.Client

open Lts

/-! ## Calls and the results in their channels -/

section

variable {calls : List Call} {call : Call} {r : RequestResult} {ch : Nat} {P : Call → Prop}

theorem offer_cases (call : Call) (r : RequestResult) :
    call.offer r = call ∨ call.resultCh = none ∧ call.offer r = { call with resultCh := some r, got := call.got ++ [r] } := by
  unfold Call.offer
  split
  · rename_i h
    exact .inr ⟨h, rfl⟩
  · exact .inl rfl

@[simp] theorem offer_kind : (call.offer r).kind = call.kind := by unfold Call.offer; split <;> rfl

@[simp] theorem offer_requestID : (call.offer r).requestID = call.requestID := by unfold Call.offer; split <;> rfl

@[simp] theorem offer_pc : (call.offer r).pc = call.pc := by unfold Call.offer; split <;> rfl

@[simp] theorem offer_conn : (call.offer r).conn = call.conn := by unfold Call.offer; split <;> rfl

theorem forall_modify {f : Call → Call} (h : ∀ call ∈ calls, P call) (hf : ∀ call, calls[ch]? = some call → P call → P (f call)) :
    ∀ call ∈ calls.modify ch f, P call := by
  intro call' hc
  obtain ⟨j, hj⟩ := List.mem_iff_getElem?.mp hc
  rw [List.getElem?_modify] at hj
  by_cases he : ch = j
  · subst he
    simp only [if_true, Option.map_eq_map, Option.map_eq_some_iff] at hj
    obtain ⟨call, hcall, rfl⟩ := hj
    exact hf call hcall (h call (List.mem_of_getElem? hcall))
  · simp only [if_neg he, Option.map_eq_map, Option.map_id_fun', id_eq] at hj
    exact h call' (List.mem_of_getElem? hj)

theorem forall_set {call' : Call} {i : Nat} (h : ∀ call ∈ calls, P call) (h' : P call') :
    ∀ call ∈ calls.set i call', P call := by
  intro x hx
  rcases List.mem_or_eq_of_mem_set hx with hx | rfl
  · exact h x hx
  · exact h'

theorem forall_append (h : ∀ call ∈ calls, P call) (h' : P call) : ∀ x ∈ calls ++ [call], P x := by
  intro x hx
  rcases List.mem_append.mp hx with hx | hx
  · exact h x hx
  · rwa [List.mem_singleton.mp hx]

theorem map_offer {β : Type} {f : Call → β} (hf : ∀ call r, f (call.offer r) = f call) :
    (calls.modify ch (·.offer r)).map f = calls.map f := by
  apply List.ext_getElem?
  intro j
  rw [List.getElem?_map, List.getElem?_map, List.getElem?_modify]
  by_cases he : ch = j
  · subst he
    cases calls[ch]? with
    | none => rfl
    | some call => simp [hf]
  · simp [he]

/-- The call of the index has `P`. -/
def At (calls : List Call) (ch : Nat) (P : Call → Prop) : Prop := ∃ call, calls[ch]? = some call ∧ P call

theorem At.set {call' : Call} {i : Nat} (h : At calls ch P) (hcall : calls[i]? = some call) (hP : P call → P call') :
    At (calls.set i call') ch P := by
  obtain ⟨x, hx, hPx⟩ := h
  rcases Slots.set_get i call' hx with ⟨rfl, hx'⟩ | ⟨-, hx'⟩
  · cases hcall.symm.trans hx
    exact ⟨call', hx', hP hPx⟩
  · exact ⟨x, hx', hPx⟩

theorem At.modify {f : Call → Call} {k : Nat} (h : At calls ch P) (hf : ∀ call, P call → P (f call)) :
    At (calls.modify k f) ch P := by
  obtain ⟨x, hx, hPx⟩ := h
  by_cases he : k = ch
  · exact ⟨f x, by simp [he, hx], hf x hPx⟩
  · exact ⟨x, by simp [he, hx], hPx⟩

theorem At.append (h : At calls ch P) : At (calls ++ [call]) ch P := by
  obtain ⟨x, hx, hPx⟩ := h
  exact ⟨x, Slots.snoc_get hx, hPx⟩

theorem At.imp {Q : Call → Prop} (h : At calls ch P) (hPQ : ∀ call ∈ calls, P call → Q call) : At calls ch Q := by
  obtain ⟨x, hx, hPx⟩ := h
  exact ⟨x, hx, hPQ x (List.mem_of_getElem? hx) hPx⟩

/-- The results of `failAllPending` go to the calls in the table. -/
def offerAll (entries : List (Sigma fun _ : Nat => Nat)) (r : RequestResult) (calls : List Call) : List Call :=
  entries.foldl (fun calls e => calls.modify e.2 (·.offer r)) calls

theorem map_offerAll {β : Type} {f : Call → β} (hf : ∀ call r, f (call.offer r) = f call)
    (entries : List (Sigma fun _ : Nat => Nat)) : (offerAll entries r calls).map f = calls.map f := by
  unfold offerAll
  induction entries generalizing calls with
  | nil => rfl
  | cons e entries ih => rw [List.foldl_cons, ih, map_offer hf]

theorem forall_offerAll (h : ∀ call ∈ calls, P call) (hf : ∀ call, P call → P (call.offer r))
    (entries : List (Sigma fun _ : Nat => Nat)) : ∀ call ∈ offerAll entries r calls, P call := by
  unfold offerAll
  induction entries generalizing calls with
  | nil => exact h
  | cons e entries ih => exact ih (forall_modify h fun call _ => hf call)

theorem At.offerAll (h : At calls ch P) (hf : ∀ call, P call → P (call.offer r))
    (entries : List (Sigma fun _ : Nat => Nat)) : At (offerAll entries r calls) ch P := by
  unfold Client.offerAll
  induction entries generalizing calls with
  | nil => exact h
  | cons e entries ih => exact ih (h.modify hf)

end

/-! ## The invariant -/

/-- What a call's position says of it, where `n` request IDs were given out. -/
structure Call.Sound (n : Nat) (call : Call) : Prop where
  placed : call.pc.placed call.kind
  bound : call.requestID ≤ n
  numbered : call.kind ≠ .frame → call.pc.numbered → 0 < call.requestID
  early : call.pc.early → call.conn = none
  sends : call.pc.sends call.kind → call.conn ≠ none

/-- The request IDs of the calls, 0 for none. -/
def ids (c : Client) : List Nat := c.calls.map (·.requestID)

/-- Only the latest transport is current, and only while it is served. -/
structure Generations (c : Client) : Prop where
  served : ∀ g, c.conn = some g → c.run.serves = some g
  latest : ∀ g, c.run.serves = some g ∨ c.run.tears = some g → g + 1 = c.logins
  failed : ∀ g ∈ c.failed, g < c.logins ∧ c.run.serves ≠ some g
  torn : ∀ g ∈ c.torn, g < c.logins ∧ c.run.serves ≠ some g
  authenticated : c.authenticated = c.conn.isSome
  loginInfo : c.authenticated = false → c.loginInfo = .zero

structure Sound (c : Client) : Prop where
  calls : ∀ call ∈ c.calls, call.Sound c.requestID
  unique : ∀ i j n : Nat, c.ids[i]? = some n → c.ids[j]? = some n → 0 < n → i = j
  generations : Generations c

section

variable {c c' : Client} {i j : Nat} {call call' : Call}

theorem Sound.placed (hs : Sound c) : Placed c := fun call hc => (hs.calls call hc).placed

/-- A call with an entry in its table has a request ID. -/
theorem Call.Sound.listed {n : Nat} (h : call.Sound n) (hl : call.pc.listed call.kind) : 0 < call.requestID := by
  have hnumbered := CallPc.listed_numbered hl
  exact h.numbered hnumbered.1 hnumbered.2

/-- Two calls of one request ID are the same. -/
theorem Sound.same (hs : Sound c) (hi : c.calls[i]? = some call) (hj : c.calls[j]? = some call')
    (hid : call.requestID = call'.requestID) (hpos : 0 < call.requestID) : i = j := by
  refine hs.unique i j call.requestID ?_ ?_ hpos
  · simp [ids, hi]
  · simp [ids, hj, hid]

/-- A transport that a call captures is not one whose teardown has gone past the clearing. -/
theorem Generations.captured (hg : Generations c) {g : Nat} (hconn : c.conn = some g) : g ∉ c.failed ∧ g ∉ c.torn :=
  ⟨fun h => (hg.failed g h).2 (hg.served g hconn), fun h => (hg.torn g h).2 (hg.served g hconn)⟩

/-! ### Steps of the calls -/

theorem Call.Sound.offer {n : Nat} {r : RequestResult} (h : call.Sound n) : (call.offer r).Sound n :=
  ⟨by simpa using h.placed, by simpa using h.bound, by simpa using h.numbered, by simpa using h.early,
    by simpa using h.sends⟩

theorem Call.Sound.mono {n n' : Nat} (h : call.Sound n) (hn : n ≤ n') : call.Sound n' :=
  ⟨h.placed, Nat.le_trans h.bound hn, h.numbered, h.early, h.sends⟩

theorem Call.Sound.goes {n : Nat} {pc' : CallPc} {ctx' : Option Err} {ch : Option RequestResult} (h : call.Sound n)
    (hg : call.pc.Goes call.kind pc') : Call.Sound n { call with pc := pc', ctx := ctx', resultCh := ch } :=
  ⟨hg.placed, h.bound, fun hk hn => h.numbered hk (hg.numbered hn), fun he => h.early (hg.early he),
    fun hsends => h.sends (hg.sends hsends)⟩

theorem ids_set (hcall : c.calls[i]? = some call) (hid : call'.requestID = call.requestID) :
    (c.calls.set i call').map (·.requestID) = c.ids := by
  apply List.ext_getElem?
  intro j
  unfold ids
  rw [List.getElem?_map, List.getElem?_map, List.getElem?_set]
  by_cases he : i = j
  · subst he
    have hlt := (List.getElem?_eq_some_iff.mp hcall).1
    rw [if_pos rfl, if_pos hlt, hcall, Option.map_some, Option.map_some, hid]
  · rw [if_neg he]

/-- What is current: `c.conn`, `c.authenticated` and `c.loginInfo`. -/
def current (c : Client) : Option Nat × Bool × LoginInfo := (c.conn, c.authenticated, c.loginInfo)

/-- A step after which the transports are as before, or none is current. -/
theorem Generations.keeps (hg : Generations c) (hcur : c'.current = c.current ∨ c'.current = (none, false, .zero))
    (hrun : c'.run = c.run) (hlogins : c'.logins = c.logins) (hfailed : c'.failed = c.failed)
    (htorn : c'.torn = c.torn) : Generations c' := by
  have hlatest : ∀ g, c'.run.serves = some g ∨ c'.run.tears = some g → g + 1 = c'.logins := by
    rw [hrun, hlogins]
    exact hg.latest
  have hfailed' : ∀ g ∈ c'.failed, g < c'.logins ∧ c'.run.serves ≠ some g := by
    rw [hfailed, hrun, hlogins]
    exact hg.failed
  have htorn' : ∀ g ∈ c'.torn, g < c'.logins ∧ c'.run.serves ≠ some g := by
    rw [htorn, hrun, hlogins]
    exact hg.torn
  rcases hcur with hcur | hcur
  · simp only [current, Prod.mk.injEq] at hcur
    obtain ⟨hconn, hauth, hinfo⟩ := hcur
    refine ⟨?_, hlatest, hfailed', htorn', ?_, ?_⟩
    · rw [hconn, hrun]
      exact hg.served
    · rw [hauth, hconn]
      exact hg.authenticated
    · rw [hauth, hinfo]
      exact hg.loginInfo
  · simp only [current, Prod.mk.injEq] at hcur
    obtain ⟨hconn, hauth, hinfo⟩ := hcur
    refine ⟨?_, hlatest, hfailed', htorn', ?_, fun _ => hinfo⟩
    · rw [hconn]
      nofun
    · rw [hauth, hconn]
      rfl

/-- `invalidateTransport` changes nothing but what is current. -/
theorem invalidateTransport_cases {P : Client → Prop} {g : Nat} (hsame : P c)
    (hgone : P { c with conn := none, authenticated := false, loginInfo := .zero }) : P (c.invalidateTransport g) := by
  unfold invalidateTransport
  split
  · exact hgone
  · exact hsame

/-- The call at `i` goes on under its request ID. -/
theorem Sound.set (hs : Sound c) (hcalls : c'.calls = c.calls.set i call') (hcall : c.calls[i]? = some call)
    (hid : call'.requestID = call.requestID) (hn : c'.requestID = c.requestID) (hsound : call'.Sound c.requestID)
    (hg : Generations c') : Sound c' := by
  refine ⟨?_, ?_, hg⟩
  · rw [hcalls, hn]
    exact forall_set hs.calls hsound
  · have hids : c'.ids = c.ids := by
      unfold ids
      rw [hcalls]
      exact ids_set hcall hid
    rw [hids]
    exact hs.unique

theorem numbers_unique (hs : Sound c) (hcall : c.calls[i]? = some call) (hid : call'.requestID = c.requestID + 1) (a b n : Nat)
    (ha : ((c.calls.set i call').map (·.requestID))[a]? = some n)
    (hb : ((c.calls.set i call').map (·.requestID))[b]? = some n) (hpos : 0 < n) : a = b := by
  have hlt := (List.getElem?_eq_some_iff.mp hcall).1
  -- every other ID is at most the counter
  have hother (x : Nat) (hx : i ≠ x) (h : ((c.calls.set i call').map (·.requestID))[x]? = some n) :
      c.ids[x]? = some n ∧ n ≤ c.requestID := by
    rw [List.getElem?_map, List.getElem?_set_ne hx, Option.map_eq_some_iff] at h
    obtain ⟨old, hold, rfl⟩ := h
    exact ⟨by simp [ids, hold], (hs.calls old (List.mem_of_getElem? hold)).bound⟩
  have hnew (h : ((c.calls.set i call').map (·.requestID))[i]? = some n) : n = c.requestID + 1 := by
    rw [List.getElem?_map, List.getElem?_set_self hlt, Option.map_some, hid, Option.some.injEq] at h
    exact h.symm
  by_cases hia : i = a
  · by_cases hib : i = b
    · exact hia.symm.trans hib
    · have h₁ := hnew (hia ▸ ha)
      have h₂ := (hother b hib hb).2
      omega
  · by_cases hib : i = b
    · have h₁ := hnew (hib ▸ hb)
      have h₂ := (hother a hia ha).2
      omega
    · exact hs.unique a b n (hother a hia ha).1 (hother b hib hb).1 hpos

theorem CallEffect.sound (hs : Sound c) (hcall : c.calls[i]? = some call) (h : CallEffect c i call c') : Sound c' := by
  have hold := hs.calls call (List.mem_of_getElem? hcall)
  have hg := hs.generations
  cases h with
  | moves pc' ctx' ch hgoes hch =>
    exact hs.set rfl hcall rfl rfl (hold.goes hgoes) (hg.keeps (.inl rfl) rfl rfl rfl rfl)
  | numbers pc' hpc hl hp hf hsends =>
    refine ⟨?_, fun a b n => numbers_unique hs hcall rfl a b n, hg.keeps (.inl rfl) rfl rfl rfl rfl⟩
    refine forall_set (fun x hx => (hs.calls x hx).mono (Nat.le_succ _))
      ⟨hp, Nat.le_refl _, fun _ _ => Nat.succ_pos _, ?_, fun h => absurd (hsends.symm.trans h) nofun⟩
    exact fun _ => hold.early (by rw [hpc]; rfl)
  | registersRpc ping hk hpc =>
    refine hs.set rfl hcall rfl rfl ⟨by rw [hk]; rfl, hold.bound, ?_, ?_, nofun⟩ (hg.keeps (.inl rfl) rfl rfl rfl rfl)
    · exact fun hk _ => hold.numbered hk (by rw [hpc]; rfl)
    · exact fun _ => hold.early (by rw [hpc]; rfl)
  | registersTracked metadata hk hpc hlimit =>
    refine hs.set rfl hcall rfl rfl ⟨by rw [hk]; rfl, hold.bound, ?_, ?_, nofun⟩ (hg.keeps (.inl rfl) rfl rfl rfl rfl)
    · exact fun hk _ => hold.numbered hk (by rw [hpc]; rfl)
    · exact fun _ => hold.early (by rw [hpc]; rfl)
  | captures g hpc hconn =>
    refine hs.set rfl hcall rfl rfl ⟨?_, hold.bound, ?_, nofun, nofun⟩ (hg.keeps (.inl rfl) rfl rfl rfl rfl)
    · cases call.kind <;> rfl
    · exact fun hk _ => hold.numbered hk (by rw [hpc]; rfl)
  | hands hpc =>
    refine hs.set rfl hcall rfl rfl ⟨?_, hold.bound, ?_, nofun, ?_⟩ (hg.keeps (.inl rfl) rfl rfl rfl rfl)
    · cases call.kind <;> rfl
    · exact fun hk _ => hold.numbered hk (by rw [hpc]; rfl)
    · exact fun _ => hold.sends (by rw [hpc]; rfl)
  | invalidates g pc' hgoes =>
    apply invalidateTransport_cases (P := fun d => Sound (d.setCall i { call with pc := pc' }))
    · exact hs.set rfl hcall rfl rfl (hold.goes hgoes) (hg.keeps (.inl rfl) rfl rfl rfl rfl)
    · exact hs.set rfl hcall rfl rfl (hold.goes hgoes) (hg.keeps (.inr rfl) rfl rfl rfl rfl)
  | takesBack metadata err hk hpc =>
    exact hs.set rfl hcall rfl rfl ⟨by rw [hk]; rfl, hold.bound, fun _ => nofun, nofun, nofun⟩
      (hg.keeps (.inl rfl) rfl rfl rfl rfl)
  | unregisters ping res pc' hk hpc hl he hsends =>
    refine hs.set rfl hcall rfl rfl ⟨by rw [hk]; rfl, hold.bound, ?_, ?_, ?_⟩ (hg.keeps (.inl rfl) rfl rfl rfl rfl)
    · exact fun hk _ => hold.numbered hk (by rw [hpc]; rfl)
    · exact fun h => absurd (he.symm.trans h) nofun
    · exact fun h => absurd (hsends.symm.trans h) nofun

/-! ### Steps of `run` -/

/-- `run` goes on without a change of what is current: it serves the same transport or tears
    down the one it served. -/
theorem Generations.goes {pc' : RunPc} (hg : Generations c) (hcur : c'.current = c.current) (hrun : c'.run = pc')
    (hlogins : c'.logins = c.logins) (hfailed : c'.failed = c.failed) (htorn : c'.torn = c.torn)
    (hs : pc'.serves = c.run.serves) (ht : ∀ g, pc'.tears = some g → c.run.tears = some g) : Generations c' := by
  simp only [current, Prod.mk.injEq] at hcur
  obtain ⟨hconn, hauth, hinfo⟩ := hcur
  refine ⟨?_, ?_, ?_, ?_, ?_, ?_⟩
  · rw [hconn, hrun, hs]
    exact hg.served
  · rw [hrun, hlogins, hs]
    exact fun g h => hg.latest g (h.imp_right (ht g))
  · rw [hfailed, hrun, hlogins, hs]
    exact hg.failed
  · rw [htorn, hrun, hlogins, hs]
    exact hg.torn
  · rw [hauth, hconn]
    exact hg.authenticated
  · rw [hauth, hinfo]
    exact hg.loginInfo

theorem RunEffect.generations (hg : Generations c) (h : RunEffect c c') : Generations c' := by
  -- nothing is current once the served transport is cleared
  have hnone (hs : c.run.serves = none) : c.conn = none := by
    cases hconn : c.conn with
    | none => rfl
    | some g => exact absurd (hs.symm.trans (hg.served g hconn)) nofun
  cases h with
  | idles pc' stop first delay slept hs ht ht' hq hq' hd =>
    exact hg.goes rfl rfl rfl rfl rfl hs fun g h => absurd (ht'.symm.trans h) nofun
  | logsIn info hpc =>
    have hnew (g : Nat) (hlt : g < c.logins) : g < c.logins + 1 ∧ RunPc.serves (.signal c.logins) ≠ some g := by
      refine ⟨Nat.lt_succ_of_lt hlt, fun he => ?_⟩
      cases he
      exact Nat.lt_irrefl _ hlt
    refine ⟨fun g h => h, ?_, fun g h => hnew g (hg.failed g h).1, fun g h => hnew g (hg.torn g h).1, rfl, nofun⟩
    rintro g (h | h)
    · cases h
      rfl
    · cases h
  | resolves g requestID ch res orElse hpc hl => exact hg.goes rfl rfl rfl rfl rfl (by rw [hpc]; rfl) nofun
  | delivers g ch r hpc => exact hg.goes rfl rfl rfl rfl rfl (by rw [hpc]; rfl) nofun
  | completes g requestID metadata err hpc hl => exact hg.goes rfl rfl rfl rfl rfl (by rw [hpc]; rfl) nofun
  | reports result pc' hs ht hq hd =>
    unfold notifyStreamSend
    split
    · exact hg.goes rfl rfl rfl rfl rfl hs fun g h => ht ▸ h
    · exact hg.goes rfl rfl rfl rfl rfl hs fun g h => ht ▸ h
  | clears g err hpc =>
    have hserves : c.run.serves = some g := by rw [hpc]; rfl
    have hconn : (if c.conn = some g then none else c.conn) = none := by
      split
      · rfl
      · rename_i hne
        cases hcur : c.conn with
        | none => rfl
        | some g' => exact absurd (hcur.trans (hserves.symm.trans (hg.served g' hcur)).symm) hne
    refine ⟨?_, ?_, fun g' h => ⟨(hg.failed g' h).1, nofun⟩, fun g' h => ⟨(hg.torn g' h).1, nofun⟩, ?_, fun _ => rfl⟩
    · intro g' h
      exact absurd (hconn.symm.trans h) nofun
    · rintro g' (h | h)
      · cases h
      · cases h
        exact hg.latest g (.inl hserves)
    · exact (congrArg Option.isSome hconn).symm
  | failsPending g err hpc =>
    have hlatest := hg.latest g (.inr (by rw [hpc]; rfl))
    refine ⟨?_, ?_, ?_, fun g' h => ⟨(hg.torn g' h).1, nofun⟩, hg.authenticated, hg.loginInfo⟩
    · intro g' h
      exact absurd ((hnone (by rw [hpc]; rfl)).symm.trans h) nofun
    · rintro g' (h | h)
      · cases h
      · cases h
        exact hlatest
    · intro g' h
      rcases List.mem_append.mp h with h | h
      · exact ⟨(hg.failed g' h).1, nofun⟩
      · cases List.mem_singleton.mp h
        exact ⟨Nat.lt_of_succ_le (Nat.le_of_eq hlatest), nofun⟩
  | failsStreams g err hpc =>
    exact hg.goes rfl rfl rfl rfl rfl (by rw [hpc]; rfl) fun g' h => by rw [hpc]; exact h
  | tornDown g err hpc =>
    have hlatest := hg.latest g (.inr (by rw [hpc]; rfl))
    refine ⟨?_, nofun, fun g' h => ⟨(hg.failed g' h).1, nofun⟩, ?_, hg.authenticated, hg.loginInfo⟩
    · intro g' h
      exact absurd ((hnone (by rw [hpc]; rfl)).symm.trans h) nofun
    · intro g' h
      rcases List.mem_append.mp h with h | h
      · exact ⟨(hg.torn g' h).1, nofun⟩
      · cases List.mem_singleton.mp h
        exact ⟨Nat.lt_of_succ_le (Nat.le_of_eq hlatest), nofun⟩
  | failsLast err hpc => exact hg.goes rfl rfl rfl rfl rfl (by rw [hpc]; rfl) nofun

/-- The calls as they are, or with results in their channels. -/
theorem RunEffect.calls (h : RunEffect c c') :
    c'.requestID = c.requestID ∧ (c'.calls = c.calls ∨ (∃ ch r, c'.calls = c.calls.modify ch (·.offer r)) ∨
      ∃ r, c'.calls = offerAll c.pending.entries r c.calls) := by
  cases h with
  | idles | logsIn | resolves | completes | clears | failsStreams | tornDown => exact ⟨rfl, .inl rfl⟩
  | delivers g ch r hpc => exact ⟨rfl, .inr (.inl ⟨ch, r, rfl⟩)⟩
  | reports result pc' =>
    unfold notifyStreamSend
    split
    · exact ⟨rfl, .inl rfl⟩
    · exact ⟨rfl, .inl rfl⟩
  | failsPending g err hpc => exact ⟨rfl, .inr (.inr ⟨.failure .disconnected, rfl⟩)⟩
  | failsLast err hpc => exact ⟨rfl, .inr (.inr ⟨.failure err, rfl⟩)⟩

/-! ### What the channels do not touch -/

/-- A call without its context and its channel. -/
def Call.view (call : Call) : Call := { call with ctx := none, resultCh := none, got := [] }

def views (c : Client) : List Call := c.calls.map Call.view

theorem offer_view (call : Call) (r : RequestResult) : (call.offer r).view = call.view := by
  unfold Call.offer
  split <;> rfl

theorem views_get (hcall : c.calls[i]? = some call) : c.views[i]? = some call.view := by
  simp [views, hcall]

theorem RunEffect.views (h : RunEffect c c') : c'.views = c.views := by
  obtain ⟨-, hcalls | ⟨ch, r, hcalls⟩ | ⟨r, hcalls⟩⟩ := h.calls
  · rw [Client.views, hcalls, Client.views]
  · rw [Client.views, hcalls, map_offer offer_view, Client.views]
  · rw [Client.views, hcalls, map_offerAll offer_view, Client.views]

theorem RunEffect.sound (hs : Sound c) (h : RunEffect c c') : Sound c' := by
  obtain ⟨hn, hcalls⟩ := h.calls
  have hg := h.generations hs.generations
  rcases hcalls with hcalls | ⟨ch, r, hcalls⟩ | ⟨r, hcalls⟩
  · refine ⟨?_, ?_, hg⟩
    · rw [hcalls, hn]
      exact hs.calls
    · unfold ids
      rw [hcalls]
      exact hs.unique
  · refine ⟨?_, ?_, hg⟩
    · rw [hcalls, hn]
      exact forall_modify hs.calls fun _ _ hc => hc.offer
    · unfold ids
      rw [hcalls, map_offer fun _ _ => offer_requestID]
      exact hs.unique
  · refine ⟨?_, ?_, hg⟩
    · rw [hcalls, hn]
      exact forall_offerAll hs.calls (fun _ hc => hc.offer) _
    · unfold ids
      rw [hcalls, map_offerAll fun _ _ => offer_requestID]
      exact hs.unique

/-! ### Every step -/

theorem CloseEffect.sound {closer : Closer} (hs : Sound c) (h : CloseEffect c j closer c') : Sound c' := by
  cases h with
  | idles => exact ⟨hs.calls, hs.unique, hs.generations.keeps (.inl rfl) rfl rfl rfl rfl⟩
  | closes => exact ⟨hs.calls, hs.unique, hs.generations.keeps (.inr rfl) rfl rfl rfl rfl⟩
  | takes => exact ⟨hs.calls, hs.unique, hs.generations.keeps (.inl rfl) rfl rfl rfl rfl⟩
  | reports result results hpc =>
    unfold notifyStreamSend
    split
    · exact ⟨hs.calls, hs.unique, hs.generations.keeps (.inl rfl) rfl rfl rfl rfl⟩
    · exact ⟨hs.calls, hs.unique, hs.generations.keeps (.inl rfl) rfl rfl rfl rfl⟩

theorem StepEffect.sound {a : Action} (hs : Sound c) (h : StepEffect c a c') : Sound c' := by
  cases h with
  | call i how call hcall heff => exact heff.sound hs hcall
  | leaves i deadline call err hcall => exact (leaves_effect hs.placed hcall err).sound hs hcall
  | starts request kind pc hp hl hn hsends =>
    refine ⟨forall_append hs.calls ⟨hp, Nat.zero_le _, ?_, fun _ => rfl, fun h => absurd (hsends.symm.trans h) nofun⟩, ?_,
      hs.generations.keeps (.inl rfl) rfl rfl rfl rfl⟩
    · intro hk hnum
      rcases hn with hn | hn
      · exact absurd hn hk
      · exact absurd (hn.symm.trans hnum) nofun
    · intro a b n ha hb hpos
      have hnew {x : Nat} (hx : (c.calls.map (·.requestID) ++ [0])[x]? = some n) : c.ids[x]? = some n := by
        rcases Slots.get_snoc hx with hx | ⟨-, rfl⟩
        · exact hx
        · exact absurd hpos (Nat.lt_irrefl 0)
      simp only [ids, List.map_append, List.map_cons, List.map_nil] at ha hb
      exact hs.unique a b n (hnew ha) (hnew hb) hpos
  | cleans i call hcall => exact ⟨hs.calls, hs.unique, hs.generations.keeps (.inl rfl) rfl rfl rfl rfl⟩
  | connects hpc heff => exact heff.sound hs
  | run how heff => exact heff.sound hs
  | closer j closer hj heff => exact heff.sound hs
  | connected => exact hs
  | startsClose => exact ⟨hs.calls, hs.unique, hs.generations.keeps (.inl rfl) rfl rfl rfl rfl⟩

end

/-- A client just made by `NewClient`. -/
def Initial (c : Client) : Prop := ∃ cfg, c = .new cfg

section

variable {ok : Client → Action → Prop} {c : Client}

theorem new_sound (cfg : Config) : Sound (.new cfg) :=
  ⟨fun _ h => absurd h List.not_mem_nil, nofun, nofun, nofun, fun _ h => absurd h List.not_mem_nil,
    fun _ h => absurd h List.not_mem_nil, rfl, fun _ => rfl⟩

theorem sound (h : Reach step ok Initial c) : Sound c := by
  refine h.keeps ?_ fun c a c' _ hs _ h => (step_effect hs.placed h).sound hs
  rintro c ⟨cfg, rfl⟩
  exact new_sound cfg

end

end Turntf.Client
