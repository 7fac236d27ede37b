import CartoLive.Live.Connect

/-!
# What a connecting client misses

A broadcast event reaches every client that is registered, lets the event
through its scope and has room, or else the client's `hello` reports a latest
sequence at or above the event's: `SetLatestSeq` comes before the look-up of the
clients in one goroutine, the registration before the reading of the latest
sequence in the other. The sequences of the events and the number of calls under
way are arbitrary.
-/

namespace CartoLive.Theorems.ConnectDelivery

open CartoLive.Lib CartoLive.Live

/-! ## Invariants -/

/-- The envelope of a call that has composed it. -/
def envelope? : CallPhase → Option Envelope
  | .load | .swap _ | .compose => none
  | .lookUp env | .sending env _ | .matched env _ _ | .returned env => some env

/-- The call is past `SetLatestSeq`. -/
def Raised : CallPhase → Prop
  | .load | .swap _ => False
  | _ => True

/-- The call has looked up the clients. -/
def LookedUp : CallPhase → Prop
  | .sending _ _ | .matched _ _ _ | .returned _ => True
  | _ => False

/-- The call will still come to client `i`. -/
def Awaits (i : Nat) : CallPhase → Prop
  | .sending _ rest => i ∈ rest
  | .matched _ rest k => i ∈ rest ∨ i = k
  | _ => False

/-- The latest sequence that the client's `hello` reports, or would report if it
were composed now. -/
def helloLatest (latestSeq : Int) (c : Conn) : Int := (c.hello.map Envelope.latestSeq).getD latestSeq

/-- What call `j`, past its look-up, has done or will do for client `i`. -/
def Met (latestSeq : Int) (j : Nat) (call : Call) (i : Nat) (c : Conn) : Prop :=
  Awaits i call.phase ∨ (∃ env, envelope? call.phase = some env ∧ env ∈ c.queued) ∨
    (∃ reason, (j, reason) ∈ c.passedOver) ∨ call.event.seq ≤ helloLatest latestSeq c

structure CallInv (s : ConnectState) (j : Nat) (call : Call) : Prop where
  raised : Raised call.phase → call.event.seq ≤ s.latestSeq
  composed : ∀ env, envelope? call.phase = some env →
    ∃ latestSeq, env = publicEventEnvelope latestSeq call.event
  met : LookedUp call.phase → ∀ (i : Nat) (c : Conn), s.conns[i]? = some c → Met s.latestSeq j call i c

structure ConnectInv (s : ConnectState) : Prop where
  nonneg : 0 ≤ s.latestSeq
  swaps : ∀ call ∈ s.calls, ∀ current, call.phase = .swap current → current < call.event.seq
  calls : ∀ (j : Nat) (call : Call), s.calls[j]? = some call → CallInv s j call
  reads_le : ∀ seq ∈ s.reads, seq ≤ s.latestSeq
  reads_sorted : s.reads.Pairwise (· ≤ ·)

variable {queueSize : Nat} {s s' : ConnectState} {i j : Nat} {c c' : Conn} {call : Call}

/-! ## What only grows -/

/-- What a connection never loses. -/
structure Grows (latestSeq latestSeq' : Int) (c c' : Conn) : Prop where
  queued : c.queued ⊆ c'.queued
  passedOver : c.passedOver ⊆ c'.passedOver
  hello : helloLatest latestSeq c ≤ helloLatest latestSeq' c'

/-- A later state: every connection is new or has grown. -/
structure Later (s s' : ConnectState) : Prop where
  latestSeq : s.latestSeq ≤ s'.latestSeq
  conns : ∀ (i : Nat) (c' : Conn), s'.conns[i]? = some c' →
    c' = .fresh ∨ ∃ c, s.conns[i]? = some c ∧ Grows s.latestSeq s'.latestSeq c c'

theorem helloLatest_mono {latestSeq latestSeq' : Int} (h : latestSeq ≤ latestSeq') (c : Conn) :
    helloLatest latestSeq c ≤ helloLatest latestSeq' c := by
  unfold helloLatest
  cases c.hello with
  | none => exact h
  | some env => exact le_refl _

theorem Grows.refl {latestSeq latestSeq' : Int} (h : latestSeq ≤ latestSeq') (c : Conn) :
    Grows latestSeq latestSeq' c c :=
  ⟨List.Subset.refl _, List.Subset.refl _, helloLatest_mono h c⟩

/-- A change that keeps `hello`. -/
theorem Grows.of_hello (latestSeq : Int) (hqueued : c.queued ⊆ c'.queued)
    (hpassed : c.passedOver ⊆ c'.passedOver) (hhello : c'.hello = c.hello) :
    Grows latestSeq latestSeq c c' :=
  ⟨hqueued, hpassed, by simp [helloLatest, hhello]⟩

theorem Later.refl (hlatest : s.latestSeq ≤ s'.latestSeq) (hconns : s'.conns = s.conns) :
    Later s s' :=
  ⟨hlatest, fun _ c' hc' => .inr ⟨c', hconns ▸ hc', .refl hlatest c'⟩⟩

/-- One connection has grown. -/
theorem Later.set (hlatest : s'.latestSeq = s.latestSeq) (hconns : s'.conns = s.conns.set i c')
    (hc : s.conns[i]? = some c) (hgrows : Grows s.latestSeq s.latestSeq c c') : Later s s' where
  latestSeq := le_of_eq hlatest.symm
  conns := by
    intro k d hd
    rw [hconns, List.getElem?_set] at hd
    split at hd
    · rename_i hik
      split at hd
      · cases hd
        exact .inr ⟨c, hik ▸ hc, hlatest ▸ hgrows⟩
      · cases hd
    · exact .inr ⟨d, hd, .refl (le_of_eq hlatest.symm) d⟩

theorem Met.grows {latestSeq latestSeq' : Int} (h : Met latestSeq j call i c)
    (hgrows : Grows latestSeq latestSeq' c c') : Met latestSeq' j call i c' := by
  rcases h with hawaits | ⟨env, henv, hqueued⟩ | ⟨reason, hpassed⟩ | hhello
  · exact .inl hawaits
  · exact .inr (.inl ⟨env, henv, hgrows.queued hqueued⟩)
  · exact .inr (.inr (.inl ⟨reason, hgrows.passedOver hpassed⟩))
  · exact .inr (.inr (.inr (hhello.trans hgrows.hello)))

/-- A call that does not move keeps its invariant. A client registered since its
look-up will read a latest sequence that the call has raised. -/
theorem CallInv.later (h : CallInv s j call) (hlater : Later s s') : CallInv s' j call where
  raised hraised := (h.raised hraised).trans hlater.latestSeq
  composed := h.composed
  met := by
    intro hlooked k c' hc'
    rcases hlater.conns k c' hc' with rfl | ⟨c, hc, hgrows⟩
    · have hraised : Raised call.phase := by
        cases hphase : call.phase <;> simp_all [LookedUp, Raised]
      exact .inr (.inr (.inr ((h.raised hraised).trans hlater.latestSeq)))
    · exact (h.met hlooked k c hc).grows hgrows

/-! ## Frames -/

/-- The values read from the latest sequence, after a step that may have read it. -/
def ReadsLater (s s' : ConnectState) : Prop :=
  s'.reads = s.reads ∨ s'.reads = s.reads ++ [s.latestSeq]

theorem ConnectInv.reads_later (h : ConnectInv s) (hreads : ReadsLater s s')
    (hlatest : s.latestSeq ≤ s'.latestSeq) :
    (∀ seq ∈ s'.reads, seq ≤ s'.latestSeq) ∧ s'.reads.Pairwise (· ≤ ·) := by
  rcases hreads with hreads | hreads
  · rw [hreads]
    exact ⟨fun seq hseq => (h.reads_le seq hseq).trans hlatest, h.reads_sorted⟩
  · rw [hreads]
    constructor
    · intro seq hseq
      rcases List.mem_append.mp hseq with hold | hnew
      · exact (h.reads_le seq hold).trans hlatest
      · exact List.mem_singleton.mp hnew ▸ hlatest
    · refine List.pairwise_append.mpr ⟨h.reads_sorted, List.pairwise_singleton _ _, ?_⟩
      intro seq hseq latest hnew
      exact List.mem_singleton.mp hnew ▸ h.reads_le seq hseq

/-- A step in which no call moves. -/
theorem ConnectInv.of_calls (h : ConnectInv s) (hcalls : s'.calls = s.calls) (hlater : Later s s')
    (hreads : ReadsLater s s') : ConnectInv s' where
  nonneg := h.nonneg.trans hlater.latestSeq
  swaps := hcalls ▸ h.swaps
  calls k other hother := (h.calls k other (hcalls ▸ hother)).later hlater
  reads_le := (h.reads_later hreads hlater.latestSeq).1
  reads_sorted := (h.reads_later hreads hlater.latestSeq).2

/-- A step in which call `j` moves to another phase, and `t` is what it does
besides. -/
theorem ConnectInv.setPhase (h : ConnectInv s) (t : ConnectState) (j : Nat) (call : Call)
    (phase : CallPhase) (hcalls : t.calls = s.calls) (hlater : Later s t) (hreads : ReadsLater s t)
    (hswap : ∀ current, phase = .swap current → current < call.event.seq)
    (hinv : CallInv t j { call with phase }) : ConnectInv (t.setPhase j call phase) := by
  have hset : (t.setPhase j call phase).calls = s.calls.set j { call with phase } := by
    rw [← hcalls]
    rfl
  refine
    { nonneg := h.nonneg.trans hlater.latestSeq
      swaps := ?_
      calls := ?_
      reads_le := (h.reads_later hreads hlater.latestSeq).1
      reads_sorted := (h.reads_later hreads hlater.latestSeq).2 }
  · intro other hother current hphase
    rw [hset] at hother
    rcases List.mem_or_eq_of_mem_set hother with hold | rfl
    · exact h.swaps other hold current hphase
    · exact hswap current hphase
  · intro k other hother
    rw [hset, List.getElem?_set] at hother
    split at hother
    · rename_i hjk
      split at hother
      · cases hother
        exact ⟨(hjk ▸ hinv).raised, (hjk ▸ hinv).composed, (hjk ▸ hinv).met⟩
      · cases hother
    · have := (h.calls k other hother).later hlater
      exact ⟨this.raised, this.composed, this.met⟩

/-! ## The steps of a call -/

/-- A call without an envelope owes nothing to any client. -/
theorem CallInv.early (hraised : Raised call.phase → call.event.seq ≤ s.latestSeq)
    (hnone : envelope? call.phase = none) : CallInv s j call where
  raised := hraised
  composed env henv := by
    rw [hnone] at henv
    cases henv
  met hlooked := by
    cases hphase : call.phase with
    | load | swap _ | compose =>
      rw [hphase] at hlooked
      exact hlooked.elim
    | lookUp _ | sending _ _ | matched _ _ _ | returned _ =>
      rw [hphase] at hnone
      cases hnone

/-- `SetLatestSeq` loads. -/
theorem ConnectInv.load (h : ConnectInv s) (hphase : call.phase = .load)
    (hstep : advance s j call = some s') : ConnectInv s' := by
  simp only [advance, hphase] at hstep
  split at hstep
  · rename_i hle
    cases hstep
    exact h.setPhase { s with reads := s.reads ++ [s.latestSeq] } j call .compose rfl
      (.refl (le_refl _) rfl) (.inr rfl) nofun (.early (fun _ => hle) rfl)
  · rename_i hlt
    cases hstep
    refine h.setPhase { s with reads := s.reads ++ [s.latestSeq] } j call (.swap s.latestSeq) rfl
      (.refl (le_refl _) rfl) (.inr rfl) ?_
      (.early False.elim rfl)
    intro current hcurrent
    cases hcurrent
    exact not_le.mp hlt

/-- `SetLatestSeq` swaps, or has to load again. -/
theorem ConnectInv.swap (h : ConnectInv s) (hcall : s.calls[j]? = some call) {current : Int}
    (hphase : call.phase = .swap current) (hstep : advance s j call = some s') :
    ConnectInv s' := by
  have hlt := h.swaps call (List.mem_of_getElem? hcall) current hphase
  simp only [advance, hphase] at hstep
  split at hstep
  · rename_i heq
    cases hstep
    exact h.setPhase { s with latestSeq := call.event.seq } j call .compose rfl
      (.refl (heq ▸ hlt.le) rfl) (.inl rfl) nofun
      (.early (fun _ => le_refl _) rfl)
  · cases hstep
    exact h.setPhase s j call .load rfl (.refl (le_refl _) rfl) (.inl rfl) nofun
      (.early False.elim rfl)

theorem ConnectInv.compose (h : ConnectInv s) (hcall : s.calls[j]? = some call)
    (hphase : call.phase = .compose) (hstep : advance s j call = some s') : ConnectInv s' := by
  have hraised : call.event.seq ≤ s.latestSeq :=
    (h.calls j call hcall).raised (by rw [hphase]; trivial)
  simp only [advance, hphase, Option.some.injEq] at hstep
  subst hstep
  refine h.setPhase { s with reads := s.reads ++ [s.latestSeq] } j call
    (.lookUp (publicEventEnvelope s.latestSeq call.event)) rfl (.refl (le_refl _) rfl) (.inr rfl)
    nofun ⟨fun _ => hraised, ?_, False.elim⟩
  intro env henv
  cases henv
  exact ⟨s.latestSeq, rfl⟩

theorem mem_registered : i ∈ s.registered ↔
    ∃ c, s.conns[i]? = some c ∧ c.client.registered = true := by
  rw [ConnectState.registered, List.mem_filter, List.mem_range]
  constructor
  · rintro ⟨-, hany⟩
    exact Option.any_eq_true _ _ |>.mp hany
  · rintro ⟨c, hc, hregistered⟩
    refine ⟨(List.getElem?_eq_some_iff.mp hc).1, ?_⟩
    rw [hc]
    exact hregistered

/-- The look-up: a registered client is on the list, a removed one is passed
over. -/
theorem ConnectInv.lookUp (h : ConnectInv s) (hcall : s.calls[j]? = some call) {env : Envelope}
    (hphase : call.phase = .lookUp env) (hstep : advance s j call = some s') : ConnectInv s' := by
  have hinv := h.calls j call hcall
  simp only [advance, hphase, Option.some.injEq] at hstep
  subst hstep
  have hgrows : ∀ c : Conn, Grows s.latestSeq s.latestSeq c (c.lookedUp j) := by
    intro c
    unfold Conn.lookedUp
    split
    · exact .refl (le_refl _) c
    · exact .of_hello _ (List.Subset.refl _) (List.subset_append_left _ _) rfl
  refine h.setPhase { s with conns := s.conns.map (Conn.lookedUp j) } j call
    (.sending env s.registered) rfl ⟨le_refl _, ?_⟩ (.inl rfl) nofun
    ⟨fun _ => hinv.raised (by rw [hphase]; trivial), ?_, ?_⟩
  · intro k c' hc'
    obtain ⟨c, hc, rfl⟩ := Option.map_eq_some_iff.mp (List.getElem?_map ▸ hc')
    exact .inr ⟨c, hc, hgrows c⟩
  · intro other hother
    cases hother
    exact hinv.composed env (by rw [hphase]; rfl)
  · intro _ k c' hc'
    obtain ⟨c, hc, rfl⟩ := Option.map_eq_some_iff.mp (List.getElem?_map ▸ hc')
    by_cases hregistered : c.client.registered = true
    · exact .inl (mem_registered.mpr ⟨c, hc, hregistered⟩)
    · refine .inr (.inr (.inl ⟨.removed, ?_⟩))
      simp [Conn.lookedUp, hregistered, Conn.pass]

/-! ## The loop of a call -/

theorem Raised.of_lookedUp {phase : CallPhase} (h : LookedUp phase) : Raised phase := by
  cases phase <;> first | exact h.elim | trivial

/-- A call in its loop moves on: the clients that it no longer awaits have the
envelope or were passed over. -/
theorem CallInv.moves (h : CallInv s j call) (hlooked : LookedUp call.phase) (hlater : Later s s')
    {phase : CallPhase} (henv : envelope? phase = envelope? call.phase)
    (hmoves : ∀ k c, s'.conns[k]? = some c → Awaits k call.phase → Awaits k phase ∨
      (∃ env, envelope? phase = some env ∧ env ∈ c.queued) ∨ ∃ reason, (j, reason) ∈ c.passedOver) :
    CallInv s' j { call with phase } where
  raised _ := (h.later hlater).raised (.of_lookedUp hlooked)
  composed env hsome := h.composed env (henv ▸ hsome)
  met := by
    intro _ k c hc
    rcases (h.later hlater).met hlooked k c hc with hawaits | ⟨env, hsome, hqueued⟩ | hrest
    · rcases hmoves k c hc hawaits with hstill | hqueued | hpassed
      · exact .inl hstill
      · exact .inr (.inl hqueued)
      · exact .inr (.inr (.inl hpassed))
    · exact .inr (.inl ⟨env, henv.trans hsome, hqueued⟩)
    · exact .inr (.inr hrest)

/-- The loop has come to every client of its look-up. -/
theorem ConnectInv.returned (h : ConnectInv s) (hcall : s.calls[j]? = some call) {env : Envelope}
    (hphase : call.phase = .sending env []) : ConnectInv (s.setPhase j call (.returned env)) := by
  have hlater : Later s s := .refl (le_refl _) rfl
  refine h.setPhase s j call (.returned env) rfl hlater (.inl rfl) nofun ?_
  refine (h.calls j call hcall).moves (by rw [hphase]; trivial) hlater (by rw [hphase]; rfl) ?_
  intro k c _ hawaits
  rw [hphase] at hawaits
  cases hawaits

theorem getElem?_setConn (hc : s.conns[i]? = some c) : (s.setConn i c').conns[i]? = some c' :=
  List.getElem?_set_self (List.getElem?_eq_some_iff.mp hc).1

theorem Later.setConn (hc : s.conns[i]? = some c) (hgrows : Grows s.latestSeq s.latestSeq c c') :
    Later s (s.setConn i c') :=
  .set rfl rfl hc hgrows

/-- The loop takes a client and reads its scope. -/
theorem ConnectInv.visit (h : ConnectInv s) (hcall : s.calls[j]? = some call)
    (hc : s.conns[i]? = some c) (hstep : visit s j i call c = some s') : ConnectInv s' := by
  have hinv := h.calls j call hcall
  unfold Live.visit at hstep
  split at hstep
  · rename_i env rest hphase
    have hlooked : LookedUp call.phase := by rw [hphase]; trivial
    split at hstep
    · split at hstep
      · cases hstep
        have hlater : Later s s := .refl (le_refl _) rfl
        refine h.setPhase s j call (.matched env (rest.erase i) i) rfl hlater (.inl rfl) nofun
          (hinv.moves hlooked hlater (by rw [hphase]; rfl) ?_)
        intro k d _ hawaits
        rw [hphase] at hawaits
        by_cases hki : k = i
        · exact .inl (.inr hki)
        · exact .inl (.inl ((List.mem_erase_of_ne hki).mpr hawaits))
      · -- the scope does not let the event through
        cases hstep
        have hlater : Later s (s.setConn i (c.pass j .outOfScope)) :=
          .setConn hc (.of_hello _ (List.Subset.refl _) (List.subset_append_left _ _) rfl)
        refine h.setPhase (s.setConn i (c.pass j .outOfScope)) j call (.sending env (rest.erase i)) rfl
          hlater (.inl rfl) nofun (hinv.moves hlooked hlater (by rw [hphase]; rfl) ?_)
        intro k d hd hawaits
        rw [hphase] at hawaits
        by_cases hki : k = i
        · subst hki
          rw [getElem?_setConn hc] at hd
          cases hd
          exact .inr (.inr ⟨.outOfScope, List.mem_append_right _ (List.mem_singleton_self _)⟩)
        · exact .inl ((List.mem_erase_of_ne hki).mpr hawaits)
    · cases hstep
  · cases hstep

/-- An offered envelope is queued, or the client is passed over. -/
theorem offer_spec (queueSize : Nat) (c : Conn) (j : Nat) (env : Envelope) :
    env ∈ (c.offer queueSize j env).queued ∨
      ∃ reason, (j, reason) ∈ (c.offer queueSize j env).passedOver := by
  unfold Conn.offer
  by_cases htakes : c.client.Takes queueSize
  · rw [if_pos htakes]
    exact .inl (by simp [Conn.safeSend, htakes])
  · rw [if_neg htakes]
    exact .inr ⟨_, List.mem_append_right _ (List.mem_singleton_self _)⟩

theorem subset_safeSend_queued (queueSize : Nat) (c : Conn) (env : Envelope) :
    c.queued ⊆ (c.safeSend queueSize env).queued := by
  unfold Conn.safeSend
  dsimp only
  split
  · exact List.subset_append_left _ _
  · exact List.Subset.refl _

theorem grows_offer (latestSeq : Int) (queueSize : Nat) (c : Conn) (j : Nat) (env : Envelope) :
    Grows latestSeq latestSeq c (c.offer queueSize j env) := by
  have hqueued := subset_safeSend_queued queueSize c env
  unfold Conn.offer
  split
  · exact .of_hello _ hqueued (List.Subset.refl _) rfl
  · exact .of_hello _ hqueued (List.subset_append_left _ _) rfl

/-- The `safeSend` of a call. -/
theorem ConnectInv.send (h : ConnectInv s) (hcall : s.calls[j]? = some call)
    (hstep : sendMatched queueSize s j call = some s') : ConnectInv s' := by
  have hinv := h.calls j call hcall
  unfold sendMatched at hstep
  split at hstep
  · rename_i env rest i hphase
    obtain ⟨c, hc, rfl⟩ := Option.map_eq_some_iff.mp hstep
    have hlater : Later s (s.setConn i (c.offer queueSize j env)) :=
      .setConn hc (grows_offer _ queueSize c j env)
    refine h.setPhase (s.setConn i (c.offer queueSize j env)) j call (.sending env rest) rfl
      hlater (.inl rfl) nofun (hinv.moves (by rw [hphase]; trivial) hlater (by rw [hphase]; rfl) ?_)
    intro k d hd hawaits
    rw [hphase] at hawaits
    rcases hawaits with hrest | rfl
    · exact .inl hrest
    · rw [getElem?_setConn hc] at hd
      cases hd
      rcases offer_spec queueSize c j env with hqueued | hpassed
      · exact .inr (.inl ⟨env, rfl, hqueued⟩)
      · exact .inr (.inr hpassed)
  · cases hstep

/-! ## The other steps -/

/-- `ServeHTTPWithClose` reads the latest sequence: the `hello` composed reports
what was the latest sequence until now. -/
theorem grows_readHello (hnone : c.hello = none) (seq : Int) :
    Grows s.latestSeq s.latestSeq c
      { c with hello := some (helloEnvelope s.latestSeq seq) } :=
  ⟨List.Subset.refl _, List.Subset.refl _, by simp [helloLatest, hnone, helloEnvelope,
    controlEnvelope]⟩

theorem getElem?_concat_cases {α : Type} {l : List α} {a b : α} {k : Nat}
    (h : (l ++ [a])[k]? = some b) : l[k]? = some b ∨ b = a := by
  rw [List.getElem?_append] at h
  split at h
  · exact .inl h
  · exact .inr (List.mem_singleton.mp (List.mem_of_getElem? h))

/-- A new call has done nothing yet. -/
theorem ConnectInv.newCall (h : ConnectInv s) (event : PublicEvent) :
    ConnectInv { s with
      calls := s.calls ++ [{ event, phase := if 0 < event.seq then .load else .compose }] } := by
  refine
    { nonneg := h.nonneg
      swaps := ?_
      calls := ?_
      reads_le := h.reads_le
      reads_sorted := h.reads_sorted }
  · intro other hother current hphase
    rcases List.mem_append.mp hother with hold | hnew
    · exact h.swaps other hold current hphase
    · rw [List.mem_singleton.mp hnew] at hphase
      dsimp only at hphase
      split at hphase <;> cases hphase
  · intro k other hother
    rcases getElem?_concat_cases hother with hold | rfl
    · have := h.calls k other hold
      exact ⟨this.raised, this.composed, this.met⟩
    · split
      · exact .early False.elim rfl
      · -- the latest sequence is never negative
        rename_i hseq
        exact .early (fun _ => (not_lt.mp hseq).trans h.nonneg) rfl

/-- A step that changes one connection only. -/
theorem ConnectInv.setConn (h : ConnectInv s) (hc : s.conns[i]? = some c)
    (hgrows : Grows s.latestSeq s.latestSeq c c') : ConnectInv (s.setConn i c') :=
  h.of_calls rfl (.setConn hc hgrows) (.inl rfl)

/-- The step lemma. -/
theorem ConnectInv.step (h : ConnectInv s) {act : ConnectAct}
    (hstep : connectStep queueSize s act = some s') : ConnectInv s' := by
  cases act with
  | register =>
    cases hstep
    refine h.of_calls rfl ⟨le_refl _, fun k d hd => ?_⟩ (.inl rfl)
    rcases getElem?_concat_cases hd with hold | rfl
    · exact .inr ⟨d, hold, .refl (le_refl _) d⟩
    · exact .inl rfl
  | readHello i =>
    obtain ⟨c, hc, hstep⟩ := Option.bind_eq_some_iff.mp hstep
    split at hstep
    · rename_i hnone
      cases hstep
      exact h.of_calls rfl (.set rfl rfl hc (grows_readHello hnone _)) (.inr rfl)
    · cases hstep
  | sendHello i =>
    obtain ⟨c, hc, hstep⟩ := Option.bind_eq_some_iff.mp hstep
    split at hstep
    · split at hstep
      · cases hstep
        exact h.setConn hc (.of_hello _ (subset_safeSend_queued queueSize c _)
          (List.Subset.refl _) rfl)
      · cases hstep
    · cases hstep
  | call event =>
    cases hstep
    exact h.newCall event
  | advance j =>
    obtain ⟨call, hcall, hstep⟩ := Option.bind_eq_some_iff.mp hstep
    cases hphase : call.phase with
    | load => exact h.load hphase hstep
    | swap current => exact h.swap hcall hphase hstep
    | compose => exact h.compose hcall hphase hstep
    | lookUp env => exact h.lookUp hcall hphase hstep
    | sending env rest =>
      cases rest with
      | nil =>
        simp only [Live.advance, hphase, Option.some.injEq] at hstep
        exact hstep ▸ h.returned hcall hphase
      | cons k rest => simp [Live.advance, hphase] at hstep
    | matched env rest k => simp [Live.advance, hphase] at hstep
    | returned env => simp [Live.advance, hphase] at hstep
  | visit j i =>
    obtain ⟨call, hcall, hstep⟩ := Option.bind_eq_some_iff.mp hstep
    obtain ⟨c, hc, hstep⟩ := Option.bind_eq_some_iff.mp hstep
    exact h.visit hcall hc hstep
  | send j =>
    obtain ⟨call, hcall, hstep⟩ := Option.bind_eq_some_iff.mp hstep
    exact h.send hcall hstep
  | setLatestSeq seq =>
    cases hstep
    exact h.of_calls rfl (.refl (le_max_left _ _) rfl) (.inl rfl)
  | readLatestSeq =>
    cases hstep
    exact h.of_calls rfl (.refl (le_refl _) rfl) (.inr rfl)
  | sendOther i env =>
    obtain ⟨c, hc, rfl⟩ := Option.map_eq_some_iff.mp hstep
    exact h.setConn hc (.of_hello _ (subset_safeSend_queued queueSize c env)
      (List.Subset.refl _) rfl)
  | pump i =>
    obtain ⟨c, hc, hstep⟩ := Option.bind_eq_some_iff.mp hstep
    split at hstep
    · cases hstep
    · split at hstep
      · cases hstep
        exact h.setConn hc (.of_hello _ (List.Subset.refl _) (List.Subset.refl _) rfl)
      · cases hstep
  | setScope i scope =>
    obtain ⟨c, hc, hstep⟩ := Option.bind_eq_some_iff.mp hstep
    split at hstep
    · cases hstep
      exact h.setConn hc (.of_hello _ (List.Subset.refl _) (List.Subset.refl _) rfl)
    · cases hstep
  | remove i =>
    obtain ⟨c, hc, hstep⟩ := Option.bind_eq_some_iff.mp hstep
    split at hstep
    · cases hstep
      exact h.setConn hc (.of_hello _ (List.Subset.refl _) (List.Subset.refl _) rfl)
    · cases hstep

/-- The run lemma. -/
theorem connectInv (queueSize : Nat) {s : ConnectState} (hs : (connecting queueSize).Reachable s) :
    ConnectInv s := by
  refine TSys.InductiveOn.invariant ⟨?_, fun _ _ _ h _ hstep => h.step hstep⟩ hs
  rintro _ rfl
  constructor <;> simp [ConnectState.start]

/-! ## Registered clients -/

/-- A registered client's queue is open, and no call found it removed. -/
structure PresentInv (c : Conn) : Prop where
  isOpen : c.client.registered = true → c.client.closed = false
  present : c.client.registered = true → ∀ j, (j, .removed) ∉ c.passedOver

theorem PresentInv.of_eq (h : PresentInv c) (hregistered : c'.client.registered = c.client.registered)
    (hclosed : c'.client.closed = c.client.closed) (hpassed : c'.passedOver = c.passedOver) :
    PresentInv c' :=
  ⟨by simpa [hregistered, hclosed] using h.isOpen, by simpa [hregistered, hpassed] using h.present⟩

theorem PresentInv.safeSend (h : PresentInv c) (env : Envelope) :
    PresentInv (c.safeSend queueSize env) :=
  h.of_eq (safeSend_registered _ _ _) (safeSend_closed_eq _ _ _) rfl

theorem PresentInv.pass (h : PresentInv c) (j : Nat) {reason : PassedOver}
    (hreason : c.client.registered = true → reason ≠ .removed) : PresentInv (c.pass j reason) where
  isOpen := h.isOpen
  present := by
    intro hregistered k hmem
    rcases List.mem_append.mp hmem with hold | hnew
    · exact h.present hregistered k hold
    · have := (Prod.mk.inj (List.mem_singleton.mp hnew)).2
      exact hreason hregistered this.symm

theorem PresentInv.offer (h : PresentInv c) (j : Nat) (env : Envelope) :
    PresentInv (c.offer queueSize j env) := by
  unfold Conn.offer
  split
  · exact h.safeSend env
  · refine (h.safeSend env).pass j fun hregistered => ?_
    rw [Conn.safeSend, safeSend_registered] at hregistered
    simp [h.isOpen hregistered]

theorem PresentInv.lookedUp (h : PresentInv c) (j : Nat) : PresentInv (c.lookedUp j) := by
  unfold Conn.lookedUp
  split
  · exact h
  · rename_i hremoved
    exact h.pass j fun hregistered => absurd hregistered hremoved

/-- One connection changes. -/
theorem forall_setConn {P : Conn → Prop} (h : ∀ d ∈ s.conns, P d) (hnew : P c') :
    ∀ d ∈ (s.setConn i c').conns, P d := by
  intro d hd
  rcases List.mem_or_eq_of_mem_set hd with hold | rfl
  · exact h d hold
  · exact hnew

/-- A call's step before its loop leaves the connections alone, but for those
that the look-up does not find. -/
theorem conns_advance (hstep : advance s j call = some s') :
    s'.conns = s.conns ∨ s'.conns = s.conns.map (Conn.lookedUp j) := by
  cases hphase : call.phase with
  | load | swap current =>
    simp only [advance, hphase] at hstep
    split at hstep <;> (cases hstep; exact .inl rfl)
  | compose =>
    simp only [advance, hphase, Option.some.injEq] at hstep
    exact .inl (hstep ▸ rfl)
  | lookUp env =>
    simp only [advance, hphase, Option.some.injEq] at hstep
    exact .inr (hstep ▸ rfl)
  | sending env rest =>
    cases rest with
    | nil =>
      simp only [advance, hphase, Option.some.injEq] at hstep
      exact .inl (hstep ▸ rfl)
    | cons k rest => simp [advance, hphase] at hstep
  | matched env rest k => simp [advance, hphase] at hstep
  | returned env => simp [advance, hphase] at hstep

/-- The step lemma. -/
theorem presentInv_step (h : ∀ c ∈ s.conns, PresentInv c) {act : ConnectAct}
    (hstep : connectStep queueSize s act = some s') : ∀ c ∈ s'.conns, PresentInv c := by
  have hmem : ∀ {i : Nat} {c : Conn}, s.conns[i]? = some c → PresentInv c := fun hc =>
    h _ (List.mem_of_getElem? hc)
  cases act with
  | register =>
    cases hstep
    intro c hc
    rcases List.mem_append.mp hc with hold | hnew
    · exact h c hold
    · rw [List.mem_singleton.mp hnew]
      exact ⟨fun _ => rfl, fun _ _ => List.not_mem_nil⟩
  | readHello i =>
    obtain ⟨c, hc, hstep⟩ := Option.bind_eq_some_iff.mp hstep
    split at hstep
    · cases hstep
      exact forall_setConn h ((hmem hc).of_eq rfl rfl rfl)
    · cases hstep
  | sendHello i =>
    obtain ⟨c, hc, hstep⟩ := Option.bind_eq_some_iff.mp hstep
    split at hstep
    · split at hstep
      · cases hstep
        exact forall_setConn h (((hmem hc).safeSend _).of_eq rfl rfl rfl)
      · cases hstep
    · cases hstep
  | call event =>
    cases hstep
    exact h
  | advance j =>
    obtain ⟨call, -, hstep⟩ := Option.bind_eq_some_iff.mp hstep
    rcases conns_advance hstep with hsame | hlooked
    · exact hsame ▸ h
    · intro d hd
      obtain ⟨c, hc, rfl⟩ := List.mem_map.mp (hlooked ▸ hd)
      exact (h c hc).lookedUp j
  | visit j i =>
    obtain ⟨call, -, hstep⟩ := Option.bind_eq_some_iff.mp hstep
    obtain ⟨c, hc, hstep⟩ := Option.bind_eq_some_iff.mp hstep
    unfold visit at hstep
    split at hstep
    · split at hstep
      · split at hstep
        · cases hstep
          exact h
        · cases hstep
          exact forall_setConn h ((hmem hc).pass j fun _ => PassedOver.noConfusion)
      · cases hstep
    · cases hstep
  | send j =>
    obtain ⟨call, -, hstep⟩ := Option.bind_eq_some_iff.mp hstep
    unfold sendMatched at hstep
    split at hstep
    · obtain ⟨c, hc, rfl⟩ := Option.map_eq_some_iff.mp hstep
      exact forall_setConn h ((hmem hc).offer j _)
    · cases hstep
  | setLatestSeq seq | readLatestSeq =>
    cases hstep
    exact h
  | sendOther i env =>
    obtain ⟨c, hc, rfl⟩ := Option.map_eq_some_iff.mp hstep
    exact forall_setConn h ((hmem hc).safeSend env)
  | pump i =>
    obtain ⟨c, hc, hstep⟩ := Option.bind_eq_some_iff.mp hstep
    split at hstep
    · cases hstep
    · split at hstep
      · cases hstep
        exact forall_setConn h ((hmem hc).of_eq rfl rfl rfl)
      · cases hstep
  | setScope i scope =>
    obtain ⟨c, hc, hstep⟩ := Option.bind_eq_some_iff.mp hstep
    split at hstep
    · cases hstep
      exact forall_setConn h ((hmem hc).of_eq rfl rfl rfl)
    · cases hstep
  | remove i =>
    obtain ⟨c, hc, hstep⟩ := Option.bind_eq_some_iff.mp hstep
    split at hstep
    · cases hstep
      refine forall_setConn h ⟨fun hregistered => ?_, fun hregistered => ?_⟩ <;> cases hregistered
    · cases hstep

/-- The run lemma. -/
theorem presentInv (queueSize : Nat) {s : ConnectState} (hs : (connecting queueSize).Reachable s) :
    ∀ c ∈ s.conns, PresentInv c := by
  have hinductive : (connecting queueSize).InductiveOn (fun _ _ => True)
      fun s => ∀ c ∈ s.conns, PresentInv c :=
    { init := by
        rintro _ rfl c hc
        cases hc
      step := fun _ _ _ h _ hstep => presentInv_step h hstep }
  exact hinductive.invariant hs

/-! ## The main result -/

/-- The node update with a given sequence. -/
def numbered (seq : Int) : PublicEvent := { PublicEvent.sample "YOW" seq with seq }

/-- The first client is registered before the call, the second between its
`SetLatestSeq` and its look-up, the third after the look-up. -/
def threeClients : List ConnectAct :=
  [.register, .readHello 0, .call (numbered 5), .advance 0, .advance 0, .register, .advance 0,
    .advance 0, .register, .visit 0 1, .send 0, .visit 0 0, .send 0, .advance 0, .readHello 1,
    .readHello 2, .sendHello 2, .readLatestSeq]

/-- The call has returned, and the third client is registered and was not passed
over. -/
def thirdClientLate (s : ConnectState) : Bool :=
  s.conns[2]?.any (fun c => decide (c.client.registered = true ∧ c.passedOver = [])) &&
    s.calls[0]?.any fun call =>
      decide (call.phase = .returned (publicEventEnvelope 5 (numbered 5)))

end CartoLive.Theorems.ConnectDelivery
