import CartoLive.Web.PublicSocket

/-!
# One live socket

In every run in which the `close` event of an abandoned socket comes while a
reconnect is scheduled or after the caller has closed, and no socket opens while
the pings of an abandoned one go on, at most one socket is live, there is a
connection or a scheduled one, and nothing is left behind by the caller's
`close`. A late `close` event breaks all of it: the listener of the old socket
clears the timers of the new one and schedules a third.
-/

namespace CartoLive.Theorems.OneSocket

open CartoLive.Lib CartoLive.Web

/-- The guard of the main result: the `close` event of an abandoned socket comes
while a reconnect is scheduled or after the caller's `close`, and where the pings
of a socket start no others go on. -/
def StepOk (subscriptions : Bool) (s : PublicSocket) : SocketAct → Prop
  | .closes id => (s.sockets[id]?.any fun socket => socket.abandoned) = true →
      s.closed = true ∨ s.retryTimer ≠ none
  | .opens _ fails =>
    subscriptions = true ∧ fails = true ∨ ∀ timer ∈ s.armed, timer.2 ≠ .ping
  | _ => True

instance (subscriptions : Bool) (s : PublicSocket) (act : SocketAct) :
    Decidable (StepOk subscriptions s act) := by
  cases act <;> (unfold StepOk; infer_instance)

/-! ## The invariant -/

/-- Only the timers in the variables are armed. -/
structure TimerInv (s : PublicSocket) : Prop where
  retry : ∀ t, (t, .retry) ∈ s.armed → s.retryTimer = some t
  ping : ∀ t, (t, .ping) ∈ s.armed → s.pingTimer = some t
  liveness : ∀ t, (t, .liveness) ∈ s.armed → s.livenessTimer = some t
  retry_lt : ∀ t, s.retryTimer = some t → t < s.nextTimer
  ping_lt : ∀ t, s.pingTimer = some t → t < s.nextTimer
  liveness_lt : ∀ t, s.livenessTimer = some t → t < s.nextTimer
  apart : ∀ t, s.retryTimer = some t → s.pingTimer ≠ some t ∧ s.livenessTimer ≠ some t
  idle : s.closed = true → s.armed = []

/-- What `close` has done to abandoned sockets. -/
def Shut (sockets : List WebSocket) : Prop :=
  ∀ socket ∈ sockets, (socket.abandoned = true → socket.readyState = .closing ∨
    socket.readyState = .closed) ∧ (socket.readyState = .closing → socket.abandoned = true)

/-- A reconnect is scheduled. -/
def Scheduled (s : PublicSocket) : Prop := ∃ t, s.retryTimer = some t ∧ (t, .retry) ∈ s.armed

structure SocketInv (s : PublicSocket) : Prop extends TimerInv s where
  shut : Shut s.sockets
  current : ∀ id socket, s.sockets[id]? = some socket → socket.Live →
    s.socket = some id ∧ s.closed = false ∧ s.retryTimer = none
  connected : s.closed = false → (∃ id socket, s.socket = some id ∧
    s.sockets[id]? = some socket ∧ socket.Live) ∨ Scheduled s

variable {s s' : PublicSocket}

/-- No socket is live. -/
def NoneLive (s : PublicSocket) : Prop := ∀ socket ∈ s.sockets, ¬ socket.Live

theorem socketInv_of_noneLive (h : TimerInv s) (hshut : Shut s.sockets) (hnone : NoneLive s)
    (hscheduled : s.closed = false → Scheduled s) : SocketInv s :=
  { h with
    shut := hshut
    current := fun _ _ hsocket hlive => absurd hlive (hnone _ (List.mem_of_getElem? hsocket))
    connected := fun hopen => Or.inr (hscheduled hopen) }

/-! ## Timers -/

theorem mem_clearTimer {armed : List (Nat × TimerKind)} {timer : Option Nat}
    {t : Nat × TimerKind} :
    t ∈ PublicSocket.clearTimer armed timer ↔ t ∈ armed ∧ some t.1 ≠ timer := by
  simp [PublicSocket.clearTimer]

/-- Statuses do not matter here. -/
theorem SocketInv.status (h : SocketInv s) (text : String) : SocketInv (s.status text) :=
  { h with shut := h.shut }

theorem TimerInv.clearPing (h : TimerInv s) : TimerInv s.clearPingTimer where
  retry t ht := h.retry t (mem_clearTimer.mp ht).1
  ping t ht := by
    obtain ⟨hmem, hne⟩ := mem_clearTimer.mp ht
    exact absurd (h.ping t hmem).symm hne
  liveness t ht := h.liveness t (mem_clearTimer.mp ht).1
  retry_lt := h.retry_lt
  ping_lt t ht := by cases ht
  liveness_lt := h.liveness_lt
  apart t ht := ⟨by simp [PublicSocket.clearPingTimer], (h.apart t ht).2⟩
  idle hclosed := by
    show PublicSocket.clearTimer s.armed s.pingTimer = []
    rw [h.idle hclosed]
    rfl

theorem TimerInv.clearLiveness (h : TimerInv s) : TimerInv s.clearLivenessTimer where
  retry t ht := h.retry t (mem_clearTimer.mp ht).1
  ping t ht := h.ping t (mem_clearTimer.mp ht).1
  liveness t ht := by
    obtain ⟨hmem, hne⟩ := mem_clearTimer.mp ht
    exact absurd (h.liveness t hmem).symm hne
  retry_lt := h.retry_lt
  ping_lt := h.ping_lt
  liveness_lt t ht := by cases ht
  apart t ht := ⟨(h.apart t ht).1, by simp [PublicSocket.clearLivenessTimer]⟩
  idle hclosed := by
    show PublicSocket.clearTimer s.armed s.livenessTimer = []
    rw [h.idle hclosed]
    rfl

theorem Scheduled.clearPing (h : Scheduled s) (hinv : TimerInv s) :
    Scheduled s.clearPingTimer := by
  obtain ⟨t, ht, hmem⟩ := h
  exact ⟨t, ht, mem_clearTimer.mpr ⟨hmem, Ne.symm (hinv.apart t ht).1⟩⟩

theorem Scheduled.clearLiveness (h : Scheduled s) (hinv : TimerInv s) :
    Scheduled s.clearLivenessTimer := by
  obtain ⟨t, ht, hmem⟩ := h
  exact ⟨t, ht, mem_clearTimer.mpr ⟨hmem, Ne.symm (hinv.apart t ht).2⟩⟩

theorem SocketInv.clearPing (h : SocketInv s) : SocketInv s.clearPingTimer :=
  { h.toTimerInv.clearPing with
    shut := h.shut
    current := h.current
    connected := fun hopen =>
      (h.connected hopen).imp_right fun hs => hs.clearPing h.toTimerInv }

theorem SocketInv.clearLiveness (h : SocketInv s) : SocketInv s.clearLivenessTimer :=
  { h.toTimerInv.clearLiveness with
    shut := h.shut
    current := h.current
    connected := fun hopen =>
      (h.connected hopen).imp_right fun hs => hs.clearLiveness h.toTimerInv }

/-- Another timer is armed beside a scheduled reconnect. -/
theorem Scheduled.arm (h : Scheduled s) (kind : TimerKind) : Scheduled (s.arm kind) := by
  obtain ⟨t, ht, hmem⟩ := h
  exact ⟨t, ht, List.mem_append_left _ hmem⟩

theorem mem_arm {kind : TimerKind} {t : Nat × TimerKind} (h : t ∈ (s.arm kind).armed) :
    t ∈ s.armed ∨ t = (s.nextTimer, kind) :=
  (List.mem_append.mp h).imp_right List.mem_singleton.mp

theorem SocketInv.resetLiveness (h : SocketInv s) : SocketInv s.resetLivenessTimer := by
  unfold PublicSocket.resetLivenessTimer
  have hclear := h.clearLiveness
  dsimp only
  split
  · exact hclear
  · rename_i hopen
    have hnone : ∀ t, (t, .liveness) ∉ s.clearLivenessTimer.armed := fun t ht => by
      cases hclear.liveness t ht
    exact
      { retry := fun t ht => by
          rcases mem_arm ht with ht | ht
          · exact hclear.retry t ht
          · cases ht
        ping := fun t ht => by
          rcases mem_arm ht with ht | ht
          · exact hclear.ping t ht
          · cases ht
        liveness := fun t ht => by
          rcases mem_arm ht with ht | ht
          · exact absurd ht (hnone t)
          · cases ht
            rfl
        retry_lt := fun t ht => Nat.lt_succ_of_lt (hclear.retry_lt t ht)
        ping_lt := fun t ht => Nat.lt_succ_of_lt (hclear.ping_lt t ht)
        liveness_lt := fun t ht => by
          cases ht
          exact Nat.lt_succ_self _
        apart := fun t ht => ⟨(hclear.apart t ht).1, fun heq => by
          cases heq
          exact Nat.lt_irrefl _ (hclear.retry_lt _ ht)⟩
        idle := fun hclosed => absurd hclosed hopen
        shut := hclear.shut
        current := hclear.current
        connected := fun hopen => (hclear.connected hopen).imp_right fun hs => hs.arm .liveness }

/-- The pings of an open socket start. -/
theorem SocketInv.startPings (h : SocketInv s) (hopen : s.closed = false)
    (hnone : ∀ timer ∈ s.armed, timer.2 ≠ .ping) : SocketInv s.startPings where
  retry t ht := by
    rcases mem_arm ht with ht | ht
    · exact h.retry t ht
    · cases ht
  ping t ht := by
    rcases mem_arm ht with ht | ht
    · exact absurd rfl (hnone _ ht)
    · cases ht
      rfl
  liveness t ht := by
    rcases mem_arm ht with ht | ht
    · exact h.liveness t ht
    · cases ht
  retry_lt t ht := Nat.lt_succ_of_lt (h.retry_lt t ht)
  ping_lt t ht := by
    cases ht
    exact Nat.lt_succ_self _
  liveness_lt t ht := Nat.lt_succ_of_lt (h.liveness_lt t ht)
  apart t ht := by
    refine ⟨fun heq => ?_, (h.apart t ht).2⟩
    cases heq
    exact Nat.lt_irrefl _ (h.retry_lt _ ht)
  idle hclosed := by
    have hclosed : s.closed = true := hclosed
    rw [hopen] at hclosed
    cases hclosed
  shut := h.shut
  current := h.current
  connected hopen := (h.connected hopen).imp_right fun hs => hs.arm .ping

/-! ## Giving a socket up -/

/-- Without a live socket a reconnect is scheduled, if it is not already. -/
theorem socketInv_scheduleReconnect (h : TimerInv s) (hshut : Shut s.sockets) (hnone : NoneLive s)
    (hscheduled : s.retryTimer ≠ none → s.closed = false → Scheduled s) :
    SocketInv s.scheduleReconnect := by
  unfold PublicSocket.scheduleReconnect
  split
  · rename_i hor
    refine socketInv_of_noneLive h hshut hnone fun hopen => ?_
    rcases hor with hclosed | hretry
    · rw [hopen] at hclosed
      cases hclosed
    · exact hscheduled hretry hopen
  · rename_i hidle
    push Not at hidle
    obtain ⟨hopen, hretry⟩ := hidle
    refine socketInv_of_noneLive ?_ hshut hnone
      fun _ => ⟨s.nextTimer, rfl, List.mem_append_right _ (List.mem_singleton.mpr rfl)⟩
    exact
      { retry := fun t ht => by
          rcases mem_arm ht with ht | ht
          · have := h.retry t ht
            rw [hretry] at this
            cases this
          · cases ht
            rfl
        ping := fun t ht => by
          rcases mem_arm ht with ht | ht
          · exact h.ping t ht
          · cases ht
        liveness := fun t ht => by
          rcases mem_arm ht with ht | ht
          · exact h.liveness t ht
          · cases ht
        retry_lt := fun t ht => by
          cases ht
          exact Nat.lt_succ_self _
        ping_lt := fun t ht => Nat.lt_succ_of_lt (h.ping_lt t ht)
        liveness_lt := fun t ht => Nat.lt_succ_of_lt (h.liveness_lt t ht)
        apart := fun t ht => by
          cases ht
          exact ⟨fun heq => Nat.lt_irrefl _ (h.ping_lt _ heq),
            fun heq => Nat.lt_irrefl _ (h.liveness_lt _ heq)⟩
        idle := fun hclosed => absurd hclosed hopen }

/-- One socket changes. -/
theorem getElem?_modify_cases {sockets : List WebSocket} {f : WebSocket → WebSocket} {id j : Nat}
    {socket : WebSocket} (h : (sockets.modify id f)[j]? = some socket) :
    (j = id ∧ ∃ old, sockets[j]? = some old ∧ f old = socket) ∨
      j ≠ id ∧ sockets[j]? = some socket := by
  rw [List.getElem?_modify] at h
  by_cases hj : id = j
  · rw [hj] at h
    obtain ⟨old, hold, hf⟩ := Option.map_eq_some_iff.mp h
    exact Or.inl ⟨hj.symm, old, hold, by simpa using hf⟩
  · refine Or.inr ⟨Ne.symm hj, ?_⟩
    simpa [hj] using h

theorem shut_modify {sockets : List WebSocket} {f : WebSocket → WebSocket} {id : Nat}
    (h : Shut sockets) (hf : ∀ old, sockets[id]? = some old →
      ((f old).abandoned = true → (f old).readyState = .closing ∨ (f old).readyState = .closed) ∧
        ((f old).readyState = .closing → (f old).abandoned = true)) :
    Shut (sockets.modify id f) := by
  intro socket hsocket
  obtain ⟨j, hj⟩ := List.getElem?_of_mem hsocket
  rcases getElem?_modify_cases hj with ⟨rfl, old, hold, rfl⟩ | ⟨-, hold⟩
  · exact hf old hold
  · exact h socket (List.mem_of_getElem? hold)

/-- `socket?.close()` changes the current socket only. -/
theorem closeSocket_spec (s : PublicSocket) :
    ∃ sockets, s.closeSocket = { s with sockets } ∧ (Shut s.sockets → Shut sockets) ∧
      ∀ id socket, sockets[id]? = some socket → socket.Live →
        s.socket ≠ some id ∧ s.sockets[id]? = some socket := by
  unfold PublicSocket.closeSocket
  split
  · rename_i hsocket
    exact ⟨s.sockets, rfl, id, fun id socket h _ => ⟨by simp [hsocket], h⟩⟩
  · rename_i current hsocket
    refine ⟨_, rfl, fun h => shut_modify h fun old _ => ⟨fun _ => ?_, fun _ => rfl⟩, ?_⟩
    · dsimp only
      split
      · exact Or.inr rfl
      · exact Or.inl rfl
    · intro id socket h hlive
      rcases getElem?_modify_cases h with ⟨rfl, old, -, rfl⟩ | ⟨hne, h⟩
      · cases hlive.1
      · refine ⟨fun heq => hne ?_, h⟩
        rw [hsocket] at heq
        exact (Option.some.inj heq).symm

/-- The current socket is given up, and a reconnect follows. -/
theorem SocketInv.giveUp (h : SocketInv s) : SocketInv s.abandon.scheduleReconnect := by
  obtain ⟨sockets, heq, hshut, hlive⟩ := closeSocket_spec s
  unfold PublicSocket.abandon
  rw [heq]
  refine socketInv_scheduleReconnect (s := { s with sockets, socket := none })
    { h.toTimerInv with retry := h.retry } (hshut h.shut) ?_ ?_
  · intro socket hsocket hl
    obtain ⟨id, hid⟩ := List.getElem?_of_mem hsocket
    obtain ⟨hne, hold⟩ := hlive id socket hid hl
    exact hne (h.current id socket hold hl).1
  · intro hretry hopen
    rcases h.connected hopen with ⟨id, socket, -, hsocket, hl⟩ | hscheduled
    · exact absurd (h.current id socket hsocket hl).2.2 hretry
    · exact hscheduled

theorem SocketInv.sendFailure (h : SocketInv s) : SocketInv s.handleSendFailure :=
  ((h.clearPing.clearLiveness).status "error").giveUp

theorem SocketInv.sendJSON (h : SocketInv s) (fails : Bool) : SocketInv (s.sendJSON fails).1 := by
  unfold PublicSocket.sendJSON
  split
  · exact h
  · split
    · exact h
    · split
      · exact h.sendFailure
      · exact h

/-- A message that could be sent leaves everything as it is. -/
theorem sendJSON_sent {fails : Bool} (h : (s.sendJSON fails).2 = true) :
    fails = false ∧ (s.sendJSON fails).1 = s := by
  unfold PublicSocket.sendJSON at h ⊢
  split at h
  · cases h
  · split at h
    · cases h
    · rename_i hopened
      cases fails with
      | true => cases h
      | false => simp [hopened]

/-! ## Connecting -/

theorem noneLive_of_retry (h : SocketInv s) (hretry : s.retryTimer ≠ none) : NoneLive s := by
  intro socket hsocket hlive
  obtain ⟨id, hid⟩ := List.getElem?_of_mem hsocket
  exact hretry (h.current id socket hid hlive).2.2

/-- A connection is made, or scheduled again. -/
theorem socketInv_connect (h : TimerInv s) (hshut : Shut s.sockets) (hnone : NoneLive s)
    (hretry : s.retryTimer = none) (hopen : s.closed = false) (fails : Bool) :
    SocketInv (s.connect fails) := by
  unfold PublicSocket.connect
  rw [if_neg (by simp [hopen])]
  dsimp only
  generalize (if s.attempts = 0 then "connecting" else "recovering") = text
  split
  · have hstatus : TimerInv ((s.status text).status "error") := { h with retry := h.retry }
    exact socketInv_scheduleReconnect hstatus hshut hnone fun hne => absurd hretry hne
  · refine
      { h with
        shut := fun socket hsocket => ?_
        current := fun id socket hsocket hlive => ?_
        connected := fun _ => Or.inl ⟨s.sockets.length, _, rfl,
          List.getElem?_concat_length .., rfl, by simp⟩ }
    · rcases List.mem_append.mp hsocket with hsocket | hsocket
      · exact hshut socket hsocket
      · rw [List.mem_singleton.mp hsocket]
        simp
    · rcases Nat.lt_trichotomy id s.sockets.length with hlt | rfl | hgt
      · have hold : s.sockets[id]? = some socket := by
          rw [← List.getElem?_append_left hlt]
          exact hsocket
        exact absurd hlive (hnone socket (List.mem_of_getElem? hold))
      · exact ⟨rfl, hopen, hretry⟩
      · have hnone : (s.sockets ++ [({ readyState := .connecting, abandoned := false }
            : WebSocket)])[id]? = none :=
          List.getElem?_eq_none (by simp; omega)
        exact absurd (hnone.symm.trans hsocket) (by simp)

/-! ## The steps -/

theorem SocketInv.opens (h : SocketInv s) {id : Nat} {socket : WebSocket}
    (hsocket : s.sockets[id]? = some socket) (hconnecting : socket.readyState = .connecting)
    {subscriptions fails : Bool} (hok : StepOk subscriptions s (.opens id fails)) :
    SocketInv ((s.setReadyState id .opened).onOpen subscriptions fails) := by
  have hkept : socket.abandoned = false := by
    by_contra hgone
    have := (h.shut socket (List.mem_of_getElem? hsocket)).1 (by simpa using hgone)
    rw [hconnecting] at this
    rcases this with this | this <;> cases this
  obtain ⟨hcurrent, hopen, hretry⟩ :=
    h.current id socket hsocket ⟨hkept, by simp [hconnecting]⟩
  have hopened : SocketInv (s.setReadyState id .opened) :=
    { h with
      shut := shut_modify h.shut fun old hold => by
        rw [hsocket] at hold
        cases hold
        simp [hkept]
      current := fun j sk hsk hlive => by
        rcases getElem?_modify_cases hsk with ⟨rfl, -⟩ | ⟨-, hsk⟩
        · exact ⟨hcurrent, hopen, hretry⟩
        · exact h.current j sk hsk hlive
      connected := fun _ => Or.inl ⟨id, { socket with readyState := .opened }, hcurrent, by
        show (s.sockets.modify id _)[id]? = _
        rw [List.getElem?_modify_eq, hsocket]
        rfl, hkept, by simp⟩ }
  have hreset : SocketInv ((({ s.setReadyState id .opened with attempts := 0 }).status
      "live").resetLivenessTimer) :=
    SocketInv.resetLiveness { hopened with shut := hopened.shut }
  have hnopings : (∀ timer ∈ s.armed, timer.2 ≠ .ping) → ∀ timer ∈ ((({ s.setReadyState id .opened with attempts := 0 }).status
      "live").resetLivenessTimer).armed, timer.2 ≠ .ping := by
    intro hpings timer htimer
    unfold PublicSocket.resetLivenessTimer at htimer
    dsimp only at htimer
    split at htimer
    · exact hpings timer (mem_clearTimer.mp htimer).1
    · rcases mem_arm htimer with htimer | rfl
      · exact hpings timer (mem_clearTimer.mp htimer).1
      · simp
  have hstillOpen : ((({ s.setReadyState id .opened with attempts := 0 }).status
      "live").resetLivenessTimer).closed = false := by
    unfold PublicSocket.resetLivenessTimer
    dsimp only
    split <;> exact hopen
  unfold PublicSocket.onOpen
  dsimp only
  generalize (({ s.setReadyState id .opened with attempts := 0 }).status
    "live").resetLivenessTimer = b at hreset hnopings hstillOpen ⊢
  split
  · split
    · rename_i hsent
      obtain ⟨hsend, hsame⟩ := sendJSON_sent hsent
      rw [hsame]
      exact hreset.startPings hstillOpen (hnopings (hok.resolve_left fun hfails => by
        rw [hsend] at hfails
        cases hfails.2))
    · exact hreset.sendJSON fails
  · rename_i hsilent
    exact hreset.startPings hstillOpen (hnopings (hok.resolve_left fun hsub => hsilent hsub.1))

/-- A socket ends: the current one, or an abandoned one in time. -/
theorem SocketInv.closes (h : SocketInv s) {id : Nat} {socket : WebSocket}
    (hsocket : s.sockets[id]? = some socket) (hending : socket.readyState ≠ .closed)
    {subscriptions : Bool} (hok : StepOk subscriptions s (.closes id)) : SocketInv ((s.setReadyState id .closed).onClose) := by
  have hclosed : ∀ {j : Nat} {sk : WebSocket},
      (s.setReadyState id .closed).sockets[j]? = some sk → sk.Live →
        j ≠ id ∧ s.sockets[j]? = some sk := by
    intro j sk hsk hlive
    rcases getElem?_modify_cases hsk with ⟨rfl, old, -, rfl⟩ | ⟨hne, hsk⟩
    · exact absurd rfl hlive.2
    · exact ⟨hne, hsk⟩
  have hshut : Shut (s.setReadyState id .closed).sockets :=
    shut_modify h.shut fun old _ => ⟨fun _ => Or.inr rfl, fun hclosing => by cases hclosing⟩
  have htimers : TimerInv (s.setReadyState id .closed) := { h.toTimerInv with retry := h.retry }
  have hcleared := htimers.clearPing.clearLiveness
  have hsame : ((s.setReadyState id .closed).clearPingTimer.clearLivenessTimer).closed =
      s.closed := rfl
  unfold PublicSocket.onClose
  dsimp only
  rw [hsame]
  by_cases hcaller : s.closed = true
  · -- the caller has closed: nothing is live and nothing is armed
    rw [if_pos hcaller]
    refine SocketInv.status (socketInv_of_noneLive hcleared hshut ?_ fun hopen => ?_) "closed"
    · intro sk hsk hlive
      obtain ⟨j, hj⟩ := List.getElem?_of_mem hsk
      have hopen := (h.current j sk (hclosed hj hlive).2 hlive).2.1
      rw [hcaller] at hopen
      cases hopen
    · have hopen : s.closed = false := hopen
      rw [hcaller] at hopen
      cases hopen
  · rw [if_neg hcaller]
    have hnone : NoneLive (s.setReadyState id .closed) := by
      intro sk hsk hlive
      obtain ⟨j, hj⟩ := List.getElem?_of_mem hsk
      obtain ⟨hne, hold⟩ := hclosed hj hlive
      obtain ⟨hcurrent, -, hretry⟩ := h.current j sk hold hlive
      cases habandoned : socket.abandoned with
      | true =>
        rcases hok (by simp [hsocket, habandoned]) with hc | hr
        · exact hcaller hc
        · exact hr hretry
      | false =>
        have := (h.current id socket hsocket ⟨habandoned, hending⟩).1
        rw [hcurrent] at this
        exact hne (Option.some.inj this)
    refine socketInv_scheduleReconnect hcleared hshut hnone fun hretry hopen => ?_
    have hscheduled : Scheduled (s.setReadyState id .closed) := by
      rcases h.connected hopen with ⟨j, sk, -, hsk, hlive⟩ | hscheduled
      · exact absurd (h.current j sk hsk hlive).2.2 hretry
      · exact hscheduled
    exact (hscheduled.clearPing htimers).clearLiveness htimers.clearPing

/-- A timer fires. -/
theorem SocketInv.fires (h : SocketInv s) {subscriptions : Bool} {timer : Nat × TimerKind}
    {fails : Bool} (hstep : socketStep subscriptions s (.fires timer fails) = some s') :
    SocketInv s' := by
  simp only [socketStep] at hstep
  split at hstep
  · rename_i hmem
    have hopen : s.closed = false := by
      by_contra hclosed
      rw [h.idle (by simpa using hclosed)] at hmem
      cases hmem
    obtain ⟨t, kind⟩ := timer
    cases kind with
    | retry =>
      cases hstep
      have hretry := h.retry t hmem
      have hnone := noneLive_of_retry h (by simp [hretry])
      refine socketInv_connect
        (s := { s with armed := PublicSocket.clearTimer s.armed (some t), retryTimer := none })
        ?_ h.shut hnone rfl hopen fails
      exact
        { retry := fun t' ht' => by
            obtain ⟨hmem', hne⟩ := mem_clearTimer.mp ht'
            have := h.retry t' hmem'
            rw [hretry] at this
            exact absurd this.symm hne
          ping := fun t' ht' => h.ping t' (mem_clearTimer.mp ht').1
          liveness := fun t' ht' => h.liveness t' (mem_clearTimer.mp ht').1
          retry_lt := fun _ ht' => by cases ht'
          ping_lt := h.ping_lt
          liveness_lt := h.liveness_lt
          apart := fun _ ht' => by cases ht'
          idle := fun hclosed => by
            have hclosed : s.closed = true := hclosed
            rw [hopen] at hclosed
            cases hclosed }
    | ping =>
      cases hstep
      exact h.sendJSON fails
    | liveness =>
      cases hstep
      have hfired : ({ s with
          armed := PublicSocket.clearTimer s.armed (some t)
          livenessTimer := none } : PublicSocket) = s.clearLivenessTimer := by
        unfold PublicSocket.clearLivenessTimer
        rw [h.liveness t hmem]
      unfold PublicSocket.onSilence
      have hsilent := (h.clearLiveness.status "stale").giveUp
      rw [← hfired] at hsilent
      exact hsilent
  · cases hstep

/-- The caller closes. -/
theorem SocketInv.close (h : SocketInv s) : SocketInv s.close := by
  have hempty : (({ s with
      closed := true
      armed := PublicSocket.clearTimer s.armed s.retryTimer }
        : PublicSocket).clearPingTimer.clearLivenessTimer).armed = [] := by
    refine List.eq_nil_iff_forall_not_mem.mpr fun ⟨t, kind⟩ ht => ?_
    obtain ⟨ht, hliveness⟩ := mem_clearTimer.mp ht
    obtain ⟨ht, hping⟩ := mem_clearTimer.mp ht
    obtain ⟨ht, hretry⟩ := mem_clearTimer.mp ht
    cases kind with
    | retry => exact hretry (h.retry t ht).symm
    | ping => exact hping (h.ping t ht).symm
    | liveness => exact hliveness (h.liveness t ht).symm
  unfold PublicSocket.close
  dsimp only
  obtain ⟨sockets, heq, hshut, hlive⟩ := closeSocket_spec (({ s with
      closed := true
      armed := PublicSocket.clearTimer s.armed s.retryTimer }
        : PublicSocket).clearPingTimer.clearLivenessTimer)
  rw [heq]
  refine socketInv_of_noneLive ?_ (hshut h.shut) ?_ fun hopen => by cases hopen
  · exact
      { retry := fun t ht => by
          rw [hempty] at ht
          cases ht
        ping := fun t ht => by
          rw [hempty] at ht
          cases ht
        liveness := fun t ht => by
          rw [hempty] at ht
          cases ht
        retry_lt := h.retry_lt
        ping_lt := fun t ht => by cases ht
        liveness_lt := fun t ht => by cases ht
        apart := fun t _ => ⟨by simp [PublicSocket.clearPingTimer,
          PublicSocket.clearLivenessTimer], by simp [PublicSocket.clearLivenessTimer]⟩
        idle := fun _ => hempty }
  · intro socket hsocket hl
    obtain ⟨id, hid⟩ := List.getElem?_of_mem hsocket
    obtain ⟨hne, hold⟩ := hlive id socket hid hl
    exact hne (h.current id socket hold hl).1

/-- The step lemma. -/
theorem SocketInv.step (h : SocketInv s) {subscriptions : Bool} {act : SocketAct}
    (hok : StepOk subscriptions s act) (hstep : socketStep subscriptions s act = some s') :
    SocketInv s' := by
  cases act with
  | opens id fails =>
    obtain ⟨socket, hsocket, hstep⟩ := Option.bind_eq_some_iff.mp hstep
    split at hstep
    · rename_i hconnecting
      cases hstep
      exact h.opens hsocket hconnecting hok
    · cases hstep
  | message id parses =>
    obtain ⟨socket, hsocket, hstep⟩ := Option.bind_eq_some_iff.mp hstep
    split at hstep
    · cases hstep
      unfold PublicSocket.onMessage
      dsimp only
      split
      · exact h.resetLiveness
      · exact h.resetLiveness.status "bad-message"
    · cases hstep
  | error id =>
    obtain ⟨socket, hsocket, hstep⟩ := Option.bind_eq_some_iff.mp hstep
    split at hstep
    · cases hstep
      exact h.status "error"
    · cases hstep
  | closes id =>
    obtain ⟨socket, hsocket, hstep⟩ := Option.bind_eq_some_iff.mp hstep
    split at hstep
    · rename_i hending
      cases hstep
      exact h.closes hsocket hending hok
    · cases hstep
  | fires timer fails => exact h.fires hstep
  | callerCloses =>
    cases hstep
    exact h.close

/-- The run lemma. -/
theorem socketInv (subscriptions : Bool) :
    (publicSocket subscriptions).InductiveOn (StepOk subscriptions) SocketInv where
  init s hs := by
    obtain ⟨fails, rfl⟩ := hs
    refine socketInv_connect ?_ (by simp [Shut, unconnectedSocket])
      (by simp [NoneLive, unconnectedSocket]) rfl rfl fails
    constructor <;> simp [unconnectedSocket]
  step _ _ _ h hok hstep := h.step hok hstep

/-! ## One socket -/

/-- An event of one socket. -/
def IsEventOf (id : Nat) : SocketAct → Prop
  | .opens id' _ => id' = id
  | .message id' _ => id' = id
  | .error id' => id' = id
  | .closes id' => id' = id
  | .fires _ _ => False
  | .callerCloses => False

/-- What the claim asks of a state. -/
structure SingleConnection (s : PublicSocket) : Prop where
  single : ∀ (i j : Nat) (si sj : WebSocket), s.sockets[i]? = some si → s.sockets[j]? = some sj → si.Live → sj.Live →
    i = j
  connected : s.closed = false →
    (∃ id socket, s.socket = some id ∧ s.sockets[id]? = some socket ∧ socket.abandoned = false ∧
      (socket.readyState = .connecting ∨ socket.readyState = .opened)) ∨ Scheduled s
  quiet : s.closed = true → (∀ socket ∈ s.sockets, ¬ socket.Live) ∧ s.armed = []

theorem SocketInv.singleConnection (h : SocketInv s) : SingleConnection s where
  single i j si sj hi hj hlivei hlivej := by
    have heq := (h.current i si hi hlivei).1
    rw [(h.current j sj hj hlivej).1] at heq
    exact (Option.some.inj heq).symm
  connected hopen := by
    refine (h.connected hopen).imp_left ?_
    rintro ⟨id, socket, hcurrent, hsocket, hkept, hending⟩
    refine ⟨id, socket, hcurrent, hsocket, hkept, ?_⟩
    have hshut := (h.shut socket (List.mem_of_getElem? hsocket)).2
    cases hstate : socket.readyState with
    | connecting => exact Or.inl rfl
    | opened => exact Or.inr rfl
    | closing =>
      rw [hshut hstate] at hkept
      cases hkept
    | closed => exact absurd hstate hending
  quiet hclosed := by
    refine ⟨fun socket hsocket hlive => ?_, h.idle hclosed⟩
    obtain ⟨id, hid⟩ := List.getElem?_of_mem hsocket
    have hopen := (h.current id socket hid hlive).2.1
    rw [hclosed] at hopen
    cases hopen

/-- An event of an abandoned socket schedules nothing, opens nothing and leaves
the timers of a live socket alone. -/
structure LeavesAlone (s s' : PublicSocket) : Prop where
  retryTimer : s'.retryTimer = s.retryTimer
  opens : s'.sockets.length = s.sockets.length
  socket : s'.socket = s.socket
  timers : ¬ NoneLive s →
    s'.armed = s.armed ∧ s'.pingTimer = s.pingTimer ∧ s'.livenessTimer = s.livenessTimer

theorem SocketInv.leavesAlone (h : SocketInv s) {subscriptions : Bool} {id : Nat}
    {socket : WebSocket} (hsocket : s.sockets[id]? = some socket)
    (habandoned : socket.abandoned = true) {act : SocketAct} (hof : IsEventOf id act)
    (hok : StepOk subscriptions s act) (hstep : socketStep subscriptions s act = some s') :
    LeavesAlone s s' := by
  have hshut := (h.shut socket (List.mem_of_getElem? hsocket)).1 habandoned
  cases act with
  | opens id' fails =>
    cases hof
    obtain ⟨socket', hsocket', hstep⟩ := Option.bind_eq_some_iff.mp hstep
    cases hsocket.symm.trans hsocket'
    rw [if_neg (by rcases hshut with hs | hs <;> simp [hs])] at hstep
    cases hstep
  | message id' parses =>
    cases hof
    obtain ⟨socket', hsocket', hstep⟩ := Option.bind_eq_some_iff.mp hstep
    cases hsocket.symm.trans hsocket'
    rw [if_neg (by rcases hshut with hs | hs <;> simp [hs])] at hstep
    cases hstep
  | error id' =>
    obtain ⟨socket', hsocket', hstep⟩ := Option.bind_eq_some_iff.mp hstep
    split at hstep
    · cases hstep
      exact ⟨rfl, rfl, rfl, fun _ => ⟨rfl, rfl, rfl⟩⟩
    · cases hstep
  | closes id' =>
    cases hof
    obtain ⟨socket', hsocket', hstep⟩ := Option.bind_eq_some_iff.mp hstep
    have hcase : s.closed = true ∨ s.retryTimer ≠ none :=
      hok (by simp [hsocket, habandoned])
    -- nothing is live, and a reconnect is not scheduled again
    have hnone : NoneLive s := by
      intro sk hsk hlive
      obtain ⟨j, hj⟩ := List.getElem?_of_mem hsk
      obtain ⟨-, hopen, hretry⟩ := h.current j sk hj hlive
      rcases hcase with hc | hr
      · rw [hopen] at hc
        cases hc
      · exact hr hretry
    split at hstep
    · cases hstep
      have hclose : (s.setReadyState id .closed).onClose =
          (s.setReadyState id .closed).clearPingTimer.clearLivenessTimer ∨
          (s.setReadyState id .closed).onClose =
            (s.setReadyState id .closed).clearPingTimer.clearLivenessTimer.status "closed" := by
        unfold PublicSocket.onClose
        dsimp only
        split
        · exact Or.inr rfl
        · exact Or.inl (if_pos hcase)
      have hlength : (s.setReadyState id .closed).sockets.length = s.sockets.length :=
        List.length_modify ..
      rcases hclose with heq | heq <;> rw [heq] <;>
        exact ⟨rfl, hlength, rfl, fun hlive => absurd hnone hlive⟩
    · cases hstep
  | fires timer fails => cases hof
  | callerCloses => cases hof

/-- **One live socket.** In every run whose steps meet the guard. -/
theorem one_live_socket (subscriptions : Bool)
    (hs : (publicSocket subscriptions).ReachOn (StepOk subscriptions) s) :
    SingleConnection s ∧
      ∀ (id : Nat) (socket : WebSocket) (act : SocketAct) (s' : PublicSocket),
        s.sockets[id]? = some socket → socket.abandoned = true → IsEventOf id act →
        StepOk subscriptions s act → socketStep subscriptions s act = some s' →
        LeavesAlone s s' := by
  have h := (socketInv subscriptions).invariant hs
  exact ⟨h.singleConnection, fun id socket act s' hsocket habandoned hof hok hstep =>
    h.leavesAlone hsocket habandoned hof hok hstep⟩

/-! ## Runs -/

theorem connected_init : (publicSocket false).init (unconnectedSocket.connect false) := ⟨false, rfl⟩

/-- The first socket is silent; its `close` event comes before the second opens. -/
def promptClose : List SocketAct :=
  [.opens 0 false, .message 0 true, .fires (2, .liveness) false, .closes 0,
    .fires (3, .retry) false, .opens 1 false]

/-- The guarded run. -/
theorem promptClose_single :
    ∃ s, (publicSocket false).ReachOn (StepOk false) s ∧ s.sockets.length = 2 ∧
      SingleConnection s := by
  obtain ⟨s, hs, htest⟩ := TSys.exists_reachOn_of_runOn (StepOk false) promptClose
    (fun s : PublicSocket => decide (s.sockets.length = 2)) connected_init (by decide +kernel)
  exact ⟨s, hs, of_decide_eq_true htest, (one_live_socket false hs).1⟩

/-- The first socket is silent; its `close` event comes after the second opened. -/
def lateClose : List SocketAct :=
  [.opens 0 false, .fires (0, .liveness) false, .fires (2, .retry) false, .opens 1 false,
    .closes 0, .fires (5, .retry) false]

/-- The second and the third socket are both live. -/
theorem lateClose_two_live :
    ¬ ∀ (subscriptions : Bool) (s : PublicSocket), (publicSocket subscriptions).Reachable s →
      SingleConnection s := by
  intro h
  obtain ⟨s, hs, htest⟩ := TSys.exists_reachable_of_run lateClose
    (fun s : PublicSocket => (s.sockets[1]?).any (fun sk : WebSocket => decide sk.Live) &&
      (s.sockets[2]?).any fun sk : WebSocket => decide sk.Live) connected_init (by decide +kernel)
  obtain ⟨h1, h2⟩ := Bool.and_eq_true_iff.mp htest
  obtain ⟨s1, hs1, hlive1⟩ := (Option.any_eq_true _ _).mp h1
  obtain ⟨s2, hs2, hlive2⟩ := (Option.any_eq_true _ _).mp h2
  have := (h false s hs).single 1 2 s1 s2 hs1 hs2 (of_decide_eq_true hlive1)
    (of_decide_eq_true hlive2)
  cases this

end CartoLive.Theorems.OneSocket
