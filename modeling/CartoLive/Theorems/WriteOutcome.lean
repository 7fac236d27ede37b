import CartoLive.App.WriteCoordinator

/-!
# What `Do` says about its write

In every interleaving of calls, cancellations, `Close` and the run loop: a
function is called at most once and never beside another one, a result that is
no cancellation is the one that the function returned before, and a request
whose context was cancelled before its pick is never run
(`outcomes_truthful`). A call without function is refused.
-/

namespace CartoLive.Theorems.WriteOutcome

open CartoLive.Lib CartoLive.App

/-! ## What the history shows -/

/-- Where the result of a request comes from: its function, or the end of its
context. -/
def Source (history : List WriteEvent) (id : Nat) (result : WriteResult) : Prop :=
  .finished id result ∈ history ∨
    ∃ err, result = some (.context err) ∧ .cancelled id err ∈ history

/-- What happened before an event of the coordinator. -/
def Justified (before : List WriteEvent) : WriteEvent → Prop
  | .picked pick => ∀ p, .picked p ∈ before → p.id ≠ pick.id
  | .started id => (∃ p, .picked p ∈ before ∧ p.id = id) ∧ .started id ∉ before ∧
      (∀ err, .cancelled id err ∉ before) ∧
      ∀ other, .started other ∈ before → ∃ result, .finished other result ∈ before
  | .finished id _ => .started id ∈ before ∧ ∀ result, .finished id result ∉ before
  | .returned id result => Source before id result ∨
      result = some (.context .canceled) ∧ .closed ∈ before ∨
      result = some nilWriteError ∧ .called id false ∈ before
  | _ => True

/-- The request an event is about. -/
def WriteEvent.id? : WriteEvent → Option Nat
  | .called id _ | .cancelled id _ => some id
  | .picked pick => some pick.id
  | _ => none

/-- The requests on the channel and in the queues. -/
def waiting (s : Coordinator) : List Nat :=
  s.inbox ++ (s.queues.primary ++ (s.queues.liveCore ++ s.queues.background))

/-- All started functions have returned. -/
def AllFinished (history : List WriteEvent) : Prop :=
  ∀ other, .started other ∈ history → ∃ result, .finished other result ∈ history

/-- What the loop has done for the request in its hands. -/
def LoopInv (history : List WriteEvent) : RunLoop → Prop
  | .picked id => (∃ p, .picked p ∈ history ∧ p.id = id) ∧ .started id ∉ history ∧
      AllFinished history
  | .running id => .started id ∈ history ∧ (∀ result, .finished id result ∉ history) ∧
      ∀ other, .started other ∈ history → other ≠ id → ∃ result, .finished other result ∈ history
  | .sending id result => Source history id result ∧ AllFinished history
  | _ => AllFinished history

structure OutcomeInv (s : Coordinator) : Prop where
  ids_lt : ∀ e ∈ s.history, ∀ id, WriteEvent.id? e = some id → id < s.calls.length
  justified : Along Justified s.history
  ctxErr : ∀ id call err, s.calls[id]? = some call →
    (.cancelled id err ∈ s.history ↔ call.ctxErr = some err)
  closed : s.closed = true → .closed ∈ s.history
  nodup : (waiting s).Nodup
  unpicked : ∀ id ∈ waiting s, ∀ p, .picked p ∈ s.history → p.id ≠ id
  waiting_lt : ∀ id ∈ waiting s, id < s.calls.length
  offering : ∀ id call, s.calls[id]? = some call → call.phase = .offering →
    id ∉ waiting s ∧ ∀ p, .picked p ∈ s.history → p.id ≠ id
  loop : LoopInv s.history s.loop
  results : ∀ id call result, s.calls[id]? = some call → call.result = some result →
    Source s.history id result

variable {s s' : Coordinator}

/-! ## Longer histories -/

theorem Source.append {history : List WriteEvent} {id : Nat} {result : WriteResult}
    (h : Source history id result) (events : List WriteEvent) :
    Source (history ++ events) id result := by
  rcases h with h | ⟨err, heq, h⟩
  · exact Or.inl (List.mem_append_left _ h)
  · exact Or.inr ⟨err, heq, List.mem_append_left _ h⟩

/-- An event that neither starts, ends nor picks anything. -/
def Aside : WriteEvent → Prop
  | .started _ | .finished _ _ | .picked _ => False
  | _ => True

theorem allFinished_aside {history : List WriteEvent} (h : AllFinished history) {e : WriteEvent}
    (he : Aside e) : AllFinished (history ++ [e]) := by
  intro other hother
  rcases List.mem_append.mp hother with hother | hother
  · obtain ⟨result, hresult⟩ := h other hother
    exact ⟨result, List.mem_append_left _ hresult⟩
  · obtain rfl := List.mem_singleton.mp hother
    exact he.elim

theorem loopInv_aside {history : List WriteEvent} {loop : RunLoop} (h : LoopInv history loop)
    {e : WriteEvent} (he : Aside e) : LoopInv (history ++ [e]) loop := by
  cases loop with
  | picked id =>
    obtain ⟨⟨p, hp, hid⟩, hnot, hall⟩ := h
    refine ⟨⟨p, List.mem_append_left _ hp, hid⟩, fun hmem => ?_, allFinished_aside hall he⟩
    rcases List.mem_append.mp hmem with hmem | hmem
    · exact hnot hmem
    · obtain rfl := List.mem_singleton.mp hmem
      exact he
  | running id =>
    refine ⟨List.mem_append_left _ h.1, fun result hmem => ?_, fun other hother hne => ?_⟩
    · rcases List.mem_append.mp hmem with hmem | hmem
      · exact h.2.1 result hmem
      · obtain rfl := List.mem_singleton.mp hmem
        exact he
    rcases List.mem_append.mp hother with hother | hother
    · obtain ⟨result, hresult⟩ := h.2.2 other hother hne
      exact ⟨result, List.mem_append_left _ hresult⟩
    · obtain rfl := List.mem_singleton.mp hother
      exact he.elim
  | sending id result => exact ⟨h.1.append _, allFinished_aside h.2 he⟩
  | idle => exact allFinished_aside h he
  | draining => exact allFinished_aside h he
  | done => exact allFinished_aside h he

/-- A picked request is not an event aside. -/
theorem picked_of_aside {history : List WriteEvent} {e : WriteEvent} (he : Aside e) {p : Pick}
    (h : .picked p ∈ history ++ [e]) : .picked p ∈ history := by
  rcases List.mem_append.mp h with h | h
  · exact h
  · obtain rfl := List.mem_singleton.mp h
    exact he.elim

/-! ## The callers -/

theorem getElem?_set_cases {calls : List DoCall} {id j : Nat} {call call' : DoCall}
    (h : (calls.set id call)[j]? = some call') :
    j = id ∧ call' = call ∨ j ≠ id ∧ calls[j]? = some call' := by
  by_cases hj : id = j
  · subst hj
    rw [List.getElem?_set_self'] at h
    obtain ⟨_, -, heq⟩ := Option.map_eq_some_iff.mp h
    exact Or.inl ⟨rfl, heq.symm⟩
  · rw [List.getElem?_set_ne hj] at h
    exact Or.inr ⟨Ne.symm hj, h⟩

theorem lt_of_getElem? {calls : List DoCall} {id : Nat} {call : DoCall}
    (h : calls[id]? = some call) : id < calls.length :=
  (List.getElem?_eq_some_iff.mp h).1

/-- A call whose phase or context changes, with an event aside. -/
theorem OutcomeInv.setCall (h : OutcomeInv s) {id : Nat} {call call' : DoCall}
    (hcall : s.calls[id]? = some call) {e : WriteEvent} (he : Aside e)
    (hid : ∀ j, WriteEvent.id? e = some j → j = id) (hjust : Justified s.history e)
    (hctx : ∀ err, .cancelled id err ∈ s.history ++ [e] ↔ call'.ctxErr = some err)
    (hother : ∀ j ≠ id, ∀ err, e ≠ .cancelled j err)
    (hphase : call'.phase = .offering → call.phase = .offering)
    (hresult : call'.result = call.result) :
    OutcomeInv { s with calls := s.calls.set id call', history := s.history ++ [e] } := by
  have hlt := lt_of_getElem? hcall
  constructor
  case ids_lt =>
    intro e' he' j hj
    rw [List.length_set]
    rcases List.mem_append.mp he' with he' | he'
    · exact h.ids_lt e' he' j hj
    · rw [List.mem_singleton.mp he'] at hj
      rw [hid j hj]
      exact hlt
  case justified => exact along_concat.mpr ⟨h.justified, hjust⟩
  case ctxErr =>
    intro j c err hc
    rcases getElem?_set_cases hc with ⟨rfl, rfl⟩ | ⟨hne, hc⟩
    · exact hctx err
    · rw [← h.ctxErr j c err hc]
      refine ⟨fun hmem => ?_, fun hmem => List.mem_append_left _ hmem⟩
      rcases List.mem_append.mp hmem with hmem | hmem
      · exact hmem
      · exact absurd (List.mem_singleton.mp hmem).symm (hother j hne err)
  case closed => exact fun hclosed => List.mem_append_left _ (h.closed hclosed)
  case nodup => exact h.nodup
  case unpicked => exact fun j hj p hp => h.unpicked j hj p (picked_of_aside he hp)
  case waiting_lt =>
    intro j hj
    rw [List.length_set]
    exact h.waiting_lt j hj
  case offering =>
    intro j c hc hoffering
    rcases getElem?_set_cases hc with ⟨rfl, rfl⟩ | ⟨-, hc⟩
    · obtain ⟨hnot, hunpicked⟩ := h.offering j call hcall (hphase hoffering)
      exact ⟨hnot, fun p hp => hunpicked p (picked_of_aside he hp)⟩
    · obtain ⟨hnot, hunpicked⟩ := h.offering j c hc hoffering
      exact ⟨hnot, fun p hp => hunpicked p (picked_of_aside he hp)⟩
  case loop => exact loopInv_aside h.loop he
  case results =>
    intro j c result hc hr
    rcases getElem?_set_cases hc with ⟨rfl, rfl⟩ | ⟨-, hc⟩
    · exact (h.results j call result hcall (hresult ▸ hr)).append _
    · exact (h.results j c result hc hr).append _

/-- `Do` returns. -/
theorem OutcomeInv.returns (h : OutcomeInv s) {id : Nat} {call : DoCall}
    (hcall : s.calls[id]? = some call) {result : WriteResult}
    (hjust : Justified s.history (.returned id result)) :
    OutcomeInv (s.returns id call result) := by
  refine h.setCall hcall trivial (by simp [WriteEvent.id?]) hjust (fun err => ?_) (by simp)
    (by simp) rfl
  rw [← h.ctxErr id call err hcall]
  simp

theorem OutcomeInv.cancel (h : OutcomeInv s) {id : Nat} {call : DoCall} {err : ContextError}
    (hcall : s.calls[id]? = some call) (hnone : call.ctxErr = none) :
    OutcomeInv { s with
      calls := s.calls.set id { call with ctxErr := some err }
      history := s.history ++ [.cancelled id err] } := by
  refine h.setCall hcall trivial (by simp [WriteEvent.id?]) trivial (fun err' => ?_)
    (fun j hj err' heq => hj (by cases heq; rfl)) (fun hphase => hphase) rfl
  have hold := h.ctxErr id call err' hcall
  rw [hnone] at hold
  simp only [List.mem_append, hold, List.mem_singleton, WriteEvent.cancelled.injEq, true_and,
    Option.some.injEq, reduceCtorEq, false_or]
  exact eq_comm

/-- A call begins. -/
theorem OutcomeInv.call (h : OutcomeInv s) (lane : WriteLane) (hasFn : Bool) :
    OutcomeInv { s with
      calls := s.calls ++
        [{ lane, hasFn, ctxErr := none, phase := .offering, result := none }]
      history := s.history ++ [.called s.calls.length hasFn] } := by
  have hnew : ∀ {j : Nat} {c : DoCall}, (s.calls ++
      [({ lane, hasFn, ctxErr := none, phase := .offering, result := none } : DoCall)])[j]? =
        some c → s.calls[j]? = some c ∨ j = s.calls.length ∧ c =
          { lane, hasFn, ctxErr := none, phase := .offering, result := none } := by
    intro j c hc
    rcases Nat.lt_trichotomy j s.calls.length with hlt | rfl | hgt
    · rw [List.getElem?_append_left hlt] at hc
      exact Or.inl hc
    · rw [List.getElem?_concat_length] at hc
      exact Or.inr ⟨rfl, (Option.some.inj hc).symm⟩
    · rw [List.getElem?_eq_none (by simp; omega)] at hc
      cases hc
  have haside : Aside (.called s.calls.length hasFn) := trivial
  constructor
  case ids_lt =>
    intro e he j hj
    rw [List.length_append, List.length_singleton]
    rcases List.mem_append.mp he with he | he
    · have := h.ids_lt e he j hj
      omega
    · rw [List.mem_singleton.mp he] at hj
      cases hj
      omega
  case justified => exact along_concat.mpr ⟨h.justified, trivial⟩
  case ctxErr =>
    intro j c err hc
    rw [List.mem_append, List.mem_singleton]
    rcases hnew hc with hc | ⟨rfl, rfl⟩
    · simp [h.ctxErr j c err hc]
    · simp only [reduceCtorEq, or_false, iff_false]
      intro hmem
      exact Nat.lt_irrefl _ (h.ids_lt _ hmem _ rfl)
  case closed => exact fun hclosed => List.mem_append_left _ (h.closed hclosed)
  case nodup => exact h.nodup
  case unpicked => exact fun j hj p hp => h.unpicked j hj p (picked_of_aside haside hp)
  case waiting_lt =>
    intro j hj
    rw [List.length_append, List.length_singleton]
    have := h.waiting_lt j hj
    omega
  case offering =>
    intro j c hc hoffering
    rcases hnew hc with hc | ⟨rfl, rfl⟩
    · obtain ⟨hnot, hunpicked⟩ := h.offering j c hc hoffering
      exact ⟨hnot, fun p hp => hunpicked p (picked_of_aside haside hp)⟩
    · refine ⟨fun hmem => Nat.lt_irrefl _ (h.waiting_lt _ hmem), fun p hp heq => ?_⟩
      have := h.ids_lt _ (picked_of_aside haside hp) p.id rfl
      omega
  case loop => exact loopInv_aside h.loop haside
  case results =>
    intro j c result hc hr
    rcases hnew hc with hc | ⟨rfl, rfl⟩
    · exact (h.results j c result hc hr).append _
    · cases hr

/-- A request goes on the channel. -/
theorem OutcomeInv.offer (h : OutcomeInv s) {id : Nat} {call : DoCall}
    (hcall : s.calls[id]? = some call) (hphase : call.phase = .offering) :
    OutcomeInv { s with
      inbox := s.inbox ++ [id]
      calls := s.calls.set id { call with phase := .waiting } } := by
  obtain ⟨hnot, hunpicked⟩ := h.offering id call hcall hphase
  have hperm : (waiting { s with
      inbox := s.inbox ++ [id]
      calls := s.calls.set id { call with phase := .waiting } }).Perm (id :: waiting s) := by
    simp only [waiting, List.append_assoc, List.singleton_append]
    exact List.perm_middle
  have hmem : ∀ j, j ∈ waiting { s with
      inbox := s.inbox ++ [id]
      calls := s.calls.set id { call with phase := .waiting } } → j = id ∨ j ∈ waiting s :=
    fun j hj => List.mem_cons.mp (hperm.mem_iff.mp hj)
  constructor
  case ids_lt =>
    intro e he j hj
    rw [List.length_set]
    exact h.ids_lt e he j hj
  case justified => exact h.justified
  case ctxErr =>
    intro j c err hc
    rcases getElem?_set_cases hc with ⟨rfl, rfl⟩ | ⟨-, hc⟩
    · exact h.ctxErr j call err hcall
    · exact h.ctxErr j c err hc
  case closed => exact h.closed
  case nodup => exact hperm.nodup_iff.mpr (List.nodup_cons.mpr ⟨hnot, h.nodup⟩)
  case unpicked =>
    intro j hj
    rcases hmem j hj with rfl | hj
    · exact hunpicked
    · exact h.unpicked j hj
  case waiting_lt =>
    intro j hj
    rw [List.length_set]
    rcases hmem j hj with rfl | hj
    · exact lt_of_getElem? hcall
    · exact h.waiting_lt j hj
  case offering =>
    intro j c hc hoffering
    rcases getElem?_set_cases hc with ⟨rfl, rfl⟩ | ⟨hne, hc⟩
    · cases hoffering
    · obtain ⟨hnot', hunpicked'⟩ := h.offering j c hc hoffering
      exact ⟨fun hj => (hmem j hj).elim hne hnot', hunpicked'⟩
  case loop => exact h.loop
  case results =>
    intro j c result hc hr
    rcases getElem?_set_cases hc with ⟨rfl, rfl⟩ | ⟨-, hc⟩
    · exact h.results j call result hcall hr
    · exact h.results j c result hc hr

/-! ## The loop -/

theorem perm_push (q : Queues) (lane : WriteLane) (id : Nat) :
    ((q.push lane id).primary ++ ((q.push lane id).liveCore ++ (q.push lane id).background)).Perm
      (id :: (q.primary ++ (q.liveCore ++ q.background))) := by
  cases lane with
  | primary =>
    simp only [Queues.push, Queues.set, Queues.get, List.append_assoc, List.singleton_append]
    exact List.perm_middle
  | liveCore =>
    simp only [Queues.push, Queues.set, Queues.get, List.append_assoc, List.singleton_append]
    rw [← List.append_assoc, ← List.append_assoc]
    exact List.perm_middle
  | background =>
    simp only [Queues.push, Queues.set, Queues.get, ← List.append_assoc]
    exact List.perm_append_singleton ..

theorem perm_take (q : Queues) (lane : WriteLane) {id : Nat} {rest : List Nat}
    (h : q.get lane = id :: rest) : (q.primary ++ (q.liveCore ++ q.background)).Perm
      (id :: ((q.set lane rest).primary ++
        ((q.set lane rest).liveCore ++ (q.set lane rest).background))) := by
  cases lane with
  | primary =>
    have h' : q.primary = id :: rest := h
    rw [h']
    exact List.Perm.refl _
  | liveCore =>
    have h' : q.liveCore = id :: rest := h
    rw [h', List.cons_append]
    exact List.perm_middle
  | background =>
    have h' : q.background = id :: rest := h
    rw [h', ← List.append_assoc]
    refine List.perm_middle.trans ?_
    rw [List.append_assoc]
    exact List.Perm.refl _

/-- A step of the loop that leaves the calls alone and at most moves requests
from the channel to the queues. -/
theorem OutcomeInv.move (h : OutcomeInv s) {e : WriteEvent} {loop : RunLoop} {inbox : List Nat}
    {queues : Queues} (hperm : (inbox ++ (queues.primary ++
      (queues.liveCore ++ queues.background))).Perm (waiting s))
    (hid : WriteEvent.id? e = none) (hpicked : ∀ p, e ≠ .picked p)
    (hcancelled : ∀ id err, e ≠ .cancelled id err) (hjust : Justified s.history e)
    (hloop : LoopInv (s.history ++ [e]) loop) :
    OutcomeInv { s with inbox, queues, loop, history := s.history ++ [e] } := by
  have hold : ∀ p, .picked p ∈ s.history ++ [e] → .picked p ∈ s.history := by
    intro p hp
    rcases List.mem_append.mp hp with hp | hp
    · exact hp
    · exact absurd (List.mem_singleton.mp hp).symm (hpicked p)
  constructor
  case ids_lt =>
    intro e' he' j hj
    rcases List.mem_append.mp he' with he' | he'
    · exact h.ids_lt e' he' j hj
    · rw [List.mem_singleton.mp he', hid] at hj
      cases hj
  case justified => exact along_concat.mpr ⟨h.justified, hjust⟩
  case ctxErr =>
    intro j c err hc
    rw [← h.ctxErr j c err hc]
    refine ⟨fun hmem => ?_, fun hmem => List.mem_append_left _ hmem⟩
    rcases List.mem_append.mp hmem with hmem | hmem
    · exact hmem
    · exact absurd (List.mem_singleton.mp hmem).symm (hcancelled j err)
  case closed => exact fun hclosed => List.mem_append_left _ (h.closed hclosed)
  case nodup => exact hperm.nodup_iff.mpr h.nodup
  case unpicked => exact fun j hj p hp => h.unpicked j (hperm.mem_iff.mp hj) p (hold p hp)
  case waiting_lt => exact fun j hj => h.waiting_lt j (hperm.mem_iff.mp hj)
  case offering =>
    intro j c hc hoffering
    obtain ⟨hnot, hunpicked⟩ := h.offering j c hc hoffering
    exact ⟨fun hj => hnot (hperm.mem_iff.mp hj), fun p hp => hunpicked p (hold p hp)⟩
  case loop => exact hloop
  case results => exact fun j c result hc hr => (h.results j c result hc hr).append _

theorem OutcomeInv.collect (h : OutcomeInv s) (hall : AllFinished s.history)
    (hstep : s.collect = some s') : OutcomeInv s' := by
  unfold Coordinator.collect at hstep
  split at hstep
  · cases hstep
  · rename_i id inbox hinbox
    obtain ⟨call, -, rfl⟩ := Option.map_eq_some_iff.mp hstep
    refine h.move ?_ rfl (by simp) (by simp) trivial (allFinished_aside hall trivial)
    rw [waiting, hinbox]
    refine ((perm_push s.queues call.lane id).append_left inbox).trans ?_
    exact List.perm_middle

/-- A request is picked, for the first time. -/
theorem OutcomeInv.pick (h : OutcomeInv s) (pick : Pick) {rest : List Nat} {nextLive : WriteLane}
    (hhead : s.queues.get pick.lane = pick.id :: rest) (hall : AllFinished s.history) :
    OutcomeInv { s with
      queues := s.queues.set pick.lane rest
      nextLive
      loop := .picked pick.id
      history := s.history ++ [.picked pick] } := by
  have hperm : (waiting s).Perm (pick.id :: (s.inbox ++
      ((s.queues.set pick.lane rest).primary ++
        ((s.queues.set pick.lane rest).liveCore ++ (s.queues.set pick.lane rest).background)))) :=
    ((perm_take s.queues pick.lane hhead).append_left s.inbox).trans List.perm_middle
  have hmem : pick.id ∈ waiting s := hperm.mem_iff.mpr List.mem_cons_self
  obtain ⟨hnot, hnodup⟩ := List.nodup_cons.mp (hperm.nodup_iff.mp h.nodup)
  have hfresh := h.unpicked pick.id hmem
  have hwaits : ∀ j, j ∈ waiting { s with
      queues := s.queues.set pick.lane rest
      nextLive
      loop := .picked pick.id
      history := s.history ++ [.picked pick] } → j ∈ waiting s ∧ j ≠ pick.id := fun j hj =>
    ⟨hperm.mem_iff.mpr (List.mem_cons_of_mem _ hj), fun heq => hnot (heq ▸ hj)⟩
  have hpicks : ∀ {p : Pick} {j : Nat}, .picked p ∈ s.history ++ [.picked pick] →
      j ≠ pick.id → (∀ p, .picked p ∈ s.history → p.id ≠ j) → p.id ≠ j := by
    intro p j hp hne hold
    rcases List.mem_append.mp hp with hp | hp
    · exact hold p hp
    · cases List.mem_singleton.mp hp
      exact Ne.symm hne
  have hunstarted : .started pick.id ∉ s.history := by
    intro hstarted
    obtain ⟨before, after, hsplit, ⟨p, hp, hid⟩, -⟩ := h.justified.exists_of_mem hstarted
    exact hfresh p (hsplit ▸ List.mem_append_left _ hp) hid
  constructor
  case ids_lt =>
    intro e he j hj
    rcases List.mem_append.mp he with he | he
    · exact h.ids_lt e he j hj
    · rw [List.mem_singleton.mp he] at hj
      cases hj
      exact h.waiting_lt _ hmem
  case justified => exact along_concat.mpr ⟨h.justified, hfresh⟩
  case ctxErr =>
    intro j c err hc
    rw [← h.ctxErr j c err hc]
    simp
  case closed => exact fun hclosed => List.mem_append_left _ (h.closed hclosed)
  case nodup => exact hnodup
  case unpicked =>
    intro j hj p hp
    exact hpicks hp (hwaits j hj).2 (h.unpicked j (hwaits j hj).1)
  case waiting_lt => exact fun j hj => h.waiting_lt j (hwaits j hj).1
  case offering =>
    intro j c hc hoffering
    obtain ⟨hnot', hunpicked⟩ := h.offering j c hc hoffering
    refine ⟨fun hj => hnot' (hwaits j hj).1, fun p hp => hpicks hp ?_ hunpicked⟩
    rintro rfl
    exact hnot' hmem
  case loop =>
    refine ⟨⟨pick, by simp, rfl⟩, fun hstarted => ?_, fun other hother => ?_⟩
    · exact hunstarted (by simpa using hstarted)
    · obtain ⟨result, hresult⟩ := hall other (by simpa using hother)
      exact ⟨result, List.mem_append_left _ hresult⟩
  case results => exact fun j c result hc hr => (h.results j c result hc hr).append _

/-- The function of a picked request is called unless its context has ended. -/
theorem OutcomeInv.check (h : OutcomeInv s)
    (hstep : writeStep s .check = some s') : OutcomeInv s' := by
  simp only [writeStep] at hstep
  split at hstep
  · rename_i id hloop
    obtain ⟨call, hcall, rfl⟩ := Option.map_eq_some_iff.mp hstep
    have hpicked := h.loop
    rw [hloop] at hpicked
    obtain ⟨hpick, hunstarted, hall⟩ := hpicked
    split
    · rename_i err herr
      have hcancelled := (h.ctxErr id call err hcall).mpr herr
      exact { h with loop := ⟨Or.inr ⟨err, rfl, hcancelled⟩, hall⟩ }
    · rename_i hnone
      refine h.move (List.Perm.refl _) rfl (by simp) (by simp)
        ⟨hpick, hunstarted, fun err hmem => ?_, hall⟩
        ⟨by simp, fun result hmem => ?_, fun other hother hne => ?_⟩
      · have := (h.ctxErr id call err hcall).mp hmem
        rw [hnone] at this
        cases this
      · obtain ⟨before, after, hsplit, hstarted, -⟩ :=
          h.justified.exists_of_mem (e := .finished id result) (by simpa using hmem)
        exact hunstarted (hsplit ▸ List.mem_append_left _ hstarted)
      · rcases List.mem_append.mp hother with hother | hother
        · obtain ⟨result, hresult⟩ := hall other hother
          exact ⟨result, List.mem_append_left _ hresult⟩
        · cases List.mem_singleton.mp hother
          exact absurd rfl hne
  · cases hstep

theorem OutcomeInv.fnReturns (h : OutcomeInv s) {result : WriteResult}
    (hstep : writeStep s (.fnReturns result) = some s') : OutcomeInv s' := by
  simp only [writeStep] at hstep
  split at hstep
  · rename_i id hloop
    cases hstep
    have hrunning := h.loop
    rw [hloop] at hrunning
    refine h.move (List.Perm.refl _) rfl (by simp) (by simp)
      ⟨hrunning.1, hrunning.2.1⟩ ⟨Or.inl (by simp), fun other hother => ?_⟩
    by_cases hsame : other = id
    · exact ⟨result, by simp [hsame]⟩
    · obtain ⟨result', hresult⟩ := hrunning.2.2 other (by simpa using hother) hsame
      exact ⟨result', List.mem_append_left _ hresult⟩
  · cases hstep

theorem OutcomeInv.deliver (h : OutcomeInv s)
    (hstep : writeStep s .deliver = some s') : OutcomeInv s' := by
  simp only [writeStep] at hstep
  split at hstep
  · rename_i id result hloop
    obtain ⟨call, hcall, rfl⟩ := Option.map_eq_some_iff.mp hstep
    have hsending := h.loop
    rw [hloop] at hsending
    obtain ⟨hsource, hall⟩ := hsending
    constructor
    case ids_lt =>
      intro e he j hj
      rw [List.length_set]
      exact h.ids_lt e he j hj
    case justified => exact h.justified
    case ctxErr =>
      intro j c err hc
      rcases getElem?_set_cases hc with ⟨rfl, rfl⟩ | ⟨-, hc⟩
      · exact h.ctxErr j call err hcall
      · exact h.ctxErr j c err hc
    case closed => exact h.closed
    case nodup => exact h.nodup
    case unpicked => exact h.unpicked
    case waiting_lt =>
      intro j hj
      rw [List.length_set]
      exact h.waiting_lt j hj
    case offering =>
      intro j c hc hoffering
      rcases getElem?_set_cases hc with ⟨rfl, rfl⟩ | ⟨-, hc⟩
      · exact h.offering j call hcall hoffering
      · exact h.offering j c hc hoffering
    case loop =>
      show LoopInv s.history (RunLoop.next s.queues)
      unfold RunLoop.next
      split <;> exact hall
    case results =>
      intro j c r hc hr
      rcases getElem?_set_cases hc with ⟨rfl, rfl⟩ | ⟨-, hc⟩
      · cases hr
        exact hsource
      · exact h.results j c r hc hr
  · cases hstep

/-! ## The run -/

/-- The step lemma. -/
theorem OutcomeInv.step (h : OutcomeInv s) {act : WriteAct}
    (hstep : writeStep s act = some s') : OutcomeInv s' := by
  cases act with
  | call lane hasFn =>
    cases hstep
    have hcalled := h.call lane hasFn
    cases hasFn with
    | true => exact hcalled
    | false =>
      exact hcalled.returns (List.getElem?_concat_length ..)
        (Or.inr (Or.inr ⟨rfl, by simp⟩))
  | cancel id err =>
    obtain ⟨call, hcall, hstep⟩ := Option.bind_eq_some_iff.mp hstep
    split at hstep
    · rename_i hnone
      cases hstep
      exact h.cancel hcall hnone
    · cases hstep
  | close =>
    cases hstep
    have hmove : OutcomeInv { s with history := s.history ++ [.closed] } :=
      h.move (List.Perm.refl _) rfl (by simp) (by simp) trivial (loopInv_aside h.loop trivial)
    exact { hmove with closed := fun _ => by simp }
  | offer id =>
    obtain ⟨call, hcall, hstep⟩ := Option.bind_eq_some_iff.mp hstep
    split at hstep
    · rename_i hoffering
      cases hstep
      exact h.offer hcall hoffering.1
    · cases hstep
  | giveUp id =>
    obtain ⟨call, hcall, hstep⟩ := Option.bind_eq_some_iff.mp hstep
    split at hstep
    · rename_i err herr
      split at hstep
      · cases hstep
        have hcancelled := (h.ctxErr id call err hcall).mpr herr
        exact h.returns hcall (Or.inl (Or.inr ⟨err, rfl, hcancelled⟩))
      · cases hstep
    · cases hstep
  | giveUpClosed id =>
    obtain ⟨call, hcall, hstep⟩ := Option.bind_eq_some_iff.mp hstep
    split at hstep
    · rename_i hclosed
      cases hstep
      exact h.returns hcall (Or.inr (Or.inl ⟨rfl, h.closed hclosed.2⟩))
    · cases hstep
  | takeResult id =>
    obtain ⟨call, hcall, hstep⟩ := Option.bind_eq_some_iff.mp hstep
    split at hstep
    · rename_i result hresult
      split at hstep
      · cases hstep
        exact h.returns hcall (Or.inl (h.results id call result hcall hresult))
      · cases hstep
    · cases hstep
  | receive =>
    simp only [writeStep] at hstep
    split at hstep
    · rename_i hloop
      have hall := h.loop
      rw [hloop] at hall
      exact h.collect hall hstep
    · cases hstep
  | quit =>
    simp only [writeStep] at hstep
    split at hstep
    · rename_i hloop
      cases hstep
      have hall := h.loop
      rw [hloop.1] at hall
      exact { h with loop := hall }
    · cases hstep
  | drain =>
    simp only [writeStep] at hstep
    split at hstep
    · rename_i hloop
      have hall := h.loop
      rw [hloop] at hall
      exact h.collect hall hstep
    · cases hstep
  | pick =>
    simp only [writeStep] at hstep
    split at hstep
    · rename_i hloop
      have hall := h.loop
      rw [hloop.1] at hall
      split at hstep
      · cases hstep
      · rename_i id rest hhead
        cases hstep
        exact h.pick { id, lane := _, hasPrimary := _, hasLive := _ } hhead hall
    · cases hstep
  | check => exact h.check hstep
  | fnReturns result => exact h.fnReturns hstep
  | deliver => exact h.deliver hstep

/-- The run lemma. -/
theorem outcomeInv : writeCoordinator.InductiveOn (fun _ _ => True) OutcomeInv where
  init s hs := by
    subst hs
    exact
      { ids_lt := by simp [newWriteCoordinator]
        justified := along_nil
        ctxErr := by simp [newWriteCoordinator]
        closed := by simp [newWriteCoordinator]
        nodup := List.nodup_nil
        unpicked := by simp [newWriteCoordinator, waiting, Queues.empty]
        waiting_lt := by simp [newWriteCoordinator, waiting, Queues.empty]
        offering := by simp [newWriteCoordinator]
        loop := by simp [newWriteCoordinator, LoopInv, AllFinished]
        results := by simp [newWriteCoordinator] }
  step _ _ _ h _ hstep := h.step hstep

/-! ## The main result -/

/-- What the outcomes of `Do` say about the functions. -/
structure OutcomesTruthful (history : List WriteEvent) : Prop where
  /-- Each function is called at most once. -/
  once : ∀ id, history.count (.started id) ≤ 1
  /-- Functions do not overlap. -/
  alone : Along (fun before e => ∀ id, e = .started id → AllFinished before) history
  /-- `nil` means that the function was called once and has returned `nil`. -/
  nil : ∀ before id after, history = before ++ .returned id none :: after →
    .finished id none ∈ before ∧ history.count (.started id) = 1
  /-- So does an error that is no cancellation, for a call with a function. -/
  error : ∀ before id err after, history = before ++ .returned id (some err) :: after →
    .called id false ∉ before → (∀ e, err = .context e → .cancelled id e ∉ before) →
    (err = .context .canceled → .closed ∉ before) →
    .finished id (some err) ∈ before ∧ history.count (.started id) = 1
  /-- A request that is cancelled before its pick is not run. -/
  cancelled : ∀ before id err after, history = before ++ .cancelled id err :: after →
    (∀ p, .picked p ∈ before → p.id ≠ id) → .started id ∉ history

theorem count_started_le {history : List WriteEvent} (h : Along Justified history) (id : Nat) :
    history.count (.started id) ≤ 1 :=
  h.count_le_one fun _ hjust => hjust.2.1

/-- A function that has returned was called once. -/
theorem count_started_of_finished {history before after : List WriteEvent}
    (h : Along Justified history) {e : WriteEvent} (hsplit : history = before ++ e :: after)
    {id : Nat} {result : WriteResult} (hfinished : .finished id result ∈ before) :
    history.count (.started id) = 1 := by
  have hmem : .finished id result ∈ history := hsplit ▸ List.mem_append_left _ hfinished
  obtain ⟨before', after', hsplit', hstarted, -⟩ := h.exists_of_mem hmem
  have hpos : 0 < history.count (.started id) :=
    List.count_pos_iff.mpr (hsplit' ▸ List.mem_append_left _ hstarted)
  have := count_started_le h id
  omega

/-- **Truthful outcomes.** In every interleaving of calls of `Do`, cancellations,
`Close` and the run loop. -/
theorem outcomes_truthful {s : Coordinator} (hs : writeCoordinator.Reachable s) :
    OutcomesTruthful s.history := by
  have h := (outcomeInv.invariant hs).justified
  refine ⟨count_started_le h, ?_, ?_, ?_, ?_⟩
  · rintro before e after hsplit id rfl
    exact (h before _ after hsplit).2.2.2
  · intro before id after hsplit
    rcases h before _ after hsplit with (hfinished | ⟨err, heq, -⟩) | ⟨heq, -⟩ | ⟨heq, -⟩
    · exact ⟨hfinished, count_started_of_finished h hsplit hfinished⟩
    · cases heq
    · cases heq
    · cases heq
  · intro before id err after hsplit hfn hctx hclosed
    rcases h before _ after hsplit with (hfinished | ⟨e, heq, hmem⟩) | ⟨heq, hmem⟩ | ⟨-, hmem⟩
    · exact ⟨hfinished, count_started_of_finished h hsplit hfinished⟩
    · exact absurd hmem (hctx e (Option.some.inj heq))
    · exact absurd hmem (hclosed (Option.some.inj heq))
    · exact absurd hmem hfn
  · intro before id err after hsplit hunpicked hstarted
    obtain ⟨before', after', hsplit', ⟨p, hp, hid⟩, -, hnot, -⟩ := h.exists_of_mem hstarted
    -- the pick came before the cancellation, or the cancellation before the start
    rcases List.append_eq_append_iff.mp (hsplit.symm.trans hsplit') with
      ⟨mid, hbefore', hcancel⟩ | ⟨mid, hbefore, -⟩
    · cases mid with
      | nil => cases hcancel
      | cons e mid =>
        have he : .cancelled id err = e := (List.cons.inj hcancel).1
        refine hnot err ?_
        rw [hbefore', ← he]
        simp
    · exact hunpicked p (hbefore ▸ List.mem_append_left _ hp) hid

/-! ## Runs -/

/-- Two calls of which one is cancelled on the queue, and a call without
function. -/
def threeCalls : List WriteAct :=
  [.call .primary true, .offer 0, .receive, .pick, .check, .call .liveCore true, .offer 1,
    .cancel 1 .deadlineExceeded, .fnReturns (some (.text "database is locked")), .deliver,
    .takeResult 0, .receive, .pick, .check, .deliver, .takeResult 1, .call .background false]

/-- The three outcomes, and what they say. -/
theorem threeCalls_truthful :
    ∃ s, writeCoordinator.Reachable s ∧
      .returned 0 (some (.text "database is locked")) ∈ s.history ∧
      .returned 1 (some (.context .deadlineExceeded)) ∈ s.history ∧
      OutcomesTruthful s.history := by
  obtain ⟨s, hs, htest⟩ := TSys.exists_reachable_of_run threeCalls
    (fun s : Coordinator => decide
      (.returned 0 (some (.text "database is locked")) ∈ s.history ∧
        .returned 1 (some (.context .deadlineExceeded)) ∈ s.history))
    newWriteCoordinator_init (by decide +kernel)
  obtain ⟨hfirst, hsecond⟩ := of_decide_eq_true htest
  exact ⟨s, hs, hfirst, hsecond, outcomes_truthful hs⟩

/-- An error that is no cancellation comes from the function, for any call. -/
def ErrorFromFunction (before : List WriteEvent) : WriteEvent → Prop
  | .returned id (some (.text message)) => .finished id (some (.text message)) ∈ before
  | _ => True

instance (before : List WriteEvent) (e : WriteEvent) : Decidable (ErrorFromFunction before e) := by
  unfold ErrorFromFunction
  split <;> infer_instance

/-- A call without function returns an error that no function has returned. -/
theorem nil_write_refused :
    ¬ ∀ s, writeCoordinator.Reachable s → Along ErrorFromFunction s.history := by
  intro h
  obtain ⟨s, hs, htest⟩ := TSys.exists_reachable_of_run [.call .background false]
    (fun s : Coordinator => decide (¬ Along ErrorFromFunction s.history))
    newWriteCoordinator_init (by decide +kernel)
  exact of_decide_eq_true htest (h s hs)

end CartoLive.Theorems.WriteOutcome
