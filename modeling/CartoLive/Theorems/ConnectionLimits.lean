import CartoLive.Api.Admission
import CartoLive.Lib.Holding

/-!
# The connection limits

The limiter counts, for every address, the slots that its requests hold, never
above its limit, and every admitted request gives its slot back exactly once: in
every run. The hub's own limit holds in the runs in which the count check lets a
request through only while the clients together with the upgrades under way
leave room. The check itself looks at the clients alone, so that requests whose
upgrades overlap all pass it and are all registered.
-/

namespace CartoLive.Theorems.ConnectionLimits

open CartoLive.Lib CartoLive.Api CartoLive.Go

/-! ## The limits -/

/-- The connection limits, in one state. -/
structure LimitsHold (maxPerIP : Int) (s : AdmissionState) : Prop where
  /-- The count of an address is the number of its requests that hold a slot. -/
  counted : ∀ ip, s.limiter.byIP (admissionKey ip) = s.held (admissionKey ip)
  bounded : ∀ ip, s.held (admissionKey ip) ≤ (newWSAdmissionLimiter maxPerIP).maxPerIP
  /-- An admitted request holds its slot, or has released it once. -/
  once : ∀ r ∈ s.requests, r.phase ≠ .refused → r.releases + (if r.holds then 1 else 0) = 1
  clients : s.clients ≤ maxClients

/-- The guard of the main result: a count check that passes leaves room for the
upgrades under way too. -/
def ChecksCountUpgrades (s : AdmissionState) : AdmissionAct → Prop
  | .check _ => s.clients < maxClients → s.clients + s.upgrades < maxClients
  | _ => True

instance (s : AdmissionState) (act : AdmissionAct) : Decidable (ChecksCountUpgrades s act) := by
  cases act <;> (unfold ChecksCountUpgrades; infer_instance)

/-! ## The invariant of the slots -/

/-- What a request has done, phase by phase. -/
def RequestInv (r : Request) : Prop :=
  match r.phase with
  | .refused | .admitted | .upgrading | .registered | .failed =>
    r.closing = 0 ∧ r.closeOnce = false ∧ r.releases = 0
  | .removed =>
    r.closeOnce = false ∧ r.closing = 1 ∧ r.releases = 0 ∨
      r.closeOnce = true ∧ r.closing = 0 ∧ r.releases = 1
  | .released => r.closing = 0 ∧ r.releases = 1

structure SlotInv (maxPerIP : Int) (s : AdmissionState) : Prop where
  limit : s.limiter.maxPerIP = (newWSAdmissionLimiter maxPerIP).maxPerIP
  counted : ∀ key, s.limiter.byIP key = s.held key
  bounded : ∀ key, s.limiter.byIP key ≤ s.limiter.maxPerIP
  requests : ∀ r ∈ s.requests, RequestInv r

variable {maxPerIP : Int} {s s' : AdmissionState} {i : Nat} {r r' : Request} {act : AdmissionAct}

theorem RequestInv.once (h : RequestInv r) (hphase : r.phase ≠ .refused) :
    r.releases + (if r.holds then 1 else 0) = 1 := by
  unfold RequestInv at h
  unfold Request.holds
  cases hp : r.phase <;> rw [hp] at h hphase <;> simp_all
  rcases h with h | h <;> simp [h]

theorem held_setRequest (hr : s.requests[i]? = some r) (hip : r'.ip = r.ip) (key : String) :
    (s.setRequest i r').held key + (if r.holds ∧ admissionKey r.ip = key then 1 else 0) =
      s.held key + (if r'.holds ∧ admissionKey r.ip = key then 1 else 0) := by
  have := countP_set_add (fun r : Request => r.holds && admissionKey r.ip = key) hr r'
  simpa [AdmissionState.held, hip] using this

theorem requestInv_set (h : ∀ r ∈ s.requests, RequestInv r) (hnew : RequestInv r') :
    ∀ r ∈ (s.setRequest i r').requests, RequestInv r := by
  intro q hq
  rcases List.mem_or_eq_of_mem_set hq with hold | rfl
  · exact h q hold
  · exact hnew

/-- A request moves and keeps its slot. -/
theorem SlotInv.move (h : SlotInv maxPerIP s) (hr : s.requests[i]? = some r) (hip : r'.ip = r.ip)
    (hholds : r'.holds = r.holds) (hnew : RequestInv r') : SlotInv maxPerIP (s.setRequest i r') where
  limit := h.limit
  counted key := by
    have := held_setRequest hr hip key
    rw [hholds] at this
    have hcounted := h.counted key
    show s.limiter.byIP key = _
    omega
  bounded := h.bounded
  requests := requestInv_set h.requests hnew

/-- A request gives its slot back. -/
theorem SlotInv.release (h : SlotInv maxPerIP s) (hr : s.requests[i]? = some r)
    (hip : r'.ip = r.ip) (hbefore : r.holds = true) (hafter : r'.holds = false)
    (hnew : RequestInv r') :
    SlotInv maxPerIP
      ({ s with limiter := s.limiter.release r.ip }.setRequest i r') where
  limit := by simpa [AdmissionState.setRequest] using h.limit
  counted key := by
    have := held_setRequest hr hip key
    rw [hbefore, hafter] at this
    show (s.limiter.release r.ip).byIP key = (s.setRequest i r').held key
    rw [WsAdmissionLimiter.byIP_release, h.counted key]
    simp only [true_and, Bool.false_eq_true, false_and, if_false] at this
    omega
  bounded key := by
    show (s.limiter.release r.ip).byIP key ≤ (s.limiter.release r.ip).maxPerIP
    rw [WsAdmissionLimiter.byIP_release, WsAdmissionLimiter.maxPerIP_release]
    exact (Nat.sub_le _ _).trans (h.bounded key)
  requests := requestInv_set h.requests hnew

theorem held_append (limiter : WsAdmissionLimiter) (requests : List Request) (r : Request)
    (key : String) :
    AdmissionState.held { limiter, requests := requests ++ [r] } key =
      AdmissionState.held { limiter, requests } key +
        (if r.holds ∧ admissionKey r.ip = key then 1 else 0) := by
  simp [AdmissionState.held, List.countP_append, List.countP_singleton]

/-- A request is refused, or takes a slot within the limit. -/
theorem SlotInv.request (h : SlotInv maxPerIP s) (ip : String) :
    SlotInv maxPerIP (publicWebSocket s ip) := by
  have hnew : ∀ phase, phase = .refused ∨ phase = .admitted →
      ∀ r ∈ s.requests ++ [newRequest ip phase], RequestInv r := by
    intro phase hphase r hr
    rcases List.mem_append.mp hr with hold | hr
    · exact h.requests r hold
    · rw [List.mem_singleton.mp hr]
      rcases hphase with rfl | rfl <;> exact ⟨rfl, rfl, rfl⟩
  unfold publicWebSocket
  split
  · refine ⟨h.limit, fun key => ?_, h.bounded, hnew _ (.inl rfl)⟩
    rw [held_append]
    simpa [newRequest, Request.holds] using h.counted key
  · rename_i limiter hacquire
    obtain ⟨hlimit, hcount, hle⟩ := WsAdmissionLimiter.acquire_spec hacquire
    refine ⟨hlimit ▸ h.limit, fun key => ?_, fun key => ?_, hnew _ (.inr rfl)⟩
    · rw [held_append]
      simpa [newRequest, Request.holds, AdmissionState.held] using (hcount key).trans
        (congrArg (· + _) (h.counted key))
    · show limiter.byIP key ≤ limiter.maxPerIP
      by_cases hkey : admissionKey ip = key
      · exact hlimit ▸ hkey ▸ hle
      · rw [hcount key, if_neg hkey, hlimit]
        exact h.bounded key

/-- The state of a request in a given phase. -/
theorem requestInv_of_phase (h : SlotInv maxPerIP s) (hr : s.requests[i]? = some r) :
    RequestInv r :=
  h.requests r (List.mem_of_getElem? hr)

/-- The close callback: the slot goes back the first time. -/
theorem SlotInv.onClose (h : SlotInv maxPerIP s) (hr : s.requests[i]? = some r)
    (hclosing : 0 < r.closing) : SlotInv maxPerIP (onClose s i r) := by
  have hinv := requestInv_of_phase h hr
  -- only a removed client has a removal on its way to the callback
  have hremoved : r.phase = .removed ∧ r.closeOnce = false ∧ r.closing = 1 ∧ r.releases = 0 := by
    unfold RequestInv at hinv
    cases hphase : r.phase <;> rw [hphase] at hinv <;> simp only at hinv <;> grind
  obtain ⟨hphase, honce, hone, hreleases⟩ := hremoved
  unfold Api.onClose
  simp only [honce, Bool.false_eq_true, if_false]
  refine h.release hr rfl ?_ ?_ ?_
  · simp [Request.holds, hphase, honce]
  · simp [Request.holds, hphase]
  · simp [RequestInv, hphase, hone, hreleases]

/-- The step lemma. -/
theorem SlotInv.step (h : SlotInv maxPerIP s) (hstep : admissionStep s act = some s') :
    SlotInv maxPerIP s' := by
  cases act with
  | request ip =>
    cases hstep
    exact h.request ip
  | check i =>
    obtain ⟨r, hr, hstep⟩ := Option.bind_eq_some_iff.mp hstep
    split at hstep
    · rename_i hphase
      have hinv := requestInv_of_phase h hr
      simp only [RequestInv, hphase] at hinv
      split at hstep <;> cases hstep
      · exact h.move hr rfl (by simp [Request.holds, hphase]) hinv
      · exact h.move hr rfl (by simp [Request.holds, hphase]) hinv
    · cases hstep
  | upgradeFails i | register i =>
    obtain ⟨r, hr, hstep⟩ := Option.bind_eq_some_iff.mp hstep
    split at hstep
    · rename_i hphase
      have hinv := requestInv_of_phase h hr
      simp only [RequestInv, hphase] at hinv
      cases hstep
      exact h.move hr rfl (by simp [Request.holds, hphase]) hinv
    · cases hstep
  | remove i =>
    obtain ⟨r, hr, hstep⟩ := Option.bind_eq_some_iff.mp hstep
    have hinv := requestInv_of_phase h hr
    split at hstep
    · rename_i hphase
      simp only [RequestInv, hphase] at hinv
      cases hstep
      refine h.move hr rfl (by simp [Request.holds, hphase, hinv]) (.inl ⟨hinv.2.1, ?_, hinv.2.2⟩)
      simp [hinv.1]
    · cases hstep
      exact h
    · cases hstep
  | close i =>
    obtain ⟨r, hr, hstep⟩ := Option.bind_eq_some_iff.mp hstep
    split at hstep
    · rename_i hclosing
      cases hstep
      exact h.onClose hr hclosing
    · cases hstep
  | release i =>
    obtain ⟨r, hr, hstep⟩ := Option.bind_eq_some_iff.mp hstep
    split at hstep
    · rename_i hphase
      have hinv := requestInv_of_phase h hr
      simp only [RequestInv, hphase] at hinv
      cases hstep
      refine h.release hr rfl ?_ rfl ⟨hinv.1, ?_⟩
      · simp [Request.holds, hphase]
      · simp [hinv.2.2]
    · cases hstep

/-- The run lemma: the slots are accounted for in every run. -/
theorem slotInv (maxPerIP : Int) {s : AdmissionState} (hs : (admission maxPerIP).Reachable s) :
    SlotInv maxPerIP s := by
  have hinductive : (admission maxPerIP).InductiveOn (fun _ _ => True) (SlotInv maxPerIP) :=
    { init := by
        rintro _ rfl
        exact ⟨rfl, fun _ => rfl, fun _ => Nat.zero_le _, nofun⟩
      step := fun _ _ _ h _ hstep => h.step hstep }
  exact hinductive.invariant hs

/-! ## The clients -/

theorem clients_setRequest (hr : s.requests[i]? = some r) (r' : Request) :
    (s.setRequest i r').clients + (if r.phase = .registered then 1 else 0) =
      s.clients + (if r'.phase = .registered then 1 else 0) := by
  have := countP_set_add (fun r : Request => r.phase = .registered) hr r'
  simpa [AdmissionState.clients] using this

theorem upgrades_setRequest (hr : s.requests[i]? = some r) (r' : Request) :
    (s.setRequest i r').upgrades + (if r.phase = .upgrading then 1 else 0) =
      s.upgrades + (if r'.phase = .upgrading then 1 else 0) := by
  have := countP_set_add (fun r : Request => r.phase = .upgrading) hr r'
  simpa [AdmissionState.upgrades] using this

/-- The clients and the upgrades under way stay within the limit. -/
def WithinLimit (s : AdmissionState) : Prop := s.clients + s.upgrades ≤ maxClients

/-- A request that was a client, or was becoming one, leaves; or nothing changes. -/
theorem WithinLimit.move (h : WithinLimit s) (hr : s.requests[i]? = some r)
    (hphase : r'.phase = r.phase ∨ r'.phase = .registered ∧ r.phase = .upgrading ∨
      r'.phase ≠ .registered ∧ r'.phase ≠ .upgrading) : WithinLimit (s.setRequest i r') := by
  have hclients := clients_setRequest hr r'
  have hupgrades := upgrades_setRequest hr r'
  unfold WithinLimit at h ⊢
  rcases hphase with hsame | ⟨hregistered, hupgrading⟩ | ⟨hnot, hnot'⟩
  · rw [hsame] at hclients hupgrades
    omega
  · simp only [hregistered, hupgrading, reduceCtorEq, if_false, if_true] at hclients hupgrades
    omega
  · simp only [hnot, hnot', if_false] at hclients hupgrades
    omega

/-- A count check that passes takes the room that the guard leaves. -/
theorem WithinLimit.upgrade (hroom : s.clients + s.upgrades < maxClients)
    (hr : s.requests[i]? = some r) (hphase : r.phase = .admitted) :
    WithinLimit (s.setRequest i { r with phase := .upgrading }) := by
  have hclients := clients_setRequest hr { r with phase := .upgrading }
  have hupgrades := upgrades_setRequest hr { r with phase := .upgrading }
  simp only [hphase, reduceCtorEq, if_false, if_true] at hclients hupgrades
  unfold WithinLimit
  omega

/-- A new request is not yet a client. -/
theorem WithinLimit.request (h : WithinLimit s) (ip : String) :
    WithinLimit (publicWebSocket s ip) := by
  unfold publicWebSocket
  split <;>
    simpa [WithinLimit, AdmissionState.clients, AdmissionState.upgrades, List.countP_append,
      newRequest] using h

/-- The step lemma. -/
theorem WithinLimit.step (h : WithinLimit s) (hguard : ChecksCountUpgrades s act)
    (hstep : admissionStep s act = some s') : WithinLimit s' := by
  cases act with
  | request ip =>
    cases hstep
    exact h.request ip
  | check i =>
    obtain ⟨r, hr, hstep⟩ := Option.bind_eq_some_iff.mp hstep
    split at hstep
    · rename_i hphase
      split at hstep
      · cases hstep
        exact h.move hr (.inr (.inr ⟨nofun, nofun⟩))
      · rename_i hroom
        cases hstep
        exact .upgrade (hguard (not_le.mp hroom)) hr hphase
    · cases hstep
  | upgradeFails i =>
    obtain ⟨r, hr, hstep⟩ := Option.bind_eq_some_iff.mp hstep
    split at hstep
    · cases hstep
      exact h.move hr (.inr (.inr ⟨nofun, nofun⟩))
    · cases hstep
  | register i =>
    obtain ⟨r, hr, hstep⟩ := Option.bind_eq_some_iff.mp hstep
    split at hstep
    · rename_i hphase
      cases hstep
      exact h.move hr (.inr (.inl ⟨rfl, hphase⟩))
    · cases hstep
  | remove i =>
    obtain ⟨r, hr, hstep⟩ := Option.bind_eq_some_iff.mp hstep
    split at hstep
    · cases hstep
      exact h.move hr (.inr (.inr ⟨nofun, nofun⟩))
    · cases hstep
      exact h
    · cases hstep
  | close i =>
    obtain ⟨r, hr, hstep⟩ := Option.bind_eq_some_iff.mp hstep
    split at hstep
    · cases hstep
      unfold onClose
      dsimp only
      split
      · exact h.move hr (.inl rfl)
      · exact h.move hr (.inl rfl)
    · cases hstep
  | release i =>
    obtain ⟨r, hr, hstep⟩ := Option.bind_eq_some_iff.mp hstep
    split at hstep
    · cases hstep
      exact h.move hr (.inr (.inr ⟨nofun, nofun⟩))
    · cases hstep

/-- The run lemma. -/
theorem withinLimit (maxPerIP : Int) :
    (admission maxPerIP).InductiveOn ChecksCountUpgrades WithinLimit where
  init := by
    rintro _ rfl
    exact Nat.zero_le _
  step _ _ _ h hguard hstep := h.step hguard hstep

/-! ## The main result -/

/-- All but the hub's own limit hold in every run. -/
theorem LimitsHold.of_clients {maxPerIP : Int} {s : AdmissionState}
    (hs : (admission maxPerIP).Reachable s) (hclients : s.clients ≤ maxClients) :
    LimitsHold maxPerIP s := by
  have hslots := slotInv maxPerIP hs
  exact
    { counted := fun ip => hslots.counted (admissionKey ip)
      bounded := fun ip => by
        rw [← hslots.counted, ← hslots.limit]
        exact hslots.bounded (admissionKey ip)
      once := fun r hr => (hslots.requests r hr).once
      clients := hclients }

/-- **The limits hold under the guard.** In every run in which a count check lets
a request through only while the clients and the upgrades under way are fewer
than `maxClients`, every state reached meets all the limits. -/
theorem limits_hold (maxPerIP : Int) {s : AdmissionState}
    (hs : (admission maxPerIP).ReachOn ChecksCountUpgrades s) : LimitsHold maxPerIP s := by
  have hwithin := (withinLimit maxPerIP).invariant hs
  exact .of_clients hs.reachable ((Nat.le_add_right _ _).trans hwithin)

/-- One address connects, loses its client twice over and connects again. -/
def reconnects : List AdmissionAct :=
  [.request " 198.51.100.50 ", .check 0, .register 0, .remove 0, .remove 0, .close 0,
    .request "198.51.100.50", .check 1, .upgradeFails 1, .release 1]

/-- The guarded run ends with no slot held. -/
theorem reconnects_within_limits :
    ∃ s, (admission 1).ReachOn ChecksCountUpgrades s ∧ s.held "198.51.100.50" = 0 ∧
      LimitsHold 1 s := by
  obtain ⟨s, hs, htest⟩ := TSys.exists_reachOn_of_runOn (M := admission 1) ChecksCountUpgrades
    reconnects (fun s => decide (s.held "198.51.100.50" = 0)) rfl (by decide +kernel)
  exact ⟨s, hs, of_decide_eq_true htest, limits_hold 1 hs⟩

/-! ## Overlapping upgrades -/

/-- Every upgrade under way can succeed, whatever the number of clients. -/
theorem register_all (maxPerIP : Int) (s : AdmissionState) :
    ∃ acts s', (admission maxPerIP).run s acts = some s' ∧ s'.clients = s.clients + s.upgrades := by
  induction hn : s.upgrades generalizing s with
  | zero => exact ⟨[], s, rfl, by simp⟩
  | succ n ih =>
    obtain ⟨r, hmem, hphase⟩ := List.countP_pos_iff.mp (show 0 < s.upgrades by omega)
    obtain ⟨i, hi⟩ := List.mem_iff_getElem?.mp hmem
    have hphase : r.phase = .upgrading := of_decide_eq_true hphase
    have hclients := clients_setRequest hi { r with phase := .registered }
    have hupgrades := upgrades_setRequest hi { r with phase := .registered }
    simp only [hphase, reduceCtorEq, if_false, if_true] at hclients hupgrades
    obtain ⟨acts, s', hrun, hall⟩ := ih (s.setRequest i { r with phase := .registered }) (by omega)
    refine ⟨.register i :: acts, s', ?_, by omega⟩
    have hstep : (admission maxPerIP).step s (.register i) =
        some (s.setRequest i { r with phase := .registered }) := by
      simp [admission, admissionStep, hi, hphase]
    rw [TSys.run, hstep]
    exact hrun

/-- A count check that passes against the guard lets the clients exceed the
limit: the upgrades under way need only succeed. -/
theorem exceeds_of_unguarded (maxPerIP : Int) (hstep : admissionStep s (.check i) = some s')
    (hguard : ¬ ChecksCountUpgrades s (.check i)) :
    ∃ acts s'', (admission maxPerIP).run s' acts = some s'' ∧ maxClients < s''.clients := by
  obtain ⟨r, hr, hstep⟩ := Option.bind_eq_some_iff.mp hstep
  simp only [ChecksCountUpgrades, Classical.not_imp, not_lt] at hguard
  obtain ⟨hroom, hover⟩ := hguard
  split at hstep
  · rename_i hphase
    rw [if_neg (by omega)] at hstep
    cases hstep
    have hclients := clients_setRequest hr { r with phase := .upgrading }
    have hupgrades := upgrades_setRequest hr { r with phase := .upgrading }
    simp only [hphase, reduceCtorEq, if_false, if_true] at hclients hupgrades
    obtain ⟨acts, s'', hrun, hall⟩ :=
      register_all maxPerIP (s.setRequest i { r with phase := .upgrading })
    exact ⟨acts, s'', hrun, by omega⟩
  · cases hstep

/-- Different addresses. -/
def address (k : Nat) : String := "2001:db8::" ++ k.repr

theorem isSpace_of_isDigit {c : Char} (h : c.isDigit = true) : isSpace c = false := by
  simp only [Char.isDigit, Bool.and_eq_true, decide_eq_true_eq] at h
  have hlo : 48 ≤ c.toNat := h.1
  have hhi : c.toNat ≤ 57 := h.2
  simp [isSpace]
  omega

theorem isSpace_of_mem_address {k : Nat} {c : Char} (hc : c ∈ (address k).toList) :
    isSpace c = false := by
  rw [address, String.toList_append, List.mem_append, Nat.toList_repr] at hc
  rcases hc with hnet | hdigit
  · have hall : ("2001:db8::".toList.all fun c => !isSpace c) = true := by decide +kernel
    have hvisible := List.all_eq_true.mp hall c hnet
    simpa using hvisible
  · exact isSpace_of_isDigit (Nat.isDigit_of_mem_toDigits (by omega) (by omega) hdigit)

/-- Addresses are counted under keys of their own. -/
theorem admissionKey_address (k : Nat) : admissionKey (address k) = address k := by
  have hne : (address k).toList ≠ [] := by simp [address]
  have htrim : trimSpace (address k) = address k := by
    have := toList_trimSpace_append "" (address k)
      (fun c hc => isSpace_of_mem_address (List.mem_of_mem_head? hc))
      (fun c hc => isSpace_of_mem_address (List.mem_of_mem_getLast? hc)) hne
    rw [String.empty_append] at this
    exact String.toList_inj.mp this
  have hempty : address k ≠ "" := fun h => hne (by rw [h]; rfl)
  rw [admissionKey, htrim, if_neg hempty]

theorem address_injective {j k : Nat} (h : address j = address k) : j = k := by
  have hrepr : j.repr = k.repr := String.append_right_inj _ |>.mp h
  have hdigits : Nat.toDigits 10 j = Nat.toDigits 10 k := by
    rw [← Nat.toList_repr, ← Nat.toList_repr, hrepr]
  rw [← Nat.ofDigitChars_ten_toDigits (n := j), hdigits, Nat.ofDigitChars_ten_toDigits]

/-- A request whose address has a slot left comes to its upgrade while there are
no clients. -/
theorem run_upgrade (maxPerIP : Int) {ip : String} {limiter : WsAdmissionLimiter}
    (hacquire : s.limiter.acquire ip = some limiter) (hclients : s.clients = 0) :
    ∃ s', (admission maxPerIP).run s [.request ip, .check s.requests.length] = some s' ∧
      s'.requests = s.requests ++ [newRequest ip .upgrading] := by
  have hrequest : publicWebSocket s ip =
      { limiter, requests := s.requests ++ [newRequest ip .admitted] } := by
    simp [publicWebSocket, hacquire]
  have hroom : (publicWebSocket s ip).clients = 0 := by
    rw [hrequest]
    simpa [AdmissionState.clients, List.countP_append, newRequest] using hclients
  have hlast : (publicWebSocket s ip).requests[s.requests.length]? =
      some (newRequest ip .admitted) := by
    rw [hrequest]
    exact List.getElem?_concat_length
  refine ⟨(publicWebSocket s ip).setRequest s.requests.length (newRequest ip .upgrading), ?_, ?_⟩
  · simp only [TSys.run, admission, admissionStep, Option.bind_some, hlast, newRequest, if_true,
      hroom, maxClients]
    rfl
  · rw [hrequest]
    simp [AdmissionState.setRequest, List.set_append_right]

/-- Any number of requests, each from an address of its own, pass the count check
while no upgrade has succeeded. -/
theorem upgrades_unbounded (n : Nat) :
    ∃ s, (admission 5).Reachable s ∧ s.clients = 0 ∧ s.upgrades = n ∧
      ∀ r ∈ s.requests, ∃ k < n, r.ip = address k := by
  induction n with
  | zero => exact ⟨.start 5, .init rfl, rfl, rfl, nofun⟩
  | succ n ih =>
    obtain ⟨s, hs, hclients, hupgrades, hips⟩ := ih
    have hfree : s.limiter.byIP (admissionKey (address n)) = 0 := by
      rw [(slotInv 5 hs).counted]
      refine List.countP_eq_zero.mpr fun r hr hcounted => ?_
      obtain ⟨k, hk, hip⟩ := hips r hr
      simp only [Bool.and_eq_true, decide_eq_true_eq, hip, admissionKey_address] at hcounted
      have := address_injective hcounted.2
      omega
    obtain ⟨limiter, hacquire⟩ : ∃ limiter, s.limiter.acquire (address n) = some limiter := by
      have hlimit : s.limiter.maxPerIP = 5 := (slotInv 5 hs).limit
      simp [WsAdmissionLimiter.acquire, hfree, hlimit]
    obtain ⟨s', hrun, hrequests⟩ := run_upgrade 5 hacquire hclients
    refine ⟨s', hs.run hrun, ?_, ?_, fun r hr => ?_⟩
    · simpa [AdmissionState.clients, hrequests, List.countP_append, newRequest] using hclients
    · simpa [AdmissionState.upgrades, hrequests, List.countP_append, newRequest] using hupgrades
    · rw [hrequests] at hr
      rcases List.mem_append.mp hr with hold | hnew
      · obtain ⟨k, hk, hip⟩ := hips r hold
        exact ⟨k, by omega, hip⟩
      · exact ⟨n, by omega, by rw [List.mem_singleton.mp hnew]; rfl⟩

/-- 513 requests from different addresses pass the count check before the first
upgrade succeeds, and all of them are registered. -/
theorem clients_exceed_limit :
    ¬ ∀ (maxPerIP : Int) (s : AdmissionState), (admission maxPerIP).Reachable s →
      LimitsHold maxPerIP s := by
  intro h
  obtain ⟨s, hs, hclients, hupgrades, -⟩ := upgrades_unbounded 513
  obtain ⟨acts, s', hrun, hall⟩ := register_all 5 s
  have hlimit := (h 5 s' (hs.run hrun)).clients
  unfold maxClients at hlimit
  omega

end CartoLive.Theorems.ConnectionLimits
