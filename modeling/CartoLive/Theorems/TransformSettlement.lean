import CartoLive.Web.GeoJSONWorkerClient
import CartoLive.Go.Text
import Mathlib.Data.List.Induction

/-!
# Transforms settle once, and the latest of a type wins

The promises of a client are a ledger: each that `transform` has returned waits in `pending`
or is settled, and none is there twice. The marker of a type names the last request of the
type, so that a pending request whose ID it is has no newer one, and what resolves of one
type resolves in the order of the requests.

## Main results

* `latest_transform_resolves` : how often promises settle, what they resolve with and when,
  the order of a type, and what stays pending.
-/

namespace CartoLive.Theorems.TransformSettlement

open CartoLive.Lib CartoLive.Lib.Keyed CartoLive.Web GeoJSONClient

variable {Payload GeoJSON : Type} {asked : List TransformType} {held : List Nat}
  {c t : GeoJSONClient Payload GeoJSON} {p q : Nat} {type type' : TransformType}

theorem requestID_inj (h : requestID p = requestID q) : p = q := by
  have hrepr : (Nat.repr p).toList = (Nat.repr q).toList := by
    simpa [requestID] using congrArg String.toList h
  have hinner : toString (p : Int) = toString (q : Int) := String.toList_inj.mp hrepr
  exact Int.ofNat.inj (Go.toString_inj hinner)

/-! ## The requests of a history -/

/-- The type that a transform is asked for. -/
def askedType : ClientEvent Payload GeoJSON → Option TransformType
  | .transform type _ => some type
  | _ => none

/-- The types of the transforms among some events, in their order. -/
def askedTypes (events : List (ClientEvent Payload GeoJSON)) : List TransformType :=
  events.filterMap askedType

/-- Transform `p`, counted from one, is of a type. -/
def Issued (asked : List TransformType) (p : Nat) (type : TransformType) : Prop :=
  1 ≤ p ∧ asked[p - 1]? = some type

/-- Transform `p` is the last of its type. -/
def Latest (asked : List TransformType) (p : Nat) (type : TransformType) : Prop :=
  Issued asked p type ∧ ∀ q, p < q → ¬ Issued asked q type

theorem Issued.le_length (h : Issued asked p type) : p ≤ asked.length := by
  have hlt := (List.getElem?_eq_some_iff.mp h.2).1
  have hpos := h.1
  omega

theorem Issued.append (h : Issued asked p type) (more : List TransformType) :
    Issued (asked ++ more) p type :=
  ⟨h.1, List.getElem?_append_left (List.getElem?_eq_some_iff.mp h.2).1 ▸ h.2⟩

theorem issued_last (asked : List TransformType) (type : TransformType) :
    Issued (asked ++ [type]) (asked.length + 1) type :=
  ⟨by omega, by simp⟩

/-- A request of a longer history is one of the shorter, or the last. -/
theorem Issued.of_append_singleton (h : Issued (asked ++ [type']) p type) :
    Issued asked p type ∨ p = asked.length + 1 ∧ type = type' := by
  have hle := h.le_length
  rw [List.length_append, List.length_singleton] at hle
  by_cases hp : p ≤ asked.length
  · left
    refine ⟨h.1, ?_⟩
    have hpos := h.1
    rw [← h.2, List.getElem?_append_left (by omega)]
  · right
    have hlast : p = asked.length + 1 := by omega
    subst hlast
    refine ⟨rfl, ?_⟩
    simpa using h.2.symm

theorem latest_last (asked : List TransformType) (type : TransformType) :
    Latest (asked ++ [type]) (asked.length + 1) type := by
  refine ⟨issued_last asked type, fun q hq hissued => ?_⟩
  have hle := hissued.le_length
  rw [List.length_append, List.length_singleton] at hle
  omega

/-- A request of another type leaves the last one of a type. -/
theorem Latest.append (h : Latest asked p type) (hne : type' ≠ type) :
    Latest (asked ++ [type']) p type := by
  refine ⟨h.1.append [type'], fun q hq hissued => ?_⟩
  rcases hissued.of_append_singleton with hissued | ⟨-, htype⟩
  · exact h.2 q hq hissued
  · exact hne htype.symm

/-! ## The ledger of promises -/

/-- Two settlements are in the order of the requests, where both resolve and are of one type. -/
def InOrder (asked : List TransformType) (a b : Nat × Settlement GeoJSON) : Prop :=
  ∀ data data' type, a.2 = .resolved data → b.2 = .resolved data' →
    Issued asked a.1 type → Issued asked b.1 type → a.1 < b.1

/-- The promises of the pending requests. -/
def waiting (c : GeoJSONClient Payload GeoJSON) : List Nat := c.pending.map (·.2.promise)

/-- What holds of a client after the transforms asked for, while the promises `held` are
neither pending nor settled. -/
structure Books (asked : List TransformType) (held : List Nat)
    (c : GeoJSONClient Payload GeoJSON) : Prop where
  promises_eq : c.promises = asked.length
  nextID_eq : c.disposed = false → c.nextID = c.promises
  latest : c.disposed = false → ∀ type id, c.latestIDByType type = some id →
    ∃ p, id = requestID p ∧ Latest asked p type
  pending : ∀ entry ∈ c.pending,
    entry.1 = requestID entry.2.promise ∧ Issued asked entry.2.promise entry.2.type
  idle : c.disposed = true ∨ c.mainThread = true → c.pending = []
  ledger : (held ++ (waiting c ++ c.settled.map Prod.fst)).Perm
    (List.range' 1 c.promises)
  ordered : c.settled.Pairwise (InOrder asked)

theorem books_new (mainThread : Bool) :
    Books [] [] (.new mainThread : GeoJSONClient Payload GeoJSON) where
  promises_eq := rfl
  nextID_eq := fun _ => rfl
  latest := nofun
  pending := nofun
  idle := fun _ => rfl
  ledger := .nil
  ordered := .nil

namespace Books

theorem nodup (h : Books asked held c) :
    (held ++ (waiting c ++ c.settled.map Prod.fst)).Nodup :=
  h.ledger.nodup_iff.mpr List.nodup_range'

theorem settled_le (h : Books asked held c) {entry : Nat × Settlement GeoJSON}
    (hentry : entry ∈ c.settled) : entry.1 ≤ asked.length := by
  have hmem : entry.1 ∈ held ++ (waiting c ++ c.settled.map Prod.fst) :=
    List.mem_append_right _ (List.mem_append_right _ (List.mem_map_of_mem hentry))
  have hrange := List.mem_range'_1.mp (h.ledger.mem_iff.mp hmem)
  have hpromises := h.promises_eq
  omega

/-- The keys of the pending requests are their IDs. -/
theorem keys_eq (h : Books asked held c) :
    c.pending.map Prod.fst = (waiting c).map requestID := by
  rw [waiting, List.map_map]
  exact List.map_congr_left fun entry hentry => (h.pending entry hentry).1

theorem nodup_keys (h : Books asked held c) : (c.pending.map Prod.fst).Nodup := by
  have hpromises : (waiting c).Nodup :=
    (List.nodup_append.mp (List.nodup_append.mp h.nodup).2.1).1
  rw [h.keys_eq]
  exact hpromises.map fun _ _ => requestID_inj

/-- A promise in hand is neither pending nor settled. -/
theorem fresh (h : Books asked [p] c) : p ∉ waiting c ∧ p ∉ c.settled.map Prod.fst :=
  have hnodup : (p :: (waiting c ++ c.settled.map Prod.fst)).Nodup := h.nodup
  not_or.mp fun hmem => (List.nodup_cons.mp hnodup).1 (List.mem_append.mpr hmem)

/-! ## What the operations keep -/

/-- A promise in hand settles; it resolves only as the latest of its type. -/
theorem settle (h : Books asked [p] c) {settlement : Settlement GeoJSON}
    (hlatest : ∀ data, settlement = .resolved data → ∃ type, Latest asked p type) :
    Books asked [] (c.settle p settlement) where
  promises_eq := h.promises_eq
  nextID_eq := h.nextID_eq
  latest := h.latest
  pending := h.pending
  idle := h.idle
  ledger := by
    refine List.Perm.trans ?_ h.ledger
    show (waiting c ++ (c.settled ++ [(p, settlement)]).map Prod.fst).Perm
      (p :: (waiting c ++ c.settled.map Prod.fst))
    rw [List.map_append, ← List.append_assoc]
    exact List.perm_append_comm
  ordered := by
    refine List.pairwise_append.mpr ⟨h.ordered, List.pairwise_singleton _ _, ?_⟩
    intro a ha b hb data data' type hdata hdata' hissued hissued'
    obtain rfl : b = (p, settlement) := List.mem_singleton.mp hb
    obtain ⟨type', hlast⟩ := hlatest data' hdata'
    have htype : type' = type := Option.some.inj (hlast.1.2.symm.trans hissued'.2)
    subst htype
    have hle : a.1 ≤ p := Nat.le_of_not_lt fun hlt => hlast.2 a.1 hlt hissued
    have hne : a.1 ≠ p := by
      rintro rfl
      exact h.fresh.2 (List.mem_map_of_mem ha)
    show a.1 < p
    omega

/-- A transform is asked for, and its promise taken in hand. -/
theorem ask (h : Books asked [] c) (type : TransformType) {number : Nat}
    {marker : TransformType → Option String}
    (hnumber : c.disposed = false → number = c.nextID + 1)
    (hmarker : c.disposed = false →
      marker = Function.update c.latestIDByType type (some (requestID number))) :
    Books (asked ++ [type]) [c.promises + 1]
      { c with promises := c.promises + 1, nextID := number, latestIDByType := marker } where
  promises_eq := by
    show c.promises + 1 = (asked ++ [type]).length
    rw [h.promises_eq, List.length_append, List.length_singleton]
  nextID_eq := by
    intro hopen
    show number = c.promises + 1
    rw [hnumber hopen, h.nextID_eq hopen]
  latest := by
    intro hopen type' id hid
    have hid' : marker type' = some id := hid
    rw [hmarker hopen] at hid'
    by_cases htype : type' = type
    · subst htype
      rw [Function.update_self] at hid'
      refine ⟨asked.length + 1, ?_, latest_last asked type'⟩
      rw [← Option.some.inj hid', hnumber hopen, h.nextID_eq hopen, h.promises_eq]
    · rw [Function.update_of_ne htype] at hid'
      obtain ⟨p, rfl, hlast⟩ := h.latest hopen type' id hid'
      exact ⟨p, rfl, hlast.append (Ne.symm htype)⟩
  pending := fun entry hentry =>
    ⟨(h.pending entry hentry).1, (h.pending entry hentry).2.append [type]⟩
  idle := h.idle
  ledger := by
    show (([c.promises + 1] : List Nat) ++ _).Perm (List.range' 1 (c.promises + 1))
    rw [List.range'_1_concat, Nat.add_comm 1]
    exact (List.perm_append_comm).trans (h.ledger.append_right _)
  ordered := by
    refine h.ordered.imp_of_mem fun {a b} ha hb hab data data' type' hdata hdata' hia hib => ?_
    have hold : ∀ entry ∈ c.settled, Issued (asked ++ [type]) entry.1 type' →
        Issued asked entry.1 type' := by
      intro entry hentry hissued
      refine hissued.of_append_singleton.resolve_right fun hlast => ?_
      have hle := h.settled_le hentry
      omega
    exact hab data data' type' hdata hdata' (hold a ha hia) (hold b hb hib)

/-- The pending requests are rejected. -/
theorem rejectAll (h : Books asked [] c) (error : String) : Books asked [] (c.rejectAll error) where
  promises_eq := h.promises_eq
  nextID_eq := h.nextID_eq
  latest := h.latest
  pending := nofun
  idle := fun _ => rfl
  ledger := by
    refine List.Perm.trans ?_ h.ledger
    have hrejected : (c.rejectAll error).settled.map Prod.fst =
        c.settled.map Prod.fst ++ waiting c := by
      rw [GeoJSONClient.rejectAll, List.map_append, List.map_map]
      rfl
    rw [hrejected]
    exact (List.perm_append_comm : (c.settled.map Prod.fst ++ waiting c).Perm _)
  ordered := by
    let rejections : List (Nat × Settlement GeoJSON) :=
      c.pending.map fun entry => (entry.2.promise, .rejected error)
    have hrejected : ∀ a ∈ rejections, ∀ data, a.2 ≠ .resolved data := by
      rintro a ha data hdata
      obtain ⟨_, -, rfl⟩ := List.mem_map.mp ha
      cases hdata
    refine List.pairwise_append.mpr ⟨h.ordered, ?_, ?_⟩
    · refine List.pairwise_of_forall_mem_list fun a ha b _ data _ _ hdata => ?_
      exact absurd hdata (hrejected a ha data)
    · intro a _ b hb _ data' _ _ hdata'
      exact absurd hdata' (hrejected b hb data')

/-- What `Map.get` finds of a pending request is taken out by `Map.delete`. -/
theorem take (h : Books asked [] c) {id : String} {request : PendingTransform}
    (hget : get Prod.fst id c.pending = some (id, request)) :
    Books asked [request.promise]
      { c with pending := c.pending.filter fun entry => entry.1 ≠ id } where
  promises_eq := h.promises_eq
  nextID_eq := h.nextID_eq
  latest := h.latest
  pending := fun entry hentry => h.pending entry (List.mem_of_mem_filter hentry)
  idle := by
    intro hidle
    show c.pending.filter _ = []
    rw [h.idle hidle, List.filter_nil]
  ledger := by
    have hperm := (perm_cons_filter_of_get h.nodup_keys hget).map
      fun entry : String × PendingTransform => entry.2.promise
    exact (hperm.append_right _).symm.trans h.ledger
  ordered := h.ordered

/-- The promise in hand becomes pending, under its ID. -/
theorem put (h : Books asked [p] c) (hopen : c.disposed = false) (hworker : c.mainThread = false)
    (hissued : Issued asked p type) (posted : List (TransformRequest Payload)) :
    Books asked []
      { c with pending := setEntry c.pending (requestID p) { type, promise := p }, posted } := by
  have hfresh : requestID p ∉ c.pending.map Prod.fst := by
    rw [h.keys_eq]
    intro hmem
    obtain ⟨p', hp', heq⟩ := List.mem_map.mp hmem
    obtain rfl := requestID_inj heq
    exact h.fresh.1 hp'
  rw [setEntry, if_neg hfresh]
  constructor
  case promises_eq => exact h.promises_eq
  case nextID_eq => exact h.nextID_eq
  case latest => exact h.latest
  case pending =>
    intro entry hentry
    rcases List.mem_append.mp hentry with hentry | hentry
    · exact h.pending entry hentry
    · obtain rfl := List.mem_singleton.mp hentry
      exact ⟨rfl, hissued⟩
  case idle =>
    rintro (hdisposed | hmain)
    · exact absurd (hopen.symm.trans hdisposed) Bool.false_ne_true
    · exact absurd (hworker.symm.trans hmain) Bool.false_ne_true
  case ledger =>
    have hwaiting : (c.pending ++ [(requestID p, ({ type, promise := p } : PendingTransform))]).map
        (fun entry => entry.2.promise) = waiting c ++ [p] := List.map_append
    refine List.Perm.trans ?_ h.ledger
    show (List.map (fun entry : String × PendingTransform => entry.2.promise) _ ++
      c.settled.map Prod.fst).Perm ([p] ++ (waiting c ++ c.settled.map Prod.fst))
    rw [hwaiting, ← List.append_assoc [p]]
    exact List.perm_append_comm.append_right _
  case ordered => exact h.ordered

end Books

/-! ## What the operations do -/

variable (handler : TransformRequest Payload → Except String (TransformResponse GeoJSON))

theorem transform_of_open (hopen : c.disposed = false) (type : TransformType) (payload : Payload) :
    c.transform type payload =
      { c with
        promises := c.promises + 1
        nextID := c.nextID + 1
        latestIDByType := Function.update c.latestIDByType type (some (requestID (c.nextID + 1)))
        pending := setEntry c.pending (requestID (c.nextID + 1)) { type, promise := c.promises + 1 }
        posted := c.posted ++
          [{ id := requestID (c.nextID + 1), type := type, payload := payload }] } := by
  unfold transform
  exact if_neg (by rw [hopen]; exact nofun)

theorem transform_of_disposed (hdisposed : c.disposed = true) (type : TransformType)
    (payload : Payload) :
    c.transform type payload =
      { c with promises := c.promises + 1 }.settle (c.promises + 1)
        (.rejected "geojson transform client disposed") := by
  unfold transform
  exact if_pos hdisposed

theorem transformOnMainThread_of_disposed (hdisposed : c.disposed = true) (type : TransformType)
    (payload : Payload) :
    c.transformOnMainThread handler type payload =
      { c with promises := c.promises + 1 }.settle (c.promises + 1)
        (.rejected "geojson transform client disposed") := by
  unfold transformOnMainThread
  exact if_pos hdisposed

/-- On the main thread a transform settles at once, and resolves with what the handler answers
under the ID of the request. -/
theorem transformOnMainThread_of_open (hopen : c.disposed = false) (type : TransformType)
    (payload : Payload) :
    ∃ settlement, c.transformOnMainThread handler type payload =
        { c with
          promises := c.promises + 1
          nextID := c.nextID + 1
          latestIDByType := Function.update c.latestIDByType type
            (some (requestID (c.nextID + 1))) }.settle (c.promises + 1) settlement ∧
      ∀ data, settlement = .resolved data → ∃ response,
        handler { id := requestID (c.nextID + 1), type, payload } = .ok response ∧
          data = .response response ∧ response.id = requestID (c.nextID + 1) := by
  unfold transformOnMainThread
  dsimp only
  rw [if_neg (by rw [hopen]; exact nofun)]
  cases hanswer : handler { id := requestID (c.nextID + 1), type, payload } with
  | error error => exact ⟨_, rfl, nofun⟩
  | ok response =>
    dsimp only
    split
    · exact ⟨_, rfl, nofun⟩
    · rename_i hsame
      rw [Function.update_self] at hsame
      refine ⟨_, rfl, fun data hdata => ⟨response, rfl, ?_, ?_⟩⟩
      · exact (Settlement.resolved.inj hdata).symm
      · exact (Option.some.inj (Decidable.not_not.mp hsame)).symm

/-- A message settles the pending request of its ID, and resolves it only where the ID is the
last of the type. -/
theorem receive_cases (c : GeoJSONClient Payload GeoJSON) (data : WorkerData GeoJSON) :
    c.receive data = c ∨ ∃ request settlement,
      get Prod.fst data.id c.pending = some (data.id, request) ∧
        c.receive data =
          { c with pending := c.pending.filter fun entry => entry.1 ≠ data.id }.settle
            request.promise settlement ∧
        ∀ data', settlement = .resolved data' →
          data' = data ∧ c.latestIDByType request.type = some data.id := by
  unfold receive
  cases hget : get Prod.fst data.id c.pending with
  | none => exact Or.inl rfl
  | some entry =>
    obtain ⟨id, request⟩ := entry
    obtain rfl : id = data.id := key_of_get hget
    right
    cases herror : data.error with
    | some error => exact ⟨request, .rejected error, rfl, rfl, nofun⟩
    | none =>
      dsimp only
      by_cases hlast : c.latestIDByType request.type = some data.id
      · refine ⟨request, .resolved data, rfl, if_neg (not_not_intro hlast), fun data' hdata => ?_⟩
        exact ⟨(Settlement.resolved.inj hdata).symm, hlast⟩
      · exact ⟨request, _, rfl, if_pos hlast, nofun⟩

/-! ## What a step keeps -/

theorem askedTypes_append (events : List (ClientEvent Payload GeoJSON))
    (event : ClientEvent Payload GeoJSON) :
    askedTypes (events ++ [event]) = askedTypes events ++ (askedType event).toList := by
  unfold askedTypes
  cases h : askedType event <;> simp [h]

/-- What `event` brings for promise `p`: a message with `data`, or the handler's own answer. -/
def Answers (event : ClientEvent Payload GeoJSON) (p : Nat) (data : WorkerData GeoJSON) : Prop :=
  event = .message data ∨ ∃ type payload response, event = .transform type payload ∧
    handler { id := requestID p, type := type, payload := payload } = .ok response ∧
    data = .response response

/-- What a step resolves is answered by its event, under the ID of the request, and the request
is the last of its type. -/
def ResolvesLatest (asked : List TransformType) (c t : GeoJSONClient Payload GeoJSON)
    (event : ClientEvent Payload GeoJSON) : Prop :=
  ∀ p data, (p, .resolved data) ∈ t.settled → (p, .resolved data) ∉ c.settled →
    Answers handler event p data ∧ data.id = requestID p ∧ ∃ type, Latest asked p type

theorem ResolvesLatest.of_settle {asked : List TransformType} {c t : GeoJSONClient Payload GeoJSON}
    {event : ClientEvent Payload GeoJSON} {settlement : Settlement GeoJSON}
    (hsettled : t.settled = c.settled ++ [(p, settlement)])
    (h : ∀ data, settlement = .resolved data →
      Answers handler event p data ∧ data.id = requestID p ∧ ∃ type, Latest asked p type) :
    ResolvesLatest handler asked c t event := by
  intro p' data hmem hnew
  rw [hsettled, List.mem_append, or_iff_right hnew, List.mem_singleton, Prod.mk.injEq] at hmem
  obtain ⟨rfl, hdata⟩ := hmem
  exact h data hdata.symm

theorem resolvesLatest_of_subset {event : ClientEvent Payload GeoJSON}
    (h : ∀ p data, (p, .resolved data) ∈ t.settled → (p, .resolved data) ∈ c.settled) :
    ResolvesLatest handler asked c t event :=
  fun p data hmem hnew => absurd (h p data hmem) hnew

/-- A transform of the client of a worker resolves nothing. -/
theorem transform_spec (h : Books asked [] c) (hworker : c.mainThread = false)
    (type : TransformType) (payload : Payload) :
    Books (asked ++ [type]) [] (c.transform type payload) ∧
      ResolvesLatest handler (asked ++ [type]) c (c.transform type payload)
        (.transform type payload) := by
  cases hdisposed : c.disposed with
  | true =>
    rw [transform_of_disposed hdisposed]
    constructor
    · refine (h.ask type (fun hopen => ?_) fun hopen => ?_).settle nofun
      all_goals exact absurd (hdisposed.symm.trans hopen) nofun
    · exact ResolvesLatest.of_settle handler rfl nofun
  | false =>
    rw [transform_of_open hdisposed, h.nextID_eq hdisposed]
    constructor
    · refine (h.ask type (fun _ => ?_) fun _ => rfl).put hdisposed hworker ?_ _
      · rw [h.nextID_eq hdisposed]
      · rw [h.promises_eq]
        exact issued_last asked type
    · exact resolvesLatest_of_subset handler fun _ _ hmem => hmem

theorem transformOnMainThread_spec (h : Books asked [] c) (type : TransformType)
    (payload : Payload) :
    Books (asked ++ [type]) [] (c.transformOnMainThread handler type payload) ∧
      ResolvesLatest handler (asked ++ [type]) c (c.transformOnMainThread handler type payload)
        (.transform type payload) := by
  cases hdisposed : c.disposed with
  | true =>
    rw [transformOnMainThread_of_disposed handler hdisposed]
    constructor
    · refine (h.ask type (fun hopen => ?_) fun hopen => ?_).settle nofun
      all_goals exact absurd (hdisposed.symm.trans hopen) nofun
    · exact ResolvesLatest.of_settle handler rfl nofun
  | false =>
    obtain ⟨settlement, heq, hresolved⟩ :=
      transformOnMainThread_of_open handler hdisposed type payload
    have hlast : Latest (asked ++ [type]) (c.promises + 1) type := by
      rw [h.promises_eq]
      exact latest_last asked type
    rw [heq]
    rw [h.nextID_eq hdisposed] at hresolved ⊢
    constructor
    · refine (h.ask type (fun _ => ?_) fun _ => rfl).settle fun data _ => ⟨type, hlast⟩
      rw [h.nextID_eq hdisposed]
    · refine ResolvesLatest.of_settle handler rfl fun data hdata => ?_
      obtain ⟨response, hanswer, rfl, hid⟩ := hresolved data hdata
      exact ⟨Or.inr ⟨type, payload, response, rfl, hanswer, rfl⟩, hid, type, hlast⟩

theorem receive_spec (h : Books asked [] c) (data : WorkerData GeoJSON) :
    Books asked [] (c.receive data) ∧
      ResolvesLatest handler asked c (c.receive data) (.message data) := by
  rcases receive_cases c data with heq | ⟨request, settlement, hget, heq, hresolved⟩
  · rw [heq]
    exact ⟨h, resolvesLatest_of_subset handler fun _ _ hmem => hmem⟩
  · have hentry := mem_of_get hget
    -- a pending request keeps the client from being disposed of
    have hopen : c.disposed = false := by
      cases hdisposed : c.disposed with
      | false => rfl
      | true =>
        rw [h.idle (Or.inl hdisposed)] at hentry
        cases hentry
    have hid : data.id = requestID request.promise := (h.pending _ hentry).1
    have hlast : ∀ data', settlement = .resolved data' →
        data' = data ∧ Latest asked request.promise request.type := by
      intro data' hdata
      obtain ⟨hsame, hmarker⟩ := hresolved data' hdata
      obtain ⟨p, hp, hlast⟩ := h.latest hopen _ _ hmarker
      exact ⟨hsame, requestID_inj (hid.symm.trans hp) ▸ hlast⟩
    rw [heq]
    constructor
    · exact (h.take hget).settle fun data' hdata => ⟨_, (hlast data' hdata).2⟩
    · refine ResolvesLatest.of_settle handler rfl fun data' hdata => ?_
      obtain ⟨rfl, hlatest⟩ := hlast data' hdata
      exact ⟨Or.inl rfl, hid, _, hlatest⟩

/-- Rejections resolve nothing. -/
theorem mem_of_mem_rejectAll {error : String} {data : WorkerData GeoJSON}
    (h : (p, .resolved data) ∈ (c.rejectAll error).settled) : (p, .resolved data) ∈ c.settled := by
  refine (List.mem_append.mp h).resolve_right fun hrejected => ?_
  obtain ⟨_, -, heq⟩ := List.mem_map.mp hrejected
  cases heq

theorem Books.dispose (h : Books asked [] c) : Books asked [] c.dispose where
  promises_eq := h.promises_eq
  nextID_eq := nofun
  latest := nofun
  pending := nofun
  idle := fun _ => rfl
  ledger := (h.rejectAll "geojson transform client disposed").ledger
  ordered := (h.rejectAll "geojson transform client disposed").ordered

/-- A step, by the event. -/
theorem step_spec (h : Books asked [] c) {event : ClientEvent Payload GeoJSON}
    (hstep : c.step handler event = some t) :
    Books (asked ++ (askedType event).toList) [] t ∧
      ResolvesLatest handler (asked ++ (askedType event).toList) c t event := by
  cases event with
  | transform type payload =>
    obtain rfl := Option.some.inj hstep
    cases hmain : c.mainThread with
    | true => exact transformOnMainThread_spec handler h type payload
    | false => exact transform_spec handler h hmain type payload
  | message data =>
    obtain rfl := Option.some.inj (Option.ite_none_left_eq_some.mp hstep).2
    simpa [askedType] using receive_spec handler h data
  | error message =>
    obtain rfl := Option.some.inj (Option.ite_none_left_eq_some.mp hstep).2
    rw [show (askedType _).toList = [] from rfl, List.append_nil]
    exact ⟨h.rejectAll _, resolvesLatest_of_subset handler fun _ _ => mem_of_mem_rejectAll⟩
  | messageerror =>
    obtain rfl := Option.some.inj (Option.ite_none_left_eq_some.mp hstep).2
    rw [show (askedType _).toList = [] from rfl, List.append_nil]
    exact ⟨h.rejectAll _, resolvesLatest_of_subset handler fun _ _ => mem_of_mem_rejectAll⟩
  | dispose =>
    obtain rfl := Option.some.inj hstep
    rw [show (askedType _).toList = [] from rfl, List.append_nil]
    exact ⟨h.dispose, resolvesLatest_of_subset handler fun _ _ => mem_of_mem_rejectAll⟩

theorem books_of_run (mainThread : Bool) {events : List (ClientEvent Payload GeoJSON)}
    (hrun : (clientSystem handler).run (.new mainThread) events = some c) :
    Books (askedTypes events) [] c := by
  induction events using List.reverseRecOn generalizing c with
  | nil =>
    obtain rfl := Option.some.inj hrun
    exact books_new mainThread
  | append_singleton events event ih =>
    obtain ⟨s, hs, hlast⟩ := TSys.run_append_eq_some.mp hrun
    obtain ⟨t, hstep, ht⟩ := TSys.run_cons_eq_some.mp hlast
    obtain rfl := Option.some.inj ht
    rw [askedTypes_append]
    exact (step_spec handler (ih hs) hstep).1

/-- After `dispose` a step leaves the client disposed of, without pending requests, and resolves
nothing. -/
theorem step_after_dispose {event : ClientEvent Payload GeoJSON} (hdisposed : c.disposed = true)
    (hpending : c.pending = []) (hstep : c.step handler event = some t) :
    t.disposed = true ∧ t.pending = [] ∧
      ∀ p data, (p, .resolved data) ∈ t.settled → (p, .resolved data) ∈ c.settled := by
  have hsettled : ∀ {settlement : Settlement GeoJSON} {p : Nat},
      (∀ data, settlement ≠ .resolved data) → ∀ p' data,
        (p', .resolved data) ∈ c.settled ++ [(p, settlement)] →
        (p', .resolved data) ∈ c.settled := by
    intro settlement p hrejected p' data hmem
    refine (List.mem_append.mp hmem).resolve_right fun hlast => ?_
    rw [List.mem_singleton, Prod.mk.injEq] at hlast
    exact hrejected data hlast.2.symm
  cases event with
  | transform type payload =>
    obtain rfl := Option.some.inj hstep
    rw [transformOnMainThread_of_disposed handler hdisposed, transform_of_disposed hdisposed,
      ite_self]
    exact ⟨hdisposed, hpending, hsettled nofun⟩
  | message data =>
    obtain rfl := Option.some.inj (Option.ite_none_left_eq_some.mp hstep).2
    have hget : get Prod.fst data.id c.pending = none := by rw [hpending, get_nil]
    have heq : c.receive data = c := by
      unfold receive
      rw [hget]
    rw [heq]
    exact ⟨hdisposed, hpending, fun _ _ hmem => hmem⟩
  | error message =>
    obtain rfl := Option.some.inj (Option.ite_none_left_eq_some.mp hstep).2
    exact ⟨hdisposed, rfl, fun _ _ => mem_of_mem_rejectAll⟩
  | messageerror =>
    obtain rfl := Option.some.inj (Option.ite_none_left_eq_some.mp hstep).2
    exact ⟨hdisposed, rfl, fun _ _ => mem_of_mem_rejectAll⟩
  | dispose =>
    obtain rfl := Option.some.inj hstep
    exact ⟨rfl, rfl, fun _ _ => mem_of_mem_rejectAll⟩

/-! ## The claim of the client -/

/-- Whatever transforms, messages, errors and `dispose` a client has been through: while it is
open, the next request's number is that of its promise; no promise has settled twice; what a
step resolves is answered by that step's event under the ID of the request, which is then the
last of its type; the resolutions of one type are in the order of the requests; no promise of a
pending request has settled; after an error, a `messageerror` and `dispose` nothing is pending
and every promise has settled; and nothing resolves after `dispose`. -/
theorem latest_transform_resolves (mainThread : Bool)
    {events : List (ClientEvent Payload GeoJSON)} {c : GeoJSONClient Payload GeoJSON}
    (hrun : (clientSystem handler).run (.new mainThread) events = some c) :
    (c.disposed = false → c.nextID = (askedTypes events).length) ∧
    (c.settled.map Prod.fst).Nodup ∧
    (∀ event t, (clientSystem handler).step c event = some t →
      ∀ p data, (p, .resolved data) ∈ t.settled → (p, .resolved data) ∉ c.settled →
        Answers handler event p data ∧ data.id = requestID p ∧
          ∃ type, Latest (askedTypes (events ++ [event])) p type) ∧
    c.settled.Pairwise (InOrder (askedTypes events)) ∧
    (∀ entry ∈ c.pending, entry.2.promise ∉ c.settled.map Prod.fst) ∧
    (∀ event t, (clientSystem handler).step c event = some t →
      (∃ message, event = .error message) ∨ event = .messageerror ∨ event = .dispose →
        t.pending = [] ∧ ∀ p, 1 ≤ p → p ≤ (askedTypes events).length →
          p ∈ t.settled.map Prod.fst) ∧
    (∀ after t, (clientSystem handler).run c (.dispose :: after) = some t →
      ∀ p data, (p, .resolved data) ∈ t.settled → (p, .resolved data) ∈ c.settled) := by
  have hbooks := books_of_run handler mainThread hrun
  have hnodup : (waiting c ++ c.settled.map Prod.fst).Nodup := hbooks.nodup
  refine ⟨?_, ?_, ?_, hbooks.ordered, ?_, ?_, ?_⟩
  · intro hopen
    rw [hbooks.nextID_eq hopen, hbooks.promises_eq]
  · exact (List.nodup_append.mp hnodup).2.1
  · intro event t hstep
    rw [askedTypes_append]
    exact (step_spec handler hbooks hstep).2
  · intro entry hentry hsettled
    have hwaiting : entry.2.promise ∈ waiting c := List.mem_map_of_mem hentry
    exact (List.nodup_append.mp hnodup).2.2 _ hwaiting _ hsettled rfl
  · intro event t hstep hevent
    have ht := (step_spec handler hbooks hstep).1
    have hasked : askedType event = none := by
      rcases hevent with ⟨message, rfl⟩ | rfl | rfl <;> rfl
    have hpending : t.pending = [] := by
      have h : c.step handler event = some t := hstep
      rcases hevent with ⟨message, rfl⟩ | rfl | rfl
      · obtain rfl := Option.some.inj (Option.ite_none_left_eq_some.mp h).2
        rfl
      · obtain rfl := Option.some.inj (Option.ite_none_left_eq_some.mp h).2
        rfl
      · obtain rfl := Option.some.inj h
        rfl
    rw [hasked, Option.toList_none, List.append_nil] at ht
    refine ⟨hpending, fun p hpos hle => ?_⟩
    have hmem : p ∈ List.range' 1 t.promises := by
      rw [List.mem_range'_1, ht.promises_eq]
      omega
    have hledger := ht.ledger.mem_iff.mpr hmem
    rwa [waiting, hpending] at hledger
  · intro after t hafter
    obtain ⟨s, hdispose, hs⟩ := TSys.run_cons_eq_some.mp hafter
    have h : c.step handler .dispose = some s := hdispose
    obtain rfl := Option.some.inj h
    have hkept := TSys.run_keeps (P := fun u => u.disposed = true ∧ u.pending = [] ∧
        ∀ p data, (p, .resolved data) ∈ u.settled → (p, .resolved data) ∈ c.settled)
      (fun u event _ v hu hstep => by
        have hv := step_after_dispose handler hu.1 hu.2.1 hstep
        exact ⟨hv.1, hv.2.1, fun p data hmem => hu.2.2 p data (hv.2.2 p data hmem)⟩)
      ⟨rfl, rfl, fun _ _ => mem_of_mem_rejectAll⟩ hs
    exact hkept.2.2

/-- A handler that answers every request with an empty source. -/
def emptySource (request : TransformRequest Unit) : Except String (TransformResponse Unit) :=
  .ok { id := request.id, sourceId := "", signature := "", geojson := () }

/-- Two transforms of one type, answered in the order of the requests: the first is stale. -/
def staleThenLatest : List (ClientEvent Unit Unit) :=
  [.transform .nodes (), .transform .nodes (), .message (.failure (some "geojson-1") none),
    .message (.failure (some "geojson-2") none), .dispose]

theorem latest_transform_resolves_second :
    ∃ c : GeoJSONClient Unit Unit,
      (clientSystem emptySource).run (.new false) staleThenLatest = some c ∧
      c.settled = [(1, .rejected "stale geojson transform response"),
        (2, .resolved (.failure (some "geojson-2") none))] ∧
      (c.settled.map Prod.fst).Nodup := by
  have hsettled : ((clientSystem emptySource).run (.new false) staleThenLatest).map settled =
      some [(1, .rejected "stale geojson transform response"),
        (2, .resolved (.failure (some "geojson-2") none))] := by decide +kernel
  obtain ⟨c, hrun, hc⟩ := Option.map_eq_some_iff.mp hsettled
  exact ⟨c, hrun, hc, (latest_transform_resolves emptySource false hrun).2.1⟩

end CartoLive.Theorems.TransformSettlement
