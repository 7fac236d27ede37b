import CartoLive.Store.Candidates

/-!
# What a resolution says

The resolver of a parsed packet over node tables that the calls of `nodes.go`
have written (`resolveOnce_sound`): it answers `high` exactly when each chunk of
the path names one forwarder, the hops are then these forwarders in path order,
and otherwise the status is that of the first check that fails.

A hop names its node by a prefix of the node's key, and the chunks of a path
have one length: so different chunks name different nodes.
-/

namespace CartoLive.Theorems.ResolverSoundness

open CartoLive.Go CartoLive.Lib CartoLive.Live CartoLive.Meshcore CartoLive.Resolve CartoLive.Store
  CartoLive.Store.NodeTables

variable {t : NodeTables}

/-! ## One chunk -/

section Chunk

variable {roles : List String} {iata chunk : String} {hashSize : Nat}

/-- The node is the only one that forwards under the chunk. -/
def OnlyForwarder (t : NodeTables) (roles : List String) (iata : String) (hashSize : Nat)
    (chunk : String) (n : NodeRow) : Prop :=
  Forwarder t roles iata hashSize chunk n ∧
    ∀ m, Forwarder t roles iata hashSize chunk m → m = n

/-- The status of the first check that a chunk fails. -/
inductive ChunkFailure (t : NodeTables) (roles : List String) (iata : String) (hashSize : Nat)
    (chunk : String) : String → Prop
  | unresolved : (∀ n, ¬Listed t iata hashSize chunk n) →
      ChunkFailure t roles iata hashSize chunk statusUnresolved
  | roleInvalid {n : NodeRow} : Listed t iata hashSize chunk n →
      (∀ m, ¬Forwarder t roles iata hashSize chunk m) →
      ChunkFailure t roles iata hashSize chunk statusRoleInvalid
  | ambiguous {m n : NodeRow} : m ≠ n → Forwarder t roles iata hashSize chunk m →
      Forwarder t roles iata hashSize chunk n →
      ChunkFailure t roles iata hashSize chunk statusAmbiguous

/-- The hop of a chunk and its forwarder. -/
def hopOf (iata chunk : String) (n : NodeRow) : ResolvedHop :=
  { hopPrefix := chunk, confidence := statusHigh, candidate := candidateOf iata n }

/-- The hop is the only forwarder of the chunk. -/
def HopFor (t : NodeTables) (roles : List String) (iata : String) (hashSize : Nat) (chunk : String)
    (hop : ResolvedHop) : Prop :=
  ∃ n, OnlyForwarder t roles iata hashSize chunk n ∧ hop = hopOf iata chunk n

/-- A chunk that fails has no forwarder of its own. -/
theorem ChunkFailure.not_onlyForwarder {status : String}
    (h : ChunkFailure t roles iata hashSize chunk status) (n : NodeRow) :
    ¬OnlyForwarder t roles iata hashSize chunk n := by
  rintro ⟨hforwarder, hunique⟩
  cases h with
  | unresolved hnone => exact hnone n hforwarder.toListed
  | roleInvalid _ hnone => exact hnone n hforwarder
  | @ambiguous a b hne ha hb => exact hne ((hunique a ha).trans (hunique b hb).symm)

theorem ChunkFailure.status_ne_high {status : String}
    (h : ChunkFailure t roles iata hashSize chunk status) : status ≠ statusHigh := by
  cases h with
  | unresolved => decide
  | roleInvalid => decide
  | ambiguous => decide

/-- A turn of the loop finds the forwarder of the chunk, or the check that the chunk fails. -/
theorem resolveHop_spec (h : t.Wf) (roles : List String) (iata : String) (hashSize : Nat)
    (hchunk : toUpper (trimSpace chunk) = chunk)
    (hops : List ResolvedHop) :
    (∃ n, OnlyForwarder t roles iata hashSize chunk n ∧
      resolveHop (forwarderRoles roles) iata hashSize hops chunk
        (t.candidateTables.candidatesByPrefix (candidateCacheKey iata hashSize chunk)) =
          .ok (hops ++ [hopOf iata chunk n])) ∨
    ∃ result, ChunkFailure t roles iata hashSize chunk result.status ∧ result.hops = [] ∧
      resolveHop (forwarderRoles roles) iata hashSize hops chunk
        (t.candidateTables.candidatesByPrefix (candidateCacheKey iata hashSize chunk)) =
          .error result := by
  obtain ⟨nodes, hnodup, hmem, heq⟩ := h.candidates iata hashSize hchunk
  have hforwarders : ((nodes.map (candidateOf iata)).filter fun c => c.role ∈ forwarderRoles roles) =
      (nodes.filter fun n => n.role ∈ forwarderRoles roles).map (candidateOf iata) := by
    rw [List.filter_map]
    rfl
  have hforwarder : ∀ n, n ∈ (nodes.filter fun n => n.role ∈ forwarderRoles roles) ↔
      Forwarder t roles iata hashSize chunk n := fun n => by
    rw [List.mem_filter, hmem, decide_eq_true_iff]
    exact ⟨fun ⟨hlisted, hrole⟩ => ⟨hlisted, hrole⟩, fun hn => ⟨hn.toListed, hn.role⟩⟩
  have hnodup := hnodup.filter fun n => n.role ∈ forwarderRoles roles
  rw [heq]
  unfold resolveHop
  rw [hforwarders]
  generalize hlist : (nodes.filter fun n => decide (n.role ∈ forwarderRoles roles)) = forwarders
    at hforwarder hnodup
  split
  · rename_i hnone
    refine .inr ⟨_, .unresolved fun n hn => ?_, rfl, rfl⟩
    rw [List.map_eq_nil_iff] at hnone
    rw [← hmem, hnone] at hn
    cases hn
  · rename_i hsome
    match forwarders, hforwarder, hnodup with
    | [], hforwarder, _ =>
      obtain ⟨n, hn⟩ := List.exists_mem_of_ne_nil nodes fun hnil => hsome (by rw [hnil]; rfl)
      refine .inr ⟨_, .roleInvalid ((hmem n).mp hn) fun m hm => ?_, rfl, rfl⟩
      cases (hforwarder m).mpr hm
    | [n], hforwarder, _ =>
      refine .inl ⟨n, ⟨(hforwarder n).mp (List.mem_singleton.mpr rfl), fun m hm => ?_⟩, rfl⟩
      exact List.mem_singleton.mp ((hforwarder m).mpr hm)
    | a :: b :: rest, hforwarder, hnodup =>
      have hne : a ≠ b := fun hab => (List.nodup_cons.mp hnodup).1 (hab ▸ List.mem_cons_self)
      exact .inr ⟨_, .ambiguous hne ((hforwarder a).mp (by simp)) ((hforwarder b).mp (by simp)), rfl,
        rfl⟩

end Chunk

/-! ## The loop -/

section Loop

variable {roles : List String} {iata : String} {hashSize : Nat}

/-- The hops of the forwarders behind those so far, or the first chunk that fails. -/
theorem resolveChunks_spec (h : t.Wf) (roles : List String) (iata : String) (hashSize : Nat)
    (chunks : List String)
    (hchunks : ∀ chunk ∈ chunks, toUpper (trimSpace chunk) = chunk) (hops : List ResolvedHop) :
    (∃ path, List.Forall₂ (HopFor t roles iata hashSize) chunks path ∧
      resolveChunks t.candidateTables.candidatesByPrefix (forwarderRoles roles) iata hashSize hops
        chunks = { status := statusHigh, reason := "", hops := hops ++ path }) ∨
    ∃ before chunk after result, chunks = before ++ chunk :: after ∧
      (∀ c ∈ before, ∃ n, OnlyForwarder t roles iata hashSize c n) ∧
      ChunkFailure t roles iata hashSize chunk result.status ∧ result.hops = [] ∧
      resolveChunks t.candidateTables.candidatesByPrefix (forwarderRoles roles) iata hashSize hops
        chunks = result := by
  induction chunks generalizing hops with
  | nil => exact .inl ⟨[], .nil, by rw [List.append_nil]; rfl⟩
  | cons chunk rest ih =>
    unfold resolveChunks
    rcases resolveHop_spec h roles iata hashSize
      (hchunks chunk (by simp)) hops with ⟨n, hn, hturn⟩ | ⟨result, hfail, hhops, hturn⟩
    · rw [hturn]
      rcases ih (fun c hc => hchunks c (List.mem_cons_of_mem _ hc)) (hops ++ [hopOf iata chunk n])
        with ⟨path, hall, hrest⟩ | ⟨before, failing, after, result, hsplit, hbefore, hfail⟩
      · refine .inl ⟨hopOf iata chunk n :: path, .cons ⟨n, hn, rfl⟩ hall, hrest.trans ?_⟩
        rw [List.append_assoc]
        rfl
      · refine .inr ⟨chunk :: before, failing, after, result, by rw [hsplit]; rfl, ?_, hfail⟩
        intro c hc
        rcases List.mem_cons.mp hc with rfl | hc
        · exact ⟨n, hn⟩
        · exact hbefore c hc
    · rw [hturn]
      exact .inr ⟨[], chunk, rest, result, rfl, nofun, hfail, hhops, rfl⟩

theorem firstRepeated_eq_none_iff (seen chunks : List String) :
    firstRepeated seen chunks = none ↔ chunks.Nodup ∧ ∀ chunk ∈ chunks, chunk ∉ seen := by
  induction chunks generalizing seen with
  | nil => simp [firstRepeated]
  | cons chunk rest ih =>
    unfold firstRepeated
    split
    · rename_i hseen
      simp [hseen]
    · rename_i hnew
      rw [ih, List.nodup_cons]
      grind

end Loop

/-! ## The resolution -/

/-- What the resolver reads of a packet. -/
def forResolver (parsed : Meshcore.ParsedPacket) : Resolve.ParsedPacket :=
  { hashSize := parsed.hashSize, hopCount := parsed.hopCount, pathChunks := parsed.pathChunks
    invalidForMap := parsed.invalidForMap, invalidReason := parsed.invalidReason }

section Resolution

variable (t : NodeTables) (roles : List String) (iata : String) (parsed : Meshcore.ParsedPacket)

/-- The packet has a path, and each of its chunks names one forwarder. -/
structure Unambiguous : Prop where
  valid : parsed.invalidForMap = false
  hops : 0 < parsed.hopCount
  distinct : parsed.pathChunks.Nodup
  forwarders : ∀ chunk ∈ parsed.pathChunks,
    ∃ n, OnlyForwarder t roles iata parsed.hashSize chunk n

/-- The status of the first check that the packet fails. -/
inductive FirstFailure : String → Prop
  | invalid : parsed.invalidForMap = true → FirstFailure statusInvalidForMap
  | noPath : parsed.invalidForMap = false → parsed.hopCount = 0 → FirstFailure statusNoPath
  | duplicate : parsed.invalidForMap = false → 0 < parsed.hopCount → ¬parsed.pathChunks.Nodup →
      FirstFailure statusDuplicatePrefix
  | chunk {before after : List String} {chunk status : String} :
      parsed.invalidForMap = false → 0 < parsed.hopCount → parsed.pathChunks.Nodup →
      parsed.pathChunks = before ++ chunk :: after →
      (∀ c ∈ before, ∃ n, OnlyForwarder t roles iata parsed.hashSize c n) →
      ChunkFailure t roles iata parsed.hashSize chunk status → FirstFailure status

/-- The hops are the forwarders of the path: one for each hop, in path order, all different. -/
structure ForwarderPath (hops : List ResolvedHop) : Prop where
  length : hops.length = parsed.hopCount
  order : hops.map ResolvedHop.hopPrefix = parsed.pathChunks
  forwarders : ∀ hop ∈ hops, HopFor t roles iata parsed.hashSize hop.hopPrefix hop
  starts : ∀ hop ∈ hops, hop.hopPrefix.toList <+: hop.candidate.publicKey.toList
  publicKeys : (hops.map fun hop => hop.candidate.publicKey).Nodup
  nodeIDs : (hops.map fun hop => hop.candidate.nodeID).Nodup

/-- What a resolution must be. -/
structure SoundResolution (result : Result) : Prop where
  high_iff : result.status = statusHigh ↔ Unambiguous t roles iata parsed
  path : result.status = statusHigh → ForwarderPath t roles iata parsed result.hops
  failure : result.status ≠ statusHigh →
    result.hops = [] ∧ FirstFailure t roles iata parsed result.status

variable {t roles iata parsed}

/-- The first failing check is the only reason not to answer. -/
theorem FirstFailure.not_unambiguous {status : String}
    (h : FirstFailure t roles iata parsed status) : ¬Unambiguous t roles iata parsed := by
  intro hgood
  cases h with
  | invalid hinvalid => exact Bool.false_ne_true (hgood.valid.symm.trans hinvalid)
  | noPath _ hnone => exact Nat.lt_irrefl 0 (hnone ▸ hgood.hops)
  | duplicate _ _ hrepeated => exact hrepeated hgood.distinct
  | chunk _ _ _ hsplit _ hfail =>
    obtain ⟨n, hn⟩ := hgood.forwarders _ (hsplit ▸ List.mem_append_right _ List.mem_cons_self)
    exact hfail.not_onlyForwarder n hn

theorem FirstFailure.status_ne_high {status : String}
    (h : FirstFailure t roles iata parsed status) : status ≠ statusHigh := by
  cases h with
  | invalid => decide
  | noPath => decide
  | duplicate => decide
  | chunk _ _ _ _ _ hfail => exact hfail.status_ne_high

theorem sound_of_failure {result : Result} (hhops : result.hops = [])
    (h : FirstFailure t roles iata parsed result.status) :
    SoundResolution t roles iata parsed result :=
  ⟨⟨fun hhigh => absurd hhigh h.status_ne_high, fun hgood => absurd hgood h.not_unambiguous⟩,
    fun hhigh => absurd hhigh h.status_ne_high, fun _ => ⟨hhops, h⟩⟩

/-- The chunk is made of the first bytes of the key. -/
theorem toList_chunk (ht : t.Wf) {hashSize : Nat} {chunk : String} {n : NodeRow}
    (h : Listed t iata hashSize chunk n) :
    chunk.toList = n.publicKey.toList.take (hashSize * 2) := by
  obtain ⟨si, hsi, hkey, -, hsize, hprefix⟩ := h.shortID
  rw [← hprefix, (ht.derived si hsi).prefixHex, String.toList_ofList, hkey, hsize]

theorem order_of_forall₂ {hashSize : Nat} {chunks : List String} {path : List ResolvedHop}
    (h : List.Forall₂ (HopFor t roles iata hashSize) chunks path) :
    path.map ResolvedHop.hopPrefix = chunks ∧
      ∀ hop ∈ path, HopFor t roles iata hashSize hop.hopPrefix hop := by
  induction h with
  | nil => exact ⟨rfl, nofun⟩
  | @cons chunk hop rest path hhop _ ih =>
    obtain ⟨n, hn, rfl⟩ := hhop
    refine ⟨by rw [List.map_cons, ih.1]; rfl, fun hop hmem => ?_⟩
    rcases List.mem_cons.mp hmem with rfl | hmem
    · exact ⟨n, hn, rfl⟩
    · exact ih.2 hop hmem

/-- Different chunks of one size have different forwarders. -/
theorem forwarderPath_of_forall₂ (ht : t.Wf) (hparsed : parsed.PathParsed)
    (hdistinct : parsed.pathChunks.Nodup) {path : List ResolvedHop}
    (h : List.Forall₂ (HopFor t roles iata parsed.hashSize) parsed.pathChunks path) :
    ForwarderPath t roles iata parsed path := by
  obtain ⟨horder, hforwarders⟩ := order_of_forall₂ h
  have hprefixes : (path.map ResolvedHop.hopPrefix).Nodup := horder ▸ hdistinct
  have hkey : ∀ hop ∈ path,
      hop.hopPrefix.toList = hop.candidate.publicKey.toList.take (parsed.hashSize * 2) := by
    intro hop hhop
    obtain ⟨n, hn, hcandidate⟩ := hforwarders hop hhop
    rw [toList_chunk ht hn.1.toListed, hcandidate]
    rfl
  have hsame : ∀ a ∈ path, ∀ b ∈ path, a.candidate.publicKey = b.candidate.publicKey → a = b := by
    intro a ha b hb heq
    refine List.inj_on_of_nodup_map hprefixes ha hb (String.toList_inj.mp ?_)
    rw [hkey a ha, hkey b hb, heq]
  have hid : ∀ a ∈ path, ∀ b ∈ path, a.candidate.nodeID = b.candidate.nodeID → a = b := by
    intro a ha b hb heq
    refine hsame a ha b hb ?_
    obtain ⟨m, hm, hcandidatea⟩ := hforwarders a ha
    obtain ⟨n, hn, hcandidateb⟩ := hforwarders b hb
    rw [hcandidatea, hcandidateb] at heq ⊢
    exact congrArg NodeRow.publicKey (List.inj_on_of_nodup_map ht.nodeIDs hm.1.stored hn.1.stored heq)
  refine ⟨?_, horder, hforwarders, fun hop hhop => ?_, ?_, ?_⟩
  · rw [← hparsed.length_pathChunks, h.length_eq]
  · exact hkey hop hhop ▸ List.take_prefix _ _
  · exact (hprefixes.of_map _).map_on hsame
  · exact (hprefixes.of_map _).map_on hid

theorem resolveEarly_forResolver (parsed : Meshcore.ParsedPacket) :
    resolveEarly (forResolver parsed) =
      if parsed.invalidForMap then
        some { status := statusInvalidForMap, reason := parsed.invalidReason, hops := [] }
      else if parsed.hopCount = 0 then
        some { status := statusNoPath, reason := "zero_hop_packet", hops := [] }
      else
        (firstRepeated [] parsed.pathChunks).map fun chunk =>
          { status := statusDuplicatePrefix, reason := "duplicate prefix " ++ chunk, hops := [] } := by
  simp [resolveEarly, forResolver]

theorem sound_of_wf (ht : t.Wf) (hparsed : parsed.PathParsed) :
    SoundResolution t roles iata parsed
      (resolveOnce t.candidateTables.candidatesByPrefix (forwarderRoles roles) iata
        (forResolver parsed)) := by
  unfold resolveOnce
  rw [resolveEarly_forResolver]
  by_cases hinvalid : parsed.invalidForMap = true
  · rw [if_pos hinvalid]
    exact sound_of_failure rfl (.invalid hinvalid)
  have hvalid : parsed.invalidForMap = false := Bool.eq_false_iff.mpr hinvalid
  rw [if_neg hinvalid]
  by_cases hnone : parsed.hopCount = 0
  · rw [if_pos hnone]
    exact sound_of_failure rfl (.noPath hvalid hnone)
  have hhops : 0 < parsed.hopCount := Nat.pos_of_ne_zero hnone
  rw [if_neg hnone]
  cases hrepeated : firstRepeated [] parsed.pathChunks with
  | some chunk =>
    refine sound_of_failure rfl (.duplicate hvalid hhops fun hdistinct => ?_)
    rw [(firstRepeated_eq_none_iff [] _).mpr ⟨hdistinct, fun _ _ => List.not_mem_nil⟩] at hrepeated
    cases hrepeated
  | none =>
    have hdistinct := ((firstRepeated_eq_none_iff [] _).mp hrepeated).1
    have htext : ∀ chunk ∈ parsed.pathChunks, toUpper (trimSpace chunk) = chunk := by
      intro chunk hchunk
      obtain ⟨bytes, -, rfl⟩ := hparsed.exists_bytes hchunk
      rw [trimSpace_upperHex, toUpper_upperHex]
    rcases resolveChunks_spec ht roles iata parsed.hashSize
      parsed.pathChunks htext [] with
      ⟨path, hall, hresult⟩ | ⟨before, chunk, after, result, hsplit, hbefore, hfail, hempty, hresult⟩
    · obtain ⟨horder, hforwarders⟩ := order_of_forall₂ hall
      have hgood : Unambiguous t roles iata parsed := by
        refine ⟨hvalid, hhops, hdistinct, fun chunk hchunk => ?_⟩
        rw [← horder] at hchunk
        obtain ⟨hop, hhop, rfl⟩ := List.mem_map.mp hchunk
        obtain ⟨n, hn, -⟩ := hforwarders hop hhop
        exact ⟨n, hn⟩
      change SoundResolution t roles iata parsed
        (resolveChunks _ _ _ (parsed.hashSize : Int) [] parsed.pathChunks)
      rw [hresult]
      exact ⟨⟨fun _ => hgood, fun _ => rfl⟩, fun _ => forwarderPath_of_forall₂ ht hparsed hdistinct hall,
        fun hne => absurd rfl hne⟩
    · change SoundResolution t roles iata parsed
        (resolveChunks _ _ _ (parsed.hashSize : Int) [] parsed.pathChunks)
      rw [hresult]
      exact sound_of_failure hempty (.chunk hvalid hhops hdistinct hsplit hbefore hfail)

/-- A resolution over the tables that calls have written is sound and complete. -/
theorem resolveOnce_sound [LiveEnv] {sha256 : List UInt8 → List UInt8} {raw : List UInt8}
    {parsed : Meshcore.ParsedPacket} (hparsed : parsePacket sha256 raw = .ok parsed)
    {t : NodeTables} (ht : nodeStore.Reachable t) (roles : List String) (iata : String) :
    SoundResolution t roles iata parsed
      (resolveOnce t.candidateTables.candidatesByPrefix (forwarderRoles roles) iata
        (forResolver parsed)) :=
  sound_of_wf (wf_of_reachable ht) (parsePacket_pathParsed hparsed)

end Resolution

attribute [local instance] defaultEnv

/-- A text packet over two hops. -/
def twoHopsRaw : List UInt8 := [0x09, 0x02, 0xAB, 0xCD, 0x00]

def twoHops : Meshcore.ParsedPacket :=
  assemble (fun _ => []) twoHopsRaw 0x09 [] 0x02 [0xAB, 0xCD, 0x00]

def repeaterAdvert (publicKey : String) : Advert :=
  { publicKey, nodeType := 2, role := "repeater", latitude := none, longitude := none
    name := "", locationSource := "" }

/-- The adverts of two repeaters, statement by statement. -/
def twoAdverts : List (NodeMutation × Nat) :=
  (List.range 6).map (fun i => (.advert "n1" "YKF" (repeaterAdvert "AB12CD34") 1, i)) ++
    (List.range 6).map fun i => (.advert "n2" "YKF" (repeaterAdvert "CDEF5678") 2, i)

theorem resolveOnce_sound_two_hops : ∃ t, nodeStore.Reachable t ∧
    SoundResolution t [] "ykf" twoHops
      (resolveOnce t.candidateTables.candidatesByPrefix (forwarderRoles []) "ykf"
        (forResolver twoHops)) ∧
    (resolveOnce t.candidateTables.candidatesByPrefix (forwarderRoles []) "ykf"
        (forResolver twoHops)).status = statusHigh := by
  obtain ⟨t, ht, hhigh⟩ := TSys.exists_reachable_of_run (M := nodeStore) twoAdverts
    (fun t => decide ((resolveOnce t.candidateTables.candidatesByPrefix (forwarderRoles []) "ykf"
      (forResolver twoHops)).status = statusHigh)) rfl (by decide +kernel)
  have hparsed : parsePacket (fun _ => []) twoHopsRaw = .ok twoHops := rfl
  exact ⟨t, ht, resolveOnce_sound hparsed ht [] "ykf", of_decide_eq_true hhigh⟩

end CartoLive.Theorems.ResolverSoundness
