import CartoLive.Resolve.Resolver

/-!
# A cache that cannot be seen

A call of `Resolve` shares the reader lock from the load of the generation to the
check behind `resolveOnce`, so no mutation runs meanwhile and the generation
stands. What the call takes from the cache is then what the store would answer:
a set is cached under the generation that it was read at, unless the cache has
been cleared since, and a cache of another generation is cleared before it is
looked at.
-/

namespace CartoLive.Theorems.ResolverCache

open CartoLive.Lib CartoLive.Resolve

variable {roles : List String} {limit : Int} {w w' : World} {call : ResolveCall}

/-! ## The turns -/

/-- A goroutine that starts. -/
inductive Starts : Proc → Prop
  | resolve (call : ResolveCall) : Starts (.resolving call .top)
  | invalidate : Starts (.invalidating .lock)
  | mutate : Starts (.mutating .lock)

/-- What a step is of. -/
inductive Turn (roles : List String) (limit : Int) (w : World) : World → Prop
  | start {p} (h : Starts p) : Turn roles limit w { w with procs := w.procs ++ [p] }
  | resolve {i call phase cache next} (hp : w.procs[i]? = some (.resolving call phase))
      (h : resolveStep roles limit w call phase = some (cache, next)) :
      Turn roles limit w ({ w with cache }.set i (.resolving call next))
  | fail {i call phase next} (hp : w.procs[i]? = some (.resolving call phase))
      (h : failPhase phase = some next) : Turn roles limit w (w.set i (.resolving call next))
  | invalidate {i phase cache next} (hp : w.procs[i]? = some (.invalidating phase))
      (h : invalidateStep w phase = some (cache, next)) :
      Turn roles limit w ({ w with cache }.set i (.invalidating next))
  | mutate {i phase generation next} (hp : w.procs[i]? = some (.mutating phase))
      (h : mutateStep w phase = some (generation, next)) :
      Turn roles limit w ({ w with generation }.set i (.mutating next))
  | write {i : Nat} {tables} (hp : w.procs[i]? = some (Proc.mutating .writing)) :
      Turn roles limit w { w with tables }

theorem turn_of_step {a : Act} (h : w.step roles limit a = some w') : Turn roles limit w w' := by
  cases a with
  | resolve call => cases h; exact .start (.resolve call)
  | invalidate => cases h; exact .start .invalidate
  | mutate => cases h; exact .start .mutate
  | advance i =>
    obtain ⟨p, hp, hadvance⟩ := Option.bind_eq_some_iff.mp h
    cases p with
    | resolving call phase =>
      obtain ⟨next, hnext, rfl⟩ := Option.map_eq_some_iff.mp hadvance
      exact .resolve hp hnext
    | invalidating phase =>
      obtain ⟨next, hnext, rfl⟩ := Option.map_eq_some_iff.mp hadvance
      exact .invalidate hp hnext
    | mutating phase =>
      obtain ⟨next, hnext, rfl⟩ := Option.map_eq_some_iff.mp hadvance
      exact .mutate hp hnext
  | fail i =>
    simp only [World.step] at h
    split at h
    · rename_i call phase hp
      obtain ⟨next, hnext, rfl⟩ := Option.map_eq_some_iff.mp h
      exact .fail hp hnext
    · cases h
  | write i tables =>
    simp only [World.step] at h
    split at h
    · rename_i hp
      cases h
      exact .write hp
    · cases h

/-! ## The locks -/

/-- `resolveOnce` goes on, or has returned. -/
inductive GoesOn : ResolvePhase → Prop
  | lookup (p : Progress) : GoesOn (.lookup p .lock)
  | check (generation : Nat) (result : Option Result) : GoesOn (.check generation result)

theorem goesOn_proceed (generation : Nat) (hops : List ResolvedHop) (rest : List String) :
    GoesOn (proceed generation hops rest) := by
  cases rest with
  | nil => exact .check ..
  | cons chunk rest => exact .lookup _

theorem goesOn_begin (call : ResolveCall) (generation : Nat) : GoesOn (begin call generation) := by
  unfold begin
  split
  · exact .check ..
  · exact goesOn_proceed ..

theorem goesOn_answer (call : ResolveCall) (p : Progress) (candidates : List Candidate) :
    GoesOn (answer roles call p candidates) := by
  unfold answer
  split
  · exact .check ..
  · exact goesOn_proceed ..

theorem GoesOn.candidateMu {phase : ResolvePhase} (h : GoesOn phase) :
    (Proc.resolving call phase).candidateMu = .shared := by cases h <;> rfl

theorem GoesOn.cacheMu {phase : ResolvePhase} (h : GoesOn phase) :
    (Proc.resolving call phase).cacheMu = .free := by cases h <;> rfl

/-- What a step of `candidatesByPrefix` holds of the locks. -/
theorem lookupStep_takes {p : Progress} {phase : LookupPhase} {cache : Cache} {next : ResolvePhase}
    (h : lookupStep roles limit w call p phase = some (cache, next)) :
    (Proc.resolving call next).candidateMu = .shared ∧
      Takes Proc.cacheMu w.procs (.resolving call (.lookup p phase)) (.resolving call next) := by
  cases phase with
  | lock =>
    obtain ⟨guard, h⟩ := Option.ite_none_right_eq_some.mp h
    cases h
    exact ⟨rfl, .take rfl guard⟩
  | load => cases h; exact ⟨rfl, .keep rfl⟩
  | find generation =>
    simp only [lookupStep] at h
    split at h <;> cases h <;> exact ⟨rfl, .giveUp rfl⟩
  | hit generation candidates =>
    cases h
    split
    · exact ⟨(goesOn_answer ..).candidateMu, .giveUp (goesOn_answer ..).cacheMu⟩
    · exact ⟨rfl, .giveUp rfl⟩
  | query generation epoch => cases h; exact ⟨rfl, .giveUp rfl⟩
  | queried generation epoch candidates =>
    cases h
    split <;> exact ⟨rfl, .giveUp rfl⟩
  | relock generation epoch candidates =>
    obtain ⟨guard, h⟩ := Option.ite_none_right_eq_some.mp h
    cases h
    exact ⟨rfl, .take rfl guard⟩
  | reload generation epoch candidates => cases h; exact ⟨rfl, .keep rfl⟩
  | publish generation epoch candidates latest =>
    simp only [lookupStep] at h
    split at h <;> cases h
    · exact ⟨rfl, .giveUp rfl⟩
    · exact ⟨(goesOn_answer ..).candidateMu, .giveUp (goesOn_answer ..).cacheMu⟩

theorem resolveStep_takes {phase next : ResolvePhase} {cache : Cache}
    (h : resolveStep roles limit w call phase = some (cache, next)) :
    Takes Proc.candidateMu w.procs (.resolving call phase) (.resolving call next) ∧
      Takes Proc.cacheMu w.procs (.resolving call phase) (.resolving call next) := by
  cases phase with
  | top => cases h; exact ⟨.giveUp rfl, .giveUp rfl⟩
  | rlock =>
    obtain ⟨guard, h⟩ := Option.ite_none_right_eq_some.mp h
    cases h
    exact ⟨.share rfl guard, .giveUp rfl⟩
  | load =>
    cases h
    exact ⟨.keep (goesOn_begin ..).candidateMu, .giveUp (goesOn_begin ..).cacheMu⟩
  | lookup p phase =>
    obtain ⟨hshared, htakes⟩ := lookupStep_takes h
    exact ⟨.keep hshared, htakes⟩
  | check generation result => cases h; exact ⟨.keep rfl, .giveUp rfl⟩
  | release result stable =>
    cases result with
    | none => cases h; exact ⟨.giveUp rfl, .giveUp rfl⟩
    | some result =>
      cases h
      split <;> exact ⟨.giveUp rfl, .giveUp rfl⟩
  | returned result => cases h

/-- Both locks exclude, at every moment. -/
structure Locked (w : World) : Prop where
  candidateMu : Exclusion Proc.candidateMu w.procs
  cacheMu : Exclusion Proc.cacheMu w.procs

theorem Locked.turn (h : Locked w) (hturn : Turn roles limit w w') : Locked w' := by
  cases hturn with
  | start hp =>
    exact ⟨exclusion_concat h.candidateMu (by cases hp <;> rfl),
      exclusion_concat h.cacheMu (by cases hp <;> rfl)⟩
  | resolve hp hnext =>
    obtain ⟨hrw, hmu⟩ := resolveStep_takes hnext
    exact ⟨exclusion_set h.candidateMu hp hrw, exclusion_set h.cacheMu hp hmu⟩
  | @fail i call phase next hp hnext =>
    have htakes : Takes Proc.candidateMu w.procs (.resolving call phase) (.resolving call next) ∧
        Takes Proc.cacheMu w.procs (.resolving call phase) (.resolving call next) := by
      unfold failPhase at hnext
      split at hnext <;> cases hnext
      · exact ⟨.giveUp rfl, .giveUp rfl⟩
      · exact ⟨.keep rfl, .giveUp rfl⟩
    exact ⟨exclusion_set h.candidateMu hp htakes.1, exclusion_set h.cacheMu hp htakes.2⟩
  | @invalidate i phase cache next hp hnext =>
    refine ⟨exclusion_set h.candidateMu hp (.giveUp rfl), exclusion_set h.cacheMu hp ?_⟩
    cases phase with
    | lock =>
      obtain ⟨guard, hnext⟩ := Option.ite_none_right_eq_some.mp hnext
      cases hnext
      exact .take rfl guard
    | load => cases hnext; exact .keep rfl
    | clear generation => cases hnext; exact .giveUp rfl
    | returned => cases hnext
  | @mutate i phase generation next hp hnext =>
    refine ⟨exclusion_set h.candidateMu hp ?_, exclusion_set h.cacheMu hp (.giveUp rfl)⟩
    cases phase with
    | lock =>
      obtain ⟨guard, hnext⟩ := Option.ite_none_right_eq_some.mp hnext
      cases hnext
      exact .take rfl guard
    | bump => cases hnext; exact .keep rfl
    | writing => cases hnext; exact .keep rfl
    | unlock => cases hnext; exact .giveUp rfl
    | returned => cases hnext
  | write hp => exact ⟨h.candidateMu, h.cacheMu⟩

/-! ## What goroutines know -/

/-- What `resolveOnce` would return without a cache. -/
def uncached (roles : List String) (w : World) (call : ResolveCall) : Result :=
  resolveOnce w.tables.candidatesByPrefix roles call.iata call.parsed

/-- The key that is looked up. -/
def lookupKey (call : ResolveCall) (p : Progress) : CandidateCacheKey :=
  candidateCacheKey call.iata call.parsed.hashSize p.chunk

/-- A generation and an epoch that were read: the generation stands, and the cache
is of it unless it has been cleared since. -/
structure Read (w : World) (generation epoch : Nat) : Prop where
  stands : generation = w.generation
  notAhead : epoch ≤ w.cache.epoch
  uncleared : epoch = w.cache.epoch → w.cache.generation = generation

/-- What `candidatesByPrefix` knows, where the store would answer `set`. -/
def LookupFresh (w : World) (set : List Candidate) : LookupPhase → Prop
  | .lock | .load => True
  | .find generation => generation = w.generation
  | .hit generation candidates => generation = w.generation ∧ candidates = set
  | .query generation epoch => Read w generation epoch
  | .queried generation epoch candidates | .relock generation epoch candidates
  | .reload generation epoch candidates => Read w generation epoch ∧ candidates = set
  | .publish generation epoch candidates latest =>
    Read w generation epoch ∧ candidates = set ∧ latest = w.generation

/-- What `Resolve` knows between its locks. -/
def ResolveFresh (roles : List String) (w : World) (call : ResolveCall) : ResolvePhase → Prop
  | .lookup p phase =>
    p.generation = w.generation ∧
      resolveChunks w.tables.candidatesByPrefix roles call.iata call.parsed.hashSize p.hops
        (p.chunk :: p.rest) = uncached roles w call ∧
      LookupFresh w (w.tables.candidatesByPrefix (lookupKey call p)) phase
  | .check generation (some result) =>
    generation = w.generation ∧ result = uncached roles w call
  | .release (some result) _ => result = uncached roles w call
  | _ => True

/-- What a goroutine knows. -/
def Fresh (roles : List String) (w : World) : Proc → Prop
  | .resolving call phase => ResolveFresh roles w call phase
  | .invalidating (.clear generation) => generation ≤ w.generation
  | _ => True

/-- What other goroutines do to the generations and the epoch. -/
structure Later (w w' : World) : Prop where
  generation : w.generation ≤ w'.generation
  epoch : w.cache.epoch ≤ w'.cache.epoch
  cache : w.cache.epoch = w'.cache.epoch → w'.cache.generation = w.cache.generation

theorem Later.refl (hcache : w'.cache = w.cache) (hgeneration : w'.generation = w.generation) :
    Later w w' where
  generation := hgeneration.symm.le
  epoch := hcache ▸ le_refl _
  cache := fun _ => hcache ▸ rfl

theorem Read.later {generation epoch : Nat} (h : Read w generation epoch) (hlater : Later w w')
    (hgeneration : w'.generation = w.generation) : Read w' generation epoch where
  stands := h.stands.trans hgeneration.symm
  notAhead := h.notAhead.trans hlater.epoch
  uncleared := by
    intro hepoch
    have hold := h.notAhead
    have hle := hlater.epoch
    rw [hlater.cache (by omega)]
    exact h.uncleared (by omega)

/-- What a goroutine knows is not lost by the steps of others: whoever shares
`candidateMu` sees no mutation. -/
theorem Fresh.later {p : Proc} (h : Fresh roles w p) (hlater : Later w w')
    (hsame : p.candidateMu ≠ .free → w'.tables = w.tables ∧ w'.generation = w.generation) :
    Fresh roles w' p := by
  cases p with
  | resolving call phase =>
    cases phase with
    | lookup p phase =>
      obtain ⟨htables, hgeneration⟩ := hsame nofun
      obtain ⟨hp, hchunks, hphase⟩ := h
      refine ⟨hp.trans hgeneration.symm, ?_, ?_⟩
      · rw [uncached, htables]
        exact hchunks
      · rw [htables]
        cases phase with
        | lock => trivial
        | load => trivial
        | find generation => exact hphase.trans hgeneration.symm
        | hit generation candidates => exact ⟨hphase.1.trans hgeneration.symm, hphase.2⟩
        | query generation epoch => exact Read.later hphase hlater hgeneration
        | queried generation epoch candidates => exact ⟨hphase.1.later hlater hgeneration, hphase.2⟩
        | relock generation epoch candidates => exact ⟨hphase.1.later hlater hgeneration, hphase.2⟩
        | reload generation epoch candidates => exact ⟨hphase.1.later hlater hgeneration, hphase.2⟩
        | publish generation epoch candidates latest =>
          exact ⟨hphase.1.later hlater hgeneration, hphase.2.1, hphase.2.2.trans hgeneration.symm⟩
    | check generation result =>
      obtain ⟨htables, hgeneration⟩ := hsame nofun
      cases result with
      | none => trivial
      | some result =>
        refine ⟨h.1.trans hgeneration.symm, ?_⟩
        rw [uncached, htables]
        exact h.2
    | release result stable =>
      obtain ⟨htables, -⟩ := hsame nofun
      cases result with
      | none => trivial
      | some result =>
        show result = uncached roles w' call
        rw [uncached, htables]
        exact h
    | top => trivial
    | rlock => trivial
    | load => trivial
    | returned result => trivial
  | invalidating phase =>
    cases phase with
    | clear generation => exact Nat.le_trans h hlater.generation
    | lock => trivial
    | load => trivial
    | returned => trivial
  | mutating phase => trivial

/-! ## The cache -/

/-- The entries of the cache are what the store answers. -/
def Current (w : World) : Prop :=
  ∀ e ∈ w.cache.candidates.entries, e.2 = w.tables.candidatesByPrefix e.1

/-- No mutation holds the writer lock: what the tables hold is committed. -/
def Committed (w : World) : Prop := Sharable Proc.candidateMu w.procs

/-- What a step makes of the cache: it keeps some entries, clears the cache, or adds
the set that the store answers at the generation of the cache. -/
inductive CacheStep (w : World) : Cache → Prop
  | keep {cache : Cache} (hgeneration : cache.generation = w.cache.generation)
      (hepoch : cache.epoch = w.cache.epoch)
      (h : ∀ e ∈ cache.candidates.entries, e ∈ w.cache.candidates.entries) : CacheStep w cache
  | clear {generation : Nat} (h : generation ≤ w.generation) :
      CacheStep w (w.cache.clear generation)
  | store {cache : Cache} (hgeneration : cache.generation = w.cache.generation)
      (hepoch : cache.epoch = w.cache.epoch) (hcommitted : Committed w)
      (hcurrent : w.cache.generation = w.generation)
      (h : ∀ e ∈ cache.candidates.entries,
        e.2 = w.tables.candidatesByPrefix e.1 ∨ e ∈ w.cache.candidates.entries) :
      CacheStep w cache

theorem CacheStep.refl (w : World) : CacheStep w w.cache := .keep rfl rfl fun _ h => h

theorem CacheStep.sync {generation : Nat} (h : generation ≤ w.generation) :
    CacheStep w (w.cache.sync generation) := by
  unfold Cache.sync
  split
  · exact .clear h
  · exact .refl w

theorem CacheStep.later {cache : Cache} (h : CacheStep w cache) (hcache : w'.cache = cache)
    (hgeneration : w'.generation = w.generation) : Later w w' := by
  cases h with
  | keep hsame hepoch =>
    exact ⟨hgeneration.symm.le, hcache ▸ hepoch.symm.le, fun _ => hcache ▸ hsame⟩
  | store hsame hepoch =>
    exact ⟨hgeneration.symm.le, hcache ▸ hepoch.symm.le, fun _ => hcache ▸ hsame⟩
  | clear =>
    have hepoch : w'.cache.epoch = w.cache.epoch + 1 := by rw [hcache]; rfl
    exact ⟨hgeneration.symm.le, by omega, fun hsame => by omega⟩

/-! ## The steps of a call -/

theorem proceed_fresh {hops : List ResolvedHop} {rest : List String}
    (h : resolveChunks w.tables.candidatesByPrefix roles call.iata call.parsed.hashSize hops rest =
      uncached roles w call) : ResolveFresh roles w call (proceed w.generation hops rest) := by
  cases rest with
  | nil => exact ⟨rfl, h⟩
  | cons chunk rest => exact ⟨rfl, h, trivial⟩

theorem begin_fresh (roles : List String) (w : World) (call : ResolveCall) :
    ResolveFresh roles w call (begin call w.generation) := by
  unfold begin
  split
  · rename_i result hearly
    refine ⟨rfl, ?_⟩
    rw [uncached, resolveOnce, hearly]
  · rename_i hearly
    refine proceed_fresh ?_
    rw [uncached, resolveOnce, hearly]

theorem answer_fresh {p : Progress} (hp : p.generation = w.generation)
    (h : resolveChunks w.tables.candidatesByPrefix roles call.iata call.parsed.hashSize p.hops
      (p.chunk :: p.rest) = uncached roles w call) :
    ResolveFresh roles w call
      (answer roles call p (w.tables.candidatesByPrefix (lookupKey call p))) := by
  have hchunks := h
  unfold resolveChunks at hchunks
  unfold answer
  rw [lookupKey, hp]
  generalize resolveHop roles call.iata call.parsed.hashSize p.hops p.chunk _ = turn at hchunks ⊢
  cases turn with
  | error result => exact ⟨rfl, hchunks⟩
  | ok hops => exact proceed_fresh hchunks

theorem lookupStep_spec {p : Progress} {phase : LookupPhase} {cache : Cache} {next : ResolvePhase}
    (hcurrent : w.cache.generation = w.generation → Current w) (hcommitted : Committed w)
    (hfresh : ResolveFresh roles w call (.lookup p phase))
    (h : lookupStep roles limit w call p phase = some (cache, next)) :
    CacheStep w cache ∧ ResolveFresh roles { w with cache } call next := by
  obtain ⟨hp, hchunks, hphase⟩ := hfresh
  have hanswer : ∀ cache, ResolveFresh roles { w with cache } call
      (answer roles call p (w.tables.candidatesByPrefix (lookupKey call p))) := fun cache =>
    answer_fresh (w := { w with cache }) hp hchunks
  cases phase with
  | lock =>
    obtain ⟨-, h⟩ := Option.ite_none_right_eq_some.mp h
    cases h
    exact ⟨.refl w, hp, hchunks, trivial⟩
  | load => cases h; exact ⟨.refl w, hp, hchunks, rfl⟩
  | find generation =>
    have hgeneration : generation = w.generation := hphase
    simp only [lookupStep, Cache.sync] at h
    by_cases hsame : generation ≠ w.cache.generation
    · -- nothing is found in a cleared cache
      rw [if_pos hsame] at h
      cases h
      exact ⟨.clear hgeneration.le, hp, hchunks, hgeneration, le_refl _, fun _ => rfl⟩
    · rw [if_neg hsame] at h
      have hcache : w.cache.generation = generation := (not_not.mp hsame).symm
      split at h
      · rename_i candidates hfind
        cases h
        have hset := hcurrent (hcache.trans hgeneration) _ (Lru.mem_of_find hfind)
        exact ⟨.keep rfl rfl fun e he => Lru.mem_touch he, hp, hchunks, hgeneration, hset⟩
      · cases h
        exact ⟨.refl w, hp, hchunks, hgeneration, le_refl _, fun _ => hcache⟩
  | hit generation candidates =>
    obtain ⟨-, rfl⟩ := hphase
    cases h
    refine ⟨.refl w, ?_⟩
    split
    · exact hanswer w.cache
    · exact ⟨hp, hchunks, trivial⟩
  | query generation epoch => cases h; exact ⟨.refl w, hp, hchunks, hphase, rfl⟩
  | queried generation epoch candidates =>
    cases h
    refine ⟨.refl w, hp, hchunks, ?_⟩
    split
    · trivial
    · exact hphase
  | relock generation epoch candidates =>
    obtain ⟨-, h⟩ := Option.ite_none_right_eq_some.mp h
    cases h
    exact ⟨.refl w, hp, hchunks, hphase⟩
  | reload generation epoch candidates =>
    cases h
    exact ⟨.refl w, hp, hchunks, hphase.1, hphase.2, rfl⟩
  | publish generation epoch candidates latest =>
    obtain ⟨hread, rfl, hlatest⟩ := hphase
    simp only [lookupStep] at h
    split at h
    · cases h
      exact ⟨.sync hlatest.le, hp, hchunks, trivial⟩
    · rename_i hmoved
      cases h
      have hepoch : epoch = w.cache.epoch := not_not.mp (not_or.mp hmoved).2
      refine ⟨.store rfl rfl hcommitted ((hread.uncleared hepoch).trans hread.stands) ?_, hanswer _⟩
      intro e he
      rcases Lru.mem_store he with rfl | hold
      · exact .inl rfl
      · exact .inr hold

theorem resolveStep_spec {phase next : ResolvePhase} {cache : Cache}
    (hcurrent : w.cache.generation = w.generation → Current w)
    (hcommitted : (Proc.resolving call phase).candidateMu = .shared → Committed w)
    (hfresh : ResolveFresh roles w call phase)
    (h : resolveStep roles limit w call phase = some (cache, next)) :
    CacheStep w cache ∧ ResolveFresh roles { w with cache } call next := by
  cases phase with
  | top => cases h; exact ⟨.refl w, trivial⟩
  | rlock =>
    obtain ⟨-, h⟩ := Option.ite_none_right_eq_some.mp h
    cases h
    exact ⟨.refl w, trivial⟩
  | load => cases h; exact ⟨.refl w, begin_fresh roles w call⟩
  | lookup p phase => exact lookupStep_spec hcurrent (hcommitted rfl) hfresh h
  | check generation result =>
    cases h
    refine ⟨.refl w, ?_⟩
    cases result with
    | none => trivial
    | some result => exact hfresh.2
  | release result stable =>
    cases result with
    | none => cases h; exact ⟨.refl w, trivial⟩
    | some result =>
      cases h
      refine ⟨.refl w, ?_⟩
      split <;> trivial
  | returned result => cases h

/-! ## The invariant -/

structure Inv (roles : List String) (w : World) : Prop where
  locked : Locked w
  notAhead : w.cache.generation ≤ w.generation
  current : w.cache.generation = w.generation → Current w
  /-- While a mutation writes, a cache of its generation is empty. -/
  writing : .mutating .writing ∈ w.procs → w.cache.generation = w.generation →
    w.cache.candidates.entries = []
  fresh : ∀ p ∈ w.procs, Fresh roles w p

/-- What is kept of the cache by a step that leaves the tables and the generation. -/
theorem Inv.cacheStep (h : Inv roles w) {cache : Cache} (hstep : CacheStep w cache) :
    cache.generation ≤ w.generation ∧
      (cache.generation = w.generation → Current { w with cache }) ∧
      (.mutating .writing ∈ w.procs → cache.generation = w.generation →
        cache.candidates.entries = []) := by
  cases hstep with
  | keep hgeneration _ hsub =>
    refine ⟨hgeneration ▸ h.notAhead, fun hsame e he => ?_, fun hwriting hsame => ?_⟩
    · exact h.current (hgeneration ▸ hsame) e (hsub e he)
    · have hnil := h.writing hwriting (hgeneration ▸ hsame)
      exact List.eq_nil_iff_forall_not_mem.mpr fun e he => by
        have hin := hsub e he
        rw [hnil] at hin
        cases hin
  | clear hle =>
    exact ⟨hle, fun _ e he => absurd he List.not_mem_nil, fun _ _ => rfl⟩
  | store hgeneration _ hcommitted hsame hadd =>
    refine ⟨hgeneration ▸ h.notAhead, fun _ e he => ?_, fun hwriting => ?_⟩
    · rcases hadd e he with hnew | hold
      · exact hnew
      · exact h.current hsame e hold
    · exact absurd rfl (hcommitted _ hwriting)

/-- What the other goroutines know after a step of goroutine `i`. -/
theorem fresh_set (h : ∀ p ∈ w.procs, Fresh roles w p) {i : Nat} {p next : Proc}
    (hp : w.procs[i]? = some p) (hprocs : w'.procs = w.procs.set i next) (hlater : Later w w')
    (hothers : ∀ q j, w.procs[j]? = some q → j ≠ i → q.candidateMu ≠ .free →
      w'.tables = w.tables ∧ w'.generation = w.generation)
    (hnext : Fresh roles w' next) : ∀ q ∈ w'.procs, Fresh roles w' q := by
  intro q hq
  rw [hprocs] at hq
  obtain ⟨j, hj⟩ := List.mem_iff_getElem?.mp hq
  by_cases hji : i = j
  · subst hji
    rw [List.getElem?_set_self (List.getElem?_eq_some_iff.mp hp).1] at hj
    exact Option.some.inj hj ▸ hnext
  · rw [List.getElem?_set_ne hji] at hj
    exact (h q (List.mem_of_getElem? hj)).later hlater (hothers q j hj (Ne.symm hji))

theorem Inv.committed (h : Inv roles w) {i : Nat} {p : Proc} (hp : w.procs[i]? = some p)
    (hshared : p.candidateMu = .shared) : Committed w :=
  h.locked.candidateMu.sharable hp hshared

/-- A step of the cache by a goroutine that does not mutate. -/
theorem Inv.cacheTurn (h : Inv roles w) {i : Nat} {p next : Proc} {cache : Cache}
    (hp : w.procs[i]? = some p) (hstep : CacheStep w cache) (hnext : next ≠ .mutating .writing)
    (hfresh : Fresh roles { w with cache } next)
    (hlocked : Locked ({ w with cache }.set i next)) : Inv roles ({ w with cache }.set i next) := by
  obtain ⟨hnotAhead, hcurrent, hwriting⟩ := h.cacheStep hstep
  refine ⟨hlocked, hnotAhead, hcurrent, fun hin => hwriting ?_, ?_⟩
  · exact (List.mem_or_eq_of_mem_set hin).resolve_right (Ne.symm hnext)
  · exact fresh_set h.fresh hp rfl (hstep.later rfl rfl) (fun _ _ _ _ _ => ⟨rfl, rfl⟩)
      (hfresh.later (Later.refl rfl rfl) fun _ => ⟨rfl, rfl⟩)

/-- A bump of the generation, by the goroutine that holds the writer lock. -/
theorem Inv.bumpTurn (h : Inv roles w) {i : Nat} {phase next : MutationPhase}
    (hp : w.procs[i]? = some (.mutating phase))
    (halone : (Proc.mutating phase).candidateMu = .alone)
    (hlocked : Locked ({ w with generation := w.generation + 1 }.set i (.mutating next))) :
    Inv roles ({ w with generation := w.generation + 1 }.set i (.mutating next)) := by
  have hbehind : w.cache.generation ≠ w.generation + 1 := (Nat.lt_succ_of_le h.notAhead).ne
  refine ⟨hlocked, Nat.le_succ_of_le h.notAhead, fun hsame => absurd hsame hbehind,
    fun _ hsame => absurd hsame hbehind, ?_⟩
  refine fresh_set h.fresh hp rfl ⟨Nat.le_succ _, le_refl _, fun _ => rfl⟩ ?_ trivial
  intro q j hq hne hheld
  exact absurd (h.locked.candidateMu i j _ q hp hq (Ne.symm hne) halone) hheld

theorem Inv.turn (h : Inv roles w) (hturn : Turn roles limit w w') : Inv roles w' := by
  have hlocked := h.locked.turn hturn
  cases hturn with
  | @start p hp =>
    refine ⟨hlocked, h.notAhead, h.current, fun hin => h.writing ?_, fun q hq => ?_⟩
    · rcases List.mem_append.mp hin with hold | hnew
      · exact hold
      · rw [← List.mem_singleton.mp hnew] at hp
        cases hp
    · rcases List.mem_append.mp hq with hold | hnew
      · exact (h.fresh q hold).later (Later.refl rfl rfl) fun _ => ⟨rfl, rfl⟩
      · rw [List.mem_singleton.mp hnew]
        cases hp <;> trivial
  | resolve hp hnext =>
    obtain ⟨hcache, hfresh⟩ := resolveStep_spec h.current (h.committed hp)
      (h.fresh _ (List.mem_of_getElem? hp)) hnext
    exact h.cacheTurn hp hcache nofun hfresh hlocked
  | @fail i call phase next hp hnext =>
    refine h.cacheTurn hp (.refl w) nofun ?_ hlocked
    unfold failPhase at hnext
    split at hnext <;> cases hnext <;> trivial
  | @invalidate i phase cache next hp hnext =>
    have hfresh := h.fresh _ (List.mem_of_getElem? hp)
    cases phase with
    | lock =>
      obtain ⟨-, hnext⟩ := Option.ite_none_right_eq_some.mp hnext
      cases hnext
      exact h.cacheTurn hp (.refl w) nofun trivial hlocked
    | load =>
      cases hnext
      exact h.cacheTurn hp (.refl w) nofun (le_refl w.generation) hlocked
    | clear generation =>
      cases hnext
      exact h.cacheTurn hp (.clear hfresh) nofun trivial hlocked
    | returned => cases hnext
  | @mutate i phase generation next hp hnext =>
    cases phase with
    | lock =>
      obtain ⟨-, hnext⟩ := Option.ite_none_right_eq_some.mp hnext
      cases hnext
      exact h.cacheTurn hp (.refl w) nofun trivial hlocked
    | bump => cases hnext; exact h.bumpTurn hp rfl hlocked
    | writing => cases hnext; exact h.bumpTurn hp rfl hlocked
    | unlock => cases hnext; exact h.cacheTurn hp (.refl w) nofun trivial hlocked
    | returned => cases hnext
  | @write i tables hp =>
    have halone : ∀ q j, w.procs[j]? = some q → j ≠ i → q.candidateMu = .free := fun q j hq hne =>
      h.locked.candidateMu i j _ q hp hq (Ne.symm hne) rfl
    have hempty := h.writing (List.mem_of_getElem? hp)
    refine ⟨hlocked, h.notAhead, fun hsame e he => ?_, h.writing, fun q hq => ?_⟩
    · have hin : e ∈ w.cache.candidates.entries := he
      rw [hempty hsame] at hin
      cases hin
    · obtain ⟨j, hj⟩ := List.mem_iff_getElem?.mp hq
      by_cases hji : j = i
      · subst hji
        rw [Option.some.inj (hj.symm.trans hp)]
        trivial
      · exact (h.fresh q hq).later (Later.refl rfl rfl) fun hheld =>
          absurd (halone q j hj hji) hheld

theorem inv_init (h : (resolver roles limit).init w) : Inv roles w := by
  obtain ⟨hprocs, hcache⟩ := h
  refine ⟨⟨hprocs ▸ exclusion_nil, hprocs ▸ exclusion_nil⟩, by rw [hcache], ?_, ?_, ?_⟩
  · intro _ e he
    rw [hcache] at he
    cases he
  · intro _ _
    rw [hcache]
    rfl
  · intro p hp
    rw [hprocs] at hp
    cases hp

/-- What a turn makes of the cache. -/
theorem Inv.cacheStep_turn (h : Inv roles w) (hturn : Turn roles limit w w') :
    CacheStep w w'.cache := by
  cases hturn with
  | resolve hp hnext =>
    exact (resolveStep_spec h.current (h.committed hp) (h.fresh _ (List.mem_of_getElem? hp))
      hnext).1
  | @invalidate i phase cache next hp hnext =>
    cases phase with
    | lock =>
      obtain ⟨-, hnext⟩ := Option.ite_none_right_eq_some.mp hnext
      cases hnext
      exact .refl w
    | load => cases hnext; exact .refl w
    | clear generation =>
      cases hnext
      exact .clear (h.fresh _ (List.mem_of_getElem? hp))
    | returned => cases hnext
  | start hp => exact .refl w
  | fail hp hnext => exact .refl w
  | mutate hp hnext => exact .refl w
  | write hp => exact .refl w

/-! ## Where a result comes from -/

theorem getElem?_set_cases {procs : List Proc} {i j : Nat} {p q : Proc}
    (h : (procs.set i p)[j]? = some q) : (i = j ∧ q = p) ∨ procs[j]? = some q := by
  rw [List.getElem?_set] at h
  split at h
  · rename_i hij
    split at h
    · exact .inl ⟨hij, (Option.some.inj h).symm⟩
    · cases h
  · exact .inr h

/-- `Resolve` returns a result that was stable. -/
theorem resolveStep_returned {phase : ResolvePhase} {cache : Cache} {result : Result}
    (h : resolveStep roles limit w call phase = some (cache, .returned (some result))) :
    phase = .release (some result) true := by
  cases phase with
  | lookup p phase => cases (lookupStep_takes h).1
  | load =>
    have hbegin : begin call w.generation = .returned (some result) :=
      congrArg Prod.snd (Option.some.inj h)
    have hgoesOn := goesOn_begin call w.generation
    rw [hbegin] at hgoesOn
    cases hgoesOn
  | release result' stable =>
    cases result' with
    | none => cases h
    | some result' =>
      cases stable <;> cases h
      rfl
  | rlock =>
    obtain ⟨-, h⟩ := Option.ite_none_right_eq_some.mp h
    cases h
  | top => cases h
  | check generation result => cases h
  | returned result => cases h

theorem turn_returned (hturn : Turn roles limit w w') {i : Nat} {result : Result}
    (h : w'.procs[i]? = some (.resolving call (.returned (some result)))) :
    w.procs[i]? = some (.resolving call (.returned (some result))) ∨
      w.procs[i]? = some (.resolving call (.release (some result) true)) := by
  cases hturn with
  | start hp =>
    have hsplit : (w.procs ++ [_])[i]? = _ := h
    rw [List.getElem?_append] at hsplit
    split at hsplit
    · exact .inl hsplit
    · rw [← List.mem_singleton.mp (List.mem_of_getElem? hsplit)] at hp
      cases hp
  | resolve hp hnext =>
    rcases getElem?_set_cases h with ⟨rfl, heq⟩ | hold
    · cases heq
      rw [resolveStep_returned hnext] at hp
      exact .inr hp
    · exact .inl hold
  | @fail j call phase next hp hnext =>
    rcases getElem?_set_cases h with ⟨rfl, heq⟩ | hold
    · cases heq
      unfold failPhase at hnext
      split at hnext <;> cases hnext
    · exact .inl hold
  | invalidate hp hnext =>
    rcases getElem?_set_cases h with ⟨-, heq⟩ | hold
    · cases heq
    · exact .inl hold
  | mutate hp hnext =>
    rcases getElem?_set_cases h with ⟨-, heq⟩ | hold
    · cases heq
    · exact .inl hold
  | write hp => exact .inl h

/-! ## Runs -/

section Runs

variable (e : (resolver roles limit).Execution)

theorem turn_next (n : Nat) :
    e.state (n + 1) = e.state n ∨ Turn roles limit (e.state n) (e.state (n + 1)) :=
  (e.next n).imp_right fun ⟨_, hstep⟩ => turn_of_step hstep

theorem inv_state (n : Nat) : Inv roles (e.state n) := by
  have hinductive : (resolver roles limit).InductiveOn (fun _ _ => True) (Inv roles) :=
    { init := fun _ h => inv_init h
      step := fun _ _ _ h _ hstep => h.turn (turn_of_step hstep) }
  exact hinductive.invariant (e.reachable n)

/-- Goroutine `i` is in a call from moment `m` to moment `n`. -/
def During (i : Nat) (call : ResolveCall) (m n : Nat) : Prop :=
  m ≤ n ∧ ∀ k, m ≤ k → k ≤ n → ∃ phase, (e.state k).procs[i]? = some (.resolving call phase)

/-- The cache cannot be seen. -/
structure Transparent : Prop where
  /-- What `Resolve` returns is what it would return without a cache at one moment
  of the call, when no mutation was under way. -/
  result : ∀ (n i : Nat) (call : ResolveCall) (result : Result),
    (e.state n).procs[i]? = some (.resolving call (.returned (some result))) →
      ∃ m, During e i call m n ∧ Committed (e.state m) ∧ result = uncached roles (e.state m) call
  /-- What is cached was read at the generation of the cache. -/
  cached : ∀ n, ∀ entry ∈ (e.state n).cache.candidates.entries, ∃ m ≤ n,
    Committed (e.state m) ∧ (e.state m).generation = (e.state n).cache.generation ∧
      entry.2 = (e.state m).tables.candidatesByPrefix entry.1
  /-- What is taken from the cache is what the store would answer. -/
  served : ∀ (n i : Nat) (call : ResolveCall) (p : Progress) (generation : Nat)
      (candidates : List Candidate),
    (e.state n).procs[i]? = some (.resolving call (.lookup p (.hit generation candidates))) →
      generation = (e.state n).generation ∧ Committed (e.state n) ∧
        candidates = (e.state n).tables.candidatesByPrefix (lookupKey call p)

theorem exists_moment (n i : Nat) (call : ResolveCall) (result : Result)
    (h : (e.state n).procs[i]? = some (.resolving call (.returned (some result)))) :
    ∃ m, During e i call m n ∧ Committed (e.state m) ∧ result = uncached roles (e.state m) call := by
  induction n with
  | zero =>
    rw [e.init.1] at h
    cases h
  | succ n ih =>
    -- the moment before is in the call too
    have hextend : ∀ {m}, During e i call m n → During e i call m (n + 1) := by
      rintro m ⟨hle, hall⟩
      refine ⟨by omega, fun k hmk hkn => ?_⟩
      rcases Nat.lt_or_ge n k with hlast | hbefore
      · obtain rfl : k = n + 1 := by omega
        exact ⟨_, h⟩
      · exact hall k hmk hbefore
    have hbefore : (e.state n).procs[i]? = some (.resolving call (.returned (some result))) ∨
        (e.state n).procs[i]? = some (.resolving call (.release (some result) true)) := by
      rcases turn_next e n with hsame | hturn
      · exact .inl (hsame ▸ h)
      · exact turn_returned hturn h
    rcases hbefore with hreturned | hrelease
    · obtain ⟨m, hduring, hm⟩ := ih hreturned
      exact ⟨m, hextend hduring, hm⟩
    · have hinv := inv_state e n
      refine ⟨n, hextend ⟨le_refl n, fun k hnk hkn => ?_⟩, hinv.committed hrelease rfl,
        hinv.fresh _ (List.mem_of_getElem? hrelease)⟩
      obtain rfl : k = n := by omega
      exact ⟨_, hrelease⟩

theorem cached_at (n : Nat) : ∀ entry ∈ (e.state n).cache.candidates.entries, ∃ m ≤ n,
    Committed (e.state m) ∧ (e.state m).generation = (e.state n).cache.generation ∧
      entry.2 = (e.state m).tables.candidatesByPrefix entry.1 := by
  induction n with
  | zero =>
    intro entry hentry
    rw [e.init.2] at hentry
    cases hentry
  | succ n ih =>
    intro entry hentry
    have hold : entry ∈ (e.state n).cache.candidates.entries →
        (e.state (n + 1)).cache.generation = (e.state n).cache.generation →
        ∃ m ≤ n + 1, Committed (e.state m) ∧
          (e.state m).generation = (e.state (n + 1)).cache.generation ∧
            entry.2 = (e.state m).tables.candidatesByPrefix entry.1 := by
      intro hin hsame
      obtain ⟨m, hm, hcommitted, hgeneration, hset⟩ := ih entry hin
      exact ⟨m, by omega, hcommitted, hgeneration.trans hsame.symm, hset⟩
    rcases turn_next e n with hsame | hturn
    · rw [hsame] at hentry
      exact hold hentry (by rw [hsame])
    · have hstep := (inv_state e n).cacheStep_turn hturn
      revert hentry hold
      generalize hcache : (e.state (n + 1)).cache = cache at hstep ⊢
      intro hentry hold
      cases hstep with
      | keep hgeneration _ hsub => exact hold (hsub entry hentry) hgeneration
      | clear => cases hentry
      | store hgeneration _ hcommitted hcurrent hadd =>
        rcases hadd entry hentry with hnew | hin
        · exact ⟨n, by omega, hcommitted, (hgeneration.trans hcurrent).symm, hnew⟩
        · exact hold hin hgeneration

/-- **The cache of the resolver is transparent**, in every run, for every limit. -/
theorem resolver_transparent : Transparent e where
  result := exists_moment e
  cached := cached_at e
  served := by
    intro n i call p generation candidates hp
    have hinv := inv_state e n
    obtain ⟨-, -, hgeneration, hset⟩ := hinv.fresh _ (List.mem_of_getElem? hp)
    exact ⟨hgeneration, hinv.committed hp rfl, hset⟩

end Runs

/-- A repeater with a short identifier. -/
def repeater (publicKey : String) : Live.Node :=
  { nodeID := publicKey, publicKey, name := publicKey, role := "repeater", latitude := none
    longitude := none, lastSeen := 1, firstSeen := 1, iatasHeardIn := ["YKF"]
    observationCount := 1 }

def repeaters (publicKeys : List String) : CandidateTables :=
  { nodes := publicKeys.map repeater
    shortIDs := publicKeys.map fun publicKey =>
      { publicKey, iata := "YKF", hashSize := 1, prefixHex := "AA" } }

def oneHop : ResolveCall :=
  { iata := "ykf"
    parsed := { hashSize := 1, hopCount := 1, pathChunks := ["AA"], invalidForMap := false
                invalidReason := "" } }

/-! ## The size of the cache -/

theorem length_resolveStep {phase next : ResolvePhase} {cache : Cache}
    (h : resolveStep roles limit w call phase = some (cache, next))
    (hle : w.cache.candidates.entries.length ≤ limit.toNat) :
    cache.candidates.entries.length ≤ limit.toNat := by
  have hsync : ∀ generation, (w.cache.sync generation).candidates.entries.length ≤ limit.toNat := by
    intro generation
    unfold Cache.sync
    split
    · exact Nat.zero_le _
    · exact hle
  have hsame : ∀ {p : ResolvePhase}, some (w.cache, p) = some (cache, next) →
      cache.candidates.entries.length ≤ limit.toNat := fun h => by cases h; exact hle
  cases phase with
  | lookup p phase =>
    cases phase with
    | find generation =>
      simp only [resolveStep, lookupStep] at h
      split at h <;> cases h
      · exact Lru.length_touch_le.trans (hsync generation)
      · exact hsync generation
    | publish generation epoch candidates latest =>
      simp only [resolveStep, lookupStep] at h
      split at h <;> cases h
      · exact hsync latest
      · exact Lru.length_store_le hle
    | lock => exact hsame (Option.ite_none_right_eq_some.mp h).2
    | relock => exact hsame (Option.ite_none_right_eq_some.mp h).2
    | load => exact hsame h
    | hit => exact hsame h
    | query => exact hsame h
    | queried => exact hsame h
    | reload => exact hsame h
  | rlock => exact hsame (Option.ite_none_right_eq_some.mp h).2
  | top => exact hsame h
  | load => exact hsame h
  | check => exact hsame h
  | release result => cases result <;> exact hsame h
  | returned => cases h

/-- The second call waits for the mutation and does not take the set of the first. -/
example : ((resolver ["repeater"] 2).run
    { tables := repeaters ["AA00"], generation := 0
      cache := { candidates := .empty, generation := 0, epoch := 0 }, procs := [] }
    (.resolve oneHop :: List.replicate 13 (.advance 0) ++
      [.mutate, .advance 1, .advance 1, .write 1 (repeaters ["AA00", "AA10"]), .resolve oneHop,
        .advance 2, .advance 1, .advance 1] ++ List.replicate 12 (.advance 2))).map
      (fun w => w.procs.map fun p => match p with
        | .resolving _ (.returned (some result)) => result.status
        | _ => "") = some ["high", "", "ambiguous"] := by decide +kernel

end CartoLive.Theorems.ResolverCache
