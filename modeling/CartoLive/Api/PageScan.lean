import CartoLive.Store.PacketPaths

/-!
# The loops that put a page together

`publicHistory` and `publicPackets` of `routes.go` each read rows in a loop until
the page is full, once from the stored edges (`rawPage`) and once from the
packet-path projection (`projectionPage`). The two handlers share the bodies of
these loops; what they ask the store for, which rows they keep and how many rows
they read at a time are parameters.

A loop keeps `ScanInv`: what it has found leads from the cursor of the request to
the cursor it has reached.
-/

namespace CartoLive.Api

open CartoLive.Lib CartoLive.Go CartoLive.Live CartoLive.Store

universe u v

/-- The variables of a loop: the entries of the page so far, the cursor reached,
the number of rows read, and whether there is nothing left. -/
structure PageScan (β : Type u) where
  found : List β
  nextCursor : Option HistoryCursor
  scanned : Nat
  exhausted : Bool

/-- A loop starts at the cursor of its request. -/
def PageScan.start {β : Type u} (cursor : Option HistoryCursor) : PageScan β :=
  { found := [], nextCursor := cursor, scanned := 0, exhausted := false }

/-- `publicPacketProjectionCursor`. -/
def publicPacketProjectionCursor (packet : PublicPacketPath) : Option HistoryCursor :=
  match parseInt (trimPrefix packet.id "pulse-") with
  | none => none
  | some id => if id ≤ 0 then none else some { heardAt := packet.heardAt, typeOrder := 2, id }

section Bodies

variable {α : Type v} {β : Type u} (cursorOf : α → Option HistoryCursor) (keep : α → Option β)
  (limit : Nat)

/-- The loop over the rows of one read: what is found with what is kept of them,
until there are `limit`, and the cursor of the last row looked at. -/
def scanRows : List α → List β → Option HistoryCursor → List β × Option HistoryCursor
  | [], found, cursor => (found, cursor)
  | row :: rows, found, cursor =>
    let cursor := (cursorOf row).or cursor
    match keep row with
    | none => scanRows rows found cursor
    | some entry =>
      if limit ≤ (found ++ [entry]).length then (found ++ [entry], cursor)
      else scanRows rows (found ++ [entry]) cursor

/-- One pass over stored edges, `read cursor rawLimit` being the query, and
whether the loop goes on. -/
def rawPage (read : Option HistoryCursor → Nat → List α) (rawLimit : PageScan β → Nat)
    (s : PageScan β) : PageScan β × Bool :=
  let raw := read s.nextCursor (rawLimit s)
  if raw.isEmpty then ({ s with nextCursor := none, exhausted := true }, false)
  else
    let (found, cursor) := scanRows cursorOf keep limit raw s.found s.nextCursor
    let short := decide (raw.length < rawLimit s)
    ({ found, nextCursor := cursor, scanned := s.scanned + raw.length
       exhausted := short && decide (found.length < limit) },
      !short && decide (found.length < limit))

/-- One pass over the projection, whose query also returns a cursor. -/
def projectionPage (read : Option HistoryCursor → Nat → List α × Option HistoryCursor)
    (rawLimit : PageScan β → Nat) (s : PageScan β) : PageScan β × Bool :=
  let (raw, rawCursor) := read s.nextCursor (rawLimit s)
  if raw.isEmpty then ({ s with nextCursor := none, exhausted := true }, false)
  else
    let (found, lastScannedCursor) := scanRows cursorOf keep limit raw s.found s.nextCursor
    let scanned := s.scanned + raw.length
    if limit ≤ found.length then
      ({ found, nextCursor := lastScannedCursor, scanned, exhausted := false }, false)
    else
      ({ found, nextCursor := rawCursor, scanned, exhausted := rawCursor.isNone },
        rawCursor.isSome)

end Bodies

/-! ## The rows of one read -/

section Rows

variable {α : Type v} {β : Type u} {cursorOf : α → Option HistoryCursor} (keep : α → Option β)
  (limit : Nat) {key : α → HistoryCursor}

/-- The loop over rows stops behind some of them: behind all, or when the page is
full. -/
theorem scanRows_spec {raw : List α} (hcursor : ∀ row ∈ raw, cursorOf row = some (key row))
    {found : List β} (hroom : found.length < limit) (c : Option HistoryCursor) :
    ∃ read rest, raw = read ++ rest ∧
      scanRows cursorOf keep limit raw found c =
        (found ++ read.filterMap keep, cursorAfter key c read) ∧
      (limit ≤ (found ++ read.filterMap keep).length ∧ read ≠ [] ∨
        rest = [] ∧ (found ++ read.filterMap keep).length < limit) := by
  induction raw generalizing found c with
  | nil => exact ⟨[], [], rfl, by simp [scanRows, cursorAfter_nil], Or.inr ⟨rfl, by simpa⟩⟩
  | cons row raw ih =>
    have hrow : cursorOf row = some (key row) := hcursor row (by simp)
    have hraw : ∀ row ∈ raw, cursorOf row = some (key row) := fun row h => hcursor row (by simp [h])
    unfold scanRows
    rw [hrow, Option.some_or]
    cases hkeep : keep row with
    | none =>
      obtain ⟨read, rest, rfl, hscan, hstop⟩ := ih hraw hroom (some (key row))
      have hfilter : (row :: read).filterMap keep = read.filterMap keep :=
        List.filterMap_cons_none hkeep
      refine ⟨row :: read, rest, rfl, ?_, ?_⟩
      · rw [hfilter, cursorAfter_cons]
        exact hscan
      · rw [hfilter]
        exact hstop.imp (fun h => ⟨h.1, List.cons_ne_nil _ _⟩) id
    | some entry =>
      dsimp only
      split
      · rename_i hfull
        refine ⟨[row], raw, rfl, ?_, ?_⟩
        · rw [List.filterMap_cons_some hkeep, cursorAfter_cons]
          rfl
        · rw [List.filterMap_cons_some hkeep]
          exact Or.inl ⟨hfull, List.cons_ne_nil _ _⟩
      · rename_i hfull
        obtain ⟨read, rest, rfl, hscan, hstop⟩ := ih hraw (not_le.mp hfull) (some (key row))
        have hfilter : found ++ (row :: read).filterMap keep =
            found ++ [entry] ++ read.filterMap keep := by
          rw [List.filterMap_cons_some hkeep, List.append_assoc]
          rfl
        refine ⟨row :: read, rest, rfl, ?_, ?_⟩
        · rw [hfilter, cursorAfter_cons]
          exact hscan
        · rw [hfilter]
          exact hstop.imp (fun h => ⟨h.1, List.cons_ne_nil _ _⟩) id

end Rows

/-! ## What the loops keep -/

section Loops

variable {α : Type v} {β : Type u} {before : HistoryCursor → HistoryCursor → Prop}
  [DecidableRel before] {key : α → HistoryCursor} {rows : List α} {keep : α → Option β}

/-- What is kept of the rows beyond a cursor. -/
def keptBeyond (before : HistoryCursor → HistoryCursor → Prop) [DecidableRel before]
    (key : α → HistoryCursor) (rows : List α) (keep : α → Option β) (c : Option HistoryCursor) :
    List β :=
  (rowsBeyond before key c rows).filterMap keep

variable (before key rows keep)

/-- Between two passes: what has been found leads to the cursor reached, and rows
that have been read leave the first one. -/
structure ScanInv (c : Option HistoryCursor) (s : PageScan β) : Prop where
  leads : Leads before (rows.map key) (keptBeyond before key rows keep) c s.found s.nextCursor
  left : 0 < s.scanned → s.nextCursor ≠ c
  going : s.exhausted = false

/-- After the loop: nothing is left, or the page leads to the cursor reached. -/
structure ScanDone (limit : Nat) (full : PageScan β → Prop) (c : Option HistoryCursor)
    (s : PageScan β) : Prop where
  nothingLeft : s.exhausted = true →
    keptBeyond before key rows keep c = s.found ∧ s.found.length < limit
  pageLeads : s.exhausted = false → ScanInv before key rows keep c s ∧ full s

/-- What a pass does to a loop that it finds at `s`: it reads on, or it is the
last one. -/
def PassSpec (limit : Nat) (full : PageScan β → Prop) (c : Option HistoryCursor)
    (s : PageScan β) (result : PageScan β × Bool) : Prop :=
  (result.2 = true ∧ ScanInv before key rows keep c result.1 ∧
      (rowsBeyond before key result.1.nextCursor rows).length <
        (rowsBeyond before key s.nextCursor rows).length) ∨
    (result.2 = false ∧ ScanDone before key rows keep limit full c result.1)

variable {before key rows keep} [IsStrictOrder HistoryCursor before]

omit [IsStrictOrder HistoryCursor before] in
theorem scanInv_start (c : Option HistoryCursor) :
    ScanInv before key rows keep c (PageScan.start c) where
  leads := Leads.refl c
  left := fun h => absurd h (lt_irrefl 0)
  going := rfl

/-- A pass that has looked at some of the rows that come next. -/
theorem ScanInv.read (hsorted : rows.Pairwise fun a b => before (key a) (key b))
    {c : Option HistoryCursor} {s : PageScan β} (h : ScanInv before key rows keep c s)
    {read more : List α} (hrows : rowsBeyond before key s.nextCursor rows = read ++ more)
    (hread : read ≠ []) (scanned : Nat) :
    ScanInv before key rows keep c
      { found := s.found ++ read.filterMap keep, nextCursor := cursorAfter key s.nextCursor read
        scanned, exhausted := false } where
  leads := h.leads.trans (leads_of_read hsorted keep hrows)
  left := fun _ => by
    have hmoves := leads_of_read hsorted keep hrows
    have hleft := cursorAfter_ne hrows hread
    by_cases hsame : s.nextCursor = c
    · rwa [← hsame]
    · exact h.leads.ne_trans hmoves hsame
  going := rfl

omit [IsStrictOrder HistoryCursor before] in
/-- When no rows are left, all has been found. -/
theorem ScanInv.all {c : Option HistoryCursor} {s : PageScan β}
    (h : ScanInv before key rows keep c s) {read : List α}
    (hrows : rowsBeyond before key s.nextCursor rows = read) :
    keptBeyond before key rows keep c = s.found ++ read.filterMap keep := by
  rw [h.leads.listed, keptBeyond, hrows]

/-- Rows that have been read are no longer ahead. -/
theorem length_rowsBeyond_lt (hsorted : rows.Pairwise fun a b => before (key a) (key b))
    {c : Option HistoryCursor} {read more : List α}
    (hrows : rowsBeyond before key c rows = read ++ more) (hread : read ≠ []) :
    (rowsBeyond before key (cursorAfter key c read) rows).length <
      (rowsBeyond before key c rows).length := by
  rw [rowsBeyond_cursorAfter hsorted hrows, hrows, List.length_append]
  have := List.length_pos_iff.mpr hread
  omega

variable {cursorOf : α → Option HistoryCursor} {limit : Nat} {full : PageScan β → Prop}

/-- A pass over stored edges. -/
theorem rawPage_spec (hsorted : rows.Pairwise fun a b => before (key a) (key b))
    (hcursor : ∀ row ∈ rows, cursorOf row = some (key row))
    (hfull : ∀ s : PageScan β, limit ≤ s.found.length → full s)
    {read : Option HistoryCursor → Nat → List α} {rawLimit : PageScan β → Nat}
    {c : Option HistoryCursor} {s : PageScan β} (h : ScanInv before key rows keep c s)
    (hroom : s.found.length < limit) (hpos : 0 < rawLimit s)
    (hread : read s.nextCursor (rawLimit s) =
      (rowsBeyond before key s.nextCursor rows).take (rawLimit s)) :
    PassSpec before key rows keep limit full c s (rawPage cursorOf keep limit read rawLimit s) := by
  have hsplit : rowsBeyond before key s.nextCursor rows =
      read s.nextCursor (rawLimit s) ++
        (rowsBeyond before key s.nextCursor rows).drop (rawLimit s) := by
    rw [hread, List.take_append_drop]
  unfold rawPage
  generalize hraw : read s.nextCursor (rawLimit s) = raw at hsplit hread
  have hmem : ∀ row ∈ raw, cursorOf row = some (key row) := fun row hrow =>
    hcursor row (List.mem_of_mem_filter (hsplit ▸ List.mem_append_left _ hrow))
  cases hempty : raw.isEmpty with
  | true =>
    -- an empty read: nothing is left
    have hnil : rowsBeyond before key s.nextCursor rows = [] := by
      rcases List.take_eq_nil_iff.mp (hread.symm.trans (List.isEmpty_iff.mp hempty)) with h | h
      · omega
      · exact h
    rw [if_pos hempty]
    refine Or.inr ⟨rfl, ?_⟩
    exact
      { nothingLeft := fun _ => ⟨by simpa using h.all hnil, hroom⟩
        pageLeads := fun hgoing => by cases hgoing }
  | false =>
    rw [if_neg (by simp [hempty])]
    obtain ⟨done, rest, hdone, hscan, hstop⟩ :=
      scanRows_spec keep limit hmem hroom s.nextCursor
    rw [hscan]
    dsimp only
    have hrows : rowsBeyond before key s.nextCursor rows =
        done ++ (rest ++ (rowsBeyond before key s.nextCursor rows).drop (rawLimit s)) := by
      rw [← List.append_assoc, ← hdone]
      exact hsplit
    rcases hstop with ⟨hlimit, hne⟩ | ⟨rfl, hroom'⟩
    · -- the page is full
      rw [decide_eq_false (not_lt.mpr hlimit), Bool.and_false, Bool.and_false]
      refine Or.inr ⟨rfl, ?_⟩
      exact
        { nothingLeft := fun hall => by cases hall
          pageLeads := fun _ => ⟨h.read hsorted hrows hne _, hfull _ hlimit⟩ }
    · rw [List.append_nil] at hdone
      subst hdone
      rw [decide_eq_true hroom', Bool.and_true, Bool.and_true]
      by_cases hshort : raw.length < rawLimit s
      · -- the last rows have been read
        have hall : rowsBeyond before key s.nextCursor rows = raw := by
          rw [hread, List.length_take] at hshort
          rw [hread, List.take_of_length_le (by omega)]
        rw [decide_eq_true hshort]
        refine Or.inr ⟨rfl, ?_⟩
        exact
          { nothingLeft := fun _ => ⟨h.all hall, hroom'⟩
            pageLeads := fun hgoing => by cases hgoing }
      · have hne : raw ≠ [] := fun hnil => by simp [hnil] at hempty
        rw [decide_eq_false hshort]
        refine Or.inl ⟨rfl, h.read hsorted hrows hne _, ?_⟩
        exact length_rowsBeyond_lt hsorted hrows hne

/-- A pass over the projection: the query reads some of the rows, and returns the
cursor of the last of them unless there are no others. -/
theorem projectionPage_spec (hsorted : rows.Pairwise fun a b => before (key a) (key b))
    (hcursor : ∀ row ∈ rows, cursorOf row = some (key row))
    (hfull : ∀ s : PageScan β, limit ≤ s.found.length → full s)
    {read : Option HistoryCursor → Nat → List α × Option HistoryCursor}
    {rawLimit : PageScan β → Nat} {c : Option HistoryCursor} {s : PageScan β}
    (h : ScanInv before key rows keep c s) (hroom : s.found.length < limit) {n : Nat}
    (hpos : 0 < n)
    (hread : (read s.nextCursor (rawLimit s)).1 =
      (rowsBeyond before key s.nextCursor rows).take n)
    (hnext : (read s.nextCursor (rawLimit s)).2 =
      if n < (rowsBeyond before key s.nextCursor rows).length then
        ((rowsBeyond before key s.nextCursor rows).take n).getLast?.map key
      else none) :
    PassSpec before key rows keep limit full c s
      (projectionPage cursorOf keep limit read rawLimit s) := by
  have hsplit : rowsBeyond before key s.nextCursor rows =
      (read s.nextCursor (rawLimit s)).1 ++
        (rowsBeyond before key s.nextCursor rows).drop n := by
    rw [hread, List.take_append_drop]
  unfold projectionPage
  generalize read s.nextCursor (rawLimit s) = result at hread hnext hsplit
  obtain ⟨raw, rawCursor⟩ := result
  dsimp only at hread hnext hsplit ⊢
  have hmem : ∀ row ∈ raw, cursorOf row = some (key row) := fun row hrow =>
    hcursor row (List.mem_of_mem_filter (hsplit ▸ List.mem_append_left _ hrow))
  cases hempty : raw.isEmpty with
  | true =>
    -- an empty read: nothing is left
    have hnil : rowsBeyond before key s.nextCursor rows = [] := by
      rcases List.take_eq_nil_iff.mp (hread.symm.trans (List.isEmpty_iff.mp hempty)) with h | h
      · omega
      · exact h
    rw [if_pos rfl]
    refine Or.inr ⟨rfl, ?_⟩
    exact
      { nothingLeft := fun _ => ⟨by simpa using h.all hnil, hroom⟩
        pageLeads := fun hgoing => by cases hgoing }
  | false =>
    rw [if_neg (by simp)]
    obtain ⟨done, rest, hdone, hscan, hstop⟩ :=
      scanRows_spec keep limit hmem hroom s.nextCursor
    rw [hscan]
    dsimp only
    have hrows : rowsBeyond before key s.nextCursor rows =
        done ++ (rest ++ (rowsBeyond before key s.nextCursor rows).drop n) := by
      rw [← List.append_assoc, ← hdone]
      exact hsplit
    rcases hstop with ⟨hlimit, hne⟩ | ⟨rfl, hroom'⟩
    · -- the page is full
      rw [if_pos hlimit]
      refine Or.inr ⟨rfl, ?_⟩
      exact
        { nothingLeft := fun hall => by cases hall
          pageLeads := fun _ => ⟨h.read hsorted hrows hne _, hfull _ hlimit⟩ }
    · rw [List.append_nil] at hdone
      subst hdone
      have hne : raw ≠ [] := fun hnil => by simp [hnil] at hempty
      rw [if_neg (not_le.mpr hroom')]
      split at hnext
      · -- the cursor of the query is that of the last row read
        have hlast : rawCursor = cursorAfter key s.nextCursor raw := by
          rw [hnext, ← hread, cursorAfter, List.getLast?_eq_some_getLast hne]
          rfl
        have hsome : rawCursor.isSome = true := by
          rw [hnext, ← hread, List.getLast?_eq_some_getLast hne]
          rfl
        rw [hsome, show rawCursor.isNone = false by simpa using hsome, hlast]
        refine Or.inl ⟨rfl, h.read hsorted hrows hne _, ?_⟩
        exact length_rowsBeyond_lt hsorted hrows hne
      · rename_i hlength
        -- the query has read all rows
        have hall : rowsBeyond before key s.nextCursor rows = raw := by
          rw [hread, List.take_of_length_le (by omega)]
        rw [hnext]
        refine Or.inr ⟨rfl, ?_⟩
        exact
          { nothingLeft := fun _ => ⟨h.all hall, hroom'⟩
            pageLeads := fun hgoing => by cases hgoing }

omit [IsStrictOrder HistoryCursor before] in
/-- A loop over pages ends, and as it should. -/
theorem pageLoop_spec {more : PageScan β → Bool} {body : PageScan β → PageScan β × Bool}
    {c : Option HistoryCursor} (hend : ∀ s : PageScan β, more s = false → full s)
    (hpass : ∀ s, ScanInv before key rows keep c s → more s = true →
      PassSpec before key rows keep limit full c s (body s)) {fuel : Nat}
    (hfuel : rows.length < fuel) :
    ∃ s, runLoop more body fuel (PageScan.start c) = some s ∧
      ScanDone before key rows keep limit full c s := by
  refine runLoop_spec (fun s : PageScan β => (rowsBeyond before key s.nextCursor rows).length)
    (fun s (hs : ScanInv before key rows keep c s) hgo => ?_)
    (fun s hs hstop => ?_) _ _ (scanInv_start c) ?_
  · rcases hpass s hs hgo with ⟨hon, hinv, hless⟩ | hlast
    · exact Or.inl ⟨hon, hinv, hless⟩
    · exact Or.inr hlast
  · exact
      { nothingLeft := fun hall => by rw [hs.going] at hall; cases hall
        pageLeads := fun _ => ⟨hs, hend s hstop⟩ }
  · exact (List.length_filter_le ..).trans_lt hfuel

omit [IsStrictOrder HistoryCursor before] in
/-- The page of a loop that is over is a right answer with the cursor reached, or
with none where nothing is left. -/
theorem ScanDone.answers {c : Option HistoryCursor} {s : PageScan β}
    (h : ScanDone before key rows keep limit full c s)
    (hmoved : full s → s.found ≠ [] ∨ 0 < s.scanned) {next : Option HistoryCursor}
    (hnone : s.exhausted = true → s.found.length < limit → next = none)
    (hsome : s.exhausted = false → full s → next = s.nextCursor) :
    Answers before (rows.map key) (keptBeyond before key rows keep) c s.found next := by
  cases hexhausted : s.exhausted with
  | true =>
    obtain ⟨hall, hroom⟩ := h.nothingLeft hexhausted
    rw [hnone hexhausted hroom]
    exact hall
  | false =>
    obtain ⟨hinv, hfull⟩ := h.pageLeads hexhausted
    rw [hsome hexhausted hfull]
    refine hinv.leads.answers ?_
    rcases hmoved hfull with hfound | hscanned
    · -- what has been found is not listed beyond the cursor any more
      intro hsame
      have hlisted := hinv.leads.listed
      rw [hsame] at hlisted
      exact hfound (List.append_left_eq_self.mp hlisted.symm)
    · exact hinv.left hscanned

omit [IsStrictOrder HistoryCursor before] in
/-- The page of a loop that also ends when it has read `cap` rows. -/
theorem ScanDone.capped_answers {cap : Nat} {c : Option HistoryCursor} {s : PageScan β}
    (h : ScanDone before key rows keep limit
      (fun s => limit ≤ s.found.length ∨ cap ≤ s.scanned) c s)
    (hlimit : 0 < limit) (hcap : 0 < cap) :
    Answers before (rows.map key) (keptBeyond before key rows keep) c s.found
      (if !s.exhausted ∧ (limit ≤ s.found.length ∨ cap ≤ s.scanned) then s.nextCursor
        else none) := by
  refine h.answers (fun hfull => ?_) (fun hall _ => if_neg ?_) fun hgoing hfull => if_pos ?_
  · rcases hfull with hfull | hfull
    · exact Or.inl fun hnil => by
        rw [hnil] at hfull
        exact absurd hfull (not_le.mpr hlimit)
    · exact Or.inr (hcap.trans_le hfull)
  · simp [hall]
  · exact ⟨by simp [hgoing], hfull⟩

/-- **A loop over stored rows** ends with a right answer, where every read returns
the rows that come next. -/
theorem rawLoop_answers (keep : α → Option β)
    (hsorted : rows.Pairwise fun a b => before (key a) (key b))
    (hcursor : ∀ row ∈ rows, cursorOf row = some (key row)) {cap maxLimit : Nat}
    {read : Option HistoryCursor → Nat → List α} {rawLimit : PageScan β → Nat}
    (hread : ∀ c n, 0 < n → n ≤ maxLimit → read c n = (rowsBeyond before key c rows).take n)
    (hraw : ∀ s : PageScan β, s.found.length < limit → s.scanned < cap →
      0 < rawLimit s ∧ rawLimit s ≤ maxLimit)
    (hlimit : 0 < limit) (hcap : 0 < cap) {fuel : Nat} (hfuel : rows.length < fuel)
    (c : Option HistoryCursor) :
    ∃ s, runLoop (fun s => s.found.length < limit && s.scanned < cap)
        (rawPage cursorOf keep limit read rawLimit) fuel (PageScan.start c) = some s ∧
      Answers before (rows.map key) (keptBeyond before key rows keep) c s.found
        (if !s.exhausted ∧ (limit ≤ s.found.length ∨ cap ≤ s.scanned) then s.nextCursor
          else none) := by
  obtain ⟨s, hs, hdone⟩ : ∃ s,
      runLoop (fun s => decide (s.found.length < limit) && decide (s.scanned < cap))
        (rawPage cursorOf keep limit read rawLimit) fuel (PageScan.start c) = some s ∧
      ScanDone before key rows keep limit (fun s => limit ≤ s.found.length ∨ cap ≤ s.scanned) c s := by
    refine pageLoop_spec (fun s hs => ?_) (fun s hinv hmore => ?_) hfuel
    · rw [Bool.and_eq_false_iff, decide_eq_false_iff_not, decide_eq_false_iff_not] at hs
      exact hs.imp not_lt.mp not_lt.mp
    · rw [Bool.and_eq_true, decide_eq_true_eq, decide_eq_true_eq] at hmore
      obtain ⟨hpos, hle⟩ := hraw s hmore.1 hmore.2
      exact rawPage_spec hsorted hcursor (fun _ h => Or.inl h) hinv hmore.1 hpos
        (hread s.nextCursor _ hpos hle)
  exact ⟨s, hs, hdone.capped_answers hlimit hcap⟩

end Loops

/-! ## Pages of edges -/

/-- Heard within a window. -/
def InWindow (fromMs toMs : Int) (edge : EdgeEvent) : Prop :=
  fromMs ≤ edge.heardAt ∧ edge.heardAt ≤ toMs

instance (fromMs toMs : Int) : DecidablePred (InWindow fromMs toMs) := fun edge => by
  unfold InWindow
  infer_instance

/-- The edges of a window in order. -/
def windowEdges (newestFirst : Bool) (db : Database) (fromMs toMs : Int) : List EdgeEvent :=
  selectRows newestFirst edgeCursor none (InWindow fromMs toMs) db.joinedEdges

section Edges

variable {newestFirst : Bool} {edges : List EdgeEvent} {shown : EdgeEvent → Prop}
  [DecidablePred shown]

/-- How an edge appears on a page: with its time, and the identifier of its pulse. -/
def edgeEntry (edge : EdgeEvent) : Int × String := (edge.heardAt, pulseID edge.id)

/-- The entries of the shown edges beyond a cursor. -/
def edgeListing (newestFirst : Bool) (edges : List EdgeEvent) (shown : EdgeEvent → Prop)
    [DecidablePred shown] (c : Option HistoryCursor) : List (Int × String) :=
  ((rowsBeyond (HistoryCursor.Before newestFirst) edgeCursor c edges).filter fun edge =>
    shown edge).map edgeEntry

theorem edgeListing_none : edgeListing newestFirst edges shown none =
    (edges.filter fun edge => shown edge).map edgeEntry := by
  rw [edgeListing, rowsBeyond_none]

theorem edgeListing_congr {shown' : EdgeEvent → Prop} [DecidablePred shown']
    (h : ∀ edge ∈ edges, shown edge ↔ shown' edge) :
    edgeListing newestFirst edges shown = edgeListing newestFirst edges shown' := by
  funext c
  unfold edgeListing
  congr 1
  refine List.filter_congr fun edge hedge => Bool.eq_iff_iff.mpr ?_
  rw [decide_eq_true_eq, decide_eq_true_eq, h edge (List.mem_of_mem_filter hedge)]

/-- The listing of some of the edges. -/
theorem edgeListing_filter (q : EdgeEvent → Prop) [DecidablePred q]
    (c : Option HistoryCursor) :
    edgeListing newestFirst (edges.filter fun edge => q edge) shown c =
      edgeListing newestFirst edges (fun edge => shown edge ∧ q edge) c := by
  unfold edgeListing
  rw [rowsBeyond_filter, List.filter_filter]
  congr 1
  refine List.filter_congr fun edge _ => Bool.eq_iff_iff.mpr ?_
  simp only [Bool.and_eq_true, decide_eq_true_eq]

/-- A right answer that is made from rows of edges lists edges. -/
theorem answers_edgeListing {α : Type} {β : Type} {key : α → HistoryCursor} {keep : α → Option β}
    (row : EdgeEvent → α) (view : β → Int × String)
    (hkey : ∀ edge ∈ edges, key (row edge) = edgeCursor edge)
    (hkeep : ∀ edge ∈ edges,
      (keep (row edge)).map view = if shown edge then some (edgeEntry edge) else none)
    {c next : Option HistoryCursor} {found : List β}
    (h : Answers (HistoryCursor.Before newestFirst) ((edges.map row).map key)
      (keptBeyond (HistoryCursor.Before newestFirst) key (edges.map row) keep) c found next) :
    Answers (HistoryCursor.Before newestFirst) (edges.map edgeCursor)
      (edgeListing newestFirst edges shown) c (found.map view) next := by
  have hpositions : (edges.map row).map key = edges.map edgeCursor := by
    rw [List.map_map]
    exact List.map_congr_left hkey
  have hlisting : (fun c => (keptBeyond (HistoryCursor.Before newestFirst) key (edges.map row) keep
      c).map view) = edgeListing newestFirst edges shown := by
    funext c
    unfold keptBeyond edgeListing
    rw [rowsBeyond_map hkey, List.filterMap_map, List.map_filterMap, ← List.filterMap_eq_filter,
      List.map_filterMap]
    refine List.filterMap_congr fun edge hedge => ?_
    refine (hkeep edge (List.mem_of_mem_filter hedge)).trans ?_
    by_cases hshown : shown edge <;> simp [hshown, Option.guard]
  rw [← hpositions, ← hlisting]
  exact h.map view

/-- The shown edges of a window, sorted after they have been picked. -/
theorem insertionSort_shown (newestFirst : Bool) (db : Database) (fromMs toMs : Int)
    (shown : EdgeEvent → Prop) [DecidablePred shown] :
    (db.joinedEdges.filter fun edge => InWindow fromMs toMs edge ∧ shown edge).insertionSort
        (rowOrder newestFirst edgeCursor) =
      (windowEdges newestFirst db fromMs toMs).filter fun edge => shown edge := by
  unfold windowEdges selectRows
  rw [filter_insertionSort rowOrder_total rowOrder_trans, List.filter_filter]
  congr 1
  refine List.filter_congr fun edge _ => Bool.eq_iff_iff.mpr ?_
  simp only [Bool.and_eq_true, decide_eq_true_eq]
  exact ⟨fun h => ⟨h.2, h.1, fun _ hc => by cases hc⟩, fun h => ⟨h.2.1, h.1⟩⟩

/-- Where every request is answered rightly, the pages show the edges of the window
in their order, each of them once. -/
theorem follow_windowEdges {ι : Type} {db : Database} (hids : db.RowIDs) {newestFirst : Bool}
    {fromMs toMs : Int} (shown : EdgeEvent → Prop) [DecidablePred shown] (view : ι → Int × String)
    (request : Nat → Option HistoryCursor → Option (List ι × Option HistoryCursor))
    (h : ∀ i c, ∃ page next, request i c = some (page, next) ∧
      Answers (HistoryCursor.Before newestFirst)
        ((windowEdges newestFirst db fromMs toMs).map edgeCursor)
        (edgeListing newestFirst (windowEdges newestFirst db fromMs toMs) shown) c (page.map view)
        next) :
    ∃ pages, follow request (db.edges.length + 1) 0 none = some pages ∧
      pages.flatten.map view =
        ((windowEdges newestFirst db fromMs toMs).filter fun edge => shown edge).map edgeEntry ∧
      (pages.flatten.map view).Nodup := by
  have hlength : ((windowEdges newestFirst db fromMs toMs).map edgeCursor).length ≤
      db.edges.length := by
    rw [List.length_map]
    exact (length_selectRows_le ..).trans (List.length_map _).le
  obtain ⟨pages, hpages, hlisted⟩ := follow_spec view request h (db.edges.length + 1) 0 none
    (Nat.lt_succ_of_le ((List.length_filter_le ..).trans hlength))
  rw [edgeListing_none] at hlisted
  refine ⟨pages, hpages, hlisted, hlisted ▸ ?_⟩
  have hsorted := hids.pairwise_selectRows newestFirst none (InWindow fromMs toMs)
  refine List.pairwise_map.mpr ((List.Pairwise.filter _ hsorted).imp fun {a b} hab heq => ?_)
  have hid : a.id = b.id := pulseID_inj (congrArg Prod.snd heq)
  have hheard : a.heardAt = b.heardAt := congrArg Prod.fst heq
  unfold HistoryCursor.Before HistoryCursor.Older edgeCursor at hab
  cases newestFirst <;> simp only [Bool.false_eq_true, if_true, if_false] at hab <;> omega

end Edges

/-! ## Rows of the projection -/

section Projection

variable [LiveEnv]

/-- What a read of the projection returns for an edge. -/
def projectedPath (edge : EdgeEvent) : PublicPacketPath :=
  scanPublicPacketPathProjection (pathRow edge)

/-- The place of a packet path among the rows. -/
def projectedKey (packet : PublicPacketPath) : HistoryCursor :=
  (publicPacketProjectionCursor packet).getD { heardAt := packet.heardAt, typeOrder := 2, id := 0 }

theorem heardAt_projectedPath (edge : EdgeEvent) : (projectedPath edge).heardAt = edge.heardAt :=
  congrArg HistoryCursor.heardAt (rowOf_insertPublicPacketPath edge).cursor

theorem id_projectedPath (edge : EdgeEvent) : (projectedPath edge).id = pulseID edge.id :=
  congrArg (fun cursor : HistoryCursor => pulseID cursor.id)
    (rowOf_insertPublicPacketPath edge).cursor

theorem publicPacketProjectionCursor_projectedPath {edge : EdgeEvent} (hid : 0 < edge.id) :
    publicPacketProjectionCursor (projectedPath edge) = some (edgeCursor edge) := by
  unfold publicPacketProjectionCursor
  rw [id_projectedPath, trimPrefix_pulseID, parseInt_toString, heardAt_projectedPath]
  dsimp only
  rw [if_neg (by omega)]
  rfl

theorem projectedKey_projectedPath {edge : EdgeEvent} (hid : 0 < edge.id) :
    projectedKey (projectedPath edge) = edgeCursor edge := by
  rw [projectedKey, publicPacketProjectionCursor_projectedPath hid, Option.getD_some]

variable {db : PathDatabase} {now : Int} {newestFirst : Bool} (p : EdgeEvent → Prop)
  [DecidablePred p]

/-- The rows of the projection, as edges in order. -/
theorem projectedRows_spec (hids : db.toDatabase.RowIDs) :
    (∀ edge ∈ selectRows newestFirst edgeCursor none p db.joinedEdges,
        projectedKey (projectedPath edge) = edgeCursor edge) ∧
      (∀ row ∈ (selectRows newestFirst edgeCursor none p db.joinedEdges).map projectedPath,
        publicPacketProjectionCursor row = some (projectedKey row)) ∧
      ((selectRows newestFirst edgeCursor none p db.joinedEdges).map projectedPath).Pairwise
        fun a b => HistoryCursor.Before newestFirst (projectedKey a) (projectedKey b) := by
  have hpos : ∀ edge ∈ selectRows newestFirst edgeCursor none p db.joinedEdges, 0 < edge.id :=
    fun edge hedge => hids.pos (mem_selectRows.mp hedge).1
  refine ⟨fun edge hedge => projectedKey_projectedPath (hpos edge hedge), fun row hrow => ?_, ?_⟩
  · obtain ⟨edge, hedge, rfl⟩ := List.mem_map.mp hrow
    rw [projectedKey_projectedPath (hpos edge hedge),
      publicPacketProjectionCursor_projectedPath (hpos edge hedge)]
  · refine List.pairwise_map.mpr ((hids.pairwise_selectRows newestFirst none p).imp_of_mem ?_)
    intro a b ha hb hab
    rwa [projectedKey_projectedPath (hpos a ha), projectedKey_projectedPath (hpos b hb)]

/-- A read of the projection where it is complete, as `projectionPage_spec` asks
for it. -/
theorem publicPacketPaths_read (hids : db.toDatabase.RowIDs) (hmade : db.ProjectionMade)
    {query : PublicPacketPathQuery} (hnewest : query.newestFirst = newestFirst)
    (hcondition : ∀ edge ∈ db.joinedEdges,
      PathDatabase.packetPathCondition now query (pathRow edge) ↔ p edge)
    (hcomplete : ∀ edge ∈ db.joinedEdges, p edge → ∃ row ∈ db.packetPaths, row.edgeID = edge.id)
    {rows : List PublicPacketPath}
    (hrows : rows = rowsBeyond (HistoryCursor.Before newestFirst) projectedKey query.cursor
      ((selectRows newestFirst edgeCursor none p db.joinedEdges).map projectedPath)) :
    (db.publicPacketPaths now query).1 =
        rows.take (PathDatabase.packetPathLimit query.limit) ∧
      (db.publicPacketPaths now query).2 =
        if PathDatabase.packetPathLimit query.limit < rows.length then
          (rows.take (PathDatabase.packetPathLimit query.limit)).getLast?.map projectedKey
        else none := by
  subst hnewest
  obtain ⟨hkey, -, -⟩ := projectedRows_spec p hids
  rw [rowsBeyond_map hkey] at hrows
  generalize hedges : rowsBeyond (HistoryCursor.Before query.newestFirst) edgeCursor query.cursor
    (selectRows query.newestFirst edgeCursor none p db.joinedEdges) = edges at hrows
  rw [PathDatabase.publicPacketPaths_eq hids.nodup hmade
    (fun edge hedge h => hcomplete edge hedge ((hcondition edge hedge).mp h))
    (hedges.symm.trans (congrArg _ (selectRows_congr hcondition none).symm)), hrows]
  generalize PathDatabase.packetPathLimit query.limit = n
  refine ⟨List.map_take, ?_⟩
  rw [← List.map_take, List.getLast?_map, Option.map_map, List.length_map]
  refine if_congr Iff.rfl (Option.map_congr fun edge hedge => ?_) rfl
  have hmem := List.mem_of_mem_take (List.mem_of_mem_getLast? hedge)
  exact (hkey edge (List.mem_of_mem_filter (hedges ▸ hmem))).symm

/-- **A loop over the projection** ends with a right answer, where the projection is
complete for the rows it asks for. -/
theorem projectionLoop_answers (hids : db.toDatabase.RowIDs) (hmade : db.ProjectionMade)
    (query : Option HistoryCursor → Nat → PublicPacketPathQuery)
    (hquery : ∀ c n, (query c n).newestFirst = newestFirst ∧ (query c n).cursor = c)
    (hcondition : ∀ c n, ∀ edge ∈ db.joinedEdges,
      PathDatabase.packetPathCondition now (query c n) (pathRow edge) ↔ p edge)
    (hcomplete : ∀ edge ∈ db.joinedEdges, p edge → ∃ row ∈ db.packetPaths, row.edgeID = edge.id)
    {β : Type} (keep : PublicPacketPath → Option β) (view : β → Int × String)
    (shown : EdgeEvent → Prop) [DecidablePred shown]
    (hkeep : ∀ edge, p edge →
      (keep (projectedPath edge)).map view = if shown edge then some (edgeEntry edge) else none)
    {limit cap : Nat} (hlimit : 0 < limit) (hcap : 0 < cap) (rawLimit : PageScan β → Nat)
    (c : Option HistoryCursor) :
    ∃ s, runLoop (fun s => s.found.length < limit && s.scanned < cap)
        (projectionPage publicPacketProjectionCursor keep limit
          (fun c n => db.publicPacketPaths now (query c n)) rawLimit)
        (db.packetPaths.length + 1) (PageScan.start c) = some s ∧
      Answers (HistoryCursor.Before newestFirst)
        ((selectRows newestFirst edgeCursor none p db.joinedEdges).map edgeCursor)
        (edgeListing newestFirst (selectRows newestFirst edgeCursor none p db.joinedEdges) shown) c
        (s.found.map view)
        (if !s.exhausted ∧ (limit ≤ s.found.length ∨ cap ≤ s.scanned) then s.nextCursor
          else none) := by
  obtain ⟨hkey, hcursor, hsorted⟩ := projectedRows_spec p hids
  have hfuel : ((selectRows newestFirst edgeCursor none p db.joinedEdges).map projectedPath).length
      < db.packetPaths.length + 1 := by
    have hrows := PathDatabase.selectRows_packetPaths hids.nodup hmade
      (fun edge hedge h => hcomplete edge hedge ((hcondition none 0 edge hedge).mp h)) newestFirst none
    have hlength := congrArg List.length hrows
    rw [selectRows_congr (hcondition none 0), List.length_map] at hlength
    rw [List.length_map, ← hlength]
    exact Nat.lt_succ_of_le (length_selectRows_le ..)
  have hloop : ∃ s, runLoop (fun s => decide (s.found.length < limit) && decide (s.scanned < cap))
        (projectionPage publicPacketProjectionCursor keep limit
          (fun c n => db.publicPacketPaths now (query c n)) rawLimit)
        (db.packetPaths.length + 1) (PageScan.start c) = some s ∧
      ScanDone (HistoryCursor.Before newestFirst) projectedKey
        ((selectRows newestFirst edgeCursor none p db.joinedEdges).map projectedPath) keep limit
        (fun s => limit ≤ s.found.length ∨ cap ≤ s.scanned) c s := by
    refine pageLoop_spec (fun s hs => ?_) (fun s hinv hmore => ?_) hfuel
    · rw [Bool.and_eq_false_iff, decide_eq_false_iff_not, decide_eq_false_iff_not] at hs
      exact hs.imp not_lt.mp not_lt.mp
    · rw [Bool.and_eq_true, decide_eq_true_eq, decide_eq_true_eq] at hmore
      obtain ⟨hnewest, hat⟩ := hquery s.nextCursor (rawLimit s)
      obtain ⟨hread, hnext⟩ := publicPacketPaths_read p hids hmade hnewest
        (hcondition s.nextCursor (rawLimit s)) hcomplete rfl
      rw [hat] at hread hnext
      exact projectionPage_spec hsorted hcursor (fun _ h => Or.inl h) hinv hmore.1
        (PathDatabase.packetPathLimit_pos _) hread hnext
  obtain ⟨s, hs, hdone⟩ := hloop
  refine ⟨s, hs, ?_⟩
  exact answers_edgeListing projectedPath view hkey
    (fun edge hedge => hkeep edge (mem_selectRows.mp hedge).2.1)
    (hdone.capped_answers hlimit hcap)

end Projection

end CartoLive.Api
