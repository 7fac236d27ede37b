import CartoLive.Api.PublicEvents

/-!
# Paged event recovery in the browser

`recoverPublicEventPages` of `eventRecovery.ts`: fetch page after page behind a
cursor, hand every page to the caller, and stop when the cursor has caught up or
when the server demands a reset. One round of the loop is `recoverPageStep`; the
loop itself runs on fuel, since nothing bounds the pages a server may send.
-/

namespace CartoLive.Web

open CartoLive.Live CartoLive.Api

/-- `Number.MAX_SAFE_INTEGER`. -/
def maxSafeInteger : Int := 9007199254740991

/-- `finiteSequence` of a number. -/
def finiteSequence (value : Int) : Int := if 0 < value ∧ value ≤ maxSafeInteger then value else 0

/-- `Number(text)` of a text that is empty or decimal; any other text is not a
number and counts as zero in `finiteSequence`. -/
def decimalNumber (text : String) : Int :=
  if text.toList.all Char.isDigit then Nat.ofDigitChars 10 text.toList 0 else 0

inductive PublicEventRecoveryStatus
  | caughtUp
  | empty
  | resetRequired
  | unrecoverableGap
  | cancelled
  deriving DecidableEq

structure PublicEventRecoveryResult where
  status : PublicEventRecoveryStatus
  cursor : Int
  latestSeq : Int
  pages : Nat
  deriving DecidableEq

/-- The local variables of the loop. -/
structure RecoveryState where
  cursor : Int
  latestSeq : Int
  pages : Nat
  deriving DecidableEq

/-- The events of a response beyond the cursor, sorted. -/
def freshEvents (cursor : Int) (response : PublicEventsResponse) : List PublicEvent :=
  (response.events.filter fun event => cursor < finiteSequence event.seq).insertionSort
    fun left right => left.seq ≤ right.seq

/-- The cursor after a page. -/
def pageCursor (events : List PublicEvent) (response : PublicEventsResponse) : Int :=
  max (finiteSequence ((events.getLast?.map PublicEvent.seq).getD 0))
    (finiteSequence (decimalNumber response.nextCursor))

/-- One round of the loop, after the page has arrived: the events passed to
`applyPage`, and how the loop ends or goes on. -/
def recoverPageStep (st : RecoveryState) (response : PublicEventsResponse) :
    List PublicEvent × (PublicEventRecoveryResult ⊕ RecoveryState) :=
  let pages := st.pages + 1
  let responseLatestSeq := finiteSequence response.latestSeq
  if response.resetRequired then
    let status := if responseLatestSeq = 0 ∧ st.cursor = 0 then .empty else .resetRequired
    ([], .inl { status, cursor := st.cursor, latestSeq := responseLatestSeq, pages })
  else
    let latestSeq := max st.latestSeq responseLatestSeq
    let events := freshEvents st.cursor response
    if events = [] then
      let status :=
        if latestSeq ≤ st.cursor then (if st.cursor = 0 then .empty else .caughtUp)
        else .unrecoverableGap
      ([], .inl { status, cursor := st.cursor, latestSeq, pages })
    else
      let nextCursor := pageCursor events response
      if nextCursor ≤ st.cursor then
        (events, .inl { status := .unrecoverableGap, cursor := st.cursor, latestSeq, pages })
      else if latestSeq ≤ nextCursor then
        (events, .inl { status := .caughtUp, cursor := nextCursor, latestSeq, pages })
      else (events, .inr { cursor := nextCursor, latestSeq, pages })

/-- What a recovery has done when it returns: its result and the pages passed to
`applyPage`. -/
structure Recovery where
  result : PublicEventRecoveryResult
  applied : List (List PublicEvent)

variable {ε : Type} (fetchPage : Int → Int → Except ε PublicEventsResponse)
  (isActive : Nat → Bool) (limit : Int)

/-- The `while` loop; an error of `fetchPage` is thrown. -/
def recoverLoop : Nat → RecoveryState → List (List PublicEvent) → Option (Except ε Recovery)
  | 0, _, _ => none
  | fuel + 1, st, applied =>
    if !isActive st.pages then
      let result : PublicEventRecoveryResult :=
        { status := .cancelled, cursor := st.cursor, latestSeq := st.latestSeq, pages := st.pages }
      some (.ok { result, applied })
    else
      match fetchPage st.cursor limit with
      | .error e => some (.error e)
      | .ok response =>
        match recoverPageStep st response with
        | (events, .inl result) => some (.ok { result, applied := applied ++ [events] })
        | (events, .inr st') => recoverLoop fuel st' (applied ++ [events])

/-- `recoverPublicEventPages`. A page without events is recorded as an empty
page, although `applyPage` is not called for it. -/
def recoverPublicEventPages (fuel : Nat) (afterSeq : Int) (targetSeq : Option Int) :
    Option (Except ε Recovery) :=
  let cursor := max 0 afterSeq
  let latestSeq := max cursor (finiteSequence (targetSeq.getD 0))
  if targetSeq.isSome ∧ latestSeq ≤ cursor then
    let result : PublicEventRecoveryResult :=
      { status := if cursor = 0 then .empty else .caughtUp, cursor, latestSeq, pages := 0 }
    some (.ok { result, applied := [] })
  else recoverLoop fetchPage isActive limit fuel { cursor, latestSeq, pages := 0 } []

/-! ## Facts about one round -/

theorem finiteSequence_of_safe {value : Int} (h : value ≤ maxSafeInteger) :
    finiteSequence value = max 0 value := by
  unfold finiteSequence
  split <;> omega

theorem finiteSequence_of_beyond {value : Int} (h : maxSafeInteger < value) :
    finiteSequence value = 0 := by
  unfold finiteSequence
  rw [if_neg (by omega)]

/-- The printed cursor reads back as the number. -/
theorem decimalNumber_publicSeqCursor (seq : Int) :
    decimalNumber (publicSeqCursor seq) = max 0 seq := by
  unfold publicSeqCursor
  split
  · rename_i h
    rw [show decimalNumber "" = 0 from rfl]
    omega
  · rename_i h
    have hdigits : (Nat.repr seq.toNat).toList = Nat.toDigits 10 seq.toNat := by
      simp [Nat.repr]
    unfold decimalNumber
    rw [hdigits, if_pos, Nat.ofDigitChars_ten_toDigits]
    · omega
    · exact List.all_eq_true.mpr fun c hc => Nat.isDigit_of_mem_toDigits (by omega) (by omega) hc

/-- Fresh events of a page in increasing order: the safe ones beyond the cursor,
as they come. -/
theorem freshEvents_eq_filter {cursor : Int} {response : PublicEventsResponse}
    (h : response.events.Pairwise fun a b => a.seq < b.seq) :
    freshEvents cursor response =
      response.events.filter fun event => cursor < finiteSequence event.seq := by
  refine List.Pairwise.insertionSort_eq ?_
  exact (h.filter _).imp fun hlt => Int.le_of_lt hlt

section Round

variable {st : RecoveryState} {response : PublicEventsResponse}

/-- A round that is told to reset. -/
theorem recoverPageStep_reset (h : response.resetRequired = true) :
    recoverPageStep st response =
      ([], .inl
        { status := if finiteSequence response.latestSeq = 0 ∧ st.cursor = 0 then .empty
                    else .resetRequired
          cursor := st.cursor
          latestSeq := finiteSequence response.latestSeq
          pages := st.pages + 1 }) := by
  unfold recoverPageStep
  rw [if_pos h]

/-- A round without fresh events. -/
theorem recoverPageStep_nothing (h : response.resetRequired = false)
    (hnone : freshEvents st.cursor response = []) :
    recoverPageStep st response =
      ([], .inl
        { status :=
            if max st.latestSeq (finiteSequence response.latestSeq) ≤ st.cursor then
              (if st.cursor = 0 then .empty else .caughtUp)
            else .unrecoverableGap
          cursor := st.cursor
          latestSeq := max st.latestSeq (finiteSequence response.latestSeq)
          pages := st.pages + 1 }) := by
  simp only [recoverPageStep, h, hnone, if_true, Bool.false_eq_true, if_false]

/-- A round that moves the cursor over fresh events. -/
theorem recoverPageStep_some {next : Int} (h : response.resetRequired = false)
    (hsome : freshEvents st.cursor response ≠ [])
    (hnext : pageCursor (freshEvents st.cursor response) response = next)
    (hlt : st.cursor < next) :
    recoverPageStep st response =
      (freshEvents st.cursor response,
        if max st.latestSeq (finiteSequence response.latestSeq) ≤ next then
          .inl { status := .caughtUp, cursor := next,
                 latestSeq := max st.latestSeq (finiteSequence response.latestSeq)
                 pages := st.pages + 1 }
        else .inr { cursor := next
                    latestSeq := max st.latestSeq (finiteSequence response.latestSeq)
                    pages := st.pages + 1 }) := by
  simp only [recoverPageStep, h, hsome, hnext, Bool.false_eq_true, if_false,
    if_neg (by omega : ¬ next ≤ st.cursor)]
  split <;> rfl

end Round

end CartoLive.Web
