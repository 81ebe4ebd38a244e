import HerdrContext.Library.Outcome

/-! Parsers that continue from a stored outcome. If stopping and continuing
loses nothing of the state, then parsing records in consecutive chunks, with the
outcome stored between them, is parsing them at once. -/
namespace HerdrContext.Library

/-- A parser in four parts: what it reads first, how it continues from an
earlier outcome (unless it starts anew then), what it does with each further
record, and what it returns. -/
structure IncrementalParser (Record State Outcome Error : Type) where
  start : List Record → Except Error (State × List Record)
  resume : Outcome → Option (Except Error State)
  step : State → Record → Except Error State
  finish : State → Except Error Outcome

namespace IncrementalParser

variable {Record State Outcome Error : Type}

/-- Take the records one after another, until one is preceded by the sign to stop. -/
def feed (step : State → Record → Except Error State) (stopped : Nat → Bool) (stop : Error) :
    Nat → State → List Record → Except Error State
  | _, state, [] => .ok state
  | index, state, record :: rest =>
    if stopped index then .error stop
    else do
      let state ← step state record
      feed step stopped stop (index + 1) state rest

/-- Nobody asks to stop. -/
def never : Nat → Bool := fun _ => false

theorem feed_append (step : State → Record → Except Error State) (stop : Error)
    (index other : Nat) (state : State) (first rest : List Record) :
    feed step never stop index state (first ++ rest) =
      feed step never stop index state first >>= fun state =>
        feed step never stop other state rest := by
  induction first generalizing index state with
  | nil =>
    simp only [List.nil_append, feed, ok_bind]
    induction rest generalizing index other state with
    | nil => rfl
    | cons record rest ih =>
      simp only [feed, never, Bool.false_eq_true, if_false]
      congr 1
      funext state
      exact ih (other + 1) (index + 1) state
  | cons record first ih =>
    simp only [List.cons_append, feed, never, Bool.false_eq_true, if_false, bind_assoc]
    congr 1
    funext state
    exact ih (index + 1) state

/-- Parse chunk by chunk, storing the outcome in between; `none` if a stored
outcome cannot be restored. -/
def parseChunks (parse : Option Outcome → List Record → Except Error Outcome)
    (restore : Outcome → Option Outcome) :
    Option Outcome → List Record → List (List Record) → Option (Except Error Outcome)
  | previous, chunk, [] => some (parse previous chunk)
  | previous, chunk, next :: chunks =>
    match parse previous chunk with
    | .error error => some (.error error)
    | .ok outcome =>
      match restore outcome with
      | none => none
      | some outcome => parseChunks parse restore (some outcome) next chunks

variable (parser : IncrementalParser Record State Outcome Error)

def opening (previous : Option Outcome) (records : List Record) :
    Except Error (State × List Record) :=
  match previous.bind parser.resume with
  | none => parser.start records
  | some resumed => do
    let state ← resumed
    return (state, records)

def parse (stopped : Nat → Bool) (stop : Error) (previous : Option Outcome)
    (records : List Record) : Except Error Outcome := do
  let (state, records) ← parser.opening previous records
  let state ← feed parser.step stopped stop 0 state records
  parser.finish state

/-- A parser that was to be stopped and came to its end was not stopped. -/
theorem parse_never {stopped : Nat → Bool} {stop : Error} {previous : Option Outcome}
    {records : List Record} {outcome : Outcome}
    (h : parser.parse stopped stop previous records = .ok outcome) :
    parser.parse never stop previous records = .ok outcome := by
  have hfeed (unread : List Record) (index : Nat) (state next : State)
      (h : feed parser.step stopped stop index state unread = .ok next) :
      feed parser.step never stop index state unread = .ok next := by
    induction unread generalizing index state with
    | nil => exact h
    | cons record unread ih =>
      unfold feed at h ⊢
      split at h
      next => contradiction
      next =>
        have ⟨middle, hmiddle, hrest⟩ := bind_eq_ok_iff.mp h
        rw [if_neg (by simp [never]), hmiddle, ok_bind]
        exact ih (index + 1) middle hrest
  have ⟨⟨state, unread⟩, hopening, h⟩ := bind_eq_ok_iff.mp h
  have ⟨next, hnext, hfinished⟩ := bind_eq_ok_iff.mp h
  rw [parse, hopening, ok_bind]
  dsimp only
  rw [hfeed unread 0 state next hnext, ok_bind, hfinished]

/-- A parser that is not stopped fails as its parts do. -/
theorem failsOnly_parse {condition : Error → Prop} {stop : Error}
    (hstart : ∀ records, FailsOnly condition (parser.start records))
    (hresume : ∀ outcome, ∀ resumed ∈ parser.resume outcome, FailsOnly condition resumed)
    (hstep : ∀ state record, FailsOnly condition (parser.step state record))
    (hfinish : ∀ state, FailsOnly condition (parser.finish state))
    (previous : Option Outcome) (records : List Record) :
    FailsOnly condition (parser.parse never stop previous records) := by
  have hfeed (index : Nat) (state : State) (unread : List Record) :
      FailsOnly condition (feed parser.step never stop index state unread) := by
    induction unread generalizing index state with
    | nil => exact failsOnly_ok state
    | cons record unread ih =>
      simp only [feed, never, Bool.false_eq_true, if_false]
      exact (hstep state record).bind fun next _ => ih (index + 1) next
  have hopening : FailsOnly condition (parser.opening previous records) := by
    unfold opening
    split
    next => exact hstart records
    next resumed hresumed =>
      have ⟨outcome, _, houtcome⟩ := Option.bind_eq_some_iff.mp hresumed
      exact (hresume outcome resumed houtcome).bind fun state _ => failsOnly_ok (state, records)
  exact hopening.bind fun opened _ => (hfeed 0 opened.1 opened.2).bind fun next _ => hfinish next

/-- What the parts of a parser keep, its outcomes have, wherever it is stopped. -/
theorem parse_keeps {Good : Outcome → Prop} (Inv : State → Prop)
    (hstart : ∀ records state unread, parser.start records = .ok (state, unread) → Inv state)
    (hresume : ∀ outcome state, Good outcome → parser.resume outcome = some (.ok state) →
      Inv state)
    (hstep : ∀ state record next, Inv state → parser.step state record = .ok next → Inv next)
    (hfinish : ∀ state outcome, Inv state → parser.finish state = .ok outcome → Good outcome)
    {stopped : Nat → Bool} {stop : Error} {previous : Option Outcome} {records : List Record}
    {outcome : Outcome} (hprevious : ∀ earlier ∈ previous, Good earlier)
    (hparse : parser.parse stopped stop previous records = .ok outcome) : Good outcome := by
  have hfeed (unread : List Record) (index : Nat) (state next : State) (hinv : Inv state)
      (h : feed parser.step stopped stop index state unread = .ok next) : Inv next := by
    induction unread generalizing index state with
    | nil =>
      cases Except.ok.inj h
      exact hinv
    | cons record unread ih =>
      unfold feed at h
      split at h
      next => contradiction
      next =>
        have ⟨middle, hmiddle, hrest⟩ := bind_eq_ok_iff.mp h
        exact ih (index + 1) middle (hstep state record middle hinv hmiddle) hrest
  have ⟨⟨state, unread⟩, hopening, h⟩ := bind_eq_ok_iff.mp hparse
  have ⟨next, hnext, hfinished⟩ := bind_eq_ok_iff.mp h
  apply hfinish next outcome ?_ hfinished
  apply hfeed unread 0 state next ?_ hnext
  unfold opening at hopening
  split at hopening
  next => exact hstart records state unread hopening
  next resumed hresumed =>
    have ⟨earlier, hearlier, houtcome⟩ := Option.bind_eq_some_iff.mp hresumed
    have ⟨same, hsame, hpair⟩ := bind_eq_ok_iff.mp hopening
    cases Except.ok.inj hpair
    cases hsame
    exact hresume earlier state (hprevious earlier hearlier) houtcome

/-- What makes a parser insensitive to how its records are cut: `Inv` holds of
its states, `Fed` of those that have taken a record, and `Opens` of the records
that suffice to start. -/
structure Lawful (restore : Outcome → Option Outcome) (Inv Fed : State → Prop)
    (Opens : List Record → Prop) : Prop where
  start_append : ∀ first rest, Opens first → parser.start (first ++ rest) =
    parser.start first >>= fun opened => .ok (opened.1, opened.2 ++ rest)
  start_inv : ∀ records state unread, parser.start records = .ok (state, unread) → Inv state
  start_fed : ∀ records state, records ≠ [] → parser.start records = .ok (state, []) → Fed state
  step_inv : ∀ state record next, Inv state → parser.step state record = .ok next →
    Inv next ∧ Fed next
  finish_resume : ∀ state, Inv state → ∃ outcome, parser.finish state = .ok outcome ∧
    parser.resume outcome = some (.ok state)
  finish_restore : ∀ state outcome, Inv state → Fed state → parser.finish state = .ok outcome →
    restore outcome = some outcome

/-- An outcome of at least one record. -/
def Finished (Inv Fed : State → Prop) (outcome : Outcome) : Prop :=
  ∃ state, Inv state ∧ Fed state ∧ parser.finish state = .ok outcome

namespace Lawful

variable {parser} {restore : Outcome → Option Outcome} {Inv Fed : State → Prop}
  {Opens : List Record → Prop} {stop : Error}

theorem resume_finished (h : parser.Lawful restore Inv Fed Opens) {outcome : Outcome}
    (hfinished : parser.Finished Inv Fed outcome) :
    ∃ state, parser.resume outcome = some (.ok state) ∧ Inv state ∧ Fed state := by
  obtain ⟨state, hinv, hfed, hfinish⟩ := hfinished
  obtain ⟨same, hsame, hresume⟩ := h.finish_resume state hinv
  rw [hfinish] at hsame
  cases Except.ok.inj hsame
  exact ⟨state, hresume, hinv, hfed⟩

theorem inv_feed (h : parser.Lawful restore Inv Fed Opens) {index : Nat}
    {state next : State} {records : List Record} (hinv : Inv state)
    (hfeed : feed parser.step never stop index state records = .ok next) :
    Inv next ∧ (records ≠ [] ∨ Fed state → Fed next) := by
  induction records generalizing index state with
  | nil =>
    cases Except.ok.inj hfeed
    exact ⟨hinv, fun hfed => hfed.resolve_left (by simp)⟩
  | cons record records ih =>
    simp only [feed, never, Bool.false_eq_true, if_false] at hfeed
    obtain ⟨middle, hstep, hrest⟩ := bind_eq_ok_iff.mp hfeed
    obtain ⟨hmiddle, hfed⟩ := h.step_inv _ _ _ hinv hstep
    obtain ⟨hnext, hnextFed⟩ := ih hmiddle hrest
    exact ⟨hnext, fun _ => hnextFed (Or.inr hfed)⟩

theorem inv_opening (h : parser.Lawful restore Inv Fed Opens) {previous : Option Outcome}
    {records unread : List Record} {state : State}
    (hprevious : ∀ outcome ∈ previous, parser.Finished Inv Fed outcome)
    (hopening : parser.opening previous records = .ok (state, unread)) :
    Inv state ∧ (records ≠ [] → unread ≠ [] ∨ Fed state) := by
  cases previous with
  | none =>
    refine ⟨h.start_inv _ _ _ hopening, fun hrecords => ?_⟩
    by_cases hunread : unread = []
    · subst hunread
      exact Or.inr (h.start_fed _ _ hrecords hopening)
    · exact Or.inl hunread
  | some outcome =>
    obtain ⟨resumed, hresume, hinv, hfed⟩ := h.resume_finished (hprevious outcome rfl)
    simp only [opening, Option.bind_some, hresume, ok_bind, pure_eq_ok, Except.ok.injEq,
      Prod.mk.injEq] at hopening
    obtain ⟨rfl, -⟩ := hopening
    exact ⟨hinv, fun _ => Or.inr hfed⟩

/-- A parse of at least one record gives an outcome that can be stored. -/
theorem finished_parse (h : parser.Lawful restore Inv Fed Opens) {previous : Option Outcome}
    {records : List Record} {outcome : Outcome}
    (hprevious : ∀ outcome ∈ previous, parser.Finished Inv Fed outcome)
    (hrecords : records ≠ []) (hparse : parser.parse never stop previous records = .ok outcome) :
    parser.Finished Inv Fed outcome := by
  obtain ⟨⟨state, unread⟩, hopening, hparse⟩ := bind_eq_ok_iff.mp hparse
  obtain ⟨next, hfeed, hfinish⟩ := bind_eq_ok_iff.mp hparse
  obtain ⟨hinv, hunread⟩ := h.inv_opening hprevious hopening
  obtain ⟨hnext, hfed⟩ := h.inv_feed hinv hfeed
  exact ⟨next, hnext, hfed (hunread hrecords), hfinish⟩

theorem opening_append (h : parser.Lawful restore Inv Fed Opens) {previous : Option Outcome}
    {first : List Record} (rest : List Record)
    (hprevious : ∀ outcome ∈ previous, parser.Finished Inv Fed outcome)
    (hopens : previous = none → Opens first) :
    parser.opening previous (first ++ rest) =
      parser.opening previous first >>= fun opened => .ok (opened.1, opened.2 ++ rest) := by
  cases previous with
  | none => exact h.start_append first rest (hopens rfl)
  | some outcome =>
    obtain ⟨resumed, hresume, -⟩ := h.resume_finished (hprevious outcome rfl)
    simp only [opening, Option.bind_some, hresume, ok_bind, pure_eq_ok]

/-- Parsing on from the outcome of a first chunk is parsing both chunks. -/
theorem parse_append (h : parser.Lawful restore Inv Fed Opens) {previous : Option Outcome}
    {first : List Record} (rest : List Record)
    (hprevious : ∀ outcome ∈ previous, parser.Finished Inv Fed outcome)
    (hopens : previous = none → Opens first) :
    parser.parse never stop previous (first ++ rest) =
      parser.parse never stop previous first >>= fun outcome =>
        parser.parse never stop (some outcome) rest := by
  unfold parse
  rw [h.opening_append rest hprevious hopens]
  cases hopening : parser.opening previous first with
  | error error => rfl
  | ok opened =>
    obtain ⟨state, unread⟩ := opened
    have hinv := (h.inv_opening hprevious hopening).1
    simp only [ok_bind]
    rw [feed_append parser.step stop 0 0 state unread rest]
    cases hfeed : feed parser.step never stop 0 state unread with
    | error error => rfl
    | ok next =>
      obtain ⟨outcome, hfinish, hresume⟩ := h.finish_resume next (h.inv_feed hinv hfeed).1
      simp only [ok_bind, hfinish, opening, Option.bind_some, hresume, pure_eq_ok]

/-- However the records are cut, the outcome is that of parsing them at once. -/
theorem parseChunks_eq (h : parser.Lawful restore Inv Fed Opens) {previous : Option Outcome}
    {chunk : List Record} {chunks : List (List Record)}
    (hprevious : ∀ outcome ∈ previous, parser.Finished Inv Fed outcome)
    (hopens : previous = none → chunks ≠ [] → Opens chunk)
    (hchunk : chunk ≠ []) (hchunks : ∀ next ∈ chunks, next ≠ []) :
    parseChunks (parser.parse never stop) restore previous chunk chunks =
      some (parser.parse never stop previous (chunk ++ chunks.flatten)) := by
  induction chunks generalizing previous chunk with
  | nil => simp [parseChunks]
  | cons next chunks ih =>
    rw [List.flatten_cons, h.parse_append (next ++ chunks.flatten) hprevious
      fun hnone => hopens hnone (by simp)]
    unfold parseChunks
    cases hparse : parser.parse never stop previous chunk with
    | error error => rfl
    | ok outcome =>
      have hfinished := h.finished_parse hprevious hchunk hparse
      obtain ⟨state, hinv, hfed, hfinish⟩ := hfinished
      simp only [h.finish_restore state outcome hinv hfed hfinish, ok_bind]
      apply ih
      · intro other hother
        cases Option.mem_some_iff.mp hother
        exact ⟨state, hinv, hfed, hfinish⟩
      · intro hnone
        contradiction
      · exact hchunks next (by simp)
      · exact fun other hother => hchunks other (by simp [hother])

end Lawful

end IncrementalParser

end HerdrContext.Library
