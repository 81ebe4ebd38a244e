import HerdrContext.Library.Transition
import Mathlib.Order.Nat

/-! A display kept current by explicit and by quiet polls that share one queue
slot, so that a newer poll supersedes an older one. -/
namespace HerdrContext.App

open Library

/-- What the sensor compares a quiet poll with, and the quiet poll it waits for. -/
structure PollSensor (F : Type) where
  fingerprint : Option F
  pending : Option Nat

/-- `awaited` is the poll whose result is still to come. -/
structure Display (S F : Type) where
  awaited : Option Nat
  requested : Nat
  loading : Bool
  failure : Bool
  snapshot : Option S
  sensor : Option (PollSensor F)

inductive PollOutcome (S : Type) where
  | found (snapshot : S)
  | cancelled
  | failed

inductive PollEvent (S : Type) where
  | ask (quiet accepted : Bool) (generation : Nat)
  /-- an explicit poll without a host to ask -/
  | unavailable
  | answer (generation : Nat) (outcome : PollOutcome S)
  /-- the sensor is switched on or off -/
  | configure (sensor : Bool)

namespace Display

variable {S F : Type} [DecidableEq F] (print : S → F)

def setPending (d : Display S F) (pending : Option Nat) : Display S F :=
  { d with sensor := d.sensor.map fun sensor => { sensor with pending } }

def isQuiet (d : Display S F) (generation : Nat) : Bool :=
  d.sensor.any (·.pending = some generation)

/-- The snapshot is what the sensor has seen last. -/
def isUnchanged (d : Display S F) (snapshot : S) : Bool :=
  d.sensor.any (·.fingerprint = some (print snapshot))

def drop (d : Display S F) : Display S F :=
  { d with loading := false, failure := true, snapshot := none }

def adopt (d : Display S F) (snapshot : S) : Display S F :=
  { d with
    loading := false
    failure := false
    snapshot := some snapshot
    sensor := d.sensor.map fun sensor => { sensor with fingerprint := some (print snapshot) } }

def ask (d : Display S F) (quiet accepted : Bool) (generation : Nat) : Display S F :=
  let asked := { d with
    requested := generation
    awaited := if accepted then some generation else d.awaited }
  if quiet then asked.setPending (some generation)
  else
    let asked := { asked with loading := true }.setPending none
    if accepted then asked else asked.drop

def answer (d : Display S F) (generation : Nat) (outcome : PollOutcome S) : Display S F :=
  let taken := { d with awaited := none }
  if generation < d.requested then taken
  else if d.isQuiet generation then
    let taken := taken.setPending none
    match outcome with
    | .found snapshot =>
      if d.isUnchanged print snapshot then { taken with loading := false }
      else taken.adopt print snapshot
    | _ => taken
  else
    match outcome with
    | .found snapshot => taken.adopt print snapshot
    | .cancelled => { taken with loading := false }
    | .failed => taken.drop

def apply (d : Display S F) : PollEvent S → Display S F
  | .ask quiet accepted generation => d.ask quiet accepted generation
  | .unavailable => { d with loading := false }
  | .answer generation outcome => d.answer print generation outcome
  | .configure on => { d with sensor := if on then some ⟨none, none⟩ else none }

section

variable {print} {d : Display S F} {generation : Nat} {outcome : PollOutcome S} {snapshot : S}

theorem answer_stale (h : generation < d.requested) :
    d.answer print generation outcome = { d with awaited := none } := by
  simp only [answer, if_pos h]

variable (h : d.requested ≤ generation)

include h

theorem answer_quiet_failed (hquiet : d.isQuiet generation = true)
    (houtcome : ∀ snapshot, outcome ≠ .found snapshot) :
    d.answer print generation outcome = ({ d with awaited := none } : Display S F).setPending none := by
  cases outcome with
  | found snapshot => exact absurd rfl (houtcome snapshot)
  | cancelled => simp only [answer, if_neg (Nat.not_lt.mpr h), if_pos hquiet]
  | failed => simp only [answer, if_neg (Nat.not_lt.mpr h), if_pos hquiet]

theorem answer_quiet_unchanged (hquiet : d.isQuiet generation = true)
    (hunchanged : d.isUnchanged print snapshot = true) :
    d.answer print generation (.found snapshot) =
      { ({ d with awaited := none } : Display S F).setPending none with loading := false } := by
  simp only [answer, if_neg (Nat.not_lt.mpr h), if_pos hquiet, if_pos hunchanged]

theorem answer_quiet_changed (hquiet : d.isQuiet generation = true)
    (hchanged : ¬ d.isUnchanged print snapshot = true) :
    d.answer print generation (.found snapshot) =
      (({ d with awaited := none } : Display S F).setPending none).adopt print snapshot := by
  simp only [answer, if_neg (Nat.not_lt.mpr h), if_pos hquiet, if_neg hchanged]

theorem answer_loud_found (hloud : ¬ d.isQuiet generation = true) :
    d.answer print generation (.found snapshot) =
      ({ d with awaited := none } : Display S F).adopt print snapshot := by
  simp only [answer, if_neg (Nat.not_lt.mpr h), if_neg hloud]

theorem answer_loud_cancelled (hloud : ¬ d.isQuiet generation = true) :
    d.answer print generation .cancelled = { d with awaited := none, loading := false } := by
  simp only [answer, if_neg (Nat.not_lt.mpr h), if_neg hloud]

theorem answer_loud_failed (hloud : ¬ d.isQuiet generation = true) :
    d.answer print generation .failed = ({ d with awaited := none } : Display S F).drop := by
  simp only [answer, if_neg (Nat.not_lt.mpr h), if_neg hloud]

end

/-- Generations grow, behind a poll that is awaited a newer one is not refused,
and only an awaited poll is answered. -/
def Admits (d : Display S F) : PollEvent S → Prop
  | .ask _ accepted generation => d.requested ≤ generation ∧
    (accepted = false → ∀ awaited ∈ d.awaited, generation ≤ awaited)
  | .answer generation _ => d.awaited = some generation
  | _ => True

def Step (d : Display S F) (event : PollEvent S) (d' : Display S F) : Prop :=
  d.Admits event ∧ d' = d.apply print event

/-! ## The baseline of the sensor -/

/-- What the sensor compares with is what is shown, and no failure is. -/
def Baseline (d : Display S F) : Prop :=
  ∀ sensor, d.sensor = some sensor → ∀ seen, sensor.fingerprint = some seen →
    d.failure = false ∧ ∃ shown, d.snapshot = some shown ∧ print shown = seen

/-- The sensor compares with nothing yet. -/
def Unseeded (d : Display S F) : Prop := ∀ sensor, d.sensor = some sensor → sensor.fingerprint = none

/-- An explicit poll does not fail or get refused behind a seeded sensor. -/
def KeepsBaseline (d : Display S F) : PollEvent S → Prop
  | .ask quiet accepted _ => quiet = false → accepted = false → d.Unseeded
  | .answer generation outcome =>
    d.isQuiet generation = false → (∀ snapshot, outcome ≠ .found snapshot) →
      outcome ≠ .cancelled → d.Unseeded
  | _ => True

variable {print} {d d' : Display S F} {event : PollEvent S}

omit [DecidableEq F] in
theorem Unseeded.baseline (h : d.Unseeded) : d.Baseline print := by
  intro sensor hsensor seen hseen
  rw [h sensor hsensor] at hseen
  contradiction

omit [DecidableEq F] in
theorem Baseline.congr (h : d.Baseline print) (hfailure : d'.failure = d.failure)
    (hsnapshot : d'.snapshot = d.snapshot)
    (hsensor : d'.sensor.map PollSensor.fingerprint = d.sensor.map PollSensor.fingerprint) :
    d'.Baseline print := by
  intro sensor' hsensor' seen hseen
  rw [hsensor', Option.map_some, eq_comm, Option.map_eq_some_iff] at hsensor
  obtain ⟨sensor, hsensor, heq⟩ := hsensor
  rw [hfailure, hsnapshot]
  exact h sensor hsensor seen (heq.trans hseen)

omit [DecidableEq F] in
theorem map_fingerprint_setPending (d : Display S F) (pending : Option Nat) :
    (d.setPending pending).sensor.map PollSensor.fingerprint =
      d.sensor.map PollSensor.fingerprint := by
  rw [setPending, Option.map_map]
  rfl

omit [DecidableEq F] in
theorem Unseeded.setPending (h : d.Unseeded) (pending : Option Nat) :
    (d.setPending pending).Unseeded := by
  intro sensor hsensor
  obtain ⟨before, hbefore, rfl⟩ := Option.map_eq_some_iff.mp hsensor
  exact h before hbefore

omit [DecidableEq F] in
theorem baseline_adopt (snapshot : S) : (d.adopt print snapshot).Baseline print := by
  intro sensor hsensor seen hseen
  obtain ⟨before, -, rfl⟩ := Option.map_eq_some_iff.mp hsensor
  exact ⟨rfl, snapshot, rfl, Option.some.inj hseen⟩

theorem Baseline.step (h : d.Baseline print) (hkeeps : d.KeepsBaseline event)
    (hstep : d.Step print event d') : d'.Baseline print := by
  obtain ⟨-, rfl⟩ := hstep
  cases event with
  | ask quiet accepted generation =>
    cases quiet with
    | true => exact h.congr rfl rfl (map_fingerprint_setPending d _)
    | false =>
      cases accepted with
      | true => exact h.congr rfl rfl (map_fingerprint_setPending d _)
      | false =>
        have hunseeded := (hkeeps rfl rfl).setPending none
        exact Unseeded.baseline hunseeded
  | unavailable => exact h.congr rfl rfl rfl
  | configure on =>
    refine Unseeded.baseline ?_
    cases on <;> simp [apply, Unseeded]
  | answer generation outcome =>
    simp only [apply, answer]
    split
    next => exact h.congr rfl rfl rfl
    next =>
      split
      next hquiet =>
        cases outcome with
        | found snapshot =>
          simp only
          split
          next => exact h.congr rfl rfl (map_fingerprint_setPending d _)
          next => exact baseline_adopt snapshot
        | cancelled => exact h.congr rfl rfl (map_fingerprint_setPending d _)
        | failed => exact h.congr rfl rfl (map_fingerprint_setPending d _)
      next hloud =>
        cases outcome with
        | found snapshot => exact baseline_adopt snapshot
        | cancelled => exact h.congr rfl rfl rfl
        | failed =>
          exact Unseeded.baseline (hkeeps (Bool.eq_false_iff.mpr hloud) (by simp) (by simp))

/-- With the baseline kept, a quiet poll that finds something leaves it shown,
or what it cannot tell from it, and no failure. -/
theorem Baseline.found (h : d.Baseline print) {generation : Nat} (snapshot : S)
    (hcurrent : d.requested ≤ generation) (hquiet : d.isQuiet generation = true) :
    (d.answer print generation (.found snapshot)).failure = false ∧
      ((d.answer print generation (.found snapshot)).snapshot = some snapshot ∨
        d.isUnchanged print snapshot = true ∧
          (d.answer print generation (.found snapshot)).snapshot = d.snapshot ∧
          ∃ shown, d.snapshot = some shown ∧ print shown = print snapshot) := by
  simp only [answer, if_neg (Nat.not_lt.mpr hcurrent), if_pos hquiet]
  split
  next hunchanged =>
    obtain ⟨sensor, hsensor, hseen⟩ := (Option.any_eq_true _ _).mp hunchanged
    obtain ⟨hfailure, hshown⟩ := h sensor hsensor _ (of_decide_eq_true hseen)
    exact ⟨hfailure, Or.inr ⟨hunchanged, rfl, hshown⟩⟩
  next => exact ⟨rfl, Or.inl rfl⟩

/-! ## Loading -/

/-- Only the poll requested last is awaited. -/
def Newest (d : Display S F) : Prop :=
  ∀ generation, d.awaited = some generation → generation = d.requested

/-- A loading display awaits the poll requested last. -/
structure Current (d : Display S F) : Prop where
  newest : d.Newest
  loading : d.loading = true → d.awaited ≠ none

/-- No quiet poll fails while the display is loading. -/
def ClearsLoading (d : Display S F) : PollEvent S → Prop
  | .answer generation outcome =>
    d.isQuiet generation = true → (∀ snapshot, outcome ≠ .found snapshot) → d.loading = false
  | _ => True

/-- Which answers leave the display loading. -/
theorem loading_answer {generation : Nat} (hcurrent : d.requested ≤ generation)
    (outcome : PollOutcome S) :
    (d.answer print generation outcome).loading = true ↔
      d.loading = true ∧ d.isQuiet generation = true ∧ ∀ snapshot, outcome ≠ .found snapshot := by
  simp only [answer, if_neg (Nat.not_lt.mpr hcurrent)]
  split
  next hquiet =>
    cases outcome with
    | found snapshot =>
      simp only
      split <;> simp [adopt]
    | cancelled => simp [hquiet, setPending]
    | failed => simp [hquiet, setPending]
  next hloud =>
    cases outcome <;> simp [hloud, adopt, drop]

omit [DecidableEq F] in
theorem awaited_ask (quiet accepted : Bool) (generation : Nat) :
    (d.ask quiet accepted generation).awaited =
      if accepted then some generation else d.awaited := by
  cases quiet <;> cases accepted <;> rfl

omit [DecidableEq F] in
theorem requested_ask (quiet accepted : Bool) (generation : Nat) :
    (d.ask quiet accepted generation).requested = generation := by
  cases quiet <;> cases accepted <;> rfl

theorem awaited_answer (generation : Nat) (outcome : PollOutcome S) :
    (d.answer print generation outcome).awaited = none := by
  simp only [answer]
  split
  next => rfl
  next =>
    split <;> cases outcome <;> simp only
    case isTrue.found => split <;> rfl
    all_goals rfl

theorem requested_answer (generation : Nat) (outcome : PollOutcome S) :
    (d.answer print generation outcome).requested = d.requested := by
  simp only [answer]
  split
  next => rfl
  next =>
    split <;> cases outcome <;> simp only
    case isTrue.found => split <;> rfl
    all_goals rfl

theorem Newest.step (h : d.Newest) (hstep : d.Step print event d') : d'.Newest := by
  obtain ⟨hadmits, rfl⟩ := hstep
  intro awaited hawaited
  cases event with
  | ask quiet accepted generation =>
    rw [apply, awaited_ask] at hawaited
    rw [apply, requested_ask]
    cases accepted with
    | true => exact (Option.some.inj hawaited).symm
    | false =>
      have hold := h awaited hawaited
      have hnew := hadmits.2 rfl awaited hawaited
      have hle := hadmits.1
      omega
  | unavailable => exact h awaited hawaited
  | configure on => exact h awaited hawaited
  | answer generation outcome =>
    rw [apply, awaited_answer] at hawaited
    contradiction

theorem Current.step (h : d.Current) (hclears : d.ClearsLoading event)
    (hstep : d.Step print event d') : d'.Current := by
  refine ⟨h.newest.step hstep, ?_⟩
  obtain ⟨hadmits, rfl⟩ := hstep
  intro hloading
  cases event with
  | ask quiet accepted generation =>
    rw [apply, awaited_ask]
    cases accepted with
    | true => simp
    | false =>
      cases quiet with
      | true => exact h.loading hloading
      | false => exact absurd hloading Bool.false_ne_true
  | unavailable => exact absurd hloading Bool.false_ne_true
  | configure on => exact h.loading hloading
  | answer generation outcome =>
    rw [apply, loading_answer (h.newest generation hadmits).ge] at hloading
    obtain ⟨hloading, hquiet, hfailed⟩ := hloading
    rw [hclears hquiet hfailed] at hloading
    contradiction

theorem Current.run {polls : List (PollEvent S)} (h : d.Current)
    (run : Run (fun d event d' => d.Step print event d' ∧ d.ClearsLoading event) d polls d') :
    d'.Current :=
  run.invariant Current h fun hcurrent hstep => hcurrent.step hstep.2 hstep.1

/-! ## Answers -/

/-- What the sensor compares with is shown, unless a failure is. -/
def Traced (print : S → F) (d : Display S F) : Prop :=
  ∀ sensor, d.sensor = some sensor → ∀ seen, sensor.fingerprint = some seen →
    d.failure = true ∨ ∃ shown, d.snapshot = some shown ∧ print shown = seen

omit [DecidableEq F] in
theorem Traced.congr (h : d.Traced print) (hfailure : d'.failure = d.failure)
    (hsnapshot : d'.snapshot = d.snapshot)
    (hsensor : d'.sensor.map PollSensor.fingerprint = d.sensor.map PollSensor.fingerprint) :
    d'.Traced print := by
  intro sensor' hsensor' seen hseen
  rw [hsensor', Option.map_some, eq_comm, Option.map_eq_some_iff] at hsensor
  obtain ⟨sensor, hsensor, heq⟩ := hsensor
  rw [hfailure, hsnapshot]
  exact h sensor hsensor seen (heq.trans hseen)

omit [DecidableEq F] in
theorem Baseline.traced (h : d.Baseline print) : d.Traced print :=
  fun sensor hsensor seen hseen => Or.inr (h sensor hsensor seen hseen).2

omit [DecidableEq F] in
theorem traced_of_failure (h : d.failure = true) : d.Traced print :=
  fun _ _ _ _ => Or.inl h

theorem Traced.step (h : d.Traced print) (hstep : d.Step print event d') : d'.Traced print := by
  obtain ⟨-, rfl⟩ := hstep
  cases event with
  | ask quiet accepted generation =>
    cases quiet with
    | true => exact h.congr rfl rfl (map_fingerprint_setPending d _)
    | false =>
      cases accepted with
      | true => exact h.congr rfl rfl (map_fingerprint_setPending d _)
      | false => exact traced_of_failure rfl
  | unavailable => exact h.congr rfl rfl rfl
  | configure on =>
    refine Baseline.traced (Unseeded.baseline ?_)
    cases on <;> simp [apply, Unseeded]
  | answer generation outcome =>
    simp only [apply, answer]
    split
    next => exact h.congr rfl rfl rfl
    next =>
      split
      next =>
        cases outcome with
        | found snapshot =>
          simp only
          split
          next => exact h.congr rfl rfl (map_fingerprint_setPending d _)
          next => exact (baseline_adopt snapshot).traced
        | cancelled => exact h.congr rfl rfl (map_fingerprint_setPending d _)
        | failed => exact h.congr rfl rfl (map_fingerprint_setPending d _)
      next =>
        cases outcome with
        | found snapshot => exact (baseline_adopt snapshot).traced
        | cancelled => exact h.congr rfl rfl rfl
        | failed => exact traced_of_failure rfl

/-- The polls that found something. -/
def found (events : List (PollEvent S)) : List (Nat × S) :=
  events.filterMap fun
    | .answer generation (.found snapshot) => some (generation, snapshot)
    | _ => none

section

variable {C : Type} (content : S → C)

/-- A poll requested as `generation` or later is being waited for, or has been
answered: by a failure that is shown, or by what it found. -/
def Answered (generation : Nat) (events : List (PollEvent S)) (d : Display S F) : Prop :=
  generation ≤ d.requested ∧
    (d.loading = true ∨ d.failure = true ∨
      ∃ poll ∈ found events, generation ≤ poll.1 ∧
        ∃ shown, d.snapshot = some shown ∧ content shown = content poll.2)

/-- No quiet poll fails while the display is loading or takes other contents for
what is shown, and no explicit poll is cancelled or goes without a host. -/
def Attentive (print : S → F) (d : Display S F) : PollEvent S → Prop
  | .answer generation outcome =>
    (d.isQuiet generation = true → (∀ snapshot, outcome ≠ .found snapshot) → d.loading = false) ∧
    (d.isQuiet generation = true → ∀ snapshot, outcome = .found snapshot →
      d.isUnchanged print snapshot = true → ∀ shown, d.snapshot = some shown →
        content shown = content snapshot) ∧
    (d.isQuiet generation = false → outcome ≠ .cancelled)
  | .unavailable => False
  | _ => True

variable {content} {generation : Nat} {events : List (PollEvent S)}

theorem Attentive.clearsLoading (h : d.Attentive content print event) : d.ClearsLoading event := by
  cases event with
  | answer generation outcome => exact h.1
  | ask => trivial
  | unavailable => trivial
  | configure => trivial

theorem found_concat (events : List (PollEvent S)) (generation : Nat) (snapshot : S) :
    found (events ++ [.answer generation (.found snapshot)]) =
      found events ++ [(generation, snapshot)] := by
  simp [found]

omit [DecidableEq F] in
theorem Answered.mono (h : d.Answered content generation events) (hrequested : d.requested ≤ d'.requested)
    (hloading : d'.loading = d.loading) (hfailure : d'.failure = d.failure)
    (hsnapshot : d'.snapshot = d.snapshot) (later : PollEvent S) :
    d'.Answered content generation (events ++ [later]) := by
  obtain ⟨hle, hanswered⟩ := h
  refine ⟨hle.trans hrequested, ?_⟩
  rw [hloading, hfailure, hsnapshot]
  refine hanswered.imp_right (Or.imp_right ?_)
  rintro ⟨poll, hpoll, hshown⟩
  refine ⟨poll, ?_, hshown⟩
  rw [found, List.filterMap_append]
  exact List.mem_append_left _ hpoll

theorem Answered.step (h : d.Answered content generation events) (hcurrent : d.Current)
    (htraced : d.Traced print) (hattentive : d.Attentive content print event)
    (hstep : d.Step print event d') : d'.Answered content generation (events ++ [event]) := by
  obtain ⟨hadmits, rfl⟩ := hstep
  have hle := h.1
  cases event with
  | ask quiet accepted other =>
    have hlater : d.requested ≤ (d.ask quiet accepted other).requested := by
      rw [requested_ask]
      exact hadmits.1
    cases quiet with
    | true => exact h.mono hlater rfl rfl rfl _
    | false =>
      cases accepted with
      | true => exact ⟨hle.trans hlater, Or.inl rfl⟩
      | false => exact ⟨hle.trans hlater, Or.inr (Or.inl rfl)⟩
  | unavailable => exact absurd hattentive id
  | configure on => exact h.mono le_rfl rfl rfl rfl _
  | answer other outcome =>
    obtain ⟨hfails, hsame, huncancelled⟩ := hattentive
    have hother : other = d.requested := hcurrent.newest other hadmits
    subst hother
    simp only [apply, answer, if_neg (lt_irrefl d.requested)]
    by_cases hquiet : d.isQuiet d.requested = true
    · rw [if_pos hquiet]
      cases outcome with
      | found snapshot =>
        by_cases hunchanged : d.isUnchanged print snapshot = true
        · simp only [if_pos hunchanged]
          refine ⟨hle, Or.inr ?_⟩
          obtain ⟨sensor, hsensor, hseen⟩ := (Option.any_eq_true _ _).mp hunchanged
          refine (htraced sensor hsensor _ (of_decide_eq_true hseen)).imp_right ?_
          rintro ⟨shown, hshown, -⟩
          refine ⟨(d.requested, snapshot), ?_, hle, shown, hshown,
            hsame hquiet snapshot rfl hunchanged shown hshown⟩
          rw [found_concat]
          simp
        · simp only [if_neg hunchanged]
          refine ⟨hle, Or.inr (Or.inr ⟨(d.requested, snapshot), ?_, hle, snapshot, rfl, rfl⟩)⟩
          rw [found_concat]
          simp
      | cancelled => exact h.mono le_rfl rfl rfl rfl _
      | failed => exact h.mono le_rfl rfl rfl rfl _
    · rw [if_neg hquiet]
      cases outcome with
      | found snapshot =>
        refine ⟨hle, Or.inr (Or.inr ⟨(d.requested, snapshot), ?_, hle, snapshot, rfl, rfl⟩)⟩
        rw [found_concat]
        simp
      | cancelled => exact absurd rfl (huncancelled (Bool.eq_false_iff.mpr hquiet))
      | failed => exact ⟨hle, Or.inr (Or.inl rfl)⟩

theorem Answered.run {polls : List (PollEvent S)} (h : d.Answered content generation events)
    (hcurrent : d.Current) (htraced : d.Traced print)
    (run : Run (fun d event d' => d.Step print event d' ∧ d.Attentive content print event) d polls
      d') : d'.Answered content generation (events ++ polls) := by
  refine (run.history (fun polls d => d.Answered content generation (events ++ polls) ∧ d.Current ∧
    d.Traced print) ⟨?_, hcurrent, htraced⟩ fun hinv hstep => ?_).1
  · rw [List.append_nil]
    exact h
  · obtain ⟨hanswered, hcurrent, htraced⟩ := hinv
    rw [← List.append_assoc]
    exact ⟨hanswered.step hcurrent htraced hstep.2 hstep.1,
      hcurrent.step hstep.2.clearsLoading hstep.1, htraced.step hstep.1⟩

end

end Display

end HerdrContext.App
