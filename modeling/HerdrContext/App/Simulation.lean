import HerdrContext.App.Steps

/-! Every step of the main loop does to the live rows what the display of
explicit and quiet polls does. -/
namespace HerdrContext.App

open Library Live Worker

variable {hash : List FingerprintInput → UInt64}

def LiveSnapshot.print (hash : List FingerprintInput → UInt64) (snapshot : LiveSnapshot) : UInt64 :=
  fingerprint hash snapshot.sessions

/-- What a poll came to. -/
def pollOutcome : Completion Output → PollOutcome LiveSnapshot
  | .success (.live (.ready snapshot)) => .found snapshot
  | .success (.live .cancelled) => .cancelled
  | _ => .failed

namespace Controller

/-- The live rows of the controller, with the poll the runtime still owes it. -/
def display (c : Controller) (awaited : Option Nat) : Display LiveSnapshot UInt64 where
  awaited
  requested := c.conversations.liveRequestedGeneration
  loading := c.conversations.liveLoading
  failure := c.conversations.liveError.isSome
  snapshot := c.liveSnapshot
  sensor := c.liveSensor.map fun sensor => ⟨sensor.fingerprint, sensor.pendingGeneration⟩

/-- The view shows the merge of what the controller holds. -/
def Rendered (c : Controller) : Prop := c.conversations.items = c.mergedConversations

end Controller

/-- What the books of the runtime say of the live job. -/
structure Books (history : List (Action JobKey Nat)) (c : Controller) (awaited : Option Nat) :
    Prop where
  awaited_iff : ∀ generation, awaited = some generation ↔ Awaited history c.liveKey generation
  accepted_le : ∀ generation, .accepted c.liveKey generation ∈ history →
    generation ≤ c.conversations.liveRequestedGeneration
  keyed : ∀ key generation, .accepted key generation ∈ history → key.kind = .conversationLive →
    key = c.liveKey
  bounded : c.conversations.liveRequestedGeneration ≤ WorkerRuntime.usizeMax

/-- From one state to another, the display goes through the events. -/
structure Follows (hash : List FingerprintInput → UInt64) (history : List (Action JobKey Nat))
    (c : Controller) (events : List (PollEvent LiveSnapshot)) (history' : List (Action JobKey Nat))
    (c' : Controller) : Prop where
  root : c'.root = c.root
  binary : c'.hostBinary = c.hostBinary
  rendered : c.Rendered → c'.Rendered
  books : ∀ awaited, Books history c awaited → ∃ awaited', Books history' c' awaited' ∧
    Run (Display.Step (LiveSnapshot.print hash)) (c.display awaited) events (c'.display awaited')

section

variable {history history' history'' : List (Action JobKey Nat)} {c c' c'' : Controller}
  {events events' : List (PollEvent LiveSnapshot)}

theorem Follows.trans (h : Follows hash history c events history' c')
    (h' : Follows hash history' c' events' history'' c'') :
    Follows hash history c (events ++ events') history'' c'' where
  root := h'.root.trans h.root
  binary := h'.binary.trans h.binary
  rendered := fun hrendered => h'.rendered (h.rendered hrendered)
  books := by
    intro awaited hbooks
    obtain ⟨awaited', hbooks', hrun⟩ := h.books awaited hbooks
    obtain ⟨awaited'', hbooks'', hrun'⟩ := h'.books awaited' hbooks'
    exact ⟨awaited'', hbooks'', hrun.trans hrun'⟩

/-- Histories that say the same of live jobs. -/
structure SameLive (history history' : List (Action JobKey Nat)) : Prop where
  accepted : ∀ key generation, key.kind = .conversationLive →
    (.accepted key generation ∈ history' ↔ .accepted key generation ∈ history)
  delivered : ∀ key generation, key.kind = .conversationLive →
    (.delivered key generation ∈ history' ↔ .delivered key generation ∈ history)

theorem SameLive.refl (history : List (Action JobKey Nat)) : SameLive history history :=
  ⟨fun _ _ _ => Iff.rfl, fun _ _ _ => Iff.rfl⟩

theorem liveKey_of_root (h : c'.root = c.root) : c'.liveKey = c.liveKey := by
  rw [Controller.liveKey, Controller.liveKey, h]

theorem SameLive.awaited (h : SameLive history history') {key : JobKey}
    (hkind : key.kind = .conversationLive) (generation : Nat) :
    Awaited history' key generation ↔ Awaited history key generation := by
  constructor
  · intro hawaited
    refine ⟨(h.accepted key _ hkind).mp hawaited.accepted, fun other hother => ?_,
      fun hdelivered => hawaited.undelivered ((h.delivered key _ hkind).mpr hdelivered)⟩
    exact hawaited.newest other ((h.accepted key _ hkind).mpr hother)
  · intro hawaited
    refine ⟨(h.accepted key _ hkind).mpr hawaited.accepted, fun other hother => ?_,
      fun hdelivered => hawaited.undelivered ((h.delivered key _ hkind).mp hdelivered)⟩
    exact hawaited.newest other ((h.accepted key _ hkind).mp hother)

theorem Books.congr {awaited : Option Nat} (h : Books history c awaited)
    (hlive : SameLive history history') (hroot : c'.root = c.root)
    (hrequested : c'.conversations.liveRequestedGeneration =
      c.conversations.liveRequestedGeneration) : Books history' c' awaited := by
  have hkey := liveKey_of_root hroot
  refine ⟨?_, ?_, ?_, ?_⟩
  · intro generation
    rw [h.awaited_iff, hkey, hlive.awaited rfl]
  · intro generation hmem
    rw [hrequested]
    rw [hkey] at hmem
    exact h.accepted_le generation ((hlive.accepted _ _ rfl).mp hmem)
  · intro key generation hmem hkind
    rw [hkey]
    exact h.keyed key generation ((hlive.accepted _ _ hkind).mp hmem) hkind
  · rw [hrequested]
    exact h.bounded

/-- A step that leaves the live rows alone. -/
theorem follows_same (hlive : SameLive history history') (hroot : c'.root = c.root)
    (hbinary : c'.hostBinary = c.hostBinary) (hrendered : c.Rendered → c'.Rendered)
    (hdisplay : ∀ awaited, c'.display awaited = c.display awaited) :
    Follows hash history c [] history' c' := by
  refine ⟨hroot, hbinary, hrendered, fun awaited hbooks => ⟨awaited, ?_, ?_⟩⟩
  · exact hbooks.congr hlive hroot (congrArg Display.requested (hdisplay awaited))
  · rw [hdisplay]
    exact .refl

theorem actions_submitted (key : JobKey) (generation : Nat) (status : SubmitStatus) :
    (Event.submitted key generation status : Event Output).actions =
      if status.accepted then [.accepted key generation] else [] := by
  cases status <;> rfl

/-- A submission of another kind. -/
theorem sameLive_submitted (history : List (Action JobKey Nat)) {key : JobKey}
    (hkind : key.kind ≠ .conversationLive) (generation : Nat) (status : SubmitStatus) :
    SameLive history
      (history ++ (Event.submitted key generation status : Event Output).actions) := by
  rw [actions_submitted]
  refine ⟨fun other otherGeneration hother => ?_, fun other otherGeneration hother => ?_⟩
  · have hne : other ≠ key := fun heq => hkind (heq ▸ hother)
    cases status.accepted <;> simp [hne]
  · cases status.accepted <;> simp

end

/-! ## Showing live rows -/

section

variable (c : Controller) (awaited : Option Nat)

theorem display_setLiveGenerations (requested applied : Nat) :
    (c.setLiveGenerations requested applied).display awaited =
      { c.display awaited with requested } := rfl

theorem display_setLiveLoading (loading : Bool) :
    (c.setLiveLoading loading).display awaited = { c.display awaited with loading } := rfl

theorem display_forgetPending :
    c.forgetPending.display awaited = (c.display awaited).setPending none := by
  cases hsensor : c.liveSensor <;>
    simp [Controller.display, Controller.forgetPending, Display.setPending, hsensor]

theorem display_armQuiet {sensor : LiveSensor} (hsensor : c.liveSensor = some sensor)
    (generation clock : Nat) :
    (c.armQuiet sensor generation clock).display awaited =
      ({ c.display awaited with requested := generation } : Display LiveSnapshot UInt64).setPending
        (some generation) := by
  simp [Controller.display, Controller.armQuiet, Controller.setLiveGenerations, Display.setPending,
    hsensor]

theorem display_markLoading (generation : Nat) :
    (c.markLoading generation).display awaited =
      ({ c.display awaited with requested := generation, loading := true } :
        Display LiveSnapshot UInt64).setPending none :=
  display_forgetPending _ awaited

theorem display_syncAndBackOff (requested generation clock : Nat) :
    (c.syncAndBackOff requested generation clock).display awaited =
      { c.display awaited with requested } := by
  cases hsensor : c.liveSensor <;>
    simp [Controller.display, Controller.syncAndBackOff, Controller.setLiveGenerations,
      LiveSensor.armBackoff, hsensor]

end

section

variable (c : Controller) {generation : Nat}

theorem rendered_showLive (h : c.conversations.liveRequestedGeneration ≤ generation) :
    (c.showLive generation).1.Rendered := by
  simp only [Controller.showLive, ConversationsViewState.replaceLiveItems,
    if_neg (Nat.not_lt.mpr h)]
  rfl

theorem display_showLive (h : c.conversations.liveRequestedGeneration ≤ generation)
    (awaited : Option Nat) :
    (c.showLive generation).1.display awaited = { c.display awaited with loading := false } := by
  simp only [Controller.showLive, ConversationsViewState.replaceLiveItems,
    if_neg (Nat.not_lt.mpr h)]
  rfl

theorem rendered_dropLive (h : c.conversations.liveRequestedGeneration ≤ generation)
    (reason : String) : (c.dropLive reason generation).1.Rendered :=
  rendered_showLive _ h

theorem display_dropLive (h : c.conversations.liveRequestedGeneration ≤ generation)
    (reason : String) (awaited : Option Nat) :
    (c.dropLive reason generation).1.display awaited = (c.display awaited).drop :=
  display_showLive (({ c with liveSnapshot := none } : Controller).setLiveError (some reason)) h
    awaited

end

/-! ## Scheduling -/

section

variable {only : Event Output → Prop}

/-- What a handler comes to, whatever the runtime answers. -/
def Does {α : Type} (only : Event Output → Prop) (handler : Handler α)
    (history : List (Action JobKey Nat)) (post : α → List (Action JobKey Nat) → Prop) : Prop :=
  handler.Ensures Event.actions
    (fun history job event status => Allowed history job event status ∧ only event) post history

theorem does_submit {α : Type} {job : Job Output} {next : SubmitStatus → α}
    {history : List (Action JobKey Nat)} {post : α → List (Action JobKey Nat) → Prop}
    (h : ∀ status, Allowed history job (.submitted job.key job.generation status) status →
      only (.submitted job.key job.generation status) →
      post (next status)
        (history ++ (Event.submitted job.key job.generation status : Event Output).actions)) :
    Does only ((submit job).bind fun status => .done (next status)) history post := by
  rintro event status ⟨hallowed, honly⟩
  have hevent := hallowed.submitted
  subst hevent
  exact h status hallowed honly

theorem follows_page (history : List (Action JobKey Nat)) (c : Controller) (showLoading : Bool) :
    Does only (c.scheduleConversationPage showLoading) history fun c' history' =>
      Follows hash history c [] history' c' := by
  refine does_submit fun status _ _ => ?_
  refine follows_same (sameLive_submitted history (by simp [Controller.pageJob,
    Controller.pageKey, JobKey.new]) _ _) ?_ ?_ ?_ ?_
  all_goals cases showLoading <;> cases status <;> first | rfl | exact id | exact fun _ => rfl

/-- How asking for a poll can go. -/
inductive Asked (only : Event Output → Prop) (c : Controller) (quiet : Bool) :
    List (PollEvent LiveSnapshot) → Prop where
  | unavailable (binary : c.hostBinary = none) (loud : quiet = false) :
    Asked only c quiet [.unavailable]
  | ask (accepted : Bool) (generation : Nat)
    (refused : accepted = false →
      ∃ status, status.accepted = false ∧ only (.submitted c.liveKey generation status)) :
    Asked only c quiet [.ask quiet accepted generation]

theorem books_ask {history : List (Action JobKey Nat)} {c c' : Controller} {awaited : Option Nat}
    {status : SubmitStatus} {generation : Nat}
    (hgeneration : generation = WorkerRuntime.saturatingAdd c.conversations.liveRequestedGeneration 1)
    (hallowed : Allowed history (c.liveJob generation) (.submitted c.liveKey generation status) status)
    (hroot : c'.root = c.root)
    (hrequested : c'.conversations.liveRequestedGeneration = generation)
    (h : Books history c awaited) :
    Books (history ++ (Event.submitted c.liveKey generation status : Event Output).actions) c'
      (if status.accepted then some generation else awaited) := by
  have hkey := liveKey_of_root hroot
  have hle : c.conversations.liveRequestedGeneration ≤ generation := by
    rw [hgeneration]
    exact WorkerRuntime.le_saturatingAdd h.bounded
  have hbounded : generation ≤ WorkerRuntime.usizeMax := by
    rw [hgeneration, WorkerRuntime.saturatingAdd]
    omega
  rw [actions_submitted]
  cases haccepted : status.accepted with
  | false =>
    rw [if_neg Bool.false_ne_true, if_neg Bool.false_ne_true, List.append_nil]
    refine ⟨?_, ?_, ?_, ?_⟩
    · rw [hkey]
      exact h.awaited_iff
    · intro other hother
      rw [hkey] at hother
      rw [hrequested]
      exact (h.accepted_le other hother).trans hle
    · rw [hkey]
      exact h.keyed
    · rw [hrequested]
      exact hbounded
  | true =>
    rw [if_pos rfl, if_pos rfl]
    have hnew : Awaited (history ++ [.accepted c.liveKey generation]) c.liveKey generation := by
      refine ⟨by simp, fun other hother => ?_, fun hdelivered => ?_⟩
      · rcases List.mem_append.mp hother with hother | hother
        · exact (h.accepted_le other hother).trans hle
        · cases List.mem_singleton.mp hother
          exact le_rfl
      · rcases List.mem_append.mp hdelivered with hdelivered | hdelivered
        · exact hallowed.fresh haccepted hdelivered
        · cases List.mem_singleton.mp hdelivered
    refine ⟨?_, ?_, ?_, ?_⟩
    · intro other
      rw [hkey]
      constructor
      · intro hother
        rw [← Option.some.inj hother]
        exact hnew
      · intro hother
        rw [le_antisymm (hother.newest _ hnew.accepted) (hnew.newest _ hother.accepted)]
    · intro other hother
      rw [hkey] at hother
      rw [hrequested]
      exact hnew.newest other hother
    · intro key other hother hkind
      rw [hkey]
      rcases List.mem_append.mp hother with hother | hother
      · exact h.keyed key other hother hkind
      · cases List.mem_singleton.mp hother
        rfl
    · rw [hrequested]
      exact hbounded

theorem follows_ask {history : List (Action JobKey Nat)} {c c' : Controller}
    {status : SubmitStatus} {generation : Nat} {quiet : Bool}
    (hgeneration : generation = WorkerRuntime.saturatingAdd c.conversations.liveRequestedGeneration 1)
    (hallowed : Allowed history (c.liveJob generation) (.submitted c.liveKey generation status) status)
    (hroot : c'.root = c.root) (hbinary : c'.hostBinary = c.hostBinary)
    (hrendered : c.Rendered → c'.Rendered)
    (hdisplay : ∀ awaited, c'.display (if status.accepted then some generation else awaited) =
      (c.display awaited).ask quiet status.accepted generation) :
    Follows hash history c [.ask quiet status.accepted generation]
      (history ++ (Event.submitted c.liveKey generation status : Event Output).actions) c' := by
  refine ⟨hroot, hbinary, hrendered, fun awaited hbooks =>
    ⟨if status.accepted then some generation else awaited, ?_, ?_⟩⟩
  · refine books_ask hgeneration hallowed hroot ?_ hbooks
    have hrequested := congrArg Display.requested (hdisplay awaited)
    rwa [Display.requested_ask] at hrequested
  · refine Run.single ⟨⟨?_, ?_⟩, hdisplay awaited⟩
    · rw [hgeneration]
      exact WorkerRuntime.le_saturatingAdd hbooks.bounded
    · intro hrefused other hother
      by_contra hlt
      have hawaited := (hbooks.awaited_iff other).mp hother
      have hstatus := hallowed.coalesced other hawaited (Nat.lt_of_not_le hlt)
      rw [hstatus] at hrefused
      contradiction

theorem follows_askQuiet (history : List (Action JobKey Nat)) {c : Controller}
    {sensor : LiveSensor} (hsensor : c.liveSensor = some sensor) {generation : Nat}
    (hgeneration : generation = WorkerRuntime.saturatingAdd c.conversations.liveRequestedGeneration 1)
    (clock : Nat) :
    Does only (c.askQuiet sensor generation clock) history fun c' history' =>
      ∃ events, Asked only c true events ∧ Follows hash history c events history' c' := by
  refine does_submit fun status hallowed honly =>
    ⟨_, .ask status.accepted generation fun hrefused => ⟨status, hrefused, honly⟩, ?_⟩
  refine follows_ask hgeneration hallowed ?_ ?_ ?_ ?_
  · cases status <;> rfl
  · cases status <;> rfl
  · intro hrendered
    cases status <;> exact hrendered
  · intro awaited
    cases haccepted : status.accepted with
    | true => exact display_armQuiet c (some generation) hsensor generation clock
    | false =>
      rw [if_neg Bool.false_ne_true, if_neg Bool.false_ne_true, display_syncAndBackOff,
        display_armQuiet c awaited hsensor]
      rfl

theorem follows_askLoud (history : List (Action JobKey Nat)) {c : Controller} {generation : Nat}
    (hgeneration : generation =
      WorkerRuntime.saturatingAdd c.conversations.liveRequestedGeneration 1) :
    Does only (c.askLoud generation) history fun c' history' =>
      ∃ events, Asked only c false events ∧ Follows hash history c events history' c' := by
  refine does_submit fun status hallowed honly =>
    ⟨_, .ask status.accepted generation fun hrefused => ⟨status, hrefused, honly⟩, ?_⟩
  refine follows_ask hgeneration hallowed ?_ ?_ ?_ ?_
  · cases status <;> rfl
  · cases status <;> rfl
  · intro hrendered
    cases haccepted : status.accepted with
    | true => exact hrendered
    | false =>
      rw [if_neg Bool.false_ne_true]
      exact rendered_dropLive _ le_rfl _
  · intro awaited
    cases haccepted : status.accepted with
    | true => exact display_markLoading c (some generation) generation
    | false =>
      have hdropped := display_dropLive (c.markLoading generation) le_rfl
        "Herdr live session queue is unavailable" awaited
      rw [display_markLoading] at hdropped
      exact hdropped

theorem follows_poll (history : List (Action JobKey Nat)) (c : Controller) (quiet : Bool)
    (clock : Nat) (hquiet : quiet = true → c.hostBinary ≠ none ∧ c.liveSensor ≠ none) :
    Does only (c.scheduleLivePoll quiet clock) history fun c' history' =>
      ∃ events, Asked only c quiet events ∧ Follows hash history c events history' c' := by
  unfold Controller.scheduleLivePoll
  cases hbinary : c.hostBinary with
  | none =>
    cases quiet with
    | true => exact absurd hbinary (hquiet rfl).1
    | false =>
      exact ⟨[.unavailable], .unavailable hbinary rfl, rfl, rfl, id, fun awaited hbooks =>
        ⟨awaited, hbooks.congr (.refl history) rfl rfl, Run.single ⟨trivial, rfl⟩⟩⟩
  | some binary =>
    cases quiet with
    | true =>
      cases hsensor : c.liveSensor with
      | none => exact absurd hsensor (hquiet rfl).2
      | some sensor => exact follows_askQuiet history hsensor rfl clock
    | false => exact follows_askLoud history rfl

end

/-! ## Answers -/

section

variable {only : Event Output → Prop} {history : List (Action JobKey Nat)} {c : Controller}
  {generation : Nat}

theorem isQuiet_display (c : Controller) (awaited : Option Nat) (generation : Nat) :
    (c.display awaited).isQuiet generation = c.isPendingSensor generation := by
  cases hsensor : c.liveSensor <;>
    simp [Controller.display, Display.isQuiet, Controller.isPendingSensor, hsensor]

theorem isUnchanged_display (c : Controller) (awaited : Option Nat) (snapshot : LiveSnapshot) :
    (c.display awaited).isUnchanged (LiveSnapshot.print hash) snapshot =
      c.isUnchanged hash snapshot := by
  cases hsensor : c.liveSensor with
  | none => simp [Controller.display, Display.isUnchanged, Controller.isUnchanged, hsensor]
  | some sensor =>
    simp only [Controller.display, Display.isUnchanged, Controller.isUnchanged, hsensor,
      Option.map_some, Option.any_some]
    exact decide_eq_decide.mpr Iff.rfl

theorem isUnchanged_forgetPending (c : Controller) (snapshot : LiveSnapshot) :
    c.forgetPending.isUnchanged hash snapshot = c.isUnchanged hash snapshot := by
  cases hsensor : c.liveSensor <;>
    simp [Controller.isUnchanged, Controller.forgetPending, hsensor]

theorem rendered_adoptSnapshot (c : Controller) (snapshot : LiveSnapshot) (clock : Nat)
    (h : c.conversations.liveRequestedGeneration ≤ generation) :
    (c.adoptSnapshot hash snapshot generation clock).1.Rendered :=
  rendered_showLive _ h

theorem display_adoptSnapshot (c : Controller) (snapshot : LiveSnapshot) (clock : Nat)
    (h : c.conversations.liveRequestedGeneration ≤ generation) (awaited : Option Nat) :
    (c.adoptSnapshot hash snapshot generation clock).1.display awaited =
      (c.display awaited).adopt (LiveSnapshot.print hash) snapshot := by
  have hshown := display_showLive (({ c.seedLiveBaseline hash snapshot clock with
    liveSnapshot := some snapshot } : Controller).setLiveError none) h awaited
  rw [Controller.adoptSnapshot, hshown]
  cases hsensor : c.liveSensor <;>
    simp [Controller.display, Controller.seedLiveBaseline, Controller.setLiveError,
      ConversationsViewState.setLiveError, Display.adopt, LiveSnapshot.print, LiveSensor.armReset,
      hsensor]

theorem follows_answer {c' : Controller} {outcome : PollOutcome LiveSnapshot}
    (hawaited : Awaited history c.liveKey generation) (hroot : c'.root = c.root)
    (hbinary : c'.hostBinary = c.hostBinary) (hrendered : c.Rendered → c'.Rendered)
    (hdisplay : c'.display none =
      (c.display (some generation)).answer (LiveSnapshot.print hash) generation outcome) :
    Follows hash history c [.answer generation outcome]
      (history ++ [.delivered c.liveKey generation]) c' := by
  refine ⟨hroot, hbinary, hrendered, fun awaited hbooks => ⟨none, ?_, ?_⟩⟩
  · have hkey := liveKey_of_root hroot
    have hrequested := congrArg Display.requested hdisplay
    rw [Display.requested_answer] at hrequested
    have haccepted : ∀ key other, .accepted key other ∈ history ++ [.delivered c.liveKey generation] →
        .accepted key other ∈ history := by
      intro key other hother
      simpa using hother
    refine ⟨?_, ?_, ?_, ?_⟩
    · intro other
      rw [hkey]
      constructor
      · intro hother
        contradiction
      · intro hother
        have hle := hawaited.newest other (haccepted _ _ hother.accepted)
        have hge := hother.newest generation (List.mem_append_left _ hawaited.accepted)
        have heq := le_antisymm hle hge
        subst heq
        exact absurd (by simp) hother.undelivered
    · intro other hother
      rw [hkey] at hother
      exact (hbooks.accepted_le other (haccepted _ _ hother)).trans_eq hrequested.symm
    · intro key other hother hkind
      rw [hkey]
      exact hbooks.keyed key other (haccepted _ _ hother) hkind
    · exact hrequested.trans_le hbooks.bounded
  · have hpending := (hbooks.awaited_iff generation).mpr hawaited
    subst hpending
    exact Run.single ⟨rfl, hdisplay⟩

theorem does_bind {α β : Type} {handler : Handler α} {next : α → Handler β}
    {post : β → List (Action JobKey Nat) → Prop}
    (h : Does only handler history fun value history => Does only (next value) history post) :
    Does only (handler.bind next) history post :=
  (Program.ensures_bind handler next history).mpr h

/-- What was done may be followed by a page of conversations. -/
theorem follows_then_page {events : List (PollEvent LiveSnapshot)} {c' : Controller} {dirty : Bool}
    {history' : List (Action JobKey Nat)}
    (h : Follows hash history c events history' c') :
    Does only ((c'.scheduleConversationPage false).bind fun scheduled => .done (scheduled, dirty))
      history' fun result history'' => Follows hash history c events history'' result.1 := by
  have hpage : Does only (c'.scheduleConversationPage false) history' fun scheduled history'' =>
      Follows hash history' c' [] history'' scheduled := follows_page history' c' false
  refine does_bind (hpage.imp fun scheduled history'' hscheduled => ?_)
  have hboth := h.trans hscheduled
  rwa [List.append_nil] at hboth

section

variable (hawaited : Awaited history c.liveKey generation)
  (hcurrent : c.conversations.liveRequestedGeneration ≤ generation) (clock : Nat)

include hawaited hcurrent

theorem follows_backOff (hpending : c.isPendingSensor generation = true)
    {outcome : PollOutcome LiveSnapshot} (houtcome : ∀ snapshot, outcome ≠ .found snapshot) :
    Follows hash history c [.answer generation outcome]
      (history ++ [.delivered c.liveKey generation])
      (c.forgetPending.syncAndBackOff c.conversations.liveRequestedGeneration generation clock) := by
  refine follows_answer hawaited rfl rfl id ?_
  rw [Display.answer_quiet_failed hcurrent ((isQuiet_display c _ _).trans hpending) houtcome,
    display_syncAndBackOff, display_forgetPending]
  rfl

theorem follows_sensorSnapshot (hpending : c.isPendingSensor generation = true)
    (snapshot : LiveSnapshot) :
    Does only (c.forgetPending.applySensorSnapshot hash snapshot generation
      c.conversations.liveRequestedGeneration clock)
      (history ++ [.delivered c.liveKey generation]) fun result history' =>
        Follows hash history c [.answer generation (.found snapshot)] history' result.1 := by
  have hquiet := (isQuiet_display c (some generation) generation).trans hpending
  unfold Controller.applySensorSnapshot
  by_cases hunchanged : c.forgetPending.isUnchanged hash snapshot = true
  · rw [if_pos hunchanged]
    refine follows_answer hawaited rfl rfl id ?_
    rw [isUnchanged_forgetPending] at hunchanged
    rw [Display.answer_quiet_unchanged hcurrent hquiet
      ((isUnchanged_display c _ snapshot).trans hunchanged), display_syncAndBackOff,
      display_setLiveLoading, display_forgetPending]
    rfl
  · rw [if_neg hunchanged]
    rw [isUnchanged_forgetPending, ← isUnchanged_display c (some generation)] at hunchanged
    have hadopted : Follows hash history c [.answer generation (.found snapshot)]
        (history ++ [.delivered c.liveKey generation])
        (c.forgetPending.adoptSnapshot hash snapshot generation clock).1 := by
      refine follows_answer hawaited rfl rfl (fun _ => rendered_adoptSnapshot _ _ _ hcurrent) ?_
      rw [Display.answer_quiet_changed hcurrent hquiet hunchanged,
        display_adoptSnapshot c.forgetPending snapshot clock hcurrent, display_forgetPending]
      rfl
    simp only
    split
    next => exact follows_then_page hadopted
    next => exact hadopted

theorem follows_drop (hpending : ¬ c.isPendingSensor generation = true) (reason : String) :
    Follows hash history c [.answer generation .failed]
      (history ++ [.delivered c.liveKey generation]) (c.dropLive reason generation).1 := by
  refine follows_answer hawaited rfl rfl (fun _ => rendered_dropLive _ hcurrent _) ?_
  rw [Display.answer_loud_failed hcurrent
    (fun hquiet => hpending ((isQuiet_display c _ _).symm.trans hquiet)),
    display_dropLive _ hcurrent]
  rfl

end

theorem follows_live (hawaited : Awaited history c.liveKey generation)
    (completion : Completion Output) (clock : Nat) :
    Does only (c.applyLive hash generation completion clock)
      (history ++ [.delivered c.liveKey generation]) fun result history' =>
        Follows hash history c [.answer generation (pollOutcome completion)] history' result.1 := by
  unfold Controller.applyLive
  by_cases hstale : generation < c.conversations.liveRequestedGeneration
  · simp only [if_pos hstale]
    refine follows_answer hawaited rfl rfl id ?_
    rw [Display.answer_stale hstale]
    rfl
  have hcurrent : c.conversations.liveRequestedGeneration ≤ generation := Nat.le_of_not_lt hstale
  simp only [if_neg hstale]
  by_cases hpending : c.isPendingSensor generation = true
  · have htaken : c.takePendingLiveSensor generation = (c.forgetPending, true) := if_pos hpending
    simp only [htaken, if_true]
    rcases completion with (_ | _ | (snapshot | _ | message) | _ | _) | _
    case success.live.ready => exact follows_sensorSnapshot hawaited hcurrent clock hpending snapshot
    all_goals exact follows_backOff hawaited hcurrent clock hpending (by simp [pollOutcome])
  · have htaken : c.takePendingLiveSensor generation = (c, false) := if_neg hpending
    have hloud : ¬ (c.display (some generation)).isQuiet generation = true :=
      fun hquiet => hpending ((isQuiet_display c _ _).symm.trans hquiet)
    simp only [htaken, Bool.false_eq_true, if_false]
    rcases completion with (_ | _ | (snapshot | _ | message) | _ | _) | _
    case success.live.ready =>
      refine follows_answer hawaited rfl rfl (fun _ => rendered_adoptSnapshot _ _ _ hcurrent) ?_
      rw [pollOutcome, Display.answer_loud_found hcurrent hloud, display_adoptSnapshot _ _ _ hcurrent]
      rfl
    case success.live.cancelled =>
      refine follows_answer hawaited rfl rfl id ?_
      rw [pollOutcome, Display.answer_loud_cancelled hcurrent hloud]
      rfl
    all_goals exact follows_drop hawaited hcurrent hpending _

end

end HerdrContext.App
