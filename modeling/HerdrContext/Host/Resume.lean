import HerdrContext.Host.Launch

/-! Resuming a conversation in a tab of its own, with time kept back for the
tab to be closed again. -/
namespace HerdrContext.Host

structure HostError where
  kind : HostErrorKind
  message : String
  deriving DecidableEq

/-! ## Time -/

/- Durations and instants are in nanoseconds. -/

def durationMax : Nat := (2 ^ 64 - 1) * 1000000000 + 999999999
def instantMax : Nat := (2 ^ 63 - 1) * 1000000000 + 999999999

namespace Duration

def saturatingAdd (left right : Nat) : Nat := min (left + right) durationMax
def saturatingMul (duration : Nat) (factor : Nat) : Nat := min (duration * factor) durationMax

/-- `as_millis().clamp(1, 300_000)`. -/
def readyMillis (duration : Nat) : Nat := max 1 (min (duration / 1000000) 300000)

end Duration

def Instant.checkedAdd (instant : Nat) (duration : Nat) : Option Nat :=
  if instant + duration ≤ instantMax then some (instant + duration) else none

def conversationLaunchTimeout : HostError := ⟨.operationFailed, "conversation launch timed out"⟩

/-- What is left until the deadline, less the reserve and no more than the limit. -/
def commandTimeout (deadline : Nat) (reserve limit : Nat) (now : Nat) :
    Except HostError Nat :=
  let available := min (deadline - now - reserve) limit
  if available = 0 then .error conversationLaunchTimeout else .ok available

/-! ## Requests and answers -/

inductive AgentHarness where
  | claude | codex | openCode | omp | pi
  deriving DecidableEq

def AgentHarness.asStr : AgentHarness → String
  | .claude => "claude"
  | .codex => "codex"
  | .openCode => "opencode"
  | .omp => "omp"
  | .pi => "pi"

structure ResumeConversationRequest where
  workspaceId : NormalText
  cwd : PathBuf
  harness : AgentHarness
  reference : String

structure CommandHostClient where
  timeout : Nat
  agentReadyTimeout : Nat

/-- The strings of the `tab create` result at the two pointers that are read. -/
structure CreatedTab where
  tabId : Option String
  paneId : Option String

/-- What a command answers and how long it takes. -/
structure Answer (α : Type) where
  elapsed : Nat
  response : Except HostError α

structure ResumeAnswers where
  create : Answer CreatedTab
  start : Answer Unit
  focus : Answer Unit
  close : Answer Unit

def requiredString (value : Option String) (field : String) : Except HostError String :=
  match value with
  | some text => .ok text
  | none => .error ⟨.invalidResponse, "Herdr response is missing " ++ field⟩

/-- `TabId::new` and `PaneId::new`, as a host error. -/
def hostId (value field : String) : Except HostError NormalText :=
  match NormalText.new value with
  | some id => .ok id
  | none => .error ⟨.invalidResponse, field ++ " must be non-empty"⟩

def CreatedTab.parseTabId (result : CreatedTab) : Except HostError NormalText := do
  let text ← requiredString result.tabId "created tab id"
  hostId text "tab id"

def CreatedTab.parsePaneId (result : CreatedTab) : Except HostError NormalText := do
  let text ← requiredString result.paneId "created root pane id"
  hostId text "pane id"

/-! ## Command lines -/

def createArguments (request : ResumeConversationRequest) : List OsString :=
  ["tab", "create", "--workspace", request.workspaceId.text, "--cwd"].map utf8Bytes ++
    [request.cwd.bytes, utf8Bytes "--no-focus"]

def agentStartArguments (request : ResumeConversationRequest) (paneId : NormalText)
    (readyTimeout : Nat) : List OsString :=
  (["agent", "start", request.harness.asStr, "--kind", request.harness.asStr, "--pane", paneId.text,
    "--timeout", toString (Duration.readyMillis readyTimeout), "--"] ++
    match request.harness with
    | .claude | .omp => ["--resume", request.reference]
    | .codex => ["resume", request.reference]
    | .openCode | .pi => ["--session", request.reference]).map utf8Bytes

def focusArguments (tabId : NormalText) : List OsString := ["tab", "focus", tabId.text].map utf8Bytes

def closeArguments (tabId : NormalText) : List OsString := ["tab", "close", tabId.text].map utf8Bytes

/-! ## The launch -/

structure HostCall where
  arguments : List OsString
  startedAt : Nat
  timeout : Nat
  elapsed : Nat

/-- The clock and the commands so far. -/
structure LaunchRun where
  now : Nat
  calls : List HostCall

/-- Time passes only inside commands. -/
def LaunchRun.invoke (run : LaunchRun) (arguments : List OsString) (timeout elapsed : Nat) :
    LaunchRun :=
  ⟨run.now + elapsed, run.calls ++ [⟨arguments, run.now, timeout, elapsed⟩]⟩

namespace CommandHostClient

variable (client : CommandHostClient)

def operationTimeout : Nat :=
  Duration.saturatingAdd client.agentReadyTimeout (Duration.saturatingMul client.timeout 4)

def closeCreatedTab (run : LaunchRun) (tabId : NormalText) (deadline : Nat) (elapsed : Nat) :
    LaunchRun :=
  let timeout := min (deadline - run.now) client.timeout
  if timeout = 0 then run else run.invoke (closeArguments tabId) timeout elapsed

/-- The part of `resume_conversation` in which the tab is closed on every error. -/
def launchInTab (request : ResumeConversationRequest) (answers : ResumeAnswers) (deadline : Nat)
    (tabId : NormalText) (result : CreatedTab) (run : LaunchRun) :
    LaunchRun × Except HostError Unit :=
  let closed (run : LaunchRun) (error : HostError) : LaunchRun × Except HostError Unit :=
    (client.closeCreatedTab run tabId deadline answers.close.elapsed, .error error)
  match result.parsePaneId with
  | .error error => closed run error
  | .ok paneId =>
    match commandTimeout deadline client.timeout
        (Duration.saturatingAdd client.agentReadyTimeout client.timeout) run.now with
    | .error error => closed run error
    | .ok startTimeout =>
      let run := run.invoke (agentStartArguments request paneId client.agentReadyTimeout)
        startTimeout answers.start.elapsed
      match answers.start.response with
      | .error error => closed run error
      | .ok () =>
        match commandTimeout deadline client.timeout client.timeout run.now with
        | .error error => closed run error
        | .ok focusTimeout =>
          let run := run.invoke (focusArguments tabId) focusTimeout answers.focus.elapsed
          match answers.focus.response with
          | .error error => closed run error
          | .ok () => (run, .ok ())

def resumeConversation (request : ResumeConversationRequest) (answers : ResumeAnswers)
    (start : Nat) : LaunchRun × Except HostError Unit :=
  let run : LaunchRun := ⟨start, []⟩
  match Instant.checkedAdd start client.operationTimeout with
  | none => (run, .error conversationLaunchTimeout)
  | some deadline =>
    match commandTimeout deadline client.timeout client.timeout run.now with
    | .error error => (run, .error error)
    | .ok createTimeout =>
      let run := run.invoke (createArguments request) createTimeout answers.create.elapsed
      match answers.create.response with
      | .error error => (run, .error error)
      | .ok result =>
        match result.parseTabId with
        | .error error => (run, .error error)
        | .ok tabId => client.launchInTab request answers deadline tabId result run

end CommandHostClient

/-! ## The time kept back -/

def HostCall.IsClose (call : HostCall) : Prop := call.arguments.take 2 = ["tab", "close"].map utf8Bytes

instance (call : HostCall) : Decidable call.IsClose := inferInstanceAs (Decidable (_ = _))

/-- The commands ended in time. -/
def LaunchRun.Timely (run : LaunchRun) : Prop := ∀ call ∈ run.calls, call.elapsed ≤ call.timeout

/-- No tab has been closed, and the reserve is untouched. -/
structure LaunchRun.Reserves (reserve deadline : Nat) (run : LaunchRun) : Prop where
  clock : run.now + reserve ≤ deadline
  open_tab : ∀ call ∈ run.calls, ¬ call.IsClose
  within : ∀ call ∈ run.calls, call.startedAt + call.timeout + reserve ≤ deadline

theorem commandTimeout_eq_ok {deadline now : Nat} {reserve limit timeout : Nat}
    (h : commandTimeout deadline reserve limit now = .ok timeout) :
    0 < timeout ∧ now + timeout + reserve ≤ deadline := by
  unfold commandTimeout at h
  simp only at h
  split at h
  next => contradiction
  next hpositive =>
    cases h
    omega

theorem isClose_closeArguments (tabId : NormalText) (startedAt timeout elapsed : Nat) :
    HostCall.IsClose ⟨closeArguments tabId, startedAt, timeout, elapsed⟩ := rfl

theorem not_isClose_createArguments (request : ResumeConversationRequest) (startedAt timeout elapsed : Nat) :
    ¬ HostCall.IsClose ⟨createArguments request, startedAt, timeout, elapsed⟩ := by
  have hnames : ["tab", "create"].map utf8Bytes ≠ ["tab", "close"].map utf8Bytes := by decide
  exact hnames

theorem not_isClose_agentStartArguments (request : ResumeConversationRequest) (paneId : NormalText)
    (readyTimeout startedAt timeout elapsed : Nat) :
    ¬ HostCall.IsClose ⟨agentStartArguments request paneId readyTimeout, startedAt, timeout, elapsed⟩ := by
  have hnames : ["agent", "start"].map utf8Bytes ≠ ["tab", "close"].map utf8Bytes := by decide
  exact hnames

theorem not_isClose_focusArguments (tabId : NormalText) (startedAt timeout elapsed : Nat) :
    ¬ HostCall.IsClose ⟨focusArguments tabId, startedAt, timeout, elapsed⟩ := by
  have hnames : ["tab", "focus"].map utf8Bytes ≠ ["tab", "close"].map utf8Bytes := by decide
  exact hnames

namespace LaunchRun

variable {run : LaunchRun} {reserve limit timeout elapsed deadline : Nat}
  {arguments : List OsString}

theorem timely_invoke :
    (run.invoke arguments timeout elapsed).Timely ↔ run.Timely ∧ elapsed ≤ timeout := by
  simp only [Timely, invoke, List.forall_mem_append, List.forall_mem_singleton]

theorem Reserves.invoke (h : run.Reserves reserve deadline)
    (htimeout : commandTimeout deadline reserve limit run.now = .ok timeout)
    (hclose : ¬ HostCall.IsClose ⟨arguments, run.now, timeout, elapsed⟩) (hends : elapsed ≤ timeout) :
    (run.invoke arguments timeout elapsed).Reserves reserve deadline := by
  have ⟨_, hfits⟩ := commandTimeout_eq_ok htimeout
  constructor
  case clock =>
    simp only [LaunchRun.invoke]
    omega
  case open_tab =>
    simp only [LaunchRun.invoke, List.forall_mem_append, List.forall_mem_singleton]
    exact ⟨h.open_tab, hclose⟩
  case within =>
    simp only [LaunchRun.invoke, List.forall_mem_append, List.forall_mem_singleton]
    exact ⟨h.within, hfits⟩

end LaunchRun

namespace CommandHostClient

variable {client : CommandHostClient} {request : ResumeConversationRequest} {answers : ResumeAnswers}
  {start deadline : Nat} {run : LaunchRun} {tabId : NormalText}

/-- The tab is closed last of all, in time. -/
structure Closes (client : CommandHostClient) (tabId : NormalText) (deadline : Nat)
    (run : LaunchRun) : Prop where
  last : ∃ others close, run.calls = others ++ [close] ∧ close.arguments = closeArguments tabId ∧
    0 < close.timeout ∧ close.startedAt + close.timeout ≤ deadline ∧
    (∀ call ∈ others, ¬ call.IsClose)
  within : ∀ call ∈ run.calls, ¬ call.IsClose →
    call.startedAt + call.timeout + client.timeout ≤ deadline

theorem closes_closeCreatedTab (h : run.Reserves client.timeout deadline)
    (hreserve : 0 < client.timeout) (tabId : NormalText) (elapsed : Nat) :
    client.Closes tabId deadline (client.closeCreatedTab run tabId deadline elapsed) := by
  have hclock := h.clock
  have htime : min (deadline - run.now) client.timeout ≠ 0 := by omega
  unfold closeCreatedTab
  simp only
  rw [if_neg htime]
  constructor
  case last =>
    refine ⟨run.calls, _, rfl, rfl, Nat.pos_of_ne_zero htime, ?_, h.open_tab⟩
    simp only
    omega
  case within =>
    simp only [LaunchRun.invoke, List.forall_mem_append, List.forall_mem_singleton]
    constructor
    · intro call hcall _
      exact h.within call hcall
    · intro hother
      exact absurd (isClose_closeArguments tabId _ _ _) hother

theorem timely_closeCreatedTab {elapsed : Nat}
    (h : (client.closeCreatedTab run tabId deadline elapsed).Timely) : run.Timely := by
  unfold closeCreatedTab at h
  simp only at h
  split at h
  next => exact h
  next => exact (LaunchRun.timely_invoke.mp h).1

/-- What is asked of a launch once the tab is there. -/
structure Settled (client : CommandHostClient) (tabId : NormalText) (deadline : Nat)
    (outcome : LaunchRun × Except HostError Unit) : Prop where
  failed : ∀ error, outcome.2 = .error error → client.Closes tabId deadline outcome.1
  succeeded : outcome.2 = .ok () → outcome.1.Reserves client.timeout deadline

theorem settled_error {error : HostError} (h : client.Closes tabId deadline run) :
    client.Settled tabId deadline (run, .error error) :=
  ⟨fun _ _ => h, fun hok => nomatch hok⟩

theorem settled_launchInTab (h : run.Reserves client.timeout deadline) (hreserve : 0 < client.timeout)
    (result : CreatedTab)
    (htimely : (client.launchInTab request answers deadline tabId result run).1.Timely) :
    client.Settled tabId deadline (client.launchInTab request answers deadline tabId result run) := by
  unfold launchInTab at htimely ⊢
  simp only at htimely ⊢
  cases hpane : result.parsePaneId with
  | error error => exact settled_error (closes_closeCreatedTab h hreserve tabId _)
  | ok paneId =>
    simp only [hpane] at htimely ⊢
    cases hstart : commandTimeout deadline client.timeout
        (Duration.saturatingAdd client.agentReadyTimeout client.timeout) run.now with
    | error error => exact settled_error (closes_closeCreatedTab h hreserve tabId _)
    | ok startTimeout =>
      simp only [hstart] at htimely ⊢
      have hstarted : answers.start.elapsed ≤ startTimeout →
          (run.invoke (agentStartArguments request paneId client.agentReadyTimeout) startTimeout
            answers.start.elapsed).Reserves client.timeout deadline :=
        h.invoke hstart (not_isClose_agentStartArguments _ _ _ _ _ _)
      cases hanswer : answers.start.response with
      | error error =>
        simp only [hanswer] at htimely ⊢
        have hends := (LaunchRun.timely_invoke.mp (timely_closeCreatedTab htimely)).2
        exact settled_error (closes_closeCreatedTab (hstarted hends) hreserve tabId _)
      | ok _ =>
        simp only [hanswer] at htimely ⊢
        cases hfocus : commandTimeout deadline client.timeout client.timeout
            (run.invoke (agentStartArguments request paneId client.agentReadyTimeout) startTimeout
              answers.start.elapsed).now with
        | error error =>
          simp only [hfocus] at htimely ⊢
          have hends := (LaunchRun.timely_invoke.mp (timely_closeCreatedTab htimely)).2
          exact settled_error (closes_closeCreatedTab (hstarted hends) hreserve tabId _)
        | ok focusTimeout =>
          simp only [hfocus] at htimely ⊢
          have hfocused : answers.start.elapsed ≤ startTimeout →
              answers.focus.elapsed ≤ focusTimeout → LaunchRun.Reserves client.timeout deadline
                (LaunchRun.invoke _ (focusArguments tabId) focusTimeout answers.focus.elapsed) :=
            fun hends => (hstarted hends).invoke hfocus (not_isClose_focusArguments _ _ _ _)
          cases hdone : answers.focus.response with
          | error error =>
            simp only [hdone] at htimely ⊢
            have ⟨hbefore, hends⟩ := LaunchRun.timely_invoke.mp (timely_closeCreatedTab htimely)
            have hstartEnds := (LaunchRun.timely_invoke.mp hbefore).2
            exact settled_error (closes_closeCreatedTab (hfocused hstartEnds hends) hreserve tabId _)
          | ok _ =>
            simp only [hdone] at htimely ⊢
            have ⟨hbefore, hends⟩ := LaunchRun.timely_invoke.mp htimely
            have hstartEnds := (LaunchRun.timely_invoke.mp hbefore).2
            exact ⟨fun _ herror => (nomatch herror), fun _ => hfocused hstartEnds hends⟩

theorem timely_launchInTab {result : CreatedTab}
    (htimely : (client.launchInTab request answers deadline tabId result run).1.Timely) :
    run.Timely := by
  unfold launchInTab at htimely
  simp only at htimely
  split at htimely
  next => exact timely_closeCreatedTab htimely
  next =>
    split at htimely
    next => exact timely_closeCreatedTab htimely
    next =>
      split at htimely
      next => exact (LaunchRun.timely_invoke.mp (timely_closeCreatedTab htimely)).1
      next =>
        split at htimely
        next => exact (LaunchRun.timely_invoke.mp (timely_closeCreatedTab htimely)).1
        next =>
          split at htimely
          next =>
            have hstarted := timely_closeCreatedTab htimely
            exact (LaunchRun.timely_invoke.mp (LaunchRun.timely_invoke.mp hstarted).1).1
          next => exact (LaunchRun.timely_invoke.mp (LaunchRun.timely_invoke.mp htimely).1).1

/-- The tab was created and its id could be read. -/
def Created (answers : ResumeAnswers) (tabId : NormalText) : Prop :=
  ∃ result, answers.create.response = .ok result ∧ result.parseTabId = .ok tabId

/-- Where no tab has a name nothing is closed. -/
structure Harmless (client : CommandHostClient) (answers : ResumeAnswers) (deadline : Nat)
    (outcome : LaunchRun × Except HostError Unit) : Prop where
  unnamed : outcome.1.calls = [] ∨ ∀ tabId, ¬ Created answers tabId
  failed : outcome.2 ≠ .ok ()
  within : ∀ call ∈ outcome.1.calls, call.startedAt + call.timeout + client.timeout ≤ deadline

theorem harmless_or_settled (hreserve : 0 < client.timeout)
    (hdeadline : Instant.checkedAdd start client.operationTimeout = some deadline)
    (htimely : (client.resumeConversation request answers start).1.Timely) :
    client.Harmless answers deadline (client.resumeConversation request answers start) ∨
    ∃ tabId, Created answers tabId ∧
      client.Settled tabId deadline (client.resumeConversation request answers start) := by
  unfold resumeConversation at htimely ⊢
  simp only [hdeadline] at htimely ⊢
  cases hcreate : commandTimeout deadline client.timeout client.timeout start with
  | error error => exact Or.inl ⟨Or.inl rfl, (fun hok => nomatch hok), (fun _ hnone => nomatch hnone)⟩
  | ok createTimeout =>
    simp only [hcreate] at htimely ⊢
    have ⟨_, hfits⟩ := commandTimeout_eq_ok hcreate
    have hfresh : LaunchRun.Reserves client.timeout deadline ⟨start, []⟩ := by
      refine ⟨?_, (fun _ hnone => nomatch hnone), (fun _ hnone => nomatch hnone)⟩
      simp only
      omega
    have hcreated : ∀ call ∈ ([⟨createArguments request, start, createTimeout,
        answers.create.elapsed⟩] : List HostCall),
        call.startedAt + call.timeout + client.timeout ≤ deadline := by
      rw [List.forall_mem_singleton]
      exact hfits
    cases hanswer : answers.create.response with
    | error error =>
      left
      refine ⟨Or.inr fun tabId hnamed => ?_, fun hok => (nomatch hok), hcreated⟩
      have ⟨result, hresult, _⟩ := hnamed
      rw [hanswer] at hresult
      contradiction
    | ok result =>
      simp only [hanswer] at htimely ⊢
      cases htab : result.parseTabId with
      | error error =>
        left
        refine ⟨Or.inr fun tabId hnamed => ?_, fun hok => (nomatch hok), hcreated⟩
        have ⟨other, hresult, hparsed⟩ := hnamed
        rw [hanswer] at hresult
        cases hresult
        rw [htab] at hparsed
        contradiction
      | ok tabId =>
        simp only [htab] at htimely ⊢
        have hends : answers.create.elapsed ≤ createTimeout :=
          (LaunchRun.timely_invoke.mp (timely_launchInTab htimely)).2
        have hreserved := hfresh.invoke hcreate
          (not_isClose_createArguments request start createTimeout answers.create.elapsed) hends
        exact Or.inr ⟨tabId, ⟨result, hanswer, htab⟩,
          settled_launchInTab hreserved hreserve result htimely⟩

/-- A launch whose commands end in time closes the tab it has created if it
fails, in time and as its last command, and closes nothing if it succeeds. All
its other commands leave the reserve. -/
theorem conversation_launch_cleans_up (client : CommandHostClient)
    (request : ResumeConversationRequest) (answers : ResumeAnswers) (start : Nat)
    (hreserve : 0 < client.timeout)
    (htimely : (client.resumeConversation request answers start).1.Timely) :
    (Instant.checkedAdd start client.operationTimeout = none →
      (client.resumeConversation request answers start).1.calls = []) ∧
    ∀ deadline, Instant.checkedAdd start client.operationTimeout = some deadline →
      (∀ tabId error, (client.resumeConversation request answers start).1.calls ≠ [] →
        Created answers tabId →
        (client.resumeConversation request answers start).2 = .error error →
        ∃ others close, (client.resumeConversation request answers start).1.calls =
            others ++ [close] ∧
          close.arguments = closeArguments tabId ∧ 0 < close.timeout ∧
          close.startedAt + close.timeout ≤ deadline ∧ ∀ call ∈ others, ¬ call.IsClose) ∧
      ((client.resumeConversation request answers start).2 = .ok () →
        ∀ call ∈ (client.resumeConversation request answers start).1.calls, ¬ call.IsClose) ∧
      ∀ call ∈ (client.resumeConversation request answers start).1.calls, ¬ call.IsClose →
        call.startedAt + call.timeout + client.timeout ≤ deadline := by
  constructor
  · intro hnone
    unfold resumeConversation
    simp only [hnone]
  · intro deadline hdeadline
    cases harmless_or_settled hreserve hdeadline htimely with
    | inl hharmless =>
      refine ⟨?_, fun hok => absurd hok hharmless.failed, fun call hcall _ => hharmless.within call hcall⟩
      intro tabId error hcalls hnamed
      cases hharmless.unnamed with
      | inl hnone => exact absurd hnone hcalls
      | inr hunnamed => exact absurd hnamed (hunnamed tabId)
    | inr hsettled =>
      have ⟨named, hnamed, houtcome⟩ := hsettled
      refine ⟨?_, fun hok => (houtcome.succeeded hok).open_tab, ?_⟩
      · intro tabId error _ htab herror
        have hsame : tabId = named := by
          have ⟨result, hresult, hparsed⟩ := htab
          have ⟨other, hother, hotherParsed⟩ := hnamed
          rw [hresult] at hother
          cases hother
          rw [hparsed] at hotherParsed
          exact Except.ok.inj hotherParsed
        rw [hsame]
        exact (houtcome.failed error herror).last
      · intro call hcall hother
        cases hresult : (client.resumeConversation request answers start).2 with
        | error error => exact (houtcome.failed error hresult).within call hcall hother
        | ok _ => exact (houtcome.succeeded hresult).within call hcall

/-- The root pane of a created tab has no name, and the tab is closed again. -/
theorem conversation_launch_cleans_up_sample :
    let client : CommandHostClient := ⟨2, 30⟩
    let request : ResumeConversationRequest := ⟨⟨"w", by decide⟩, ⟨[47]⟩, .claude, "r"⟩
    let answers : ResumeAnswers :=
      ⟨⟨1, .ok ⟨some "t", none⟩⟩, ⟨0, .ok ()⟩, ⟨0, .ok ()⟩, ⟨1, .ok ()⟩⟩
    ∃ others close, (client.resumeConversation request answers 5).1.calls = others ++ [close] ∧
      close.arguments = closeArguments ⟨"t", by decide⟩ ∧ 0 < close.timeout ∧
      close.startedAt + close.timeout ≤ 43 ∧ ∀ call ∈ others, ¬ call.IsClose := by
  intro client request answers
  have htimely : (client.resumeConversation request answers 5).1.Timely := by
    unfold LaunchRun.Timely
    decide
  exact ((conversation_launch_cleans_up client request answers 5 (by decide) htimely).2 43 (by decide)).1
    ⟨"t", by decide⟩ _ (by decide) ⟨⟨some "t", none⟩, rfl, by decide⟩ rfl

end CommandHostClient

end HerdrContext.Host
