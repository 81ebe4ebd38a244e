import HerdrContext.Conversations

/-! The conversation sources a configuration registers: six built-in ones and
one for each extra history root. -/
namespace HerdrContext

open Library

inductive Tool where
  | claudeCode | codexCli | omp | opencode | pi
  deriving DecidableEq, Repr

def Tool.all : List Tool := [.claudeCode, .codexCli, .omp, .opencode, .pi]

def Tool.name : Tool → String
  | .claudeCode => "claude-code"
  | .codexCli => "codex-cli"
  | .omp => "omp"
  | .opencode => "opencode"
  | .pi => "pi"

theorem Tool.mem_all (tool : Tool) : tool ∈ Tool.all := by
  cases tool <;> decide

theorem Tool.name_injective : Function.Injective Tool.name := by
  intro left right h
  cases left <;> cases right <;> first | rfl | exact absurd h (by decide)

structure ExternalHistoryRoot where
  source : Tool
  path : PathBuf
  deriving DecidableEq

def maxExternalRoots : Nat := 16

/-- The part of the configuration that decides which sources are registered. -/
structure ConversationsConfig where
  genericEnabled : Bool
  enabled : Tool → Bool
  externalRoots : List ExternalHistoryRoot
  length_externalRoots : externalRoots.length ≤ maxExternalRoots

theorem normal_of_ends {first last : Char} {middle : List Char} (hfirst : isWhitespace first = false)
    (hlast : isWhitespace last = false) :
    normalizeNonempty (String.ofList (first :: middle ++ [last])) =
      some (String.ofList (first :: middle ++ [last])) := by
  apply normalizeNonempty_of_trimmed
  · have htrim : trimChars (first :: middle ++ [last]) = first :: middle ++ [last] := by
      apply trimChars_eq_self_of_ends
      · simpa using hfirst
      · intro c hc
        rw [List.getLast?_concat] at hc
        cases Option.some.inj hc
        exact hlast
    rw [trim, String.toList_ofList, htrim]
  · intro h
    have := congrArg String.toList h
    simp at this

def genericSourceId : SourceId := ⟨"project-local-generic-jsonl", by decide⟩

/-- `SourceId::new(format.source_id())`. -/
def Tool.sourceId : Tool → SourceId
  | .claudeCode => ⟨"claude-code", by decide⟩
  | .codexCli => ⟨"codex-cli", by decide⟩
  | .omp => ⟨"omp", by decide⟩
  | .opencode => ⟨"opencode", by decide⟩
  | .pi => ⟨"pi", by decide⟩

@[simp] theorem Tool.sourceId_text (tool : Tool) : tool.sourceId.text = tool.name := by
  cases tool <;> rfl

def extraMarker : List Char := ":extra:".toList

def rootFingerprint (root : ExternalHistoryRoot) : UInt64 :=
  fnv1a ((root.source.name.toList.map fun c => c.val.toUInt8) ++ 0 :: root.path.bytes) fnvOffset

def extraIdText (tool : Tool) (fingerprint : UInt64) : List Char :=
  tool.name.toList ++ extraMarker ++ hex16 fingerprint

theorem hexDigit_not_whitespace {c : Char} (h : Text.isHexDigit c = true) :
    isWhitespace c = false := by
  simp only [Text.isHexDigit, Char.isDigit, Bool.or_eq_true, Bool.and_eq_true, decide_eq_true_eq,
    UInt32.le_iff_toNat_le, Char.le_def] at h
  have hval : c.toNat = c.val.toNat := rfl
  simp only [isWhitespace, Bool.or_eq_false_iff, Bool.and_eq_false_iff, decide_eq_false_iff_not,
    beq_eq_false_iff_ne, hval]
  simp at h
  omega

theorem extraIdText_ends (tool : Tool) (fingerprint : UInt64) :
    ∃ first middle last, extraIdText tool fingerprint = first :: middle ++ [last] ∧
      isWhitespace first = false ∧ isWhitespace last = false := by
  have hname : ∃ first rest, tool.name.toList = first :: rest ∧ isWhitespace first = false := by
    cases tool <;> exact ⟨_, _, rfl, by decide⟩
  obtain ⟨first, rest, hrest, hfirst⟩ := hname
  have hhex : hex16 fingerprint =
      Text.fixedDigits 16 15 (fingerprint.toNat / 16) ++ [Nat.digitChar (fingerprint.toNat % 16)] :=
    rfl
  have hlast := isHexDigit_hex16 fingerprint (Nat.digitChar (fingerprint.toNat % 16))
    (by simp [hhex])
  refine ⟨first, rest ++ extraMarker ++ Text.fixedDigits 16 15 (fingerprint.toNat / 16), _, ?_,
    hfirst, hexDigit_not_whitespace hlast⟩
  simp [extraIdText, hrest, hhex]

/-- `configured_external_source_id`. -/
def configuredExternalSourceId (root : ExternalHistoryRoot) : SourceId where
  text := String.ofList (extraIdText root.source (rootFingerprint root))
  normal := by
    obtain ⟨first, middle, last, htext, hfirst, hlast⟩ :=
      extraIdText_ends root.source (rootFingerprint root)
    rw [htext]
    exact normal_of_ends hfirst hlast

/-- Built-in sources first, then the configured roots of enabled sources. -/
def desiredSourceIds (config : ConversationsConfig) : List SourceId :=
  (if config.genericEnabled then [genericSourceId] else []) ++
    (Tool.all.filter config.enabled).map Tool.sourceId ++
    (config.externalRoots.filter fun root => config.enabled root.source).map
      configuredExternalSourceId

theorem length_desiredSourceIds (config : ConversationsConfig) :
    (desiredSourceIds config).length ≤ 22 := by
  have hgeneric : (if config.genericEnabled then [genericSourceId] else []).length ≤ 1 := by
    split <;> simp
  have htools : (Tool.all.filter config.enabled).length ≤ 5 :=
    List.length_filter_le _ Tool.all
  have hroots := List.length_filter_le (fun root => config.enabled root.source) config.externalRoots
  have := config.length_externalRoots
  simp only [desiredSourceIds, List.length_append, List.length_map]
  unfold maxExternalRoots at this
  omega

end HerdrContext
