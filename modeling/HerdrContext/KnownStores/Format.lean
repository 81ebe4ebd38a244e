import HerdrContext.Configuration
import HerdrContext.KnownStores.ClaudeCode
import HerdrContext.KnownStores.CodexCli
import HerdrContext.KnownStores.Omp
import HerdrContext.KnownStores.Pi

/-! The four known JSONL formats behind one interface, and the proof that a file
may be read in pieces. -/
namespace HerdrContext.KnownStores

open Library IncrementalParser

/-- The `KnownFormat` implementations. OMP also keeps the home its store lies
under and the temporary directory. -/
inductive KnownFormat where
  | claudeCode | codexCli | pi
  | omp (home temp : PathBuf)

/-- The RFC 3339 parser and the `serde_json` decoders of the record shapes. -/
structure Decoders where
  rfc3339 : Rfc3339
  claude : Bytes → Option ClaudeCode.ClaudeRecord
  codex : Bytes → Option CodexCli.CodexRecord
  pi : Bytes → Option Pi.PiRecord
  omp : Omp.Decoders

namespace KnownFormat

def tool : KnownFormat → Tool
  | claudeCode => .claudeCode
  | codexCli => .codexCli
  | pi => .pi
  | omp _ _ => .omp

def reportProjectMismatch : KnownFormat → Bool
  | claudeCode | codexCli => false
  | pi | omp _ _ => true

def adapterRevision : KnownFormat → UInt32
  | claudeCode => 4
  | codexCli => 1
  | pi | omp _ _ => 0

/-- `KnownFormat::parse`; `previous` and `previous_pending` are never both given. -/
def parse (format : KnownFormat) (decoders : Decoders) (canon : Canonicalizer)
    (relative : RelativePath) (project : ProjectIdentity) (cancelled : Nat → Bool)
    (previous : Option ParseOutcome) (records : List Bytes) : Except FormatFailure ParseOutcome :=
  match format with
  | claudeCode =>
    ClaudeCode.parse canon decoders.rfc3339 decoders.claude relative project cancelled previous
      records
  | codexCli =>
    CodexCli.parse canon decoders.rfc3339 decoders.codex relative project cancelled previous records
  | pi => Pi.parse canon decoders.rfc3339 decoders.pi relative project cancelled previous records
  | omp home temp =>
    Omp.parse canon decoders.rfc3339 decoders.omp home temp relative project cancelled previous
      records

theorem parse_never {format : KnownFormat} {decoders : Decoders} {canon : Canonicalizer}
    {relative : RelativePath} {project : ProjectIdentity} {cancelled : Nat → Bool}
    {previous : Option ParseOutcome} {records : List Bytes} {outcome : ParseOutcome}
    (h : format.parse decoders canon relative project cancelled previous records = .ok outcome) :
    format.parse decoders canon relative project never previous records = .ok outcome := by
  cases format with
  | claudeCode => exact IncrementalParser.parse_never _ h
  | codexCli => exact IncrementalParser.parse_never _ h
  | pi => exact IncrementalParser.parse_never _ h
  | omp home temp => exact IncrementalParser.parse_never _ h

/-- The records a format needs at once before it can stop in between. -/
def openingRecords : KnownFormat → Nat
  | claudeCode | codexCli | pi => 1
  | omp _ _ => 2

end KnownFormat

/-! ## Reading a file in pieces -/

section

variable (format : KnownFormat) (decoders : Decoders) (canon : Canonicalizer)
  (relative : RelativePath) (project : ProjectIdentity)

/-- Reading the records chunk by chunk, with stored metadata in between, is
reading them at once. -/
theorem parseChunks_eq_parse (chunk : List Bytes) (chunks : List (List Bytes))
    (hchunk : chunk ≠ []) (hchunks : ∀ next ∈ chunks, next ≠ [])
    (hopening : chunks ≠ [] → format.openingRecords ≤ chunk.length) :
    parseChunks (format.parse decoders canon relative project never)
        (ParseOutcome.restore canon project) none chunk chunks =
      some (format.parse decoders canon relative project never none (chunk ++ chunks.flatten)) := by
  cases format with
  | claudeCode =>
    exact ClaudeCode.lawful.parseChunks_eq (by simp) (fun _ _ => trivial) hchunk hchunks
  | codexCli => exact CodexCli.lawful.parseChunks_eq (by simp) (fun _ _ => hchunk) hchunk hchunks
  | pi => exact Pi.lawful.parseChunks_eq (by simp) (fun _ _ => hchunk) hchunk hchunks
  | omp home temp =>
    exact Omp.lawful.parseChunks_eq (by simp) (fun _ hmore => hopening hmore) hchunk hchunks

end

namespace Sample

/-- The bytes of an ASCII text. -/
def ascii (text : String) : Bytes := text.toList.map fun c => UInt8.ofNat c.toNat

theorem absolute_of_present (path canonical : PathBuf)
    (h : (if path.isAbsolute then some path else none) = some canonical) :
    canonical.isAbsolute = true := by
  split at h
  next habsolute =>
    cases Option.some.inj h
    exact habsolute
  next => contradiction

theorem present_of_present (path canonical : PathBuf)
    (h : (if path.isAbsolute then some path else none) = some canonical) :
    (if canonical.isAbsolute then some canonical else none) = some canonical :=
  if_pos (absolute_of_present path canonical h)

/-- Absolute paths that all exist, without symbolic links. -/
def canon : Canonicalizer where
  resolve path := if path.isAbsolute then some path else none
  resolve_absolute := absolute_of_present
  resolve_canonical := present_of_present

def project : ProjectIdentity := ⟨⟨ascii "/p"⟩⟩
def stamp : String := "2026-01-01T00:00:00Z"
def sessionId : String := "01890000-0000-7000-8000-000000000000"

def slotRecord : Bytes :=
  ascii "\x7b\"type\":\"title\",\"v\":1,\"title\":\"t\",\"updatedAt\":\"2026-01-01T00:00:00Z\",\"pad\":\""
    ++ List.replicate 177 32 ++ ascii "\"\x7d"

def headerRecord : Bytes :=
  ascii "\x7b\"type\":\"session\",\"version\":3,\"id\":\"01890000-0000-7000-8000-000000000000\",\"timestamp\":\"2026-01-01T00:00:00Z\",\"cwd\":\"/p\"\x7d"

def entryRecord : Bytes :=
  ascii "\x7b\"type\":\"reset_boundary\",\"id\":\"0123abcd\",\"timestamp\":\"2026-01-01T00:00:00Z\"\x7d"

def decoders : Decoders where
  rfc3339 text := if text = stamp then some 1767225600000000000 else none
  claude _ := none
  codex _ := none
  pi _ := none
  omp := {
    slot := fun bytes =>
      if bytes = slotRecord then
        some ⟨"title", 1, "t", stamp, String.ofList (List.replicate 177 ' ')⟩
      else none
    header := fun bytes =>
      if bytes = headerRecord then some ⟨"session", 3, sessionId, stamp, "/p"⟩ else none
    record := fun bytes =>
      if bytes = entryRecord then
        some { kind := "reset_boundary", id := "0123abcd", timestamp := stamp }
      else none }

def omp : KnownFormat := .omp ⟨ascii "/h"⟩ ⟨ascii "/t"⟩

theorem directory_normal : ascii "--p--" ≠ [] ∧ ascii "--p--" ≠ [46] ∧ ascii "--p--" ≠ [46, 46] ∧
    slash ∉ ascii "--p--" ∧ 0 ∉ ascii "--p--" := by
  decide

/-- A session file of the project, in OMP's layout. -/
def relative : RelativePath :=
  [⟨ascii "--p--", directory_normal⟩,
    ⟨ascii "2026-01-01T00-00-00Z_01890000-0000-7000-8000-000000000000.jsonl", by decide⟩]

def parse (previous : Option ParseOutcome) (records : List Bytes) :
    Except FormatFailure ParseOutcome :=
  omp.parse decoders canon relative project never previous records

end Sample

theorem parseChunks_eq_parse_sample :
    parseChunks Sample.parse (ParseOutcome.restore Sample.canon Sample.project) none
        [Sample.slotRecord, Sample.headerRecord] [[Sample.entryRecord]] =
      some (Sample.parse none [Sample.slotRecord, Sample.headerRecord, Sample.entryRecord]) ∧
    (Sample.parse none [Sample.slotRecord, Sample.headerRecord, Sample.entryRecord]).isOk = true :=
  ⟨parseChunks_eq_parse Sample.omp Sample.decoders Sample.canon Sample.relative Sample.project
    [Sample.slotRecord, Sample.headerRecord] [[Sample.entryRecord]] (by simp) (by simp)
    (fun _ => le_refl 2), by decide +kernel⟩

/-- A title slot alone is rejected, though slot and header together are a session. -/
theorem header_in_second_chunk : ¬ ∀ (format : KnownFormat) (decoders : Decoders)
    (canon : Canonicalizer) (relative : RelativePath) (project : ProjectIdentity)
    (chunk : List Bytes) (chunks : List (List Bytes)), chunk ≠ [] →
    (∀ next ∈ chunks, next ≠ []) →
    parseChunks (format.parse decoders canon relative project never)
        (ParseOutcome.restore canon project) none chunk chunks =
      some (format.parse decoders canon relative project never none
        (chunk ++ chunks.flatten)) := by
  intro h
  have hsame := h Sample.omp Sample.decoders Sample.canon Sample.relative Sample.project
    [Sample.slotRecord] [[Sample.headerRecord]] (by simp) (by simp)
  have hwhole : (Sample.parse none [Sample.slotRecord, Sample.headerRecord]).isOk = true := by
    decide +kernel
  have hcut : Sample.parse none [Sample.slotRecord, Sample.headerRecord] =
      .error (.unsupported "OMP JSONL is missing the fixed-width title slot or session header") :=
    (Option.some.inj hsame).symm
  rw [hcut] at hwhole
  exact Bool.false_ne_true hwhole

end HerdrContext.KnownStores
