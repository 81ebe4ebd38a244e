import HerdrContext.Index.Refresh

/-! The JSON text of a cache file, field by field in the order the structures
declare them. -/
namespace HerdrContext.Index.Json

open Library Library.Wire

def byteText : Wire (List UInt8) := array uint8 (embed_avoidsFirst (nat_avoidsFirst rfl))

def storedPath : Wire StoredPath :=
  embed (fun path => (path.encoding, path.bytes)) (fun fields => some ⟨fields.1, fields.2⟩)
    (fun _ => rfl) (record "encoding" (next "bytes" text byteText))

def timeParts : Wire TimeParts :=
  embed (fun parts => (parts.afterEpoch, parts.seconds, parts.nanoseconds))
    (fun fields => some ⟨fields.1, fields.2.1, fields.2.2⟩) (fun _ => rfl)
    (record "after_epoch" (next "seconds" bool (next "nanoseconds" uint64 uint32)))

def optionalText : Wire (Option String) := nullable text (text_avoidsFirst (by decide))

def optionalTime : Wire (Option TimeParts) :=
  nullable timeParts (embed_avoidsFirst (record_avoidsFirst (by decide)))

def optionalPath : Wire (Option StoredPath) :=
  nullable storedPath (embed_avoidsFirst (record_avoidsFirst (by decide)))

def cachedConversation : Wire CachedConversation :=
  embed (fun entry => (entry.sourceId, entry.tool, entry.nameSpace, entry.sessionId, entry.title,
      entry.createdAt, entry.archivedAt, entry.updatedAt, entry.state, entry.provenanceKind,
      entry.sourcePath, entry.resumeReference))
    (fun (sourceId, tool, nameSpace, sessionId, title, createdAt, archivedAt, updatedAt, state,
        provenanceKind, sourcePath, resumeReference) =>
      some { sourceId, tool, nameSpace, sessionId, title, createdAt, archivedAt, updatedAt, state,
             provenanceKind, sourcePath, resumeReference })
    (fun _ => rfl)
    (record "source_id" (next "tool" text (next "namespace" text (next "session_id" text
      (next "title" text (next "created_at" optionalText (next "archived_at" optionalTime
      (next "updated_at" optionalTime (next "state" timeParts (next "provenance_kind" text
      (next "source_path" text (next "resume_reference" optionalPath optionalText))))))))))))

def diskWatermark : Wire DiskWatermark :=
  embed (fun watermark => (watermark.sourceId, watermark.token))
    (fun fields => some ⟨fields.1, fields.2⟩) (fun _ => rfl)
    (record "source_id" (next "token" text text))

def diskIndex : Wire DiskIndex :=
  embed (fun disk => (disk.schemaVersion, disk.projectRoot, disk.generation, disk.maxEntries,
      disk.watermarks, disk.entries))
    (fun (schemaVersion, projectRoot, generation, maxEntries, watermarks, entries) =>
      some { schemaVersion, projectRoot, generation, maxEntries, watermarks, entries })
    (fun _ => rfl)
    (record "schema_version" (next "project_root" uint32 (next "generation" storedPath
      (next "max_entries" uint64 (next "watermarks" nat (next "entries"
        (array diskWatermark (embed_avoidsFirst (record_avoidsFirst (by decide))))
        (array cachedConversation (embed_avoidsFirst (record_avoidsFirst (by decide))))))))))

/-- `serde_json::to_vec` and `from_slice` on the texts the former writes. -/
def indexCodec : IndexCodec := (codec diskIndex).utf8

example : (codec diskIndex).encode
    { schemaVersion := 3, projectRoot := ⟨"unix-bytes", [47, 112]⟩, generation := 1,
      maxEntries := 4096, watermarks := [⟨"pi", "\x7b\x7d"⟩], entries := [] } =
    some "\x7b\"schema_version\":3,\"project_root\":\x7b\"encoding\":\"unix-bytes\",\"bytes\":[47,112]\x7d,\"generation\":1,\"max_entries\":4096,\"watermarks\":[\x7b\"source_id\":\"pi\",\"token\":\"\x7b\x7d\"\x7d],\"entries\":[]\x7d" := by
  decide +kernel

end HerdrContext.Index.Json
