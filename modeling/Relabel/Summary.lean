import Relabel.Entries.Basic
import Relabel.Json

/-!
# The summary of a run

What a run reports on success: where it read and wrote, what it counted, the digests of the mappings
and of the output, and all warnings.
-/

namespace Relabel

/-- A warning as a document. -/
def Warning.toJson : Warning → JsonValue
  | .accessViolation referencing declaring member fixed => .object [
      ("kind", .string "access_violation"),
      ("referencing_class", .string referencing),
      ("declaring_class", .string declaring),
      ("member", .ofOption member),
      ("fixed", .bool fixed)]
  | .conflictIgnored owner kept reverted target => .object [
      ("kind", .string "conflict_ignored"),
      ("owner", .string owner),
      ("kept", .string kept),
      ("reverted", .string reverted),
      ("target", .string target)]
  | .conflictingMappings member chosen ignored => .object [
      ("kind", .string "conflicting_mappings"),
      ("member", .string member),
      ("chosen", .string chosen),
      ("ignored", .string ignored)]
  | .duplicateClass name source => .object [
      ("kind", .string "duplicate_class"),
      ("class", .string name),
      ("source", .string source)]

/-- The summary of a run. -/
structure Summary where
  input : String
  output : String
  mappings : String
  mappingsDigest : Bytes
  /-- The namespaces the run went between. -/
  source : String
  target : String
  classes : Nat
  resources : Nat
  entries : Nat
  digest : Bytes
  stats : Stats
  durationMs : Nat
  warnings : List Warning

/-- The summary as a document. -/
def Summary.toJson (s : Summary) : JsonValue :=
  .object [
    ("input", .string s.input),
    ("output", .string s.output),
    ("mappings", .string s.mappings),
    ("mappings_digest", .string s.mappingsDigest.toHex),
    ("from", .string s.source),
    ("to", .string s.target),
    ("classes", .number s.classes),
    ("resources", .number s.resources),
    ("entries", .number s.entries),
    ("digest", .string s.digest.toHex),
    ("input_classes", .number s.stats.inputClasses),
    ("classpath_classes", .number s.stats.classpathClasses),
    ("stub_classes", .number s.stats.stubClasses),
    ("renamed_classes", .number s.stats.renamedClasses),
    ("propagation_groups", .number s.stats.propagationGroups),
    ("threads", .number s.stats.threads),
    ("duration_ms", .number s.durationMs),
    ("warnings", .list (s.warnings.map (·.toJson)))]

end Relabel
