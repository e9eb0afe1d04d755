import OlapClient.Cache.Settings
import OlapClient.Interchange.Value

/-!
# Structured settings

The settings of a response cache as structured values.
-/

namespace OlapClient.Interchange

open Value

/-- Settings of storage in memory as a structured value. -/
def ofMemorySettings (s : MemorySettings) : Value :=
  object [("max_entries", natural s.capacity),
    ("ttl_secs", natural (s.lifetime.nanoseconds / 1000000000))]

/-- Settings of storage in files as a structured value. -/
def ofFileSettings (s : FileSettings) : Value :=
  object [("input", optional text s.input), ("output", optional text s.output)]

/-- Settings of storage in a table as a structured value. -/
def ofTableSettings (s : TableSettings) : Value :=
  object [("driver", text s.driver), ("url", text s.url), ("user", optional text s.user),
    ("password", optional text s.password), ("create_sql", text s.createSql),
    ("drop_sql", text s.dropSql), ("select_sql", text s.selectSql),
    ("insert_sql", text s.insertSql)]

/-- Settings of a response cache as a structured value. -/
def ofCacheSettings (s : CacheSettings) : Value :=
  object [("record", boolean s.record), ("play", boolean s.play), ("init", boolean s.init),
    ("digest_keys", boolean s.digestKeys), ("enabled", boolean s.isEnabled),
    ("backend", text s.backend.word), ("memory", ofMemorySettings s.memory),
    ("file", ofFileSettings s.file), ("table", ofTableSettings s.table)]

end OlapClient.Interchange
