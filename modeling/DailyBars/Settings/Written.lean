import DailyBars.Rehearsal.Notation
import DailyBars.Settings.App

/-!
# Settings as JSON

All settings, with the defaults filled in.
-/

namespace DailyBars

/-- The settings as JSON, in the form in which they are read. -/
def AppSettings.toJson (s : AppSettings) : Json :=
  .obj [
    ("database", .obj [("url", .str s.database.url),
      ("max_connections", .nat s.database.maxConnections),
      ("connection_timeout_secs", .nat s.database.connectionTimeoutSecs)]),
    ("redis", .obj [("url", .str s.redis.url), ("key_prefix", .str s.redis.keyPrefix)]),
    ("kis", .obj [("environment", .str s.broker.environment),
      ("base_url", .str? s.broker.baseUrl), ("default_account", .str? s.broker.defaultAccount),
      ("user_id", .str? s.broker.userId), ("timeout_secs", .nat s.broker.timeoutSecs),
      ("requests_per_second", .nat s.broker.requestsPerSecond),
      ("accounts", .list (s.broker.accounts.map Account.toJson))]),
    ("secrets", .obj [("token_key", .str s.secrets.tokenKey),
      ("key_hash_secret", .str s.secrets.keyHashSecret)]),
    ("jobs", .obj [("instrument_page_size", .nat s.jobs.instrumentPageSize),
      ("backfill_start_date", .str s.jobs.backfillStart.iso),
      ("lock_at_most_secs", .nat s.jobs.lockAtMostSecs),
      ("lock_at_least_secs", .nat s.jobs.lockAtLeastSecs),
      ("backfill_time", .str s.jobs.backfillTime.text),
      ("collection_time", .str s.jobs.collectionTime.text)]),
    ("logging", .obj [("level", .str s.log.level), ("format", .str s.log.format)])]

end DailyBars
