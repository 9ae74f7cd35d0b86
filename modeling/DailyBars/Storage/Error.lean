import DailyBars.Text.Quoted

/-!
# Failures of the stores

Two levels: what went wrong inside a store, and what the collector sees of it. Any of them means
that the store is not in order, which somebody has to look at.
-/

namespace DailyBars

/-- What the collector sees of a failing store. -/
inductive StorageError where
  | connection (reason : String)
  | query (reason : String)
  | transaction (reason : String)
  deriving DecidableEq, Repr

namespace StorageError

/-- The wording of a failure. -/
def message : StorageError → String
  | connection r => "저장소 연결 에러: " ++ r
  | query r => "쿼리 에러: " ++ r
  | transaction r => "트랜잭션 에러: " ++ r

/-- The name of the kind of a failure. -/
def kindName : StorageError → String
  | connection _ => "Connection"
  | query _ => "Query"
  | transaction _ => "Transaction"

/-- What a diagnostic shows of a failure. -/
def shown (e : StorageError) : String :=
  let detail := match e with
    | connection r | query r | transaction r => r
  e.kindName ++ "(" ++ Text.quoted detail ++ ")"

end StorageError

/-- What went wrong inside a store. -/
inductive DataError where
  | connection (reason : String)
  | query (reason : String)
  | notFound (reason : String)
  | duplicate (reason : String)
  | cache (reason : String)
  | migration (reason : String)
  | poolExhausted
  | insert (reason : String)
  | transaction (reason : String)
  deriving DecidableEq, Repr

namespace DataError

/-- The wording of a failure. -/
def message : DataError → String
  | connection r => "Database connection error: " ++ r
  | query r => "Query error: " ++ r
  | notFound r => "Record not found: " ++ r
  | duplicate r => "Duplicate record: " ++ r
  | cache r => "Cache error: " ++ r
  | migration r => "Migration error: " ++ r
  | poolExhausted => "Connection pool exhausted"
  | insert r => "Insert error: " ++ r
  | transaction r => "Transaction error: " ++ r

/-- The name of the kind of a failure. -/
def kindName : DataError → String
  | connection _ => "ConnectionError"
  | query _ => "QueryError"
  | notFound _ => "NotFound"
  | duplicate _ => "DuplicateError"
  | cache _ => "CacheError"
  | migration _ => "MigrationError"
  | poolExhausted => "PoolExhausted"
  | insert _ => "InsertError"
  | transaction _ => "TransactionError"

/-- What a diagnostic shows of a failure. -/
def shown (e : DataError) : String :=
  match e with
  | poolExhausted => e.kindName
  | connection r | query r | notFound r | duplicate r | cache r | migration r | insert r
  | transaction r => e.kindName ++ "(" ++ Text.quoted r ++ ")"

/-- What the collector sees of it. -/
def toStorage (e : DataError) : StorageError :=
  match e with
  | connection _ | poolExhausted | cache _ => .connection e.message
  | transaction _ => .transaction e.message
  | _ => .query e.message

end DataError

/-- How a database statement can fail. -/
inductive DatabaseError where
  | rowNotFound
  | poolTimedOut
  | io (reason : String)
  /-- The server refused the statement, with its five-letter code. -/
  | refused (code message : String)
  | protocol (reason : String)
  deriving DecidableEq, Repr

/-- The wording of a failed statement. -/
def DatabaseError.message : DatabaseError → String
  | rowNotFound => "no rows returned by a query that expected to return at least one row"
  | poolTimedOut => "pool timed out while waiting for an open connection"
  | io r => "error communicating with database: " ++ r
  | refused _ text => "error returned from database: " ++ text
  | protocol r => "encountered unexpected or invalid data: " ++ r

/-- The failure of the store behind a failed statement. The code of a broken unique constraint tells
a duplicate. -/
def DataError.ofDatabase : DatabaseError → DataError
  | .rowNotFound => .notFound "Row not found"
  | .poolTimedOut => .poolExhausted
  | .io r => .connection r
  | .refused code text => if code = "23505" then .duplicate text else .query text
  | .protocol r => .query (DatabaseError.protocol r).message

end DailyBars
