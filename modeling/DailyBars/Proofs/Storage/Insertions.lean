import DailyBars.Proofs.Recorded
import DailyBars.Storage.Database
import Mathlib.Algebra.GroupWithZero.Nat
import Mathlib.Data.Finset.Card
import Mathlib.Data.Finset.Dedup

/-!
# Inserting bars block after block

Bars are sent in blocks, and a block as ten lists, one for each column. Read row by row over all the
statements the lists give the bars again, each under its key and in its place. A server that inserts a
row only if its primary key is absent makes no difference between the blocks and all the bars at once,
so the number of rows that it has written is the number of days that were not stored before.
-/

namespace DailyBars

/-! ### Blocks -/

section Blocks

variable {α : Type} {size : Nat} {h : 0 < size} {xs block : List α}

theorem flatten_blocksOf : (blocksOf size h xs).flatten = xs := by
  induction xs using blocksOf.induct size h with
  | case1 => rw [blocksOf, List.flatten_nil]
  | case2 x rest ih => rw [blocksOf, List.flatten_cons, ih, List.take_append_drop]

theorem length_of_mem_blocksOf (hblock : block ∈ blocksOf size h xs) :
    1 ≤ block.length ∧ block.length ≤ size := by
  induction xs using blocksOf.induct size h with
  | case1 => simp [blocksOf] at hblock
  | case2 x rest ih =>
      rw [blocksOf, List.mem_cons] at hblock
      rcases hblock with rfl | hblock
      · rw [List.length_take, List.length_cons]
        omega
      · exact ih hblock

/-- Only the last block may be shorter. -/
theorem length_of_mem_dropLast_blocksOf (hblock : block ∈ (blocksOf size h xs).dropLast) :
    block.length = size := by
  induction xs using blocksOf.induct size h with
  | case1 => simp [blocksOf] at hblock
  | case2 x rest ih =>
      rw [blocksOf] at hblock
      by_cases hlast : blocksOf size h ((x :: rest).drop size) = []
      · simp [hlast] at hblock
      · rw [List.dropLast_cons_of_ne_nil hlast, List.mem_cons] at hblock
        rcases hblock with rfl | hblock
        · -- Something is left after this block, so there was enough for a whole one.
          have hleft : (x :: rest).drop size ≠ [] := by
            intro hnil
            rw [hnil, blocksOf] at hlast
            exact hlast rfl
          rw [Ne, List.drop_eq_nil_iff] at hleft
          rw [List.length_take]
          omega
        · exact ih hblock

end Blocks

/-! ### Rows -/

/-- A row of an insertion: a value for each column. -/
structure InsertedRow where
  assetType : Int
  stockCode : String
  exchangeCode : String
  tradeDate : Date
  openPrice : Decimal
  high : Decimal
  low : Decimal
  close : Decimal
  volume : Decimal
  tradingValue : Decimal
  deriving DecidableEq

namespace InsertedRow

/-- The row of a bar. A key without an exchange has the empty text in its place. -/
def ofBar (key : InstrumentKey) (b : Bar) : InsertedRow where
  assetType := key.assetType.code
  stockCode := key.stockCode
  exchangeCode := key.exchangeCode.getD ""
  tradeDate := b.tradeDate
  openPrice := b.openPrice
  high := b.high
  low := b.low
  close := b.close
  volume := b.volume
  tradingValue := b.tradingValue

/-- What no two rows of a table have in common. -/
def primaryKey (r : InsertedRow) : Int × String × String × Date :=
  (r.assetType, r.stockCode, r.exchangeCode, r.tradeDate)

end InsertedRow

namespace BarColumns

/-- The lengths of the ten lists. -/
def lengths (c : BarColumns) : List Nat :=
  [c.assetTypes.length, c.stockCodes.length, c.exchangeCodes.length, c.tradeDates.length,
    c.opens.length, c.highs.length, c.lows.length, c.closes.length, c.volumes.length,
    c.tradingValues.length]

/-- The lists read row by row. -/
def rows (c : BarColumns) : List InsertedRow :=
  (c.assetTypes.zip <| c.stockCodes.zip <| c.exchangeCodes.zip <| c.tradeDates.zip <| c.opens.zip <|
    c.highs.zip <| c.lows.zip <| c.closes.zip <| c.volumes.zip c.tradingValues).map
    fun (assetType, stockCode, exchangeCode, tradeDate, openPrice, high, low, close, volume,
        tradingValue) =>
      ⟨assetType, stockCode, exchangeCode, tradeDate, openPrice, high, low, close, volume,
        tradingValue⟩

variable {key : InstrumentKey} {bars : List Bar}

theorem lengths_ofBars : (ofBars key bars).lengths = List.replicate 10 bars.length := by
  simp [lengths, ofBars, List.replicate]

/-- The columns of some bars have the rows of the bars. -/
theorem rows_ofBars : (ofBars key bars).rows = bars.map (InsertedRow.ofBar key) := by
  simp only [rows, ofBars, List.zip_map', List.map_map]
  rfl

end BarColumns

/-! ### The statements that are sent -/

/-- A statement that was sent, with its answer. -/
structure SentStatement where
  statement : Statement
  answer : Except DatabaseError StatementResult

namespace SentStatement

/-- The error with which the statement was answered. -/
def failure? (q : SentStatement) : Option DatabaseError :=
  match q.answer with
  | .ok _ => none
  | .error e => some e

/-- The number of rows that the server has told. -/
def affected (q : SentStatement) : Nat :=
  match q.answer with
  | .ok r => r.rowsWritten
  | .error _ => 0

/-- The rows of an insertion. -/
def rows (q : SentStatement) : List InsertedRow :=
  match q.statement with
  | .insert columns => columns.rows
  | _ => []

/-- The statement inserts so many rows: it has ten lists of this length. -/
def Inserts (q : SentStatement) (n : Nat) : Prop :=
  ∃ columns, q.statement = .insert columns ∧ columns.lengths = List.replicate 10 n

end SentStatement

namespace DatabaseLink

variable {σ : Type} {link : DatabaseLink σ} {key : InstrumentKey} {block : List Bar}
  {blocks rest : List (List Bar)} {sent : List SentStatement} {s s' : Session σ}

/-- The connection with a record of what is sent over it. -/
def recorded (link : DatabaseLink σ) : DatabaseLink (σ × List SentStatement) := fun q =>
  (link q).recorded fun _ answer => ⟨q, answer⟩

/-- What is sent for some blocks: a statement for each, until one fails. -/
inductive BlocksSent (key : InstrumentKey) : List (List Bar) → List SentStatement → Prop
  | nil : BlocksSent key [] []
  | refused {block : List Bar} {rest : List (List Bar)} {e : DatabaseError} :
      BlocksSent key (block :: rest) [⟨.insert (.ofBars key block), .error e⟩]
  | next {block : List Bar} {rest : List (List Bar)} {r : StatementResult}
      {sent : List SentStatement} : BlocksSent key rest sent →
      BlocksSent key (block :: rest) (⟨.insert (.ofBars key block), .ok r⟩ :: sent)

/-- What an insertion comes to by its statements: the failure of one, or the sum of what the server has
told. -/
def resultOf (sent : List SentStatement) : Except StorageError Nat :=
  match sent.findSome? SentStatement.failure? with
  | some e => .error (.query ("Insert error: " ++ e.message))
  | none => .ok (sent.map SentStatement.affected).sum

theorem resultOf_next {r : StatementResult} :
    resultOf (⟨.insert (.ofBars key block), .ok r⟩ :: sent) =
      (resultOf sent).map (r.rowsWritten + ·) := by
  unfold resultOf
  rw [List.findSome?_cons]
  cases sent.findSome? SentStatement.failure? with
  | some e => rfl
  | none => rfl

theorem insertBlocks_refused {e : DatabaseError}
    (h : (link (.insert (.ofBars key block))).exec s = (.error e, s')) :
    (insertBlocks link key (block :: rest)).exec s = (.error (ofInsert e).toStorage, s') := by
  rw [insertBlocks]
  refine Attempt.exec_bind_error ?_
  exact Attempt.exec_orElseAs_eq_error.mpr ⟨e, h, rfl⟩

theorem insertBlocks_next {r : StatementResult} {s₁ : Session σ} {result : Except StorageError Nat}
    (h : (link (.insert (.ofBars key block))).exec s = (.ok r, s₁))
    (hrest : (insertBlocks link key rest).exec s₁ = (result, s')) :
    (insertBlocks link key (block :: rest)).exec s = (result.map (r.rowsWritten + ·), s') := by
  rw [insertBlocks, send, Attempt.exec_bind_ok (Attempt.exec_orElseAs_ok.mpr h)]
  cases result with
  | ok n => rw [Attempt.exec_bind_ok hrest]; rfl
  | error e => exact Attempt.exec_bind_error hrest

theorem exec_insert_recorded {answer : Except DatabaseError StatementResult}
    (h : (link (.insert (.ofBars key block))).exec s = (answer, s')) (noted : List SentStatement) :
    (link.recorded (.insert (.ofBars key block))).exec (s.withRecord noted) =
      (answer, s'.withRecord (noted ++ [⟨.insert (.ofBars key block), answer⟩])) :=
  Attempt.exec_recorded h (fun _ answer => SentStatement.mk _ answer) noted

/-- Blocks are sent one after the other until one fails, and the insertion comes to what the answers
say. On record it does the same as without. -/
theorem exec_insertBlocks_recorded (link : DatabaseLink σ) (key : InstrumentKey)
    (blocks : List (List Bar)) (s : Session σ) :
    ∃ sent s', BlocksSent key blocks sent ∧
      (insertBlocks link key blocks).exec s = (resultOf sent, s') ∧
      ∀ noted, (insertBlocks link.recorded key blocks).exec (s.withRecord noted) =
        (resultOf sent, s'.withRecord (noted ++ sent)) := by
  induction blocks generalizing s with
  | nil =>
      refine ⟨[], s, .nil, rfl, fun noted => ?_⟩
      rw [List.append_nil]
      rfl
  | cons block rest ih =>
      rcases hinsert : (link (.insert (.ofBars key block))).exec s with ⟨answer, s₁⟩
      have hinsert' := exec_insert_recorded hinsert
      cases answer with
      | error e =>
          exact ⟨_, s₁, .refused, insertBlocks_refused hinsert, fun noted =>
            insertBlocks_refused (hinsert' noted)⟩
      | ok r =>
          obtain ⟨sent, s', hsent, hplain, hrecorded⟩ := ih s₁
          refine ⟨_, s', .next (r := r) hsent, ?_, fun noted => ?_⟩
          · rw [insertBlocks_next hinsert hplain, resultOf_next]
          · rw [insertBlocks_next (hinsert' noted) (hrecorded _), resultOf_next, List.append_assoc]
            rfl

namespace BlocksSent

/-- Only blocks are sent. -/
theorem exists_block (h : BlocksSent key blocks sent) :
    ∀ q ∈ sent, ∃ block ∈ blocks, q.statement = .insert (.ofBars key block) := by
  induction h with
  | nil => simp
  | refused => simp
  | next _ ih =>
      intro q hq
      rcases List.mem_cons.mp hq with rfl | hq
      · exact ⟨_, List.mem_cons_self, rfl⟩
      · obtain ⟨block, hblock, hstatement⟩ := ih q hq
        exact ⟨block, List.mem_cons_of_mem _ hblock, hstatement⟩

/-- What is sent before the last statement was answered, and is not the last block. -/
theorem exists_block_of_mem_dropLast (h : BlocksSent key blocks sent) :
    ∀ q ∈ sent.dropLast, q.failure? = none ∧
      ∃ block ∈ blocks.dropLast, q.statement = .insert (.ofBars key block) := by
  induction h with
  | nil => simp
  | refused => simp
  | @next block rest r sent hrest ih =>
      intro q hq
      have hsent : sent ≠ [] := by
        rintro rfl
        cases hq
      have hleft : rest ≠ [] := by
        rintro rfl
        cases hrest
        exact hsent rfl
      rw [List.dropLast_cons_of_ne_nil hsent, List.mem_cons] at hq
      rw [List.dropLast_cons_of_ne_nil hleft]
      rcases hq with rfl | hq
      · exact ⟨rfl, _, List.mem_cons_self, rfl⟩
      · obtain ⟨hok, block, hblock, hstatement⟩ := ih q hq
        exact ⟨hok, block, List.mem_cons_of_mem _ hblock, hstatement⟩

/-- The rows that are sent are those of the first bars, in order. -/
theorem rows_prefix (h : BlocksSent key blocks sent) :
    sent.flatMap SentStatement.rows <+: blocks.flatten.map (InsertedRow.ofBar key) := by
  induction h with
  | nil => exact List.prefix_refl _
  | refused =>
      rw [List.flatMap_singleton, List.flatten_cons, List.map_append]
      exact BarColumns.rows_ofBars ▸ List.prefix_append _ _
  | next _ ih =>
      rw [List.flatMap_cons, List.flatten_cons, List.map_append]
      exact BarColumns.rows_ofBars ▸ (List.prefix_append_right_inj _).mpr ih

/-- If nothing fails, the rows of all the bars are sent. -/
theorem rows_eq (h : BlocksSent key blocks sent) (hok : ∀ q ∈ sent, q.failure? = none) :
    sent.flatMap SentStatement.rows = blocks.flatten.map (InsertedRow.ofBar key) := by
  induction h with
  | nil => rfl
  | refused => cases hok _ List.mem_cons_self
  | next _ ih =>
      rw [List.flatMap_cons, List.flatten_cons, List.map_append,
        ih fun q hq => hok q (List.mem_cons_of_mem _ hq)]
      exact congrArg (· ++ _) BarColumns.rows_ofBars

end BlocksSent

/-! ### The table behind the server -/

/-- A table with one more row, unless it has one with its primary key. -/
def insertRow (table : List InsertedRow) (r : InsertedRow) : List InsertedRow :=
  if r.primaryKey ∈ table.map (·.primaryKey) then table else table ++ [r]

/-- A table after an insertion of rows. -/
def insertRows (table rows : List InsertedRow) : List InsertedRow := rows.foldl insertRow table

/-- Whenever the server answers an insertion of lists of one length, it has inserted exactly the rows
whose primary key was absent, and tells their number. -/
structure KeepsTable (link : DatabaseLink σ) (table : σ → List InsertedRow) : Prop where
  insert : ∀ (columns : BarColumns) (n : Nat) (s s' : Session σ) (r : StatementResult),
    columns.lengths = List.replicate 10 n → (link (.insert columns)).exec s = (.ok r, s') →
    table s'.world = insertRows (table s.world) columns.rows ∧
      ∃ added, r = .written added ∧ (table s'.world).length = (table s.world).length + added

/-- A bar is stored for the key and the day: there is a row with their primary key. -/
def IsStored (table : List InsertedRow) (key : InstrumentKey) (day : Date) : Prop :=
  (key.assetType.code, key.stockCode, key.exchangeCode.getD "", day) ∈ table.map (·.primaryKey)

instance (table : List InsertedRow) (key : InstrumentKey) (day : Date) :
    Decidable (IsStored table key day) :=
  inferInstanceAs (Decidable (_ ∈ _))

section Table

variable {table : List InsertedRow} {bars : List Bar} {b : Bar} {day : Date}

theorem primaryKey_mem_iff :
    (InsertedRow.ofBar key b).primaryKey ∈ table.map (·.primaryKey) ↔
      IsStored table key b.tradeDate :=
  Iff.rfl

theorem isStored_append_ofBar :
    IsStored (table ++ [.ofBar key b]) key day ↔ IsStored table key day ∨ day = b.tradeDate := by
  simp [IsStored, InsertedRow.ofBar, InsertedRow.primaryKey]

/-- An insertion takes nothing away from a table. -/
theorem prefix_insertRows {rows : List InsertedRow} : table <+: insertRows table rows := by
  induction rows generalizing table with
  | nil => exact List.prefix_refl table
  | cons r rest ih =>
      have hrow : table <+: insertRow table r := by
        unfold insertRow
        split
        · exact List.prefix_refl table
        · exact List.prefix_append table [r]
      exact hrow.trans ih

/-- A table grows by as many rows as the bars have days that were not stored. -/
theorem length_insertRows : (insertRows table (bars.map (.ofBar key))).length = table.length +
    ((bars.map (·.tradeDate)).toFinset.filter fun day => ¬ IsStored table key day).card := by
  induction bars generalizing table with
  | nil => rfl
  | cons b rest ih =>
      have hstep : insertRows table ((b :: rest).map (.ofBar key)) =
          insertRows (insertRow table (.ofBar key b)) (rest.map (.ofBar key)) := rfl
      rw [hstep, ih, insertRow, List.map_cons, List.toFinset_cons]
      by_cases hstored : IsStored table key b.tradeDate
      · rw [if_pos (primaryKey_mem_iff.mpr hstored), Finset.filter_insert,
          if_neg (not_not.mpr hstored)]
      · -- The day of the bar is new, and is stored when the others are inserted.
        have hinsert : ((insert b.tradeDate (rest.map (·.tradeDate)).toFinset).filter fun day =>
              ¬ IsStored table key day) =
            insert b.tradeDate ((rest.map (·.tradeDate)).toFinset.filter fun day =>
              ¬ IsStored (table ++ [.ofBar key b]) key day) := by
          ext day
          by_cases hday : day = b.tradeDate
          · subst hday
            simp [hstored]
          · simp [isStored_append_ofBar, hday]
        rw [if_neg fun h => hstored (primaryKey_mem_iff.mp h), hinsert, Finset.card_insert_of_notMem]
        · rw [List.length_append, List.length_singleton]
          omega
        · simp [isStored_append_ofBar]

variable {view : σ → List InsertedRow} {n : Nat}

/-- Insertions block after block come to the same table as one of all the bars. -/
theorem KeepsTable.insertBlocks (keeps : link.KeepsTable view)
    (h : (insertBlocks link key blocks).exec s = (.ok n, s')) :
    view s'.world = insertRows (view s.world) (blocks.flatten.map (.ofBar key)) ∧
      (view s'.world).length = (view s.world).length + n := by
  induction blocks generalizing s n with
  | nil =>
      cases h
      exact ⟨rfl, rfl⟩
  | cons block rest ih =>
      rcases hinsert : (link (.insert (.ofBars key block))).exec s with ⟨answer, s₁⟩
      cases answer with
      | error e => cases (insertBlocks_refused hinsert).symm.trans h
      | ok r =>
          obtain ⟨htable, added, rfl, hadded⟩ :=
            keeps.insert _ _ _ _ _ BarColumns.lengths_ofBars hinsert
          rcases hrest : (DatabaseLink.insertBlocks link key rest).exec s₁ with ⟨result, s₂⟩
          rw [insertBlocks_next hinsert hrest] at h
          cases result with
          | error e => cases h
          | ok m =>
              cases h
              obtain ⟨hmore, hlength⟩ := ih hrest
              rw [htable, BarColumns.rows_ofBars] at hmore
              refine ⟨?_, ?_⟩
              · rw [hmore, insertRows, insertRows, insertRows, ← List.foldl_append, ← List.map_append,
                  List.flatten_cons]
              · rw [hlength, hadded, Nat.add_assoc]
                rfl

end Table

/-! ### All the bars -/

/-- What is sent to save some bars, and what it comes to. -/
structure SavesBars (key : InstrumentKey) (bars : List Bar) (sent : List SentStatement)
    (result : Except StorageError Nat) : Prop where
  /-- Every statement has ten lists of one length, which is at most that of a block. -/
  inserts : ∀ q ∈ sent, ∃ n, q.Inserts n ∧ 1 ≤ n ∧ n ≤ 500
  /-- Only the last one may have shorter lists than a block. -/
  full : ∀ q ∈ sent.dropLast, q.Inserts 500
  /-- Without a bar nothing is sent. -/
  nothing : bars = [] → sent = []
  /-- The rows that are sent are those of the first bars, in order. -/
  rows_prefix : sent.flatMap SentStatement.rows <+: bars.map (.ofBar key)
  /-- If nothing fails, they are those of all the bars, and the result is what the server has told. -/
  answered : (∀ q ∈ sent, q.failure? = none) →
    sent.flatMap SentStatement.rows = bars.map (.ofBar key) ∧
      result = .ok (sent.map SentStatement.affected).sum
  /-- Nothing is sent after a statement that failed, and the failure is one of the store. -/
  failed : ∀ q ∈ sent, ∀ e, q.failure? = some e →
    sent.getLast? = some q ∧ result = .error (.query ("Insert error: " ++ e.message))

variable {bars : List Bar}

theorem inserts_ofBars {q : SentStatement} (h : q.statement = .insert (.ofBars key block)) :
    q.Inserts block.length :=
  ⟨_, h, BarColumns.lengths_ofBars⟩

theorem BlocksSent.savesBars (h : BlocksSent key (blocksOf insertBlockSize (by decide) bars) sent) :
    SavesBars key bars sent (resultOf sent) where
  inserts q hq := by
    obtain ⟨block, hblock, hstatement⟩ := h.exists_block q hq
    obtain ⟨hpos, hle⟩ := length_of_mem_blocksOf hblock
    exact ⟨block.length, inserts_ofBars hstatement, hpos, hle⟩
  full q hq := by
    obtain ⟨-, block, hblock, hstatement⟩ := h.exists_block_of_mem_dropLast q hq
    have hlength : block.length = 500 := length_of_mem_dropLast_blocksOf hblock
    exact hlength ▸ inserts_ofBars hstatement
  nothing hbars := by
    subst hbars
    rw [blocksOf] at h
    cases h
    rfl
  rows_prefix := by
    have hrows := h.rows_prefix
    rwa [flatten_blocksOf] at hrows
  answered hok := by
    have hrows := h.rows_eq hok
    rw [flatten_blocksOf] at hrows
    refine ⟨hrows, ?_⟩
    rw [resultOf, List.findSome?_eq_none_iff.mpr hok]
  failed q hq e he := by
    have hne : sent ≠ [] := List.ne_nil_of_mem hq
    -- All statements but the last were answered, so this is the last one and the first that failed.
    have hothers : sent.dropLast.findSome? SentStatement.failure? = none :=
      List.findSome?_eq_none_iff.mpr fun q hq => (h.exists_block_of_mem_dropLast q hq).1
    have hlast : sent.getLast hne = q := by
      rw [← List.dropLast_append_getLast hne, List.mem_append, List.mem_singleton] at hq
      rcases hq with hq | hq
      · rw [(h.exists_block_of_mem_dropLast q hq).1] at he
        cases he
      · exact hq.symm
    refine ⟨by rw [List.getLast?_eq_some_getLast hne, hlast], ?_⟩
    rw [resultOf, ← List.dropLast_append_getLast hne, List.findSome?_append, hothers, hlast,
      List.findSome?_singleton, he]
    rfl

/-- What is written to the log when bars were to be saved. -/
def toldOf (bars : List Bar) (result : Except StorageError Nat) : List LogEvent :=
  match bars, result with
  | _ :: _, .ok n => [⟨.debug, .priceStore, "Daily prices saved", [("inserted", .nat n)]⟩]
  | _, _ => []

/-- Saving bars is inserting their blocks, and telling so. -/
theorem exec_saveAll {result : Except StorageError Nat}
    (h : (insertBlocks link key (blocksOf insertBlockSize (by decide) bars)).exec s = (result, s')) :
    (link.prices.saveAll key bars).exec s =
      (result, { s' with log := s'.log ++ toldOf bars result }) := by
  change (insertAll link key bars).exec s = _
  unfold insertAll
  cases bars with
  | nil =>
      rw [blocksOf] at h
      cases h
      simp [toldOf]
  | cons b rest =>
      rw [if_neg (by simp)]
      cases result with
      | ok n => rw [Attempt.exec_bind_ok h]; rfl
      | error e => simp [Attempt.exec_bind_error h, toldOf]

/-- **Saving bars sends every bar once.** Whatever the server answers, what is sent is as `SavesBars`
says, on record as well as without. If the server keeps a table and nothing fails, the table is the one
after an insertion of all the bars at once, and the result is the number of days of the bars that were
not stored before. -/
theorem saveAll_sends_bars (link : DatabaseLink σ) (key : InstrumentKey) (bars : List Bar)
    (s : Session σ) :
    ∃ sent result s', SavesBars key bars sent result ∧
      (link.prices.saveAll key bars).exec s = (result, s') ∧
      (link.recorded.prices.saveAll key bars).exec (s.withRecord []) = (result, s'.withRecord sent) ∧
      ∀ table, link.KeepsTable table → ∀ n, result = .ok n →
        table s'.world = insertRows (table s.world) (bars.map (.ofBar key)) ∧
        n = ((bars.map (·.tradeDate)).toFinset.filter fun day =>
          ¬ IsStored (table s.world) key day).card := by
  obtain ⟨sent, s₁, hsent, hplain, hrecorded⟩ :=
    exec_insertBlocks_recorded link key (blocksOf insertBlockSize (by decide) bars) s
  refine ⟨sent, _, _, hsent.savesBars, exec_saveAll hplain, exec_saveAll (hrecorded []), ?_⟩
  intro table keeps n hok
  rw [hok] at hplain
  obtain ⟨htable, hlength⟩ := keeps.insertBlocks hplain
  rw [flatten_blocksOf] at htable
  refine ⟨htable, ?_⟩
  rw [htable, length_insertRows] at hlength
  omega

/-- A server that does nothing but keep a table. -/
def ofTable : DatabaseLink (List InsertedRow) := fun q => ExceptT.mk fun s =>
  match q with
  | .insert columns =>
      let table := insertRows s.world columns.rows
      (.ok (.written (table.length - s.world.length)), { s with world := table })
  | _ => (.error (.protocol ""), s)

theorem keepsTable_ofTable : ofTable.KeepsTable id where
  insert columns n s s' r _ h := by
    cases h
    refine ⟨rfl, _, rfl, ?_⟩
    exact (Nat.add_sub_cancel' prefix_insertRows.length_le).symm

/-- Such a server never fails to save bars. -/
theorem exists_saveAll_ofTable (key : InstrumentKey) (bars : List Bar)
    (s : Session (List InsertedRow)) :
    ∃ n s', (ofTable.prices.saveAll key bars).exec s = (.ok n, s') := by
  have hblocks (blocks : List (List Bar)) (s : Session (List InsertedRow)) :
      ∃ n s', (insertBlocks ofTable key blocks).exec s = (.ok n, s') := by
    induction blocks generalizing s with
    | nil => exact ⟨0, s, rfl⟩
    | cons block rest ih =>
        obtain ⟨n, s', hrest⟩ := ih (Attempt.exec (ofTable (.insert (.ofBars key block))) s).2
        exact ⟨_, s', insertBlocks_next rfl hrest⟩
  obtain ⟨n, s', h⟩ := hblocks (blocksOf insertBlockSize (by decide) bars) s
  exact ⟨n, _, exec_saveAll h⟩

/-- Over a table with a bar for one of three days, bars of which two are for one day: two are counted. -/
theorem saveAll_sends_bars_three_days :
    let day (n : Nat) : Date := ((default : Date).addDays? n).getD default
    let bar (n : Nat) := Bar.closeOnly (day n) .zero
    let key : InstrumentKey := ⟨.domesticStock, "005930", none⟩
    let bars := [bar 5, bar 3, bar 5, bar 1]
    let table : List InsertedRow := [.ofBar key (bar 3)]
    ofTable.KeepsTable id ∧ ∃ sent s', SavesBars key bars sent (.ok 2) ∧
      (ofTable.prices.saveAll key bars).exec ⟨table, ⟨default, 0⟩, []⟩ = (.ok 2, s') ∧
      s'.world = table ++ [.ofBar key (bar 5), .ofBar key (bar 1)] := by
  intro day bar key bars table
  obtain ⟨sent, result, s', hsaves, hrun, -, hkept⟩ :=
    saveAll_sends_bars ofTable key bars ⟨table, ⟨default, 0⟩, []⟩
  obtain ⟨n, _, hanswered⟩ := exists_saveAll_ofTable key bars ⟨table, ⟨default, 0⟩, []⟩
  cases hrun.symm.trans hanswered
  obtain ⟨htable, hn⟩ := hkept id keepsTable_ofTable n rfl
  obtain rfl : n = 2 := hn.trans (by decide)
  exact ⟨keepsTable_ofTable, sent, s', hsaves, hrun, htable.trans (by decide)⟩

end DatabaseLink

end DailyBars
