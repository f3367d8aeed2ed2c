import Cppgres.Postgres.Xact

/-!
# The server programming interface

The functions of `spi.c` that `spi_executor` calls: the stack of connections, statements
and plans, and the end of a transaction under a connection. Which connection each of them
works on is kept in `spiCalls`.
-/
namespace Cppgres

/-! The return codes that the library tells apart. -/

def spiOkConnect : Int := 1
def spiOkFinish : Int := 2
def spiOkUtility : Int := 4
def spiOkSelect : Int := 5
def spiOkInsertReturning : Int := 11
def spiOkDeleteReturning : Int := 12
def spiOkUpdateReturning : Int := 13
def spiOkMergeReturning : Int := 19
def spiErrorUnconnected : Int := -4
def spiErrorArgument : Int := -6

/-- `SPIPlanPtr`, as far as it is asked for. -/
structure SpiPlanPtr where
  src : String
  argtypes : List Oid
  deriving DecidableEq, Repr

namespace Session

/-- What the next call that may fail fails with, if it does. -/
def spiFailure (s : Session) : Option ErrorData := s.spiFailures.head?.join

/-- A function of SPI works on the innermost connection. -/
def touch (connection : SpiConnection) (s : Session) : Session :=
  { s with spiCalls := connection.procCxt :: s.spiCalls }

/-- A new connection of the current subtransaction. -/
def connection (nonatomic : Bool) (s : Session) : SpiConnection where
  procCxt := s.nextProcCxt
  savedcxt := s.currentMemoryContext
  connectSubid := s.subtransactions.head?
  atomic := !nonatomic

/-- The session with that connection on its stack. -/
def connected (nonatomic : Bool) (s : Session) : Session :=
  { s with
    spi := s.connection nonatomic :: s.spi
    currentMemoryContext := s.nextProcCxt
    nextProcCxt := s.nextProcCxt + 1
    spiFailures := s.spiFailures.tail }

/-- `SPI_connect_ext`. -/
def spiConnectExt (nonatomic : Bool) (s : Session) : Except Failure Int × Session :=
  match s.spiFailure with
  | some edata => (.error (.error edata), { s with spiFailures := s.spiFailures.tail })
  | none => (.ok spiOkConnect, s.connected nonatomic)

/-- `SPI_finish`. -/
def spiFinish (s : Session) : Except Failure Int × Session :=
  match s.spi with
  | [] => (.ok spiErrorUnconnected, s)
  | connection :: outer =>
    (.ok spiOkFinish, { s with spi := outer, currentMemoryContext := connection.savedcxt })

/-- `_SPI_execute_plan` under a connection. When it succeeds, the memory context of the
connection is the current one. -/
def execute (connection : SpiConnection) (statement : Statement) (s : Session) :
    Except Failure Int × Session :=
  let used := { s.touch connection with executed := s.executed + 1 }
  match s.outcome s.executed statement with
  | .raised edata => (.error (.error edata), used)
  | .done rc tuptable processed =>
    (.ok rc, { used with
      currentMemoryContext := connection.procCxt
      spiTuptable := tuptable
      spiProcessed := processed })

/-- `SPI_execute_with_args`. -/
def spiExecuteWithArgs (statement : Statement) (s : Session) : Except Failure Int × Session :=
  if statement.tcount < 0 then (.ok spiErrorArgument, s)
  else
    match s.spi with
    | [] => (.ok spiErrorUnconnected, s)
    | connection :: _ => s.execute connection statement

/-- `SPI_execute_plan`: the statement is that of the plan. -/
def spiExecutePlan (plan : SpiPlanPtr) (values : List Datum) (nulls : List Char) (readOnly : Bool)
    (tcount : Int) (s : Session) : Except Failure Int × Session :=
  s.spiExecuteWithArgs ⟨plan.src, plan.argtypes, values, nulls, readOnly, tcount⟩

/-- `SPI_prepare`. Without a connection there is no plan. -/
def spiPrepare (src : String) (argtypes : List Oid) (s : Session) :
    Except Failure (Option SpiPlanPtr) × Session :=
  match s.spi with
  | [] => (.ok none, s)
  | connection :: _ =>
    let used := { s.touch connection with spiFailures := s.spiFailures.tail }
    match s.spiFailure with
    | some edata => (.error (.error edata), used)
    | none => (.ok (some ⟨src, argtypes⟩), { used with currentMemoryContext := connection.procCxt })

/-- A transaction ends and the next one starts. -/
def nextTransactionCommand (fate : Fate) (s : Session) : Except Failure Unit × Session :=
  match s.endTransaction fate with
  | (.error failure, t) => (.error failure, t)
  | (.ok (), t) => t.startTransactionCommand

/-- `_SPI_commit` and `_SPI_rollback`. The connections outlive the transaction
(`internal_xact`). Without a connection they follow a null pointer. -/
def spiEnd (fate : Fate) (s : Session) : Except Failure Unit × Session :=
  match s.spi with
  | [] => (.error .fatal, s)
  | connection :: _ =>
    let used := { s.touch connection with spiFailures := s.spiFailures.tail }
    if connection.atomic ∨ s.subtransactions ≠ [] then (.error (.error s.stateError), used)
    else
      match s.spiFailure with
      | some edata =>
        match used.nextTransactionCommand .rolledBack with
        | (.ok (), t) => (.error (.error edata), t)
        | (.error failure, t) => (.error failure, t)
      | none => used.nextTransactionCommand fate

def spiCommit (s : Session) : Except Failure Unit × Session := s.spiEnd .released

/-- It differs from `SPI_commit` in the characteristics of the next transaction. -/
def spiCommitAndChain (s : Session) : Except Failure Unit × Session := s.spiEnd .released

def spiRollback (s : Session) : Except Failure Unit × Session := s.spiEnd .rolledBack

def spiRollbackAndChain (s : Session) : Except Failure Unit × Session := s.spiEnd .rolledBack

theorem spiConnectExt_cases {nonatomic : Bool} {s after : Session} {result : Except Failure Int}
    (run : s.spiConnectExt nonatomic = (result, after)) :
    result = .ok spiOkConnect ∧ after = s.connected nonatomic ∨
      ∃ edata, result = .error (.error edata) ∧
        after = { s with spiFailures := s.spiFailures.tail } := by
  unfold spiConnectExt at run
  cases failure : s.spiFailure with
  | none =>
    rw [failure] at run
    cases run
    exact .inl ⟨rfl, rfl⟩
  | some edata =>
    rw [failure] at run
    cases run
    exact .inr ⟨edata, rfl, rfl⟩

/-! ## What becomes of the connections -/

/-- From one session to another the connections stay as they are, and those that were
worked on are `calls`. -/
structure Worked (calls : List MemoryContext) (before after : Session) : Prop where
  spi : after.spi = before.spi
  nextProcCxt : before.nextProcCxt ≤ after.nextProcCxt
  spiCalls : after.spiCalls = calls ++ before.spiCalls

theorem Worked.trans {s t u : Session} {calls calls' : List MemoryContext}
    (one : s.Worked calls t) (two : t.Worked calls' u) : s.Worked (calls' ++ calls) u where
  spi := two.spi.trans one.spi
  nextProcCxt := Nat.le_trans one.nextProcCxt two.nextProcCxt
  spiCalls := by rw [two.spiCalls, one.spiCalls, List.append_assoc]

/-- The end of the innermost subtransaction by this fate is going to discard a connection.
A release that is going to fail ends nothing. -/
def discards (fate : Fate) (s : Session) : Bool :=
  match s.subtransactions, s.spi with
  | id :: _, connection :: _ =>
    connection.connectSubid == some id && (fate == .rolledBack || s.releaseFailure.isNone)
  | [], _ => false
  | _ :: _, [] => false

section Worked
variable {s : Session} {connection : SpiConnection} {outer : List SpiConnection}

theorem worked_executeWithArgs {statement : Statement} (connected : s.spi = connection :: outer)
    (count : ¬ statement.tcount < 0) :
    s.Worked [connection.procCxt] (s.spiExecuteWithArgs statement).2 := by
  unfold spiExecuteWithArgs
  rw [if_neg count, connected]
  dsimp only
  unfold execute
  cases s.outcome s.executed statement <;> exact ⟨rfl, Nat.le_refl _, rfl⟩

theorem worked_prepare {src : String} {argtypes : List Oid}
    (connected : s.spi = connection :: outer) :
    s.Worked [connection.procCxt] (s.spiPrepare src argtypes).2 := by
  unfold spiPrepare
  rw [connected]
  dsimp only
  cases s.spiFailure <;> exact ⟨rfl, Nat.le_refl _, rfl⟩

theorem worked_nextTransactionCommand (fate : Fate) :
    s.Worked [] (s.nextTransactionCommand fate).2 := by
  unfold nextTransactionCommand endTransaction commitTransactionCommand abortCurrentTransaction
    startTransactionCommand
  cases fate <;> cases transaction : s.transaction <;>
    simp only [transaction] <;> exact ⟨rfl, Nat.le_refl _, rfl⟩

theorem worked_end (fate : Fate) (connected : s.spi = connection :: outer) :
    s.Worked [connection.procCxt] (s.spiEnd fate).2 := by
  let used : Session := { s.touch connection with spiFailures := s.spiFailures.tail }
  have touched : s.Worked [connection.procCxt] used := ⟨rfl, Nat.le_refl _, rfl⟩
  have next (fate : Fate) : s.Worked [connection.procCxt] (used.nextTransactionCommand fate).2 :=
    touched.trans (worked_nextTransactionCommand fate)
  unfold spiEnd
  rw [connected]
  dsimp only
  split
  · exact touched
  · cases s.spiFailure with
    | none => exact next fate
    | some edata =>
      have failed := next .rolledBack
      dsimp only
      generalize used.nextTransactionCommand .rolledBack = ended at failed ⊢
      obtain ⟨failure | done, t⟩ := ended <;> exact failed

/-- A subtransaction that ends without discarding connections. -/
theorem worked_settle {fate : Fate} {id : SubTransactionId} {below : List SubTransactionId}
    (kept : ∀ connection ∈ s.spi.head?, connection.connectSubid ≠ some id) :
    s.Worked [] (s.settle fate id below) := by
  have same : s.spi.dropWhile (fun connection => connection.connectSubid = some id) = s.spi := by
    cases spi : s.spi with
    | nil => rfl
    | cons connection outer =>
      rw [spi] at kept
      exact List.dropWhile_cons_of_neg (by simpa using kept connection rfl)
  cases fate <;> exact ⟨same, Nat.le_refl _, rfl⟩

/-- What an end that discards nothing and does not fail says of the innermost connection. -/
theorem spared {fate : Fate} {id : SubTransactionId} {below : List SubTransactionId}
    (spares : s.discards fate = false) (top : s.subtransactions = id :: below)
    (succeeds : fate = .released → s.releaseFailure = none) :
    ∀ connection ∈ s.spi.head?, connection.connectSubid ≠ some id := by
  intro connection first
  obtain ⟨outer, spi⟩ : ∃ outer, s.spi = connection :: outer := List.head?_eq_some_iff.mp first
  unfold discards at spares
  rw [top, spi] at spares
  cases fate with
  | released =>
    rw [succeeds rfl] at spares
    simpa using spares
  | rolledBack => simpa using spares

theorem worked_release (spares : s.discards .released = false) :
    s.Worked [] s.releaseCurrentSubTransaction.2 := by
  cases failure : s.releaseFailure with
  | some edata =>
    rw [releaseCurrentSubTransaction_error failure]
    exact ⟨rfl, Nat.le_refl _, rfl⟩
  | none =>
    cases top : s.subtransactions with
    | nil =>
      unfold releaseFailure at failure
      rw [top] at failure
      cases failure
    | cons id below =>
      rw [releaseCurrentSubTransaction_ok top failure]
      have kept : s.Worked [] (s.settle .released id below) :=
        worked_settle (spared spares top fun _ => failure)
      exact kept

theorem worked_rollback (spares : s.discards .rolledBack = false) :
    s.Worked [] s.rollbackAndReleaseCurrentSubTransaction.2 := by
  cases top : s.subtransactions with
  | nil =>
    unfold rollbackAndReleaseCurrentSubTransaction
    rw [top]
    exact ⟨rfl, Nat.le_refl _, rfl⟩
  | cons id below =>
    rw [rollbackAndReleaseCurrentSubTransaction_ok top]
    have kept : s.Worked [] (s.settle .rolledBack id below) :=
      worked_settle (spared spares top nofun)
    exact kept

end Worked

end Session

end Cppgres
