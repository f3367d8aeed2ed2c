import Cppgres.Postgres.Backend
import Mathlib.Data.List.Nodup

/-!
# Subtransactions and transactions of a session

`BeginInternalSubTransaction`, `ReleaseCurrentSubTransaction` and
`RollbackAndReleaseCurrentSubTransaction` of `xact.c`, with what they do to the current
memory context, the resource owner, the SPI stack and the work done so far; then the
transaction block and the active snapshots.
-/
namespace Cppgres

namespace Session

/-- `BeginInternalSubTransaction`. -/
def beginInternalSubTransaction (_name : Option String) (s : Session) :
    Except Failure Unit × Session :=
  (.ok (), { s with
    subtransactions := s.nextSubTransaction :: s.subtransactions
    nextSubTransaction := s.nextSubTransaction + 1
    currentMemoryContext := s.contextOf (some s.nextSubTransaction)
    currentResourceOwner := s.ownerOf (some s.nextSubTransaction) })

/-- The end of the innermost subtransaction `id`: its SPI connections go, and the level
around it is the current one. -/
def popSubTransaction (id : SubTransactionId) (outer : List SubTransactionId) (fate : Fate)
    (s : Session) : Session :=
  { s with
    subtransactions := outer
    fates := (id, fate) :: s.fates
    spi := s.spi.dropWhile fun connection => connection.connectSubid = some id
    currentMemoryContext := s.contextOf outer.head?
    currentResourceOwner := s.ownerOf outer.head? }

/-- What the next `ReleaseCurrentSubTransaction` fails with, if it does. -/
def releaseFailure (s : Session) : Option ErrorData :=
  match s.subtransactions with
  | [] => some s.stateError
  | id :: _ => if id ∈ s.failed then some s.stateError else s.releaseFailures.head?.join

/-- `ReleaseCurrentSubTransaction`. One that fails leaves its subtransaction open, and
then only a rollback finishes it. -/
def releaseCurrentSubTransaction (s : Session) : Except Failure Unit × Session :=
  let later := { s with releaseFailures := s.releaseFailures.tail }
  match s.releaseFailure, s.subtransactions with
  | some edata, open_ => (.error (.error edata), { later with failed := open_.take 1 ++ s.failed })
  | none, [] => (.ok (), later)
  | none, id :: outer => (.ok (), later.popSubTransaction id outer .released)

def discardWork (id : SubTransactionId) (work : Work) : Work :=
  { work with discarded := work.discarded || decide (id ∈ work.within) }

/-- `RollbackAndReleaseCurrentSubTransaction`. Outside any subtransaction it is fatal. -/
def rollbackAndReleaseCurrentSubTransaction (s : Session) : Except Failure Unit × Session :=
  match s.subtransactions with
  | [] => (.error .fatal, s)
  | id :: outer =>
    (.ok (), { s.popSubTransaction id outer .rolledBack with
      work := s.work.map (discardWork id) })

/-- The session in which the innermost subtransaction `id` has met its fate. -/
def settle (fate : Fate) (id : SubTransactionId) (outer : List SubTransactionId) (s : Session) :
    Session :=
  match fate with
  | .released => { s.popSubTransaction id outer .released with
      releaseFailures := s.releaseFailures.tail }
  | .rolledBack => { s.popSubTransaction id outer .rolledBack with
      work := s.work.map (discardWork id) }

/-- Work of any kind, done in the innermost subtransaction. -/
def doWork (s : Session) : Session :=
  { s with work := s.work ++ [{ within := s.subtransactions, discarded := false }] }

/-- No release of an open subtransaction is going to fail. -/
def releasesSucceed (s : Session) : Prop :=
  s.failed = [] ∧ ∀ failure ∈ s.releaseFailures, failure = none

def timesFinished (s : Session) (id : SubTransactionId) : Nat :=
  (s.fates.map Prod.fst).count id

/-! ## What holds of every session -/

/-- Identifiers are handed out once and finished once; work is discarded with any
subtransaction it was done in. -/
structure Healthy (s : Session) : Prop where
  once : (s.fates.map Prod.fst ++ s.subtransactions).Nodup
  known : ∀ id ∈ s.fates.map Prod.fst ++ s.subtransactions, id < s.nextSubTransaction
  fair : ∀ work ∈ s.work,
    work.discarded = true ↔ ∃ id ∈ work.within, (id, Fate.rolledBack) ∈ s.fates

section Healthy
variable {s : Session} {id : SubTransactionId} {outer : List SubTransactionId}

theorem releaseCurrentSubTransaction_ok (top : s.subtransactions = id :: outer)
    (succeeds : s.releaseFailure = none) :
    s.releaseCurrentSubTransaction =
      (.ok (), s.settle .released id outer) := by
  unfold releaseCurrentSubTransaction
  rw [succeeds, top]
  rfl

theorem releaseCurrentSubTransaction_error {edata : ErrorData}
    (fails : s.releaseFailure = some edata) :
    s.releaseCurrentSubTransaction = (.error (.error edata), { s with
      releaseFailures := s.releaseFailures.tail
      failed := s.subtransactions.take 1 ++ s.failed }) := by
  unfold releaseCurrentSubTransaction
  rw [fails]

theorem rollbackAndReleaseCurrentSubTransaction_ok (top : s.subtransactions = id :: outer) :
    s.rollbackAndReleaseCurrentSubTransaction = (.ok (), s.settle .rolledBack id outer) := by
  unfold rollbackAndReleaseCurrentSubTransaction
  rw [top]
  rfl

/-- What matters for health. -/
theorem Healthy.congr {t : Session} (healthy : s.Healthy) (fates : t.fates = s.fates)
    (stack : t.subtransactions = s.subtransactions) (work : t.work = s.work)
    (next : t.nextSubTransaction = s.nextSubTransaction) : t.Healthy := by
  refine ⟨?_, ?_, ?_⟩
  · rw [fates, stack]
    exact healthy.once
  · rw [fates, stack, next]
    exact healthy.known
  · rw [fates, work]
    exact healthy.fair

theorem Healthy.begin_ (healthy : s.Healthy) (name : Option String) :
    (s.beginInternalSubTransaction name).2.Healthy := by
  have new : s.nextSubTransaction ∉ s.fates.map Prod.fst ++ s.subtransactions :=
    fun old => Nat.lt_irrefl _ (healthy.known _ old)
  have middle : (s.fates.map Prod.fst ++ s.nextSubTransaction :: s.subtransactions).Perm
      (s.nextSubTransaction :: (s.fates.map Prod.fst ++ s.subtransactions)) := List.perm_middle
  refine ⟨?_, ?_, healthy.fair⟩
  · exact middle.nodup_iff.mpr (List.nodup_cons.mpr ⟨new, healthy.once⟩)
  · intro id member
    rcases List.mem_cons.mp (middle.subset member) with same | old
    · subst same
      exact Nat.lt_succ_self _
    · exact Nat.lt_succ_of_lt (healthy.known id old)

@[simp] theorem settle_subtransactions (fate : Fate) (s : Session) :
    (s.settle fate id outer).subtransactions = outer := by cases fate <;> rfl

@[simp] theorem settle_fates (fate : Fate) (s : Session) :
    (s.settle fate id outer).fates = (id, fate) :: s.fates := by cases fate <;> rfl

@[simp] theorem settle_nextSubTransaction (fate : Fate) (s : Session) :
    (s.settle fate id outer).nextSubTransaction = s.nextSubTransaction := by cases fate <;> rfl

/-- A finished subtransaction moves from one list to the other. -/
theorem settle_perm (top : s.subtransactions = id :: outer) (fate : Fate) :
    ((s.settle fate id outer).fates.map Prod.fst ++ (s.settle fate id outer).subtransactions).Perm
      (s.fates.map Prod.fst ++ s.subtransactions) := by
  rw [settle_fates, settle_subtransactions, top]
  exact List.perm_middle.symm

theorem Healthy.settle (healthy : s.Healthy) (top : s.subtransactions = id :: outer)
    (fate : Fate) : (s.settle fate id outer).Healthy := by
  have moved := settle_perm top fate
  refine ⟨moved.nodup_iff.mpr healthy.once, ?_, ?_⟩
  · intro other member
    rw [settle_nextSubTransaction]
    exact healthy.known other (moved.subset member)
  · cases fate with
    | released =>
      intro w member
      rw [healthy.fair w member]
      simp
    | rolledBack =>
      intro w member
      obtain ⟨w, old, rfl⟩ := List.mem_map.mp member
      have fair := healthy.fair w old
      simp only [discardWork, Bool.or_eq_true, decide_eq_true_eq, fair, settle_fates,
        List.mem_cons, Prod.mk.injEq, and_true]
      constructor
      · rintro (⟨other, within, fate⟩ | within)
        · exact ⟨other, within, .inr fate⟩
        · exact ⟨id, within, .inl rfl⟩
      · rintro ⟨other, within, rfl | fate⟩
        · exact .inr within
        · exact .inl ⟨other, within, fate⟩

/-- New work is not discarded: what is open has not been rolled back. -/
theorem Healthy.doWork (healthy : s.Healthy) : s.doWork.Healthy := by
  refine ⟨healthy.once, healthy.known, ?_⟩
  intro w member
  rcases List.mem_append.mp member with old | new
  · exact healthy.fair w old
  · cases List.mem_singleton.mp new
    simp only [Bool.false_eq_true, false_iff, not_exists, not_and]
    intro id open_ rolledBack
    exact (List.nodup_append.mp healthy.once).2.2 _
      (List.mem_map_of_mem rolledBack) _ open_ rfl

/-- A subtransaction is finished at most once. -/
theorem Healthy.timesFinished (healthy : s.Healthy) (done : id ∈ s.fates.map Prod.fst) :
    s.timesFinished id = 1 :=
  List.count_eq_one_of_mem (List.nodup_append.mp healthy.once).1 done

theorem Healthy.open_not_finished (healthy : s.Healthy) (open_ : id ∈ s.subtransactions) :
    id ∉ s.fates.map Prod.fst :=
  fun done => (List.nodup_append.mp healthy.once).2.2 _ done _ open_ rfl

theorem Healthy.one_fate (healthy : s.Healthy) {fate fate' : Fate} (one : (id, fate) ∈ s.fates)
    (two : (id, fate') ∈ s.fates) : fate = fate' :=
  congrArg Prod.snd
    (List.inj_on_of_nodup_map (List.nodup_append.mp healthy.once).1 one two rfl)

/-- Nothing that was begun is forgotten, and work stays where it was put. -/
structure Continues (before after : Session) : Prop where
  begun : ∀ id ∈ before.fates.map Prod.fst ++ before.subtransactions,
    id ∈ after.fates.map Prod.fst ++ after.subtransactions
  work : ∀ (index : Nat) work, before.work[index]? = some work →
    ∃ later, after.work[index]? = some later ∧ later.within = work.within

theorem Continues.congr {t : Session} (fates : t.fates = s.fates)
    (stack : t.subtransactions = s.subtransactions) (work : t.work = s.work) :
    s.Continues t := by
  refine ⟨?_, ?_⟩
  · rw [fates, stack]
    exact fun _ member => member
  · rw [work]
    exact fun _ w found => ⟨w, found, rfl⟩

theorem Continues.trans {t u : Session} (one : s.Continues t) (two : t.Continues u) :
    s.Continues u := by
  refine ⟨fun id member => two.begun id (one.begun id member), ?_⟩
  intro index work found
  obtain ⟨later, found', within⟩ := one.work index work found
  obtain ⟨last, found'', within'⟩ := two.work index later found'
  exact ⟨last, found'', within'.trans within⟩

theorem Continues.begin_ (name : Option String) :
    s.Continues (s.beginInternalSubTransaction name).2 := by
  refine ⟨?_, fun _ w found => ⟨w, found, rfl⟩⟩
  intro id member
  exact List.perm_middle.symm.subset (List.mem_cons_of_mem _ member)

theorem Continues.settle (top : s.subtransactions = id :: outer) (fate : Fate) :
    s.Continues (s.settle fate id outer) := by
  refine ⟨fun id member => (settle_perm top fate).symm.subset member, ?_⟩
  intro index work found
  cases fate with
  | released => exact ⟨work, found, rfl⟩
  | rolledBack =>
    refine ⟨discardWork id work, ?_, rfl⟩
    change (s.work.map (discardWork id))[index]? = _
    rw [List.getElem?_map, found]
    rfl

theorem Continues.doWork : s.Continues s.doWork := by
  refine ⟨fun _ member => member, fun index work found => ⟨work, ?_, rfl⟩⟩
  change (s.work ++ _)[index]? = _
  rw [List.getElem?_append_left (List.getElem?_eq_some_iff.mp found).1]
  exact found

theorem releaseFailure_of_releasesSucceed (succeed : s.releasesSucceed)
    (top : s.subtransactions = id :: outer) : s.releaseFailure = none := by
  obtain ⟨failed, pattern⟩ := succeed
  unfold releaseFailure
  rw [top, failed]
  cases coming : s.releaseFailures with
  | nil => rfl
  | cons failure later =>
    rw [coming] at pattern
    exact pattern failure List.mem_cons_self

theorem releasesSucceed_settle (succeed : s.releasesSucceed) (fate : Fate) :
    (s.settle fate id outer).releasesSucceed := by
  cases fate with
  | released => exact ⟨succeed.1, fun failure later => succeed.2 failure (List.mem_of_mem_tail later)⟩
  | rolledBack => exact succeed

end Healthy

/-! ## The transaction block and the active snapshots -/

def isTransactionState (s : Session) : Bool := s.transaction.isSome

/-- `StartTransactionCommand`. -/
def startTransactionCommand (s : Session) : Except Failure Unit × Session :=
  match s.transaction with
  | some _ => (.ok (), s)
  | none => (.ok (), { s with
      transaction := some s.nextTransaction
      nextTransaction := s.nextTransaction + 1 })

/-- `CommitTransactionCommand`. Without a transaction it is fatal. -/
def commitTransactionCommand (s : Session) : Except Failure Unit × Session :=
  match s.transaction with
  | none => (.error .fatal, s)
  | some id => (.ok (), { s with transaction := none, ended := (id, .released) :: s.ended })

/-- `AbortCurrentTransaction`. -/
def abortCurrentTransaction (s : Session) : Except Failure Unit × Session :=
  match s.transaction with
  | none => (.ok (), s)
  | some id => (.ok (), { s with transaction := none, ended := (id, .rolledBack) :: s.ended })

/-- `PushActiveSnapshot(GetTransactionSnapshot())`. -/
def pushActiveSnapshot (s : Session) : Except Failure Unit × Session :=
  (.ok (), { s with
    snapshots := s.nextSnapshot :: s.snapshots
    nextSnapshot := s.nextSnapshot + 1 })

/-- `PopActiveSnapshot`. On an empty stack it follows a null pointer. -/
def popActiveSnapshot (s : Session) : Except Failure Unit × Session :=
  match s.snapshots with
  | [] => (.error .fatal, s)
  | _ :: older => (.ok (), { s with snapshots := older })

/-- How a transaction ends by a commit or an abort. -/
def endTransaction (fate : Fate) (s : Session) : Except Failure Unit × Session :=
  match fate with
  | .released => s.commitTransactionCommand
  | .rolledBack => s.abortCurrentTransaction

theorem endTransaction_apply {s : Session} {id : Nat} (running : s.transaction = some id)
    (fate : Fate) :
    s.endTransaction fate =
      (.ok (), { s with transaction := none, ended := (id, fate) :: s.ended }) := by
  cases fate with
  | released =>
    unfold endTransaction commitTransactionCommand
    rw [running]
  | rolledBack =>
    unfold endTransaction abortCurrentTransaction
    rw [running]

end Session

theorem idle_healthy : idle.store.session.Healthy where
  once := List.nodup_nil
  known _ member := nomatch member
  fair _ member := nomatch member

theorem idle_releasesSucceed : idle.store.session.releasesSucceed :=
  ⟨rfl, fun _ member => nomatch member⟩

end Cppgres
