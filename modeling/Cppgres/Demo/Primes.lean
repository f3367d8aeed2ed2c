import Mathlib.NumberTheory.PrimeCounting
import Cppgres.Demo.Generator
import Cppgres.Function.ResultNumbers

/-!
# The set of primes of the demo

`demo_srf` of `cppgres_demo.cpp` returns the numbers that a generator yields. It counts them with an
`int`, and goes through the odd numbers with an `unsigned int`, which begins again at 1 after the
largest of them.
-/
namespace Cppgres.Primes
open NonLocal Coroutines

/-! ## The generator -/

/-- The loop over divisors, with `left` of them to go. -/
def tryDivisors (num : Nat) : (left i : Nat) → Bool
  | 0, _ => true
  | left + 1, i => if num % i = 0 then false else tryDivisors num left (i + 1)

/-- The divisors are tried up to `static_cast<unsigned int>(std::sqrt(num))`. A double holds the root
of such a number with a relative error below `2 ^ -52`, so its whole part is right. -/
def isPrime (num : Nat) : Bool := tryDivisors num (num.sqrt + 1 - 2) 2

/-- `num += 2` of an `unsigned int`. -/
def nextNum (num : Nat) : Nat := (num + 2) % 2 ^ 32

/-- Where `prime_generator` is: at its start, at the head of its loop, where it yielded a number, or
somewhere after `counter`, which is an `int`, overflowed. -/
inductive PrimeState where
  | start
  | head (num counter : Nat)
  | yielded (num counter : Nat)
  | overflowed (turn : Nat)

/-- `prime_generator`. An overflow of `counter` is not defined: what it does from there on is
`undefined`, whatever that be. -/
def primeGenerator (undefined : Nat → Step Nat CppException PrimeState) (count : Nat) :
    PrimeState → Step Nat CppException PrimeState
  | .start => if 1 ≤ count then .yield 2 (.head 3 1) else .goes (.head 3 1)
  | .head num counter =>
    if counter < count then
      if isPrime num then .yield num (.yielded num counter) else .goes (.head (nextNum num) counter)
    else .finish
  | .yielded num counter =>
    if counter + 1 < 2 ^ 31 then .goes (.head (nextNum num) (counter + 1)) else .goes (.overflowed 0)
  | .overflowed turn => undefined turn

/-- The row of a number, which is yielded as an `int64_t`. -/
def numberRow (num : Nat) : Row [ScalarColumn.type (.plain .int8)].length :=
  ⟨.scalar (ScalarColumn.outgoing (.plain .int8) (BitVec.ofNat 64 num)), rfl⟩

/-- A call of `demo_srf` whose generator ends within these turns, before the limit. The argument
becomes a `size_t`. -/
def demoSrf (undefined : Nat → Step Nat CppException PrimeState) (turns limit : Nat)
    (fc : FunctionCallInfo) (t : BitVec 64) : Option (Cpp Datum) :=
  match CoroutineHeap.iterate (primeGenerator undefined t.toNat) turns limit .start with
  | .left (numbers, .finished, _) =>
    some (setReturningFunction fc [ScalarColumn.type (.plain .int8)]
      (fun _ : BitVec 64 => numbers.map numberRow) t)
  | _ => none

/-! ## Trial division -/

theorem tryDivisors_iff {num left i : Nat} :
    tryDivisors num left i = true ↔ ∀ d, i ≤ d → d < i + left → ¬ d ∣ num := by
  induction left generalizing i with
  | zero => exact ⟨fun _ d from_ below => absurd below (by omega), fun _ => rfl⟩
  | succ left ih =>
    unfold tryDivisors
    by_cases divides : num % i = 0
    · rw [if_pos divides]
      refine ⟨nofun, fun none_ => ?_⟩
      exact absurd (Nat.dvd_of_mod_eq_zero divides) (none_ i le_rfl (by omega))
    · rw [if_neg divides, ih]
      constructor
      · intro none_ d from_ below
        obtain rfl | later := Nat.eq_or_lt_of_le from_
        · exact fun divided => divides (Nat.mod_eq_zero_of_dvd divided)
        · exact none_ d later (by omega)
      · exact fun none_ d from_ below => none_ d (by omega) (by omega)

/-- Odd numbers that are not 1 are tried for what they are; 1 is taken for a prime. -/
theorem isPrime_iff {num : Nat} (odd : num % 2 = 1) : isPrime num = true ↔ num = 1 ∨ num.Prime := by
  unfold isPrime
  rw [tryDivisors_iff]
  by_cases one : num = 1
  · subst one
    refine iff_of_true (fun d from_ below => ?_) (.inl rfl)
    have root : Nat.sqrt 1 = 1 := Nat.sqrt_one
    omega
  · rw [Nat.prime_def_le_sqrt]
    constructor
    · intro none_
      exact .inr ⟨by omega, fun d from_ within => none_ d from_ (by omega)⟩
    · rintro (same | ⟨-, none_⟩) d from_ below
      · exact absurd same one
      · exact none_ d from_ (by omega)

/-! ## What is yielded -/

/-- How many numbers are yielded before it begins again: one for each prime below `2 ^ 32`. -/
noncomputable def period : Nat := Nat.primeCounting' (2 ^ 32)

/-- The number at this place: 1 stands where 2 stood at first. -/
noncomputable def member (place : Nat) : Nat :=
  if place ≠ 0 ∧ place % period = 0 then 1 else Nat.nth Nat.Prime (place % period)

theorem two_lt_period : 2 < period := by
  have three : Nat.count Nat.Prime 6 = 3 := by decide
  have grows : Nat.count Nat.Prime 6 ≤ period := Nat.count_monotone Nat.Prime (by norm_num)
  omega

/-- Primes above 6 have two residues of the six. -/
theorem period_lt : period < 2 ^ 31 := by
  have bound := Nat.primeCounting'_add_le (k := 7) (a := 6) (by decide) (by decide) (2 ^ 32 - 7)
  have seven : Nat.primeCounting' 7 = 3 := by decide
  have residues : Nat.totient 6 = 2 := by decide
  rw [seven, residues] at bound
  have whole : 7 + (2 ^ 32 - 7) = 2 ^ 32 := by norm_num
  rw [whole] at bound
  unfold period
  omega

/-- Where the loop stands: as many numbers were yielded since it began as there are primes below the
next one to try. -/
structure Stands (num counter : Nat) : Prop where
  odd : num % 2 = 1
  below : num < 2 ^ 32
  begun : 1 ≤ counter
  place : counter ≡ Nat.count Nat.Prime num [MOD period]

theorem stands_first : Stands 3 1 := ⟨rfl, by norm_num, le_rfl, by
  rw [show Nat.count Nat.Prime 3 = 1 by decide]⟩

/-- From an odd number to the next, the primes are counted by the trials. -/
theorem count_add_two {num : Nat} (odd : num % 2 = 1) :
    Nat.count Nat.Prime (num + 2) =
      Nat.count Nat.Prime num + if isPrime num = true then 1 else 0 := by
  rw [Nat.count_succ, Nat.count_succ, if_congr (isPrime_iff odd) rfl rfl]
  by_cases one : num = 1
  · subst one
    decide
  · have even : ¬ (num + 1).Prime := fun prime => by
      have two := prime.eq_one_or_self_of_dvd 2 (by omega)
      omega
    rw [if_neg even]
    simp only [one, false_or, Nat.add_zero]

theorem Stands.next {num counter : Nat} (stands : Stands num counter) :
    Stands (nextNum num) (counter + if isPrime num = true then 1 else 0) := by
  have counted := count_add_two stands.odd
  have place : counter + (if isPrime num = true then 1 else 0) ≡
      Nat.count Nat.Prime (num + 2) [MOD period] := by
    rw [counted]
    exact stands.place.add_right _
  have begun := stands.begun
  have odd := stands.odd
  have below := stands.below
  unfold nextNum
  by_cases last : num + 2 < 2 ^ 32
  · rw [Nat.mod_eq_of_lt last]
    exact ⟨by omega, last, by omega, place⟩
  · -- The next number is 1, before which there is no prime, as there is none since the last one.
    obtain rfl : num = 2 ^ 32 - 1 := by omega
    refine ⟨by norm_num, by norm_num, by omega, place.trans ?_⟩
    have none_ : Nat.count Nat.Prime ((2 ^ 32 - 1 + 2) % 2 ^ 32) = 0 := by
      have first : (2 ^ 32 - 1 + 2) % 2 ^ 32 = 1 := by norm_num
      rw [first]
      decide
    have even : ¬ (2 ^ 32).Prime := fun prime => by
      have two := prime.eq_one_or_self_of_dvd 2 (by norm_num)
      norm_num at two
    have whole : Nat.count Nat.Prime (2 ^ 32 - 1 + 2) = period := by
      have next : 2 ^ 32 - 1 + 2 = 2 ^ 32 + 1 := by norm_num
      rw [next, Nat.count_succ, if_neg even, Nat.add_zero, period, Nat.primeCounting']
    rw [none_, whole]
    exact Nat.modEq_zero_iff_dvd.mpr dvd_rfl

/-- A number that is yielded is the one of its place. -/
theorem Stands.member_eq {num counter : Nat} (stands : Stands num counter)
    (prime : isPrime num = true) : member counter = num := by
  have begun := stands.begun
  have place : counter % period = Nat.count Nat.Prime num % period := stands.place
  unfold member
  obtain rfl | prime := (isPrime_iff stands.odd).mp prime
  · have none_ : Nat.count Nat.Prime 1 = 0 := by decide
    rw [none_, Nat.zero_mod] at place
    exact if_pos ⟨by omega, place⟩
  · have before : Nat.count Nat.Prime num < period :=
      Nat.count_strict_mono prime stands.below
    have two : Nat.count Nat.Prime 3 = 1 := by decide
    have least := prime.two_le
    have odd := stands.odd
    have some_ : Nat.count Nat.Prime 3 ≤ Nat.count Nat.Prime num :=
      Nat.count_monotone Nat.Prime (by omega)
    rw [place, Nat.mod_eq_of_lt before, if_neg (by omega), Nat.nth_count prime]

/-! ## Runs of the generator -/

section Runs
variable {undefined : Nat → Step Nat CppException PrimeState} {count num counter : Nat}

theorem range'_of_lt {last : Nat} (more : counter < last) :
    List.range' counter (last - counter) =
      counter :: List.range' (counter + 1) (last - (counter + 1)) := by
  rw [show last - counter = last - (counter + 1) + 1 by omega, List.range'_succ]

theorem range_of_pos {last : Nat} (some_ : 1 ≤ last) :
    (List.range last).map member = 2 :: (List.range' 1 (last - 1)).map member := by
  have first : member 0 = 2 := by
    unfold member
    rw [if_neg fun again => again.1 rfl, Nat.zero_mod, Nat.nth_prime_zero_eq_two]
  have whole : List.range last = 0 :: List.range' 1 (last - 1) := by
    rw [List.range_eq_range', show last = last - 1 + 1 by omega, List.range'_succ]
    rfl
  rw [whole, List.map_cons, first]

/-- How far it is at most: each number that is yielded takes a way around, and only 1 begins a way
again. -/
def ahead (count num counter : Nat) : Nat :=
  (count - counter) * 2 ^ 32 + if num = 1 then 0 else 2 ^ 32 - num

theorem ahead_next (stands : Stands num counter) (more : counter < count) :
    ahead count (nextNum num) (counter + if isPrime num = true then 1 else 0) <
      ahead count num counter := by
  have after := stands.next
  have odd := after.odd
  have below := after.below
  have before := stands.below
  have parity := stands.odd
  unfold ahead
  by_cases prime : isPrime num = true
  · rw [if_pos prime]
    split <;> split <;> omega
  · rw [if_neg prime]
    have one : num ≠ 1 := fun one => prime ((isPrime_iff stands.odd).mpr (.inl one))
    rw [if_neg one]
    unfold nextNum at *
    split <;> omega

/-- How many numbers are yielded before the generator ends or `counter` overflows. -/
def reached (count : Nat) : Nat := min count (2 ^ 31)

/-- What may be yielded thereafter. -/
def Beyond (undefined : Nat → Step Nat CppException PrimeState) (count : Nat) (rest : List Nat) :
    Prop :=
  if count < 2 ^ 31 then rest = []
  else Gives (primeGenerator undefined count) (.overflowed 0) rest .finished

theorem beyond_of_lt {rest : List Nat} (within : count < 2 ^ 31) :
    Beyond undefined count rest ↔ rest = [] := by
  unfold Beyond
  rw [if_pos within]

theorem beyond_of_le {rest : List Nat} (over_ : 2 ^ 31 ≤ count) :
    Beyond undefined count rest ↔
      Gives (primeGenerator undefined count) (.overflowed 0) rest .finished := by
  unfold Beyond
  rw [if_neg (by omega)]

/-- The numbers from this place on. -/
def NumbersFrom (undefined : Nat → Step Nat CppException PrimeState) (count counter : Nat)
    (numbers : List Nat) : Prop :=
  ∃ rest, numbers = (List.range' counter (reached count - counter)).map member ++ rest ∧
    Beyond undefined count rest

theorem numbersFrom_iff (more : counter < count) (held : counter < 2 ^ 31) {numbers : List Nat} :
    NumbersFrom undefined count counter numbers ↔
      ∃ rest, numbers = member counter :: rest ∧ NumbersFrom undefined count (counter + 1) rest := by
  have inside : counter < reached count := Nat.lt_min.mpr ⟨more, held⟩
  unfold NumbersFrom
  rw [range'_of_lt inside, List.map_cons]
  constructor
  · rintro ⟨rest, rfl, beyond⟩
    exact ⟨_, rfl, rest, rfl, beyond⟩
  · rintro ⟨_, rfl, rest, rfl, beyond⟩
    exact ⟨rest, rfl, beyond⟩

theorem numbersFrom_reached (over_ : reached count ≤ counter) {numbers : List Nat} :
    NumbersFrom undefined count counter numbers ↔ Beyond undefined count numbers := by
  unfold NumbersFrom
  rw [Nat.sub_eq_zero_of_le over_]
  constructor
  · rintro ⟨rest, rfl, beyond⟩
    exact beyond
  · exact fun beyond => ⟨numbers, rfl, beyond⟩

/-- After a number, the loop goes on, or `counter` overflows. -/
theorem yielded_gives_iff (more : counter < count) {numbers : List Nat}
    (next : counter + 1 < 2 ^ 31 →
      (Gives (primeGenerator undefined count) (.head (nextNum num) (counter + 1)) numbers .finished ↔
        NumbersFrom undefined count (counter + 1) numbers)) :
    Gives (primeGenerator undefined count) (.yielded num counter) numbers .finished ↔
      NumbersFrom undefined count (counter + 1) numbers := by
  by_cases fits : counter + 1 < 2 ^ 31
  · have goes : primeGenerator undefined count (.yielded num counter) =
        .goes (.head (nextNum num) (counter + 1)) := if_pos fits
    rw [gives_goes_iff goes]
    exact next fits
  · have goes : primeGenerator undefined count (.yielded num counter) = .goes (.overflowed 0) :=
      if_neg fits
    have last : reached count ≤ counter + 1 := by
      have least : reached count ≤ 2 ^ 31 := Nat.min_le_right count _
      omega
    rw [gives_goes_iff goes, numbersFrom_reached last, beyond_of_le (by omega)]

theorem head_gives_iff (stands : Stands num counter) (held : counter < 2 ^ 31)
    {numbers : List Nat} :
    Gives (primeGenerator undefined count) (.head num counter) numbers .finished ↔
      NumbersFrom undefined count counter numbers := by
  generalize far : ahead count num counter = distance
  induction distance using Nat.strong_induction_on generalizing num counter numbers with
  | h distance ih =>
    subst far
    by_cases more : counter < count
    · have less := ahead_next stands more
      have next := stands.next
      by_cases prime : isPrime num = true
      · rw [if_pos prime] at less next
        have yields : primeGenerator undefined count (.head num counter) =
            .yield num (.yielded num counter) := (if_pos more).trans (if_pos prime)
        rw [gives_yield_iff yields, numbersFrom_iff more held, stands.member_eq prime]
        refine exists_congr fun rest => and_congr_right fun _ => ?_
        exact yielded_gives_iff more fun fits => ih _ less next fits rfl
      · rw [if_neg prime] at less next
        have goes : primeGenerator undefined count (.head num counter) =
            .goes (.head (nextNum num) counter) := (if_pos more).trans (if_neg prime)
        rw [gives_goes_iff goes]
        exact ih _ less next held rfl
    · have ends : primeGenerator undefined count (.head num counter) = .finish := if_neg more
      have last : reached count ≤ counter := by
        have least : reached count ≤ count := Nat.min_le_left count _
        omega
      rw [gives_finish_iff ends, numbersFrom_reached last, beyond_of_lt (by omega)]

theorem primeGenerator_gives_iff {numbers : List Nat} :
    Gives (primeGenerator undefined count) .start numbers .finished ↔
      ∃ rest, numbers = (List.range (reached count)).map member ++ rest ∧
        Beyond undefined count rest := by
  have later {others : List Nat} :=
    @head_gives_iff undefined count 3 1 stands_first (by norm_num) others
  by_cases some_ : 1 ≤ count
  · have yields : primeGenerator undefined count .start = .yield 2 (.head 3 1) := if_pos some_
    have first : 1 ≤ reached count := Nat.le_min.mpr ⟨some_, by norm_num⟩
    rw [gives_yield_iff yields, range_of_pos first]
    constructor
    · rintro ⟨others, rfl, given⟩
      obtain ⟨rest, rfl, beyond⟩ := later.mp given
      exact ⟨rest, rfl, beyond⟩
    · rintro ⟨rest, rfl, beyond⟩
      exact ⟨_, rfl, later.mpr ⟨rest, rfl, beyond⟩⟩
  · have goes : primeGenerator undefined count .start = .goes (.head 3 1) := if_neg some_
    obtain rfl : count = 0 := by omega
    rw [gives_goes_iff goes]
    exact later

/-- Up to the largest `int`, it ends with as many members as were asked for. -/
theorem gives_members_iff (within : count < 2 ^ 31) {numbers : List Nat} :
    Gives (primeGenerator undefined count) .start numbers .finished ↔
      numbers = (List.range count).map member := by
  rw [primeGenerator_gives_iff, show reached count = count from Nat.min_eq_left within.le]
  constructor
  · rintro ⟨rest, rfl, beyond⟩
    rw [(beyond_of_lt within).mp beyond, List.append_nil]
  · exact fun same => ⟨[], same.trans (List.append_nil _).symm, (beyond_of_lt within).mpr rfl⟩

end Runs

/-! ## The set -/

/-- The primes, in order. -/
noncomputable def firstPrimes (count : Nat) : List Nat := (List.range count).map (Nat.nth Nat.Prime)

theorem member_period : member period = 1 := by
  have some_ := two_lt_period
  unfold member
  exact if_pos ⟨by omega, Nat.mod_self period⟩

theorem members_primes_iff {count : Nat} :
    (List.range count).map member = firstPrimes count ↔ count ≤ period := by
  unfold firstPrimes
  rw [List.map_inj_left]
  constructor
  · intro same
    by_contra beyond
    have again := same period (List.mem_range.mpr (by omega))
    have prime := (Nat.prime_nth_prime period).two_le
    rw [member_period] at again
    omega
  · intro within place below
    have inside : place < period := by
      have listed := List.mem_range.mp below
      omega
    unfold member
    rw [Nat.mod_eq_of_lt inside, if_neg fun again => again.1 again.2]

theorem member_lt (place : Nat) : member place < 2 ^ 32 := by
  have some_ := two_lt_period
  have below : place % period < Nat.count Nat.Prime (2 ^ 32) := Nat.mod_lt place (by omega)
  unfold member
  split
  · norm_num
  · exact Nat.nth_lt_of_lt_count below

theorem numberRow_columns (num : Nat) : (numberRow num).columns = [⟨num % 2 ^ 64, false⟩] :=
  congrArg (fun value => [(⟨value, false⟩ : NullableDatum)]) (BitVec.toNat_ofNat num 64)

/-- The tuples that hold these numbers. -/
def tuples (numbers : List Nat) : List (List NullableDatum) :=
  numbers.map fun num => [⟨num, false⟩]

theorem rows_columns (numbers : List Nat) :
    (numbers.map numberRow).map Row.columns = tuples (numbers.map (· % 2 ^ 64)) := by
  unfold tuples
  rw [List.map_map, List.map_map, List.map_inj_left]
  exact fun num _ => numberRow_columns num

theorem tuples_injective : Function.Injective tuples := by
  refine List.map_injective_iff.mpr fun one two same => ?_
  cases same
  rfl

theorem members_fit (count : Nat) :
    ((List.range count).map member).map (· % 2 ^ 64) = (List.range count).map member := by
  rw [List.map_map, List.map_inj_left]
  exact fun place _ => Nat.mod_eq_of_lt (Nat.lt_trans (member_lt place) (by norm_num))

/-- Where `counter` overflows, 1 has been yielded in the place of a prime. -/
theorem overflowed_ne_firstPrimes {count : Nat} (beyond : 2 ^ 31 ≤ count) (rest : List Nat) :
    ((List.range (2 ^ 31)).map member ++ rest).map (· % 2 ^ 64) ≠ firstPrimes count := by
  intro same
  have many := period_lt
  have place : ((List.range (2 ^ 31)).map member)[period]? = some 1 := by
    rw [List.getElem?_map, List.getElem?_range many, Option.map_some, member_period]
  have inside : period < ((List.range (2 ^ 31)).map member).length := by
    rw [List.length_map, List.length_range]
    exact many
  have yielded := congrArg (·[period]?) same
  unfold firstPrimes at yielded
  rw [List.getElem?_map, List.getElem?_append_left inside, place, List.getElem?_map,
    List.getElem?_range (Nat.lt_of_lt_of_le many beyond)] at yielded
  have prime := (Nat.prime_nth_prime period).two_le
  have one : 1 % 2 ^ 64 = Nat.nth Nat.Prime period := Option.some.inj yielded
  omega

/-- The call ends, with these tuples in the tuplestore. -/
def SrfEnds (undefined : Nat → Step Nat CppException PrimeState) (fc : FunctionCallInfo)
    (t : BitVec 64) (s : Machine Backend) (post : List (List NullableDatum) → Prop) : Prop :=
  ∃ turns limit call, demoSrf undefined turns limit fc t = some call ∧ call.Returns s fun _ u =>
    ∃ tuples, u.store.rsinfo.setResult = some tuples ∧ post tuples

section Calls
variable {undefined : Nat → Step Nat CppException PrimeState} {fc : FunctionCallInfo}
  {t : BitVec 64} {s : Machine Backend} {post : List (List NullableDatum) → Prop}

theorem srfEnds_iff (described : s.store.rsinfo.expectedDesc = some [int8Oid]) :
    SrfEnds undefined fc t s post ↔
      ∃ numbers, Gives (primeGenerator undefined t.toNat) .start numbers .finished ∧
        (∀ failure ∈ s.store.interrupts.take numbers.length, failure = none) ∧
          post (tuples (numbers.map (· % 2 ^ 64))) := by
  have takes : List.Forall₂ CppType.Takes [ScalarColumn.type (.plain .int8)] [int8Oid] :=
    .cons (ScalarColumn.takes_own (.plain .int8)) .nil
  have full (numbers : List Nat) : ∀ row ∈ numbers.map numberRow, row.Full := by
    intro row listed
    obtain ⟨num, -, rfl⟩ := List.mem_map.mp listed
    intro element within
    obtain rfl := List.mem_singleton.mp within
    rfl
  -- A call whose generator ends goes through all rows.
  have goes (numbers : List Nat) :=
    @returns_rows_iff _ (BitVec 64) _ s _ fc (fun _ => numbers.map numberRow) t post described takes
  constructor
  · rintro ⟨turns, limit, call, made, returns⟩
    unfold demoSrf at made
    split at made
    next numbers heap run =>
      cases made
      obtain ⟨ended, -⟩ | ⟨-, -, given⟩ := CoroutineHeap.iterate_left_iff.mp ⟨turns, heap, run⟩
      · cases ended
      obtain ⟨clear, -, claimed⟩ := (goes numbers).mp returns
      rw [List.length_map] at clear
      rw [rows_columns] at claimed
      exact ⟨numbers, given, clear, claimed⟩
    · cases made
  · rintro ⟨numbers, given, clear, claimed⟩
    have ended : (Ending.finished : Ending CppException) ≠ .suspended := nofun
    obtain ⟨turns, heap, run⟩ := CoroutineHeap.iterate_left_iff.mpr (.inr ⟨ended, le_rfl, given⟩)
    refine ⟨turns, numbers.length, _, ?_, (goes numbers).mpr ?_⟩
    · unfold demoSrf
      rw [run]
    · rw [rows_columns, List.length_map]
      exact ⟨clear, full _, claimed⟩

theorem srfEnds_within_iff (described : s.store.rsinfo.expectedDesc = some [int8Oid])
    (within : t.toNat < 2 ^ 31) :
    SrfEnds undefined fc t s post ↔
      (∀ failure ∈ s.store.interrupts.take t.toNat, failure = none) ∧
        post (tuples ((List.range t.toNat).map member)) := by
  have fit := members_fit t.toNat
  rw [srfEnds_iff described]
  constructor
  · rintro ⟨numbers, given, clear, claimed⟩
    obtain rfl := (gives_members_iff within).mp given
    rw [List.length_map, List.length_range] at clear
    rw [fit] at claimed
    exact ⟨clear, claimed⟩
  · rintro ⟨clear, claimed⟩
    refine ⟨_, (gives_members_iff within).mpr rfl, ?_, ?_⟩
    · rw [List.length_map, List.length_range]
      exact clear
    · rw [fit]
      exact claimed

theorem srfEnds_overflowed (described : s.store.rsinfo.expectedDesc = some [int8Oid])
    (beyond : 2 ^ 31 ≤ t.toNat) :
    ¬ SrfEnds undefined fc t s fun held => held = tuples (firstPrimes t.toNat) := by
  rw [srfEnds_iff described]
  rintro ⟨numbers, given, -, claimed⟩
  obtain ⟨rest, rfl, -⟩ := primeGenerator_gives_iff.mp given
  rw [show reached t.toNat = 2 ^ 31 from Nat.min_eq_right beyond] at claimed
  exact overflowed_ne_firstPrimes beyond rest (tuples_injective claimed)

end Calls

/-- Up to the largest `int`, `demo_srf(t)` ends if and only if no interrupt comes in between; beyond
it, or for a negative `t`, that is not defined. It is the set of the first `t` primes if and only if,
besides, there are so many below `2 ^ 32`. -/
theorem demoSrf_primes_iff (undefined : Nat → Step Nat CppException PrimeState)
    (fc : FunctionCallInfo) (t : BitVec 64) (s : Machine Backend)
    (described : s.store.rsinfo.expectedDesc = some [int8Oid]) :
    (0 ≤ t.toInt ∧ t.toInt < 2 ^ 31 →
      (SrfEnds undefined fc t s (fun _ => True) ↔
        ∀ failure ∈ s.store.interrupts.take t.toNat, failure = none)) ∧
    (SrfEnds undefined fc t s (fun held => held = tuples (firstPrimes t.toNat)) ↔
      (0 ≤ t.toInt ∧ t.toInt ≤ Nat.primeCounting' (2 ^ 32)) ∧
        ∀ failure ∈ s.store.interrupts.take t.toNat, failure = none) := by
  have ends : t.toNat < 2 ^ 31 ↔ 0 ≤ t.toInt ∧ t.toInt < 2 ^ 31 := by
    rw [BitVec.toInt_eq_toNat_cond]
    have word := t.isLt
    split <;> omega
  have bounded {bound : Nat} (within : bound < 2 ^ 31) :
      t.toNat ≤ bound ↔ 0 ≤ t.toInt ∧ t.toInt ≤ bound := by
    rw [BitVec.toInt_eq_toNat_cond]
    have word := t.isLt
    split <;> omega
  have many := period_lt
  constructor
  · intro within
    rw [srfEnds_within_iff described (ends.mpr within), and_true]
  · have primes := bounded many
    unfold period at primes
    rw [← primes]
    by_cases within : t.toNat < 2 ^ 31
    · rw [srfEnds_within_iff described within, tuples_injective.eq_iff, members_primes_iff, and_comm]
      exact Iff.rfl
    · refine iff_of_false (srfEnds_overflowed described (by omega)) fun ⟨few, _⟩ => ?_
      have least : t.toNat ≤ period := few
      omega

/-- Two primes are asked for, and a negative number of them. -/
theorem demoSrf_two :
    SrfEnds (fun _ => .finish) ⟨0, none⟩ 2 (expecting [int8Oid])
        (fun held => held = tuples (firstPrimes 2)) ∧
      SrfEnds (fun _ => .finish) ⟨0, none⟩ 2 (expecting [int8Oid]) (fun _ => True) ∧
      ¬ SrfEnds (fun _ => .finish) ⟨0, none⟩ (-1) (expecting [int8Oid])
        fun held => held = tuples (firstPrimes (2 ^ 64 - 1)) := by
  have some_ := two_lt_period
  unfold period at some_
  have quiet (t : Nat) :
      ∀ failure ∈ (expecting [int8Oid]).store.interrupts.take t, failure = none := by
    rw [show (expecting [int8Oid]).store.interrupts = [] from rfl, List.take_nil]
    exact fun _ listed => nomatch listed
  have two : (2 : BitVec 64).toInt = 2 := by decide
  refine ⟨?_, ?_, fun ended => ?_⟩
  · refine (demoSrf_primes_iff _ ⟨0, none⟩ 2 (expecting [int8Oid]) rfl).2.mpr
      ⟨⟨by decide, ?_⟩, quiet _⟩
    rw [two]
    omega
  · exact ((demoSrf_primes_iff _ ⟨0, none⟩ 2 (expecting [int8Oid]) rfl).1
      ⟨by decide, by decide⟩).mpr (quiet _)
  · have positive :=
      ((demoSrf_primes_iff _ ⟨0, none⟩ (-1) (expecting [int8Oid]) rfl).2.mp ended).1.1
    exact absurd positive (by decide)

end Cppgres.Primes
