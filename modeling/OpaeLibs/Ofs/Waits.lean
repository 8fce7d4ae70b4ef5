import OpaeLibs.Lib.Bits
import OpaeLibs.Lib.Doubles
import OpaeLibs.Ofs.Timespecs

namespace OpaeLibs.Ofs.Waits

open OpaeLibs.Lib.Bits OpaeLibs.Lib.Doubles OpaeLibs.Ofs.Timespecs

abbrev Reading := { t : Timespec // t.Normalised ∧ IsLong t.tvSec }

/-- What is seen while waiting: the clock at the beginning, and for each round the value of the
variable and the clock if the wait goes on. The clock does not go back. -/
structure Observed (α : Type) where
  start : Reading
  rounds : List (α × Reading)
  ordered : (start :: rounds.map Prod.snd).Pairwise fun t t' => t.val.nanos ≤ t'.val.nanos

/-- How far a wait has come. What is returned comes with the value and the clock that were seen
last. -/
inductive Outcome (α : Type)
  | waiting
  | undefined
  | returned (status : Int) (value : α) (now : Reading)

/-- A wait, with the times that `nanosleep` is asked for. -/
structure Wait (α : Type) where
  outcome : Outcome α
  sleeps : List Timespec

section Code

/-- The product with `USEC2SEC`, the double next to `1E-6`, as a `long`. -/
def usec2Sec (usec : Nat) : Nat := truncMul usec 0x10c6f7a0b5ed8d 72

/-- `OFS_TIMESPEC_USEC` of a `uint32_t`, of which the nanoseconds are one as well. -/
def timespecUsecUInt32 (usec : UInt32) : Timespec :=
  let sec : Int := usec2Sec usec.toNat
  ⟨sec, (usec * 1000).toNat - sec * sec2Nsec⟩

def timespecUsecInt (usec : Int32) : Option Timespec :=
  let sec := usec.toInt.sign * usec2Sec usec.toInt.natAbs
  (int (usec.toInt * 1000)).map fun nsec => ⟨sec, nsec - sec * sec2Nsec⟩

def deltaNsec (now start : Timespec) : Option UInt64 := do
  let (delta, _) ← ofsDiffTimespec now start
  let nsec ← long (delta.tvNsec + (← long (delta.tvSec * sec2Nsec)))
  return UInt64.ofInt nsec

variable {α : Type}

/-- The loop. `sleep` is what each round sleeps, and `limit` the timeout in nanoseconds. -/
def waitLoop (met : α → Bool) (sleep : Option Timespec) (limit : Option UInt64) (start : Reading) :
    Reading → List (α × Reading) → Wait α
  | _, [] => ⟨.waiting, []⟩
  | now, (value, next) :: rounds =>
    if met value then ⟨.returned 0 value now, []⟩
    else
      match deltaNsec next.val start.val, limit with
      | some nsec, some limit =>
        if limit < nsec then ⟨.returned 1 value next, sleep.toList⟩
        else
          let rest := waitLoop met sleep (some limit) start next rounds
          ⟨rest.outcome, sleep.toList ++ rest.sleeps⟩
      | _, _ => ⟨.undefined, sleep.toList⟩

/-- The body of `ofs_wait_for_eq32` and `ofs_wait_for_eq64`. -/
def waitForEq [DecidableEq α] (value : α) (timeoutUsec : UInt64) (sleepUsec : UInt32)
    (o : Observed α) : Wait α :=
  let ts := timespecUsecUInt32 sleepUsec
  waitLoop (fun var => decide (var = value)) (if sleepUsec ≠ 0 then some ts else none)
    (some (timeoutUsec * 1000)) o.start o.start o.rounds

def ofsWaitForEq32 (value : UInt32) (timeoutUsec : UInt64) (sleepUsec : UInt32)
    (o : Observed UInt32) : Wait UInt32 :=
  waitForEq value timeoutUsec sleepUsec o

def ofsWaitForEq64 (value : UInt64) (timeoutUsec : UInt64) (sleepUsec : UInt32)
    (o : Observed UInt64) : Wait UInt64 :=
  waitForEq value timeoutUsec sleepUsec o

/-- The text of the macros for constants of type `int`, whose products are of this type too. -/
def waitForMacro (met : α → Bool) (timeoutUsec sleepUsec : Int32) (o : Observed α) : Wait α :=
  match timespecUsecInt sleepUsec with
  | none => ⟨.undefined, []⟩
  | some ts =>
    waitLoop met (if sleepUsec ≠ 0 then some ts else none)
      ((int (timeoutUsec.toInt * 1000)).map UInt64.ofInt) o.start o.start o.rounds

def ofsWaitForEq [DecidableEq α] (value : α) : Int32 → Int32 → Observed α → Wait α :=
  waitForMacro fun bit => decide (bit = value)

def ofsWaitForNe [DecidableEq α] (value : α) : Int32 → Int32 → Observed α → Wait α :=
  waitForMacro fun bit => decide (bit ≠ value)

end Code

section Times

theorem usec2Sec_eq {usec : Nat} (h : usec < 2 ^ 52) : usec2Sec usec = usec / 1000000 :=
  truncMul_eq_div (e := 213696) (by decide) (by decide) (by decide) h

theorem timespecUsecUInt32_exact_iff (usec : UInt32) :
    (timespecUsecUInt32 usec).Normalised ∧ (timespecUsecUInt32 usec).nanos = usec.toNat * 1000 ↔
      usec.toNat * 1000 < 2 ^ 32 := by
  have hlt := usec.toNat_lt
  have hsec := usec2Sec_eq (Nat.lt_trans hlt (by decide))
  have hmul : (usec * 1000).toNat = usec.toNat * 1000 % 2 ^ 32 := UInt32.toNat_mul usec 1000
  have hunit : sec2Nsec = 1000000000 := rfl
  simp only [timespecUsecUInt32, Timespec.Normalised, Timespec.nanos, hsec, hmul, hunit]
  by_cases h : usec.toNat * 1000 < 2 ^ 32
  · rw [Nat.mod_eq_of_lt h]
    omega
  · have hmod := Nat.mod_lt (usec.toNat * 1000) (Nat.two_pow_pos 32)
    generalize usec.toNat * 1000 % 2 ^ 32 = nsec at hmod
    omega

theorem timespecUsecInt_exact_iff {usec : Int32} {ts : Timespec}
    (h : timespecUsecInt usec = some ts) :
    ts.Normalised ∧ ts.nanos = usec.toInt * 1000 ↔ 0 ≤ usec.toInt ∨ 1000000 ∣ usec.toInt := by
  have hlt := usec.toInt_lt
  have hge := usec.le_toInt
  have hsec : (usec2Sec usec.toInt.natAbs : Int) = usec.toInt.natAbs / 1000000 := by
    rw [usec2Sec_eq (by omega)]
    rfl
  have hunit : sec2Nsec = 1000000000 := rfl
  obtain ⟨nsec, hnsec, rfl⟩ := Option.map_eq_some_iff.mp h
  obtain rfl : usec.toInt * 1000 = nsec := by
    rw [int] at hnsec
    split at hnsec
    · exact Option.some.inj hnsec
    · exact nomatch hnsec
  generalize usec.toInt = n at *
  simp only [Timespec.Normalised, Timespec.nanos, hsec, hunit]
  rcases Int.lt_trichotomy n 0 with hneg | rfl | hpos
  · rw [Int.sign_eq_neg_one_of_neg hneg]
    omega
  · decide
  · rw [Int.sign_eq_one_of_pos hpos]
    omega

theorem timespecUsecInt_eq_none_iff {usec : Int32} :
    timespecUsecInt usec = none ↔ ¬IsInt (usec.toInt * 1000) := by
  rw [timespecUsecInt, Option.map_eq_none_iff, int]
  split
  · next h => exact iff_of_false nofun (not_not.mpr h)
  · next h => exact iff_of_true rfl h

theorem long_none {x : Int} (h : ¬IsLong x) : long x = none := if_neg h

/-- A time that has passed, put together from its seconds and nanoseconds, overflows just if it does
not fit itself. -/
theorem long_nanos {sec nsec : Int} (hsec : 0 ≤ sec) (hnsec : 0 ≤ nsec ∧ nsec < sec2Nsec) :
    ((long sec).bind fun sec => (long (sec * sec2Nsec)).bind fun product => long (nsec + product)) =
      if sec * sec2Nsec + nsec < 2 ^ 63 then some (sec * sec2Nsec + nsec) else none := by
  have hunit : sec2Nsec = 1000000000 := rfl
  rw [hunit] at hnsec ⊢
  split
  · next h =>
    rw [long_of_isLong ⟨by omega, by omega⟩, Option.bind_some, long_of_isLong ⟨by omega, by omega⟩,
      Option.bind_some, long_of_isLong ⟨by omega, by omega⟩, Int.add_comm]
  · next h =>
    by_cases hfits : IsLong sec
    · rw [long_of_isLong hfits, Option.bind_some]
      by_cases hproduct : IsLong (sec * 1000000000)
      · rw [long_of_isLong hproduct, Option.bind_some]
        exact long_none fun hsum => h (Int.add_comm nsec _ ▸ hsum.2)
      · rw [long_none hproduct]
        rfl
    · rw [long_none hfits]
      rfl

def elapsed (start now : Reading) : Int := now.val.nanos - start.val.nanos

theorem deltaNsec_eq {start now : Reading} (hle : 0 ≤ elapsed start now) :
    deltaNsec now.val start.val =
      if elapsed start now < 2 ^ 63 then some (UInt64.ofInt (elapsed start now)) else none := by
  obtain ⟨now, hnow, hnowSec⟩ := now
  obtain ⟨start, hstart, hstartSec⟩ := start
  obtain ⟨hnsec₀, hnsec₁⟩ := nsec_borrowed hnow hstart
  dsimp only [elapsed] at hle
  have hlater : ¬now.tvSec < start.tvSec + borrowed now start :=
    fun h => absurd ((nanos_lt_iff hnow hstart).mpr h) (by omega)
  have hsec : IsLong (start.tvSec + borrowed now start) := by
    obtain ⟨hsec₀, hsec₁⟩ := hstartSec
    obtain ⟨hsec₂, hsec₃⟩ := hnowSec
    rcases borrowed_cases now start with ⟨-, hb⟩ | ⟨-, hb⟩ <;>
      exact ⟨by omega, by omega⟩
  have hpassed : now.nanos - start.nanos =
      (now.tvSec - (start.tvSec + borrowed now start)) * sec2Nsec +
        (now.tvNsec - start.tvNsec + borrowed now start * sec2Nsec) := by
    rw [Timespec.nanos, Timespec.nanos]
    ring
  have hchain := long_nanos (Int.sub_nonneg.mpr (Int.not_lt.mp hlater)) ⟨hnsec₀, hnsec₁⟩
  have hcode : deltaNsec now start = ((long (now.tvSec - (start.tvSec + borrowed now start))).bind
      fun sec => (long (sec * sec2Nsec)).bind fun product =>
        long (now.tvNsec - start.tvNsec + borrowed now start * sec2Nsec + product)).map
          UInt64.ofInt := by
    rw [deltaNsec, ofsDiffTimespec_eq hnow hstart hstartSec, long_of_isLong hsec, Option.bind_some]
    cases long (now.tvSec - (start.tvSec + borrowed now start)) with
    | none => rfl
    | some sec =>
      simp only [Option.map_some, Option.bind_eq_bind, Option.bind_some]
      cases long (sec * sec2Nsec) with
      | none => rfl
      | some product =>
        simp only [Option.bind_some]
        cases long (now.tvNsec - start.tvNsec + borrowed now start * sec2Nsec + product) <;> rfl
  rw [hcode, hchain, ← hpassed, elapsed]
  split <;> rfl

end Times

/-- The readings that are taken while the value is not as it is waited for. -/
def waited {α : Type} (met : α → Bool) (rounds : List (α × Reading)) : List Reading :=
  (rounds.takeWhile fun r => !met r.1).map Prod.snd

/-- For a timeout in nanoseconds and the times that pass: none is between the timeout as a word and
the timeout itself, and none comes to `2 ^ 63` unless one before it has run out. -/
structure ClockOk (timeout : Int) (times : List Int) : Prop where
  gap : ∀ e ∈ times, timeout % 2 ^ 64 < e → timeout < e
  short : (∃ e ∈ times, 2 ^ 63 ≤ e) → ∃ e ∈ times, timeout % 2 ^ 64 < e ∧ e < 2 ^ 63

/-- A wait is defined, and where it times out the time has run out. -/
structure Clocked {α : Type} (timeout : Int) (start : Reading) (outcome : Outcome α) : Prop where
  defined : outcome ≠ .undefined
  timesOut : ∀ value now, outcome = .returned 1 value now → timeout < elapsed start now

section Loop

variable {α : Type} {met : α → Bool} {sleep : Option Timespec} {start now next : Reading}
  {value : α} {rounds : List (α × Reading)} {timeout e : Int} {times : List Int}

theorem clockOk_nil (timeout : Int) : ClockOk timeout [] := ⟨nofun, nofun⟩

theorem not_clockOk_of_long (hle : ∀ e' ∈ times, e ≤ e') (h : 2 ^ 63 ≤ e) :
    ¬ClockOk timeout (e :: times) := by
  intro hok
  obtain ⟨e', hmem, -, hlt⟩ := hok.short ⟨e, List.mem_cons_self, h⟩
  rcases List.mem_cons.mp hmem with rfl | hmem
  · omega
  · have := hle e' hmem
    omega

theorem clockOk_of_out (hle : ∀ e' ∈ times, e ≤ e') (hlt : e < 2 ^ 63)
    (hout : timeout % 2 ^ 64 < e) : ClockOk timeout (e :: times) ↔ timeout < e := by
  constructor
  · exact fun hok => hok.gap e List.mem_cons_self hout
  · intro h
    refine ⟨fun e' hmem _ => ?_, fun _ => ⟨e, List.mem_cons_self, hout, hlt⟩⟩
    rcases List.mem_cons.mp hmem with rfl | hmem
    · exact h
    · exact Int.lt_of_lt_of_le h (hle e' hmem)

theorem clockOk_of_within (hlt : e < 2 ^ 63) (hin : ¬timeout % 2 ^ 64 < e) :
    ClockOk timeout (e :: times) ↔ ClockOk timeout times := by
  constructor
  · intro hok
    refine ⟨fun e' hmem => hok.gap e' (List.mem_cons_of_mem e hmem), ?_⟩
    rintro ⟨e', hmem, hlong⟩
    obtain ⟨e₀, hmem₀, hout, hshort⟩ := hok.short ⟨e', List.mem_cons_of_mem e hmem, hlong⟩
    rcases List.mem_cons.mp hmem₀ with rfl | hmem₀
    · exact absurd hout hin
    · exact ⟨e₀, hmem₀, hout, hshort⟩
  · intro hok
    constructor
    · intro e' hmem hout
      rcases List.mem_cons.mp hmem with rfl | hmem
      · exact absurd hout hin
      · exact hok.gap e' hmem hout
    · rintro ⟨e', hmem, hlong⟩
      rcases List.mem_cons.mp hmem with rfl | hmem
      · exact absurd hlt (Int.not_lt.mpr hlong)
      · obtain ⟨e₀, hmem₀, h⟩ := hok.short ⟨e', hmem, hlong⟩
        exact ⟨e₀, List.mem_cons_of_mem e hmem₀, h⟩

theorem waited_of_met (h : met value = true) : waited met ((value, next) :: rounds) = [] := by
  rw [waited, List.takeWhile_cons, h]
  rfl

theorem waited_of_not_met (h : ¬met value = true) :
    waited met ((value, next) :: rounds) = next :: waited met rounds := by
  rw [waited, List.takeWhile_cons, Bool.eq_false_iff.mpr h]
  rfl

theorem waitLoop_of_met {limit : Option UInt64} (h : met value = true) :
    waitLoop met sleep limit start now ((value, next) :: rounds) = ⟨.returned 0 value now, []⟩ :=
  if_pos h

theorem waitLoop_of_not_met {limit nsec : UInt64} (h : ¬met value = true)
    (hdelta : deltaNsec next.val start.val = some nsec) :
    waitLoop met sleep (some limit) start now ((value, next) :: rounds) =
      if limit < nsec then ⟨.returned 1 value next, sleep.toList⟩
      else ⟨(waitLoop met sleep (some limit) start next rounds).outcome,
        sleep.toList ++ (waitLoop met sleep (some limit) start next rounds).sleeps⟩ := by
  refine (if_neg h).trans ?_
  rw [hdelta]

theorem waitLoop_undefined {limit : Option UInt64} (h : ¬met value = true)
    (hnone : deltaNsec next.val start.val = none ∨ limit = none) :
    waitLoop met sleep limit start now ((value, next) :: rounds) = ⟨.undefined, sleep.toList⟩ := by
  refine (if_neg h).trans ?_
  rcases hnone with hnone | rfl
  · rw [hnone]
  · cases deltaNsec next.val start.val <;> rfl

theorem clocked_waiting : Clocked timeout start (.waiting : Outcome α) where
  defined := nofun
  timesOut := by
    intro value now h
    cases h

theorem clocked_met : Clocked timeout start (.returned 0 value now) :=
  ⟨nofun, fun _ _ h => absurd (Outcome.returned.inj h).1 (by decide)⟩

theorem clocked_out_iff :
    Clocked timeout start (.returned 1 value now) ↔ timeout < elapsed start now :=
  ⟨fun h => h.timesOut value now rfl,
    fun h => ⟨nofun, fun _ _ heq => (Outcome.returned.inj heq).2.2 ▸ h⟩⟩

theorem lt_ofInt_iff {limit : UInt64} (he : 0 ≤ e) (hlt : e < 2 ^ 63) :
    limit < UInt64.ofInt e ↔ (limit.toNat : Int) < e := by
  have hnat := toNat_ofInt e
  rw [UInt64.lt_iff_toNat_lt]
  omega

theorem clocked_waitLoop_iff {limit : UInt64} (hlimit : (limit.toNat : Int) = timeout % 2 ^ 64)
    (hordered : (rounds.map Prod.snd).Pairwise fun t t' => t.val.nanos ≤ t'.val.nanos)
    (hstart : ∀ r ∈ rounds, 0 ≤ elapsed start r.2) :
    Clocked timeout start (waitLoop met sleep (some limit) start now rounds).outcome ↔
      ClockOk timeout ((waited met rounds).map (elapsed start)) := by
  induction rounds generalizing now with
  | nil => exact iff_of_true clocked_waiting (clockOk_nil timeout)
  | cons r rounds ih =>
    obtain ⟨value, next⟩ := r
    obtain ⟨hnext, hordered⟩ := List.pairwise_cons.mp hordered
    by_cases hmet : met value = true
    · rw [waited_of_met hmet, waitLoop_of_met hmet]
      exact iff_of_true clocked_met (clockOk_nil timeout)
    · have hpassed : 0 ≤ elapsed start next := hstart _ List.mem_cons_self
      have hlater : ∀ e' ∈ (waited met rounds).map (elapsed start), elapsed start next ≤ e' := by
        intro e' he'
        obtain ⟨t, ht, rfl⟩ := List.mem_map.mp he'
        obtain ⟨r, hr, rfl⟩ := List.mem_map.mp ht
        have hmem : r.2 ∈ rounds.map Prod.snd :=
          List.mem_map_of_mem ((List.takeWhile_sublist _).subset hr)
        exact Int.sub_le_sub_right (hnext r.2 hmem) _
      have hdelta := deltaNsec_eq hpassed
      rw [waited_of_not_met hmet, List.map_cons]
      by_cases hlong : elapsed start next < 2 ^ 63
      · rw [if_pos hlong] at hdelta
        rw [waitLoop_of_not_met hmet hdelta]
        by_cases hout : (limit.toNat : Int) < elapsed start next
        · rw [if_pos ((lt_ofInt_iff hpassed hlong).mpr hout), clocked_out_iff,
            clockOk_of_out hlater hlong (hlimit ▸ hout)]
        · rw [if_neg (mt (lt_ofInt_iff hpassed hlong).mp hout),
            clockOk_of_within hlong (hlimit ▸ hout)]
          exact ih hordered fun r hr => hstart r (List.mem_cons_of_mem _ hr)
      · rw [if_neg hlong] at hdelta
        rw [waitLoop_undefined hmet (.inl hdelta)]
        exact iff_of_false (fun h => h.defined rfl)
          (not_clockOk_of_long hlater (Int.not_lt.mp hlong))

theorem clocked_waitLoop_none_iff :
    Clocked timeout start (waitLoop met sleep none start now rounds).outcome ↔
      waited met rounds = [] := by
  cases rounds with
  | nil => exact iff_of_true clocked_waiting rfl
  | cons r rounds =>
    obtain ⟨value, next⟩ := r
    by_cases hmet : met value = true
    · rw [waited_of_met hmet, waitLoop_of_met hmet]
      exact iff_of_true clocked_met rfl
    · rw [waited_of_not_met hmet, waitLoop_undefined hmet (.inr rfl)]
      exact iff_of_false (fun h => h.defined rfl) (List.cons_ne_nil _ _)

theorem mem_sleeps_iff {limit : Option UInt64} {ts : Timespec} :
    ts ∈ (waitLoop met sleep limit start now rounds).sleeps ↔
      sleep = some ts ∧ waited met rounds ≠ [] := by
  induction rounds generalizing now with
  | nil => exact iff_of_false nofun fun h => h.2 rfl
  | cons r rounds ih =>
    obtain ⟨value, next⟩ := r
    by_cases hmet : met value = true
    · rw [waited_of_met hmet, waitLoop_of_met hmet]
      exact iff_of_false nofun fun h => h.2 rfl
    · have hne : next :: waited met rounds ≠ [] := List.cons_ne_nil _ _
      rw [waited_of_not_met hmet, and_iff_left hne, ← Option.mem_toList]
      cases hdelta : deltaNsec next.val start.val with
      | none => rw [waitLoop_undefined hmet (.inl hdelta)]
      | some nsec =>
        cases limit with
        | none => rw [waitLoop_undefined hmet (.inr rfl)]
        | some limit =>
          rw [waitLoop_of_not_met hmet hdelta]
          split
          · rfl
          · rw [List.mem_append, or_iff_left_iff_imp]
            exact fun h => Option.mem_toList.mpr (ih.mp h).1

theorem met_of_returned {limit : Option UInt64} {status : Int}
    (h : (waitLoop met sleep limit start now rounds).outcome = .returned status value next)
    (hne : status ≠ 1) : status = 0 ∧ met value = true := by
  induction rounds generalizing now with
  | nil => exact nomatch h
  | cons r rounds ih =>
    obtain ⟨seen, after⟩ := r
    by_cases hmet : met seen = true
    · rw [waitLoop_of_met hmet] at h
      obtain ⟨rfl, rfl, -⟩ := Outcome.returned.inj h
      exact ⟨rfl, hmet⟩
    · cases hdelta : deltaNsec after.val start.val with
      | none =>
        rw [waitLoop_undefined hmet (.inl hdelta)] at h
        exact nomatch h
      | some nsec =>
        cases limit with
        | none =>
          rw [waitLoop_undefined hmet (.inr rfl)] at h
          exact nomatch h
        | some limit =>
          rw [waitLoop_of_not_met hmet hdelta] at h
          split at h
          · exact absurd (Outcome.returned.inj h).1.symm hne
          · exact ih h

end Loop

/-- A wait does as its arguments say: it times out only when the time has run out, ends otherwise
with the value that is waited for, and sleeps as long as it is told. -/
structure Honours {α : Type} (p : α → Prop) (timeoutUsec sleepUsec : Int) (start : Reading)
    (w : Wait α) : Prop where
  clocked : Clocked (timeoutUsec * 1000) start w.outcome
  met : ∀ status value now, w.outcome = .returned status value now → status ≠ 1 →
    status = 0 ∧ p value
  sleeps : ∀ ts ∈ w.sleeps, ts.Normalised ∧ ts.nanos = sleepUsec * 1000

namespace Observed

variable {α : Type} (o : Observed α)

def times (p : α → Prop) [DecidablePred p] : List Int :=
  (waited (fun value => decide (p value)) o.rounds).map (elapsed o.start)

theorem elapsed_nonneg : ∀ r ∈ o.rounds, 0 ≤ elapsed o.start r.2 := fun _ hr =>
  Int.sub_nonneg.mpr ((List.pairwise_cons.mp o.ordered).1 _ (List.mem_map_of_mem hr))

end Observed

section Honours

variable {α : Type} {p : α → Prop} [DecidablePred p] {o : Observed α}

theorem times_eq_nil_iff :
    o.times p = [] ↔ waited (fun value => decide (p value)) o.rounds = [] := List.map_eq_nil_iff

theorem honours_waitLoop_iff {sleep : Option Timespec} {limit : Option UInt64}
    {timeoutUsec sleepUsec : Int} :
    Honours p timeoutUsec sleepUsec o.start
        (waitLoop (fun value => decide (p value)) sleep limit o.start o.start o.rounds) ↔
      Clocked (timeoutUsec * 1000) o.start
          (waitLoop (fun value => decide (p value)) sleep limit o.start o.start o.rounds).outcome ∧
        (o.times p = [] ∨ ∀ ts ∈ sleep, ts.Normalised ∧ ts.nanos = sleepUsec * 1000) := by
  rw [times_eq_nil_iff]
  constructor
  · intro h
    refine ⟨h.clocked, ?_⟩
    by_cases hnil : waited (fun value => decide (p value)) o.rounds = []
    · exact .inl hnil
    · exact .inr fun ts hts => h.sleeps ts (mem_sleeps_iff.mpr ⟨hts, hnil⟩)
  · rintro ⟨hclocked, hsleep⟩
    refine ⟨hclocked, fun status value now heq hne => ?_, fun ts hts => ?_⟩
    · obtain ⟨hstatus, hmet⟩ := met_of_returned heq hne
      exact ⟨hstatus, of_decide_eq_true hmet⟩
    · obtain ⟨hts, hne⟩ := mem_sleeps_iff.mp hts
      exact hsleep.resolve_left hne ts hts

theorem clocked_times_iff {sleep : Option Timespec} {limit : UInt64} {timeout : Int}
    (hlimit : (limit.toNat : Int) = timeout % 2 ^ 64) :
    Clocked timeout o.start
        (waitLoop (fun value => decide (p value)) sleep (some limit) o.start o.start
          o.rounds).outcome ↔ ClockOk timeout (o.times p) :=
  clocked_waitLoop_iff hlimit (List.pairwise_cons.mp o.ordered).2 o.elapsed_nonneg

/-- What the functions need: a `uint32_t` holds the nanoseconds of a sleep that is made. -/
def FunctionOk (p : α → Prop) [DecidablePred p] (timeoutUsec : UInt64) (sleepUsec : UInt32)
    (o : Observed α) : Prop :=
  ClockOk (timeoutUsec.toNat * 1000) (o.times p) ∧
    (o.times p = [] ∨ sleepUsec.toNat * 1000 < 2 ^ 32)

/-- What the macros need: an `int` holds the nanoseconds of both arguments, where the timeout is
looked at and the sleep always, and a sleep that is made can be written with its sign. -/
def MacroOk (p : α → Prop) [DecidablePred p] (timeoutUsec sleepUsec : Int32) (o : Observed α) :
    Prop :=
  IsInt (sleepUsec.toInt * 1000) ∧ ClockOk (timeoutUsec.toInt * 1000) (o.times p) ∧
    (o.times p = [] ∨ IsInt (timeoutUsec.toInt * 1000) ∧
      (0 ≤ sleepUsec.toInt ∨ 1000000 ∣ sleepUsec.toInt))

theorem forall_sleep_iff {P : Timespec → Prop} {c : Prop} [Decidable c] {ts : Timespec} :
    (∀ t ∈ if c then some ts else none, P t) ↔ (c → P ts) := by
  by_cases h : c
  · rw [if_pos h]
    exact ⟨fun hall _ => hall ts rfl, fun hts t ht => Option.some.inj ht ▸ hts h⟩
  · rw [if_neg h]
    exact ⟨fun _ hc => absurd hc h, nofun⟩

theorem ne_imp_iff {β : Type} {a b : β} {Q : β → Prop} (hb : Q b) : (a ≠ b → Q a) ↔ Q a := by
  refine ⟨fun h => ?_, fun h _ => h⟩
  by_cases heq : a = b
  · exact heq ▸ hb
  · exact h heq

theorem honours_waitForEq_iff [DecidableEq α] (value : α) (timeoutUsec : UInt64)
    (sleepUsec : UInt32) (o : Observed α) :
    Honours (· = value) timeoutUsec.toNat sleepUsec.toNat o.start
        (waitForEq value timeoutUsec sleepUsec o) ↔
      FunctionOk (· = value) timeoutUsec sleepUsec o := by
  have hlimit : ((timeoutUsec * 1000).toNat : Int) = timeoutUsec.toNat * 1000 % 2 ^ 64 := by
    rw [UInt64.toNat_mul]
    rfl
  have hsleep : (sleepUsec ≠ 0 → (timespecUsecUInt32 sleepUsec).Normalised ∧
      (timespecUsecUInt32 sleepUsec).nanos = sleepUsec.toNat * 1000) ↔
        sleepUsec.toNat * 1000 < 2 ^ 32 := by
    rw [timespecUsecUInt32_exact_iff]
    exact ne_imp_iff (Q := fun usec : UInt32 => usec.toNat * 1000 < 2 ^ 32) (by decide)
  rw [waitForEq, honours_waitLoop_iff, clocked_times_iff hlimit, forall_sleep_iff, hsleep]
  rfl

theorem honours_waitForMacro_iff (timeoutUsec sleepUsec : Int32) (o : Observed α) :
    Honours p timeoutUsec.toInt sleepUsec.toInt o.start
        (waitForMacro (fun value => decide (p value)) timeoutUsec sleepUsec o) ↔
      MacroOk p timeoutUsec sleepUsec o := by
  rw [waitForMacro, MacroOk]
  cases hts : timespecUsecInt sleepUsec with
  | none =>
    refine iff_of_false (fun h => h.clocked.defined rfl) fun h => ?_
    exact timespecUsecInt_eq_none_iff.mp hts h.1
  | some ts =>
    have hint : IsInt (sleepUsec.toInt * 1000) := by
      by_contra hnot
      exact nomatch (timespecUsecInt_eq_none_iff.mpr hnot).symm.trans hts
    have hsleep : (sleepUsec ≠ 0 → ts.Normalised ∧ ts.nanos = sleepUsec.toInt * 1000) ↔
        0 ≤ sleepUsec.toInt ∨ 1000000 ∣ sleepUsec.toInt := by
      rw [timespecUsecInt_exact_iff hts]
      exact ne_imp_iff (Q := fun usec : Int32 => 0 ≤ usec.toInt ∨ 1000000 ∣ usec.toInt) (by decide)
    dsimp only
    rw [honours_waitLoop_iff, forall_sleep_iff, hsleep, and_iff_right hint]
    by_cases htimeout : IsInt (timeoutUsec.toInt * 1000)
    · rw [int_of_isInt htimeout, Option.map_some, clocked_times_iff (toNat_ofInt _),
        and_iff_right htimeout]
    · have hnone : int (timeoutUsec.toInt * 1000) = none := if_neg htimeout
      rw [hnone, Option.map_none, clocked_waitLoop_none_iff, ← times_eq_nil_iff]
      constructor
      · rintro ⟨hnil, -⟩
        rw [hnil]
        exact ⟨clockOk_nil _, .inl rfl⟩
      · rintro ⟨-, hnil | ⟨hint, -⟩⟩
        · exact ⟨hnil, .inl hnil⟩
        · exact absurd hint htimeout

end Honours

/-- The waits do as their arguments say just if the nanoseconds of these fit and the clock does not
tell a time that is lost in them. -/
theorem waits_honour_iff (timeoutUsec : UInt64) (sleepUsec : UInt32) (timeout sleep : Int32) :
    (∀ (value : UInt32) (o : Observed UInt32),
      Honours (· = value) timeoutUsec.toNat sleepUsec.toNat o.start
          (ofsWaitForEq32 value timeoutUsec sleepUsec o) ↔
        FunctionOk (· = value) timeoutUsec sleepUsec o) ∧
    (∀ (value : UInt64) (o : Observed UInt64),
      Honours (· = value) timeoutUsec.toNat sleepUsec.toNat o.start
          (ofsWaitForEq64 value timeoutUsec sleepUsec o) ↔
        FunctionOk (· = value) timeoutUsec sleepUsec o) ∧
    ∀ {α : Type} [DecidableEq α] (value : α) (o : Observed α),
      (Honours (· = value) timeout.toInt sleep.toInt o.start (ofsWaitForEq value timeout sleep o) ↔
        MacroOk (· = value) timeout sleep o) ∧
      (Honours (· ≠ value) timeout.toInt sleep.toInt o.start (ofsWaitForNe value timeout sleep o) ↔
        MacroOk (· ≠ value) timeout sleep o) :=
  ⟨fun value => honours_waitForEq_iff value timeoutUsec sleepUsec,
    fun value => honours_waitForEq_iff value timeoutUsec sleepUsec, fun _ o =>
      ⟨honours_waitForMacro_iff timeout sleep o, honours_waitForMacro_iff timeout sleep o⟩⟩

def reading (nsec : Fin 1000000000) : Reading :=
  ⟨⟨0, nsec.val⟩, ⟨Int.natCast_nonneg nsec.val, Int.ofNat_lt.mpr nsec.isLt⟩,
    (by decide : IsLong 0)⟩

def sampleObserved : Observed UInt32 where
  start := reading 0
  rounds := [(0, reading 1000), (1, reading 2000)]
  ordered := by decide

/-- The nanoseconds of a sleep of five seconds are negative, and a timeout of more than 500 years
runs out after a microsecond. -/
theorem waits_lose_seconds :
    (ofsWaitForEq32 1 1000000 5000000 sampleObserved).sleeps = [⟨5, -4294967296⟩] ∧
      (ofsWaitForEq32 1 18446744073709552 0 sampleObserved).outcome =
        .returned 1 0 (reading 1000) ∧
      ¬Honours (· = 1) 1000000 5000000 sampleObserved.start
        (ofsWaitForEq32 1 1000000 5000000 sampleObserved) ∧
      ¬Honours (· = 1) 18446744073709552 0 sampleObserved.start
        (ofsWaitForEq32 1 18446744073709552 0 sampleObserved) := by
  have hsleeps : (ofsWaitForEq32 1 1000000 5000000 sampleObserved).sleeps =
      [⟨5, -4294967296⟩] := by decide
  have hout : (ofsWaitForEq32 1 18446744073709552 0 sampleObserved).outcome =
      .returned 1 0 (reading 1000) := rfl
  refine ⟨hsleeps, hout, fun h => ?_, fun h => ?_⟩
  · have hslept := h.sleeps ⟨5, -4294967296⟩ (hsleeps ▸ List.mem_singleton.mpr rfl)
    exact absurd hslept.1 (by decide)
  · have hpassed := h.clocked.timesOut 0 (reading 1000) hout
    exact absurd hpassed (by decide)

end OpaeLibs.Ofs.Waits
