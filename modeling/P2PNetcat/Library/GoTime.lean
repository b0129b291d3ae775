import Mathlib.Algebra.Order.Ring.Int

/-!
# Instants as the Go standard library keeps them

Seconds since the first of January of year 1 in a signed 64-bit number, and
nanoseconds. `Unix` wraps around, `Add` saturates. Durations are nanoseconds.
-/

namespace GoTime
variable {n : Int}

def wrap64 (n : Int) : Int := (n + 2 ^ 63) % 2 ^ 64 - 2 ^ 63

def unixToInternal : Int := 62135596800

def second : Int := 1000000000

structure Time where
  sec : Int
  nsec : Int
  sec_range : -2 ^ 63 ≤ sec ∧ sec < 2 ^ 63
  nsec_range : 0 ≤ nsec ∧ nsec < second

theorem wrap64_range (n : Int) : -2 ^ 63 ≤ wrap64 n ∧ wrap64 n < 2 ^ 63 := by
  rw [wrap64]
  omega

theorem wrap64_of_range (h : -2 ^ 63 ≤ n ∧ n < 2 ^ 63) : wrap64 n = n := by
  rw [wrap64]
  omega

theorem nsec_zero : (0 : Int) ≤ 0 ∧ (0 : Int) < second := by decide

def unix (sec : Int) : Time where
  sec := wrap64 (sec + unixToInternal)
  nsec := 0
  sec_range := wrap64_range _
  nsec_range := nsec_zero

namespace Time
variable {u t : Time}

def toUnix (t : Time) : Int := wrap64 (t.sec - unixToInternal)

def isZero (t : Time) : Bool := t.sec = 0 ∧ t.nsec = 0

def before (t u : Time) : Bool := t.sec < u.sec ∨ t.sec = u.sec ∧ t.nsec < u.nsec

def after (t u : Time) : Bool := u.before t

def addSec (sec d : Int) : Int :=
  if sec + d ≥ 2 ^ 63 then 2 ^ 63 - 1
  else if sec + d < -2 ^ 63 then -(2 ^ 63 - 1)
  else sec + d

theorem addSec_cases (sec d : Int) :
    (2 ^ 63 ≤ sec + d ∧ addSec sec d = 2 ^ 63 - 1) ∨
      (sec + d < -2 ^ 63 ∧ addSec sec d = -(2 ^ 63 - 1)) ∨
      ((-2 ^ 63 ≤ sec + d ∧ sec + d < 2 ^ 63) ∧ addSec sec d = sec + d) := by
  rw [addSec]
  split
  · omega
  · split <;> omega

theorem addSec_range (sec d : Int) :
    -2 ^ 63 ≤ addSec sec d ∧ addSec sec d < 2 ^ 63 := by
  rcases addSec_cases sec d with ⟨_, h⟩ | ⟨_, h⟩ | ⟨_, h⟩ <;> omega

/-- `Add`: floor division is what the carry between nanoseconds and seconds comes to. -/
def add (t : Time) (d : Int) : Time where
  sec := addSec t.sec ((t.nsec + d) / second)
  nsec := (t.nsec + d) % second
  sec_range := addSec_range ..
  nsec_range := by
    rw [second]
    omega

def nanos (t : Time) : Int := (t.sec - unixToInternal) * second + t.nsec

def sub (t u : Time) : Int := max (-2 ^ 63) (min (2 ^ 63 - 1) (t.nanos - u.nanos))

def unixMilli (t : Time) : Int := wrap64 (t.toUnix * 1000 + t.nsec / 1000000)

theorem after_iff : t.after u = true ↔ u.nanos < t.nanos := by
  have ht := t.nsec_range
  have hu := u.nsec_range
  simp only [after, before, nanos, second, decide_eq_true_eq] at *
  omega

/-- A whole second compared with a later instant, also where `Add` saturates. -/
theorem after_add (hu : u.nsec = 0) {d : Int} (hd : 0 ≤ d) :
    u.after (t.add d) = true ↔ t.nanos + d < u.nanos := by
  have ht := t.sec_range
  have hus := u.sec_range
  have hnsec := t.nsec_range
  simp only [after, before, add, nanos, second, unixToInternal, hu, decide_eq_true_eq] at *
  rcases addSec_cases t.sec ((t.nsec + d) / 1000000000) with ⟨h, heq⟩ | ⟨h, heq⟩ | ⟨h, heq⟩ <;>
    rw [heq] <;> omega

theorem before_add (hu : u.nsec = 0) {d : Int} (hd : 0 ≤ d) (ht : -2 ^ 63 ≤ t.nanos - d) :
    u.before (t.add (-d)) = true ↔ u.nanos < t.nanos - d := by
  have hts := t.sec_range
  have hus := u.sec_range
  have hnsec := t.nsec_range
  simp only [before, add, nanos, second, unixToInternal, hu, decide_eq_true_eq] at *
  rcases addSec_cases t.sec ((t.nsec + -d) / 1000000000) with ⟨h, heq⟩ | ⟨h, heq⟩ | ⟨h, heq⟩ <;>
    rw [heq] <;> omega

theorem toUnix_of_nonneg (h : 0 ≤ t.nanos) : t.toUnix = t.nanos / second := by
  have hts := t.sec_range
  have hnsec := t.nsec_range
  simp only [toUnix, nanos, second, unixToInternal] at *
  rw [wrap64_of_range (by omega)]
  omega

theorem isZero_of_nonneg (h : 0 ≤ t.nanos) : t.isZero = false := by
  have hnsec := t.nsec_range
  simp only [isZero, nanos, second, unixToInternal, decide_eq_false_iff_not] at *
  omega

end Time

/-- `Abs` of a duration; the least one has no opposite. -/
def absDuration (d : Int) : Int := if d = -2 ^ 63 then 2 ^ 63 - 1 else d.natAbs

def ofUnixMilli (msec : Int) : Time where
  sec := wrap64 (msec / 1000 + unixToInternal)
  nsec := msec % 1000 * 1000000
  sec_range := wrap64_range _
  nsec_range := by
    rw [second]
    omega

theorem absDuration_sub_le {t u : Time} {limit : Int} (hlimit : limit < 2 ^ 63 - 1) :
    absDuration (t.sub u) ≤ limit ↔ (t.nanos - u.nanos).natAbs ≤ limit := by
  rw [absDuration, Time.sub]
  split <;> omega

def unixEnd : Int := 2 ^ 63 - unixToInternal

theorem Time.nanos_lt (t : Time) : t.nanos < unixEnd * second := by
  have hsec := t.sec_range
  have hnsec := t.nsec_range
  simp only [nanos, second, unixEnd] at *
  omega

/-- A `uint64` of seconds, brought to `int64` first: an instant before the epoch where it is too
large. -/
theorem nanos_unix (h : 0 ≤ n ∧ n < 2 ^ 64) :
    (n < unixEnd → (unix (wrap64 n)).nanos = n * second) ∧
      (unixEnd ≤ n → (unix (wrap64 n)).nanos < 0) := by
  simp only [unix, Time.nanos, wrap64, unixToInternal, second, unixEnd]
  omega

theorem unix_add {m k : Int} (hm : m.natAbs ≤ 2 ^ 60) (hk : k.natAbs ≤ 2 ^ 60) :
    (unix m).add (k * second) = unix (m + k) := by
  have hsec : wrap64 (m + unixToInternal) = m + unixToInternal :=
    wrap64_of_range (by rw [unixToInternal]; omega)
  have hsum : wrap64 (m + k + unixToInternal) = m + k + unixToInternal :=
    wrap64_of_range (by rw [unixToInternal]; omega)
  rw [Time.mk.injEq]
  simp only [Time.add, unix, hsec, hsum, Int.zero_add]
  constructor
  · rw [Int.mul_ediv_cancel _ (by decide), Time.addSec, if_neg, if_neg]
    · omega
    · rw [unixToInternal]
      omega
    · rw [unixToInternal]
      omega
  · rw [Int.mul_emod_left]

theorem before_unix {m : Int} (hn : n.natAbs ≤ 2 ^ 61) (hm : m.natAbs ≤ 2 ^ 61) :
    (unix n).before (unix m) = true ↔ n < m := by
  have hsec : wrap64 (n + unixToInternal) = n + unixToInternal :=
    wrap64_of_range (by rw [unixToInternal]; omega)
  have hother : wrap64 (m + unixToInternal) = m + unixToInternal :=
    wrap64_of_range (by rw [unixToInternal]; omega)
  simp only [Time.before, unix, hsec, hother, decide_eq_true_eq]
  omega

theorem nanos_ofUnixMilli {msec : Int} (h : -2 ^ 63 ≤ msec ∧ msec < 2 ^ 63) :
    (ofUnixMilli msec).nanos = msec * 1000000 := by
  have hsec : wrap64 (msec / 1000 + unixToInternal) = msec / 1000 + unixToInternal :=
    wrap64_of_range (by rw [unixToInternal]; omega)
  simp only [Time.nanos, ofUnixMilli, hsec, second]
  omega

end GoTime
