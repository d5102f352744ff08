import Mathlib.Algebra.Ring.Nat
import Mathlib.Tactic.Common

/-!
# The clocks of MPEG-2 systems

A time stamp has 33 bits, in three fields with a marker bit behind each. A clock reference has a base of 33 bits,
six reserved bits and an extension of nine, and counts at 27 MHz.
-/

namespace LiveStreaming.Library.MpegClock

/-- The fields have 3, 15 and 15 bits. There is no time where a marker bit is not set. -/
def timestamp : List UInt8 → Option Nat
  | [a, b, c, d, e] =>
    if a.toNat % 2 = 1 ∧ c.toNat % 2 = 1 ∧ e.toNat % 2 = 1 then
      some (a.toNat / 2 % 8 * 2 ^ 30 + (b.toNat * 2 ^ 7 + c.toNat / 2) * 2 ^ 15 + (d.toNat * 2 ^ 7 + e.toNat / 2))
    else none
  | _ => none

def clockReference : List UInt8 → Option Nat
  | [a, b, c, d, e, f] =>
    some ((a.toNat * 2 ^ 25 + b.toNat * 2 ^ 17 + c.toNat * 2 ^ 9 + d.toNat * 2 + e.toNat / 2 ^ 7) * 300 +
      (e.toNat % 2 * 2 ^ 8 + f.toNat))
  | _ => none

variable {a b c d e f : UInt8}

/-- Four bits of any kind stand before the first field. -/
theorem timestamp_fields {guard t : Nat} (first : a.toNat = guard * 16 + t / 2 ^ 30 % 8 * 2 + 1)
    (second : b.toNat = t / 2 ^ 22 % 256) (third : c.toNat = t / 2 ^ 15 % 128 * 2 + 1)
    (fourth : d.toNat = t / 2 ^ 7 % 256) (fifth : e.toNat = t % 128 * 2 + 1) :
    timestamp [a, b, c, d, e] = some (t % 2 ^ 33) := by
  have markers : a.toNat % 2 = 1 ∧ c.toNat % 2 = 1 ∧ e.toNat % 2 = 1 := by omega
  rw [timestamp, if_pos markers, Option.some.injEq]
  omega

theorem clockReference_fields {base extension reserved : Nat} (first : a.toNat = base / 2 ^ 25 % 256)
    (second : b.toNat = base / 2 ^ 17 % 256) (third : c.toNat = base / 2 ^ 9 % 256) (fourth : d.toNat = base / 2 % 256)
    (fifth : e.toNat = base % 2 * 2 ^ 7 + reserved * 2 + extension / 2 ^ 8) (sixth : f.toNat = extension % 2 ^ 8)
    (small : base < 2 ^ 33) (fits : extension < 2 ^ 9) (gap : reserved < 2 ^ 6) :
    clockReference [a, b, c, d, e, f] = some (base * 300 + extension) := by
  rw [clockReference, Option.some.injEq]
  omega

end LiveStreaming.Library.MpegClock
