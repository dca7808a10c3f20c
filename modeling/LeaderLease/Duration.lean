/-!
Spans of time in whole nanoseconds. Seconds are kept below `2 ^ 64`, and arithmetic saturates: sums and products
stop at the longest duration, differences at zero.
-/

namespace LeaderLease

def Duration.limit : Nat := 18446744073709551616000000000

/-- A span of time, at most `2 ^ 64` seconds less one nanosecond. -/
@[ext]
structure Duration where
  nanos : Nat
  nanos_lt : nanos < Duration.limit
  deriving DecidableEq

namespace Duration

def nanosPerSecond : Nat := 1000000000

def nanosPerMilli : Nat := 1000000

def nanosPerMicro : Nat := 1000

/-- The longest duration that has at most this many nanoseconds. -/
def clamp (nanos : Nat) : Duration :=
  ⟨min nanos (limit - 1), by unfold limit; omega⟩

def ofNanos? (nanos : Nat) : Option Duration :=
  if h : nanos < limit then some ⟨nanos, h⟩ else none

def ofSeconds (seconds : Nat) : Duration :=
  clamp (seconds * nanosPerSecond)

def zero : Duration := ⟨0, by decide⟩

def longest : Duration := ⟨limit - 1, by decide⟩

instance : Inhabited Duration := ⟨zero⟩

instance : LE Duration := ⟨fun a b => a.nanos ≤ b.nanos⟩

instance : LT Duration := ⟨fun a b => a.nanos < b.nanos⟩

instance (a b : Duration) : Decidable (a ≤ b) := inferInstanceAs (Decidable (a.nanos ≤ b.nanos))

instance (a b : Duration) : Decidable (a < b) := inferInstanceAs (Decidable (a.nanos < b.nanos))

instance : Add Duration := ⟨fun a b => clamp (a.nanos + b.nanos)⟩

instance : Sub Duration := ⟨fun a b => ⟨a.nanos - b.nanos, Nat.lt_of_le_of_lt (Nat.sub_le ..) a.nanos_lt⟩⟩

def times (count : Nat) (d : Duration) : Duration :=
  clamp (count * d.nanos)

def isZero (d : Duration) : Bool := d.nanos == 0

def wholeSeconds (d : Duration) : Nat := d.nanos / nanosPerSecond

def subsecondNanos (d : Duration) : Nat := d.nanos % nanosPerSecond

theorem le_def {a b : Duration} : a ≤ b ↔ a.nanos ≤ b.nanos := Iff.rfl

theorem lt_def {a b : Duration} : a < b ↔ a.nanos < b.nanos := Iff.rfl

theorem nanos_sub (a b : Duration) : (a - b).nanos = a.nanos - b.nanos := rfl

theorem nanos_times (n : Nat) (d : Duration) : (times n d).nanos = min (n * d.nanos) (limit - 1) := rfl

theorem isZero_iff {d : Duration} : d.isZero = true ↔ d = zero := by
  simp [isZero, zero, Duration.ext_iff]

end Duration

end LeaderLease
