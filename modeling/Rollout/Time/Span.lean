import Rollout.Number.Binary64
import Rollout.Text.Search

namespace Rollout

structure Span where
  nanos : Nat
  deriving DecidableEq, Repr, Inhabited

namespace Span

def zero : Span := ⟨0⟩

def ofSeconds (n : Nat) : Span := ⟨n * 1000000000⟩

def ofMillis (n : Nat) : Span := ⟨n * 1000000⟩

def seconds (d : Span) : Nat := d.nanos / 1000000000

def millis (d : Span) : Nat := d.nanos / 1000000

def ceilMillis (d : Span) : Nat := (d.nanos + 999999) / 1000000

instance : LE Span := ⟨fun a b ↦ a.nanos ≤ b.nanos⟩

instance : LT Span := ⟨fun a b ↦ a.nanos < b.nanos⟩

instance (a b : Span) : Decidable (a ≤ b) := inferInstanceAs (Decidable (a.nanos ≤ b.nanos))

instance (a b : Span) : Decidable (a < b) := inferInstanceAs (Decidable (a.nanos < b.nanos))

def min (a b : Span) : Span := ⟨Nat.min a.nanos b.nanos⟩

/-- The time that comes `d` after `t`. -/
def after (d t : Span) : Span := ⟨t.nanos + d.nanos⟩

def fraction (places rest : Nat) : String :=
  let ds := (Nat.toDigits 10 rest)
  let padded := List.replicate (places - ds.length) '0' ++ ds
  let kept := (padded.reverse.dropWhile (· == '0')).reverse
  if kept.isEmpty then "" else String.ofList ('.' :: kept)

def text (d : Span) : String :=
  let n := d.nanos
  if 1000000000 ≤ n then
    Text.decimal (n / 1000000000) ++ fraction 9 (n % 1000000000) ++ "s"
  else if 1000000 ≤ n then Text.decimal (n / 1000000) ++ fraction 6 (n % 1000000) ++ "ms"
  else if 1000 ≤ n then Text.decimal (n / 1000) ++ fraction 3 (n % 1000) ++ "µs"
  else Text.decimal n ++ "ns"

end Span

/-- The clock of a machine that has been up for a while at time zero. It shows times before the end
of second `2 ^ 63 - 1` after the machine's start. -/
structure Clock where
  uptime : Span := .ofSeconds 1
  deriving DecidableEq, Repr, Inhabited

def Clock.Shows (c : Clock) (t : Span) : Prop := c.uptime.nanos + t.nanos < word63 * 1000000000

instance (c : Clock) (t : Span) : Decidable (c.Shows t) :=
  inferInstanceAs (Decidable (c.uptime.nanos + t.nanos < word63 * 1000000000))

end Rollout
