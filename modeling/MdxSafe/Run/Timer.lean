-- SUMMARY: Timing a run by readings of a clock.
import MdxSafe.Binary64.Decimal

/-!
# Timers

A timer keeps the readings at its start and stop. It shows the time between them; while it runs, the time
up to the reading at hand.
-/

namespace MdxSafe

/-- A timer. -/
structure Timer where
  started : Option Binary64 := none
  stopped : Option Binary64 := none
  deriving Repr

namespace Timer

/-- Start the timer, or start it anew. -/
def start (_ : Timer) (now : Binary64) : Timer := ⟨some now, none⟩

/-- Stop the timer if it was started; if it was stopped, stop it later. -/
def stop (t : Timer) (now : Binary64) : Timer := if t.started.isSome then ⟨t.started, some now⟩ else t

/-- Whether the timer was started and not stopped. -/
def isRunning (t : Timer) : Bool := t.started.isSome && t.stopped.isNone

/-- The seconds shown by the timer. -/
def duration (t : Timer) (now : Binary64) : Binary64 :=
  match t.started with
  | none => .zero
  | some s => (t.stopped.getD now).sub s

/-- The timer as it is shown. -/
def shown (t : Timer) (now : Binary64) : Text :=
  "<RunTimers duration=".toList ++ (t.duration now).toFixed 4 ++ "s>".toList

end Timer
end MdxSafe
