/-!
# Faults

Lines, columns and label numbers are 32-bit counters, and a blank run has a largest width. A run
that would leave one of these ranges, or that cannot show its result, ends in a fault. What was done
before a fault stays done.
-/

namespace MiniC

instance instDecidableEqExcept {ε α : Type} [DecidableEq ε] [DecidableEq α] :
    DecidableEq (Except ε α)
  | .ok a, .ok b => decidable_of_iff (a = b) ⟨congrArg Except.ok, Except.ok.inj⟩
  | .error a, .error b => decidable_of_iff (a = b) ⟨congrArg Except.error, Except.error.inj⟩
  | .ok _, .error _ => isFalse nofun
  | .error _, .ok _ => isFalse nofun

/-- Why a run does not come to its end. -/
inductive Fault where
  /-- A counter stood at its largest value and was to grow. -/
  | counterOverflow
  /-- A blank run was to be wider than the largest width. -/
  | paddingTooWide
  /-- What was to be shown on the standard output was refused for some cause. -/
  | outputRefused (cause : String)
  deriving DecidableEq, Repr

/-- The text that reports a fault. -/
def Fault.message : Fault → String
  | .counterOverflow => "attempt to add with overflow"
  | .paddingTooWide => "Formatting argument out of range"
  | .outputRefused cause => "failed printing to stdout: " ++ cause

/-- The largest value of a 32-bit counter. -/
def counterMax : Nat := 4294967295

/-- A counter after `amount` more, unless that would pass the largest value. -/
def raiseCounter (counter amount : Nat) : Except Fault Nat :=
  if counter + amount ≤ counterMax then .ok (counter + amount) else .error .counterOverflow

theorem eq_add_of_raiseCounter_eq {counter amount n : Nat}
    (h : raiseCounter counter amount = .ok n) : n = counter + amount := by
  unfold raiseCounter at h
  split at h
  · exact (Except.ok.inj h).symm
  · cases h

end MiniC
