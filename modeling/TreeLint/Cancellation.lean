/-!
Cancellation of a run. A flag is set by the run itself or by somebody else, and stays set. What
somebody else does is known only through the questions that the run asks: they come to nothing
until, from one question on, the answer is yes.
-/

namespace TreeLint

structure CancelFlag where
  /-- The flag is set. -/
  isSet : Bool := false
  /-- How many more questions are answered with no before somebody else sets the flag, if that
  ever happens.
  -/
  patience : Option Nat := none
  deriving DecidableEq, Repr, Inhabited

namespace CancelFlag

def set (flag : CancelFlag) : CancelFlag :=
  { flag with isSet := true }

/-- The answer to the question whether the flag is set, and the flag afterwards. -/
def ask (flag : CancelFlag) : Bool × CancelFlag :=
  if flag.isSet then
    (true, flag)
  else
    match flag.patience with
    | none => (false, flag)
    | some 0 => (true, flag.set)
    | some (n + 1) => (false, { flag with patience := some n })

/-- Once the answer is yes, it stays so. -/
theorem ask_of_isSet {flag : CancelFlag} (h : flag.isSet = true) : flag.ask = (true, flag) := by
  simp [ask, h]

/-- After an answer the flag is set exactly if the answer was yes. -/
theorem isSet_ask (flag : CancelFlag) : flag.ask.2.isSet = flag.ask.1 := by
  unfold ask
  split
  · assumption
  · split <;> simp_all [set]

end CancelFlag

end TreeLint
