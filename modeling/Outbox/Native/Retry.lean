import Outbox.ForStd.PyNum

/-!
# Exponential backoff

`ExponentialRetry` (`retry.py`) with the Python numbers its knobs are given as. The jitter
draw, a `random.uniform(-jitter_factor / 2, jitter_factor / 2)`, is an argument; so is the C
library, which a float power ends in. Times are in microseconds, as everywhere.
-/

namespace Outbox

/-- `ValueError`: its message, up to the value it ends in. -/
structure ValueError where
  message : String
  got : PyNum
deriving DecidableEq

/-- `_MAX_DELAY_SECONDS`, a hundred years: `100.0 * 365.0 * 24.0 * 60.0 * 60.0`. -/
def maxDelaySeconds : PyNum := .float (.ofInt 3153600000 (by decide))

/-- `_MAX_JITTER_FACTOR`. -/
def maxJitterFactor : PyNum := .float (.ofInt 2 (by decide))

/-- One check of a `__post_init__`. -/
def refuse (bad : PyNum → Bool) (message : String) (x : PyNum) : Except ValueError Unit :=
  if bad x then .error ⟨message, x⟩ else .ok ()

/-- The check of a knob that may be left out. -/
def refuseSome (bad : PyNum → Bool) (message : String) : Option PyNum → Except ValueError Unit
  | some x => refuse bad message x
  | none => .ok ()

/-- `_validate_jitter_factor`. -/
def validateJitterFactor (jitterFactor : PyNum) : Except ValueError Unit :=
  refuse (fun x => !((PyNum.float (.ofInt 0 (by decide))).le x && x.le maxJitterFactor))
    "jitter_factor must be between 0 and 2.0, got " jitterFactor

/-- The knobs of `_RetryStrategyTemplate`. -/
structure RetryKnobs where
  maxAttempts : Option PyNum := none
  maxTotalDelaySeconds : Option PyNum := none

/-- `_RetryStrategyTemplate.__post_init__`. -/
def RetryKnobs.postInit (k : RetryKnobs) : Except ValueError Unit := do
  refuseSome (·.lt (.int 1)) "max_attempts must be >= 1 if set, got " k.maxAttempts
  refuseSome (·.le (.int 0)) "max_total_delay_seconds must be > 0 if set, got "
    k.maxTotalDelaySeconds

/-- The knobs of `ExponentialRetry`. -/
structure ExponentialKnobs extends RetryKnobs where
  initialDelaySeconds : PyNum
  multiplier : PyNum := .float (.ofInt 2 (by decide))
  maxDelaySeconds : Option PyNum := none
  jitterFactor : PyNum := .float (.ofInt 0 (by decide))

/-- `ExponentialRetry.__post_init__`. -/
def ExponentialKnobs.postInit (k : ExponentialKnobs) : Except ValueError Unit := do
  k.toRetryKnobs.postInit
  refuse (·.le (.int 0)) "initial_delay_seconds must be > 0, got " k.initialDelaySeconds
  refuse (·.le (.int 0)) "multiplier must be > 0, got " k.multiplier
  refuseSome (·.le (.int 0)) "max_delay_seconds must be > 0 if set, got " k.maxDelaySeconds
  validateJitterFactor k.jitterFactor

/-- An `ExponentialRetry`: knobs its `__post_init__` accepted. -/
structure ExponentialRetry extends ExponentialKnobs where
  accepted : toExponentialKnobs.postInit = .ok ()

namespace ExponentialRetry

variable (libm : Libm) (s : ExponentialRetry)

/-- The delay before jitter. What overflows is caught, and saturates at the ceiling. -/
def baseDelay (attemptsCount : ℕ) : PyNum :=
  let delay := do
    -- `max(0, attempts_count - 1)` is what subtraction does here
    let power ← s.multiplier.pow libm (attemptsCount - 1)
    s.initialDelaySeconds.mul power
  match delay with
  | .ok delay => delay
  | .error _ => Outbox.maxDelaySeconds

/-- `delay *= 1.0 + uniform`. What overflows here is not caught. -/
def jitter (uniform : Binary64) (delay : PyNum) : Except OverflowError PyNum :=
  if s.jitterFactor.truthy then
    delay.mul (.float ((Binary64.ofInt 1 Binary64.abs_one_lt).add uniform))
  else
    .ok delay

/-- The clamp at `max_delay_seconds`, and at the absolute ceiling. -/
def clamp (delay : PyNum) : PyNum :=
  match s.maxDelaySeconds with
  | some maxDelaySeconds => (delay.min maxDelaySeconds).min Outbox.maxDelaySeconds
  | none => delay.min Outbox.maxDelaySeconds

/-- `_delay_seconds`. -/
def delaySeconds (uniform : Binary64) (attemptsCount : ℕ) : Except OverflowError PyNum := do
  let delay ← s.jitter uniform (s.baseDelay libm attemptsCount)
  return s.clamp delay

/-- `(last_attempt_at - first_attempt_at).total_seconds()`. -/
def elapsedSoFar (firstAttemptAt lastAttemptAt : Int) : PyNum :=
  .float (.round ((lastAttemptAt - firstAttemptAt : Int) / 1000000))

/-- `elapsed_so_far + delay > self.max_total_delay_seconds`. -/
def exceeds (total elapsed delay : PyNum) : Except OverflowError Bool := do
  return total.lt (← elapsed.add delay)

/-- `get_next_attempt_delay`; `none` is terminal. -/
def getNextAttemptDelay (uniform : Binary64) (firstAttemptAt lastAttemptAt : Int)
    (attemptsCount : ℕ) : Except OverflowError (Option PyNum) := do
  if s.maxAttempts.any fun maxAttempts => maxAttempts.le (.int attemptsCount) then
    return none
  let delay ← s.delaySeconds libm uniform attemptsCount
  match s.maxTotalDelaySeconds with
  | some total =>
    if ← exceeds total (elapsedSoFar firstAttemptAt lastAttemptAt) delay then
      return none
    return some delay
  | none => return some delay

end ExponentialRetry

/-- `_default_retry_strategy`. -/
def defaultRetryStrategy : ExponentialRetry where
  initialDelaySeconds := .float (.ofInt 1 Binary64.abs_one_lt)
  multiplier := .float (.ofInt 2 (by decide))
  maxDelaySeconds := some (.float (.ofInt 300 (by decide)))
  maxAttempts := some (.int 10)
  jitterFactor := .float (.round (1 / 5))
  accepted := by decide +kernel

end Outbox
