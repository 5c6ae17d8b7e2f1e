import TxnEngine.Error
import TxnEngine.Text.Quoted

/-!
# Configuration

How often rows are sent again and with what delay, how an engine is set up, and how a pipeline is to
treat rejected rows. Each is checked before use, and the first fault found is the one reported.

The delay before attempt `n + 1` grows by a factor with every attempt, up to a limit. Powers of the
factor are formed by repeated squaring.
-/

namespace TxnEngine

/-- How failed rows are sent again (`RetryConfig`). -/
structure RetryConfig where
  maxAttempts : Nat
  initialDelay : Duration
  maxDelay : Duration
  /-- The factor by which the delay grows with every attempt. -/
  multiplier : Float
  /-- Whether up to a quarter of the delay is added at random. -/
  addJitter : Bool
deriving Inhabited

namespace RetryConfig

/-- Delays from 100 ms to 2 s, doubling, with jitter (`RetryConfig::new`). -/
def new (maxAttempts : Nat) : RetryConfig :=
  ⟨maxAttempts, .ofMillis 100, .ofSeconds 2, 2.0, true⟩

/-- Attempts without delay (`RetryConfig::no_delay`). -/
def noDelay (maxAttempts : Nat) : RetryConfig :=
  ⟨maxAttempts, .zero, .zero, 1.0, false⟩

def default : RetryConfig := new 5

/-- At least one attempt is made, and delays do not shrink (`RetryConfig::validate`). -/
def validate (c : RetryConfig) : Except ConfigFault Unit :=
  if c.maxAttempts = 0 then .error .noAttempts
  else if c.multiplier.isNaN || c.multiplier.isInf || c.multiplier < 1.0 then
    .error (.multiplier (Decimal.text c.multiplier))
  else .ok ()

/-- The product of `product` and the `n`-th power of `base`, by repeated squaring. -/
def powerFrom : (fuel : Nat) → (product base : Float) → (n : Nat) → Float
  | 0, product, _, _ => product
  | fuel + 1, product, base, n =>
    let product := if n % 2 = 1 then product * base else product
    if n / 2 = 0 then product else powerFrom fuel product (base * base) (n / 2)

/-- The `n`-th power of `base`, for `n` below `2 ^ 64`. -/
def power (base : Float) (n : Nat) : Float :=
  powerFrom 64 1.0 base n

/-- The largest exponent used. -/
def exponentLimit : Nat := (1 <<< 31) - 1

/-- The delay in front of an attempt without jitter, in seconds. What is negative or not a number
counts as no delay. -/
def delaySeconds (c : RetryConfig) (attempt : Nat) : Float :=
  let base := c.initialDelay.toFloat * power c.multiplier (min (attempt - 1) exponentLimit)
  let base := if 0 < base then base else 0
  let limit := c.maxDelay.toFloat
  if limit < base then limit else base

/-- The delay in front of an attempt without jitter, if it can be represented (`delay_for_attempt`
where it draws no number). The first attempt is made at once. -/
def delay? (c : RetryConfig) (attempt : Nat) : Option Duration :=
  if attempt = 0 then some .zero else Duration.ofFloat? (c.delaySeconds attempt)

/-- Whether the delay in front of an attempt has a random part. -/
def isJittered (c : RetryConfig) (attempt : Nat) : Bool :=
  attempt ≠ 0 && c.addJitter && 0 < c.delaySeconds attempt

/-- The delay in front of an attempt, if it can be represented, when the number `draw` from 0 to 1 is
drawn for its random part (`delay_for_attempt`). The random part is added before the delay is looked
at, so a delay short of the limit may be beyond it with jitter. -/
def drawnDelay? (c : RetryConfig) (draw : Float) (attempt : Nat) : Option Duration :=
  if c.isJittered attempt then
    let seconds := c.delaySeconds attempt
    Duration.ofFloat? (seconds + seconds * 0.25 * draw)
  else c.delay? attempt

end RetryConfig

/-- How an engine is set up (`Config`). -/
structure Config where
  keepAliveInterval : Duration
  transactionTimeout : Duration
  keepAliveWorkers : Nat
  cacheCapacity : Nat
  cacheMaxAge : Duration
  resolverQueueCapacity : Nat
  resolverWorkers : Nat
  retry : RetryConfig
deriving Inhabited

namespace Config

def default : Config where
  keepAliveInterval := .ofSeconds 15
  transactionTimeout := .ofSeconds 60
  keepAliveWorkers := 2
  cacheCapacity := 8192
  cacheMaxAge := .ofSeconds 300
  resolverQueueCapacity := 1024
  resolverWorkers := 1
  retry := .default

/-- Transactions are renewed before they expire, and there is someone to do the work
(`Config::validate`). -/
def validate (c : Config) : Except ConfigFault Unit :=
  if c.keepAliveInterval = .zero then .error .intervalZero
  else if c.transactionTimeout ≤ c.keepAliveInterval then
    .error (.intervalTooLong c.keepAliveInterval c.transactionTimeout)
  else if c.keepAliveWorkers = 0 ∨ c.resolverWorkers = 0 then .error .noWorkers
  else if c.resolverQueueCapacity = 0 then .error .noQueue
  else c.retry.validate

end Config

/-- How a pipeline treats rejected rows (`WriteOptions`). -/
structure WriteOptions where
  /-- Whether rejected rows are reported and left out, rather than ending the batch. -/
  isPermissive : Bool
  tolerance : Int
  sourceName : Option String
deriving DecidableEq, Inhabited

namespace WriteOptions

/-- The first rejected row ends the batch (`WriteOptions::strict`). -/
def strict : WriteOptions := ⟨false, 0, none⟩

/-- The first rejected row beyond the tolerance ends the batch, and those before it are reported
(`WriteOptions::permissive`). -/
def permissive (source : String) (tolerance : Int) : WriteOptions := ⟨true, tolerance, some source⟩

/-- The options as they are shown in messages. -/
def text (o : WriteOptions) : String :=
  "WriteOptions \x7b permissive: " ++ (if o.isPermissive then "true" else "false") ++
    ", tolerance: " ++ toString o.tolerance ++ ", source_name: " ++
    (match o.sourceName with
      | none => "None"
      | some name => "Some(" ++ Text.quoted name ++ ")") ++ " \x7d"

end WriteOptions

end TxnEngine
