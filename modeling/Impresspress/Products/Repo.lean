import Impresspress.Products.Contracts
import Mathlib.Algebra.Group.Nat.Defs

/-!
# Rules shared by the repositories of the products block

The retry budget of the two leased queues, their backoff, the rule that decides whether a
subscription event may be written over the stored projection, and the errors of the data layer.

Source: `blocks/products/repo/mod.rs`.
-/

namespace Products

/-- The error codes the block tells apart. `other` is every code it does not match on. -/
inductive ErrorCode where
  | internal
  | invalidArgument
  | failedPrecondition
  | notFound
  | permissionDenied
  | aborted
  | other
  deriving DecidableEq, Repr

/-- A failure: what kind it is, and what the log or the caller is told. -/
structure WaferError where
  code : ErrorCode
  message : String
  deriving DecidableEq, Repr

/-- A point in time, in nanoseconds. -/
abbrev Instant := ℕ

def nanosPerSecond : ℕ := 1000000000

/-- Whole seconds of a point in time, as `DateTime::timestamp`. -/
def Instant.timestamp (t : Instant) : ℤ := ((t / nanosPerSecond : ℕ) : ℤ)

/-- `TimeDelta::num_seconds` of `later - earlier`, which rounds towards zero. -/
def numSeconds (later earlier : Instant) : ℤ :=
  ((later : ℤ) - (earlier : ℤ)).tdiv (nanosPerSecond : ℤ)

/-- Attempts a leased unit of Stripe work gets before it dead-letters. -/
def maxAttempts : ℕ := 8

/-- Local backoff after failed attempt number `attempts`: `30 · 2^(attempts-1)` seconds, capped
at one hour. -/
def retryDelaySeconds (attempts : ℕ) : ℕ :=
  min (30 * 2 ^ min (attempts - 1) 7) 3600

/-- The instant a retry recorded at `now` becomes due. -/
def retryAt (now : Instant) (attempts : ℕ) : Instant :=
  now + retryDelaySeconds attempts * nanosPerSecond

/-- Whether a subscription webhook write may apply over the stored projection: strictly older
events never apply, nothing leaves a terminal status, and an equal-second delivery may only
move toward a more-terminal status. -/
def subscriptionTransitionAllowed (currentStatus : SubscriptionStatus) (currentEventCreated : ℤ)
    (incomingStatus : SubscriptionStatus) (incomingEventCreated : ℤ) : Bool :=
  if currentEventCreated > incomingEventCreated then false
  else if currentStatus.isTerminal && !incomingStatus.isTerminal then false
  else if currentEventCreated == incomingEventCreated
      && incomingStatus.rank < currentStatus.rank then false
  else true

end Products
