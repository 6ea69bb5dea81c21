import ZenthDht.Data.Bytes
import Mathlib.Logic.Function.Basic

/-!
# Rate limiters

`rate_limit.rs`: four fixed-window counters keyed by the first 32 bytes of a key.
Instants are nanoseconds of the monotonic clock.
-/

namespace ZenthDht

/-- `Duration::as_secs` of the time elapsed between two instants. -/
def elapsedSecs (since now : Nat) : Nat := (now - since) / 1000000000

structure KeyRateLimiter where
  map : Bytes → Option (Nat × Nat)
  maxRequests : Nat
  windowSecs : UInt64

namespace KeyRateLimiter

def new (maxRequests : Nat) (windowSecs : UInt64) : KeyRateLimiter :=
  ⟨fun _ ↦ none, maxRequests, windowSecs⟩

/-- The array the limiter is keyed by: 32 bytes of the key, padded with zeros. -/
def slot (key : Bytes) : Bytes := key.take 32 ++ List.replicate (32 - key.length) 0

def isAllowed (l : KeyRateLimiter) (now : Nat) (key : Bytes) : Bool × KeyRateLimiter :=
  if key = [] then (false, l)
  else
    let entry := (l.map (slot key)).getD (now, 0)
    if l.windowSecs.toNat ≤ elapsedSecs entry.1 now then
      (true, { l with map := Function.update l.map (slot key) (some (now, 1)) })
    else if entry.2 < l.maxRequests then
      (true, { l with map := Function.update l.map (slot key) (some (entry.1, entry.2 + 1)) })
    else
      (false, { l with map := Function.update l.map (slot key) (some entry) })

/-- Remove the entries that are older than two windows, a product that wraps in a release build. -/
def cleanup (l : KeyRateLimiter) (now : Nat) : KeyRateLimiter :=
  { l with map := fun k ↦ (l.map k).filter fun e ↦ elapsedSecs e.1 now < (l.windowSecs * 2).toNat }

end KeyRateLimiter

inductive LimiterId
  | relayPush | blobPush | midMsg | largeMsg
deriving DecidableEq

/-- The limiters of the process, after `init_limiters`. -/
abbrev Limiters : Type := LimiterId → KeyRateLimiter

def initLimiters : Limiters
  | .relayPush => .new 60 60
  | .blobPush => .new 20 60
  | .midMsg => .new 1 10
  | .largeMsg => .new 1 30

end ZenthDht
