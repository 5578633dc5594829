import Mathlib.Logic.Function.Basic
import Vnidrop.Values

/-! `IdentityCooldown`: the quiet period of a peer after a decline or repeated malformed
traffic. -/
namespace Vnidrop

/-- `i64` addition as the release profile compiles it. -/
def addI64 (a b : Int) : Int := (a + b + 9223372036854775808) % 18446744073709551616 - 9223372036854775808

structure IdentityCooldown where
  coolsUntil : EndpointId → Option Millis
  strikes : EndpointId → Nat

namespace IdentityCooldown

def new : IdentityCooldown := ⟨fun _ => none,fun _ => 0⟩

/-- The entries that are over are dropped by every look. -/
def prune (c : IdentityCooldown) (now : Millis) : IdentityCooldown :=
  { c with coolsUntil := fun identity => (c.coolsUntil identity).filter (now < ·) }

def isCooling (c : IdentityCooldown) (now : Millis) (identity : EndpointId) : Bool :=
  ((c.prune now).coolsUntil identity).isSome

def cool (c : IdentityCooldown) (cooldownMs : Int) (now : Millis) (identity : EndpointId) :
    IdentityCooldown where
  coolsUntil := Function.update c.coolsUntil identity (some (addI64 now cooldownMs))
  strikes := Function.update c.strikes identity 0

def recordDecline (c : IdentityCooldown) (cooldownMs : Int) (now : Millis) (identity : EndpointId) :
    IdentityCooldown :=
  c.cool cooldownMs now identity

/-- A strike, or the cooldown that the last strike brings. The clock is read for the look and
once more for the cooldown. -/
def recordMalformedAt (c : IdentityCooldown) (cooldownMs : Int) (strikeLimit : Nat) (now later : Millis)
    (identity : EndpointId) : IdentityCooldown :=
  let pruned := c.prune now
  if c.isCooling now identity then pruned
  else
    let strikes := min (c.strikes identity + 1) 4294967295
    if strikeLimit ≤ strikes then pruned.cool cooldownMs later identity
    else { pruned with strikes := Function.update c.strikes identity strikes }

/-- The clock has not moved between the two readings. -/
def recordMalformed (c : IdentityCooldown) (cooldownMs : Int) (strikeLimit : Nat) (now : Millis)
    (identity : EndpointId) : IdentityCooldown :=
  c.recordMalformedAt cooldownMs strikeLimit now now identity

def clearStrikes (c : IdentityCooldown) (identity : EndpointId) : IdentityCooldown :=
  { c with strikes := Function.update c.strikes identity 0 }

theorem prune_isCooling (c : IdentityCooldown) (now : Millis) (identity : EndpointId) :
    (c.prune now).isCooling now identity = c.isCooling now identity := by
  simp [isCooling,prune,Option.filter_filter]

end IdentityCooldown

end Vnidrop
