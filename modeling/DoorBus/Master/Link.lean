/-!
# Link Supervision

A poll either gets a usable answer or it does not. One answer brings the link
up. It goes down when a given number of polls in a row stay without one. The
count stops at its largest value, and a threshold of zero works like one.

## Main definitions

* `Link`: Whether the link is up, and the count.
* `Link.succeed`, `Link.fail`: The outcome of a poll.
* `LinkChange`: Whether it changed the link.
-/

namespace DoorBus

/-- What the outcome of a poll did to the link. -/
inductive LinkChange
  /-- Nothing. -/
  | unchanged
  /-- Brought it up. -/
  | connected
  /-- Took it down. -/
  | disconnected
  deriving DecidableEq, Repr

/-- The link to the drive. -/
structure Link where
  /-- Number of polls in a row without an answer that takes the link down. -/
  threshold : UInt8
  /-- Number of polls in a row that had none. -/
  failures : UInt8 := 0
  /-- Whether the link is up. -/
  isUp : Bool := false
  deriving DecidableEq, Repr

namespace Link

/-- A link that has not come up yet. -/
def new (threshold : UInt8) : Link where
  threshold := max threshold 1

/-- A poll was answered. -/
def succeed (link : Link) : Link × LinkChange :=
  ({ link with failures := 0, isUp := true }, if link.isUp then .unchanged else .connected)

/-- A poll was not answered. -/
def fail (link : Link) : Link × LinkChange :=
  let failures := if link.failures = 255 then 255 else link.failures + 1
  if link.isUp ∧ link.threshold ≤ failures then
    ({ link with failures, isUp := false }, .disconnected)
  else
    ({ link with failures }, .unchanged)

end Link

end DoorBus
