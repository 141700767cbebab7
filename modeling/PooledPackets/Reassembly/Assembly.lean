import PooledPackets.Packet
import PooledPackets.Table

/-!
# The fragments held for one datagram

Fragments may arrive in any order. Those that continue the bytes received from
the start of the datagram form its front; the others are detached, and only
their number is limited. The end of the datagram is known once a fragment has
arrived that nothing follows.
-/

namespace PooledPackets

/-- The fragments of one incomplete datagram. -/
structure Assembly where
  /-- The clock reading from which on the datagram is late. -/
  deadline : Nat
  /-- The fragments by their offsets. -/
  held : Table Packet
  /-- The bytes held. -/
  received : Nat
  /-- Where the front ends. -/
  frontEnd : Nat
  /-- The held fragments that do not belong to the front. -/
  detached : Nat
  /-- The length of the datagram, once known. -/
  total : Option Nat

namespace Assembly

/-- A datagram of which nothing has arrived yet. -/
def begun (deadline : Nat) : Assembly where
  deadline := deadline
  held := .empty
  received := 0
  frontEnd := 0
  detached := 0
  total := none

/-- Whether a held fragment has the given offset, or the last one that starts
before `stop` reaches beyond the offset. -/
def claims (assembly : Assembly) (offset stop : Nat) : Bool :=
  assembly.held.contains offset ||
    match assembly.held.lastBelow? stop with
    | none => false
    | some (start, fragment) => decide (offset < start + fragment.length)

/-- Whether a fragment that ends at `stop` contradicts what is known of the end
of the datagram. -/
def contradicts (assembly : Assembly) (moreFragments : Bool) (stop : Nat) :
    Bool :=
  if moreFragments then
    match assembly.total with
    | none => false
    | some total => decide (total < stop)
  else
    (match assembly.total with
      | none => false
      | some total => decide (total ≠ stop)) ||
    match assembly.held.last? with
    | none => false
    | some (start, fragment) => decide (stop < start + fragment.length)

/-- Follows ascending fragments as long as each starts where the one before
ends: where the last of them ends and how many they are. -/
def follow (position : Nat) : List (Nat × Packet) → Nat × Nat
  | [] => (position, 0)
  | (start, fragment) :: rest =>
      if start = position then
        let (reached, passed) := follow (position + fragment.length) rest
        (reached, passed + 1)
      else (position, 0)

/-- The datagram with a fragment added to the front, which takes along all
detached fragments that now continue it, or added as a detached one. -/
def place (assembly : Assembly) (tag : FragmentTag) (fragment : Packet) :
    Assembly :=
  let stop := tag.offset + fragment.length
  let (frontEnd, detached) :=
    if tag.offset = assembly.frontEnd then
      let (reached, passed) := follow stop (assembly.held.entriesFrom stop)
      (reached, assembly.detached - passed)
    else (assembly.frontEnd, assembly.detached + 1)
  { assembly with
    held := assembly.held.insert tag.offset fragment
    received := assembly.received + fragment.length
    frontEnd, detached
    total := if tag.moreFragments then assembly.total else some stop }

/-- The datagram with one more fragment. A fragment is refused if it claims
bytes that are held, if it contradicts the end of the datagram, or if it would
be one detached fragment too many. -/
def insert (assembly : Assembly) (tag : FragmentTag) (fragment : Packet)
    (holdLimit : Nat) : Except BufferError Assembly :=
  let stop := tag.offset + fragment.length
  if assembly.claims tag.offset stop then
    .error (.overlap tag.datagram tag.offset fragment.length)
  else if assembly.contradicts tag.moreFragments stop then
    .error (.invalidFragment tag.datagram tag.offset)
  else if tag.offset ≠ assembly.frontEnd ∧ holdLimit ≤ assembly.detached then
    .error (.holdLimitExceeded tag.datagram holdLimit)
  else .ok (assembly.place tag fragment)

def isComplete (assembly : Assembly) : Bool :=
  assembly.total == some assembly.received

/-- The held fragments in the order of their offsets. -/
def fragments (assembly : Assembly) : List Packet :=
  assembly.held.values

end Assembly

end PooledPackets
