import PooledPackets.Proofs.Contents.Gathered
import PooledPackets.Proofs.Sessions.Journal

/-!
# The ledger of a session

Beside a session a ledger is kept of what happened to its packets: to those in
slots and to the fragments held by reassemblers. It is written from the commands
and the replies to them, without a look at the payload of any packet.
-/

namespace PooledPackets

/-- Whether a command exchanges segments or writes over payload. -/
def Command.meddles : Command → Bool
  | .swapFirst .. => true
  | .writeZone _ .payload _ _ => true
  | _ => false

/-- The history of a fragment that is cut out of a packet. -/
def History.piece (source : History) (fragmenter : Fragmenter) : History :=
  .made
    (source.bytes.between fragmenter.offset
      (fragmenter.offset + fragmenter.nextLength))
    (some {
      datagram := fragmenter.datagram
      offset := fragmenter.offset
      moreFragments := decide (fragmenter.offset + fragmenter.nextLength <
        fragmenter.source.length) })

/-- A fragment that a fragmenter makes has the history of a piece. -/
theorem Fragmenter.Makes.matches {fragmenter : Fragmenter} {layout : Layout}
    {fragment : Packet} {source : History}
    (makes : fragmenter.Makes .never layout fragment)
    (told : fragmenter.source.Matches source) :
    fragment.Matches (source.piece fragmenter) := by
  obtain ⟨bytes, body, filled, isBody, range⟩ := makes.filled
  apply Packet.Matches.made ?_ ?_ makes.tag_eq
  · rw [isBody]
    exact filled.held
  · rw [← told.bytes_eq, ← range rfl, isBody]
    exact filled.spelled

/-- The history of a packet that is received in a frame. -/
def History.received (pool : Pool) (frame : Frame) : History :=
  let bytes := Session.frameBytes pool frame
  .made (bytes.drop FragmentHeader.size)
    ((FragmentHeader.decode pool.config.byteOrder bytes).toOption.map
      FragmentHeader.toTag)

/-- The histories of the packets of a session. -/
structure Ledger where
  /-- Those of the packets in slots, by slot. -/
  packets : Nat → History
  /-- Those of the fragments that a reassembler holds for a datagram, by
  offset. -/
  held : Nat → Nat → Table History

namespace Ledger

def empty : Ledger where
  packets := fun _ => .released
  held := fun _ _ => .empty

def file (ledger : Ledger) (slot : Nat) (history : History) : Ledger :=
  { ledger with packets := Function.update ledger.packets slot history }

theorem packets_file (ledger : Ledger) (slot : Nat) (history : History) :
    (ledger.file slot history).packets =
      Function.update ledger.packets slot history := rfl

/-- What a reassembler holds for each datagram once it was handed the packet
in a slot. -/
def gathered (ledger : Ledger) (index source : Nat) : Nat → Table History :=
  History.including (ledger.held index) (ledger.packets source)

/-- Files the fragments that a fragmenter has made. -/
def filePieces (source : History) : (fragmenter : Fragmenter) →
    List (Except BufferError (Nat × Packet)) → Ledger → Ledger
  | _, [], ledger => ledger
  | fragmenter, .ok (slot, _) :: rest, ledger =>
      filePieces source (fragmenter.advance fragmenter.nextLength) rest
        (ledger.file slot (source.piece fragmenter))
  | fragmenter, .error _ :: rest, ledger =>
      filePieces source { fragmenter with stalled := true } rest ledger

/-- Files the fragments that a walk has made of the packet in its slot. -/
def split (ledger : Ledger) (session : Session) (index : Nat)
    (results : List (Except BufferError (Nat × Packet))) : Ledger :=
  match session.walk? index with
  | none => ledger
  | some walk =>
      ledger.filePieces (ledger.packets walk.slot) walk.fragmenter results

theorem split_eq (ledger : Ledger) {session : Session} {index : Nat}
    {walk : Walk} {results : List (Except BufferError (Nat × Packet))}
    (found : session.walk? index = some walk) :
    ledger.split session index results =
      ledger.filePieces (ledger.packets walk.slot) walk.fragmenter
        results := by
  rw [split, found]

/-- The ledger after a command, as far as slots go. -/
def told (ledger : Ledger) (session : Session) :
    Command → Reply → Ledger
  | .allocate _ _ slot, .packet _ => ledger.file slot (.made [] none)
  | .packetFrom _ bytes slot, .packet _ =>
      ledger.file slot (.made bytes none)
  | .append slot bytes, .packet _ =>
      ledger.file slot ((ledger.packets slot).adding bytes)
  | .release slot, .packet _ => ledger.file slot .released
  | .copy _ source slot, .packet _ =>
      ledger.file slot
        (.made (ledger.packets source).bytes (ledger.packets source).tag)
  | .receive pool frame slot, .packet _ =>
      ledger.file slot (.received (session.pools.get pool) frame)
  | .nextFragment walk slot, .fragment (some (.ok fragment)) =>
      ledger.split session walk [.ok (slot, fragment)]
  | .collectFragments walk _ _, .fragments results =>
      ledger.split session walk results
  | .push index source _ slot, .pushed (some datagram) (.ok (some _)) =>
      ledger.file slot (.made (History.spelled
        (ledger.gathered index source datagram.toNat)) none)
  | .reassemble _ arrivals slot _ _, .packet _ =>
      ledger.file slot (.made (History.gather (fun _ => .empty)
        (arrivals.map fun arrival => ledger.packets arrival.2)) none)
  | _, _ => ledger

/-- The ledger after a command. What was held for a datagram is forgotten once
the datagram is not incomplete any more. -/
def next (ledger : Ledger) (session : Session) (command : Command)
    (reply : Reply) (after : Session) : Ledger :=
  { ledger.told session command reply with
    held := fun index datagram =>
      if after.isPending index datagram then
        match command.source? reply index datagram with
        | none => ledger.held index datagram
        | some source => ledger.gathered index source datagram
      else .empty }

end Ledger

namespace Session

/-- Carries out commands and keeps a ledger. -/
def runTelling (session : Session) (ledger : Ledger) :
    List Command → Except Stop (Session × Ledger)
  | [] => .ok (session, ledger)
  | command :: rest =>
      match session.step command with
      | .error stop => .error stop
      | .ok (reply, after) =>
          after.runTelling (ledger.next session command reply after) rest

end Session

namespace Ledger

/-- The packets in the slots of a session are what a ledger says. -/
structure Covers (ledger : Ledger) (session : Session) : Prop where
  packets : ∀ slot packet, session.packets.get? slot = some packet →
    packet.Matches (ledger.packets slot)

/-- All packets of a session are what a ledger says. -/
structure Describes (ledger : Ledger) (session : Session) : Prop extends
    ledger.Covers session where
  held : ∀ index reassembler,
    session.reassemblers.get? index = some reassembler →
      reassembler.HoldsAs (ledger.held index)

variable {ledger : Ledger} {session after : Session} {slot : Nat}
variable {packet : Packet} {history : History}

namespace Covers

theorem vacated (covers : ledger.Covers session) (slot : Nat) :
    ledger.Covers (session.vacated slot) where
  packets := fun other packet found => by
    simp only [Session.vacated, Table.get?_erase] at found
    split at found
    · cases found
    · exact covers.packets other packet found

theorem filed (covers : ledger.Covers session) (slot : Nat)
    (told : packet.Matches history) :
    (ledger.file slot history).Covers (session.filed slot packet) where
  packets := fun other filed found => by
    simp only [Session.filed, Table.get?_insert] at found
    by_cases isSlot : other = slot
    · rw [if_pos isSlot] at found
      cases found
      rw [isSlot, packets_file, Function.update_self]
      exact told
    · rw [if_neg isSlot] at found
      rw [packets_file, Function.update_of_ne isSlot]
      exact covers.packets other filed found

/-- The packet that a walk splits is what the ledger says of its slot. -/
theorem matches_source (covers : ledger.Covers session) {index : Nat}
    {walk : Walk} (found : session.walk? index = some walk) :
    walk.fragmenter.source.Matches (ledger.packets walk.slot) :=
  covers.packets _ _ (Session.walk?_eq_some_iff.mp found).1

/-- A packet may be replaced by one with the same history. -/
theorem refiled (covers : ledger.Covers session)
    (told : packet.Matches (ledger.packets slot)) :
    ledger.Covers (session.filed slot packet) where
  packets := by
    have filed := (covers.filed slot told).packets
    rw [packets_file, Function.update_eq_self] at filed
    exact filed

end Covers

/-- What is held is what the ledger says, whether it was held before or has
just been added. -/
theorem Describes.next {command : Command} {reply : Reply}
    (describes : ledger.Describes session)
    (covers : (ledger.told session command reply).Covers after)
    (holds : session.Holds command reply after) :
    (ledger.next session command reply after).Describes after where
  packets := covers.packets
  held := by
    intro index reassembler found datagram
    cases isHeld : reassembler.pending.get? datagram with
    | none =>
        have notPending : after.isPending index datagram = false := by
          simp [Session.isPending, found, Table.contains, isHeld]
        rw [Reassembler.heldFor, isHeld, Ledger.next]
        simp only [notPending]
        exact List.Forall₂.nil
    | some assembly =>
        have pending : after.isPending index datagram = true := by
          simp [Session.isPending, found, Table.contains, isHeld]
        rw [Reassembler.heldFor_of_get? isHeld, Ledger.next]
        simp only [pending, if_true]
        cases holds index reassembler found datagram assembly isHeld with
        | kept nothing wasThere wasHeld =>
            have before := describes.held index _ wasThere datagram
            rw [Reassembler.heldFor_of_get? wasHeld] at before
            rw [nothing]
            exact before
        | grown isSource wasThere isFragment tagged isDatagram inserting =>
            subst isDatagram
            rw [isSource]
            exact (describes.held index _ wasThere).insert
              (describes.packets _ _ isFragment) tagged inserting

end Ledger

end PooledPackets
