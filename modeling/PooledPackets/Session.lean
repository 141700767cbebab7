import PooledPackets.Fragment.Fragmenter
import PooledPackets.Reassembly.Reassembler

/-!
# Sessions

A session makes pools, one after the other, and keeps packets, reassemblers and
walks over packets under numbers. It carries out commands one after the other.
A walk borrows the packet that it splits: this stays in its slot, where it can
still be read and other walks can begin over it, but nothing can change it,
take it away or file another one in its place until its walks have ended.
-/

namespace PooledPackets

/-- A walk over the packet in a slot. -/
structure Walk where
  slot : Nat
  fragmenter : Fragmenter

/-- The state of a session. -/
structure Session where
  /-- All pools that the session ever makes, in the order of their making. A
  pool that is not made yet is as it will be made. -/
  pools : Pools
  /-- The number of places in this order that have had their turn. -/
  made : Nat
  packets : Table Packet
  reassemblers : Table Reassembler
  walks : Table Walk

/-- A frame to be received. -/
inductive Frame where
  /-- The bytes as they come. -/
  | raw (bytes : Bytes)
  /-- A header, to be written in the receiver's byte order, and a payload. -/
  | made (header : FragmentHeader) (payload : Bytes)
  deriving DecidableEq, Repr

/-- What a session can be told to do. -/
inductive Command where
  /-- Makes the next pool. -/
  | newPool
  | allocate (pool : PoolId) (len slot : Nat)
  | packetFrom (pool : PoolId) (bytes : Bytes) (slot : Nat)
  | append (slot : Nat) (bytes : Bytes)
  | release (slot : Nat)
  | drop (slot : Nat)
  | copy (pool : PoolId) (source slot : Nat)
  | receive (pool : PoolId) (frame : Frame) (slot : Nat)
  | slices (slot offset len : Nat)
  | readAt (slot offset : Nat) (destination : Bytes)
  | copyTo (slot : Nat) (destination : Bytes)
  | writeZone (slot : Nat) (zone : Packet.Zone) (only : Option Nat)
      (bytes : Bytes)
  | swapFirst (first second : Nat)
  | writeFragmentHeader (slot : Nat)
  /-- Begins to split the packet in a slot. -/
  | beginWalk (pool : PoolId) (slot mtu walk : Nat)
  /-- Makes the next fragment of a walk and files it. -/
  | nextFragment (walk slot : Nat)
  /-- Makes up to `max` fragments and files them from a slot on. -/
  | collectFragments (walk slot max : Nat)
  | resumeWalk (walk : Nat)
  | restartWalk (walk : Nat)
  | endWalk (walk : Nat)
  /-- Choices give the order in which a reassembler that was in this place
  drops its datagrams, here and below. -/
  | newReassembler (pool : PoolId) (reassembler : Nat) (choices : List Nat)
  | push (reassembler source now slot : Nat)
  | expire (reassembler now : Nat)
  | clear (reassembler : Nat) (choices : List Nat)
  | dropReassembler (reassembler : Nat) (choices : List Nat)
  /-- Reassembles one datagram from the packets in some slots, each of them
  looked at when the clock shows the reading in front of its slot. -/
  | reassemble (pool : PoolId) (arrivals : List (Nat × Nat))
      (slot deadline : Nat) (choices : List Nat)
  deriving DecidableEq, Repr

/-- Whether a command can change the packet in a slot, take it away or file
another one in its place. -/
def Command.changes (slot : Nat) : Command → Bool
  | .allocate _ _ target | .packetFrom _ _ target | .append target _
  | .release target | .drop target | .copy _ _ target | .receive _ _ target
  | .writeZone target _ _ _ | .writeFragmentHeader target
  | .nextFragment _ target => slot == target
  | .swapFirst first second => slot == first || slot == second
  | .collectFragments _ first max => first ≤ slot && slot < first + max
  | .push _ source _ target => slot == source || slot == target
  | .reassemble _ arrivals target _ _ =>
      arrivals.any (slot == ·.2) || slot == target
  | _ => false

/-- What a session has to say to a command. -/
inductive Reply where
  | nothing
  | packet (packet : Packet)
  | refused (error : BufferError)
  | noSuchPool
  | noSuchSlot
  | noSuchReassembler
  | noSuchWalk
  /-- A walk has borrowed a packet that the command would change. -/
  | lent
  | pieces (pieces : List Bytes)
  | copied (count : Nat) (destination : Bytes)
  | counts (counts : List Nat)
  | swapped (done : Bool)
  | headerZone (bytes : Bytes)
  | walk (fragmenter : Fragmenter)
  | fragment (result : Option (Except BufferError Packet))
  /-- The fragments made, each with its slot, or why none could be made. -/
  | fragments (results : List (Except BufferError (Nat × Packet)))
  /-- What a fragment led to, and the datagram that it belongs to. -/
  | pushed (datagram : Option UInt32)
      (result : Except BufferError (Option Packet))
  | expired (datagrams : List Nat)

/-- A step of a session: it has a value and leaves a new state, or the run
stops. -/
abbrev SessionStep := StateT Session (Except Stop)

namespace Session

/-- A session that is going to make the given pools, with nothing in its
slots. -/
def start (pools : Pools) : Session where
  pools := pools
  made := 0
  packets := .empty
  reassemblers := .empty
  walks := .empty

/-- Whether the pool in a place has been made. -/
def hasPool (session : Session) (id : PoolId) : Bool :=
  id < session.made && session.pools.table.contains id

/-- A walk as it stands, over the packet that it borrows. -/
def walk? (session : Session) (index : Nat) : Option Walk := do
  let walk ← session.walks.get? index
  let source ← session.packets.get? walk.slot
  pure { walk with fragmenter := { walk.fragmenter with source } }

/-- The packets that walks have borrowed. -/
def sources (session : Session) : List Packet :=
  session.walks.values.filterMap fun walk => session.packets.get? walk.slot

/-- Whether a command would change a packet that a walk has borrowed. -/
def lends (session : Session) (command : Command) : Bool :=
  session.walks.values.any fun walk => command.changes walk.slot

/-! ## The parts of a step -/

/-- Ends the run. The packets being split are in hand: they are given back on
the way out, and when one of them holds a segment of another pool this raises a
second violation. -/
def breakOff {α : Type} (stop : Stop) : SessionStep α := fun session =>
  if stop.givesBack && session.sources.any session.pools.findsForeign then
    .error .collapse
  else .error stop

/-- Carries out an operation on the pools of the session. -/
def perform {α : Type} (operation : Operation α) :
    SessionStep (Except BufferError α) := fun session =>
  match operation session.pools with
  | .done value pools => .ok (.ok value, { session with pools })
  | .failed error pools => .ok (.error error, { session with pools })
  | .stopped stop => breakOff stop session

def discard (packet : Packet) : SessionStep PUnit := do
  let _ ← perform packet.drop

/-- Puts a packet into a slot and drops the one that was there. -/
def keep (slot : Nat) (packet : Packet) : SessionStep PUnit := do
  let session ← get
  set { session with packets := session.packets.insert slot packet }
  match session.packets.get? slot with
  | none => pure ⟨⟩
  | some previous => discard previous

/-- Changes a packet where it is. -/
def update (slot : Nat) (packet : Packet) : SessionStep PUnit :=
  modify fun session =>
    { session with packets := session.packets.insert slot packet }

def vacate (slot : Nat) : SessionStep PUnit :=
  modify fun session =>
    { session with packets := session.packets.erase slot }

/-- Changes a reassembler where it is. -/
def updateReassembler (index : Nat) (reassembler : Reassembler) :
    SessionStep PUnit :=
  modify fun session =>
    { session with
      reassemblers := session.reassemblers.insert index reassembler }

/-- Goes on with the packet in a slot. -/
def withPacket (slot : Nat) (next : Packet → SessionStep Reply) :
    SessionStep Reply := do
  match (← get).packets.get? slot with
  | none => pure .noSuchSlot
  | some packet => next packet

/-- Goes on if there is a pool in this place. -/
def withPool (id : PoolId) (next : SessionStep Reply) : SessionStep Reply := do
  if (← get).hasPool id then next else pure .noSuchPool

/-- Goes on with a reassembler. -/
def withReassembler (index : Nat) (next : Reassembler → SessionStep Reply) :
    SessionStep Reply := do
  match (← get).reassemblers.get? index with
  | none => pure .noSuchReassembler
  | some reassembler => next reassembler

/-- Files the packet that an operation makes. -/
def keepResult (slot : Nat) (operation : Operation Packet) :
    SessionStep Reply := do
  match ← perform operation with
  | .error error => pure (.refused error)
  | .ok packet =>
      keep slot packet
      pure (.packet packet)

/-- Puts the changed packet that an operation makes back where it was. -/
def updateResult (slot : Nat) (operation : Operation Packet)
    (reply : Packet → Reply) : SessionStep Reply := do
  match ← perform operation with
  | .error error => pure (.refused error)
  | .ok packet =>
      update slot packet
      pure (reply packet)

/-! ## Splitting packets -/

/-- Goes on with a walk. -/
def withWalk (index : Nat) (next : Walk → SessionStep Reply) :
    SessionStep Reply := do
  match (← get).walk? index with
  | none => pure .noSuchWalk
  | some walk => next walk

/-- Changes a walk where it is. -/
def updateWalk (index : Nat) (walk : Walk) : SessionStep PUnit :=
  modify fun session =>
    { session with walks := session.walks.insert index walk }

/-- Makes the next fragment of a walk and files it. -/
def nextFragment (index slot : Nat) : SessionStep Reply :=
  withWalk index fun walk => do
    match ← perform walk.fragmenter.next with
    | .error error => pure (.refused error)
    | .ok (result, fragmenter) =>
        updateWalk index { walk with fragmenter }
        match result with
        | some (.ok fragment) => keep slot fragment
        | _ => pure ⟨⟩
        pure (.fragment result)

/-- Makes up to so many fragments and files them from a slot on; a fragment
that could not be made takes no slot. -/
def collectFragments (index slot : Nat) : (max : Nat) →
    SessionStep (List (Except BufferError (Nat × Packet)))
  | 0 => pure []
  | max + 1 => do
      match ← nextFragment index slot with
      | .fragment (some (.ok fragment)) =>
          let later ← collectFragments index (slot + 1) max
          pure (.ok (slot, fragment) :: later)
      | .fragment (some (.error error)) =>
          let later ← collectFragments index slot max
          pure (.error error :: later)
      | _ => pure []

/-! ## Carrying out commands -/

/-- The bytes of a frame for a pool. -/
def frameBytes (pool : Pool) : Frame → Bytes
  | .raw bytes => bytes
  | .made header payload => header.encode pool.config.byteOrder ++ payload

/-- The outcome of a reading command. -/
def readReply : ReadOutcome → SessionStep Reply
  | .copied count destination => pure (.copied count destination)
  | .refused error => pure (.refused error)
  | .outOfRange => breakOff .outOfRange

/-- Exchanges the chains of two packets, unless one of them has none. -/
def swapFirst (first second : Nat) : SessionStep Reply :=
  if first = second then pure .noSuchSlot
  else
    withPacket first fun one =>
      withPacket second fun other =>
        if one.isReleased || other.isReleased then pure (.swapped false)
        else do
          let (one, other) := one.exchangeChains other
          update first one
          update second other
          pure (.swapped true)

/-- Makes the next pool, unless its configuration is refused. -/
def newPool : SessionStep Reply := do
  let id := (← get).made
  modify fun session => { session with made := id + 1 }
  withPool id (pure .nothing)

/-- Begins to split the packet in a slot. -/
def beginWalk (pool : PoolId) (slot mtu index : Nat) : SessionStep Reply :=
  withPool pool <| withPacket slot fun packet => do
    match ← perform (Pool.fragmentForLink pool packet mtu) with
    | .error error => pure (.refused error)
    | .ok fragmenter =>
        updateWalk index ⟨slot, fragmenter⟩
        pure (.walk fragmenter)

/-- Ends a walk. The packet that it borrowed can be changed again. -/
def endWalk (index : Nat) : SessionStep Reply :=
  withWalk index fun _ => do
    modify fun session =>
      { session with walks := session.walks.erase index }
    pure .nothing

def push (index source now slot : Nat) : SessionStep Reply :=
  withReassembler index fun reassembler =>
    withPacket source fun fragment => do
      vacate source
      match ← perform (reassembler.push fragment now) with
      | .error error => pure (.refused error)
      | .ok (result, reassembler) =>
          updateReassembler index reassembler
          match result with
          | .ok (some packet) => keep slot packet
          | _ => pure ⟨⟩
          pure (.pushed (fragment.tag.map FragmentTag.datagram) result)

/-- The packets in the given slots, if there is one in each and no slot is
named twice. -/
def packetsIn? (session : Session) (slots : List Nat) : Option (List Packet) :=
  if slots.Nodup then slots.mapM session.packets.get? else none

def reassemble (pool : PoolId) (arrivals : List (Nat × Nat))
    (slot deadline : Nat) (choices : List Nat) : SessionStep Reply :=
  withPool pool do
    let sources := arrivals.map Prod.snd
    match (← get).packetsIn? sources with
    | none => pure .noSuchSlot
    | some fragments =>
        sources.forM vacate
        let readings := arrivals.map Prod.fst
        keepResult slot
          (Pool.reassemble pool (readings.zip fragments) deadline choices)

def carryOut : Command → SessionStep Reply
  | .newPool => newPool
  | .allocate pool len slot =>
      withPool pool (keepResult slot (Pool.allocate pool len))
  | .packetFrom pool bytes slot =>
      withPool pool (keepResult slot (Pool.packetFrom pool bytes))
  | .append slot bytes =>
      withPacket slot fun packet =>
        updateResult slot (packet.append bytes) .packet
  | .release slot =>
      withPacket slot fun packet =>
        updateResult slot packet.release .packet
  | .drop slot =>
      withPacket slot fun packet => do
        vacate slot
        discard packet
        pure .nothing
  | .copy pool source slot =>
      withPool pool <| withPacket source fun packet =>
        keepResult slot (Pool.copyPacket pool packet)
  | .receive pool frame slot =>
      withPool pool do
        let bytes := frameBytes ((← get).pools.get pool) frame
        keepResult slot (Pool.receiveFrame pool bytes)
  | .slices slot offset len =>
      withPacket slot fun packet =>
        match packet.slices? offset len with
        | none => breakOff .outOfRange
        | some pieces => pure (.pieces pieces)
  | .readAt slot offset destination =>
      withPacket slot fun packet =>
        readReply (packet.readAt offset destination)
  | .copyTo slot destination =>
      withPacket slot fun packet =>
        let (count, destination) := packet.copyTo destination
        pure (.copied count destination)
  | .writeZone slot zone only bytes =>
      withPacket slot fun packet => do
        update slot (packet.writeZone zone only bytes)
        pure (.counts (packet.zoneCounts zone only bytes))
  | .swapFirst first second => swapFirst first second
  | .writeFragmentHeader slot =>
      withPacket slot fun packet =>
        updateResult slot packet.writeFragmentHeader fun stamped =>
          .headerZone (stamped.chain.head?.elim [] Segment.header)
  | .beginWalk pool slot mtu walk => beginWalk pool slot mtu walk
  | .nextFragment walk slot => nextFragment walk slot
  | .collectFragments walk slot max =>
      withWalk walk fun _ => do
        pure (.fragments (← collectFragments walk slot max))
  | .resumeWalk index =>
      withWalk index fun walk => do
        let fragmenter := walk.fragmenter.resume
        updateWalk index { walk with fragmenter }
        pure (.walk fragmenter)
  | .restartWalk index =>
      withWalk index fun walk => do
        let fragmenter := walk.fragmenter.restart
        updateWalk index { walk with fragmenter }
        pure (.walk fragmenter)
  | .endWalk walk => endWalk walk
  | .newReassembler pool index choices =>
      withPool pool do
        match ← perform (Reassembler.forPool pool) with
        | .error error => pure (.refused error)
        | .ok reassembler =>
            let previous := (← get).reassemblers.get? index
            updateReassembler index reassembler
            match previous with
            | none => pure ⟨⟩
            | some previous => let _ ← perform (previous.clear choices)
            pure .nothing
  | .push index source now slot => push index source now slot
  | .expire index now =>
      withReassembler index fun reassembler => do
        match ← perform (reassembler.expire now) with
        | .error error => pure (.refused error)
        | .ok (datagrams, reassembler) =>
            updateReassembler index reassembler
            pure (.expired datagrams)
  | .clear index choices =>
      withReassembler index fun reassembler => do
        match ← perform (reassembler.clear choices) with
        | .error error => pure (.refused error)
        | .ok reassembler =>
            updateReassembler index reassembler
            pure .nothing
  | .dropReassembler index choices =>
      withReassembler index fun reassembler => do
        modify fun session =>
          { session with reassemblers := session.reassemblers.erase index }
        let _ ← perform (reassembler.clear choices)
        pure .nothing
  | .reassemble pool arrivals slot deadline choices =>
      reassemble pool arrivals slot deadline choices

/-- Carries out a command, unless it would change a packet that is lent. -/
def step (session : Session) (command : Command) :
    Except Stop (Reply × Session) :=
  if session.lends command then .ok (.lent, session)
  else carryOut command session

def runAll (session : Session) : List Command → Except Stop Session
  | [] => .ok session
  | command :: rest =>
      match session.step command with
      | .error stop => .error stop
      | .ok (_, session) => session.runAll rest

/-- The session after the end of its walks. -/
def rested (session : Session) : Session :=
  { session with walks := .empty }

/-- Ends a session: its walks end, the reassemblers are dropped, then the
packets, in the order of their slots. Choices give the order in which each
reassembler drops its datagrams. -/
def finish (session : Session) (choices : Nat → List Nat) :
    Except Stop Pools := do
  let (_, emptied) ← (do
    session.reassemblers.entries.forM fun entry => do
      let _ ← perform (entry.2.clear (choices entry.1))
    session.packets.values.forM discard : SessionStep PUnit).run session.rested
  pure emptied.pools

end Session

end PooledPackets
