import PooledPackets.Proofs.Faults.Sessions
import PooledPackets.Proofs.Zones.Stamps

/-!
# Isolated zones

Over a whole run the bytes in the reserves of a segment are those that were
last written there, however often the segment was given back and handed out
again, spliced or filled: nothing but a write into a reserve reaches it.
-/

namespace PooledPackets

/-! ## What was written last -/

/-- The bytes in the two reserves of a segment. -/
structure Reserve where
  header : Bytes
  trailer : Bytes
  deriving DecidableEq, Repr

namespace Reserve

/-- Bytes written over the start of a zone, as far as they fit. -/
def write (zone : Packet.Zone) (bytes : Bytes) (reserve : Reserve) :
    Reserve :=
  match zone with
  | .header => { reserve with
      header := reserve.header.overwrite 0
        (bytes.take reserve.header.length) }
  | .payload => reserve
  | .trailer => { reserve with
      trailer := reserve.trailer.overwrite 0
        (bytes.take reserve.trailer.length) }

/-- Bytes written over the end of the header reserve, if they fit. -/
def stamp (bytes : Bytes) (reserve : Reserve) : Reserve :=
  if bytes.length ≤ reserve.header.length then
    { reserve with
      header := reserve.header.take
        (reserve.header.length - bytes.length) ++ bytes }
  else reserve

end Reserve

namespace Segment

def reserve (segment : Segment) : Reserve :=
  ⟨segment.header, segment.trailer⟩

theorem reserve_write (zone : Packet.Zone) (segment : Segment)
    (bytes : Bytes) :
    (zone.write segment bytes).reserve =
      Reserve.write zone bytes segment.reserve := by
  have changes := zone.write_changes segment bytes
  have zones : segment.layout.payloadStart ≤ segment.layout.payloadEnd :=
    Nat.le_add_right _ _
  cases zone with
  | header =>
      have ahead : segment.layout.headerReserve ≤
          segment.layout.payloadEnd := zones
      have trailer := changes.trailer_eq (by
        rw [Packet.Zone.start, Packet.Zone.size, Nat.zero_add]
        exact ahead)
      rw [reserve, trailer, Reserve.write, reserve]
      simp only [Packet.Zone.write, header_writeHeader,
        segment.zoned.length_header]
  | payload =>
      have inZone : segment.layout.payloadStart + segment.length ≤
          segment.layout.payloadEnd :=
        Nat.add_le_add_left segment.length_le _
      rw [reserve, changes.header_eq (Nat.le_refl _),
        changes.trailer_eq inZone]
      rfl
  | trailer =>
      rw [reserve, changes.header_eq zones, Reserve.write, reserve]
      simp only [Packet.Zone.write, trailer_writeTrailer,
        segment.zoned.length_trailer]

theorem reserve_writeHeaderEnd? (segment : Segment) (bytes : Bytes) :
    ((segment.writeHeaderEnd? bytes).getD segment).reserve =
      Reserve.stamp bytes segment.reserve := by
  have size : segment.reserve.header.length =
      segment.layout.headerReserve := segment.zoned.length_header
  rw [Reserve.stamp, size]
  cases writing : segment.writeHeaderEnd? bytes with
  | none =>
      have tooSmall := writeHeaderEnd?_eq_none_iff.mp writing
      rw [if_neg (Nat.not_le_of_lt tooSmall)]
      rfl
  | some after =>
      have stamped := stamped_of_writeHeaderEnd? writing
      have trailer := stamped.changes.trailer_eq (Nat.le_add_right _ _)
      rw [if_pos stamped.fits, Option.getD_some, reserve, stamped.header_eq,
        trailer]
      rfl

end Segment

/-- The bytes in the reserves of all segments, by pool and number. -/
abbrev Reserves : Type :=
  PoolId → Nat → Reserve

namespace Session

/-- Whether the packet in a slot has a segment of a number at one of some
places. -/
def hasAt (session : Session) (slot : Nat) (places : Nat → Bool)
    (id : PoolId) (number : Nat) : Bool :=
  match session.packets.get? slot with
  | none => false
  | some packet =>
      packet.chain.zipIdx.any fun (segment, place) =>
        places place && (segment.pool == id && segment.id == number)

end Session

namespace Reserves

/-- The reserves of new segments hold zeros. -/
def blank (pools : Pools) : Reserves := fun id _ =>
  ⟨List.replicate (pools.get id).layout.headerReserve 0,
    List.replicate (pools.get id).layout.trailerReserve 0⟩

/-- The reserves after a write to some places of the packet in a slot. -/
def put (reserves : Reserves) (session : Session) (slot : Nat)
    (places : Nat → Bool) (change : Reserve → Reserve) : Reserves :=
  fun id number =>
    if session.hasAt slot places id number then change (reserves id number)
    else reserves id number

/-- The reserves after a command. Only a link driver writes into them, and a
header that is put in front of a payload. -/
def next (reserves : Reserves) (session : Session) (command : Command)
    (reply : Reply) (_ : Session) : Reserves :=
  match command with
  | .writeZone slot zone only bytes =>
      match reply with
      | .counts _ =>
          reserves.put session slot (fun place => only.all (· == place))
            (Reserve.write zone bytes)
      | _ => reserves
  | .writeFragmentHeader slot =>
      match reply, session.stampFor? slot with
      | .headerZone _, some stamp =>
          reserves.put session slot (· == 0) (Reserve.stamp stamp)
      | _, _ => reserves
  | _ => reserves

/-- The reserves of all segments of a session hold what was recorded. -/
def Describes (reserves : Reserves) (session : Session) : Prop :=
  ∀ segment, session.Contains segment →
    segment.reserve = reserves segment.pool segment.id

end Reserves

namespace Session

variable {session after : Session} {slot : Nat} {packet : Packet}
variable {reserves : Reserves}

theorem hasAt_iff (found : session.packets.get? slot = some packet)
    {places : Nat → Bool} {id : PoolId} {number : Nat} :
    session.hasAt slot places id number = true ↔
      ∃ place segment, packet.chain[place]? = some segment ∧
        places place = true ∧ segment.pool = id ∧ segment.id = number := by
  simp only [hasAt, found, List.any_eq_true, Bool.and_eq_true, beq_iff_eq,
    Prod.exists, List.mem_zipIdx_iff_getElem?]
  constructor
  · rintro ⟨segment, place, isThere, holds⟩
    exact ⟨place, segment, isThere, holds⟩
  · rintro ⟨place, segment, isThere, holds⟩
    exact ⟨segment, place, isThere, holds⟩

variable {origin : Pools} {exchange : Exchange} {places : Nat → Bool}
variable {segment : Segment}

/-- A segment of a packet is found at its own place only. -/
theorem Owns.hasAt_eq (owns : session.Owns origin exchange [])
    (found : session.packets.get? slot = some packet) {place : Nat}
    (isThere : packet.chain[place]? = some segment) :
    session.hasAt slot places segment.pool segment.id = places place := by
  rw [Bool.eq_iff_iff, hasAt_iff found]
  constructor
  · rintro ⟨other, twin, isTwin, isVisited, samePool, sameId⟩
    have samePlace := owns.place_eq found isThere isTwin ⟨samePool, sameId⟩
    rw [← samePlace]
    exact isVisited
  · intro isVisited
    exact ⟨place, segment, isThere, isVisited, rfl, rfl⟩

theorem Owns.hasAt_outside (owns : session.Owns origin exchange [])
    (found : session.packets.get? slot = some packet)
    (isOutside : (session.vacated slot).Contains segment) :
    session.hasAt slot places segment.pool segment.id = false := by
  rw [Bool.eq_false_iff, ne_eq, hasAt_iff found]
  rintro ⟨place, inside, isThere, _, samePool, sameId⟩
  exact owns.apart found (List.mem_of_getElem? isThere) isOutside
    ⟨samePool.symm, sameId.symm⟩

/-- What is written to some segments of a packet is recorded for these and for
no others. -/
theorem Owns.describes_filed (owns : session.Owns origin exchange [])
    (found : session.packets.get? slot = some packet)
    (describes : reserves.Describes session) (places : Nat → Bool)
    {write : Segment → Segment} {change : Reserve → Reserve}
    (identity : ∀ segment, (write segment).identity = segment.identity)
    (follows : ∀ segment, (write segment).reserve = change segment.reserve) :
    (reserves.put session slot places change).Describes
      (session.filed slot (packet.rewrite places write)) := by
  intro segment contains
  rcases contains.of_filed with isOutside | inChain
  · rw [Reserves.put, owns.hasAt_outside found isOutside]
    exact describes segment isOutside.of_vacated
  · obtain ⟨place, isThere⟩ := List.mem_iff_getElem?.mp inChain
    rw [Packet.getElem?_rewrite] at isThere
    obtain ⟨source, wasThere, rfl⟩ := Option.map_eq_some_iff.mp isThere
    have described := describes source
      (contains_of_chain found (List.mem_of_getElem? wasThere))
    have hasSource : session.hasAt slot places source.pool source.id =
        places place := owns.hasAt_eq found wasThere
    by_cases isVisited : places place = true
    · have same := identity source
      simp only [Segment.identity, Prod.mk.injEq] at same
      rw [if_pos isVisited, same.1, same.2.1, Reserves.put, hasSource,
        if_pos isVisited, ← described, follows]
    · rw [if_neg isVisited, Reserves.put, hasSource, if_neg isVisited]
      exact described

theorem Reserves.next_of_unstamped {command : Command} {reply : Reply}
    (unstamped : command.stamps = false) :
    reserves.next session command reply after = reserves := by
  cases command with
  | writeZone _ _ _ _ => cases unstamped
  | writeFragmentHeader _ => cases unstamped
  | _ => rfl

variable {configs : List Config} {command : Command} {reply : Reply}

theorem Reserves.next_of_lent :
    reserves.next session command .lent after = reserves := by
  cases command with
  | _ => rfl

/-- The header of a fragment is recorded as a stamp on its first segment. -/
theorem Owns.describes_stamped (owns : session.Owns origin exchange [])
    (describes : reserves.Describes session)
    (effect : session.HeaderEffect slot reply after) :
    (reserves.next session (.writeFragmentHeader slot) reply
      after).Describes after := by
  cases effect with
  | idle silent =>
      simp only [Reserves.next]
      split
      · exact absurd rfl (silent _)
      · exact describes
  | @stamped packet first segment rest stamp found isStamp _ isChain
      writing =>
      have isRewrite : ({ packet with chain := segment :: rest } : Packet) =
          packet.rewrite (· == 0)
            fun segment => (segment.writeHeaderEnd? stamp).getD segment := by
        rw [Packet.rewrite, Packet.mk.injEq]
        refine ⟨List.ext_getElem? fun place => ?_, rfl, rfl, rfl, rfl, rfl⟩
        cases place with
        | zero => simp [isChain, writing]
        | succ place => simp [isChain]
      simp only [Reserves.next, isStamp]
      rw [isRewrite]
      apply owns.describes_filed found describes
      · intro segment
        cases writing : segment.writeHeaderEnd? stamp with
        | none => rfl
        | some after =>
            exact (Segment.stamped_of_writeHeaderEnd?
              writing).changes.identity_eq
      · exact fun segment => segment.reserve_writeHeaderEnd? stamp

/-- What is recorded of the reserves stays true from command to command. -/
theorem Reached.describes_next (reached : session.Reached configs)
    (describes : reserves.Describes session)
    (stepped : session.step command = .ok (reply, after)) :
    (reserves.next session command reply after).Describes after := by
  obtain ⟨rfl, rfl⟩ | carried := cases_of_step_ok stepped
  · rw [Reserves.next_of_lent]
    exact describes
  by_cases unstamped : command.stamps = false
  · rw [Reserves.next_of_unstamped unstamped]
    intro segment contains
    obtain ⟨origin, wasThere, moved⟩ :=
      (carryOut_moves unstamped).of_ok carried segment contains
    have described := describes origin wasThere
    have same := moved.inZone.identity_eq
    simp only [Segment.identity, Prod.mk.injEq] at same
    rw [Segment.reserve, moved.header_eq, moved.trailer_eq, same.1, same.2.1]
    exact described
  · cases command with
    | writeZone slot zone only bytes =>
        obtain ⟨_, rfl, rfl⟩ | ⟨packet, found, rfl, rfl⟩ :=
          (@writeZone_leaves session slot zone only bytes
            (fun _ => True)).of_ok carried
        · exact describes
        · exact reached.owns.describes_filed found describes _
            (fun segment =>
              (zone.write_changes segment bytes).identity_eq)
            (fun segment => segment.reserve_write zone bytes)
    | writeFragmentHeader slot =>
        exact reached.owns.describes_stamped describes
          (reached.writeFragmentHeader_leaves.of_ok carried)
    | _ => exact absurd rfl unstamped

/-! ## Layouts -/

/-- The reserves of new segments hold zeros. -/
theorem describes_start (configs : List Config) :
    (Reserves.blank (Pools.ofConfigs configs)).Describes
      (start (Pools.ofConfigs configs)) := by
  intro segment contains
  rcases contains with ⟨id, isFree⟩ | ⟨packet, isLive, _⟩
  · have zeros : ∀ start stop : Nat,
        Bytes.window [] start stop = List.replicate (stop - start) 0 := by
      simp [Bytes.window, Bytes.between, Bytes.padded]
    change segment ∈ ((Pools.ofConfigs configs).get id).free at isFree
    cases made : configs[id]?.bind (Pool.ofConfig? id) with
    | none =>
        rw [Pools.get_ofConfigs, made] at isFree
        cases isFree
    | some pool =>
        have isMade : (Pools.ofConfigs configs).get id = pool := by
          rw [Pools.get_ofConfigs, made]
          rfl
        obtain ⟨config, _, accepted⟩ := Option.bind_eq_some_iff.mp made
        obtain ⟨layout, rfl⟩ := Pool.exists_of_ofConfig? accepted
        rw [isMade] at isFree
        obtain ⟨number, _, rfl⟩ := List.mem_map.mp isFree
        have behind : layout.capacity - layout.payloadEnd =
            layout.trailerReserve := by
          have zones := layout.zones_fill
          rw [Layout.payloadEnd]
          omega
        simp only [Segment.reserve, Segment.header, Segment.trailer, zeros,
          behind, Reserves.blank, isMade]
        rfl
  · simp [start, live] at isLive

end Session

/-- A pool is made with the layout that its configuration was accepted
with. -/
theorem Pool.accepted_of_ofConfig? {id : PoolId} {config : Config}
    {pool : Pool} (made : ofConfig? id config = some pool) :
    config.validate = .accepted pool.layout := by
  simp only [ofConfig?] at made
  split at made
  · rename_i layout accepted
    simp only [create?] at made
    split at made
    · cases made
      exact accepted
    · cases made
  · cases made
  · cases made

namespace Session

variable {session : Session} {segment : Segment} {configs : List Config}

/-- All segments have the layout that the configuration of their pool was
accepted with. -/
theorem Reached.layout_accepted (reached : session.Reached configs)
    (contains : session.Contains segment) :
    ∃ config, configs[segment.pool]? = some config ∧
      config.validate = .accepted segment.layout := by
  have accounts := reached.owns.balanced.accounts segment.pool
  -- The segment is one of those that its pool was made with.
  obtain ⟨hasLayout, isCounted⟩ : segment.layout =
      ((Pools.ofConfigs configs).get segment.pool).layout ∧
      segment.id ∈ (session.pools.get segment.pool).free.map Segment.id ++
        Pool.numbersOf segment.pool
          (session.live.flatMap Packet.chain) := by
    rcases contains with ⟨id, isFree⟩ | ⟨packet, isLive, inChain⟩
    · have own := (reached.owns.balanced.accounts id).free_own segment isFree
      rw [← own] at isFree
      exact ⟨accounts.free_layout segment isFree,
        List.mem_append_left _ (List.mem_map_of_mem isFree)⟩
    · have isOut : segment ∈ session.live.flatMap Packet.chain :=
        List.mem_flatMap.mpr ⟨packet, isLive, inChain⟩
      exact ⟨accounts.out_layout segment isOut rfl,
        List.mem_append_right _
          (Pool.mem_numbersOf.mpr ⟨segment, isOut, rfl, rfl⟩)⟩
  have isNumber := accounts.complete.mem_iff.mp isCounted
  rw [Pools.get_ofConfigs] at isNumber hasLayout
  cases made : configs[segment.pool]?.bind
      (Pool.ofConfig? segment.pool) with
  | none =>
      rw [made] at isNumber
      simp [Pool.absent] at isNumber
  | some pool =>
      obtain ⟨config, isConfig, accepted⟩ := Option.bind_eq_some_iff.mp made
      rw [made] at hasLayout
      refine ⟨config, isConfig, ?_⟩
      rw [hasLayout]
      exact Pool.accepted_of_ofConfig? accepted

/-! ## What cannot stop -/

theorem Reached.walksInside (reached : session.Reached configs) :
    session.WalksInside := by
  obtain ⟨_, commands, _, ran⟩ := reached
  have begins : (start (Pools.ofConfigs configs)).WalksInside := by
    simp [WalksInside, start, walk?]
  have allowed : ∀ command ∈ commands, True := fun _ _ => trivial
  apply runAll_keeps ?_ begins allowed ran
  intro command session after reply _ inside stepped
  have within : ¬session.Exceeds command := by
    intro exceeds
    obtain ⟨stop, stopped, _⟩ := step_of_exceeds exceeds
    rw [stopped] at stepped
    cases stepped
  exact ((step_raises within inside).of_ok stepped).2

/-- A push whose deadline the clock cannot show. -/
def LacksDeadline (session : Session) (command : Command) : Prop :=
  ∃ index source now slot reassembler,
    command = .push index source now slot ∧
    session.reassemblers.get? index = some reassembler ∧
    reassembler.limits.timeout.after? now = none

/-- Without exchanges nothing but a deadline is ever out of range. -/
theorem Reached.stops_of_deadline (reached : session.Reached configs)
    {command : Command} (faithful : command.exchanges = false) {stop : Stop}
    (stopped : session.step command = .error stop) :
    session.LacksDeadline command := by
  have ends := (carryOut_satisfies reached.owns
    (by simp [faithful])).of_error (carryOut_of_step_error stopped)
  have exceeds : session.Exceeds command := by
    by_cases exceeds : session.Exceeds command
    · exact exceeds
    · have raises := (step_raises exceeds
        reached.walksInside).of_error stopped
      rcases ends with impossible | rfl
      · exact impossible.elim
      · exact raises.elim
  obtain ⟨_, exceeds⟩ := exceeds
  cases command with
  | slices slot offset len =>
      obtain ⟨packet, found, beyond⟩ := exceeds
      have sound : packet.Sound :=
        reached.owns.kept packet (mem_live_of_packet found)
      obtain ⟨pieces, slicing, _⟩ := sound.slices?_eq_some offset len
      rw [Packet.slices?_eq_none_iff.mpr beyond] at slicing
      cases slicing
  | writeFragmentHeader slot =>
      obtain ⟨packet, found, room, _, _, first, _, _, _, isChain,
        tooSmall⟩ := exceeds
      have inChain : first ∈ packet.chain :=
        isChain ▸ List.mem_cons_self ..
      have laidOut := Pools.Consistent.laidOut reached.owns
        (mem_live_of_packet found) (by decide) first inChain
      rw [laidOut] at tooSmall
      exact absurd room (Nat.not_le_of_lt tooSmall)
  | push index source now slot =>
      obtain ⟨reassembler, _, found, _, reading⟩ := exceeds
      exact ⟨index, source, now, slot, reassembler, rfl, found, reading⟩
  | _ => exact exceeds.elim

/-! ## Isolation -/

variable {slot : Nat} {command : Command}

/-- A write into a zone changes that zone only, in the segments that it
visits. A reserve is no part of any payload. -/
structure WritesOnly (session : Session) (slot : Nat) (zone : Packet.Zone)
    (only : Option Nat) (after : Session) : Prop where
  confined : (session.packets.get? slot = none ∧ after = session) ∨
    ∃ packet changed, session.packets.get? slot = some packet ∧
      after = session.filed slot changed ∧
      packet.Rewritten (fun place => only.all (· == place))
        (fun origin segment => origin.ChangesWithin (zone.start origin)
          (zone.start origin + zone.size origin) segment) changed
  payloads : zone ≠ .payload → session.SamePayloads after

/-- A header of twelve bytes replaces the last bytes of the header reserve of
the first segment, or nothing changes. -/
structure StampsOnly (session : Session) (slot : Nat) (reply : Reply)
    (after : Session) : Prop where
  confined : (after = session ∧ ∀ bytes, reply ≠ .headerZone bytes) ∨
    ∃ packet first segment rest stamp,
      session.packets.get? slot = some packet ∧
      packet.chain = first :: rest ∧
      session.stampFor? slot = some stamp ∧
      stamp.length = FragmentHeader.size ∧
      first.Stamped stamp segment ∧
      reply = .headerZone segment.header ∧
      after = session.filed slot { packet with chain := segment :: rest }
  payloads : session.SamePayloads after

/-- A command changes no byte of any segment but where it is to. -/
def Isolates (session : Session) (reply : Reply) (after : Session) :
    Command → Prop
  | .append .. => session.Turns Segment.Fills after
  | .writeZone slot zone only _ => session.WritesOnly slot zone only after
  | .writeFragmentHeader slot => session.StampsOnly slot reply after
  | command => session.Turns (Segment.Moved (session.MayFill command)) after

theorem writeZone_isolates {zone : Packet.Zone} {only : Option Nat}
    {bytes : Bytes} {stopped : Stop → Prop} :
    SessionStep.Satisfies (carryOut (.writeZone slot zone only bytes))
      session (fun _ after => session.WritesOnly slot zone only after)
      stopped := by
  apply writeZone_leaves.monoDone
  rintro _ _ (⟨absent, rfl, _⟩ | ⟨packet, found, rfl, _⟩)
  · exact ⟨Or.inl ⟨absent, rfl⟩, fun _ => .refl _⟩
  · refine ⟨Or.inr ⟨packet, _, found, rfl, ?_⟩, fun reserve => ?_⟩
    · exact packet.rewritten_rewrite _
        fun segment => zone.write_changes segment bytes
    · exact samePayloads_filed found
        (packet.toBytes_writeZone reserve only bytes)

theorem HeaderEffect.isolates {reply : Reply} {after : Session}
    (effect : session.HeaderEffect slot reply after) :
    session.StampsOnly slot reply after := by
  cases effect with
  | idle silent => exact ⟨Or.inl ⟨rfl, silent⟩, .refl _⟩
  | @stamped packet first segment rest stamp found isStamp size isChain
      writing =>
      refine ⟨Or.inr ⟨packet, first, segment, rest, stamp, found, isChain,
        isStamp, size, Segment.stamped_of_writeHeaderEnd? writing, rfl, rfl⟩,
        samePayloads_filed found ?_⟩
      apply Packet.chainBytes_eq_of_payload
      rw [isChain, List.map_cons, List.map_cons,
        Segment.payload_writeHeaderEnd? writing]

/-- A command that is refused because something is lent changes nothing. -/
theorem Reached.isolates (reached : session.Reached configs)
    (faithful : command.exchanges = false) :
    SessionStep.Satisfies (fun session => session.step command) session
      (fun reply after => (reply = .lent ∧ after = session) ∨
        session.Isolates reply after command)
      (fun _ => session.LacksDeadline command) := by
  have carried : SessionStep.Satisfies (carryOut command) session
      (fun reply after => session.Isolates reply after command)
      (fun _ => True) := by
    by_cases unstamped : command.stamps = false
    · cases command with
      | append slot bytes => exact append_fills
      | writeZone slot zone only bytes => cases unstamped
      | writeFragmentHeader slot => cases unstamped
      | _ => exact carryOut_moves unstamped
    · cases command with
      | writeZone slot zone only bytes => exact writeZone_isolates
      | writeFragmentHeader slot =>
          exact reached.writeFragmentHeader_leaves.mono
            (fun _ _ effect => effect.isolates) (fun _ _ => trivial)
      | _ => exact absurd rfl unstamped
  unfold SessionStep.Satisfies
  split
  · rename_i stepped
    exact (cases_of_step_ok stepped).imp_right carried.of_ok
  · rename_i stopped
    exact reached.stops_of_deadline faithful stopped

/-- Carries out commands and records what is written into the reserves. -/
def runRecording (session : Session) (reserves : Reserves) :
    List Command → Except Stop (Session × Reserves) :=
  session.runBeside Reserves.next reserves

/-- However segments were filled, spliced, given back and handed out in a run
without exchanges, every one of them consists of three zones as the accepted
layout says, and its reserves hold what a link driver or the header of a
fragment wrote there last, or zeros. No further command changes a byte outside
of the zone that it is to write to, and none stops because of a zone: payload
goes right behind the payload that is there, a write into a zone stays within
it, a header takes the last twelve bytes of the first header reserve, and where
segments are only moved all their bytes stay. -/
theorem zones_isolated {commands : List Command}
    (few : configs.length ≤ UInt32.size)
    (faithful : ∀ command ∈ commands, command.exchanges = false)
    (ran : (start (Pools.ofConfigs configs)).runAll commands =
      .ok session) :
    (∀ segment, session.Contains segment → segment.Zoned ∧
      ∃ config, configs[segment.pool]? = some config ∧
        config.validate = .accepted segment.layout) ∧
    (∃ reserves, (start (Pools.ofConfigs configs)).runRecording
        (Reserves.blank (Pools.ofConfigs configs)) commands =
          .ok (session, reserves) ∧ reserves.Describes session) ∧
    (∀ (segment : Segment) (bytes : Bytes),
      segment.Fills (segment.append bytes)) ∧
    ∀ command, command.exchanges = false →
      SessionStep.Satisfies (fun session => session.step command) session
        (fun reply after => (reply = .lent ∧ after = session) ∨
          session.Isolates reply after command)
        (fun _ => session.LacksDeadline command) := by
  have reached : session.Reached configs := ⟨few, commands, faithful, ran⟩
  refine ⟨fun segment contains =>
    ⟨segment.zoned, reached.layout_accepted contains⟩, ?_,
    Segment.fills_append, fun command => reached.isolates⟩
  obtain ⟨reserves, recorded⟩ := exists_runBeside Reserves.next
    (Reserves.blank (Pools.ofConfigs configs)) ran
  let agree (reserves : Reserves) (session : Session) : Prop :=
    session.Reached configs ∧ reserves.Describes session
  have keeps : ∀ {command : Command} {session after : Session}
      {reply : Reply} {reserves : Reserves}, command.exchanges = false →
      agree reserves session → session.step command = .ok (reply, after) →
        agree (reserves.next session command reply after) after :=
    fun isFaithful before stepped =>
      ⟨before.1.step isFaithful stepped,
        before.1.describes_next before.2 stepped⟩
  have begins : agree (Reserves.blank (Pools.ofConfigs configs))
      (start (Pools.ofConfigs configs)) :=
    ⟨⟨few, [], by simp, rfl⟩, describes_start configs⟩
  refine ⟨reserves, recorded, ?_⟩
  obtain ⟨⟨_, describes⟩, _⟩ :=
    runBeside_keeps_allowed keeps begins faithful recorded
  exact describes

/-- A segment that was written to, given back and handed out again. -/
theorem zones_isolated_of_reuse :
    let config : Config :=
      { segmentCapacity := 18, segmentCount := 1, headerReserve := 12,
        trailerReserve := 2 }
    let commands : List Command :=
      [.newPool, .receive 0 (.made ⟨7, 0, true⟩ [1, 2, 3]) 0,
        .writeFragmentHeader 0, .writeZone 0 .trailer none [8, 9], .drop 0,
        .allocate 0 1 5]
    ∃ (session after : Session) (segment : Segment) (reserves : Reserves)
      (reply : Reply),
      (start (Pools.ofConfigs [config])).runAll commands = .ok session ∧
      session.Contains segment ∧ segment.Zoned ∧
      segment.reserve =
        ⟨[7, 0, 0, 0, 0, 0, 0, 0, 1, 0, 0, 0], [8, 9]⟩ ∧
      (start (Pools.ofConfigs [config])).runRecording
        (Reserves.blank (Pools.ofConfigs [config])) commands =
          .ok (session, reserves) ∧
      segment.reserve = reserves 0 0 ∧
      session.step (.append 5 [4]) = .ok (reply, after) ∧
      session.Turns Segment.Fills after := by
  intro config commands
  have plays : (do
      let session ←
        ((start (Pools.ofConfigs [config])).runAll commands).toOption
      let next ← (session.step (.append 5 [4])).toOption
      let packet ← session.packets.get? 5
      let segment ← packet.chain.head?
      pure (segment.reserve, segment.pool, segment.id,
        next.1 matches .lent)) =
      some (⟨[7, 0, 0, 0, 0, 0, 0, 0, 1, 0, 0, 0], [8, 9]⟩, 0, 0,
        false) := by
    decide +kernel
  obtain ⟨session, ran, plays⟩ := Option.bind_eq_some_iff.mp plays
  obtain ⟨⟨reply, after⟩, stepped, plays⟩ := Option.bind_eq_some_iff.mp plays
  obtain ⟨packet, found, plays⟩ := Option.bind_eq_some_iff.mp plays
  obtain ⟨segment, isFirst, plays⟩ := Option.bind_eq_some_iff.mp plays
  rw [toOption_eq_some_iff] at ran stepped
  simp only [Option.pure_def, Option.some.injEq, Prod.mk.injEq] at plays
  obtain ⟨isWritten, isOfPool, isNumber, isFree⟩ := plays
  have contains : session.Contains segment :=
    contains_of_chain found (List.mem_of_mem_head? isFirst)
  obtain ⟨zoned, ⟨reserves, recorded, describes⟩, _, isolates⟩ :=
    zones_isolated (by decide) (by decide) ran
  have described := describes segment contains
  rw [isOfPool, isNumber] at described
  have fills : session.Turns Segment.Fills after := by
    obtain ⟨rfl, _⟩ | fills := (isolates (.append 5 [4]) rfl).of_ok stepped
    · cases isFree
    · exact fills
  exact ⟨session, after, segment, reserves, reply, ran, contains,
    (zoned segment contains).1, isWritten, recorded, described, stepped,
    fills⟩

end Session

end PooledPackets
