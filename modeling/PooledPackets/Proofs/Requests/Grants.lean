import PooledPackets.Proofs.Fragments.Headers
import PooledPackets.Proofs.Ownership.Costs
import PooledPackets.Proofs.Requests.Exact
import PooledPackets.Proofs.Sessions.Accounts

/-!
# All or nothing

A request for segments is granted as a whole or not at all. What is granted is
the smallest number of segments that does; a request that is refused has taken
nothing, and nothing shows of it but one event on the counters of the pool.
-/

namespace PooledPackets

open Operation

/-! ## What decides a request -/

/-- The pool can make a packet with room for so many bytes. -/
def Pool.Affords (pool : Pool) (len : Nat) : Prop :=
  (pool.config.chaining = true ∨ len ≤ pool.layout.maxPayload) ∧
    pool.layout.segmentsFor len ≤ pool.freeCount

theorem Pool.shortage?_eq_none_iff {pool : Pool} {len : Nat} :
    pool.shortage? pool.freeCount len = none ↔ pool.Affords len := by
  have single : 1 < pool.layout.segmentsFor len ↔
      ¬(len ≤ pool.layout.maxPayload) := by
    rw [← Nat.not_le, Layout.segmentsFor_le_iff, Nat.one_mul]
    simp
  simp only [shortage?, Affords, single]
  cases pool.config.chaining with
  | true => simp
  | false =>
      by_cases fits : len ≤ pool.layout.maxPayload
      · simp [fits]
      · simp [fits]

theorem Packet.spares_missing_iff {packet : Packet} {pool : Pool}
    {count : Nat} :
    pool.Spares (packet.missing pool.layout count) ↔
      count ≤ packet.available ∨ pool.config.chaining = true ∧
        packet.missing pool.layout count ≤ pool.freeCount := by
  rw [Pool.Spares, missing_eq_zero_iff]

/-! ## Whole requests -/

/-- A request to a pool that is granted as a whole exactly if a condition
holds, and refused otherwise. If it is granted, the first so many segments of
the queue, and no others, are behind those that the packet had; if it is
refused, nothing but a counter of the pool is different. -/
structure Outcome.AllOrNothing (outcome : Outcome Packet) (pools : Pools)
    (id : PoolId) (chain : List Segment) (needed : Nat)
    (condition : Prop) : Prop where
  granted_iff : (∃ packet after, outcome = .done packet after) ↔ condition
  chain_eq : ∀ packet after, outcome = .done packet after →
    packet.chain.map Segment.identity =
      (chain ++ (pools.get id).free.take needed).map Segment.identity
  enough : ∀ packet after, outcome = .done packet after →
    needed ≤ (pools.get id).freeCount
  free_eq : ∀ packet after, outcome = .done packet after →
    ∀ other, (after.get other).free =
      if other = id then (pools.get id).free.drop needed
      else (pools.get other).free
  refused : ∀ error after, outcome = .failed error after →
    pools.Refused id error after
  goesOn : ∀ stop, outcome ≠ .stopped stop

theorem Outcome.AllOrNothing.of_satisfies {outcome : Outcome Packet}
    {pools : Pools} {id : PoolId} {chain : List Segment} {needed : Nat}
    {condition : Prop}
    (contract : outcome.Satisfies
      (fun packet after => condition ∧
        needed ≤ (pools.get id).freeCount ∧
        packet.chain.map Segment.identity =
          (chain ++ (pools.get id).free.take needed).map Segment.identity ∧
        ∀ other, (after.get other).free =
          if other = id then (pools.get id).free.drop needed
          else (pools.get other).free)
      (fun error after => ¬condition ∧ pools.Refused id error after)
      (fun _ => False)) :
    outcome.AllOrNothing pools id chain needed condition where
  granted_iff := by
    cases outcome with
    | done packet after => exact ⟨fun _ => contract.1, fun _ => ⟨_, _, rfl⟩⟩
    | failed error after =>
        refine ⟨fun given => ?_, fun given => absurd given contract.1⟩
        obtain ⟨_, _, impossible⟩ := given
        cases impossible
    | stopped stop => exact contract.elim
  chain_eq := fun _ _ isDone => (contract.of_done isDone).2.2.1
  enough := fun _ _ isDone => (contract.of_done isDone).2.1
  free_eq := fun _ _ isDone => (contract.of_done isDone).2.2.2
  refused := fun _ _ isFailed => (contract.of_failed isFailed).2
  goesOn := by
    rintro stop rfl
    exact contract

/-- One part of a request decides it. Where the part is refused, so is the
whole, with the same error; where the part is done, so is the whole, with a
packet of the same segments. Either way the pools are left as the part left
them. -/
inductive Outcome.Decides : Outcome Packet → Outcome Packet → Prop
  | granted {part whole : Packet} {after : Pools}
      (sameSegments : whole.chain.map Segment.identity =
        part.chain.map Segment.identity) :
      Decides (.done part after) (.done whole after)
  | refused {error : BufferError} {after : Pools} :
      Decides (.failed error after) (.failed error after)

/-- A tag is put on the packet when all is decided. -/
theorem Outcome.Decides.withTag {part : Outcome Packet}
    {operation : Operation Packet} {pools : Pools}
    (decides : part.Decides (operation pools)) (tag : Option FragmentTag) :
    part.Decides
      ((operation >>= fun packet => pure (packet.withTag tag)) pools) := by
  generalize ending : operation pools = outcome at decides
  cases decides with
  | granted sameSegments =>
      rw [bind_of_done ending]
      exact .granted sameSegments
  | refused =>
      rw [bind_of_failed ending]
      exact .refused

/-- A frame that is too short for a header takes nothing. -/
theorem Pool.receiveFrame_of_short {pools : Pools} (id : PoolId)
    {frame : Bytes} (short : frame.length < FragmentHeader.size) :
    receiveFrame id frame pools =
      .failed (.truncated frame.length FragmentHeader.size) pools := by
  change (ofExcept (FragmentHeader.decode _ frame) >>= _) pools = _
  rw [FragmentHeader.decode_of_short _ short]
  rfl

namespace Pools.Consistent

variable {pools origin : Pools} {others : List Packet} {packet : Packet}

theorem allocate_allOrNothing
    (consistent : pools.Consistent origin .never others) (id : PoolId)
    (len : Nat) :
    (Pool.allocate id len pools).AllOrNothing pools id []
      ((pools.get id).layout.segmentsFor len)
      ((pools.get id).Affords len) := by
  have contract := (consistent.allocate_satisfies id len).and
    (Pool.allocate_exactly id len pools)
  apply Outcome.AllOrNothing.of_satisfies
  apply contract.mono ?_ ?_ (fun _ impossible => impossible)
  · rintro packet after ⟨_, affordable, rfl, provided⟩
    refine ⟨Pool.shortage?_eq_none_iff.mp affordable,
      (pools.get id).le_freeCount_of_affordable affordable, rfl, ?_⟩
    exact fun other => provided.free_apply other
  · rintro error after ⟨_, isShort, refused⟩
    refine ⟨fun affords => ?_, refused⟩
    rw [Pool.shortage?_eq_none_iff.mpr affords] at isShort
    cases isShort

theorem append_allOrNothing
    (consistent : pools.Consistent origin .never (packet :: others))
    (held : packet.chain ≠ []) (bytes : Bytes) :
    (packet.append bytes pools).AllOrNothing pools packet.pool packet.chain
      (packet.missing (pools.get packet.pool).layout bytes.length)
      (bytes.length ≤ packet.available ∨
        (pools.get packet.pool).config.chaining = true ∧
          packet.missing (pools.get packet.pool).layout bytes.length ≤
            (pools.get packet.pool).freeCount) := by
  rw [← Packet.spares_missing_iff, ← Packet.shortage?_eq_none_iff]
  apply Outcome.AllOrNothing.of_satisfies
  apply (consistent.append_exactly held bytes).mono ?_ ?_
    (fun _ impossible => impossible)
  · rintro longer after ⟨_, _, affordable, writing, lent⟩
    have spared := Packet.shortage?_eq_none_iff.mp affordable
    refine ⟨affordable, spared.le_freeCount, (Packet.write_keeps writing).1,
      ?_⟩
    exact fun other => lent.free_apply other
  · rintro error after ⟨isShort, refused⟩
    refine ⟨fun affordable => ?_, refused⟩
    rw [affordable] at isShort
    cases isShort

/-- A packet for pieces that fit is decided by its first part. -/
theorem allocate_decides
    (consistent : pools.Consistent origin .never others) (id : PoolId)
    {len : Nat} {pieces : List Bytes} (fits : pieces.flatten.length ≤ len) :
    (Pool.allocate id len pools).Decides
      (Pool.allocateWith id len pieces pools) := by
  have contract := consistent.allocate_satisfies id len
  cases ending : Pool.allocate id len pools with
  | stopped stop =>
      rw [ending] at contract
      exact contract.elim
  | failed error after =>
      rw [Pool.allocateWith, bind_of_failed ending]
      exact .refused
  | done blank after =>
      rw [ending] at contract
      obtain ⟨consistentBlank, isBlank⟩ := contract
      have holds := (pools.get id).layout.le_segmentsFor_mul len
      rw [← isBlank.room] at holds
      obtain ⟨packet, last, filling, _, _, sameSegments, rfl⟩ :=
        (consistentBlank.appendAll_fits isBlank.held
          (Nat.le_trans fits holds)).exists_done
      rw [Pool.allocateWith, bind_of_done ending, filling]
      exact .granted sameSegments

theorem packetFrom_decided
    (consistent : pools.Consistent origin .never others) (id : PoolId)
    (bytes : Bytes) :
    (Pool.allocate id bytes.length pools).Decides
      (Pool.packetFrom id bytes pools) := by
  apply consistent.allocate_decides
  simp

theorem copyPacket_decided
    (consistent : pools.Consistent origin .never others)
    (sound : packet.Sound) (held : packet.isReleased = false)
    (id : PoolId) :
    (Pool.allocate id packet.length pools).Decides
      (Pool.copyPacket id packet pools) := by
  rw [Pool.copyPacket, held]
  apply Outcome.Decides.withTag
  apply consistent.allocate_decides
  rw [packet.flatten_chunks, sound.length_toBytes]

theorem receiveFrame_decided
    (consistent : pools.Consistent origin .never others) (id : PoolId)
    {frame : Bytes} (long : FragmentHeader.size ≤ frame.length) :
    (Pool.allocate id (frame.length - FragmentHeader.size) pools).Decides
      (Pool.receiveFrame id frame pools) := by
  obtain ⟨header, decoded⟩ := FragmentHeader.exists_decode
    (pools.get id).config.byteOrder long
  rw [Pool.receiveFrame_of_decoded decoded, ← List.length_drop]
  exact (consistent.packetFrom_decided id _).withTag _

end Pools.Consistent

/-! ## Growing -/

/-- A packet that takes more bytes than it has room for has afterwards as many
segments as if all bytes had been asked for at the start. -/
theorem Layout.segmentsFor_grow (layout : Layout) {len length room : Nat}
    (more : Nat)
    (full : length + room =
      layout.segmentsFor (max len length) * layout.maxPayload) :
    layout.segmentsFor (max len length) +
        portions (more - room) layout.maxPayload =
      layout.segmentsFor (max len (length + more)) := by
  have asked := layout.le_segmentsFor_mul (max len length)
  have covers := @le_portions_mul (more - room) _ layout.maxPayload_pos
  have enough := layout.le_segmentsFor_mul (max len (length + more))
  have positive := layout.segmentsFor_pos (max len (length + more))
  apply Nat.le_antisymm
  · have before : layout.segmentsFor (max len length) ≤
        layout.segmentsFor (max len (length + more)) := by
      rw [segmentsFor_le_iff]
      omega
    have rest : portions (more - room) layout.maxPayload ≤
        layout.segmentsFor (max len (length + more)) -
          layout.segmentsFor (max len length) := by
      rw [portions_le_iff layout.maxPayload_pos, Nat.sub_mul]
      omega
    omega
  · have positiveBefore := layout.segmentsFor_pos (max len length)
    rw [segmentsFor_le_iff, Nat.add_mul]
    omega

/-- A packet that a pool has made with room for so many bytes, and to which
bytes have been appended since, each time in the pools of some session that can
be reached. -/
inductive Packet.GrownFrom (configs : List Config) (id : PoolId)
    (len : Nat) : Packet → Prop
  | made {session : Session} {packet : Packet} {after : Pools}
      (reached : session.Reached configs)
      (allocated : Pool.allocate id len session.pools =
        .done packet after) :
      GrownFrom configs id len packet
  | appended {session : Session} {packet longer : Packet} {bytes : Bytes}
      {after : Pools} (before : GrownFrom configs id len packet)
      (reached : session.Reached configs) (isLive : packet ∈ session.live)
      (appending : packet.append bytes session.pools = .done longer after) :
      GrownFrom configs id len longer

/-- A packet has the segments for what was asked for and for what it holds, and
no others; and all that it does not hold it has room for. -/
structure Packet.Fitted (packet : Packet) (id : PoolId) (layout : Layout)
    (len : Nat) : Prop where
  pool_eq : packet.pool = id
  held : packet.chain ≠ []
  size_eq : packet.chain.length =
    layout.segmentsFor (max len packet.length)
  room_eq : packet.length + packet.available =
    packet.chain.length * layout.maxPayload

namespace Pools.Consistent

variable {pools origin after : Pools} {others : List Packet}
variable {packet longer : Packet} {id : PoolId} {len : Nat}

theorem allocate_fitted
    (consistent : pools.Consistent origin .never others)
    (allocated : Pool.allocate id len pools = .done packet after) :
    packet.Fitted id (pools.get id).layout len := by
  obtain ⟨⟨consistentPacket, isBlank⟩, affordable, isMade, _⟩ :=
    ((consistent.allocate_satisfies id len).and
      (Pool.allocate_exactly id len pools)).of_done allocated
  have enough := (pools.get id).le_freeCount_of_affordable affordable
  have sound : packet.Sound :=
    consistentPacket.kept packet (List.mem_cons_self ..)
  have empty := sound.length_toBytes
  rw [isBlank.blank, List.length_nil] at empty
  have size : packet.chain.length = (pools.get id).layout.segmentsFor len := by
    rw [isMade]
    exact List.length_take_of_le enough
  refine ⟨isBlank.pool_eq, isBlank.held, ?_, ?_⟩
  · rw [← empty, Nat.max_zero, size]
  · rw [← empty, isBlank.room, size, Nat.zero_add]

theorem append_fitted
    (consistent : pools.Consistent origin .never (packet :: others))
    (fitted : packet.Fitted id (pools.get id).layout len) {bytes : Bytes}
    (appending : packet.append bytes pools = .done longer after) :
    longer.Fitted id (pools.get id).layout len := by
  obtain ⟨_, grown, affordable, writing, _⟩ :=
    (consistent.append_exactly fitted.held bytes).of_done appending
  have spared := Packet.shortage?_eq_none_iff.mp affordable
  have taken := List.length_take_of_le spared.le_freeCount
  have left := consistent.available_append fitted.held spared writing
  obtain ⟨sameIdentity, _, _⟩ := Packet.write_keeps writing
  have size := congrArg List.length sameIdentity
  rw [List.length_map, List.length_map, Packet.extend, List.length_append,
    taken] at size
  rw [fitted.pool_eq] at size left
  obtain ⟨_, _, _, _, isLonger⟩ := Packet.write_eq_ok_iff.mp writing
  have longerLength : longer.length = packet.length + bytes.length := by
    rw [isLonger]
    rfl
  have full := fitted.room_eq
  rw [fitted.size_eq] at full
  have grows := (pools.get id).layout.segmentsFor_grow bytes.length full
  refine ⟨grown.pool_eq.trans fitted.pool_eq, grown.held fitted.held, ?_, ?_⟩
  · rw [size, fitted.size_eq, longerLength, ← grows]
    rfl
  · have before := fitted.room_eq
    rw [size, longerLength, Nat.add_mul]
    omega

end Pools.Consistent

theorem Packet.GrownFrom.fitted {configs : List Config} {id : PoolId}
    {len : Nat} {packet : Packet} (grown : packet.GrownFrom configs id len) :
    packet.Fitted id ((Pools.ofConfigs configs).get id).layout len := by
  induction grown with
  | @made session packet after reached allocated =>
      rw [← reached.layout_eq]
      exact reached.owns.allocate_fitted allocated
  | @appended session packet longer bytes after before reached isLive
      appending fitted =>
      rw [← reached.layout_eq] at fitted ⊢
      exact (reached.consistent isLive).append_fitted fitted appending

/-! ## Refusals -/

/-- A refusal that no counter counts has left nothing behind. -/
theorem Pools.Refused.unchanged {pools : Pools} {id : PoolId}
    {error : BufferError}
    (uncounted : ∀ counters, error.counted counters = counters) :
    pools.Refused id error pools :=
  Pools.ChangesOnly.refl (congrArg (fun counters =>
    { pools.get id with counters }) (uncounted _))

/-- If a request is refused, nothing but a counter of a pool is different. -/
def Outcome.RefusesCleanly (outcome : Outcome Packet) (pools : Pools)
    (id : PoolId) : Prop :=
  outcome.Satisfies (fun _ _ => True)
    (fun error after => pools.Refused id error after) (fun _ => True)

theorem Pool.allocate_refusesCleanly (id : PoolId) (len : Nat)
    (pools : Pools) : (allocate id len pools).RefusesCleanly pools id :=
  (allocate_exactly id len pools).mono (fun _ _ _ => trivial)
    (fun _ _ known => known.2) (fun _ _ => trivial)

theorem Outcome.Decides.refusesCleanly {part whole : Outcome Packet}
    {pools : Pools} {id : PoolId} (decides : part.Decides whole)
    (clean : part.RefusesCleanly pools id) :
    whole.RefusesCleanly pools id := by
  cases decides with
  | granted _ => trivial
  | refused => exact clean

namespace Pools.Consistent

variable {pools origin : Pools} {others : List Packet} {packet : Packet}

theorem append_refusesCleanly
    (consistent : pools.Consistent origin .never (packet :: others))
    (bytes : Bytes) :
    (packet.append bytes pools).RefusesCleanly pools packet.pool := by
  by_cases released : packet.isReleased = true
  · rw [Packet.append, if_pos released]
    exact Pools.Refused.unchanged fun _ => rfl
  · have held : packet.chain ≠ [] := by
      simpa [Packet.isReleased] using released
    exact (consistent.append_exactly held bytes).mono (fun _ _ _ => trivial)
      (fun _ _ known => known.2) (fun _ _ => trivial)

theorem copyPacket_refusesCleanly
    (consistent : pools.Consistent origin .never others)
    (sound : packet.Sound) (id : PoolId) :
    (Pool.copyPacket id packet pools).RefusesCleanly pools id := by
  by_cases released : packet.isReleased = true
  · rw [Pool.copyPacket, if_pos released]
    exact Pools.Refused.unchanged fun _ => rfl
  · exact (consistent.copyPacket_decided sound (eq_false_of_ne_true released)
      id).refusesCleanly (Pool.allocate_refusesCleanly id _ pools)

theorem receiveFrame_refusesCleanly
    (consistent : pools.Consistent origin .never others) (id : PoolId)
    (frame : Bytes) :
    (Pool.receiveFrame id frame pools).RefusesCleanly pools id := by
  by_cases long : FragmentHeader.size ≤ frame.length
  · exact (consistent.receiveFrame_decided id long).refusesCleanly
      (Pool.allocate_refusesCleanly id _ pools)
  · rw [Pool.receiveFrame_of_short id (Nat.lt_of_not_le long)]
    exact Pools.Refused.unchanged fun _ => rfl

end Pools.Consistent

/-! ## Commands -/

/-- Whether a command asks a pool for the segments of a packet. -/
def Command.requests : Command → Bool
  | .allocate .. | .packetFrom .. | .append .. | .copy .. | .receive .. =>
      true
  | _ => false

namespace Session

/-- The session after a request that was refused: nothing but a counter of a
pool is different. -/
def RefusedWith (session : Session) (error : BufferError) (after : Session) :
    Prop :=
  ∃ id pools, after = session.withPools pools ∧
    session.pools.Refused id error pools

/-- A step that answers with a refusal has left the session as it was. -/
def RefusesCleanly (session : Session) (step : SessionStep Reply) : Prop :=
  SessionStep.Satisfies step session
    (fun reply after => ∀ error, reply = .refused error →
      session.RefusedWith error after)
    (fun _ => True)

variable {configs : List Config} {session : Session} {slot : Nat}

theorem perform_refusesCleanly (reached : session.Reached configs)
    {operation : Operation Packet} {id : PoolId}
    (clean : (operation session.pools).RefusesCleanly session.pools id)
    {next : Packet → SessionStep Reply}
    (answers : ∀ packet after, SessionStep.Satisfies (next packet) after
      (fun reply _ => ∀ error, reply ≠ .refused error) (fun _ => True)) :
    session.RefusesCleanly (do
      match ← perform operation with
      | .error error => pure (.refused error)
      | .ok packet => next packet) := by
  apply SessionStep.Satisfies.bind (perform_ends clean fun stop _ =>
    breakOff_ends reached.owns.keptSources (fun _ => trivial) trivial)
  rintro result _ ⟨pools, rfl, known⟩
  cases result with
  | error error =>
      intro other same
      cases same
      exact ⟨id, pools, rfl, known⟩
  | ok packet =>
      apply (answers packet _).monoDone
      exact fun reply _ differs error same => absurd same (differs error)

theorem withPool_refusesCleanly {id : PoolId} {next : SessionStep Reply}
    (clean : session.RefusesCleanly next) :
    session.RefusesCleanly (withPool id next) :=
  SessionStep.Satisfies.get (SessionStep.Satisfies.ite (fun _ => clean)
    fun _ => SessionStep.Satisfies.pure fun _ impossible => by
      cases impossible)

theorem withPacket_refusesCleanly {next : Packet → SessionStep Reply}
    (clean : ∀ packet, session.packets.get? slot = some packet →
      session.RefusesCleanly (next packet)) :
    session.RefusesCleanly (withPacket slot next) := by
  apply SessionStep.Satisfies.get
  cases found : session.packets.get? slot with
  | none =>
      intro error impossible
      cases impossible
  | some packet => exact clean packet found

/-- A step that files a packet and answers with it does not refuse anything. -/
theorem answers_packet {α : Type} (step : SessionStep α) {packet : Packet}
    {after : Session} :
    SessionStep.Satisfies (step >>= fun _ => pure (Reply.packet packet))
      after (fun reply _ => ∀ error, reply ≠ .refused error)
      (fun _ => True) := by
  apply SessionStep.Satisfies.bind
    (@SessionStep.Satisfies.trivially _ step _)
  intro _ _ _ error impossible
  cases impossible

theorem keepResult_refusesCleanly (reached : session.Reached configs)
    {operation : Operation Packet} {id : PoolId}
    (clean : (operation session.pools).RefusesCleanly session.pools id) :
    session.RefusesCleanly (keepResult slot operation) :=
  perform_refusesCleanly reached clean fun packet _ =>
    answers_packet (keep slot packet)

theorem carryOut_refusesCleanly (reached : session.Reached configs)
    {command : Command} (requests : command.requests = true) :
    session.RefusesCleanly (carryOut command) := by
  cases command with
  | allocate pool len slot =>
      exact withPool_refusesCleanly (keepResult_refusesCleanly reached
        (Pool.allocate_refusesCleanly pool len session.pools))
  | packetFrom pool bytes slot =>
      exact withPool_refusesCleanly (keepResult_refusesCleanly reached
        ((reached.owns.packetFrom_decided pool bytes).refusesCleanly
          (Pool.allocate_refusesCleanly pool _ session.pools)))
  | append slot bytes =>
      apply withPacket_refusesCleanly
      intro packet found
      have consistent := reached.owns.perm (live_perm_of_packet found)
      apply perform_refusesCleanly reached
        (consistent.append_refusesCleanly bytes)
      exact fun longer _ => answers_packet (update slot longer)
  | copy pool source slot =>
      apply withPool_refusesCleanly
      apply withPacket_refusesCleanly
      intro packet found
      have sound : packet.Sound := (reached.owns.perm
        (live_perm_of_packet found)).kept packet (List.mem_cons_self ..)
      exact keepResult_refusesCleanly reached
        (reached.owns.copyPacket_refusesCleanly sound pool)
  | receive pool frame slot =>
      apply withPool_refusesCleanly
      exact keepResult_refusesCleanly reached
        (reached.owns.receiveFrame_refusesCleanly pool _)
  | _ => cases requests

theorem step_refusesCleanly (reached : session.Reached configs)
    {command : Command} (requests : command.requests = true) :
    session.RefusesCleanly fun session => session.step command :=
  step_satisfies (fun _ error impossible => by cases impossible)
    (fun _ => carryOut_refusesCleanly reached requests)

/-- Whatever asks the pools of a session for segments gets the smallest number
that does, or nothing. To make a packet and to append to one are such requests;
to make a packet of given bytes, to copy one and to receive one come to what
making an empty packet of that length comes to. A command that is answered with
a refusal has left everything as it was but one counter. -/
structure GrantsWhole (session : Session) : Prop where
  allocate : ∀ id len,
    (Pool.allocate id len session.pools).AllOrNothing session.pools id []
      ((session.pools.get id).layout.segmentsFor len)
      ((session.pools.get id).Affords len)
  append : ∀ packet ∈ session.live, packet.isReleased = false → ∀ bytes,
    (packet.append bytes session.pools).AllOrNothing session.pools
      packet.pool packet.chain
      (packet.missing (session.pools.get packet.pool).layout bytes.length)
      (bytes.length ≤ packet.available ∨
        (session.pools.get packet.pool).config.chaining = true ∧
          packet.missing (session.pools.get packet.pool).layout
            bytes.length ≤ (session.pools.get packet.pool).freeCount)
  packetFrom : ∀ id bytes,
    (Pool.allocate id bytes.length session.pools).Decides
      (Pool.packetFrom id bytes session.pools)
  copyPacket : ∀ id, ∀ packet ∈ session.live, packet.isReleased = false →
    (Pool.allocate id packet.length session.pools).Decides
      (Pool.copyPacket id packet session.pools)
  copyReleased : ∀ id packet, packet.isReleased = true →
    Pool.copyPacket id packet session.pools =
      .failed .released session.pools
  receiveFrame : ∀ id frame, FragmentHeader.size ≤ frame.length →
    (Pool.allocate id (frame.length - FragmentHeader.size)
      session.pools).Decides (Pool.receiveFrame id frame session.pools)
  receiveShort : ∀ id frame, frame.length < FragmentHeader.size →
    Pool.receiveFrame id frame session.pools =
      .failed (.truncated frame.length FragmentHeader.size) session.pools
  refused : ∀ command error after, command.requests = true →
    session.step command = .ok (.refused error, after) →
      session.RefusedWith error after

/-- Without an exchange all requests are granted whole or not at all, and a
packet that was made with room for some bytes and has grown since has as many
segments as the larger of both lengths calls for. -/
theorem Reached.grantsWhole (reached : session.Reached configs) :
    session.GrantsWhole ∧
      ∀ id len packet, Packet.GrownFrom configs id len packet →
        packet.chain.length =
          (session.pools.get id).layout.segmentsFor
            (max len packet.length) := by
  constructor
  · refine {
      allocate := reached.owns.allocate_allOrNothing
      append := fun packet isLive held bytes => ?_
      packetFrom := reached.owns.packetFrom_decided
      copyPacket := fun id packet isLive held =>
        reached.owns.copyPacket_decided (reached.owns.kept packet isLive)
          held id
      copyReleased := fun id packet released => ?_
      receiveFrame := fun id frame long =>
        reached.owns.receiveFrame_decided id long
      receiveShort := fun id frame short =>
        Pool.receiveFrame_of_short id short
      refused := fun command error after requests stepped => ?_ }
    · apply (reached.consistent isLive).append_allOrNothing
      simpa [Packet.isReleased] using held
    · rw [Pool.copyPacket, if_pos released]
      rfl
    · exact (step_refusesCleanly reached requests).of_ok stepped error rfl
  · intro id len packet grown
    rw [reached.layout_eq]
    exact grown.fitted.size_eq

/-- A packet with room for five bytes that takes nine, in segments of four: it
has three of them in the end, and before that there was only one left, so that
no packet with room for eight bytes could be made. -/
theorem grantsWhole_of_nine :
    let config : Config :=
      { segmentCapacity := 4, segmentCount := 3, headerReserve := 0 }
    let bytes : Bytes := [1, 2, 3, 4, 5, 6, 7, 8, 9]
    ∃ (session : Session) (packet longer : Packet) (after : Pools),
      session.Reached [config] ∧ packet ∈ session.live ∧
      packet.GrownFrom [config] 0 5 ∧
      (¬∃ other made, Pool.allocate 0 8 session.pools = .done other made) ∧
      packet.append bytes session.pools = .done longer after ∧
      (after.get 0).free = (session.pools.get 0).free.drop 1 ∧
      longer.chain.length = 3 := by
  intro config bytes
  have plays : (do
      let session ← ((start (Pools.ofConfigs [config])).runAll
        [.newPool, .allocate 0 5 0]).toOption
      let made ← (Pool.allocate 0 5 (start (Pools.ofConfigs
        [config])).pools).done?
      let longer ← (made.1.append bytes session.pools).done?
      pure (decide (made.1 ∈ session.live ∧ made.1.isReleased = false ∧
        made.1.pool = 0 ∧ longer.1.length = 9 ∧
        made.1.missing (session.pools.get 0).layout 9 = 1 ∧
        (session.pools.get 0).layout.segmentsFor 9 = 3 ∧
        ¬((session.pools.get 0).layout.segmentsFor 8 ≤
          (session.pools.get 0).freeCount)))) = some true := by
    decide +kernel
  obtain ⟨session, ran, plays⟩ := Option.bind_eq_some_iff.mp plays
  obtain ⟨⟨packet, made⟩, allocated, plays⟩ :=
    Option.bind_eq_some_iff.mp plays
  obtain ⟨⟨longer, after⟩, appended, plays⟩ :=
    Option.bind_eq_some_iff.mp plays
  rw [toOption_eq_some_iff] at ran
  rw [Outcome.done?_eq_some_iff] at allocated appended
  obtain ⟨isLive, held, inPool, length, missing, segments, tooMuch⟩ :=
    of_decide_eq_true (Option.some.inj plays)
  have reached : session.Reached [config] := ⟨by decide, _, by decide, ran⟩
  have fromStart : (start (Pools.ofConfigs [config])).Reached [config] :=
    ⟨by decide, [], by decide, rfl⟩
  have grown : packet.GrownFrom [config] 0 5 := .made fromStart allocated
  obtain ⟨grants, sizes⟩ := reached.grantsWhole
  have free := (grants.append packet isLive held bytes).free_eq longer after
    appended 0
  dsimp only at inPool length missing
  rw [inPool, if_pos rfl, show bytes.length = 9 from rfl, missing] at free
  have size := sizes 0 5 longer (.appended grown reached isLive appended)
  rw [length, show max 5 9 = 9 from rfl, segments] at size
  refine ⟨session, packet, longer, after, reached, isLive, grown, ?_,
    appended, free, size⟩
  intro isMade
  exact tooMuch ((grants.allocate 0 8).granted_iff.mp isMade).2

/-- Where two pools were given the same number, a smaller segment of one gets
onto the free list of the other. Then there is a packet with room for sixteen
bytes to be had of this pool, but none that holds them. -/
example :
    let large : Config :=
      { segmentCapacity := 8, segmentCount := 2, headerReserve := 0 }
    let small : Config :=
      { segmentCapacity := 4, segmentCount := 1, headerReserve := 0 }
    let pools : Pools := { Pools.ofConfigs [large, small] with
      numbers := (Table.empty.insert 0 0).insert 1 0 }
    let commands : List Command :=
      [.newPool, .newPool, .packetFrom 0 [9] 0, .newReassembler 0 0 [],
        .receive 1 (.made ⟨7, 0, false⟩ [1]) 1, .push 0 1 0 1, .drop 1]
    ((start pools).runAll commands).toOption.map (fun session =>
      ((Pool.allocate 0 16 session.pools).done?.isSome,
        (Pool.packetFrom 0 (.replicate 16 1) session.pools).done?.isSome)) =
      some (true, false) := by
  decide +kernel

end Session

end PooledPackets
