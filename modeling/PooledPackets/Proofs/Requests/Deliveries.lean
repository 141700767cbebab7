import PooledPackets.Proofs.Contents.Openings
import PooledPackets.Proofs.Load.Links
import PooledPackets.Proofs.Requests.Pieces

/-!
# Frames and copies

A fragment can be brought into another pool as a frame, which is its header
and its payload in one string of bytes, or as a copy, which is filled chunk by
chunk. Wherever the header can be written, both come to the same.
-/

namespace PooledPackets

open Operation

/-! ## New packets -/

/-- Where all pieces are taken nothing is dropped on the way. -/
theorem Packet.appendAll_folds (inHand : Packet → List Packet) :
    ∀ (pieces : List Bytes) (packet : Packet) {pools : Pools},
      (packet.appendAll inHand pieces pools).Satisfies
        (fun longer after =>
          pieces.foldlM Packet.append packet pools = .done longer after)
        (fun _ _ => True) (fun _ => True)
  | [], _, _ => rfl
  | bytes :: rest, packet, pools => by
      have first := (@Outcome.Satisfies.exactly _
        (packet.append bytes pools)).mono (fun _ _ isDone => isDone)
          (fun _ _ _ => trivial) (fun _ _ => trivial)
      apply Outcome.Satisfies.bind ((first.holding fun _ _ _ =>
        trivial).onFailure fun _ _ _ => Outcome.Satisfies.trivially)
      intro longer between isLonger
      apply (Packet.appendAll_folds inHand rest longer).monoDone
      intro longest after folded
      rw [List.foldlM_cons, bind_of_done isLonger]
      exact folded

namespace Pools.Consistent

variable {pools origin : Pools} {others : List Packet} {blank : Packet}

/-- Pieces for which there is room are taken as if they were one. -/
theorem appendAll_eq_append
    (consistent : pools.Consistent origin .never (blank :: others))
    (held : blank.chain ≠ []) {pieces : List Bytes}
    (fits : pieces.flatten.length ≤ blank.available) :
    blank.appendAll (fun filled => [filled]) pieces pools =
      blank.append pieces.flatten pools := by
  obtain ⟨packet, after, all, _, _, _, rfl⟩ :=
    (consistent.appendAll_fits held fits).exists_done
  have folded := (Packet.appendAll_folds _ pieces blank).of_done all
  have alike := consistent.append_pieces pieces held
  rw [folded] at alike
  obtain ⟨last, atOnce, _⟩ := alike.of_done rfl
  have unchanged := (blank.append_fits fits).of_done atOnce
  rw [all, atOnce, unchanged.2]

/-- A new packet is filled the same way however its payload is cut. -/
theorem allocateWith_eq
    (consistent : pools.Consistent origin .never others) (id : PoolId)
    {len : Nat} {pieces : List Bytes} (fits : pieces.flatten.length ≤ len) :
    Pool.allocateWith id len pieces pools =
      Pool.allocateWith id len [pieces.flatten] pools := by
  have contract := consistent.allocate_satisfies id len
  unfold Pool.allocateWith
  cases allocated : Pool.allocate id len pools with
  | failed error after =>
      rw [bind_of_failed allocated, bind_of_failed allocated]
  | stopped stop =>
      rw [allocated] at contract
      exact contract.elim
  | done blank after =>
      obtain ⟨consistentBlank, isBlank⟩ := contract.of_done allocated
      have holds := (pools.get id).layout.le_segmentsFor_mul len
      have room : pieces.flatten.length ≤ blank.available := by
        rw [isBlank.room]
        exact Nat.le_trans fits holds
      rw [bind_of_done allocated, bind_of_done allocated,
        consistentBlank.appendAll_eq_append isBlank.held room,
        consistentBlank.appendAll_eq_append isBlank.held (by
          rw [List.flatten_singleton]
          exact room),
        List.flatten_singleton]

/-! ## Fragments that arrive -/

variable {fragment : Packet} {tag : FragmentTag}

/-- A frame with the header of a fragment and its payload is received as the
fragment is copied. -/
theorem receiveFrame_eq_copyPacket
    (consistent : pools.Consistent origin .never others) (id : PoolId)
    (sound : fragment.Sound) (tagged : fragment.tag = some tag)
    (held : fragment.chain ≠ [])
    (small : tag.offset ≤ FragmentTag.maxOffset) :
    Pool.receiveFrame id
        ((Load.Link.headerOf tag).encode (pools.get id).config.byteOrder ++
          fragment.toBytes) pools =
      Pool.copyPacket id fragment pools := by
  have notReleased : ¬fragment.isReleased = true := by
    simpa [Packet.isReleased] using held
  have sameFilled : Pool.packetFrom id fragment.toBytes pools =
      Pool.allocateWith id fragment.length fragment.chunks pools := by
    have flat := fragment.flatten_chunks
    have fits : fragment.chunks.flatten.length ≤ fragment.length := by
      rw [flat, sound.length_toBytes]
    rw [consistent.allocateWith_eq id fits, flat, Pool.packetFrom,
      sound.length_toBytes]
  have isHeader := (Load.Link.headerOf tag).decode_encode
    (pools.get id).config.byteOrder (pools.get id).config.byteOrder
    fragment.toBytes
  have isPayload : ((Load.Link.headerOf tag).encode
      (pools.get id).config.byteOrder ++ fragment.toBytes).drop
        FragmentHeader.size = fragment.toBytes :=
    List.drop_left' (FragmentHeader.length_encode _ _)
  rw [FragmentHeader.reread_self] at isHeader
  rw [Pool.receiveFrame_of_decoded isHeader, isPayload,
    Load.Link.toTag_headerOf small, bind_of_same sameFilled, ← tagged,
    Pool.copyPacket, if_neg notReleased]

end Pools.Consistent

namespace Session

variable {configs : List Config} {session : Session}
variable {packet stamped : Packet} {tag : FragmentTag}

theorem withPacket_of_found {slot : Nat}
    {next : Packet → SessionStep Reply}
    (found : session.packets.get? slot = some packet) :
    withPacket slot next session = next packet session := by
  have looks : ∀ {inspect : Session → SessionStep Reply},
      (get >>= inspect) session = inspect session session := rfl
  rw [withPacket, looks, found]

/-- An operation that is refused changes no packet. -/
theorem updateResult_of_failed {slot : Nat} {operation : Operation Packet}
    {reply : Packet → Reply} {error : BufferError} {after : Pools}
    (refused : operation session.pools = .failed error after) :
    updateResult slot operation reply session =
      .ok (.refused error, session.withPools after) := by
  have performed : perform operation session =
      .ok (.error error, session.withPools after) := by
    rw [perform, refused]
    rfl
  change Except.bind (perform operation session) _ = _
  rw [performed]
  rfl

/-- What an operation makes of a packet takes its place. -/
theorem updateResult_of_done {slot : Nat} {operation : Operation Packet}
    {reply : Packet → Reply} {changed : Packet} {after : Pools}
    (isDone : operation session.pools = .done changed after) :
    updateResult slot operation reply session =
      .ok (reply changed, { session.withPools after with
        packets := session.packets.insert slot changed }) := by
  have performed : perform operation session =
      .ok (.ok changed, session.withPools after) := by
    rw [perform, isDone]
    rfl
  change Except.bind (perform operation session) _ = _
  rw [performed]
  rfl

/-- A session sees nothing of an operation but how it ended. -/
theorem keepResult_of_same {slot : Nat} {operation other : Operation Packet}
    (same : operation session.pools = other session.pools) :
    keepResult slot operation session = keepResult slot other session := by
  have performed : perform operation session = perform other session := by
    rw [perform, perform, same]
  change Except.bind (perform operation session) _ =
    Except.bind (perform other session) _
  rw [performed]

theorem withPool_of_same (id : PoolId) {next other : SessionStep Reply}
    (same : next session = other session) :
    withPool id next session = withPool id other session := by
  change (if session.hasPool id then next else pure .noSuchPool :
      SessionStep Reply) session =
    (if session.hasPool id then other else pure .noSuchPool :
      SessionStep Reply) session
  split
  · exact same
  · rfl

/-- Received as a frame, a fragment comes to the same in a session as copied:
the same packet or the same refusal, and the same pools. -/
structure ArrivesAlike (session : Session) (id : PoolId) (fragment : Packet)
    (frame : Bytes) : Prop where
  received_eq : Pool.receiveFrame id frame session.pools =
    Pool.copyPacket id fragment session.pools
  ends : ∀ stop, Pool.copyPacket id fragment session.pools ≠ .stopped stop
  step_eq : ∀ source slot, session.packets.get? source = some fragment →
    session.step (.receive id (.raw frame) slot) =
      session.step (.copy id source slot)

theorem Reached.arrivesAlike (reached : session.Reached configs)
    (sound : packet.Sound) (tagged : packet.tag = some tag)
    (held : packet.chain ≠ []) (small : tag.offset ≤ FragmentTag.maxOffset)
    (id : PoolId) :
    session.ArrivesAlike id packet
      ((Load.Link.headerOf tag).encode (session.pools.get id).config.byteOrder
        ++ packet.toBytes) := by
  have consistent := reached.owns
  have same := Pools.Consistent.receiveFrame_eq_copyPacket consistent id
    sound tagged held small
  refine ⟨same, ?_, ?_⟩
  · intro stop isStopped
    have contract := Pools.Consistent.copyPacket_satisfies consistent id packet
    rw [isStopped] at contract
    exact contract
  · intro source slot found
    have copied : withPacket source (fun packet =>
        keepResult slot (Pool.copyPacket id packet)) session =
          keepResult slot (Pool.copyPacket id packet) session :=
      withPacket_of_found found
    have received : keepResult slot _ session =
        keepResult slot (Pool.copyPacket id packet) session :=
      keepResult_of_same same
    have alike := withPool_of_same id (received.trans copied.symm)
    -- Both commands file a packet in the one slot, so both find it lent or
    -- neither does.
    change (if session.lends (.copy id source slot) then _ else _) =
      if session.lends (.copy id source slot) then _ else _
    split
    · rfl
    · exact alike

/-- Ahead of the payload of a fragment its header is written, unless the pool
reserves less than its size or its offset is too large: then nothing changes.
Once it is written, the last bytes of the first header reserve and the chunks
of the fragment are a frame, and in every session, whatever was done to it, a
pool that reads headers in the same byte order receives that frame as it copies
the fragment. -/
theorem Reached.deliveries_agree (reached : session.Reached configs)
    (isLive : packet ∈ session.live) (tagged : packet.tag = some tag) :
    match Packet.headerRefusal? (session.pools.get packet.pool) tag with
    | some error =>
        packet.writeFragmentHeader session.pools =
          .failed error session.pools ∧
        ∀ slot, session.packets.get? slot = some packet →
          session.lends (.writeFragmentHeader slot) = false →
            session.step (.writeFragmentHeader slot) =
              .ok (.refused error, session)
    | none => ∃ first rest,
        let stamped := { packet with chain := first :: rest }
        let frame :=
          first.header.drop (first.header.length - FragmentHeader.size) ++
            stamped.chunks.flatten
        packet.writeFragmentHeader session.pools =
          .done stamped session.pools ∧
        (∀ slot, session.packets.get? slot = some packet →
          session.lends (.writeFragmentHeader slot) = false →
            session.step (.writeFragmentHeader slot) =
              .ok (.headerZone first.header, { session with
                packets := session.packets.insert slot stamped })) ∧
        stamped.toBytes = packet.toBytes ∧ stamped.tag = packet.tag ∧
        Load.frameOf stamped = frame ∧
        ∀ (configs : List Config) (other : Session), other.Reached configs →
          ∀ id, (other.pools.get id).config.byteOrder =
              (session.pools.get packet.pool).config.byteOrder →
            other.ArrivesAlike id packet frame ∧
            other.ArrivesAlike id stamped frame := by
  have held := reached.solid packet isLive tag tagged
  have consistent := reached.consistent isLive
  have sound : packet.Sound := consistent.kept packet (List.mem_cons_self ..)
  have decided := consistent.writeFragmentHeader_exactly tagged held
  cases refusal : Packet.headerRefusal? (session.pools.get packet.pool)
      tag with
  | some error =>
      rw [refusal] at decided
      refine ⟨decided, fun slot found isFree => ?_⟩
      rw [step_of_free isFree]
      exact (withPacket_of_found found).trans (updateResult_of_failed decided)
  | none =>
      rw [refusal] at decided
      obtain ⟨header, first, rest, stamped, isHeader, isChain, writing,
        written⟩ := decided
      have small := (Packet.headerRefusal?_eq_none_iff.mp refusal).2
      cases (Load.Link.toHeader_eq small).symm.trans isHeader
      obtain ⟨samePayload, sameTag, _⟩ :=
        packet.writeFragmentHeader_keeps.of_done written
      have isFrame := Load.frameOf_stamped isChain writing
      have soundStamped : ({ packet with chain := stamped :: rest } :
          Packet).Sound :=
        (consistent.writeFragmentHeader_satisfies.of_done written).kept _
          (List.mem_cons_self ..)
      have spelled : Load.frameOf { packet with chain := stamped :: rest } =
          stamped.header.drop (stamped.header.length - FragmentHeader.size) ++
            ({ packet with chain := stamped :: rest } :
              Packet).chunks.flatten := by
        rw [Packet.flatten_chunks]
        rfl
      refine ⟨stamped, rest, written, fun slot found isFree => ?_,
        samePayload, sameTag, spelled,
        fun configs other isReached id sameOrder => ?_⟩
      · rw [step_of_free isFree]
        exact (withPacket_of_found found).trans (updateResult_of_done written)
      · rw [← spelled, isFrame, ← sameOrder]
        refine ⟨isReached.arrivesAlike sound tagged held small id, ?_⟩
        rw [← samePayload]
        exact isReached.arrivesAlike soundStamped tagged
          (List.cons_ne_nil stamped rest) small id

/-- Five bytes in two segments of the sender, received in three segments. -/
theorem deliveries_agree_of_five :
    let sender : Config :=
      { segmentCapacity := 16, segmentCount := 2, headerReserve := 13 }
    let receiver : Config :=
      { segmentCapacity := 2, segmentCount := 4, headerReserve := 0 }
    ∃ (session : Session) (packet arrival : Packet) (first : Segment)
      (rest : List Segment) (frame : Bytes) (after : Pools),
      session.Reached [sender, receiver] ∧ packet ∈ session.live ∧
      packet.tag = some ⟨7, 9, true⟩ ∧
      packet.writeFragmentHeader session.pools =
        .done { packet with chain := first :: rest } session.pools ∧
      first.header.drop (first.header.length - FragmentHeader.size) ++
        ({ packet with chain := first :: rest } : Packet).chunks.flatten =
          frame ∧
      Pool.receiveFrame 1 frame session.pools = .done arrival after ∧
      arrival.tag = some ⟨7, 9, true⟩ ∧
      arrival.chain.map Segment.payload = [[1, 2], [3, 4], [5]] := by
  intro sender receiver
  have plays : (do
      let session ← ((start (Pools.ofConfigs [sender, receiver])).runAll
        [.newPool, .newPool,
          .receive 0 (.made ⟨7, 9, true⟩ [1, 2, 3, 4, 5]) 0]).toOption
      let packet ← session.packets.get? 0
      let arrival ← (Pool.copyPacket 1 packet session.pools).done?
      pure (decide (packet ∈ session.live ∧ packet.tag = some ⟨7, 9, true⟩ ∧
        Packet.headerRefusal? (session.pools.get packet.pool) ⟨7, 9, true⟩ =
          none ∧
        (session.pools.get 1).config.byteOrder =
          (session.pools.get packet.pool).config.byteOrder ∧
        arrival.1.tag = some ⟨7, 9, true⟩ ∧
        arrival.1.chain.map Segment.payload = [[1, 2], [3, 4], [5]]))) =
      some true := by
    decide +kernel
  obtain ⟨session, ran, plays⟩ := Option.bind_eq_some_iff.mp plays
  obtain ⟨packet, _, plays⟩ := Option.bind_eq_some_iff.mp plays
  obtain ⟨⟨arrival, after⟩, copied, plays⟩ := Option.bind_eq_some_iff.mp plays
  rw [toOption_eq_some_iff] at ran
  rw [Outcome.done?_eq_some_iff] at copied
  obtain ⟨isLive, tagged, noRefusal, sameOrder, arrived, filled⟩ :=
    of_decide_eq_true (Option.some.inj plays)
  have reached : session.Reached [sender, receiver] :=
    ⟨by decide, _, by decide, ran⟩
  have agree := reached.deliveries_agree isLive tagged
  rw [noRefusal] at agree
  obtain ⟨first, rest, written, _, _, _, _, alike⟩ := agree
  have received := (alike _ session reached 1 sameOrder).1.received_eq
  exact ⟨session, packet, arrival, first, rest, _, after, reached, isLive,
    tagged, written, rfl, received.trans copied, arrived, filled⟩

end Session

end PooledPackets
