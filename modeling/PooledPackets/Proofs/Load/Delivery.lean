import PooledPackets.Proofs.Load.Sending

/-!
# What has arrived

Where tags cross the link unharmed, the packets that have arrived are the pieces
of the payload. They are put together again unless they are behind too many
gaps on their way or too large for the one segment that they may get.
-/

namespace PooledPackets

/-! ## Pieces in one segment -/

/-- Why a segment of so many bytes does not take pieces one after the other,
with `total` bytes in it already. -/
def Extent.overrun? (limit : Nat) :
    (total : Nat) → List Extent → Option BufferError
  | _, [] => none
  | total, extent :: rest =>
      if limit < total + extent.length then
        some (.oversizedPacket (total + extent.length) limit)
      else overrun? limit (total + extent.length) rest

namespace Packet

/-- The payload of a packet is one chunk, and what is not written of so many
bytes is available. -/
structure Compact (packet : Packet) (limit : Nat) : Prop where
  sound : packet.Sound
  held : packet.chain ≠ []
  room : packet.available + packet.length = limit
  chunks_eq : packet.chunks =
    [packet.toBytes].filter (fun bytes => !bytes.isEmpty)

variable {packet : Packet} {packets : List Packet} {limit total : Nat}

theorem compact_of_single {segment : Segment} (sound : packet.Sound)
    (single : packet.chain = [segment])
    (room : segment.layout.maxPayload ≤ packet.available + packet.length) :
    packet.Compact segment.layout.maxPayload where
  sound := sound
  held := by simp [single]
  room := by
    have inside := sound.inside (by simp [single])
    rw [single, List.length_singleton, Nat.lt_one_iff] at inside
    have counted := sound.length_eq
    rw [chainLength_eq_sum, single] at counted
    have left := packet.available_eq_sum
    rw [single, inside] at left
    have fits := segment.length_le
    simp only [List.drop_zero, List.map_cons, List.map_nil, List.sum_cons,
      List.sum_nil, Segment.remaining] at left counted
    omega
  chunks_eq := by simp [chunks, toBytes, chainBytes, single]

theorem Compact.gauge_eq (compact : packet.Compact limit) :
    packet.gauge = ⟨false, packet.length, limit - packet.length⟩ := by
  have room := compact.room
  have left : packet.available = limit - packet.length := by omega
  simp [gauge, isReleased, compact.held, left]

/-- Whether the chunks behind a packet fit can be told from the extents. -/
theorem firstRefusal?_eq (compact : ∀ packet ∈ packets, packet.Compact limit)
    (fits : total ≤ limit) :
    (⟨false, total, limit - total⟩ : Gauge).firstRefusal? limit
        (packets.flatMap chunks) =
      Extent.overrun? limit total (packets.map extent) := by
  induction packets generalizing total with
  | nil => rfl
  | cons first rest inductionHypothesis =>
      have isCompact := compact first (List.mem_cons_self ..)
      have later := fun total =>
        @inductionHypothesis total
          fun packet member => compact packet (.tail _ member)
      have counted := isCompact.sound.length_toBytes
      have length : first.extent.length = first.length := rfl
      rw [List.flatMap_cons, isCompact.chunks_eq, List.map_cons,
        Extent.overrun?, length]
      by_cases empty : first.toBytes = []
      · rw [empty, List.length_nil] at counted
        rw [empty, ← counted, Nat.add_zero, if_neg (Nat.not_lt_of_le fits)]
        exact later total fits
      · have isChunk : [first.toBytes].filter (fun bytes => !bytes.isEmpty) =
            [first.toBytes] := by
          simp [empty]
        rw [isChunk, List.singleton_append, Gauge.firstRefusal?]
        by_cases exceeds : limit < total + first.length
        · have refused : (⟨false, total, limit - total⟩ : Gauge).refusal?
              limit first.toBytes.length =
                some (.oversizedPacket (total + first.length) limit) := by
            have tooMany : ¬(first.toBytes.length ≤ limit - total) := by
              omega
            rw [Gauge.refusal?, if_neg (by simp), if_neg tooMany, counted]
          rw [refused, if_pos exceeds]
        · have taken : (⟨false, total, limit - total⟩ : Gauge).refusal?
              limit first.toBytes.length = none := by
            have inside : first.toBytes.length ≤ limit - total := by
              omega
            rw [Gauge.refusal?, if_neg (by simp), if_pos inside]
          have filled : (⟨false, total, limit - total⟩ : Gauge).filled
              first.toBytes.length =
                ⟨false, total + first.length,
                  limit - (total + first.length)⟩ := by
            simp only [Gauge.filled, counted, Nat.sub_sub]
          rw [taken, filled, if_neg exceeds]
          exact later (total + first.length) (Nat.le_of_not_lt exceeds)

end Packet

/-- Whether compact packets of one pool are put together can be told from the
extents. -/
theorem Reassembly.refusal?_eq_overrun? {limit : Nat} {packets : List Packet}
    (compact : ∀ packet ∈ packets, packet.Compact limit) :
    Reassembly.refusal? false limit packets =
      Extent.overrun? limit 0 (packets.map Packet.extent) := by
  cases packets with
  | nil => rfl
  | cons first rest =>
      have isCompact := compact first (List.mem_cons_self ..)
      have fits : first.length ≤ limit := by
        rw [← isCompact.room]
        exact Nat.le_add_left ..
      have length : first.extent.length = first.length := rfl
      rw [Reassembly.refusal?, if_neg (by simp), isCompact.gauge_eq,
        Packet.firstRefusal?_eq
          (fun packet member => compact packet (.tail _ member)) fits,
        List.map_cons, Extent.overrun?, length, Nat.zero_add,
        if_neg (Nat.not_lt_of_le fits)]

namespace Load

namespace Link

variable {link : Link} {origin : Pools}

/-- What is known of a fragment that has got across. -/
structure Passes (link : Link) (origin : Pools) (extent : Extent) :
    Prop where
  inHeader : link.frames = true → extent.start ≤ FragmentTag.maxOffset
  single : (origin.get link.receiver).config.chaining = false →
    (origin.get link.receiver).layout.segmentsFor extent.length ≤ 1

theorem passes_of_barrier? {free : Nat} {extent : Extent}
    (clear : link.barrier? origin free extent = none) :
    link.Passes origin extent := by
  unfold barrier? at clear
  split at clear
  · cases clear
  · rename_i inside
    constructor
    · intro frames
      exact Nat.le_of_not_lt fun outside => inside ⟨frames, outside⟩
    · intro unchained
      refine Nat.le_of_not_lt fun several => ?_
      have tooLarge : (origin.get link.receiver).shortage? free
          extent.length = some (.oversizedPacket extent.length
            (origin.get link.receiver).layout.maxPayload) :=
        if_pos ⟨several, unchained⟩
      cases tooLarge.symm.trans clear

theorem passes_of_obstacle? {here : Nat} :
    ∀ {there : Nat} {extents : List Extent},
      link.obstacle? origin here there extents = none →
        ∀ extent ∈ extents, link.Passes origin extent
  | _, [], _ => by simp
  | _, first :: rest, clear => by
      rw [obstacle?, Option.or_eq_none_iff, Option.or_eq_none_iff] at clear
      obtain ⟨⟨_, isClear⟩, clearLater⟩ := clear
      intro extent member
      rcases List.mem_cons.mp member with rfl | later
      · exact passes_of_barrier? isClear
      · exact passes_of_obstacle? clearLater extent later

/-- The number that a datagram has once it has crossed. -/
def numbered (link : Link) (origin : Pools) (datagram : UInt32) : UInt32 :=
  if link.frames then
    (origin.get link.sender).config.byteOrder.reread
      (origin.get link.receiver).config.byteOrder datagram
  else datagram

/-- Both ends read headers alike, if there are any. -/
def Faithful (link : Link) (origin : Pools) : Prop :=
  link.frames = true → (origin.get link.sender).config.byteOrder =
    (origin.get link.receiver).config.byteOrder

theorem datagram_carried (link : Link) (origin : Pools)
    (tag : FragmentTag) :
    (link.carried origin tag).datagram =
      link.numbered origin tag.datagram := by
  unfold carried numbered
  split <;> rfl

/-- But for the number of its datagram a tag crosses unharmed, where both ends
read headers alike; a tag for the start of a datagram always does. -/
theorem carried_eq {tag : FragmentTag}
    (inHeader : link.frames = true → tag.offset ≤ FragmentTag.maxOffset)
    (keeps : link.Faithful origin ∨ tag.offset = 0) :
    link.carried origin tag =
      { tag with datagram := link.numbered origin tag.datagram } := by
  unfold carried numbered
  by_cases frames : link.frames = true
  · rw [if_pos frames, if_pos frames]
    rcases keeps with faithful | atStart
    · rw [faithful frames, FragmentHeader.reread_self,
        toTag_headerOf (inHeader frames), ByteOrder.reread_self]
    · simp [atStart, headerOf, FragmentHeader.toTag, FragmentHeader.reread]
  · rw [if_neg frames, if_neg frames]

/-- What the pieces of a payload have in common once they have crossed. -/
def division (link : Link) (origin : Pools) (whole : Bytes)
    (datagram : UInt32) : Division where
  whole := whole
  datagram := link.numbered origin datagram
  maker := link.receiver
  room := (origin.get link.receiver).layout.maxPayload

namespace Carries

variable {whole : Bytes} {datagram : UInt32} {extent : Extent}
variable {arrival : Packet}

theorem tag_eq
    (carries : link.Carries origin whole datagram extent arrival) :
    ∃ tag, arrival.tag = some tag ∧
      tag.datagram = link.numbered origin datagram :=
  ⟨_, Arrives.tag_eq carries, link.datagram_carried origin _⟩

theorem held (carries : link.Carries origin whole datagram extent arrival) :
    arrival.chain ≠ [] :=
  carries.made.filled.held

theorem toBytes_eq
    (carries : link.Carries origin whole datagram extent arrival) :
    arrival.toBytes =
      whole.between extent.start (extent.start + extent.length) :=
  carries.made.filled.spelled

theorem length_eq
    (carries : link.Carries origin whole datagram extent arrival)
    (sound : arrival.Sound)
    (within : extent.start + extent.length ≤ whole.length) :
    arrival.length = extent.length := by
  rw [← sound.length_toBytes, carries.toBytes_eq,
    Bytes.length_between within, Nat.add_sub_cancel_left]

/-- A packet that was put into one segment holds nothing else. -/
theorem compact (carries : link.Carries origin whole datagram extent arrival)
    (sound : arrival.Sound)
    (laidOut : ∀ segment ∈ arrival.chain,
      segment.layout = (origin.get link.receiver).layout)
    (within : extent.start + extent.length ≤ whole.length)
    (single : (origin.get link.receiver).layout.segmentsFor
      extent.length ≤ 1) :
    arrival.Compact (origin.get link.receiver).layout.maxPayload := by
  have some := (origin.get link.receiver).layout.segmentsFor_pos
    extent.length
  have one : (origin.get link.receiver).layout.segmentsFor
      extent.length = 1 := by
    omega
  have size := carries.size_eq within
  have room := carries.room within
  rw [one] at size room
  obtain ⟨segment, isChain⟩ := List.length_eq_one_iff.mp size
  have isLaidOut := laidOut segment (by
    rw [isChain]
    exact List.mem_singleton_self _)
  rw [← carries.length_eq sound within, Nat.one_mul, ← isLaidOut] at room
  rw [← isLaidOut]
  exact Packet.compact_of_single sound isChain room

/-- A packet whose tag has crossed unharmed is a piece. -/
theorem isPiece (carries : link.Carries origin whole datagram extent arrival)
    (sound : arrival.Sound)
    (within : extent.start + extent.length ≤ whole.length)
    (passes : link.Passes origin extent)
    (keeps : link.Faithful origin ∨ extent.start = 0) :
    (link.division origin whole datagram).IsPiece extent.start arrival where
  tag_eq := by
    rw [Arrives.tag_eq carries, carried_eq passes.inHeader keeps,
      carries.length_eq sound within]
    rfl
  within := by
    rw [carries.length_eq sound within]
    exact within
  spelled := by
    rw [carries.length_eq sound within]
    exact carries.toBytes_eq
  pool_eq := carries.pool_eq
  held := carries.held
  room_le := by
    have some := (origin.get link.receiver).layout.segmentsFor_pos
      extent.length
    rw [carries.length_eq sound within]
    exact Nat.le_trans (Nat.le_mul_of_pos_left _ some) (carries.room within)

theorem extent_eq
    (carries : link.Carries origin whole datagram extent arrival)
    (sound : arrival.Sound)
    (within : extent.start + extent.length ≤ whole.length)
    (passes : link.Passes origin extent)
    (keeps : link.Faithful origin ∨ extent.start = 0) :
    arrival.extent = extent := by
  rw [Packet.extent, carries.length_eq sound within,
    (carries.isPiece sound within passes keeps).start_eq]

end Carries

/-- Whatever has arrived is a part of the payload. -/
theorem exists_of_carried {whole : Bytes} {datagram : UInt32}
    {extents : List Extent} {arrivals : List Packet}
    (carried : List.Forall₂ (link.Carries origin whole datagram) extents
      arrivals) :
    ∀ arrival ∈ arrivals, ∃ extent ∈ extents,
      link.Carries origin whole datagram extent arrival := by
  induction carried with
  | nil => simp
  | cons carries _ inductionHypothesis =>
      intro arrival member
      rcases List.mem_cons.mp member with rfl | isLater
      · exact ⟨_, List.mem_cons_self .., carries⟩
      · obtain ⟨extent, isExtent, isCarried⟩ :=
          inductionHypothesis arrival isLater
        exact ⟨extent, .tail _ isExtent, isCarried⟩

/-- Arrivals whose tags have crossed unharmed are all the pieces. -/
theorem pieces_of_carried {whole : Bytes} {datagram : UInt32} :
    ∀ {count : Nat} {fragmenter : Fragmenter} {arrivals : List Packet},
      fragmenter.Underway → fragmenter.left = count →
      fragmenter.source.toBytes = whole →
      List.Forall₂ (link.Carries origin whole datagram) fragmenter.extents
        arrivals →
      (∀ arrival ∈ arrivals, arrival.Sound) →
      (∀ extent ∈ fragmenter.extents, link.Passes origin extent ∧
        (link.Faithful origin ∨ extent.start = 0)) →
      (link.division origin whole datagram).Pieces fragmenter.offset
          arrivals ∧
        arrivals.map Packet.extent = fragmenter.extents
  | 0, _, _, _, counted, _, _, _, _ => by
      rw [Fragmenter.left] at counted
      omega
  | count + 1, fragmenter, arrivals, underway, counted, isWhole, carried,
      sound, passes => by
      have within := underway.nextLength_le
      have length := underway.sound.length_toBytes
      rw [isWhole] at within length
      have split := underway.extents_cases
      generalize fragmenter.extents = extents at split carried passes ⊢
      cases carried with
      | nil => simp at split
      | @cons extent arrival later behind carries others =>
          have isFirst : extent =
              ⟨fragmenter.offset, fragmenter.nextLength⟩ := by
            rcases split with ⟨_, _, single⟩ | ⟨_, _, _, several⟩
            · exact (List.cons.inj single).1
            · exact (List.cons.inj several).1
          subst isFirst
          obtain ⟨isPassing, keeps⟩ := passes _ (List.mem_cons_self ..)
          have isSound := sound arrival (List.mem_cons_self ..)
          have isPiece := carries.isPiece isSound within isPassing keeps
          have isExtent := carries.extent_eq isSound within isPassing keeps
          have sameLength := carries.length_eq isSound within
          dsimp only at isPiece sameLength
          rcases split with
            ⟨ends, _, single⟩ | ⟨⟨positive, goesOn⟩, further, fewer, several⟩
          · obtain rfl := (List.cons.inj single).2
            cases others
            refine ⟨.last isPiece ?_, by rw [List.map_singleton, isExtent]⟩
            rw [sameLength, ends]
            exact length.symm
          · obtain rfl := (List.cons.inj several).2
            obtain ⟨arePieces, areExtents⟩ := pieces_of_carried further
              (Nat.succ.inj (fewer.symm.trans counted)) isWhole others
              (fun other member => sound other (.tail _ member))
              (fun other member => passes other (.tail _ member))
            refine ⟨.more isPiece ?_ ?_ ?_, by
              rw [List.map_cons, isExtent, areExtents]⟩
            · rw [sameLength]
              exact positive
            · rw [sameLength]
              exact length ▸ goesOn
            · rw [sameLength]
              exact arePieces

/-- Why the pieces of a payload are not put together. -/
def joinRefusal? (link : Link) (origin : Pools) (extents : List Extent) :
    Option BufferError :=
  if (origin.get link.receiver).config.chaining then none
  else Extent.overrun? (origin.get link.receiver).layout.maxPayload 0 extents

/-- Whether arrivals are put together can be told from their extents. -/
theorem refusal?_of_carried {pools : Pools} {others : List Packet}
    {whole : Bytes} {datagram : UInt32} {extents : List Extent}
    {arrivals : List Packet}
    (consistent : pools.Consistent origin .never (arrivals ++ others))
    (carried : List.Forall₂ (link.Carries origin whole datagram) extents
      arrivals)
    (within : ∀ extent ∈ extents,
      extent.start + extent.length ≤ whole.length)
    (passes : ∀ extent ∈ extents, link.Passes origin extent)
    (areExtents : arrivals.map Packet.extent = extents) :
    Reassembly.refusal? (origin.get link.receiver).config.chaining
        (origin.get link.receiver).layout.maxPayload arrivals =
      link.joinRefusal? origin extents := by
  cases chains : (origin.get link.receiver).config.chaining with
  | true =>
      rw [joinRefusal?, chains]
      cases arrivals <;> rfl
  | false =>
      rw [joinRefusal?, chains, ← areExtents]
      apply Reassembly.refusal?_eq_overrun?
      intro arrival member
      obtain ⟨extent, isExtent, carries⟩ :=
        exists_of_carried carried arrival member
      have isLive := List.mem_append_left others member
      have laidOut := consistent.laidOut isLive (by simp)
      rw [carries.pool_eq,
        (consistent.balanced.accounts link.receiver).layout_eq] at laidOut
      exact carries.compact (consistent.kept arrival isLive) laidOut
        (within extent isExtent) ((passes extent isExtent).single chains)

end Link

end Load

end PooledPackets
