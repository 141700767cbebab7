import PooledPackets.Proofs.Reassembly.Tiling
import PooledPackets.Proofs.Requests.Exact
import PooledPackets.Proofs.Sessions.Accounts

/-!
# The pieces of a packet

Whatever the state of the pools is at each step, the fragments that a walk
over a packet yields are the pieces of its payload: each begins where the one
before it ends, none is empty unless the packet is, and only the last one says
that nothing follows.
-/

namespace PooledPackets

/-- What the pieces of one packet have in common. -/
structure Division where
  whole : Bytes
  datagram : UInt32
  /-- The pool that the pieces were made in. -/
  maker : PoolId
  /-- The payload bytes that each piece has room for in any case. -/
  room : Nat

namespace Division

/-- A packet is the piece of a payload that begins at a position. -/
structure IsPiece (division : Division) (offset : Nat) (piece : Packet) :
    Prop where
  tag_eq : piece.tag = some {
    datagram := division.datagram
    offset := offset
    moreFragments := decide (offset + piece.length < division.whole.length) }
  within : offset + piece.length ≤ division.whole.length
  spelled : piece.toBytes =
    division.whole.between offset (offset + piece.length)
  pool_eq : piece.pool = division.maker
  held : piece.chain ≠ []
  room_le : division.room ≤ piece.available + piece.length

/-- Packets are all pieces of a payload from a position on. -/
inductive Pieces (division : Division) : Nat → List Packet → Prop
  | last {offset : Nat} {piece : Packet}
      (isPiece : division.IsPiece offset piece)
      (ends : offset + piece.length = division.whole.length) :
      Pieces division offset [piece]
  | more {offset : Nat} {piece : Packet} {rest : List Packet}
      (isPiece : division.IsPiece offset piece)
      (nonempty : 0 < piece.length)
      (goesOn : offset + piece.length < division.whole.length)
      (later : Pieces division (offset + piece.length) rest) :
      Pieces division offset (piece :: rest)

/-- The tag that the piece in the place of a packet has. -/
def tagOf (division : Division) (piece : Packet) : FragmentTag where
  datagram := division.datagram
  offset := piece.start
  moreFragments := decide (piece.stop < division.whole.length)

variable {division : Division} {offset : Nat} {piece : Packet}
variable {pieces : List Packet}

namespace IsPiece

theorem start_eq (isPiece : division.IsPiece offset piece) :
    piece.start = offset := by
  rw [Packet.start, isPiece.tag_eq]
  rfl

theorem stop_eq (isPiece : division.IsPiece offset piece) :
    piece.stop = offset + piece.length := by
  rw [Packet.stop, isPiece.start_eq]

theorem self (isPiece : division.IsPiece offset piece) :
    division.IsPiece piece.start piece := by
  rw [isPiece.start_eq]
  exact isPiece

theorem tagged (isPiece : division.IsPiece offset piece) :
    piece.tag = some (division.tagOf piece) := by
  rw [tagOf, isPiece.start_eq, isPiece.stop_eq]
  exact isPiece.tag_eq

theorem stop_le (isPiece : division.IsPiece offset piece) :
    piece.stop ≤ division.whole.length := by
  rw [isPiece.stop_eq]
  exact isPiece.within

/-- Only what ends where the payload ends is a last piece. -/
theorem isFinal_iff (isPiece : division.IsPiece offset piece) :
    piece.IsFinal ↔ piece.stop = division.whole.length := by
  have within := isPiece.stop_le
  simp only [Packet.IsFinal, isPiece.tagged, Option.some.injEq, tagOf,
    exists_eq_left', decide_eq_false_iff_not, Nat.not_lt]
  omega

end IsPiece

namespace Pieces

theorem isPiece_of_mem (areAll : division.Pieces offset pieces) :
    ∀ piece ∈ pieces,
      division.IsPiece piece.start piece ∧ offset ≤ piece.start := by
  induction areAll with
  | last isPiece ends =>
      intro other member
      rw [List.mem_singleton.mp member]
      exact ⟨isPiece.self, Nat.le_of_eq isPiece.start_eq.symm⟩
  | more isPiece nonempty goesOn later inductionHypothesis =>
      intro other member
      rcases List.mem_cons.mp member with rfl | isLater
      · exact ⟨isPiece.self, Nat.le_of_eq isPiece.start_eq.symm⟩
      · obtain ⟨isOther, behind⟩ := inductionHypothesis other isLater
        exact ⟨isOther, by omega⟩

/-- Pieces begin one after the other and do not overlap. -/
theorem pairwise (areAll : division.Pieces offset pieces) :
    pieces.Pairwise fun one other =>
      one.start < other.start ∧ one.stop ≤ other.start := by
  induction areAll with
  | last isPiece ends => exact List.pairwise_singleton _ _
  | more isPiece nonempty goesOn later inductionHypothesis =>
      apply List.Pairwise.cons ?_ inductionHypothesis
      intro other member
      have behind := (later.isPiece_of_mem other member).2
      rw [isPiece.start_eq, isPiece.stop_eq]
      exact ⟨by omega, behind⟩

theorem sum_eq (areAll : division.Pieces offset pieces) :
    offset + (pieces.map Packet.length).sum = division.whole.length := by
  induction areAll with
  | last isPiece ends => simpa using ends
  | more isPiece nonempty goesOn later inductionHypothesis =>
      rw [List.map_cons, List.sum_cons, ← Nat.add_assoc]
      exact inductionHypothesis

theorem nonempty (areAll : division.Pieces offset pieces)
    (several : 1 < pieces.length) :
    ∀ piece ∈ pieces, 0 < piece.length := by
  induction areAll with
  | last isPiece ends => simp at several
  | @more offset piece rest isPiece nonempty goesOn later
      inductionHypothesis =>
      intro other member
      rcases List.mem_cons.mp member with rfl | isLater
      · exact nonempty
      · cases later with
        | last isLast ends =>
            rw [List.mem_singleton.mp isLater]
            omega
        | more isNext nextNonempty nextGoesOn evenLater =>
            apply inductionHypothesis ?_ other isLater
            cases evenLater with
            | last _ _ => simp
            | more _ _ _ _ => simp

theorem exists_final (areAll : division.Pieces offset pieces) :
    ∃ piece ∈ pieces, piece.IsFinal := by
  induction areAll with
  | @last offset piece isPiece ends =>
      refine ⟨piece, List.mem_singleton_self _, isPiece.isFinal_iff.mpr ?_⟩
      rw [isPiece.stop_eq]
      exact ends
  | more isPiece nonempty goesOn later inductionHypothesis =>
      obtain ⟨final, member, isFinal⟩ := inductionHypothesis
      exact ⟨final, .tail _ member, isFinal⟩

theorem of_cons (areAll : division.Pieces offset (piece :: pieces))
    (several : pieces ≠ []) :
    division.IsPiece offset piece ∧
      division.Pieces (offset + piece.length) pieces := by
  cases areAll with
  | last isPiece ends => exact absurd rfl several
  | more isPiece nonempty goesOn later => exact ⟨isPiece, later⟩

theorem covered {front behind : List Packet}
    (areAll : division.Pieces offset (front ++ piece :: behind)) :
    ∀ position, offset ≤ position → position < piece.start →
      ∃ other ∈ front, other.Covers position := by
  induction front generalizing offset with
  | nil =>
      intro position after before
      have begins : piece.start = offset := by
        cases areAll with
        | last isPiece _ => exact isPiece.start_eq
        | more isPiece _ _ _ => exact isPiece.start_eq
      omega
  | cons first rest inductionHypothesis =>
      intro position after before
      obtain ⟨isFirst, later⟩ := areAll.of_cons (by simp)
      by_cases inFirst : position < offset + first.length
      · refine ⟨first, List.mem_cons_self .., ?_, ?_⟩
        · rw [isFirst.start_eq]
          exact after
        · rw [isFirst.stop_eq]
          exact inFirst
      · obtain ⟨other, member, covers⟩ := inductionHypothesis later
          position (Nat.le_of_not_lt inFirst) before
        exact ⟨other, .tail _ member, covers⟩

/-- In whatever order the pieces are, one is apart from all in front of it. -/
theorem parted {taken left : List Packet}
    (areAll : division.Pieces offset pieces)
    (arranged : pieces.Perm (taken ++ piece :: left)) :
    ∀ other ∈ taken, other.start ≠ piece.start ∧ other.Clears piece := by
  have apart : pieces.Pairwise fun one other =>
      one.start ≠ other.start ∧ one.Clears other :=
    areAll.pairwise.imp fun ordered =>
      ⟨Nat.ne_of_lt ordered.1, Or.inl ordered.2⟩
  have anyOrder := (arranged.pairwise_iff fun related =>
    ⟨Ne.symm related.1, related.2.symm⟩).mp apart
  have across := (List.pairwise_append.mp anyOrder).2.2
  exact fun other member =>
    across other member piece (List.mem_cons_self ..)

end Pieces

end Division

namespace Fragmenter

/-- The packets that a walk yields until it is finished, where every step is
taken in the pools of some session that can be reached. A walk that has
stalled is resumed. -/
inductive Yields (configs : List Config) : Fragmenter → List Packet → Prop
  | finished {fragmenter : Fragmenter}
      (isFinished : fragmenter.finished = true) :
      Yields configs fragmenter []
  | made {fragmenter further : Fragmenter} {fragment : Packet}
      {later : List Packet} {session : Session} {pools : Pools}
      (reached : session.Reached configs)
      (isMade : fragmenter.next session.pools =
        .done (some (.ok fragment), further) pools)
      (goesOn : Yields configs further later) :
      Yields configs fragmenter (fragment :: later)
  | stalled {fragmenter stuck : Fragmenter} {error : BufferError}
      {later : List Packet} {session : Session} {pools : Pools}
      (reached : session.Reached configs)
      (isStalled : fragmenter.next session.pools =
        .done (some (.error error), stuck) pools)
      (goesOn : Yields configs stuck.resume later) :
      Yields configs fragmenter later

/-- What the fragments of a walk have in common. -/
def division (fragmenter : Fragmenter) (layout : Layout) : Division where
  whole := fragmenter.source.toBytes
  datagram := fragmenter.datagram
  maker := fragmenter.pool
  room := layout.maxPayload

/-- The number of fragments still to come while a walk is underway. -/
def left (fragmenter : Fragmenter) : Nat :=
  max (Layout.portions (fragmenter.source.length - fragmenter.offset)
    fragmenter.fragmentLength) 1

/-- A walk that can still make a fragment: nothing is left out, and it is not
at the end of its packet unless that is empty. -/
structure Underway (fragmenter : Fragmenter) : Prop where
  sound : fragmenter.source.Sound
  progress : 0 < fragmenter.fragmentLength
  unfinished : fragmenter.finished = false
  inside : fragmenter.offset < fragmenter.source.length ∨
    fragmenter.offset = 0 ∧ fragmenter.source.length = 0

variable {fragmenter : Fragmenter} {configs : List Config}

theorem Underway.offset_le (underway : fragmenter.Underway) :
    fragmenter.offset ≤ fragmenter.source.length := by
  rcases underway.inside with inside | ⟨atStart, empty⟩
  · exact Nat.le_of_lt inside
  · omega

/-- The fragment that a walk makes is the next piece. -/
theorem Underway.makes_piece {layout : Layout} {fragment : Packet}
    (underway : fragmenter.Underway)
    (makes : fragmenter.Makes .never layout fragment)
    (sound : fragment.Sound) :
    fragment.length = fragmenter.nextLength ∧
      (fragmenter.division layout).IsPiece fragmenter.offset fragment := by
  obtain ⟨bytes, body, filled, tagged, range⟩ := makes.filled
  have sourceLength := underway.sound.length_toBytes
  have within : fragmenter.offset + fragmenter.nextLength ≤
      fragmenter.source.length := by
    have behind := underway.offset_le
    simp only [nextLength]
    omega
  have spelled : fragment.toBytes = fragmenter.source.toBytes.between
      fragmenter.offset (fragmenter.offset + fragmenter.nextLength) := by
    rw [← range rfl, ← filled.spelled, tagged]
    rfl
  have length : fragment.length = fragmenter.nextLength := by
    rw [← sound.length_toBytes, spelled, Bytes.length_between]
    · exact Nat.add_sub_cancel_left ..
    · rw [sourceLength]
      exact within
  have sameChain : fragment.chain = body.chain := by
    rw [tagged]
    rfl
  have sameRoom : fragment.available = body.available := by
    rw [tagged]
    rfl
  refine ⟨length, ?_⟩
  constructor
  · rw [makes.tag_eq, length, division, sourceLength]
  · rw [length, division, sourceLength]
    exact within
  · rw [length]
    exact spelled
  · rw [tagged]
    exact filled.pool_eq
  · rw [sameChain]
    exact filled.held
  · have roomy := filled.room
    have oneSegment := layout.segmentsFor_pos fragmenter.nextLength
    have atLeast : layout.maxPayload ≤
        layout.segmentsFor fragmenter.nextLength * layout.maxPayload :=
      Nat.le_mul_of_pos_left _ oneSegment
    have written : bytes.length = fragment.length := by
      rw [range rfl, ← spelled, sound.length_toBytes]
    rw [written] at roomy
    rw [sameRoom]
    exact Nat.le_trans atLeast roomy

/-- Behind a piece a walk is either at its end or underway again. -/
theorem Underway.advance (underway : fragmenter.Underway) :
    (fragmenter.offset + fragmenter.nextLength =
        fragmenter.source.length ∧
      (fragmenter.advance fragmenter.nextLength).finished = true) ∨
    (0 < fragmenter.nextLength ∧
      fragmenter.offset + fragmenter.nextLength <
        fragmenter.source.length ∧
      (fragmenter.advance fragmenter.nextLength).Underway) := by
  have behind := underway.offset_le
  have progress := underway.progress
  by_cases ends : fragmenter.source.length ≤
      fragmenter.offset + fragmenter.nextLength
  · refine Or.inl ⟨?_, by simpa [Fragmenter.advance] using ends⟩
    simp only [nextLength] at ends ⊢
    omega
  · have goesOn := Nat.lt_of_not_le ends
    refine Or.inr ⟨?_, goesOn, ?_⟩
    · simp only [nextLength] at goesOn ⊢
      omega
    · constructor
      · exact underway.sound
      · exact progress
      · simpa [Fragmenter.advance] using goesOn
      · exact Or.inl goesOn

theorem Makes.pool_eq {exchange : Exchange} {layout : Layout}
    {fragment : Packet}
    (makes : fragmenter.Makes exchange layout fragment) :
    fragment.pool = fragmenter.pool := by
  obtain ⟨_, _, filled, tagged, _⟩ := makes.filled
  rw [tagged]
  exact filled.pool_eq

theorem left_eq_of_ends (progress : 0 < fragmenter.fragmentLength)
    (ends : fragmenter.offset + fragmenter.nextLength =
      fragmenter.source.length) :
    fragmenter.left = 1 := by
  have short : Layout.portions (fragmenter.source.length - fragmenter.offset)
      fragmenter.fragmentLength < 2 := by
    rw [Layout.portions, Nat.div_lt_iff_lt_mul progress]
    simp only [nextLength] at ends
    omega
  rw [left]
  omega

/-- The next fragment does not reach beyond the payload. -/
theorem Underway.nextLength_le (underway : fragmenter.Underway) :
    fragmenter.offset + fragmenter.nextLength ≤
      fragmenter.source.toBytes.length := by
  have inside := underway.offset_le
  rw [underway.sound.length_toBytes]
  simp only [nextLength]
  omega

/-- A fragment that is not the last one is as long as can be. -/
theorem nextLength_of_goesOn
    (goesOn : fragmenter.offset + fragmenter.nextLength <
      fragmenter.source.length) :
    fragmenter.nextLength = fragmenter.fragmentLength := by
  simp only [nextLength] at goesOn ⊢
  omega

theorem left_advance (progress : 0 < fragmenter.fragmentLength)
    (goesOn : fragmenter.offset + fragmenter.nextLength <
      fragmenter.source.length) :
    fragmenter.left =
      (fragmenter.advance fragmenter.nextLength).left + 1 := by
  have full := nextLength_of_goesOn goesOn
  have further : fragmenter.source.length - fragmenter.offset +
        fragmenter.fragmentLength - 1 =
      fragmenter.source.length - (fragmenter.offset + fragmenter.nextLength) +
        fragmenter.fragmentLength - 1 + fragmenter.fragmentLength := by
    omega
  have least : 1 ≤ (fragmenter.source.length -
      (fragmenter.offset + fragmenter.nextLength) +
        fragmenter.fragmentLength - 1) / fragmenter.fragmentLength := by
    rw [Nat.le_div_iff_mul_le progress]
    omega
  simp only [left, advance, Layout.portions]
  rw [further, Nat.add_div_right _ progress]
  omega

/-! ## Where a walk begins -/

/-- A walk over a packet that has not begun yet. -/
def unbegun (pool : PoolId) (source : Packet) (datagram : UInt32)
    (fragmentLength : Nat) : Fragmenter where
  pool := pool
  source := source
  datagram := datagram
  fragmentLength := fragmentLength
  offset := 0
  finished := false
  stalled := false

theorem underway_unbegun (pool : PoolId) {source : Packet}
    (sound : source.Sound) (datagram : UInt32) {fragmentLength : Nat}
    (progress : 0 < fragmentLength) :
    (unbegun pool source datagram fragmentLength).Underway where
  sound := sound
  progress := progress
  unfinished := rfl
  inside := by
    rcases Nat.eq_zero_or_pos source.length with empty | positive
    · exact Or.inr ⟨rfl, empty⟩
    · exact Or.inl positive

end Fragmenter

namespace Pool

variable {packet : Packet} {mtu : Nat}

/-- The payload bytes that a pool puts into a fragment for a link. -/
def portion (pool : Pool) (mtu : Nat) : Nat :=
  if pool.config.chaining then mtu else min mtu pool.layout.maxPayload

theorem portion_pos (pool : Pool) (someMtu : 0 < mtu) :
    0 < pool.portion mtu := by
  have positive := pool.layout.maxPayload_pos
  rw [portion]
  split <;> omega

/-- Why a pool does not split a packet for a link, if it does not. -/
def splitRefusal? (pool : Pool) (packet : Packet) (mtu : Nat) :
    Option BufferError :=
  if mtu = 0 then some (.invalidMtu mtu)
  else if packet.isReleased then some .released
  else if mtu < packet.length ∧ pool.config.fragmentation = false then
    some (.fragmentationDisabled packet.length mtu)
  else none

theorem splitRefusal?_of_zero {pool : Pool} :
    pool.splitRefusal? packet 0 = some (.invalidMtu 0) :=
  if_pos rfl

theorem splitRefusal?_of_held {pool : Pool}
    (unreleased : packet.isReleased = false) (someMtu : 0 < mtu) :
    pool.splitRefusal? packet mtu =
      if mtu < packet.length ∧ pool.config.fragmentation = false then
        some (.fragmentationDisabled packet.length mtu)
      else none := by
  rw [splitRefusal?, if_neg (Nat.ne_of_gt someMtu), unreleased]
  rfl

/-- A walk that a pool hands out has not begun yet. All that changes is the
number of the pool's next datagram. -/
theorem fragmentForLink_exactly (id : PoolId) (packet : Packet) (mtu : Nat)
    (pools : Pools) :
    (fragmentForLink id packet mtu pools).Satisfies
      (fun begun after =>
        (pools.get id).splitRefusal? packet mtu = none ∧
        begun = .unbegun id packet (pools.get id).nextDatagram
          ((pools.get id).portion mtu) ∧
        pools.ChangesOnly id (fun pool =>
          { pool with nextDatagram := pool.nextDatagram + 1 }) after)
      (fun error after =>
        (pools.get id).splitRefusal? packet mtu = some error ∧ after = pools)
      (fun _ => False) := by
  refine Outcome.Satisfies.ite (fun noMtu => ?_) fun someMtu => ?_
  · exact Outcome.Satisfies.fail ⟨if_pos noMtu, rfl⟩
  refine Outcome.Satisfies.ite (fun released => ?_) fun unreleased => ?_
  · refine Outcome.Satisfies.fail ⟨?_, rfl⟩
    rw [splitRefusal?, if_neg someMtu, if_pos released]
  apply Outcome.Satisfies.readPool
  refine Outcome.Satisfies.ite (fun forbidden => ?_) fun permitted => ?_
  · refine Outcome.Satisfies.fail ⟨?_, rfl⟩
    rw [splitRefusal?, if_neg someMtu, if_neg unreleased, if_pos forbidden]
  · refine ⟨?_, rfl, Pools.ChangesOnly.set pools id _⟩
    rw [splitRefusal?, if_neg someMtu, if_neg unreleased, if_neg permitted]

theorem fragmentForLink_of_refused {id : PoolId} {pools : Pools}
    {error : BufferError}
    (refused : (pools.get id).splitRefusal? packet mtu = some error) :
    fragmentForLink id packet mtu pools = .failed error pools := by
  have ends := fragmentForLink_exactly id packet mtu pools
  rw [refused] at ends
  obtain ⟨_, _, isFailed, isError, rfl⟩ :=
    (ends.mono (fun _ _ known => by cases known.1)
      (fun _ _ known => known) (fun _ stopped => stopped)).exists_failed
  cases isError
  exact isFailed

theorem fragmentForLink_of_permitted {id : PoolId} {pools : Pools}
    (permitted : (pools.get id).splitRefusal? packet mtu = none) :
    ∃ after, fragmentForLink id packet mtu pools =
        .done (.unbegun id packet (pools.get id).nextDatagram
          ((pools.get id).portion mtu)) after ∧
      pools.ChangesOnly id (fun pool =>
        { pool with nextDatagram := pool.nextDatagram + 1 }) after := by
  have ends := fragmentForLink_exactly id packet mtu pools
  rw [permitted] at ends
  obtain ⟨_, after, isDone, _, rfl, changes⟩ :=
    (ends.monoRefused fun _ _ known => by cases known.1).exists_done
  exact ⟨after, isDone, changes⟩

end Pool

namespace Fragmenter

variable {fragmenter : Fragmenter} {configs : List Config}

theorem begun_of_fragmentForLink {maker : PoolId} {packet : Packet}
    {mtu : Nat} {pools after : Pools} (sound : packet.Sound)
    (begun : Pool.fragmentForLink maker packet mtu pools =
      .done fragmenter after) :
    fragmenter.Underway ∧ fragmenter.source = packet ∧
      fragmenter.pool = maker ∧ fragmenter.offset = 0 := by
  obtain ⟨permitted, rfl, _⟩ :=
    (Pool.fragmentForLink_exactly maker packet mtu pools).of_done begun
  have someMtu : 0 < mtu := by
    apply Nat.pos_of_ne_zero
    rintro rfl
    rw [Pool.splitRefusal?_of_zero] at permitted
    cases permitted
  exact ⟨underway_unbegun maker sound _
    ((pools.get maker).portion_pos someMtu), rfl, rfl, rfl⟩

theorem Underway.resume (underway : fragmenter.Underway) :
    { fragmenter with stalled := true }.resume.Underway where
  sound := underway.sound
  progress := underway.progress
  unfinished := underway.unfinished
  inside := underway.inside

end Fragmenter

namespace Fragmenter

variable {configs : List Config}

theorem next_of_finished {fragmenter : Fragmenter}
    (isFinished : fragmenter.finished = true) (pools : Pools) :
    fragmenter.next pools = .done (none, fragmenter) pools := by
  have atEnd : (fragmenter.finished || fragmenter.stalled) = true := by
    rw [isFinished, Bool.true_or]
  unfold next
  rw [if_pos atEnd]
  rfl

theorem Yields.eq_nil {fragmenter : Fragmenter} {fragments : List Packet}
    (yields : fragmenter.Yields configs fragments)
    (isFinished : fragmenter.finished = true) : fragments = [] := by
  cases yields with
  | finished _ => rfl
  | made reached isMade goesOn =>
      rw [next_of_finished isFinished] at isMade
      cases isMade
  | stalled reached isStalled goesOn =>
      rw [next_of_finished isFinished] at isStalled
      cases isStalled

/-- The fragments that a walk yields are the pieces of its packet. -/
theorem Yields.pieces {fragmenter : Fragmenter} {fragments : List Packet}
    (yields : fragmenter.Yields configs fragments)
    (underway : fragmenter.Underway) :
    (fragmenter.division
      ((Pools.ofConfigs configs).get fragmenter.pool).layout).Pieces
        fragmenter.offset fragments := by
  induction yields with
  | finished isFinished =>
      simp [underway.unfinished] at isFinished
  | @made fragmenter further fragment later session pools reached isMade
      goesOn inductionHypothesis =>
      have known := Pools.Consistent.next_satisfies reached.owns
        underway.sound
      rw [isMade] at known
      obtain ⟨_, consistent, rfl, makes⟩ := known
      have sound : fragment.Sound :=
        consistent.kept fragment (List.mem_cons_self ..)
      rw [reached.layout_eq] at makes
      obtain ⟨length, isPiece⟩ := underway.makes_piece makes sound
      have sourceLength := underway.sound.length_toBytes
      -- A finished walk yields nothing more, so its piece is the last one.
      rcases underway.advance with
        ⟨ends, isFinished⟩ | ⟨nonempty, inside, underwayAgain⟩
      · obtain rfl := goesOn.eq_nil isFinished
        apply Division.Pieces.last isPiece
        rw [length, division, sourceLength]
        exact ends
      · rw [← length] at nonempty inside
        apply Division.Pieces.more isPiece nonempty
        · rw [division, sourceLength]
          exact inside
        · rw [length]
          exact inductionHypothesis underwayAgain
  | stalled reached isStalled goesOn inductionHypothesis =>
      have known := Pools.Consistent.next_satisfies reached.owns
        underway.sound
      rw [isStalled] at known
      obtain ⟨_, _, rfl⟩ := known
      exact inductionHypothesis underway.resume

end Fragmenter

end PooledPackets
