import PooledPackets.Proofs.Fragments.Schedules

/-!
# What a pool without fragmentation does

A pool that may not fragment refuses a packet which the link does not carry at
once. A packet that the link carries passes through whole, unless the pool does
not chain segments either: then a packet that is larger than the payload of one
segment is split all the same, into portions of that payload. This holds of all
packets, also of those whose numbers do not agree with their chain, and whatever
the pools are when the fragments are asked for.
-/

namespace PooledPackets

open Operation

namespace Fragmenter

variable {begun walk : Fragmenter} {before after : Pools}

/-! ## One call -/

/-- The tag of the fragment of a number. -/
def tagOf (begun : Fragmenter) (number : Nat) : FragmentTag where
  datagram := begun.datagram
  offset := number * begun.fragmentLength
  moreFragments := decide (number + 1 < begun.count)

/-- The tag of a fragment of some length at the present position. -/
def tagHere (walk : Fragmenter) (len : Nat) : FragmentTag where
  datagram := walk.datagram
  offset := walk.offset
  moreFragments := decide (walk.offset + len < walk.source.length)

/-- What a call for the next fragment can come to in any pools. -/
inductive Replies (walk : Fragmenter) :
    Option (Except BufferError Packet) × Fragmenter → Prop
  /-- Only a walk that is finished or stalled has nothing to say. -/
  | silent (ended : walk.finished = true ∨ walk.stalled = true) :
      Replies walk (none, walk)
  | made {fragment : Packet} (unfinished : walk.finished = false)
      (tag_eq : fragment.tag = some (walk.tagHere walk.nextLength)) :
      Replies walk (some (.ok fragment), walk.advance walk.nextLength)
  | short {error : BufferError} :
      Replies walk (some (.error error), { walk with stalled := true })

theorem build_tags (walk : Fragmenter) (len : Nat) (pools : Pools) :
    (walk.build len pools).Satisfies
      (fun fragment _ => fragment.tag = some (walk.tagHere len))
      (fun _ _ => True) (fun _ => True) := by
  unfold build
  cases walk.source.slices? walk.offset len with
  | none =>
      exact Outcome.Satisfies.bind .trivially
        fun _ _ _ => Outcome.Satisfies.halt trivial
  | some pieces =>
      exact Outcome.Satisfies.bind .trivially
        fun _ _ _ => Outcome.Satisfies.pure rfl

theorem next_replies (walk : Fragmenter) (pools : Pools) :
    (walk.next pools).Satisfies (fun result _ => walk.Replies result)
      (fun _ _ => True) (fun _ => True) := by
  refine Outcome.Satisfies.ite (fun ended => ?_) fun goesOn => ?_
  · rw [Bool.or_eq_true] at ended
    exact Outcome.Satisfies.pure (.silent ended)
  · rw [Bool.not_eq_true, Bool.or_eq_false_iff] at goesOn
    apply Outcome.Satisfies.bind
      (build_tags walk walk.nextLength pools).attempt.neverRefused
    intro result after known
    cases result with
    | error error => exact Outcome.Satisfies.pure .short
    | ok fragment => exact Outcome.Satisfies.pure (.made goesOn.1 known)

theorem ended_of_silent
    (silent : walk.next before = .done (none, further) after) :
    walk.finished = true ∨ walk.stalled = true := by
  have replies := (walk.next_replies before).of_done silent
  cases replies with
  | silent ended => exact ended

/-! ## Any number of calls -/

/-- What a walk has come to by calls in whatever pools, and the fragments that
it yielded since it was last started. -/
inductive Played (begun : Fragmenter) : Fragmenter → List Packet → Prop
  | start : Played begun begun []
  | next {walk further : Fragmenter} {yielded : List Packet}
      {item : Option (Except BufferError Packet)} {before after : Pools}
      (played : Played begun walk yielded)
      (answered : walk.next before = .done (item, further) after) :
      Played begun further (yielded ++ fragmentsIn item)
  | resume {walk : Fragmenter} {yielded : List Packet}
      (played : Played begun walk yielded) :
      Played begun walk.resume yielded
  | restart {walk : Fragmenter} {yielded : List Packet}
      (played : Played begun walk yielded) :
      Played begun walk.restart []

/-- Fragments are the first ones of a walk, each with the tag of its number,
and the walk is now behind them. -/
structure Numbers (begun walk : Fragmenter) (yielded : List Packet) :
    Prop where
  walk_eq : ∃ stalled, walk = begun.behind yielded.length stalled
  length_le : yielded.length ≤ begun.count
  tag_eq : ∀ number fragment, yielded[number]? = some fragment →
    fragment.tag = some (begun.tagOf number)

variable {yielded : List Packet} {number : Nat} {stalled : Bool}

theorem numbers_nil (walk_eq : walk = begun.behind 0 stalled) :
    begun.Numbers walk [] where
  walk_eq := ⟨stalled, walk_eq⟩
  length_le := Nat.zero_le _
  tag_eq := by simp

theorem Numbers.finished_iff (numbers : begun.Numbers walk yielded) :
    walk.finished = true ↔ yielded.length = begun.count := by
  obtain ⟨stalled, rfl⟩ := numbers.walk_eq
  exact decide_eq_true_iff

theorem Numbers.stalling (numbers : begun.Numbers walk yielded)
    (stalled : Bool) : begun.Numbers { walk with stalled } yielded where
  walk_eq := by
    obtain ⟨_, rfl⟩ := numbers.walk_eq
    exact ⟨stalled, rfl⟩
  length_le := numbers.length_le
  tag_eq := numbers.tag_eq

/-- What a walk makes behind a number of fragments has the tag of that
number. -/
theorem tag_behind (progress : 0 < begun.fragmentLength)
    (fewer : number < begun.count) :
    (begun.behind number stalled).tagHere
        (begun.behind number stalled).nextLength =
      begun.tagOf number := by
  have goesOn : decide ((begun.behind number stalled).offset +
      (begun.behind number stalled).nextLength < begun.source.length) =
        decide (number + 1 < begun.count) := by
    rw [decide_eq_decide, reach_behind progress fewer]
    exact reach_lt_iff progress
  rw [tagHere, source_behind, goesOn, offset_behind progress fewer]
  rfl

/-- One more fragment has the next number. -/
theorem Numbers.advance {fragment : Packet}
    (numbers : begun.Numbers walk yielded)
    (progress : 0 < begun.fragmentLength)
    (unfinished : walk.finished = false)
    (tag_eq : fragment.tag = some (walk.tagHere walk.nextLength)) :
    begun.Numbers (walk.advance walk.nextLength) (yielded ++ [fragment]) := by
  have fewer : yielded.length < begun.count := by
    have notAll := numbers.finished_iff.not.mp (by simp [unfinished])
    exact Nat.lt_of_le_of_ne numbers.length_le notAll
  obtain ⟨stalled, rfl⟩ := numbers.walk_eq
  rw [tag_behind progress fewer] at tag_eq
  constructor
  · rw [advance_behind progress fewer, List.length_append,
      List.length_singleton]
    exact ⟨stalled, rfl⟩
  · rw [List.length_append, List.length_singleton]
    exact fewer
  · exact numbered_snoc numbers.tag_eq tag_eq

theorem Replies.numbers
    {reply : Option (Except BufferError Packet) × Fragmenter}
    (replies : walk.Replies reply) (numbers : begun.Numbers walk yielded)
    (progress : 0 < begun.fragmentLength) :
    begun.Numbers reply.2 (yielded ++ fragmentsIn reply.1) := by
  cases replies with
  | silent _ =>
      simp only [fragmentsIn, List.append_nil]
      exact numbers
  | made unfinished tag_eq =>
      exact numbers.advance progress unfinished tag_eq
  | short =>
      simp only [fragmentsIn, List.append_nil]
      exact numbers.stalling true

/-- However a walk is played, its fragments are numbered. -/
theorem Played.numbers {pool : PoolId} {source : Packet} {datagram : UInt32}
    {fragmentLength : Nat} (progress : 0 < fragmentLength)
    (played : (unbegun pool source datagram fragmentLength).Played walk
      yielded) :
    (unbegun pool source datagram fragmentLength).Numbers walk yielded := by
  induction played with
  | start => exact numbers_nil (unbegun_eq_behind ..)
  | next _ answered inductionHypothesis =>
      have replies := (next_replies _ _).of_done answered
      exact replies.numbers inductionHypothesis progress
  | resume _ inductionHypothesis => exact inductionHypothesis.stalling false
  | restart _ inductionHypothesis =>
      obtain ⟨stalled, rfl⟩ := inductionHypothesis.walk_eq
      exact numbers_nil restart_behind

/-! ## Whole and in portions -/

/-- A walk has yielded nothing or, at its end, the one fragment that is all of
its packet. -/
structure PassesWhole (walk : Fragmenter) (yielded : List Packet) : Prop where
  length_le : yielded.length ≤ 1
  finished_iff : walk.finished = true ↔ yielded.length = 1
  tag_eq : ∀ fragment ∈ yielded,
    fragment.tag = some ⟨walk.datagram, 0, false⟩

/-- A walk has yielded the first fragments of a packet that takes more than one
portion; at its end it has yielded a fragment for each portion. -/
structure PassesSplit (walk : Fragmenter) (len portion : Nat)
    (yielded : List Packet) : Prop where
  several : 2 ≤ Layout.portions len portion
  length_le : yielded.length ≤ Layout.portions len portion
  finished_iff : walk.finished = true ↔
    yielded.length = Layout.portions len portion
  tag_eq : ∀ (number : Nat) (fragment : Packet),
    yielded[number]? = some fragment →
    fragment.tag = some ⟨walk.datagram, number * portion,
      decide (number + 1 < Layout.portions len portion)⟩

theorem Numbers.datagram_eq (numbers : begun.Numbers walk yielded) :
    walk.datagram = begun.datagram := by
  obtain ⟨_, rfl⟩ := numbers.walk_eq
  rfl

theorem Numbers.passesWhole (numbers : begun.Numbers walk yielded)
    (isOne : begun.count = 1) : walk.PassesWhole yielded where
  length_le := by
    rw [← isOne]
    exact numbers.length_le
  finished_iff := by
    rw [← isOne]
    exact numbers.finished_iff
  tag_eq := by
    intro fragment member
    obtain ⟨number, inside, isThere⟩ := List.getElem_of_mem member
    have few := numbers.length_le
    obtain rfl : number = 0 := by omega
    have tagged := numbers.tag_eq 0 fragment
      (List.getElem?_eq_some_iff.mpr ⟨inside, isThere⟩)
    rw [tagged, tagOf, isOne, Nat.zero_mul, numbers.datagram_eq]
    rfl

theorem Numbers.passesSplit (numbers : begun.Numbers walk yielded)
    (several : 2 ≤ Layout.portions begun.source.length begun.fragmentLength) :
    walk.PassesSplit begun.source.length begun.fragmentLength yielded := by
  have count_eq : begun.count =
      Layout.portions begun.source.length begun.fragmentLength :=
    Nat.max_eq_left (Nat.le_of_succ_le several)
  constructor
  · exact several
  · rw [← count_eq]
    exact numbers.length_le
  · rw [← count_eq]
    exact numbers.finished_iff
  · intro number fragment isThere
    rw [numbers.tag_eq number fragment isThere, tagOf, count_eq,
      numbers.datagram_eq]

theorem count_eq_one_iff (progress : 0 < begun.fragmentLength) :
    begun.count = 1 ↔ begun.source.length ≤ begun.fragmentLength := by
  have one := @Layout.portions_le_iff begun.source.length 1
    begun.fragmentLength progress
  rw [Nat.one_mul] at one
  rw [count, ← one]
  omega

end Fragmenter

/-! ## The policy -/

namespace Pool

variable {id : PoolId} {packet : Packet} {mtu : Nat} {pools : Pools}

theorem le_portion {pool : Pool} {len : Nat} (carried : len ≤ mtu)
    (holds : pool.config.chaining = true ∨ len ≤ pool.layout.maxPayload) :
    len ≤ pool.portion mtu := by
  rw [portion]
  split
  · exact carried
  · rename_i unchained
    exact Nat.le_min.mpr ⟨carried, holds.resolve_left unchained⟩

theorem portion_eq_maxPayload {pool : Pool} {len : Nat} (carried : len ≤ mtu)
    (unchained : ¬pool.config.chaining = true)
    (large : pool.layout.maxPayload < len) :
    pool.portion mtu = pool.layout.maxPayload := by
  rw [portion, if_neg unchained]
  omega

/-- A pool without fragmentation refuses what the link does not carry at once,
and takes no segment then. What the link carries passes whole if the pool
chains segments or the packet is no larger than the payload of one segment, and
is split into portions of that payload otherwise. A walk has nothing more to say
only at its end or after a fragment that could not be made. -/
theorem fragmentForLink_unfragmented
    (disabled : (pools.get id).config.fragmentation = false)
    (unreleased : packet.isReleased = false) (someMtu : 0 < mtu) :
    (mtu < packet.length →
      fragmentForLink id packet mtu pools =
        .failed (.fragmentationDisabled packet.length mtu) pools) ∧
    (packet.length ≤ mtu →
      ∃ begun after, fragmentForLink id packet mtu pools = .done begun after ∧
        pools.SameFree after ∧
        ∀ walk yielded, begun.Played walk yielded →
          (if (pools.get id).config.chaining = true ∨
              packet.length ≤ (pools.get id).layout.maxPayload then
            walk.PassesWhole yielded
          else
            walk.PassesSplit packet.length
              (pools.get id).layout.maxPayload yielded) ∧
          ∀ before further after,
            walk.next before = .done (none, further) after →
              walk.finished = true ∨ walk.stalled = true) := by
  have refusal_eq := @splitRefusal?_of_held packet mtu (pools.get id)
    unreleased someMtu
  refine ⟨fun longer => ?_, fun carried => ?_⟩
  · apply fragmentForLink_of_refused
    rw [refusal_eq, if_pos ⟨longer, disabled⟩]
  · rw [if_neg fun forbidden => Nat.not_lt.mpr carried forbidden.1]
      at refusal_eq
    obtain ⟨after, isDone, changes⟩ := fragmentForLink_of_permitted refusal_eq
    refine ⟨_, after, isDone, changes.free_eq rfl, fun walk yielded played => ?_⟩
    have progress := (pools.get id).portion_pos someMtu
    have numbers := played.numbers progress
    refine ⟨?_, fun _ _ _ silent => Fragmenter.ended_of_silent silent⟩
    split
    · rename_i holds
      exact numbers.passesWhole ((Fragmenter.count_eq_one_iff progress).mpr
        (le_portion carried holds))
    · rename_i tooLarge
      rw [not_or, Nat.not_le] at tooLarge
      rw [portion_eq_maxPayload carried tooLarge.1 tooLarge.2] at numbers
      apply numbers.passesSplit
      apply (Layout.lt_portions_iff (pools.get id).layout.maxPayload_pos).mpr
      rw [Nat.one_mul]
      exact tooLarge.2

/-- A pool of segments with four payload bytes, which neither chains nor
fragments: of a packet of ten bytes it refuses to make fragments for a link
that carries eight, and makes three for a link that carries twenty. -/
theorem fragmentForLink_unfragmented_of_ten :
    let source : Config := { segmentCapacity := 64, segmentCount := 1 }
    let config : Config :=
      { segmentCapacity := 4, segmentCount := 8, headerReserve := 0,
        chaining := false, fragmentation := false }
    ∃ (session : Session) (packet : Packet),
      session.Reached [source, config] ∧ packet ∈ session.live ∧
      fragmentForLink 1 packet 8 session.pools =
        .failed (.fragmentationDisabled 10 8) session.pools ∧
      ∃ begun after,
        fragmentForLink 1 packet 20 session.pools = .done begun after ∧
        ∀ walk yielded, begun.Played walk yielded → walk.finished = true →
          yielded.length = 3 := by
  intro source config
  have plays : (do
      let session ← ((Session.start (Pools.ofConfigs [source, config])).runAll
        [.newPool, .newPool,
          .packetFrom 0 [1, 2, 3, 4, 5, 6, 7, 8, 9, 10] 0]).toOption
      let packet ← session.packets.get? 0
      let pool := session.pools.get 1
      pure (decide (packet ∈ session.live ∧ packet.isReleased = false ∧
        packet.length = 10 ∧ pool.config.fragmentation = false ∧
        pool.config.chaining = false ∧ pool.layout.maxPayload = 4))) =
          some true := by
    decide +kernel
  obtain ⟨session, ran, plays⟩ := Option.bind_eq_some_iff.mp plays
  obtain ⟨packet, _, plays⟩ := Option.bind_eq_some_iff.mp plays
  rw [toOption_eq_some_iff] at ran
  obtain ⟨isLive, unreleased, length_eq, disabled, unchained, payload_eq⟩ :=
    of_decide_eq_true (Option.some.inj plays)
  refine ⟨session, packet, ⟨by decide, _, by decide, ran⟩, isLive, ?_, ?_⟩
  · have refuses := (fragmentForLink_unfragmented disabled unreleased
      (Nat.succ_pos 7)).1
    rw [length_eq] at refuses
    exact refuses (by decide)
  · have splits := (fragmentForLink_unfragmented disabled unreleased
      (Nat.succ_pos 19)).2
    rw [length_eq, unchained, payload_eq] at splits
    obtain ⟨begun, after, isDone, _, passes⟩ := splits (by decide)
    refine ⟨begun, after, isDone, fun walk yielded played isFinished => ?_⟩
    exact (passes walk yielded played).1.finished_iff.mp isFinished

/-- What a pool without fragmentation hands out for a packet that the link
carries can yield more than one fragment. -/
theorem unfragmented_splits_ten :
    let source : Config := { segmentCapacity := 64, segmentCount := 1 }
    let config : Config :=
      { segmentCapacity := 4, segmentCount := 8, headerReserve := 0,
        chaining := false, fragmentation := false }
    ∃ (session : Session) (packet : Packet) (begun walk : Fragmenter)
        (after : Pools) (yielded : List Packet),
      session.Reached [source, config] ∧ packet ∈ session.live ∧
      packet.isReleased = false ∧ packet.length ≤ 20 ∧
      (session.pools.get 1).config.fragmentation = false ∧
      fragmentForLink 1 packet 20 session.pools = .done begun after ∧
      begun.Played walk yielded ∧ walk.finished = true ∧
      yielded.map Packet.tag = [some ⟨1, 0, true⟩, some ⟨1, 4, true⟩,
        some ⟨1, 8, false⟩] := by
  intro source config
  have plays : (do
      let session ← ((Session.start (Pools.ofConfigs [source, config])).runAll
        [.newPool, .newPool,
          .packetFrom 0 [1, 2, 3, 4, 5, 6, 7, 8, 9, 10] 0]).toOption
      let packet ← session.packets.get? 0
      let begun ← (fragmentForLink 1 packet 20 session.pools).done?
      let first ← (begun.1.next begun.2).done?
      let second ← (first.1.2.next first.2).done?
      let third ← (second.1.2.next second.2).done?
      pure (decide (packet ∈ session.live ∧ packet.isReleased = false ∧
        packet.length ≤ 20 ∧
        (session.pools.get 1).config.fragmentation = false ∧
        third.1.2.finished = true ∧
        ([] ++ Fragmenter.fragmentsIn first.1.1 ++
          Fragmenter.fragmentsIn second.1.1 ++
          Fragmenter.fragmentsIn third.1.1).map Packet.tag =
            [some ⟨1, 0, true⟩, some ⟨1, 4, true⟩,
              some ⟨1, 8, false⟩]))) = some true := by
    decide +kernel
  obtain ⟨session, ran, plays⟩ := Option.bind_eq_some_iff.mp plays
  obtain ⟨packet, _, plays⟩ := Option.bind_eq_some_iff.mp plays
  obtain ⟨⟨begun, after⟩, isBegun, plays⟩ := Option.bind_eq_some_iff.mp plays
  obtain ⟨⟨⟨one, first⟩, _⟩, isFirst, plays⟩ :=
    Option.bind_eq_some_iff.mp plays
  obtain ⟨⟨⟨two, second⟩, _⟩, isSecond, plays⟩ :=
    Option.bind_eq_some_iff.mp plays
  obtain ⟨⟨⟨three, walk⟩, _⟩, isThird, plays⟩ :=
    Option.bind_eq_some_iff.mp plays
  rw [toOption_eq_some_iff] at ran
  rw [Outcome.done?_eq_some_iff] at isBegun isFirst isSecond isThird
  obtain ⟨isLive, unreleased, carried, disabled, isFinished, tags⟩ :=
    of_decide_eq_true (Option.some.inj plays)
  have played := Fragmenter.Played.next (.next (.next .start isFirst) isSecond)
    isThird
  exact ⟨session, packet, begun, walk, after, _,
    ⟨by decide, _, by decide, ran⟩, isLive, unreleased, carried, disabled, isBegun, played, isFinished, tags⟩

end Pool

end PooledPackets
