import PooledPackets.Proofs.Contents.Openings
import PooledPackets.Proofs.Reassembly.Answers
import PooledPackets.Proofs.Requests.Exact

/-!
# Splicing

Where chaining is allowed and the fragments of a whole datagram are all the
pool's own, their segments become one chain. No segment is asked for and no
byte moves. The empty segments go back to the pool, but for one if there is
nothing else; so the chain ends where the payload ends.
-/

namespace PooledPackets

open Operation

namespace Reassembly

/-- Segments parted into those that are kept and those that are spare: the
empty ones, but for the last one where all are empty. -/
inductive Parted (segments : List Segment) :
    (kept spare : List Segment) → Prop
  | filled (some : ∃ segment ∈ segments, segment.isEmpty = false) :
      Parted segments (segments.filter fun segment => !segment.isEmpty)
        (segments.filter Segment.isEmpty)
  | blank {front : List Segment} {last : Segment}
      (all : ∀ segment ∈ segments, segment.isEmpty = true)
      (ends : segments = front ++ [last]) : Parted segments [last] front

theorem sortOut_parted {segments : List Segment} (some : segments ≠ []) :
    Parted segments (sortOut segments).1 (sortOut segments).2 := by
  by_cases filled : ∃ segment ∈ segments, segment.isEmpty = false
  · have notNone : (segments.filter fun segment =>
        !segment.isEmpty).isEmpty = false := by
      obtain ⟨segment, member, isFilled⟩ := filled
      rw [List.isEmpty_eq_false_iff]
      apply List.ne_nil_of_mem
      exact List.mem_filter.mpr ⟨member, by simp [isFilled]⟩
    simp only [sortOut, notNone]
    exact .filled filled
  · have all : ∀ segment ∈ segments, segment.isEmpty = true := by
      intro segment member
      by_contra notEmpty
      exact filled ⟨segment, member, by simpa using notEmpty⟩
    have none : segments.filter (fun segment => !segment.isEmpty) = [] := by
      rw [List.filter_eq_nil_iff]
      exact fun segment member => by simp [all segment member]
    have spare : segments.filter Segment.isEmpty = segments :=
      List.filter_eq_self.mpr all
    obtain ⟨front, last, ends⟩ :=
      (List.eq_nil_or_concat segments).resolve_left some
    rw [List.concat_eq_append] at ends
    have size : segments.length - 1 = front.length := by
      simp [ends]
    simp only [sortOut, none, spare, size, List.isEmpty_nil, if_true]
    rw [ends, List.drop_left, List.take_left]
    exact .blank (ends ▸ all) rfl

namespace Parted

variable {segments kept spare : List Segment}

theorem kept_ne_nil (parted : Parted segments kept spare) : kept ≠ [] := by
  cases parted with
  | filled some =>
      obtain ⟨segment, member, isFilled⟩ := some
      apply List.ne_nil_of_mem
      exact List.mem_filter.mpr ⟨member, by simp [isFilled]⟩
  | blank _ _ => exact List.cons_ne_nil _ _

/-- An empty segment is kept only where nothing else is. -/
theorem filled_or_single (parted : Parted segments kept spare) :
    (∀ segment ∈ kept, segment.length ≠ 0) ∨
      ∃ last : Segment, kept = [last] ∧ last.length = 0 := by
  cases parted with
  | filled _ =>
      left
      intro segment member
      simpa [Segment.isEmpty] using (List.mem_filter.mp member).2
  | @blank front last all ends =>
      refine Or.inr ⟨last, rfl, ?_⟩
      simpa [Segment.isEmpty] using all last (by simp [ends])

end Parted

end Reassembly

/-- Fragments are held in the order of their offsets, all of one datagram. -/
theorem Assembly.Accounted.in_order {assembly : Assembly}
    {datagram holdLimit : Nat}
    (accounted : assembly.Accounted datagram holdLimit) :
    (assembly.fragments.Pairwise fun earlier later =>
        earlier.start < later.start) ∧
      ∀ part ∈ assembly.fragments, ∃ place, part.tag = some place ∧
        place.datagram.toNat = datagram := by
  constructor
  · rw [fragments, Table.values, List.pairwise_map]
    apply List.Pairwise.imp_of_mem ?_ assembly.held.ascending
    intro earlier later isEarlier isLater ordered
    rw [accounted.start_eq isEarlier, accounted.start_eq isLater]
    exact ordered
  · intro part member
    obtain ⟨entry, isHeld, rfl⟩ := List.mem_map.mp member
    obtain ⟨place, tagged, isDatagram, _⟩ := accounted.tagged entry isHeld
    exact ⟨place, tagged, isDatagram⟩

/-! ## Packets made by splicing -/

/-- A packet of a pool that consists of the segments of some fragments, save
those that are spare. -/
structure Packet.Spliced (id : PoolId) (fragments : List Packet)
    (spare : List Segment) (packet : Packet) : Prop where
  parted : Reassembly.Parted (fragments.flatMap Packet.chain) packet.chain
    spare
  pool_eq : packet.pool = id
  tag_eq : packet.tag = none
  spelled : packet.toBytes = Reassembly.spelling fragments
  length_eq : packet.length = packet.toBytes.length

namespace Packet

variable {packet longer : Packet} {id : PoolId} {fragments : List Packet}
variable {segments spare : List Segment} {bytes : Bytes}

/-- Writing goes on in the last segment, since that is where the payload
ends. -/
theorem Sound.writesLast (sound : packet.Sound)
    (parted : Reassembly.Parted segments packet.chain spare) :
    packet.writeIndex + 1 = packet.chain.length := by
  have inside := sound.inside parted.kept_ne_nil
  rcases parted.filled_or_single with filled | ⟨last, single, _⟩
  · refine Nat.le_antisymm inside (Nat.le_of_not_lt fun goesOn => ?_)
    have member : packet.chain[packet.writeIndex + 1] ∈
        packet.chain.drop (packet.writeIndex + 1) := by
      rw [List.drop_eq_getElem_cons goesOn]
      exact List.mem_cons_self ..
    exact filled _ (List.getElem_mem goesOn) (sound.behind _ member)
  · rw [single, List.length_singleton] at inside ⊢
    omega

theorem fill_head {segment : Segment} {rest filled : List Segment}
    {passed : Nat}
    (filling : fill (segment :: rest) bytes = some (filled, passed)) :
    ∃ others, filled = segment.append bytes :: others := by
  simp only [fill] at filling
  split at filling
  · cases filling
    exact ⟨rest, rfl⟩
  · obtain ⟨⟨others, _⟩, _, isFilled⟩ := Option.map_eq_some_iff.mp filling
    cases isFilled
    exact ⟨others, rfl⟩

/-- What is written continues the last segment of the chain, if that is where
writing goes on. -/
theorem write_last {front more : List Segment} {last : Segment}
    (ends : packet.chain = front ++ [last])
    (writesLast : packet.writeIndex + 1 = packet.chain.length)
    (writing : (packet.extend more).write bytes = .ok longer) :
    ∃ rest, longer.chain = front ++ last.append bytes :: rest := by
  have atLast : packet.writeIndex = front.length := by
    simpa [ends] using writesLast
  obtain ⟨_, filled, passed, filling, rfl⟩ := write_eq_ok_iff.mp writing
  simp only [extend, ends, atLast, List.append_assoc, List.drop_left,
    List.take_left] at filling ⊢
  obtain ⟨rest, rfl⟩ := fill_head filling
  exact ⟨rest, rfl⟩

end Packet

/-- An empty segment is kept only for a datagram without payload. -/
theorem Packet.Spliced.length_eq_zero {id : PoolId}
    {fragments : List Packet} {spare : List Segment} {packet : Packet}
    (spliced : packet.Spliced id fragments spare) {segment : Segment}
    (member : segment ∈ packet.chain) (isEmpty : segment.isEmpty = true) :
    packet.length = 0 := by
  have noLength : segment.length = 0 := by
    simpa [Segment.isEmpty] using isEmpty
  rcases spliced.parted.filled_or_single with filled | ⟨last, single, blank⟩
  · exact absurd noLength (filled segment member)
  · rw [spliced.length_eq, toBytes, single]
    simp [chainBytes, blank]

namespace Reassembly

variable {pools : Pools} {id : PoolId}

theorem splice_returns (id : PoolId) (fragments : List Packet)
    (pools : Pools) :
    (splice id fragments pools).Satisfies
      (fun packet after => packet = Packet.ofSegments id
          (sortOut (fragments.flatMap Packet.chain)).1 ∧
        pools.GetsBack (sortOut (fragments.flatMap Packet.chain)).2 after)
      (fun _ _ => False) (fun _ => True) := by
  apply Outcome.Satisfies.bind (Pool.checkIn_returns id
    (sortOut (fragments.flatMap Packet.chain)).2 pools)
  intro _ after regained
  apply (Pool.assemble_exactly id _ after).monoDone
  rintro packet _ ⟨isMade, rfl⟩
  exact ⟨isMade, regained⟩

/-- Fragments that may be linked are linked, whatever the pool has left. -/
theorem join_returns {assembly : Assembly}
    (chains : (pools.get id).config.chaining = true)
    (own : ∀ part ∈ assembly.fragments, part.pool = id) :
    (join id assembly pools).Satisfies
      (fun packet after => packet = Packet.ofSegments id
          (sortOut (assembly.fragments.flatMap Packet.chain)).1 ∧
        pools.GetsBack
          (sortOut (assembly.fragments.flatMap Packet.chain)).2 after)
      (fun _ _ => False) (fun _ => True) := by
  have allSame : assembly.fragments.all (fun part =>
      pools.sameNumber part.pool id) = true := by
    rw [List.all_eq_true]
    exact fun part member => by simp [own part member]
  apply Outcome.Satisfies.namesakes
  apply Outcome.Satisfies.readPool
  simp only [chains, allSame, Bool.and_self, if_true]
  apply Outcome.Satisfies.bind (splice_returns id assembly.fragments pools)
  rintro packet _ ⟨isMade, regained⟩
  exact ⟨isMade, regained.count id _⟩

end Reassembly

theorem Packet.spliced_ofSegments (id : PoolId) {fragments : List Packet}
    (some : fragments.flatMap Packet.chain ≠ []) :
    (ofSegments id (Reassembly.sortOut
      (fragments.flatMap Packet.chain)).1).Spliced id fragments
        (Reassembly.sortOut (fragments.flatMap Packet.chain)).2 where
  parted := Reassembly.sortOut_parted some
  pool_eq := rfl
  tag_eq := rfl
  spelled := by
    rw [← Reassembly.chainBytes_flatMap, ← Reassembly.chainBytes_sortOut]
    rfl
  length_eq := (length_chainBytes _).symm

namespace Reassembler

variable {reassembler : Reassembler} {fragment : Packet} {hand : Hand}
variable {tag : FragmentTag} {now deadline : Nat} {longer : Assembly}
variable {pools : Pools}

/-- Everything that there was is swept away to make room, or part of the whole
datagram, or still held. -/
theorem fragments_perm_of_whole (tagged : fragment.tag = some tag)
    (isWhole : (reassembler.judge fragment now deadline).1 = .whole longer) :
    (reassembler.assemblyFor tag.datagram.toNat deadline).insert tag fragment
        reassembler.limits.holdLimit = .ok longer ∧
      (fragment :: reassembler.fragments).Perm
        (reassembler.evicted tag.datagram.toNat now ++ (longer.fragments ++
          (reassembler.judge fragment now deadline).2.fragments)) := by
  have verdict := reassembler.judged fragment now deadline
  generalize reassembler.judge fragment now deadline = decided
    at verdict isWhole ⊢
  cases verdict with
  | untagged _ => cases isWhole
  | refused _ _ => cases isWhole
  | waiting _ _ _ _ => cases isWhole
  | @whole place _ isTag inserting complete =>
      cases isWhole
      rw [tagged] at isTag
      cases isTag
      have sameAssembly : (reassembler.roomy tag.datagram.toNat
          now).assemblyFor tag.datagram.toNat deadline =
            reassembler.assemblyFor tag.datagram.toNat deadline := by
        rw [assemblyFor, assemblyFor, get?_roomy]
      have roomyParts := (reassembler.roomy tag.datagram.toNat
        now).fragments_perm_assemblyFor tag.datagram.toNat deadline
      rw [sameAssembly] at roomyParts
      refine ⟨inserting, ?_⟩
      have parts := (reassembler.fragments_perm_roomy tag.datagram.toNat
        now).trans (roomyParts.append_left _)
      apply ((parts.cons fragment).trans List.perm_middle.symm).trans
      apply List.Perm.append_left
      exact (Assembly.fragments_of_insert inserting).symm.append_right _

/-- What room is made with comes back first, then what is left over. -/
theorem pushUntil_returns (tagged : fragment.tag = some tag)
    (isWhole : (reassembler.judge fragment now deadline).1 = .whole longer)
    (chains : (pools.get reassembler.pool).config.chaining = true)
    (own : ∀ part ∈ longer.fragments, part.pool = reassembler.pool) :
    (reassembler.pushUntil hand fragment now deadline pools).Satisfies
      (Joins (fun packet after =>
        packet = Packet.ofSegments reassembler.pool (Reassembly.sortOut
          (longer.fragments.flatMap Packet.chain)).1 ∧
        pools.GetsBack ((reassembler.evicted tag.datagram.toNat now).flatMap
          Packet.chain ++ (Reassembly.sortOut
            (longer.fragments.flatMap Packet.chain)).2) after)
        (fun _ _ => False))
      (fun _ _ => False) (fun _ => True) := by
  apply pushUntil_of_whole tagged isWhole
  intro between regained
  have mayChain : (between.get reassembler.pool).config.chaining = true := by
    rw [regained.config_eq, chains]
  apply (Reassembly.join_returns mayChain own).monoDone
  rintro packet after ⟨isMade, more⟩
  exact ⟨isMade, regained.trans more⟩

/-- A push that makes a datagram whole whose fragments can be linked delivers
them linked. Only segments that come back change the queues of the pools. -/
theorem push_returns {origin : Pools} {others : List Packet}
    (consistent : pools.Consistent origin .never
      (fragment :: (reassembler.fragments ++ others)))
    (held : longer.fragments.flatMap Packet.chain ≠ [])
    (reading : reassembler.limits.timeout.after? now = some deadline)
    (tagged : fragment.tag = some tag)
    (isWhole : (reassembler.judge fragment now deadline).1 = .whole longer)
    (chains : (pools.get reassembler.pool).config.chaining = true)
    (own : ∀ part ∈ longer.fragments, part.pool = reassembler.pool) :
    ∃ packet spare after,
      reassembler.push fragment now pools =
        .done (.ok (some packet),
          (reassembler.judge fragment now deadline).2) after ∧
      packet.Spliced reassembler.pool longer.fragments spare ∧
      pools.Regains ((reassembler.evicted tag.datagram.toNat now).flatMap
        Packet.chain ++ spare) after := by
  have answering : (reassembler.pushUntil (fun _ => []) fragment now
      deadline pools).Satisfies _ _ _ :=
    consistent.pushUntil_satisfies (fun _ _ => by simp)
  obtain ⟨⟨answer, changed⟩, after, isDone, ⟨answers, _⟩, joined⟩ :=
    ((answering.and (pushUntil_returns tagged isWhole chains own)).mono
      (fun _ _ known => known) (fun _ _ known => known.1)
      (fun _ impossible => impossible)).exists_done
  match answer with
  | .ok (some packet) =>
      obtain ⟨rfl, regained⟩ := joined
      refine ⟨_, _, after, ?_, Packet.spliced_ofSegments _ held,
        regained.regains consistent.balanced.distinct⟩
      rw [push_eq reading, isDone, ← answers.state_eq]
  | .ok none => exact joined.elim
  | .error error => exact joined.elim

end Reassembler

namespace Session

variable {configs : List Config} {session : Session}
variable {reassembler : Reassembler} {fragment packet : Packet}
variable {index slot now deadline : Nat} {longer : Assembly}

/-- What is appended to a spliced packet stands right behind its payload, in
its last segment as far as that has room. -/
theorem Reached.append_spliced {id : PoolId} {fragments : List Packet}
    {spare : List Segment} (reached : session.Reached configs)
    (isLive : packet ∈ session.live)
    (spliced : packet.Spliced id fragments spare) {bytes : Bytes}
    (spared : (session.pools.get packet.pool).Spares
      (packet.missing (session.pools.get packet.pool).layout bytes.length)) :
    ∃ front last rest grown after, packet.chain = front ++ [last] ∧
      packet.append bytes session.pools = .done grown after ∧
      grown.toBytes = packet.toBytes ++ bytes ∧
      grown.chain = front ++ last.append bytes :: rest := by
  have consistent := reached.consistent isLive
  have sound : packet.Sound := consistent.kept packet (List.mem_cons_self ..)
  have held := spliced.parted.kept_ne_nil
  obtain ⟨front, last, ends⟩ :=
    (List.eq_nil_or_concat packet.chain).resolve_left held
  rw [List.concat_eq_append] at ends
  obtain ⟨grown, after, appended, _, isGrown, writing, _⟩ :=
    consistent.append_of_spared held spared
  obtain ⟨rest, continued⟩ :=
    Packet.write_last ends (sound.writesLast spliced.parted) writing
  exact ⟨front, last, rest, grown, after, ends, appended,
    isGrown.spelled rfl, continued⟩

/-- A push that delivers a packet files it. -/
theorem Reached.step_push_of_delivered (reached : session.Reached configs)
    {target : Nat}
    (isFree : session.lends (.push index slot now target) = false)
    (found : session.reassemblers.get? index = some reassembler)
    (isFragment : session.packets.get? slot = some fragment)
    (reading : reassembler.limits.timeout.after? now = some deadline)
    {changed : Reassembler} {after : Pools}
    (pushed : reassembler.push fragment now session.pools =
      .done (.ok (some packet), changed) after) :
    ∃ later, session.step (.push index slot now target) =
        .ok (.pushed (fragment.tag.map FragmentTag.datagram)
          (.ok (some packet)), later) ∧
      later.Reached configs ∧ packet ∈ later.live := by
  obtain ⟨⟨reply, later⟩, stepped⟩ :=
    push_answers reached.owns isFree found isFragment reading
  have effect := push_steps.of_ok stepped
  cases effect with
  | idle absent _ => simp [found, isFragment, isFree] at absent
  | answered isReassembler isPacket answered =>
      rw [found] at isReassembler
      cases isReassembler
      rw [isFragment] at isPacket
      cases isPacket
      rw [pushed] at answered
      cases answered
      refine ⟨_, stepped, reached.step rfl stepped, ?_⟩
      exact (live_filed_perm _ target packet).mem_iff.mpr
        (List.mem_cons_self ..)

/-- Where chaining is allowed, a push that makes a datagram whole whose
fragments are all of the reassembler's pool delivers their segments with
payload as one chain, in the order of the fragments and whatever the pool has
left. Only segments that come back change the queues of the pools: those of
datagrams that were late, then the empty ones. Payload can be appended to the
packet right behind that of the datagram. -/
theorem Reached.push_splices (reached : session.Reached configs)
    (found : session.reassemblers.get? index = some reassembler)
    (isFragment : session.packets.get? slot = some fragment)
    (reading : reassembler.limits.timeout.after? now = some deadline)
    (isWhole : (reassembler.judge fragment now deadline).1 = .whole longer)
    (chains : (session.pools.get reassembler.pool).config.chaining = true)
    (own : ∀ part ∈ longer.fragments, part.pool = reassembler.pool) :
    ∃ tag packet spare changed after,
      reassembler.push fragment now session.pools =
        .done (.ok (some packet), changed) after ∧
      fragment.tag = some tag ∧
      (fragment :: reassembler.fragments).Perm
        (reassembler.evicted tag.datagram.toNat now ++
          (longer.fragments ++ changed.fragments)) ∧
      (longer.fragments.Pairwise fun earlier later =>
        earlier.start < later.start) ∧
      (∀ part ∈ longer.fragments, ∃ place, part.tag = some place ∧
        place.datagram = tag.datagram) ∧
      packet.Spliced reassembler.pool longer.fragments spare ∧
      packet.chain ≠ [] ∧
      (∀ segment ∈ packet.chain, segment.isEmpty = true →
        packet.length = 0) ∧
      session.pools.Regains ((reassembler.evicted tag.datagram.toNat
        now).flatMap Packet.chain ++ spare) after ∧
      (∀ target, session.lends (.push index slot now target) = false →
        ∃ later, session.step (.push index slot now target) =
            .ok (.pushed (some tag.datagram) (.ok (some packet)), later) ∧
          later.Reached configs ∧ packet ∈ later.live) ∧
      ∀ later : Session, later.Reached configs → packet ∈ later.live →
        ∀ bytes, (later.pools.get packet.pool).Spares
            (packet.missing (later.pools.get packet.pool).layout
              bytes.length) →
          ∃ front last rest grown final, packet.chain = front ++ [last] ∧
            packet.append bytes later.pools = .done grown final ∧
            grown.toBytes = packet.toBytes ++ bytes ∧
            grown.chain = front ++ last.append bytes :: rest := by
  obtain ⟨tag, tagged⟩ : ∃ tag, fragment.tag = some tag := by
    cases tagged : fragment.tag with
    | none => simp [Reassembler.judge, tagged] at isWhole
    | some tag => exact ⟨tag, rfl⟩
  obtain ⟨inserting, parts⟩ :=
    Reassembler.fragments_perm_of_whole tagged isWhole
  have accounted := ((reached.accounted index reassembler
    found).2.assemblyFor tag.datagram.toNat deadline).insert tagged rfl
      inserting
  obtain ⟨ordered, ofDatagram⟩ := accounted.in_order
  have handed := reached.owns.handed found isFragment
  -- The fragment pushed is one of those joined, and it has segments.
  have held : longer.fragments.flatMap Packet.chain ≠ [] := by
    have isPart : fragment ∈ longer.fragments :=
      (Assembly.fragments_of_insert inserting).mem_iff.mpr
        (List.mem_cons_self ..)
    have isLive : fragment ∈ session.live :=
      (live_perm_of_packet isFragment).mem_iff.mpr (List.mem_cons_self ..)
    intro nothing
    exact reached.solid fragment isLive tag tagged
      (List.flatMap_eq_nil_iff.mp nothing fragment isPart)
  obtain ⟨packet, spare, after, pushed, spliced, regained⟩ :=
    Reassembler.push_returns handed held reading tagged isWhole chains own
  refine ⟨tag, packet, spare, _, after, pushed, tagged, parts, ordered, ?_,
    spliced, spliced.parted.kept_ne_nil,
    fun _ member isEmpty => spliced.length_eq_zero member isEmpty, regained,
    ?_, ?_⟩
  · intro part member
    obtain ⟨place, isPlace, isDatagram⟩ := ofDatagram part member
    exact ⟨place, isPlace, UInt32.toNat_inj.mp isDatagram⟩
  · intro target isFree
    have delivered := reached.step_push_of_delivered isFree found isFragment
      reading pushed
    rw [tagged] at delivered
    exact delivered
  · intro later isReached isLive bytes spared
    exact isReached.append_spliced isLive spliced spared

/-- The last fragment of a datagram, without payload, has arrived before the
first one. All segments of the pool are out, and one of them comes back. -/
theorem push_splices_of_two :
    let config : Config :=
      { segmentCapacity := 4, segmentCount := 3, headerReserve := 0 }
    ∃ (session : Session) (reassembler changed : Reassembler)
      (fragment packet : Packet) (longer : Assembly) (deadline : Nat)
      (spare : List Segment) (after : Pools),
      session.Reached [config] ∧
      session.reassemblers.get? 0 = some reassembler ∧
      session.packets.get? 1 = some fragment ∧
      reassembler.limits.timeout.after? 5 = some deadline ∧
      (reassembler.judge fragment 5 deadline).1 = .whole longer ∧
      (session.pools.get reassembler.pool).config.chaining = true ∧
      (∀ part ∈ longer.fragments, part.pool = reassembler.pool) ∧
      (session.pools.get reassembler.pool).free = [] ∧
      reassembler.push fragment 5 session.pools =
        .done (.ok (some packet), changed) after ∧
      packet.Spliced reassembler.pool longer.fragments spare ∧
      packet.toBytes = [1, 2, 3, 4, 5, 6] ∧
      packet.chain.map Segment.id = [1, 2] ∧
      spare.map Segment.id = [0] := by
  intro config
  have plays : (do
      let session ← ((start (Pools.ofConfigs [config])).runAll
        [.newPool, .newReassembler 0 0 [],
          .receive 0 (.made ⟨7, 6, false⟩ []) 0,
          .receive 0 (.made ⟨7, 0, true⟩ [1, 2, 3, 4, 5, 6]) 1,
          .push 0 0 3 0]).toOption
      let reassembler ← session.reassemblers.get? 0
      let fragment ← session.packets.get? 1
      let deadline ← reassembler.limits.timeout.after? 5
      let longer ← (reassembler.judge fragment 5 deadline).1.whole?
      let segments := longer.fragments.flatMap Packet.chain
      pure (decide (
        (session.pools.get reassembler.pool).config.chaining = true ∧
        (∀ part ∈ longer.fragments, part.pool = reassembler.pool) ∧
        (session.pools.get reassembler.pool).free = [] ∧
        Reassembly.spelling longer.fragments = [1, 2, 3, 4, 5, 6] ∧
        (segments.filter fun segment => !segment.isEmpty).map
          Segment.id = [1, 2] ∧
        (segments.filter Segment.isEmpty).map Segment.id = [0]))) =
      some true := by
    decide +kernel
  obtain ⟨session, ran, plays⟩ := Option.bind_eq_some_iff.mp plays
  obtain ⟨reassembler, found, plays⟩ := Option.bind_eq_some_iff.mp plays
  obtain ⟨fragment, isFragment, plays⟩ := Option.bind_eq_some_iff.mp plays
  obtain ⟨deadline, reading, plays⟩ := Option.bind_eq_some_iff.mp plays
  obtain ⟨longer, isWhole, plays⟩ := Option.bind_eq_some_iff.mp plays
  rw [toOption_eq_some_iff] at ran
  rw [Reassembler.Decision.whole?_eq_some_iff] at isWhole
  have reached : session.Reached [config] := ⟨by decide, _, by decide, ran⟩
  obtain ⟨chains, own, noneFree, spelled, filled, empty⟩ :=
    of_decide_eq_true (Option.some.inj plays)
  obtain ⟨_, packet, spare, changed, after, pushed, _, _, _, _, spliced,
    _⟩ := reached.push_splices found isFragment reading isWhole chains own
  refine ⟨session, reassembler, changed, fragment, packet, longer, deadline,
    spare, after, reached, found, isFragment, reading, isWhole, chains, own,
    noneFree, pushed, spliced, spliced.spelled.trans spelled, ?_⟩
  have parted := spliced.parted
  generalize packet.chain = kept at parted ⊢
  cases parted with
  | filled _ => exact ⟨filled, empty⟩
  | blank all _ =>
      have nothing : (longer.fragments.flatMap Packet.chain).filter
          (fun segment => !segment.isEmpty) = [] := by
        rw [List.filter_eq_nil_iff]
        exact fun segment member => by simp [all segment member]
      rw [nothing] at filled
      cases filled

end Session

end PooledPackets
