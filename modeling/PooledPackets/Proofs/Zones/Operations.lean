import PooledPackets.Fragment.Fragmenter
import PooledPackets.Proofs.Ownership.Joining
import PooledPackets.Proofs.Reassembly.Insertion

/-!
# Segments on their way through an operation

Segments move between queues and chains. What holds of all of them before an
operation holds afterwards as well if emptying a segment keeps it and, where
payload is written, filling a segment does.
-/

namespace PooledPackets

open Operation

/-! ## What is kept -/

/-- Something to be kept of every segment, and which pools chain segments. -/
structure Custody where
  kept : Segment → Prop
  chains : PoolId → Bool

namespace Custody

/-- Emptying a segment keeps what is to be kept of it. -/
def Clears (custody : Custody) : Prop :=
  ∀ segment, custody.kept segment → custody.kept segment.clear

/-- Filling a segment keeps what is to be kept of it. -/
def Fills (custody : Custody) : Prop :=
  ∀ segment bytes, custody.kept segment →
    custody.kept (segment.append bytes)

/-- All segments of a chain are as they are to be. -/
def Covers (custody : Custody) (chain : List Segment) : Prop :=
  ∀ segment ∈ chain, custody.kept segment

def Includes (custody : Custody) (packet : Packet) : Prop :=
  custody.Covers packet.chain

/-- The free segments of a pool are as they are to be. -/
structure Stocks (custody : Custody) (id : PoolId) (pool : Pool) :
    Prop where
  free : custody.Covers pool.free
  chaining_eq : pool.config.chaining = custody.chains id

def Supplies (custody : Custody) (pools : Pools) : Prop :=
  ∀ id, custody.Stocks id (pools.get id)

variable {custody : Custody} {pools after : Pools} {id : PoolId}

theorem Covers.append {front back : List Segment}
    (first : custody.Covers front) (second : custody.Covers back) :
    custody.Covers (front ++ back) := by
  intro segment member
  rcases List.mem_append.mp member with isFront | isBack
  · exact first segment isFront
  · exact second segment isBack

theorem Covers.flatMap_chain {packets : List Packet}
    (includes : ∀ packet ∈ packets, custody.Includes packet) :
    custody.Covers (packets.flatMap Packet.chain) := by
  intro segment member
  obtain ⟨packet, isPacket, inChain⟩ := List.mem_flatMap.mp member
  exact includes packet isPacket segment inChain

theorem Supplies.set (supplies : custody.Supplies pools) {pool : Pool}
    (stocks : custody.Stocks id pool) :
    custody.Supplies (pools.set id pool) := by
  intro other
  rw [Pools.get_set]
  split
  · rename_i isId
    rw [isId]
    exact stocks
  · exact supplies other

/-- What comes back to a pool is emptied. -/
theorem Supplies.regained (supplies : custody.Supplies pools)
    (clears : custody.Clears) {segments : List Segment}
    (covers : custody.Covers segments)
    (regained : pools.GetsBack segments after) : custody.Supplies after := by
  intro id
  constructor
  · intro segment member
    rcases regained.free_from id segment member with wasFree |
      ⟨source, isBack, rfl⟩
    · exact (supplies id).free segment wasFree
    · exact clears source (covers source isBack)
  · rw [regained.config_eq]
    exact (supplies id).chaining_eq

end Custody

/-! ## Operations that keep it -/

variable {α β : Type}

/-- Whatever an operation comes to, the free segments stay as they are to be,
and so is what it makes. -/
def Operation.Carries (custody : Custody) (operation : Operation α)
    (made : α → Prop) : Prop :=
  ∀ pools, custody.Supplies pools → (operation pools).Satisfies
    (fun value after => made value ∧ custody.Supplies after)
    (fun _ after => custody.Supplies after) (fun _ => True)

namespace Operation.Carries

variable {custody : Custody} {operation : Operation α}
variable {next : α → Operation β} {made : α → Prop} {makes : β → Prop}
variable {id : PoolId}

theorem pure {value : α} (holds : made value) :
    Carries custody (Pure.pure value) made :=
  fun _ supplies => ⟨holds, supplies⟩

theorem fail (error : BufferError) :
    Carries custody (Operation.fail error) made :=
  fun _ supplies => supplies

theorem halt (stop : Stop) : Carries custody (Operation.halt stop) made :=
  fun _ _ => trivial

theorem violated (id : PoolId) (violation : Violation) :
    Carries custody (Operation.violated id violation) made :=
  fun _ _ => trivial

theorem bind (first : operation.Carries custody made)
    (second : ∀ value, made value → (next value).Carries custody makes) :
    (operation >>= next).Carries custody makes :=
  fun pools supplies => (first pools supplies).bind
    fun value after holds => second value holds.1 after holds.2

theorem ite {condition : Prop} [Decidable condition]
    {yes no : Operation α}
    (ifTrue : condition → yes.Carries custody made)
    (ifFalse : ¬condition → no.Carries custody made) :
    Carries custody (if condition then yes else no) made :=
  fun pools supplies => Outcome.Satisfies.ite
    (fun holds => ifTrue holds pools supplies)
    (fun holds => ifFalse holds pools supplies)

theorem readPool {next : Pool → Operation α}
    (goesOn : ∀ pool, custody.Stocks id pool →
      (next pool).Carries custody made) :
    (Operation.readPool id >>= next).Carries custody made :=
  fun pools supplies => goesOn (pools.get id) (supplies id) pools supplies

theorem namesakes {next : (PoolId → Bool) → Operation α}
    (goesOn : ∀ same : PoolId → Bool, same id = true →
      (next same).Carries custody made) :
    (Operation.namesakes id >>= next).Carries custody made :=
  fun pools supplies => goesOn (fun other => pools.sameNumber other id)
    (pools.sameNumber_self id) pools supplies

theorem ofExcept {result : Except BufferError α}
    (goesOn : ∀ value, (next value).Carries custody makes) :
    (Operation.ofExcept result >>= next).Carries custody makes := by
  cases result with
  | error error => exact .fail error
  | ok value => exact goesOn value

theorem changing {change : Pool → Pool}
    (stocks : ∀ pool, custody.Stocks id pool →
      custody.Stocks id (change pool)) :
    (changePool id change).Carries custody (fun _ => True) :=
  fun pools supplies =>
    ⟨trivial, supplies.set (stocks (pools.get id) (supplies id))⟩

theorem count (id : PoolId) (change : Counters → Counters) :
    (Operation.count id change).Carries custody (fun _ => True) :=
  .changing fun _ stocks => ⟨stocks.free, stocks.chaining_eq⟩

theorem attempt (carries : operation.Carries custody made) :
    (Operation.attempt operation).Carries custody
      (fun result => ∀ value, result = .ok value → made value) := by
  intro pools supplies
  apply (carries pools supplies).attempt.monoDone ?_ |>.neverRefused
  intro result after holds
  cases result with
  | error error => exact ⟨fun _ impossible => (by cases impossible), holds⟩
  | ok value =>
      refine ⟨?_, holds.2⟩
      rintro _ ⟨⟩
      exact holds.1

theorem onFailure {cleanup : Operation PUnit.{1}}
    (carries : operation.Carries custody made)
    (cleans : cleanup.Carries custody (fun _ => True)) :
    (Operation.onFailure operation cleanup).Carries custody made :=
  fun pools supplies => (carries pools supplies).onFailure
    fun _ after supplied => (cleans after supplied).mono
      (fun _ _ holds => holds.2) (fun _ _ holds => holds)
      (fun _ _ => trivial)

theorem holding (packets : List Packet)
    (carries : operation.Carries custody made) :
    (Operation.holding packets operation).Carries custody made :=
  fun pools supplies => (carries pools supplies).holding
    fun _ _ _ => trivial

/-- What else is known of what an operation makes. -/
theorem knowing {known : α → Prop}
    (carries : operation.Carries custody made)
    (knows : ∀ pools, (operation pools).Satisfies
      (fun value _ => known value) (fun _ _ => False) (fun _ => True)) :
    operation.Carries custody (fun value => made value ∧ known value) :=
  fun pools supplies =>
    ((carries pools supplies).and (knows pools).neverRefused).mono
      (fun _ _ both => ⟨⟨both.1.1, both.2⟩, both.1.2⟩)
      (fun _ _ (both : _ ∧ True) => both.1) (fun _ _ => trivial)

/-- An operation that only gives segments back. -/
theorem of_returns {segments : List Segment}
    (returns : ∀ pools, (operation pools).Satisfies
      (fun value after => made value ∧ pools.GetsBack segments after)
      (fun _ _ => False) (fun _ => True))
    (clears : custody.Clears) (covers : custody.Covers segments) :
    operation.Carries custody made :=
  fun pools supplies => ((returns pools).monoDone
    fun _ _ known =>
      ⟨known.1, supplies.regained clears covers known.2⟩).neverRefused

end Operation.Carries

open Operation.Carries

variable {custody : Custody}

/-! ## Packets -/

theorem Pool.checkOut_carries (id : PoolId) (count : Nat) :
    (checkOut id count).Carries custody custody.Covers := by
  apply Carries.readPool
  intro pool stocks
  refine .ite (fun _ => ?_) fun _ => ?_
  · exact (Carries.count id _).bind fun _ _ => .fail _
  · refine .bind (.changing fun _ _ => ⟨?_, stocks.chaining_eq⟩)
      fun _ _ => .pure ?_
    · exact fun segment member =>
        stocks.free segment (List.mem_of_mem_drop member)
    · exact fun segment member =>
        stocks.free segment (List.mem_of_mem_take member)

namespace Packet

variable {packet : Packet}

theorem drop_carries (clears : custody.Clears)
    (includes : custody.Includes packet) :
    packet.drop.Carries custody (fun _ => True) :=
  .of_returns (fun pools => (packet.drop_returns pools).monoDone
    fun _ _ regained => ⟨trivial, regained⟩) clears includes

theorem dropAll_carries (clears : custody.Clears) {packets : List Packet}
    (includes : ∀ packet ∈ packets, custody.Includes packet) :
    (dropAll packets).Carries custody (fun _ => True) :=
  .of_returns (fun pools => (dropAll_returns packets pools).monoDone
    fun _ _ regained => ⟨trivial, regained⟩) clears
      (.flatMap_chain includes)

theorem release_carries (clears : custody.Clears)
    (includes : custody.Includes packet) :
    packet.release.Carries custody custody.Includes := by
  refine .ite (fun _ => ?_) fun _ => ?_
  · exact (Carries.count _ _).bind fun _ _ => .fail _
  · have gives : packet.giveBack.Carries custody (fun _ => True) :=
      .of_returns (fun pools => (packet.giveBack_returns pools).monoDone
        fun _ _ regained => ⟨trivial, regained⟩) clears includes
    exact gives.bind fun _ _ => .pure (List.forall_mem_nil _)

theorem check_carries (packet : Packet) :
    packet.check.Carries custody (fun _ => True) := by
  apply Carries.readPool
  intro pool _
  refine .ite (fun _ => ?_) fun _ => .pure trivial
  cases packet.disagreement? pool.layout.maxPayload with
  | none => exact .pure trivial
  | some violation => exact .violated _ violation

theorem assemble_carries (id : PoolId) {segments : List Segment}
    (covers : custody.Covers segments) :
    (assemble id segments).Carries custody custody.Includes :=
  (Carries.holding _ (check_carries _)).bind fun _ _ => .pure covers

/-! ## Adding bytes -/

theorem makeRoom_carries (includes : custody.Includes packet)
    (count : Nat) :
    (packet.makeRoom count).Carries custody custody.Includes := by
  refine .ite (fun _ => .pure includes) fun _ => .readPool fun _ _ => ?_
  refine .ite (fun _ => ?_) fun _ => ?_
  · apply (Pool.checkOut_carries _ _).bind
    exact fun _ covers => .pure (includes.append covers)
  · exact (Carries.count _ _).bind fun _ _ => .fail _

theorem covers_of_fill (fills : custody.Fills) :
    ∀ {chain filled : List Segment} {bytes : Bytes} {passed : Nat},
      custody.Covers chain → fill chain bytes = some (filled, passed) →
        custody.Covers filled
  | [], _, _, _, _, filling => by cases filling
  | segment :: rest, _, bytes, _, covers, filling => by
      obtain ⟨isKept, coversRest⟩ := List.forall_mem_cons.mp covers
      simp only [fill] at filling
      split at filling
      · cases filling
        exact List.forall_mem_cons.mpr ⟨fills _ bytes isKept, coversRest⟩
      · obtain ⟨⟨others, _⟩, filledRest, same⟩ :=
          Option.map_eq_some_iff.mp filling
        cases same
        exact List.forall_mem_cons.mpr
          ⟨fills _ bytes isKept, covers_of_fill fills coversRest filledRest⟩

theorem includes_of_write (fills : custody.Fills)
    (includes : custody.Includes packet) {bytes : Bytes} {longer : Packet}
    (writing : packet.write bytes = .ok longer) :
    custody.Includes longer := by
  simp only [write] at writing
  split at writing
  · cases writing
  · split at writing
    · cases writing
    · rename_i filled _ filling
      cases writing
      have front : custody.Covers (packet.chain.take packet.writeIndex) :=
        fun segment member =>
          includes segment (List.mem_of_mem_take member)
      apply front.append
      apply covers_of_fill fills ?_ filling
      exact fun segment member =>
        includes segment (List.mem_of_mem_drop member)

theorem append_carries (fills : custody.Fills)
    (includes : custody.Includes packet) (bytes : Bytes) :
    (packet.append bytes).Carries custody custody.Includes := by
  refine .ite (fun _ => .fail _) fun _ => ?_
  refine .ite (fun _ => .pure includes) fun _ => ?_
  apply (makeRoom_carries includes bytes.length).bind
  intro roomy includesRoomy
  cases writing : roomy.write bytes with
  | error violation => exact .violated _ violation
  | ok written =>
      exact written.check_carries.bind fun _ _ =>
        .pure (includes_of_write fills includesRoomy writing)

theorem appendAll_carries (clears : custody.Clears) (fills : custody.Fills)
    {inHand : Packet → List Packet}
    (hands : ∀ packet, custody.Includes packet →
      ∀ other ∈ inHand packet, custody.Includes other) :
    ∀ (pieces : List Bytes) {packet : Packet}, custody.Includes packet →
      (packet.appendAll inHand pieces).Carries custody custody.Includes
  | [], _, includes => .pure includes
  | bytes :: rest, packet, includes => by
      refine .bind (.onFailure (.holding _
        (append_carries fills includes bytes))
          (dropAll_carries clears (hands packet includes))) ?_
      exact fun longer includesLonger =>
        appendAll_carries clears fills hands rest includesLonger

end Packet

/-! ## Making packets -/

namespace Pool

theorem allocate_carries (id : PoolId) (len : Nat) :
    (allocate id len).Carries custody custody.Includes := by
  refine .readPool fun _ _ => .ite (fun _ => ?_) fun _ => ?_
  · exact (Carries.count id _).bind fun _ _ => .fail _
  · apply (checkOut_carries id _).bind
    intro segments covers
    exact (Carries.count id _).bind fun _ _ =>
      Packet.assemble_carries id covers

variable (clears : custody.Clears) (fills : custody.Fills)
include clears fills

theorem allocateWith_carries (id : PoolId) (len : Nat)
    (pieces : List Bytes) :
    (allocateWith id len pieces).Carries custody custody.Includes := by
  apply (allocate_carries id len).bind
  intro packet includes
  apply Packet.appendAll_carries clears fills ?_ pieces includes
  intro packet includes other member
  rw [List.mem_singleton.mp member]
  exact includes

theorem copyPacket_carries (id : PoolId) (packet : Packet) :
    (copyPacket id packet).Carries custody custody.Includes := by
  refine .ite (fun _ => .fail _) fun _ => ?_
  exact (allocateWith_carries clears fills id _ _).bind
    fun _ includes => .pure includes

theorem receiveFrame_carries (id : PoolId) (frame : Bytes) :
    (receiveFrame id frame).Carries custody custody.Includes := by
  refine .readPool fun _ _ => .ofExcept fun header => ?_
  exact (allocateWith_carries clears fills id _ _).bind
    fun _ includes => .pure includes

end Pool

/-! ## Splitting packets -/

theorem Pool.fragmentForLink_carries (id : PoolId) {packet : Packet}
    (includes : custody.Includes packet) (mtu : Nat) :
    (fragmentForLink id packet mtu).Carries custody
      (fun fragmenter => custody.Includes fragmenter.source) := by
  refine .ite (fun _ => .fail _) fun _ => .ite (fun _ => .fail _) fun _ => ?_
  refine .readPool fun _ _ => .ite (fun _ => .fail _) fun _ => ?_
  refine .bind (.changing fun _ stocks => ?_) fun _ _ => .pure includes
  exact ⟨stocks.free, stocks.chaining_eq⟩

namespace Fragmenter

variable (clears : custody.Clears) (fills : custody.Fills)
variable (fragmenter : Fragmenter)
include clears fills

theorem build_carries (len : Nat) :
    (fragmenter.build len).Carries custody custody.Includes := by
  unfold Operation.Carries build
  cases fragmenter.source.slices? fragmenter.offset len with
  | none =>
      exact (Pool.allocate_carries fragmenter.pool len).bind
        fun _ _ => .halt _
  | some pieces =>
      exact (Pool.allocateWith_carries clears fills fragmenter.pool len
        pieces).bind fun _ includes => .pure includes

/-- The fragment that is made, if one is, and the packet that is split. -/
theorem next_carries (includes : custody.Includes fragmenter.source) :
    fragmenter.next.Carries custody (fun result =>
      (∀ fragment, result.1 = some (.ok fragment) →
        custody.Includes fragment) ∧
      custody.Includes result.2.source) := by
  refine .ite (fun _ => .pure ⟨by simp, includes⟩) fun _ => ?_
  apply (build_carries clears fills fragmenter _).attempt.bind
  intro result isMade
  cases result with
  | error error => exact .pure ⟨by simp, includes⟩
  | ok fragment =>
      refine (Carries.count _ _).bind fun _ _ => .pure ⟨?_, includes⟩
      rintro _ ⟨⟩
      exact isMade fragment rfl

end Fragmenter

/-! ## Joining -/

namespace Reassembly

theorem splice_carries (clears : custody.Clears) (id : PoolId)
    {fragments : List Packet}
    (includes : ∀ fragment ∈ fragments, custody.Includes fragment) :
    (splice id fragments).Carries custody custody.Includes := by
  have covers := Custody.Covers.flatMap_chain includes
  have sorted := sortOut_perm (fragments.flatMap Packet.chain)
  have gives : (Pool.checkIn id (Returned.unlinked
      (sortOut (fragments.flatMap Packet.chain)).2)).Carries custody
        (fun _ => True) := by
    refine .of_returns (fun pools => (Pool.checkIn_returns id _
      pools).monoDone fun _ _ regained => ⟨trivial, regained⟩) clears ?_
    exact fun segment member => covers segment
      (sorted.mem_iff.mp (List.mem_append_right _ member))
  refine gives.bind fun _ _ => Packet.assemble_carries id ?_
  exact fun segment member => covers segment
    (sorted.mem_iff.mp (List.mem_append_left _ member))

variable (clears : custody.Clears) (fills : custody.Fills)

include clears fills in
theorem copyInto_carries :
    ∀ {fragments : List Packet} {packet : Packet},
      (∀ fragment ∈ fragments, custody.Includes fragment) →
      custody.Includes packet →
      (copyInto packet fragments).Carries custody custody.Includes
  | [], _, _, includes => .pure includes
  | fragment :: rest, packet, all, includes => by
      obtain ⟨isIncluded, others⟩ := List.forall_mem_cons.mp all
      refine .bind (Packet.appendAll_carries clears fills ?_ _ includes) ?_
      · intro packet includes other member
        rcases List.mem_append.mp member with isFragment | isPacket
        · exact all other isFragment
        · rw [List.mem_singleton.mp isPacket]
          exact includes
      · intro longer includesLonger
        refine .bind (.holding _ (Packet.drop_carries clears isIncluded))
          fun _ _ => ?_
        exact copyInto_carries others includesLonger

include clears fills in
theorem copy_carries (id : PoolId) (total : Nat) (own : Bool)
    {fragments : List Packet}
    (all : ∀ fragment ∈ fragments, custody.Includes fragment) :
    (copy id total own fragments).Carries custody custody.Includes := by
  cases fragments with
  | nil => exact Pool.allocate_carries id 0
  | cons first rest =>
      obtain ⟨isIncluded, others⟩ := List.forall_mem_cons.mp all
      refine .ite (fun _ => copyInto_carries clears fills others isIncluded)
        fun _ => ?_
      refine .bind (.onFailure (Pool.allocate_carries id total)
        (Packet.dropAll_carries clears all)) fun packet includes => ?_
      refine .bind (Packet.appendAll_carries clears fills ?_ _ includes) ?_
      · exact fun packet includes =>
          List.forall_mem_cons.mpr ⟨includes, all⟩
      · intro filled includesFilled
        refine .bind (.holding _ (Packet.drop_carries clears isIncluded))
          fun _ _ => ?_
        exact copyInto_carries clears fills others includesFilled

include clears in
/-- Payload is copied only where segments cannot be linked. -/
theorem join_carries {id : PoolId} {assembly : Assembly}
    (copies : ¬(custody.chains id = true ∧
      ∀ part ∈ assembly.fragments, part.pool = id) → custody.Fills)
    (all : ∀ part ∈ assembly.fragments, custody.Includes part) :
    (join id assembly).Carries custody custody.Includes := by
  apply Carries.namesakes
  intro same isSame
  apply Carries.readPool
  intro pool stocks
  have counts : ∀ packet, custody.Includes packet → (do
      Operation.count id fun counters =>
        { counters with reassembled := counters.reassembled + 1 }
      pure packet).Carries custody custody.Includes :=
    fun _ includes => (Carries.count id _).bind fun _ _ => .pure includes
  refine .ite (fun _ => ?_) fun unlinked => ?_
  · exact (splice_carries clears id all).bind counts
  · have fills : custody.Fills := by
      apply copies
      rintro ⟨chains, own⟩
      apply unlinked
      rw [Bool.and_eq_true, List.all_eq_true]
      exact ⟨stocks.chaining_eq.trans chains,
        fun part member => by rw [own part member, isSame]⟩
    exact (copy_carries clears fills id _ _ all).bind counts

end Reassembly

/-! ## Accepting fragments -/

namespace Reassembler

variable {reassembler : Reassembler} {fragment : Packet}

theorem expire_carries (clears : custody.Clears)
    (all : ∀ held ∈ reassembler.fragments, custody.Includes held)
    (now : Nat) :
    (reassembler.expire now).Carries custody (fun result =>
      result = (reassembler.late now, reassembler.swept now)) := by
  apply Carries.of_returns (fun pools => reassembler.expire_returns now)
    clears (.flatMap_chain fun held member => all held ?_)
  exact (reassembler.fragments_perm_swept now).mem_iff.mpr
    (List.mem_append_left _ member)

theorem clear_carries {choices : List Nat} (clears : custody.Clears)
    (all : ∀ held ∈ reassembler.fragments, custody.Includes held) :
    (reassembler.clear choices).Carries custody (fun result =>
      result = reassembler.cleared) := by
  refine .bind (.of_returns (fun pools =>
    (dropDatagrams_returns _ pools).monoDone
      fun _ _ regained => ⟨trivial, regained⟩) clears
        (.flatMap_chain fun held member => all held ?_))
        fun _ _ => .pure rfl
  exact (reassembler.fragments_arrange_perm choices).mem_iff.mp member

variable {hand : Hand} {now deadline : Nat} {tag : FragmentTag}

theorem giveUp_carries (clears : custody.Clears)
    {made : Acceptance → Prop} {assembly : Assembly} {error : BufferError}
    (includes : custody.Includes fragment)
    (all : ∀ part ∈ assembly.fragments, custody.Includes part)
    (refused : made
      (.error error, reassembler.without tag.datagram.toNat)) :
    (reassembler.giveUp hand assembly tag fragment error).Carries custody
      made := by
  refine .bind (.holding _ (Packet.drop_carries clears includes))
    fun _ _ => ?_
  refine .bind (.holding _ (Packet.dropAll_carries clears all))
    fun _ _ => ?_
  cases error with
  | overlap _ _ _ =>
      exact (Carries.count _ _).bind fun _ _ => .pure refused
  | _ => exact .pure refused

theorem fragments_whole_subset {longer : Assembly}
    (isWhole : (reassembler.judge fragment now deadline).1 =
      .whole longer) :
    longer.fragments ⊆ fragment :: reassembler.fragments := by
  have verdict := reassembler.judged fragment now deadline
  generalize reassembler.judge fragment now deadline = decided
    at verdict isWhole
  cases verdict with
  | untagged _ => cases isWhole
  | refused _ _ => cases isWhole
  | waiting _ _ _ _ => cases isWhole
  | whole _ inserting _ =>
      cases isWhole
      exact fragments_of_insert_subset inserting

/-- The packet that a fragment leads to. -/
def Delivers (custody : Custody) (acceptance : Acceptance) : Prop :=
  ∀ packet, acceptance.1 = .ok (some packet) → custody.Includes packet

theorem add_carries (clears : custody.Clears) {assembly : Assembly}
    (includes : custody.Includes fragment)
    (all : ∀ part ∈ assembly.fragments, custody.Includes part)
    (copies : ∀ longer,
      (reassembler.judgeAdded assembly tag fragment).1 = .whole longer →
      ¬(custody.chains reassembler.pool = true ∧
        ∀ part ∈ longer.fragments, part.pool = reassembler.pool) →
      custody.Fills) :
    (reassembler.add hand assembly tag fragment).Carries custody
      (Delivers custody) := by
  unfold judgeAdded at copies
  unfold Operation.Carries add
  cases inserting : assembly.insert tag fragment
      reassembler.limits.holdLimit with
  | error error =>
      exact giveUp_carries clears includes all
        fun _ impossible => by cases impossible
  | ok longer =>
      refine Carries.ite (fun complete => ?_) fun _ => ?_
      · rw [inserting] at copies
        simp only [complete, if_true] at copies
        have parts : ∀ part ∈ longer.fragments,
            custody.Includes part := by
          intro part member
          rcases List.mem_cons.mp ((Assembly.fragments_of_insert
              inserting).mem_iff.mp member) with rfl | before
          · exact includes
          · exact all part before
        refine .bind (.holding _ (Carries.attempt
          (Reassembly.join_carries clears (copies longer rfl) parts)))
            fun result joined => .pure ?_
        cases result with
        | error error => exact fun _ impossible => by cases impossible
        | ok packet =>
            rintro _ ⟨⟩
            exact joined packet rfl
      · exact .pure fun _ impossible => by cases impossible

/-- A fragment that arrives moves segments only, unless it makes its datagram
whole and the payload has to be copied. -/
theorem pushUntil_carries (clears : custody.Clears)
    (all : ∀ held ∈ fragment :: reassembler.fragments,
      custody.Includes held)
    (copies : ∀ longer,
      (reassembler.judge fragment now deadline).1 = .whole longer →
      ¬(custody.chains reassembler.pool = true ∧
        ∀ part ∈ longer.fragments, part.pool = reassembler.pool) →
      custody.Fills) :
    (reassembler.pushUntil hand fragment now deadline).Carries custody
      (Delivers custody) := by
  obtain ⟨includes, held⟩ := List.forall_mem_cons.mp all
  have refused : ∀ (error : BufferError) (other : Reassembler),
      Delivers custody (.error error, other) :=
    fun _ _ _ impossible => by cases impossible
  have dropped : ∀ other : Reassembler,
      (Operation.holding (hand other) fragment.drop).Carries custody
        (fun _ => True) :=
    fun other => .holding _ (Packet.drop_carries clears includes)
  unfold judge at copies
  unfold Operation.Carries pushUntil
  cases tagged : fragment.tag with
  | none => exact (dropped _).bind fun _ _ => .pure (refused _ _)
  | some tag =>
      simp only [tagged] at copies
      have makes : (reassembler.makeRoom tag.datagram.toNat fragment
          now).Carries custody fun result =>
            result = reassembler.roomy tag.datagram.toNat now := by
        apply Carries.of_returns
          (fun pools => reassembler.makeRoom_returns _ fragment now) clears
          (.flatMap_chain fun part member => held part ?_)
        exact (reassembler.fragments_perm_roomy _ now).mem_iff.mpr
          (List.mem_append_left _ member)
      apply makes.bind
      rintro _ rfl
      have heldThere : ∀ part ∈ (reassembler.roomy tag.datagram.toNat
          now).fragments, custody.Includes part := fun part member =>
        held part (reassembler.fragments_roomy_subset _ now member)
      rw [← reassembler.roomy_pool tag.datagram.toNat now] at copies
      generalize reassembler.roomy tag.datagram.toNat now = roomy
        at heldThere copies ⊢
      unfold judgeTagged at copies
      cases found : roomy.pending.get? tag.datagram.toNat with
      | some assembly =>
          simp only [found] at copies
          have parts : ∀ part ∈ assembly.fragments,
              custody.Includes part := fun part member =>
            heldThere part ((fragments_perm_of_get? found).mem_iff.mpr
              (List.mem_append_left _ member))
          refine .ite (fun _ => ?_) fun inTime => ?_
          · refine .bind (.holding _
              (Packet.dropAll_carries clears parts)) fun _ _ => ?_
            refine .bind (.count _ _) fun _ _ => ?_
            exact (dropped _).bind fun _ _ => .pure (refused _ _)
          · simp only [inTime] at copies
            exact add_carries clears includes parts copies
      | none =>
          simp only [found] at copies
          refine .ite (fun _ => ?_) fun hasRoom => ?_
          · exact (dropped _).bind fun _ _ => .pure (refused _ _)
          · simp only [hasRoom] at copies
            refine add_carries clears includes ?_ copies
            exact fun part member => by cases member

/-- The copying is told from the reassembler alone. -/
theorem push_carries (clears : custody.Clears)
    (all : ∀ held ∈ fragment :: reassembler.fragments,
      custody.Includes held)
    (copies : ∀ deadline longer,
      reassembler.limits.timeout.after? now = some deadline →
      (reassembler.judge fragment now deadline).1 = .whole longer →
      ¬(custody.chains reassembler.pool = true ∧
        ∀ part ∈ longer.fragments, part.pool = reassembler.pool) →
      custody.Fills) :
    (reassembler.push fragment now).Carries custody (fun acceptance =>
      Delivers custody acceptance ∧ ∃ deadline,
        acceptance.2 = (reassembler.judge fragment now deadline).2) := by
  have carries : (reassembler.push fragment now).Carries custody
      (Delivers custody) := by
    unfold Operation.Carries push
    cases reading : reassembler.limits.timeout.after? now with
    | none => exact Carries.holding _ (.halt _)
    | some deadline =>
        exact pushUntil_carries clears all
          fun longer => copies deadline longer reading
  refine carries.knowing fun pools => ?_
  apply (reassembler.push_decided fragment now).monoDone
  rintro _ _ ⟨deadline, _, isState, _⟩
  exact ⟨deadline, isState⟩

end Reassembler

/-! ## Reassembling one datagram -/

namespace Pool

variable {reassembler : Reassembler} {rest : List Packet}
variable {choices : List Nat}

theorem dropLeftovers_carries (clears : custody.Clears)
    (all : ∀ packet ∈ rest ++ reassembler.fragments,
      custody.Includes packet) :
    (dropLeftovers reassembler rest choices).Carries custody
      (fun _ => True) := by
  obtain ⟨others, held⟩ := List.forall_mem_append.mp all
  refine .bind (.holding _ (Packet.dropAll_carries clears others))
    fun _ _ => ?_
  exact (Reassembler.clear_carries clears held).bind
    fun _ _ => .pure trivial

theorem abandon_carries (clears : custody.Clears) {made : α → Prop}
    (all : ∀ packet ∈ rest ++ reassembler.fragments,
      custody.Includes packet) (error : BufferError) :
    (abandon reassembler rest choices error).Carries custody made :=
  (dropLeftovers_carries clears all).bind fun _ _ => .fail error

/-- A datagram is reassembled without any copying if the pool chains segments
and all fragments are its own. -/
theorem reassembleFrom_carries (clears : custody.Clears) (deadline : Nat) :
    ∀ (arrivals : List (Nat × Packet)) (latest : UInt32)
      {reassembler : Reassembler},
      (∀ packet ∈ arrivals.map Prod.snd ++ reassembler.fragments,
        custody.Includes packet) →
      (¬(custody.chains reassembler.pool = true ∧
        ∀ packet ∈ arrivals.map Prod.snd ++ reassembler.fragments,
          packet.pool = reassembler.pool) → custody.Fills) →
      (reassembleFrom reassembler deadline choices latest
        arrivals).Carries custody custody.Includes
  | [], _, reassembler, all, _ =>
      (Carries.count reassembler.pool _).bind fun _ _ =>
        abandon_carries clears all _
  | (now, fragment) :: later, latest, reassembler, all, copies => by
      rw [List.map_cons, List.cons_append] at all copies
      have moved : (fragment :: (later.map Prod.snd ++
          reassembler.fragments)).Perm (later.map Prod.snd ++
            (fragment :: reassembler.fragments)) := List.perm_middle.symm
      have others : ∀ packet ∈ later.map Prod.snd ++
          (reassembler.judge fragment now deadline).2.fragments,
          packet ∈ fragment :: (later.map Prod.snd ++
            reassembler.fragments) := by
        intro packet member
        apply moved.mem_iff.mpr
        rcases List.mem_append.mp member with isLater | isHeld
        · exact List.mem_append_left _ isLater
        · exact List.mem_append_right _
            (reassembler.fragments_judge_subset fragment now deadline isHeld)
      have samePool := (reassembler.judge_keeps fragment now deadline).1
      refine .ite (fun _ => ?_) fun _ => ?_
      · exact (Carries.count reassembler.pool _).bind fun _ _ =>
          abandon_carries clears all _
      · have handed : ∀ held ∈ fragment :: reassembler.fragments,
            held ∈ fragment :: (later.map Prod.snd ++
              reassembler.fragments) := fun held member =>
          moved.mem_iff.mpr (List.mem_append_right _ member)
        have whole : ∀ longer,
            (reassembler.judge fragment now deadline).1 = .whole longer →
            ¬(custody.chains reassembler.pool = true ∧
              ∀ part ∈ longer.fragments, part.pool = reassembler.pool) →
            custody.Fills := by
          intro longer isWhole foreign
          apply copies
          rintro ⟨chains, own⟩
          refine foreign ⟨chains, fun part member => own part (handed part ?_)⟩
          exact Reassembler.fragments_whole_subset isWhole member
        have pushed := (Reassembler.pushUntil_carries clears
          (fun held member => all held (handed held member)) whole).knowing
          fun _ => reassembler.pushUntil_answered
            (fun reassembler => later.map Prod.snd ++ reassembler.fragments)
            fragment now deadline
        apply pushed.bind
        rintro ⟨answer, next⟩ ⟨delivers, isState, _⟩
        cases isState
        have allNext := fun packet member => all packet (others packet member)
        match answer with
        | .error error => exact abandon_carries clears allNext error
        | .ok none =>
            apply reassembleFrom_carries clears deadline later _ allNext
            intro foreign
            rw [samePool] at foreign
            exact copies fun own => foreign
              ⟨own.1, fun packet member => own.2 packet (others packet member)⟩
        | .ok (some packet) =>
            exact (dropLeftovers_carries clears allNext).bind
              fun _ _ => .pure (delivers packet rfl)

theorem reassemble_carries (clears : custody.Clears) {id : PoolId}
    {arrivals : List (Nat × Packet)} {deadline : Nat}
    (all : ∀ packet ∈ arrivals.map Prod.snd, custody.Includes packet)
    (copies : ¬(custody.chains id = true ∧
      ∀ packet ∈ arrivals.map Prod.snd, packet.pool = id) →
        custody.Fills) :
    (reassemble id arrivals deadline choices).Carries custody
      custody.Includes := by
  have begins : (Reassembler.forPool id).Carries custody
      (fun reassembler => reassembler.pool = id ∧
        reassembler.fragments = []) :=
    .readPool fun _ _ => .pure ⟨rfl, rfl⟩
  apply begins.bind
  rintro reassembler ⟨rfl, nothingHeld⟩
  rw [← List.append_nil (arrivals.map Prod.snd), ← nothingHeld]
    at all copies
  exact reassembleFrom_carries clears deadline arrivals 0 all copies

end Pool

end PooledPackets
