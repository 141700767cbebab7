import PooledPackets.Proofs.Ownership.Making
import PooledPackets.Reassembly.Join

/-!
# Joining fragments

However fragments are joined, by linking their segments or by copying their
payload, the packet that comes of it spells their payload in their order, and
the segments that it does not need are back in their pools.
-/

namespace PooledPackets

open Operation

namespace Reassembly

/-- The payload of some packets, one behind the other. -/
def spelling (fragments : List Packet) : Bytes :=
  fragments.flatMap Packet.toBytes

@[simp]
theorem spelling_cons (first : Packet) (rest : List Packet) :
    spelling (first :: rest) = first.toBytes ++ spelling rest := rfl

theorem chainBytes_flatMap (fragments : List Packet) :
    Packet.chainBytes (fragments.flatMap Packet.chain) =
      spelling fragments := by
  induction fragments with
  | nil => rfl
  | cons first rest inductionHypothesis =>
      rw [List.flatMap_cons, Packet.chainBytes_append, inductionHypothesis]
      rfl

/-! ## Sorting out segments -/

/-- Every segment is either kept or given back. -/
theorem sortOut_perm (segments : List Segment) :
    ((sortOut segments).1 ++ (sortOut segments).2).Perm segments := by
  have parts : (segments.filter (fun segment => !segment.isEmpty) ++
      segments.filter Segment.isEmpty).Perm segments := by
    simpa using List.filter_append_perm
      (fun segment : Segment => !segment.isEmpty) segments
  simp only [sortOut]
  split
  · rename_i noneFilled
    rw [List.isEmpty_iff.mp noneFilled, List.nil_append] at parts
    apply List.perm_append_comm.trans
    rw [List.take_append_drop]
    exact parts
  · exact parts

/-- No payload is given back. -/
theorem chainBytes_sortOut (segments : List Segment) :
    Packet.chainBytes (sortOut segments).1 =
      Packet.chainBytes segments := by
  have kept : Packet.chainBytes
      (segments.filter (fun segment => !segment.isEmpty)) =
        Packet.chainBytes segments := by
    induction segments with
    | nil => rfl
    | cons segment rest inductionHypothesis =>
        simp only [Packet.chainBytes, List.flatMap_cons] at *
        by_cases empty : segment.isEmpty
        · have noBytes : segment.payload = [] :=
            Segment.payload_of_empty (by simpa [Segment.isEmpty] using empty)
          simp [empty, noBytes, inductionHypothesis]
        · simp [empty, inductionHypothesis]
  simp only [sortOut]
  split
  · rename_i noneFilled
    rw [List.isEmpty_iff.mp noneFilled] at kept
    rw [← kept]
    apply Packet.chainBytes_of_empty
    intro segment member
    have isSpare := List.mem_of_mem_drop member
    simpa [Segment.isEmpty] using (List.mem_filter.mp isSpare).2
  · exact kept

/-- Of some segments one at least is kept. -/
theorem sortOut_ne_nil {segments : List Segment} (some : segments ≠ []) :
    (sortOut segments).1 ≠ [] := by
  have sorted := (sortOut_perm segments).length_eq
  unfold sortOut at sorted ⊢
  dsimp only at sorted ⊢
  split
  · rename_i noneFilled
    rw [if_pos noneFilled, List.length_append, List.length_drop,
      List.length_take] at sorted
    have size := List.length_pos_iff.mpr some
    apply List.ne_nil_of_length_pos
    rw [List.length_drop]
    omega
  · rename_i someFilled
    intro nothing
    exact someFilled (List.isEmpty_iff.mpr nothing)

/-- Why fragments that are not linked together could not be joined: there is no
room behind the first of them, or the pool lacks what they need. -/
def Short (pool : Pool) (total : Nat) (own : Bool) :
    List Packet → Prop
  | [] => pool.Lacks 0
  | first :: rest =>
      if own then
        first.chain = [] ∨ first.available < (spelling rest).length
      else
        pool.Lacks total ∨ total < (spelling (first :: rest)).length

end Reassembly

/-- A packet joined from fragments. -/
structure Packet.Joined (exchange : Exchange) (id : PoolId)
    (fragments : List Packet) (packet : Packet) : Prop where
  tag_eq : packet.tag = none
  pool_eq : packet.pool = id
  held : fragments ≠ [] → (∀ fragment ∈ fragments, fragment.chain ≠ []) →
    packet.chain ≠ []
  spelled : exchange = .never →
    packet.toBytes = Reassembly.spelling fragments

namespace Pools.Consistent

variable {pools origin : Pools} {exchange : Exchange} {id : PoolId}
variable {others fragments : List Packet} {packet : Packet}

/-! ## Linking -/

theorem splice_satisfies
    (consistent : pools.Consistent origin exchange (fragments ++ others))
    (own : ∀ fragment ∈ fragments, fragment.pool = id) :
    (Reassembly.splice id fragments pools).Satisfies
      (fun packet after =>
        after.Consistent origin exchange (packet :: others) ∧
        packet.Joined exchange id fragments)
      (fun _ _ => False) exchange.MayStop := by
  have sorted := Reassembly.sortOut_perm (fragments.flatMap Packet.chain)
  have keptOthers : ∀ other ∈ others, other.Kept exchange :=
    fun other member =>
      consistent.kept other (List.mem_append_right _ member)
  have ownSegments : exchange ≠ .freely →
      ∀ segment ∈ fragments.flatMap Packet.chain, segment.pool = id := by
    intro bounded segment member
    obtain ⟨fragment, isFragment, inChain⟩ := List.mem_flatMap.mp member
    have kept := consistent.kept fragment (List.mem_append_left _ isFragment)
    rw [kept.own bounded segment inChain, own fragment isFragment]
  have balanced : pools.Balanced origin
      ((Reassembly.sortOut (fragments.flatMap Packet.chain)).2 ++
        ((Reassembly.sortOut (fragments.flatMap Packet.chain)).1 ++
          others.flatMap Packet.chain)) := by
    apply consistent.balanced.perm
    rw [List.flatMap_append, ← List.append_assoc]
    apply List.Perm.append_right _
    exact sorted.symm.trans List.perm_append_comm
  have ownKept : exchange ≠ .freely → ∀ segment ∈
      (Reassembly.sortOut (fragments.flatMap Packet.chain)).1,
      segment.pool = id := by
    intro bounded segment member
    exact ownSegments bounded segment
      (sorted.mem_iff.mp (List.mem_append_left _ member))
  have ownSpare : exchange ≠ .freely → ∀ segment ∈
      (Reassembly.sortOut (fragments.flatMap Packet.chain)).2,
      segment.pool = id := by
    intro bounded segment member
    exact ownSegments bounded segment
      (sorted.mem_iff.mp (List.mem_append_right _ member))
  have returned := (Pool.checkIn_satisfies balanced id).mono
    (fun _ _ known => known.1) (fun _ _ impossible => impossible)
    fun stop foreign =>
      (Exchange.mayStopReturns_of_foreign ownSpare stop foreign).mayStop
  apply Outcome.Satisfies.bind returned
  intro _ after balancedAfter
  apply (assemble_satisfies balancedAfter keptOthers ownKept).monoDone
  intro packet last ending
  obtain ⟨rfl, consistentLast⟩ := ending
  refine ⟨consistentLast, rfl, rfl, ?_, fun _ => ?_⟩
  · intro some held
    apply Reassembly.sortOut_ne_nil
    obtain ⟨first, isFirst⟩ := List.exists_mem_of_ne_nil _ some
    intro nothing
    exact held first isFirst (List.flatMap_eq_nil_iff.mp nothing first isFirst)
  · rw [← Reassembly.chainBytes_flatMap, ← Reassembly.chainBytes_sortOut]
    rfl

/-! ## Copying -/

/-- A fragment is dropped once its payload is in the packet in front of it. -/
theorem dropCopied_satisfies {fragment : Packet} {rest : List Packet}
    (consistent : pools.Consistent origin exchange
      (packet :: (fragment :: rest ++ others))) :
    (Operation.holding (packet :: rest) fragment.drop pools).Satisfies
      (fun _ after =>
        after.Consistent origin exchange (packet :: (rest ++ others)))
      (fun _ _ => False) exchange.MayStop := by
  have fragmentFirst : pools.Consistent origin exchange
      (fragment :: (packet :: (rest ++ others))) :=
    consistent.perm (List.Perm.swap _ _ _)
  apply holding
  · intro other member
    apply fragmentFirst.kept other
    exact List.mem_cons_of_mem _ (List.mem_append_left others member)
  · exact fragmentFirst.drop_satisfies.returned

/-- The payload of fragments is added behind a packet, and the fragments are
gone afterwards, whether it fits or not. -/
theorem copyInto_satisfies :
    ∀ {fragments : List Packet} {packet : Packet} {pools : Pools},
      pools.Consistent origin exchange (packet :: (fragments ++ others)) →
      (Reassembly.copyInto packet fragments pools).Satisfies
        (fun longer after =>
          after.Consistent origin exchange (longer :: others) ∧
          packet.Grown exchange longer (Reassembly.spelling fragments))
        (fun _ after => after.Consistent origin exchange others ∧
          (exchange = .never → packet.chain = [] ∨
            packet.available < (Reassembly.spelling fragments).length))
        exchange.MayStop
  | [], packet, _, consistent => ⟨consistent, .refl exchange packet⟩
  | fragment :: rest, packet, pools, consistent => by
      have owns : ∀ packet : Packet,
          (fragment :: rest ++ [packet]).Perm
            (packet :: (fragment :: rest)) :=
        fun packet => List.perm_append_comm
      refine Outcome.Satisfies.bind ((appendAll_satisfies (fragment :: rest)
        owns fragment.chunks consistent).monoRefused ?_) ?_
      · intro _ after ending
        obtain ⟨consistentAfter, full⟩ := ending
        refine ⟨consistentAfter, fun intact => (full intact).imp id ?_⟩
        intro short
        rw [Packet.flatten_chunks] at short
        rw [Reassembly.spelling_cons, List.length_append]
        omega
      · intro longer after ending
        obtain ⟨consistentLonger, grown⟩ := ending
        rw [Packet.flatten_chunks] at grown
        apply Outcome.Satisfies.bind
          consistentLonger.dropCopied_satisfies.neverRefused
        intro _ after' consistentDropped
        refine (copyInto_satisfies consistentDropped).mono ?_ ?_
          (fun _ known => known)
        · intro longest last ending
          obtain ⟨consistentLongest, further⟩ := ending
          exact ⟨consistentLongest, grown.trans further⟩
        · intro _ last ending
          obtain ⟨consistentLast, full⟩ := ending
          refine ⟨consistentLast, fun intact => ?_⟩
          by_cases held : packet.chain = []
          · exact Or.inl held
          · have short := (full intact).resolve_left (grown.held held)
            have room := grown.room intact
            rw [Reassembly.spelling_cons, List.length_append]
            exact Or.inr (by omega)

/-- The payload of fragments that are not the pool's own goes into a packet
fresh from the pool. -/
theorem copyFresh_satisfies {total : Nat} {first : Packet}
    {rest : List Packet}
    (consistent : pools.Consistent origin exchange
      (first :: rest ++ others)) :
    (Reassembly.copy id total false (first :: rest) pools).Satisfies
      (fun packet after =>
        after.Consistent origin exchange (packet :: others) ∧
        packet.Joined exchange id (first :: rest))
      (fun _ after => after.Consistent origin exchange others ∧
        (exchange = .never → (pools.get id).Lacks total ∨
          total < (Reassembly.spelling (first :: rest)).length))
      exchange.MayStop := by
  refine Outcome.Satisfies.bind (Outcome.Satisfies.onFailure
    (consistent.allocate_satisfies id total) ?_) ?_
  · intro _ after ending
    obtain ⟨consistentAfter, lacks⟩ := ending
    apply consistentAfter.dropAll_satisfies.returned.neverRefused.monoDone
    exact fun _ last consistentLast =>
      ⟨consistentLast, fun _ => Or.inl lacks⟩
  · intro blank after ending
    obtain ⟨consistentBlank, isBlank⟩ := ending
    have tooLong : (exchange = .never → blank.chain = [] ∨
        blank.available < (Reassembly.spelling (first :: rest)).length) →
        exchange = .never → (pools.get id).Lacks total ∨
          total < (Reassembly.spelling (first :: rest)).length := by
      intro full intact
      have short := (full intact).resolve_left isBlank.held
      have enough := (pools.get id).layout.le_segmentsFor_mul total
      rw [isBlank.room] at short
      exact Or.inr (Nat.lt_of_le_of_lt enough short)
    refine Outcome.Satisfies.bind ((appendAll_satisfies (first :: rest)
      (fun packet => .refl (packet :: first :: rest)) first.chunks
      consistentBlank).monoRefused ?_) ?_
    · intro _ last ending
      obtain ⟨consistentLast, full⟩ := ending
      refine ⟨consistentLast, tooLong fun intact => Or.inr ?_⟩
      have short := (full intact).resolve_left isBlank.held
      rw [Packet.flatten_chunks] at short
      rw [Reassembly.spelling_cons, List.length_append]
      omega
    · intro filled after' ending
      obtain ⟨consistentFilled, grown⟩ := ending
      rw [Packet.flatten_chunks] at grown
      apply Outcome.Satisfies.bind
        consistentFilled.dropCopied_satisfies.neverRefused
      intro _ after'' consistentDropped
      refine (copyInto_satisfies consistentDropped).mono ?_ ?_
        (fun _ known => known)
      · intro packet last ending
        obtain ⟨consistentLast, further⟩ := ending
        have whole := grown.trans further
        refine ⟨consistentLast, whole.tag_eq.trans isBlank.tag_eq,
          whole.pool_eq.trans isBlank.pool_eq,
          fun _ _ => whole.held isBlank.held, fun intact => ?_⟩
        rw [whole.spelled intact, isBlank.blank, List.nil_append]
        rfl
      · intro _ last ending
        obtain ⟨consistentLast, full⟩ := ending
        refine ⟨consistentLast, tooLong fun intact => Or.inr ?_⟩
        have short := (full intact).resolve_left (grown.held isBlank.held)
        have room := grown.room intact
        rw [Reassembly.spelling_cons, List.length_append]
        omega

theorem copy_satisfies {total : Nat} {own : Bool}
    (consistent : pools.Consistent origin exchange (fragments ++ others))
    (isOwn : own = true → ∀ fragment ∈ fragments, fragment.pool = id) :
    (Reassembly.copy id total own fragments pools).Satisfies
      (fun packet after =>
        after.Consistent origin exchange (packet :: others) ∧
        packet.Joined exchange id fragments)
      (fun _ after => after.Consistent origin exchange others ∧
        (exchange = .never →
          Reassembly.Short (pools.get id) total own fragments))
      exchange.MayStop := by
  cases fragments with
  | nil =>
      refine (allocate_satisfies consistent id 0).mono ?_ ?_
        (fun _ known => known)
      · intro blank after ending
        obtain ⟨consistentAfter, isBlank⟩ := ending
        exact ⟨consistentAfter, isBlank.tag_eq, isBlank.pool_eq,
          fun _ _ => isBlank.held, fun _ => isBlank.blank⟩
      · intro _ after ending
        obtain ⟨consistentAfter, lacks⟩ := ending
        exact ⟨consistentAfter, fun _ => lacks⟩
  | cons first rest =>
      cases own with
      | false =>
          exact consistent.copyFresh_satisfies
      | true =>
          apply (copyInto_satisfies (consistent.withTag none)).monoDone
          intro packet after ending
          obtain ⟨consistentAfter, grown⟩ := ending
          refine ⟨consistentAfter, grown.tag_eq, ?_, ?_, ?_⟩
          · exact grown.pool_eq.trans
              (isOwn rfl first (List.mem_cons_self ..))
          · exact fun _ held => grown.held (held first (List.mem_cons_self ..))
          · exact fun intact => grown.spelled intact

/-! ## Either -/

/-- Fragments that can be linked together are always joined. -/
theorem join_satisfies {assembly : Assembly}
    (consistent : pools.Consistent origin exchange
      (assembly.fragments ++ others)) :
    (Reassembly.join id assembly pools).Satisfies
      (fun packet after =>
        after.Consistent origin exchange (packet :: others) ∧
        packet.Joined exchange id assembly.fragments)
      (fun _ after => after.Consistent origin exchange others ∧
        (exchange = .never →
          ((pools.get id).config.chaining && assembly.fragments.all
            (fun fragment => fragment.pool == id)) = false ∧
          Reassembly.Short (pools.get id) assembly.received
            (assembly.fragments.all (fun fragment => fragment.pool == id))
            assembly.fragments))
      exchange.MayStop := by
  have isOwn : assembly.fragments.all (fun fragment => fragment.pool == id) =
      true → ∀ fragment ∈ assembly.fragments, fragment.pool = id := by
    intro all fragment member
    simpa using List.all_eq_true.mp all fragment member
  -- Either way the datagram is counted once it is joined.
  have counting : ∀ (packet : Packet) (after : Pools),
      after.Consistent origin exchange (packet :: others) ∧
        packet.Joined exchange id assembly.fragments →
      (((Operation.count id fun counters =>
          { counters with reassembled := counters.reassembled + 1 }) >>=
        fun _ => (pure packet : Operation Packet)) after).Satisfies
          (fun packet after =>
            after.Consistent origin exchange (packet :: others) ∧
            packet.Joined exchange id assembly.fragments)
          (fun _ _ => False) exchange.MayStop := by
    intro packet after ending
    obtain ⟨consistentAfter, joined⟩ := ending
    apply Outcome.Satisfies.bind (consistentAfter.count_satisfies id _)
    intro _ last consistentLast
    exact Outcome.Satisfies.pure ⟨consistentLast, joined⟩
  apply Outcome.Satisfies.namesakes_of_distinct consistent.balanced.distinct
  refine Outcome.Satisfies.readPool (Outcome.Satisfies.ite ?_ ?_)
  · intro linked
    have all := (Bool.and_eq_true _ _ ▸ linked : _ ∧ _).2
    have spliced := splice_satisfies consistent (isOwn all)
    exact (Outcome.Satisfies.bind spliced counting).neverRefused
  · intro notLinked
    refine Outcome.Satisfies.bind
      ((copy_satisfies consistent isOwn).monoRefused ?_) ?_
    · intro _ after ending
      obtain ⟨consistentAfter, short⟩ := ending
      exact ⟨consistentAfter, fun intact =>
        ⟨by simpa using notLinked, short intact⟩⟩
    · intro packet after known
      exact (counting packet after known).neverRefused

end Pools.Consistent
end PooledPackets
