import PooledPackets.Proofs.Fragments.Arrivals

/-!
# Gathering the pieces of a packet

A reassembler with room for one more datagram holds the pieces of a packet, in
the order in which they arrive, until the last one comes. Then it delivers the
packet, if its pool can take it.
-/

namespace PooledPackets

open Operation

namespace Reassembler

variable {reassembler : Reassembler} {hand : Hand} {fragment : Packet}
variable {tag : FragmentTag} {datagram now deadline : Nat}

/-! ## Fragments for which there is room -/

theorem makeRoom_of_room (room : reassembler.HasRoom datagram)
    (pools : Pools) :
    reassembler.makeRoom datagram fragment now pools =
      .done reassembler pools := by
  have notFull : ¬((!reassembler.pending.contains datagram &&
      decide (reassembler.limits.maxDatagrams ≤
        reassembler.inFlight)) = true) := by
    rw [Bool.and_eq_true, Bool.not_eq_true', decide_eq_true_eq]
    intro given
    obtain ⟨absent, full⟩ := given
    rcases room with present | fits
    · simp [absent] at present
    · exact absurd full (Nat.not_le_of_lt fits)
  unfold makeRoom
  rw [if_neg notFull]
  rfl

/-- A fragment that comes in time is added to its datagram. -/
theorem pushUntil_of_room (tagged : fragment.tag = some tag)
    (room : reassembler.HasRoom tag.datagram.toNat)
    (inTime : ∀ assembly,
      reassembler.pending.get? tag.datagram.toNat = some assembly →
        now < assembly.deadline) (pools : Pools) :
    reassembler.pushUntil hand fragment now deadline pools =
      reassembler.add hand
        (reassembler.assemblyFor tag.datagram.toNat deadline) tag fragment
          pools := by
  unfold pushUntil
  simp only [tagged]
  rw [bind_of_done (makeRoom_of_room room pools), assemblyFor]
  cases found : reassembler.pending.get? tag.datagram.toNat with
  | some assembly =>
      simp only [Option.getD_some]
      rw [if_neg (Nat.not_le_of_lt (inTime assembly found))]
  | none =>
      have notFull : ¬(reassembler.limits.maxDatagrams ≤
          reassembler.inFlight) := by
        rcases room with present | fits
        · simp [Table.contains, found] at present
        · exact Nat.not_le_of_lt fits
      simp only [Option.getD_none]
      rw [if_neg notFull]

/-- A fragment that is accepted and leaves its datagram incomplete is held. -/
theorem add_of_incomplete {assembly longer : Assembly}
    (inserting : assembly.insert tag fragment
      reassembler.limits.holdLimit = .ok longer)
    (incomplete : longer.isComplete = false) (pools : Pools) :
    reassembler.add hand assembly tag fragment pools =
      .done (.ok none, reassembler.having tag.datagram.toNat longer)
        pools := by
  unfold add
  simp only [inserting, incomplete]
  rfl

end Reassembler

/-- Packets are the pieces of one packet in some order. In this order all are in
reach, or it is the right one. -/
structure Division.Arranged (division : Division) (holdLimit : Nat)
    (arrivals : List Packet) : Prop where
  areAll : ∃ pieces, division.Pieces 0 pieces ∧ pieces.Perm arrivals
  reach : Packet.InReach arrivals holdLimit ∨ division.Pieces 0 arrivals

theorem Division.Arranged.isPiece {division : Division} {holdLimit : Nat}
    {arrivals : List Packet}
    (arranged : division.Arranged holdLimit arrivals) :
    ∀ piece ∈ arrivals, division.IsPiece piece.start piece := by
  obtain ⟨pieces, areAll, same⟩ := arranged.areAll
  exact fun piece member =>
    (areAll.isPiece_of_mem piece (same.mem_iff.mpr member)).1

namespace Reassembler

variable {reassembler : Reassembler} {hand : Hand} {fragment : Packet}
variable {tag : FragmentTag} {datagram now deadline : Nat}

/-! ## Gathering the pieces of a packet -/

/-- A reassembler holds exactly the given packets for the datagram of a
division, until a deadline. -/
structure Gathers (reassembler : Reassembler) (division : Division)
    (deadline : Nat) (taken : List Packet) : Prop where
  accounted : (reassembler.assemblyFor division.datagram.toNat
    deadline).Accounted division.datagram.toNat
      reassembler.limits.holdLimit
  same : (reassembler.assemblyFor division.datagram.toNat
    deadline).fragments.Perm taken
  deadline_eq : (reassembler.assemblyFor division.datagram.toNat
    deadline).deadline = deadline
  room : reassembler.HasRoom division.datagram.toNat
  fresh : taken = [] →
    reassembler.pending.get? division.datagram.toNat = none

variable {division : Division}

theorem gathers_nothing
    (vacant : reassembler.pending.get? division.datagram.toNat = none)
    (fits : reassembler.inFlight < reassembler.limits.maxDatagrams) :
    reassembler.Gathers division deadline [] where
  accounted := by
    rw [assemblyFor, vacant]
    exact Assembly.accounted_begun deadline _ _
  same := by
    rw [assemblyFor, vacant]
    exact .refl _
  deadline_eq := by
    rw [assemblyFor, vacant]
    rfl
  room := Or.inr fits
  fresh := fun _ => vacant

namespace Gathers

variable {taken left pieces : List Packet} {piece : Packet}
variable {given : Nat}

/-- Once something is held the deadline of a later push does not matter. -/
theorem assemblyFor_eq
    (gathers : reassembler.Gathers division deadline taken)
    (first : taken = [] → given = deadline) :
    reassembler.assemblyFor division.datagram.toNat given =
      reassembler.assemblyFor division.datagram.toNat deadline := by
  cases found : reassembler.pending.get? division.datagram.toNat with
  | some assembly => rw [assemblyFor, assemblyFor, found]; rfl
  | none =>
      have same := gathers.same
      rw [assemblyFor, found] at same
      rw [first (List.Perm.nil_eq same).symm]

theorem inTime (gathers : reassembler.Gathers division deadline taken)
    (timely : taken ≠ [] → now < deadline) :
    ∀ assembly,
      reassembler.pending.get? division.datagram.toNat = some assembly →
        now < assembly.deadline := by
  intro assembly found
  have sameDeadline := gathers.deadline_eq
  rw [assemblyFor, found, Option.getD_some] at sameDeadline
  rw [sameDeadline]
  apply timely
  intro nothing
  simp [gathers.fresh nothing] at found

theorem pushUntil_eq
    (gathers : reassembler.Gathers division deadline taken)
    (isPiece : division.IsPiece piece.start piece)
    (first : taken = [] → given = deadline)
    (timely : taken ≠ [] → now < deadline) (pools : Pools) :
    reassembler.pushUntil hand piece now given pools =
      reassembler.add hand
        (reassembler.assemblyFor division.datagram.toNat deadline)
          (division.tagOf piece) piece pools := by
  rw [← gathers.assemblyFor_eq first]
  exact pushUntil_of_room isPiece.tagged gathers.room
    (gathers.inTime timely) pools

/-- Either the next piece continues the front, or there is room for it among
the detached ones, if the pieces arrive in such an order. -/
theorem inReach (gathers : reassembler.Gathers division deadline taken)
    (arranged : division.Arranged reassembler.limits.holdLimit
      (taken ++ piece :: left)) :
    piece.start = (reassembler.assemblyFor division.datagram.toNat
        deadline).frontEnd ∨
      (reassembler.assemblyFor division.datagram.toNat deadline).detached <
        reassembler.limits.holdLimit := by
  rcases arranged.reach with inReach | inOrder
  · obtain ⟨behind, isFront, counted⟩ :=
      gathers.accounted.exists_front gathers.same
    rw [← counted]
    exact inReach taken piece left rfl _ behind isFront
  · exact Or.inl (gathers.accounted.frontEnd_eq_of_inOrder gathers.same
      inOrder).symm

/-- A piece that is in reach is accepted. -/
theorem insert_of_reach
    (gathers : reassembler.Gathers division deadline taken)
    (areAll : division.Pieces 0 pieces)
    (sameAll : pieces.Perm (taken ++ piece :: left))
    (reach : piece.start = (reassembler.assemblyFor
        division.datagram.toNat deadline).frontEnd ∨
      (reassembler.assemblyFor division.datagram.toNat
        deadline).detached < reassembler.limits.holdLimit) :
    ∃ longer, (reassembler.assemblyFor division.datagram.toNat
        deadline).insert (division.tagOf piece) piece
          reassembler.limits.holdLimit = .ok longer ∧
      longer.Accounted division.datagram.toNat
        reassembler.limits.holdLimit ∧
      longer.fragments.Perm (taken ++ [piece]) ∧
      longer.HoldsPieces division ∧ longer.deadline = deadline := by
  have arePieces : ∀ other ∈ taken ++ piece :: left,
      division.IsPiece other.start other :=
    fun other member =>
      (areAll.isPiece_of_mem other (sameAll.mem_iff.mpr member)).1
  have takenArePieces := Assembly.holdsPieces_of_perm gathers.same
    (fun held member => arePieces held (List.mem_append_left _ member))
  have isPiece := arePieces piece (by simp)
  have inserting := gathers.accounted.insert_piece gathers.same
    takenArePieces isPiece (areAll.parted sameAll) reach
  have same := (Assembly.fragments_of_insert inserting).trans
    ((gathers.same.cons piece).trans
      (List.perm_append_singleton piece taken).symm)
  refine ⟨_, inserting,
    gathers.accounted.insert isPiece.tagged rfl inserting, same, ?_, ?_⟩
  · apply Assembly.holdsPieces_of_perm same
    intro held member
    apply arePieces held
    rw [List.append_cons]
    exact List.mem_append_left left member
  · exact gathers.deadline_eq

/-- A piece in reach that others are still missing of is held, whatever the
state of the pools is. -/
theorem waits_of_reach
    (gathers : reassembler.Gathers division deadline taken)
    (areAll : division.Pieces 0 pieces)
    (sameAll : pieces.Perm (taken ++ piece :: left))
    (reach : piece.start = (reassembler.assemblyFor
        division.datagram.toNat deadline).frontEnd ∨
      (reassembler.assemblyFor division.datagram.toNat
        deadline).detached < reassembler.limits.holdLimit)
    (missing : left ≠ []) (first : taken = [] → given = deadline)
    (timely : taken ≠ [] → now < deadline) :
    ∃ after : Reassembler,
      (∀ hand pools, reassembler.pushUntil hand piece now given pools =
        .done (.ok none, after) pools) ∧
      after.pool = reassembler.pool ∧
      after.limits = reassembler.limits ∧
      after.Gathers division deadline (taken ++ [piece]) := by
  obtain ⟨longer, inserting, accounted, same, arePieces, sameDeadline⟩ :=
    gathers.insert_of_reach areAll sameAll reach
  have isPiece : division.IsPiece piece.start piece :=
    arePieces piece (same.mem_iff.mpr (by simp))
  have incomplete := accounted.incomplete_of_missing same arePieces areAll
    (by rw [← List.append_cons]; exact sameAll) (by simp) missing
  have held : ∀ given : Nat,
      (reassembler.having division.datagram.toNat longer).assemblyFor
        division.datagram.toNat given = longer := by
    intro given
    simp [assemblyFor, Reassembler.having]
  refine ⟨reassembler.having division.datagram.toNat longer, ?_, rfl, rfl,
    ?_⟩
  · intro hand pools
    rw [gathers.pushUntil_eq isPiece first timely]
    exact add_of_incomplete inserting incomplete pools
  · constructor
    · rw [held]
      exact accounted
    · rw [held]
      exact same
    · rw [held]
      exact sameDeadline
    · apply Or.inl
      simp [Reassembler.having, Table.contains]
    · intro nothing
      simp at nothing

/-- A piece that others are still missing of is held, if all are in reach. -/
theorem waits (gathers : reassembler.Gathers division deadline taken)
    (arranged : division.Arranged reassembler.limits.holdLimit
      (taken ++ piece :: left))
    (missing : left ≠ []) (first : taken = [] → given = deadline)
    (timely : taken ≠ [] → now < deadline) :
    ∃ after : Reassembler,
      (∀ hand pools, reassembler.pushUntil hand piece now given pools =
        .done (.ok none, after) pools) ∧
      after.pool = reassembler.pool ∧
      after.limits = reassembler.limits ∧
      after.Gathers division deadline (taken ++ [piece]) := by
  obtain ⟨pieces, areAll, sameAll⟩ := arranged.areAll
  exact gathers.waits_of_reach areAll sameAll (gathers.inReach arranged)
    missing first timely

end Gathers

end Reassembler

/-- A pool can take a packet of some length whose fragments were made in a pool:
it may chain or the packet fits into one segment, and if the other pool is
another one there are enough free segments to copy to. -/
structure Pool.Admits (pool : Pool) (id maker : PoolId) (len : Nat) :
    Prop where
  chains : pool.config.chaining = true ∨ len ≤ pool.layout.maxPayload
  copies : maker ≠ id → pool.layout.segmentsFor len ≤ pool.freeCount

/-- A pool can take a packet put together from its pieces. -/
structure Pool.TakesWhole (pool : Pool) (id : PoolId)
    (division : Division) : Prop extends
    pool.Admits id division.maker division.whole.length where
  room_le : division.maker = id → pool.layout.maxPayload ≤ division.room

theorem Layout.segmentsFor_le_one {layout : Layout} {len : Nat}
    (fits : len ≤ layout.maxPayload) : layout.segmentsFor len ≤ 1 := by
  have positive := layout.maxPayload_pos
  have portions : Layout.portions len layout.maxPayload < 2 := by
    rw [Layout.portions, Nat.div_lt_iff_lt_mul positive]
    omega
  rw [segmentsFor]
  omega

theorem Pool.TakesWhole.not_lacks {pool : Pool} {id : PoolId}
    {division : Division} (takes : pool.TakesWhole id division)
    (foreign : division.maker ≠ id) :
    ¬pool.Lacks division.whole.length := by
  intro either
  rcases either with ⟨tooMany, unchained⟩ | short
  · rcases takes.chains with chained | fits
    · simp [unchained] at chained
    · have one := Layout.segmentsFor_le_one fits
      omega
  · exact absurd (takes.copies foreign) (Nat.not_le_of_lt short)

theorem Pool.TakesWhole.not_short {pool : Pool} {id : PoolId}
    {division : Division} (takes : pool.TakesWhole id division)
    {assembly : Assembly} (arePieces : assembly.HoldsPieces division)
    (received : assembly.received = division.whole.length)
    (spelled : Reassembly.spelling assembly.fragments = division.whole)
    (nonempty : assembly.fragments ≠ [])
    (unlinked : (pool.config.chaining &&
      assembly.fragments.all (fun fragment => fragment.pool == id)) =
        false) :
    ¬Reassembly.Short pool assembly.received
      (assembly.fragments.all (fun fragment => fragment.pool == id))
      assembly.fragments := by
  obtain ⟨head, rest, isCons⟩ := List.exists_cons_of_ne_nil nonempty
  have isHead : head ∈ assembly.fragments := by
    rw [isCons]
    exact List.mem_cons_self ..
  have headPiece := arePieces head isHead
  have madeBy : ∀ fragment ∈ assembly.fragments,
      fragment.pool = division.maker :=
    fun fragment member => (arePieces fragment member).pool_eq
  have counted := congrArg List.length spelled
  rw [isCons, Reassembly.spelling_cons, List.length_append] at counted
  by_cases own : division.maker = id
  · have allOwn : assembly.fragments.all
        (fun fragment => fragment.pool == id) = true := by
      rw [List.all_eq_true]
      intro fragment member
      simpa [own] using madeBy fragment member
    rw [allOwn, Bool.and_true] at unlinked
    rw [allOwn, isCons, Reassembly.Short, if_pos rfl]
    intro either
    rcases either with released | short
    · exact headPiece.held released
    · have fits : division.whole.length ≤ pool.layout.maxPayload :=
        takes.chains.resolve_left (by simp [unlinked])
      have roomy := takes.room_le own
      have room := headPiece.room_le
      have headLength : head.toBytes.length = head.length := by
        rw [headPiece.spelled, Bytes.length_between headPiece.within]
        exact Nat.add_sub_cancel_left ..
      omega
  · have noneOwn : assembly.fragments.all
        (fun fragment => fragment.pool == id) = false := by
      rw [List.all_eq_false]
      refine ⟨head, isHead, ?_⟩
      rw [madeBy head isHead]
      simpa using own
    rw [noneOwn, isCons, Reassembly.Short, if_neg (by simp), received]
    intro either
    rcases either with lacks | short
    · exact takes.not_lacks own lacks
    · rw [Reassembly.spelling_cons, List.length_append] at short
      omega

namespace Reassembler.Gathers

variable {reassembler : Reassembler} {hand : Hand} {division : Division}
variable {now given deadline : Nat} {taken : List Packet} {piece : Packet}
variable {pools origin : Pools} {others : List Packet}

/-- The last piece to arrive completes the packet. -/
theorem delivers (gathers : reassembler.Gathers division deadline taken)
    (arranged : division.Arranged reassembler.limits.holdLimit
      (taken ++ [piece]))
    (first : taken = [] → given = deadline)
    (timely : taken ≠ [] → now < deadline)
    (takes : (pools.get reassembler.pool).TakesWhole reassembler.pool
      division)
    (consistent : pools.Consistent origin .never
      (piece :: (reassembler.fragments ++ others)))
    (keepsHand : reassembler.KeepsHand .never hand) :
    (reassembler.pushUntil hand piece now given pools).Satisfies
      (fun acceptance after => ∃ packet,
        acceptance.1 = .ok (some packet) ∧
        packet.toBytes = division.whole ∧
        packet.length = division.whole.length ∧
        after.Consistent origin .never
          (packet :: (acceptance.2.fragments ++ others)))
      (fun _ _ => False) (fun _ => False) := by
  obtain ⟨pieces, areAll, sameAll⟩ := arranged.areAll
  obtain ⟨longer, inserting, accounted, same, arePieces, _⟩ :=
    gathers.insert_of_reach areAll sameAll (gathers.inReach arranged)
  obtain ⟨complete, received, spelled⟩ :=
    accounted.complete_of_all arePieces areAll (same.trans sameAll.symm)
  have nonempty : longer.fragments ≠ [] := by
    intro nothing
    rw [nothing] at same
    simp at same
  rw [gathers.pushUntil_eq (arranged.isPiece piece (by simp)) first timely]
  have accountedFor : pools.Consistent origin .never
      (piece :: ((reassembler.assemblyFor division.datagram.toNat
        deadline).fragments ++ ((reassembler.without
          (division.tagOf piece).datagram.toNat).fragments ++
            others))) := by
    refine consistent.perm (List.Perm.cons _ ?_)
    rw [← List.append_assoc]
    exact List.Perm.append_right others
      (reassembler.fragments_perm_assemblyFor _ deadline)
  have judged : (reassembler.judgeAdded (reassembler.assemblyFor
      division.datagram.toNat deadline) (division.tagOf piece) piece).1 =
        .whole longer := by
    simp only [judgeAdded, inserting, complete, if_true]
  apply (accountedFor.add_satisfies keepsHand).mono
  · rintro ⟨answer, changed⟩ after ⟨_, consistentAfter, _, ending⟩
    have ended := ending longer judged
    match answer with
    | .ok (some packet) =>
        have sound : packet.Sound :=
          consistentAfter.kept packet (List.mem_cons_self ..)
        have payload : packet.toBytes = division.whole := by
          rw [ended.spelled rfl, spelled]
        refine ⟨packet, rfl, payload, ?_, consistentAfter⟩
        rw [← sound.length_toBytes, payload]
    | .ok none => exact ended.elim
    | .error error =>
        obtain ⟨unlinked, short⟩ := ended rfl
        exact absurd short (takes.not_short arePieces received spelled
          nonempty unlinked)
  · exact fun _ _ impossible => impossible
  · exact fun _ impossible => impossible

end Reassembler.Gathers

end PooledPackets
