import PooledPackets.Proofs.Load.Rounds

/-!
# Where headers are misread

If headers are read in another byte order than they were written in, a first
and a last fragment may seem to belong side by side. Then they are put together
as soon as both have arrived, and what arrives later waits in vain.
-/

namespace PooledPackets

open Operation

namespace Extent

/-- Two extents do not overlap and do not begin at the same place. -/
def Parted (one other : Extent) : Prop :=
  one.start ≠ other.start ∧
    (one.start + one.length ≤ other.start ∨
      other.start + other.length ≤ one.start)

/-- One extent begins and ends before the other one. -/
def Ahead (one other : Extent) : Prop :=
  one.start < other.start ∧ one.start + one.length ≤ other.start

instance : DecidableRel Ahead := fun one other =>
  inferInstanceAs (Decidable (one.start < other.start ∧
    one.start + one.length ≤ other.start))

instance : Trans Ahead Ahead Ahead where
  trans := fun ⟨begins, _⟩ ⟨later, ends⟩ =>
    ⟨Nat.lt_trans begins later, by omega⟩

theorem Ahead.parted {one other : Extent} (ahead : one.Ahead other) :
    one.Parted other :=
  ⟨Nat.ne_of_lt ahead.1, Or.inl ahead.2⟩

end Extent

/-! ## Fragments that wait in vain -/

/-- A fragment of a datagram that is not its last one. -/
def Packet.Precedes (fragment : Packet) (number : Nat) : Prop :=
  ∃ tag, fragment.tag = some tag ∧ tag.datagram.toNat = number ∧
    tag.moreFragments = true

/-- As long as the end is not known and few fragments are held, one that is
apart from them is added. -/
theorem Assembly.Accounted.insert_preceding {assembly : Assembly}
    {datagram holdLimit : Nat} {fragment : Packet} {tag : FragmentTag}
    {taken : List Packet} (accounted : assembly.Accounted datagram holdLimit)
    (same : assembly.fragments.Perm taken) (endless : assembly.total = none)
    (tagged : fragment.tag = some tag) (goesOn : tag.moreFragments = true)
    (parted : ∀ other ∈ taken, other.extent.Parted fragment.extent)
    (few : taken.length < holdLimit) :
    ∃ longer, assembly.insert tag fragment holdLimit = .ok longer ∧
      longer.total = none ∧ longer.deadline = assembly.deadline := by
  have begins : fragment.start = tag.offset := by
    rw [Packet.start, tagged]
    rfl
  have free := accounted.claims_piece same parted
  rw [Packet.stop, begins] at free
  have agrees : assembly.contradicts tag.moreFragments
      (tag.offset + fragment.length) = false := by
    rw [contradicts, goesOn, if_pos rfl, endless]
  have roomy : assembly.detached < holdLimit := by
    obtain ⟨front, behind, split, _, _, counted⟩ := accounted.front
    have heldCount := same.length_eq
    rw [fragments, Table.values, List.length_map, split,
      List.length_append, counted] at heldCount
    omega
  refine ⟨assembly.place tag fragment, insert_eq_ok_iff.mpr
    ⟨free, agrees, Or.inr roomy, rfl⟩, ?_, rfl⟩
  rw [Assembly.total_place, goesOn, if_pos rfl, endless]

namespace Reassembler

variable {reassembler : Reassembler} {fragment : Packet}
variable {number now deadline : Nat} {taken left : List Packet}

/-- Some fragments of a datagram have been taken, and its end is not known. -/
structure Awaits (reassembler : Reassembler) (number deadline : Nat)
    (taken : List Packet) : Prop where
  accounted : (reassembler.assemblyFor number deadline).Accounted number
    reassembler.limits.holdLimit
  same : (reassembler.assemblyFor number deadline).fragments.Perm taken
  deadline_eq :
    (reassembler.assemblyFor number deadline).deadline = deadline
  room : reassembler.HasRoom number
  endless : (reassembler.assemblyFor number deadline).total = none

theorem awaits_nothing (vacant : reassembler.pending.get? number = none)
    (room : reassembler.HasRoom number) :
    reassembler.Awaits number deadline [] := by
  have isBegun : reassembler.assemblyFor number deadline =
      .begun deadline := by
    rw [assemblyFor, vacant]
    rfl
  constructor
  · rw [isBegun]
    exact Assembly.accounted_begun deadline _ _
  · rw [isBegun]
    exact .refl _
  · rw [isBegun]
    rfl
  · exact room
  · rw [isBegun]
    rfl

/-- As long as few are held, a fragment that is apart from them is held. -/
theorem Awaits.waits (awaits : reassembler.Awaits number deadline taken)
    (precedes : fragment.Precedes number)
    (parted : ∀ other ∈ taken, other.extent.Parted fragment.extent)
    (few : taken.length < reassembler.limits.holdLimit)
    (timely : now < deadline) :
    ∃ after : Reassembler,
      (∀ hand pools, reassembler.pushUntil hand fragment now deadline pools =
        .done (.ok none, after) pools) ∧
      after.limits = reassembler.limits ∧
      after.Awaits number deadline (taken ++ [fragment]) := by
  obtain ⟨tag, tagged, rfl, goesOn⟩ := precedes
  obtain ⟨longer, inserting, endless, sameDeadline⟩ :=
    awaits.accounted.insert_preceding awaits.same awaits.endless tagged
      goesOn parted few
  have incomplete : longer.isComplete = false := by
    rw [Assembly.isComplete, endless]
    rfl
  have inTime : ∀ assembly,
      reassembler.pending.get? tag.datagram.toNat = some assembly →
        now < assembly.deadline := by
    intro assembly found
    have isDeadline := awaits.deadline_eq
    rw [assemblyFor, found, Option.getD_some] at isDeadline
    exact isDeadline ▸ timely
  have isHeld : (reassembler.having tag.datagram.toNat longer).assemblyFor
      tag.datagram.toNat deadline = longer := by
    simp [assemblyFor, Reassembler.having]
  refine ⟨reassembler.having tag.datagram.toNat longer, ?_, rfl, ?_⟩
  · intro hand pools
    rw [pushUntil_of_room tagged awaits.room inTime]
    exact add_of_incomplete inserting incomplete pools
  · constructor
    · rw [isHeld]
      exact awaits.accounted.insert tagged rfl inserting
    · rw [isHeld]
      exact (Assembly.fragments_of_insert inserting).trans
        ((awaits.same.cons fragment).trans
          (List.perm_append_singleton fragment taken).symm)
    · rw [isHeld]
      exact sameDeadline.trans awaits.deadline_eq
    · apply Or.inl
      simp [Reassembler.having, Table.contains]
    · rw [isHeld]
      exact endless

/-- Fragments that are apart from one another all wait if none is the last one
and not too many are held. -/
theorem collect_waits (timely : now < deadline) {whole : Option Packet} :
    ∀ {left taken : List Packet} {reassembler : Reassembler},
      reassembler.Awaits number deadline taken →
      reassembler.limits.timeout.after? now = some deadline →
      (∀ fragment ∈ left, fragment.Precedes number) →
      ((taken ++ left).map Packet.extent).Pairwise Extent.Parted →
      taken.length + left.length ≤ reassembler.limits.holdLimit →
      ∀ pools, ∃ after : Reassembler,
        Load.collect now reassembler whole left pools =
          .done (.ok whole, after) pools
  | [], _, reassembler, _, _, _, _, _, pools => ⟨reassembler, rfl⟩
  | fragment :: rest, taken, reassembler, awaits, reading, precede, parted,
      few, pools => by
      rw [List.length_cons] at few
      have apart := List.pairwise_append.mp (List.map_append ▸ parted)
      obtain ⟨after, waiting, sameLimits, awaitsMore⟩ := awaits.waits
        (precede fragment (List.mem_cons_self ..))
        (fun other member => apart.2.2 _ (List.mem_map_of_mem member) _
          (List.mem_cons_self ..)) (by omega) timely
      have pushed : reassembler.push fragment now pools =
          .done (.ok none, after) pools :=
        (push_eq reading pools).trans (waiting _ pools)
      have goesOn : Load.collect now reassembler whole (fragment :: rest)
          pools = Load.collect now after whole rest pools :=
        bind_of_done pushed
      rw [goesOn]
      rw [List.append_cons] at parted
      refine collect_waits timely awaitsMore (sameLimits ▸ reading)
        (fun other member => precede other (.tail _ member)) parted ?_ pools
      rw [sameLimits, List.length_append, List.length_singleton]
      omega

end Reassembler

/-! ## Two fragments side by side -/

/-- A first and a last fragment, one of which seems to begin where the other
one ends. -/
structure Packet.Adjoin (first last : Packet) (id : PoolId)
    (datagram : UInt32) : Prop where
  first_eq : first.tag = some ⟨datagram, 0, true⟩
  last_eq : last.tag = some ⟨datagram, first.length, false⟩
  nonempty : 0 < first.length ∧ 0 < last.length
  own : first.pool = id ∧ last.pool = id
  held : first.chain ≠ [] ∧ last.chain ≠ []

/-- What two fragments hold, one after the other. -/
def Division.ofTwo (first last : Packet) (id : PoolId)
    (datagram : UInt32) : Division :=
  ⟨first.toBytes ++ last.toBytes, datagram, id, 0⟩

section Adjoining

variable {first last : Packet} {rest : List Packet} {id : PoolId}
variable {datagram : UInt32} {now deadline : Nat}
variable {limits : ReassemblyLimits} {pools origin : Pools}

/-- Two fragments side by side are the pieces of all that they hold. -/
theorem Packet.Adjoin.pieces (adjoin : first.Adjoin last id datagram)
    (soundFirst : first.Sound) (soundLast : last.Sound) :
    (Division.ofTwo first last id datagram).Pieces 0 [first, last] := by
  have total : (first.toBytes ++ last.toBytes).length =
      first.length + last.length := by
    rw [List.length_append, soundFirst.length_toBytes,
      soundLast.length_toBytes]
  have positive := adjoin.nonempty
  have goesOn : 0 + first.length < (first.toBytes ++ last.toBytes).length := by
    omega
  have ends : 0 + first.length + last.length =
      (first.toBytes ++ last.toBytes).length := by
    omega
  refine .more ⟨?_, Nat.le_of_lt goesOn, ?_, adjoin.own.1, adjoin.held.1,
    Nat.zero_le _⟩ positive.1 goesOn
      (.last ⟨?_, Nat.le_of_eq ends, ?_, adjoin.own.2, adjoin.held.2,
        Nat.zero_le _⟩ ends)
  · rw [adjoin.first_eq, Division.ofTwo, decide_eq_true goesOn]
  · rw [Nat.zero_add, ← soundFirst.length_toBytes, Bytes.between,
      Division.ofTwo, List.take_left, List.drop_zero]
  · rw [adjoin.last_eq, Division.ofTwo, decide_eq_false (Nat.not_lt_of_le
      (Nat.le_of_eq ends.symm)), Nat.zero_add]
  · rw [ends, Nat.zero_add, ← soundFirst.length_toBytes, Bytes.between,
      Division.ofTwo, List.take_length, List.drop_left]

theorem Packet.Adjoin.start_eq (adjoin : first.Adjoin last id datagram) :
    first.start = 0 ∧ last.start = first.length := by
  rw [Packet.start, Packet.start, adjoin.first_eq, adjoin.last_eq]
  exact ⟨rfl, rfl⟩

theorem Packet.Adjoin.parts (adjoin : first.Adjoin last id datagram) :
    first.PartOf id datagram.toNat ∧ last.PartOf id datagram.toNat :=
  ⟨⟨adjoin.own.1, adjoin.held.1, _, adjoin.first_eq, rfl⟩,
    adjoin.own.2, adjoin.held.2, _, adjoin.last_eq, rfl⟩

namespace Pools.Consistent

/-- The first one of two fragments waits. -/
theorem push_first_of_two
    (consistent : pools.Consistent origin .never (first :: last :: rest))
    (positive : 0 < limits.maxDatagrams)
    (reading : limits.timeout.after? now = some deadline)
    (adjoin : first.Adjoin last id datagram) :
    ∃ changed : Reassembler,
      Reassembler.push ⟨id, limits, .empty⟩ first now pools =
        .done (.ok none, changed) pools ∧
      changed.Gathers (.ofTwo first last id datagram) deadline [first] := by
  have areAll := adjoin.pieces
    (consistent.kept first (by simp)) (consistent.kept last (by simp))
  have nothing : Reassembler.Gathers ⟨id, limits, .empty⟩
      (.ofTwo first last id datagram) deadline [] :=
    Reassembler.gathers_nothing rfl positive
  have begun : ([] : List Packet) ≠ [] → now < deadline :=
    fun impossible => absurd rfl impossible
  obtain ⟨changed, waiting, _, _, gathers⟩ := nothing.waits_of_reach
    areAll (List.Perm.refl _) (Or.inl adjoin.start_eq.1) (by simp)
    (fun _ => rfl) begun
  exact ⟨changed, (Reassembler.push_eq reading pools).trans (waiting _ pools),
    gathers⟩

/-- The last one of two fragments makes them whole. -/
theorem push_last_of_two {changed : Reassembler}
    (consistent : pools.Consistent origin .never
      (last :: (changed.fragments ++ rest)))
    (sound : first.Sound) (adjoin : first.Adjoin last id datagram)
    (chaining : (origin.get id).config.chaining = true)
    (reading : limits.timeout.after? now = some deadline)
    (timely : now < deadline)
    (serves : changed.Serves id limits datagram.toNat)
    (gathers : changed.Gathers (.ofTwo first last id datagram) deadline
      [first]) :
    (changed.push last now pools).Satisfies
      (fun acceptance _ => acceptance.2 = ⟨id, limits, .empty⟩ ∧
        ∃ packet, acceptance.1 = .ok (some packet) ∧
          packet.toBytes = first.toBytes ++ last.toBytes)
      (fun _ _ => False) (fun _ => False) := by
  have areAll := adjoin.pieces sound (consistent.kept last (by simp))
  have isPool := serves.pool_eq
  have areLimits := serves.limits_eq
  have reached : Extent.inReach changed.limits.holdLimit
      ([first].map Packet.extent) last.extent = true := by
    rw [Extent.inReach, Bool.or_eq_true, Extent.gapless_iff]
    refine Or.inl fun place before => ⟨first.extent, by simp, ?_⟩
    have isBefore : place < last.start := before
    rw [adjoin.start_eq.2] at isBefore
    rw [Packet.extent, adjoin.start_eq.1]
    exact ⟨Nat.zero_le _, by simpa using isBefore⟩
  have joined := consistent.push_gathers_last (areLimits ▸ reading) gathers
    serves.confined areAll (List.Perm.refl _)
    (adjoin.own.2.trans isPool.symm) (fun _ => timely) reached
  apply ((consistent.push_serves serves adjoin.parts.2).and joined).mono
  · rintro ⟨answer, next⟩ after ⟨⟨_, servesAfter, _⟩, gathered⟩
    rw [isPool, chaining] at gathered
    cases answer with
    | error error => cases gathered
    | ok joined =>
        cases joined with
        | none => exact gathered.elim
        | some packet =>
            exact ⟨servesAfter.eq_empty gathered.2.2, packet, rfl,
              gathered.2.1⟩
  · exact fun _ _ impossible => impossible.1
  · rintro stop ⟨_, unread⟩
    cases unread.symm.trans reading

/-- Two fragments that seem to belong side by side are put together, whatever
comes after them, as long as that can wait. -/
theorem collect_adjoining
    (consistent : pools.Consistent origin .never (first :: last :: rest))
    (positive : 0 < limits.maxDatagrams)
    (chaining : (origin.get id).config.chaining = true)
    (reading : limits.timeout.after? now = some deadline)
    (timely : now < deadline) (adjoin : first.Adjoin last id datagram)
    (precede : ∀ fragment ∈ rest, fragment.Precedes datagram.toNat)
    (parted : (rest.map Packet.extent).Pairwise Extent.Parted)
    (few : rest.length ≤ limits.holdLimit) :
    (Load.collect now ⟨id, limits, .empty⟩ none (first :: last :: rest)
      pools).Satisfies
        (fun result _ => ∃ packet, result.1 = .ok (some packet) ∧
          packet.toBytes = first.toBytes ++ last.toBytes)
        (fun _ _ => False) (fun _ => False) := by
  obtain ⟨changed, pushed, gathers⟩ :=
    consistent.push_first_of_two positive reading adjoin
  obtain ⟨consistentAfter, servesAfter, _⟩ :=
    (push_serves consistent (Reassembler.serves_empty positive _)
      adjoin.parts.1).of_done pushed
  have lastFirst : pools.Consistent origin .never
      (last :: (changed.fragments ++ rest)) :=
    consistentAfter.perm List.perm_middle
  have goesOn : Load.collect now ⟨id, limits, .empty⟩ none
      (first :: last :: rest) pools =
        Load.collect now changed none (last :: rest) pools :=
    bind_of_done pushed
  rw [goesOn]
  apply Outcome.Satisfies.bind (lastFirst.push_last_of_two
    (consistent.kept first (by simp)) adjoin chaining reading timely
    servesAfter gathers)
  rintro ⟨_, _⟩ after ⟨rfl, packet, rfl, isBoth⟩
  have awaits : Reassembler.Awaits ⟨id, limits, .empty⟩ datagram.toNat
      deadline [] :=
    Reassembler.awaits_nothing rfl (Or.inr positive)
  obtain ⟨leftover, isDone⟩ := Reassembler.collect_waits timely awaits
    reading precede parted (by simpa using few) after
  have nothingElse : (Packet.dropAll (none : Option Packet).toList
      after).Satisfies (fun _ pools => pools = after) (fun _ _ => False)
        (fun _ => False) :=
    Outcome.Satisfies.pure rfl
  apply Outcome.Satisfies.bind nothingElse
  rintro _ _ rfl
  rw [isDone]
  exact ⟨packet, rfl, isBoth⟩

end Pools.Consistent

end Adjoining

namespace Load

/-! ## Over a link -/

namespace Link

variable {link : Link} {origin : Pools}

/-- The extent that a fragment seems to have once it has crossed. -/
def seeming (link : Link) (origin : Pools) (extent : Extent) : Extent :=
  ⟨(link.carried origin ⟨0, extent.start, true⟩).offset, extent.length⟩

/-- In the order of arrival the first two fragments seem to be the first and
the last one, side by side. They are not all of the payload, and the others seem
to come in order. -/
structure CutsShort (link : Link) (origin : Pools) (len : Nat)
    (first last : Extent) (rest : List Extent) : Prop where
  begins : (link.seeming origin first).start = 0
  goesOn : first.start + first.length < len
  adjoins : (link.seeming origin last).start = first.length
  ends : len ≤ last.start + last.length
  nonempty : 0 < first.length ∧ 0 < last.length
  precede : ∀ extent ∈ rest, extent.start + extent.length < len
  inOrder : (rest.map (link.seeming origin)).IsChain Extent.Ahead
  few : rest.length ≤
    (origin.get link.receiver).config.reassembly.holdLimit
  short : first.length + last.length < len

instance (link : Link) (origin : Pools) (len : Nat) (first last : Extent)
    (rest : List Extent) :
    Decidable (link.CutsShort origin len first last rest) :=
  decidable_of_iff ((link.seeming origin first).start = 0 ∧
    first.start + first.length < len ∧
    (link.seeming origin last).start = first.length ∧
    len ≤ last.start + last.length ∧
    (0 < first.length ∧ 0 < last.length) ∧
    (∀ extent ∈ rest, extent.start + extent.length < len) ∧
    (rest.map (link.seeming origin)).IsChain Extent.Ahead ∧
    rest.length ≤ (origin.get link.receiver).config.reassembly.holdLimit ∧
    first.length + last.length < len)
    ⟨fun ⟨begins, goesOn, adjoins, ends, nonempty, precede, inOrder, few,
        short⟩ =>
      ⟨begins, goesOn, adjoins, ends, nonempty, precede, inOrder, few,
        short⟩,
    fun ⟨begins, goesOn, adjoins, ends, nonempty, precede, inOrder, few,
        short⟩ =>
      ⟨begins, goesOn, adjoins, ends, nonempty, precede, inOrder, few,
        short⟩⟩

namespace Carries

variable {whole : Bytes} {datagram : UInt32} {extent : Extent}
variable {arrival : Packet}

theorem tag_seems
    (carries : link.Carries origin whole datagram extent arrival) :
    arrival.tag = some {
      datagram := link.numbered origin datagram
      offset := (link.seeming origin extent).start
      moreFragments :=
        decide (extent.start + extent.length < whole.length) } := by
  rw [Arrives.tag_eq carries]
  unfold seeming carried numbered
  split
  · rfl
  · rfl

theorem extent_seems
    (carries : link.Carries origin whole datagram extent arrival)
    (sound : arrival.Sound)
    (within : extent.start + extent.length ≤ whole.length) :
    arrival.extent = link.seeming origin extent := by
  rw [Packet.extent, Packet.start, carries.tag_seems,
    carries.length_eq sound within]
  rfl

theorem precedes
    (carries : link.Carries origin whole datagram extent arrival)
    (goesOn : extent.start + extent.length < whole.length) :
    arrival.Precedes (link.numbered origin datagram).toNat :=
  ⟨_, carries.tag_seems, rfl, decide_eq_true goesOn⟩

end Carries

variable {whole : Bytes} {datagram : UInt32} {first last : Extent}
variable {rest : List Extent} {one other : Packet}

theorem extents_seem {extents : List Extent} {arrivals : List Packet}
    (carried : List.Forall₂ (link.Carries origin whole datagram) extents
      arrivals) (sound : ∀ arrival ∈ arrivals, arrival.Sound)
    (within : ∀ extent ∈ extents,
      extent.start + extent.length ≤ whole.length) :
    arrivals.map Packet.extent = extents.map (link.seeming origin) := by
  induction carried with
  | nil => rfl
  | cons carries _ inductionHypothesis =>
      rw [List.forall_mem_cons] at sound within
      rw [List.map_cons, List.map_cons,
        carries.extent_seems sound.1 within.1,
        inductionHypothesis sound.2 within.2]

theorem CutsShort.parted {len : Nat}
    (cut : link.CutsShort origin len first last rest) :
    (rest.map (link.seeming origin)).Pairwise Extent.Parted :=
  (List.isChain_iff_pairwise.mp cut.inOrder).imp Extent.Ahead.parted

theorem CutsShort.adjoin
    (cut : link.CutsShort origin whole.length first last rest)
    (isFirst : link.Carries origin whole datagram first one)
    (isLast : link.Carries origin whole datagram last other)
    (sounds : one.Sound ∧ other.Sound)
    (within : last.start + last.length ≤ whole.length) :
    one.Adjoin other link.receiver (link.numbered origin datagram) := by
  have lengths := isFirst.length_eq sounds.1 (Nat.le_of_lt cut.goesOn)
  constructor
  · rw [isFirst.tag_seems, cut.begins, decide_eq_true cut.goesOn]
  · rw [isLast.tag_seems, cut.adjoins, lengths,
      decide_eq_false (Nat.not_lt_of_le cut.ends)]
  · rw [lengths, isLast.length_eq sounds.2 within]
    exact cut.nonempty
  · exact ⟨isFirst.pool_eq, isLast.pool_eq⟩
  · exact ⟨isFirst.held, isLast.held⟩

end Link

/-- Where the order of arrival cuts a payload short, part of it is delivered as
if it were all. -/
theorem roundTrip_cutShort {link : Link} {origin pools : Pools}
    {first last : Extent} {rest : List Extent} {deadline : Nat}
    (ready : link.Ready origin) (idle : pools.Consistent origin .never [])
    (round : Round)
    (sent : link.refusal? origin round.payload.length = none)
    (chaining : (origin.get link.receiver).config.chaining = true)
    (reading : (link.timeout origin).after? round.now = some deadline)
    (timely : round.now < deadline)
    (arranged : arrange round.choices
      (link.extents origin round.payload.length) = first :: last :: rest)
    (cut : link.CutsShort origin round.payload.length first last rest) :
    ((link.idleWorker origin).roundTrip round pools).Satisfies
      (fun result _ => ∃ packet count, result.1 = .ok (packet, count) ∧
        packet.toBytes.length < round.payload.length)
      (fun _ _ => False) (fun _ => False) := by
  apply roundTrip_satisfies ready idle round
  · intro error arrivals after refused
    cases refused.symm.trans sent
  · intro source datagram arrivals after _ consistent sound isPayload
      isLength carried _
    have within : ∀ extent ∈ link.extents origin source.length,
        extent.start + extent.length ≤ source.toBytes.length :=
      (underway_fragmenter ready sound datagram).within_of_mem rfl
    rw [isPayload, isLength] at carried within
    have inOrder := arrange_forall₂ round.choices carried
    have consistentOrder := consistent.perm
      (arrange_perm round.choices arrivals).symm
    have inside : ∀ extent ∈ first :: last :: rest,
        extent.start + extent.length ≤ round.payload.length := by
      intro extent member
      rw [← arranged] at member
      exact within extent ((arrange_perm _ _).mem_iff.mp member)
    rw [arranged] at inOrder
    generalize arrange round.choices arrivals = ordered
      at inOrder consistentOrder ⊢
    obtain _ | @⟨_, one, _, _, isFirst, later⟩ := inOrder
    obtain _ | @⟨_, other, _, others, isLast, areOthers⟩ := later
    have soundOne : one.Sound := consistentOrder.kept one (by simp)
    have soundOther : other.Sound := consistentOrder.kept other (by simp)
    have withinLast := inside last (by simp)
    have isRest := Link.extents_seem areOthers
      (fun arrival member => consistentOrder.kept arrival (by simp [member]))
      (fun extent member => inside extent (by simp [member]))
    have adjoin := cut.adjoin isFirst isLast ⟨soundOne, soundOther⟩
      withinLast
    apply (consistentOrder.collect_adjoining ready.maxDatagrams_pos chaining
      reading timely adjoin ?_ (isRest ▸ cut.parted)
        (areOthers.length_eq ▸ cut.few)).monoDone
    · rintro ⟨_, reassembler⟩ _ ⟨packet, rfl, isBoth⟩
      refine ⟨packet, _, rfl, ?_⟩
      rw [isBoth, List.length_append, soundOne.length_toBytes,
        soundOther.length_toBytes,
        isFirst.length_eq soundOne (inside first (by simp)),
        isLast.length_eq soundOther withinLast]
      exact cut.short
    · intro fragment member
      obtain ⟨extent, isExtent, carries⟩ :=
        Link.exists_of_carried areOthers fragment member
      exact carries.precedes (cut.precede extent isExtent)

end Load

end PooledPackets
