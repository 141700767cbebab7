import PooledPackets.Proofs.Fragments.Gathering
import PooledPackets.Proofs.Reassembly.Projection

/-!
# Pieces within reach

Whether a piece of a packet is accepted depends only on where it and those that
arrived before it begin and end. That can be worked out without the pieces.
-/

namespace PooledPackets

/-- Where a piece begins and how long it is. -/
structure Extent where
  start : Nat
  length : Nat
  deriving DecidableEq, Repr

namespace Extent

def covers (extent : Extent) (position : Nat) : Bool :=
  decide (extent.start ≤ position) &&
    decide (position < extent.start + extent.length)

/-- Everything before a position has arrived. -/
def gapless (arrived : List Extent) (position : Nat) : Bool :=
  (List.range position).all fun place =>
    arrived.any fun extent => extent.covers place

/-- A piece continues what has arrived from the start on, or fewer than so many
pieces are behind a gap. -/
def inReach (holdLimit : Nat) (arrived : List Extent) (extent : Extent) :
    Bool :=
  gapless arrived extent.start ||
    decide ((arrived.filter fun other =>
      !gapless arrived other.start).length < holdLimit)

theorem gapless_iff {arrived : List Extent} {position : Nat} :
    gapless arrived position = true ↔
      ∀ place < position, ∃ extent ∈ arrived,
        extent.start ≤ place ∧ place < extent.start + extent.length := by
  simp [gapless, covers]

end Extent

/-- The extent of a fragment. -/
def Packet.extent (fragment : Packet) : Extent :=
  ⟨fragment.start, fragment.length⟩

namespace Assembly.Accounted

variable {assembly : Assembly} {datagram holdLimit : Nat}
variable {arrived : List Packet}

/-- What comes before the end of the front has arrived, and no more without a
gap. -/
theorem gapless_iff (accounted : assembly.Accounted datagram holdLimit)
    (same : assembly.fragments.Perm arrived) (position : Nat) :
    Extent.gapless (arrived.map Packet.extent) position = true ↔
      position ≤ assembly.frontEnd := by
  rw [Extent.gapless_iff]
  constructor
  · intro covered
    apply accounted.le_frontEnd
    intro place before
    obtain ⟨extent, member, begins, ends⟩ := covered place before
    obtain ⟨fragment, isArrived, rfl⟩ := List.mem_map.mp member
    obtain ⟨entry, isHeld, rfl⟩ :=
      List.mem_map.mp (same.mem_iff.mpr isArrived)
    have startsAt := accounted.start_eq isHeld
    rw [Packet.extent, startsAt] at begins ends
    exact ⟨entry, isHeld, begins, ends⟩
  · intro inFront place before
    obtain ⟨front, behind, split, runs, _⟩ := accounted.front
    obtain ⟨entry, isFront, begins, ends⟩ :=
      runs.exists_covering place (Nat.zero_le _) (by omega)
    have isHeld : entry ∈ assembly.held.entries := by
      rw [split]
      exact List.mem_append_left _ isFront
    refine ⟨entry.2.extent, List.mem_map_of_mem (same.mem_iff.mp
      (List.mem_map_of_mem isHeld)), ?_⟩
    rw [Packet.extent, accounted.start_eq isHeld]
    exact ⟨begins, ends⟩

/-- The detached fragments are those behind a gap. -/
theorem detached_eq (accounted : assembly.Accounted datagram holdLimit)
    (same : assembly.fragments.Perm arrived) :
    ((arrived.map Packet.extent).filter fun extent =>
      !Extent.gapless (arrived.map Packet.extent) extent.start).length =
        assembly.detached := by
  obtain ⟨front, behind, split, runs, isBehind, counted⟩ := accounted.front
  have startsAt : ∀ entry ∈ front ++ behind, entry.2.start = entry.1 := by
    intro entry member
    exact accounted.start_eq (split ▸ member)
  have separates : ∀ fragment : Packet,
      (!Extent.gapless (arrived.map Packet.extent) fragment.start) =
        decide (assembly.frontEnd < fragment.start) := by
    intro fragment
    rw [Bool.eq_iff_iff, Bool.not_eq_true', decide_eq_true_eq,
      ← Bool.not_eq_true, accounted.gapless_iff same, Nat.not_le]
  have noneInFront : front.filter
      (fun entry => decide (assembly.frontEnd < entry.2.start)) = [] := by
    rw [List.filter_eq_nil_iff]
    intro entry member
    have ends := runs.stopOf_le entry member
    have ordered := start_le_stopOf entry
    rw [startsAt entry (List.mem_append_left _ member), decide_eq_true_eq]
    omega
  have allBehind : behind.filter
      (fun entry => decide (assembly.frontEnd < entry.2.start)) =
        behind := by
    rw [List.filter_eq_self]
    intro entry member
    rw [startsAt entry (List.mem_append_right _ member), decide_eq_true_eq]
    exact isBehind entry member
  have held : assembly.fragments = (front ++ behind).map Prod.snd := by
    rw [← split]
    rfl
  rw [List.filter_map, List.length_map, ← counted]
  have filtered := (same.filter fun fragment =>
    decide (assembly.frontEnd < fragment.start)).length_eq
  rw [held, List.filter_map, List.length_map, List.filter_append] at filtered
  simp only [Function.comp_def] at filtered ⊢
  rw [noneInFront, allBehind, List.nil_append] at filtered
  rw [filtered]
  exact congrArg List.length
    (List.filter_congr fun fragment _ => separates fragment)

end Assembly.Accounted

namespace Reassembler.Gathers

variable {reassembler : Reassembler} {division : Division}
variable {now given deadline : Nat} {piece : Packet}
variable {arrived left pieces : List Packet}

/-- What decides about a piece can be told from the extents. -/
theorem inReach_iff
    (gathers : reassembler.Gathers division deadline arrived)
    (areAll : division.Pieces 0 pieces)
    (sameAll : pieces.Perm (arrived ++ piece :: left)) :
    Extent.inReach reassembler.limits.holdLimit
        (arrived.map Packet.extent) piece.extent = true ↔
      (piece.start = (reassembler.assemblyFor division.datagram.toNat
          deadline).frontEnd ∨
        (reassembler.assemblyFor division.datagram.toNat
          deadline).detached < reassembler.limits.holdLimit) := by
  have free : (reassembler.assemblyFor division.datagram.toNat
      deadline).claims (division.tagOf piece).offset
        ((division.tagOf piece).offset + piece.length) = false :=
    gathers.accounted.claims_piece gathers.same (areAll.parted sameAll)
  have notBefore : (reassembler.assemblyFor division.datagram.toNat
      deadline).frontEnd ≤ piece.start :=
    gathers.accounted.frontEnd_le free
  have begins : piece.extent.start = piece.start := rfl
  rw [Extent.inReach, gathers.accounted.detached_eq gathers.same,
    Bool.or_eq_true, decide_eq_true_eq,
    gathers.accounted.gapless_iff gathers.same, begins]
  omega

/-- A piece that comes in time is judged by what has arrived before it. -/
theorem judge_eq
    (gathers : reassembler.Gathers division deadline arrived)
    (isPiece : division.IsPiece piece.start piece)
    (first : arrived = [] → given = deadline)
    (timely : arrived ≠ [] → now < deadline) :
    reassembler.judge piece now given = reassembler.judgeAdded
      (reassembler.assemblyFor division.datagram.toNat deadline)
        (division.tagOf piece) piece := by
  have inTime := gathers.inTime timely
  rw [judge_of_room isPiece.tagged gathers.room,
    ← gathers.assemblyFor_eq first, assemblyFor]
  dsimp only [Division.tagOf]
  cases found : reassembler.pending.get? division.datagram.toNat with
  | some assembly => exact if_neg (Nat.not_le_of_lt (inTime assembly found))
  | none => rfl

theorem judge_late
    (gathers : reassembler.Gathers division deadline arrived)
    (isPiece : division.IsPiece piece.start piece) (begun : arrived ≠ [])
    (isLate : deadline ≤ now) :
    reassembler.judge piece now given =
      (.refused (.reassemblyTimeout division.datagram),
        reassembler.without division.datagram.toNat) := by
  have same := gathers.same
  have sameDeadline := gathers.deadline_eq
  rw [judge_of_room isPiece.tagged gathers.room]
  dsimp only [Division.tagOf]
  rw [assemblyFor] at same sameDeadline
  cases found : reassembler.pending.get? division.datagram.toNat with
  | some assembly =>
      rw [found, Option.getD_some] at sameDeadline
      exact if_pos (sameDeadline ▸ isLate)
  | none =>
      rw [found, Option.getD_none, Assembly.fragments_begun] at same
      exact absurd (List.Perm.nil_eq same).symm begun

theorem judge_outOfReach
    (gathers : reassembler.Gathers division deadline arrived)
    (areAll : division.Pieces 0 pieces)
    (sameAll : pieces.Perm (arrived ++ piece :: left))
    (first : arrived = [] → given = deadline)
    (timely : arrived ≠ [] → now < deadline)
    (outOfReach : Extent.inReach reassembler.limits.holdLimit
      (arrived.map Packet.extent) piece.extent = false) :
    reassembler.judge piece now given =
      (.refused (.holdLimitExceeded division.datagram
        reassembler.limits.holdLimit),
        reassembler.without division.datagram.toNat) := by
  have arePieces : ∀ other ∈ arrived ++ piece :: left,
      division.IsPiece other.start other :=
    fun other member =>
      (areAll.isPiece_of_mem other (sameAll.mem_iff.mpr member)).1
  have isPiece := arePieces piece (by simp)
  have heldPieces := Assembly.holdsPieces_of_perm gathers.same
    (fun held member => arePieces held (List.mem_append_left _ member))
  have refused := gathers.accounted.refuses_piece gathers.same heldPieces
    isPiece (areAll.parted sameAll) (by
      rw [← gathers.inReach_iff areAll sameAll, outOfReach]
      simp)
  rw [gathers.judge_eq isPiece first timely, judgeAdded, refused]
  rfl

/-- With the last piece the whole packet is there, piece by piece. -/
theorem judge_whole
    (gathers : reassembler.Gathers division deadline arrived)
    (areAll : division.Pieces 0 pieces)
    (sameAll : pieces.Perm (arrived ++ [piece]))
    (first : arrived = [] → given = deadline)
    (timely : arrived ≠ [] → now < deadline)
    (reached : Extent.inReach reassembler.limits.holdLimit
      (arrived.map Packet.extent) piece.extent = true) :
    ∃ longer, reassembler.judge piece now given =
        (.whole longer, reassembler.without division.datagram.toNat) ∧
      longer.fragments = pieces ∧
      Reassembly.spelling pieces = division.whole := by
  obtain ⟨longer, inserting, accounted, same, arePieces, _⟩ :=
    gathers.insert_of_reach areAll sameAll
      ((gathers.inReach_iff areAll sameAll).mp reached)
  have allHeld := same.trans sameAll.symm
  obtain ⟨complete, _, spelled⟩ :=
    accounted.complete_of_all arePieces areAll allHeld
  have isPiece : division.IsPiece piece.start piece :=
    arePieces piece (same.mem_iff.mpr (by simp))
  have inOrder : longer.fragments = pieces := by
    have ascending : longer.fragments.Pairwise
        fun one other => one.start < other.start := by
      rw [Assembly.fragments, Table.values, List.pairwise_map]
      apply List.Pairwise.imp_of_mem ?_ longer.held.ascending
      intro one other isOne isOther ordered
      rw [accounted.start_eq isOne, accounted.start_eq isOther]
      exact ordered
    have piecesAscend := areAll.pairwise.imp fun ordered => ordered.1
    apply allHeld.eq_of_pairwise ?_ ascending piecesAscend
    intro one other _ _ before after
    omega
  refine ⟨longer, ?_, inOrder, inOrder ▸ spelled⟩
  rw [gathers.judge_eq isPiece first timely, judgeAdded, inserting]
  simp only [complete, if_true]
  rfl

end Reassembler.Gathers

end PooledPackets
