import PooledPackets.Proofs.Fragments.Pieces

/-!
# Pieces that arrive in any order

The pieces of a packet are accepted in any order, as long as not too many of
them are detached at once. Their datagram becomes complete with the last one
to arrive, whichever that is, and spells the packet.
-/

namespace PooledPackets

namespace Packet

/-- Packets continue one another from one position to another. -/
def Continue : (start : Nat) → List Packet → (stop : Nat) → Prop
  | start, [], stop => stop = start
  | start, piece :: rest, stop =>
      piece.start = start ∧ Continue piece.stop rest stop

/-- Some packets continue one another from the start of the datagram up to a
position, and the others begin behind a gap. -/
def Front (held : List Packet) (stop : Nat) (behind : List Packet) : Prop :=
  ∃ front, held.Perm (front ++ behind) ∧ Continue 0 front stop ∧
    ∀ piece ∈ behind, stop < piece.start

/-- In the order of their arrival packets either continue the front or find
fewer than so many detached ones. -/
def InReach (arrivals : List Packet) (holdLimit : Nat) : Prop :=
  ∀ taken piece left, arrivals = taken ++ piece :: left →
    ∀ stop behind, Front taken stop behind →
      piece.start = stop ∨ behind.length < holdLimit

/-- As many detached fragments as there are pieces are never too many. -/
theorem inReach_of_length_le {arrivals : List Packet} {holdLimit : Nat}
    (few : arrivals.length ≤ holdLimit) :
    InReach arrivals holdLimit := by
  intro taken piece left order stop behind isFront
  obtain ⟨front, same, _⟩ := isFront
  have counted := same.length_eq
  simp only [order, List.length_append, List.length_cons] at few counted
  exact Or.inr (by omega)

end Packet

namespace Assembly

variable {assembly longer : Assembly} {datagram holdLimit : Nat}

theorem Accounted.continue_of_runs
    (accounted : assembly.Accounted datagram holdLimit) :
    ∀ {entries : List (Nat × Packet)} {start stop : Nat},
      (∀ entry ∈ entries, entry ∈ assembly.held.entries) →
      Runs start entries stop →
        Packet.Continue start (entries.map Prod.snd) stop
  | [], _, _, _, runs => runs
  | first :: rest, _, _, areHeld, ⟨begins, runs⟩ => by
      have isHeld := areHeld first (List.mem_cons_self ..)
      refine ⟨(accounted.start_eq isHeld).trans begins, ?_⟩
      rw [accounted.stop_eq isHeld]
      exact accounted.continue_of_runs
        (fun entry member => areHeld entry (.tail _ member)) runs

theorem Accounted.exists_front
    (accounted : assembly.Accounted datagram holdLimit)
    {taken : List Packet} (same : assembly.fragments.Perm taken) :
    ∃ behind, Packet.Front taken assembly.frontEnd behind ∧
      behind.length = assembly.detached := by
  obtain ⟨front, behind, split, runs, detached, counted⟩ :=
    accounted.front
  have inHeld : ∀ entry ∈ front ++ behind,
      entry ∈ assembly.held.entries := by
    intro entry member
    rw [split]
    exact member
  refine ⟨behind.map Prod.snd, ⟨front.map Prod.snd, ?_, ?_, ?_⟩, ?_⟩
  · rw [← List.map_append, ← split]
    exact same.symm
  · apply accounted.continue_of_runs ?_ runs
    exact fun entry member => inHeld entry (List.mem_append_left _ member)
  · intro piece isBehind
    obtain ⟨entry, member, rfl⟩ := List.mem_map.mp isBehind
    rw [accounted.start_eq (inHeld entry (List.mem_append_right _ member))]
    exact detached entry member
  · rw [List.length_map]
    exact counted

theorem Accounted.received_eq_sum
    (accounted : assembly.Accounted datagram holdLimit)
    {taken : List Packet} (same : assembly.fragments.Perm taken) :
    assembly.received = (taken.map Packet.length).sum := by
  have added := (same.map Packet.length).sum_nat
  rw [← added, accounted.received_eq, fragments, Table.values,
    List.map_map]
  rfl

/-! ## A piece going into its datagram -/

variable {division : Division} {piece : Packet}
variable {pieces taken left : List Packet}

/-- What is held is made of pieces of one packet. -/
def HoldsPieces (assembly : Assembly) (division : Division) : Prop :=
  ∀ held ∈ assembly.fragments, division.IsPiece held.start held

theorem holdsPieces_of_perm (same : assembly.fragments.Perm taken)
    (arePieces : ∀ held ∈ taken, division.IsPiece held.start held) :
    assembly.HoldsPieces division :=
  fun held member => arePieces held (same.mem_iff.mp member)

/-- If the length of the datagram is known it is that of the packet. -/
theorem Accounted.total_of_pieces
    (accounted : assembly.Accounted datagram holdLimit)
    (arePieces : assembly.HoldsPieces division) {total : Nat}
    (known : assembly.total = some total) :
    total = division.whole.length := by
  obtain ⟨entry, member, isLast, ends⟩ :=
    (accounted.total_eq total).mp known
  have isPiece := arePieces entry.2 (List.mem_map_of_mem member)
  rw [← ends, ← accounted.stop_eq member]
  exact isPiece.isFinal_iff.mp isLast

theorem Accounted.claims_piece
    (accounted : assembly.Accounted datagram holdLimit)
    (same : assembly.fragments.Perm taken)
    (parted : ∀ other ∈ taken,
      other.start ≠ piece.start ∧ other.Clears piece) :
    assembly.claims piece.start piece.stop = false := by
  rw [claims_eq_false_iff accounted.apart]
  intro entry member
  obtain ⟨differs, clears⟩ := parted entry.2
    (same.mem_iff.mp (List.mem_map_of_mem member))
  rw [Packet.Clears, accounted.stop_eq member,
    accounted.start_eq member] at clears
  rw [accounted.start_eq member] at differs
  refine ⟨differs, fun overlaps => ?_⟩
  rcases clears with before | after
  · exact before
  · exact absurd overlaps (Nat.not_lt_of_le after)

/-- Nothing is known of the end of the packet that a piece contradicts. -/
theorem Accounted.contradicts_piece
    (accounted : assembly.Accounted datagram holdLimit)
    (arePieces : assembly.HoldsPieces division)
    (isPiece : division.IsPiece piece.start piece) :
    assembly.contradicts (division.tagOf piece).moreFragments piece.stop =
      false := by
  have within := isPiece.stop_le
  rw [contradicts_eq_false_iff accounted.apart]
  by_cases more : piece.stop < division.whole.length
  · have goesOn : (division.tagOf piece).moreFragments = true :=
      decide_eq_true more
    rw [if_pos goesOn]
    intro total known
    rw [accounted.total_of_pieces arePieces known]
    exact within
  · have isLast : (division.tagOf piece).moreFragments = false :=
      decide_eq_false more
    have ends : piece.stop = division.whole.length :=
      Nat.le_antisymm within (Nat.le_of_not_lt more)
    rw [if_neg (by simp [isLast]), ends]
    refine ⟨fun total known => ?_, fun entry member => ?_⟩
    · exact accounted.total_of_pieces arePieces known
    · rw [← accounted.stop_eq member]
      exact (arePieces entry.2 (List.mem_map_of_mem member)).stop_le

/-- A piece that is in reach is accepted. -/
theorem Accounted.insert_piece
    (accounted : assembly.Accounted datagram holdLimit)
    (same : assembly.fragments.Perm taken)
    (arePieces : assembly.HoldsPieces division)
    (isPiece : division.IsPiece piece.start piece)
    (parted : ∀ other ∈ taken,
      other.start ≠ piece.start ∧ other.Clears piece)
    (inReach : piece.start = assembly.frontEnd ∨
      assembly.detached < holdLimit) :
    assembly.insert (division.tagOf piece) piece holdLimit =
      .ok (assembly.place (division.tagOf piece) piece) :=
  insert_eq_ok_iff.mpr ⟨accounted.claims_piece same parted,
    accounted.contradicts_piece arePieces isPiece, inReach, rfl⟩

/-- A piece that is out of reach is refused for that alone. -/
theorem Accounted.refuses_piece
    (accounted : assembly.Accounted datagram holdLimit)
    (same : assembly.fragments.Perm taken)
    (arePieces : assembly.HoldsPieces division)
    (isPiece : division.IsPiece piece.start piece)
    (parted : ∀ other ∈ taken,
      other.start ≠ piece.start ∧ other.Clears piece)
    (outOfReach : ¬(piece.start = assembly.frontEnd ∨
      assembly.detached < holdLimit)) :
    assembly.insert (division.tagOf piece) piece holdLimit =
      .error (.holdLimitExceeded division.datagram holdLimit) := by
  rw [not_or, Nat.not_lt] at outOfReach
  exact insert_of_outOfReach (accounted.claims_piece same parted)
    (accounted.contradicts_piece arePieces isPiece) outOfReach

/-- Pieces that arrive in their order always continue the front. -/
theorem Accounted.frontEnd_eq_of_inOrder
    (accounted : assembly.Accounted datagram holdLimit)
    (same : assembly.fragments.Perm taken)
    (inOrder : division.Pieces 0 (taken ++ piece :: left)) :
    assembly.frontEnd = piece.start := by
  have parted := inOrder.parted (.refl _)
  have free : assembly.claims (division.tagOf piece).offset
      ((division.tagOf piece).offset + piece.length) = false :=
    accounted.claims_piece same parted
  have notBefore := accounted.frontEnd_le free
  have notBehind : piece.start ≤ assembly.frontEnd := by
    apply accounted.le_frontEnd
    intro position before
    obtain ⟨other, isTaken, begins, ends⟩ :=
      inOrder.covered position (Nat.zero_le _) before
    obtain ⟨entry, member, rfl⟩ :=
      List.mem_map.mp (same.mem_iff.mpr isTaken)
    rw [accounted.start_eq member] at begins
    rw [accounted.stop_eq member] at ends
    exact ⟨entry, member, begins, ends⟩
  exact Nat.le_antisymm notBefore notBehind

/-- As long as a piece is missing the datagram is not complete. -/
theorem Accounted.incomplete_of_missing
    (accounted : assembly.Accounted datagram holdLimit)
    (same : assembly.fragments.Perm taken)
    (arePieces : assembly.HoldsPieces division)
    (areAll : division.Pieces 0 pieces)
    (arranged : pieces.Perm (taken ++ left)) (begun : taken ≠ [])
    (missing : left ≠ []) : assembly.isComplete = false := by
  obtain ⟨next, others, rfl⟩ := List.exists_cons_of_ne_nil missing
  have positive : 0 < next.length := by
    apply areAll.nonempty
    · have counted := arranged.length_eq
      have several := List.length_pos_iff.mpr begun
      simp only [List.length_append, List.length_cons] at counted
      omega
    · exact arranged.mem_iff.mpr (by simp)
  have all := areAll.sum_eq
  have parts := (arranged.map Packet.length).sum_nat
  rw [parts] at all
  simp only [List.map_append, List.map_cons, List.sum_append,
    List.sum_cons] at all
  have received := accounted.received_eq_sum same
  cases known : assembly.total with
  | none => simp [isComplete, known]
  | some total =>
      have isWhole := accounted.total_of_pieces arePieces known
      have short : total ≠ assembly.received := by
        omega
      simp [isComplete, known, short]

/-- With the last piece the datagram is complete and spells the packet. -/
theorem Accounted.complete_of_all
    (accounted : assembly.Accounted datagram holdLimit)
    (arePieces : assembly.HoldsPieces division)
    (areAll : division.Pieces 0 pieces)
    (same : assembly.fragments.Perm pieces) :
    assembly.isComplete = true ∧
      assembly.received = division.whole.length ∧
      Reassembly.spelling assembly.fragments = division.whole := by
  have received : assembly.received = division.whole.length := by
    rw [accounted.received_eq_sum same, ← areAll.sum_eq, Nat.zero_add]
  have known : assembly.total = some division.whole.length := by
    rw [accounted.total_eq]
    obtain ⟨final, isPiece, isFinal⟩ := areAll.exists_final
    have isHeld := same.mem_iff.mpr isPiece
    obtain ⟨entry, member, rfl⟩ := List.mem_map.mp isHeld
    refine ⟨entry, member, isFinal, ?_⟩
    rw [← accounted.stop_eq member]
    exact (arePieces entry.2 isHeld).isFinal_iff.mp isFinal
  have complete : assembly.isComplete = true := by
    simp [isComplete, known, received]
  refine ⟨complete, received, ?_⟩
  obtain ⟨total, isTotal, runs⟩ := accounted.runs_of_complete complete
  rw [known, Option.some.injEq] at isTotal
  subst isTotal
  have ranges : ∀ entry ∈ assembly.held.entries, entry.2.toBytes =
      division.whole.between entry.1 (stopOf entry) := by
    intro entry member
    have isPiece := arePieces entry.2 (List.mem_map_of_mem member)
    rw [isPiece.spelled, accounted.start_eq member]
    rfl
  have spelled := runs.spelling_eq_between ranges
  rw [fragments, Table.values, spelled]
  simp [Bytes.between]

end Assembly

end PooledPackets
