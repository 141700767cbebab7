import PooledPackets.Proofs.Ownership.Joining
import PooledPackets.Proofs.Reassembly.Accounting

/-!
# Fragments that tile a datagram

A datagram is complete, as far as its account says, exactly if the fragments
that it holds tile it: they do not overlap, they leave no position out and one
of them is the last one. Joined in their order they spell the datagram.
-/

namespace PooledPackets

namespace Packet

/-- Where a fragment begins in its datagram. -/
def start (fragment : Packet) : Nat :=
  fragment.tag.elim 0 FragmentTag.offset

def stop (fragment : Packet) : Nat :=
  fragment.start + fragment.length

/-- Nothing follows a fragment in its datagram. -/
def IsFinal (fragment : Packet) : Prop :=
  ∃ tag, fragment.tag = some tag ∧ tag.moreFragments = false

def Covers (fragment : Packet) (position : Nat) : Prop :=
  fragment.start ≤ position ∧ position < fragment.stop

/-- One of two fragments ends before the other one begins. -/
def Clears (one other : Packet) : Prop :=
  one.stop ≤ other.start ∨ other.stop ≤ one.start

theorem Clears.symm {one other : Packet} (clear : one.Clears other) :
    other.Clears one :=
  Or.symm clear

theorem Clears.not_covers {one other : Packet} (clear : one.Clears other)
    {position : Nat} (covers : one.Covers position) :
    ¬other.Covers position := by
  intro given
  obtain ⟨after, before⟩ := given
  obtain ⟨begins, ends⟩ := covers
  rcases clear with oneFirst | otherFirst
  · omega
  · omega

end Packet

/-- Fragments tile a datagram of a given length. -/
structure Tile (fragments : List Packet) (total : Nat) : Prop where
  apart : fragments.Pairwise Packet.Clears
  covered : ∀ position < total,
    ∃ fragment ∈ fragments, fragment.Covers position
  within : ∀ fragment ∈ fragments, fragment.stop ≤ total
  final : ∃ fragment ∈ fragments, fragment.IsFinal ∧ fragment.stop = total

theorem Tile.perm {fragments arranged : List Packet} {total : Nat}
    (tile : Tile fragments total) (same : fragments.Perm arranged) :
    Tile arranged total where
  apart := (same.pairwise_iff Packet.Clears.symm).mp tile.apart
  covered := fun position inside => by
    obtain ⟨fragment, member, covers⟩ := tile.covered position inside
    exact ⟨fragment, same.mem_iff.mp member, covers⟩
  within := fun fragment member =>
    tile.within fragment (same.mem_iff.mpr member)
  final := by
    obtain ⟨fragment, member, isFinal⟩ := tile.final
    exact ⟨fragment, same.mem_iff.mp member, isFinal⟩

theorem Tile.eq_of_covers {fragments : List Packet} {total position : Nat}
    (tile : Tile fragments total) {one other : Packet}
    (isOne : one ∈ fragments) (isOther : other ∈ fragments)
    (coversOne : one.Covers position) (coversOther : other.Covers position) :
    one = other := by
  have sameOrClear : fragments.Pairwise (fun first second =>
      first = second ∨ first.Clears second) :=
    tile.apart.imp Or.inr
  have sameOrCleared : fragments.Pairwise (flip fun first second =>
      first = second ∨ first.Clears second) :=
    tile.apart.imp (fun clear => Or.inr clear.symm)
  have withItself : ∀ first ∈ fragments,
      first = first ∨ first.Clears first :=
    fun _ _ => Or.inl rfl
  have related := List.Pairwise.forall_of_forall_of_flip withItself
    sameOrClear sameOrCleared isOne isOther
  rcases related with same | clear
  · exact same
  · exact absurd coversOther (clear.not_covers coversOne)

namespace Assembly

variable {entries : List (Nat × Packet)} {start stop : Nat}

/-! ## Fragments that add up -/

theorem Runs.le_start :
    ∀ {entries : List (Nat × Packet)} {start stop : Nat},
      Runs start entries stop → ∀ entry ∈ entries, start ≤ entry.1
  | [], _, _, _, _, member => by
      simp at member
  | first :: rest, _, _, ⟨begins, runs⟩, entry, member => by
      rcases List.mem_cons.mp member with rfl | inRest
      · exact Nat.le_of_eq begins.symm
      · have behind := runs.le_start entry inRest
        have ordered := start_le_stopOf first
        omega

theorem Runs.sum_eq :
    ∀ {entries : List (Nat × Packet)} {start stop : Nat},
      Runs start entries stop →
        start + (entries.map fun entry => entry.2.length).sum = stop
  | [], _, _, runs => runs.symm
  | first :: rest, start, stop, ⟨begins, runs⟩ => by
      have added := runs.sum_eq
      rw [List.map_cons, List.sum_cons, ← Nat.add_assoc, ← begins]
      exact added

/-- Fragments that do not overlap hold no more than there is room for. -/
theorem sum_le_of_apart :
    ∀ {entries : List (Nat × Packet)} {start stop : Nat},
      Apart entries → (∀ entry ∈ entries, start ≤ entry.1) →
      (∀ entry ∈ entries, stopOf entry ≤ stop) → start ≤ stop →
        start + (entries.map fun entry => entry.2.length).sum ≤ stop
  | [], _, _, _, _, _, ordered => ordered
  | first :: rest, start, stop, apart, after, within, _ => by
      obtain ⟨firstEnds, restApart⟩ := List.pairwise_cons.mp apart
      have begins := after first (List.mem_cons_self ..)
      have ends := within first (List.mem_cons_self ..)
      have added := sum_le_of_apart restApart firstEnds
        (fun entry member => within entry (.tail _ member)) ends
      rw [List.map_cons, List.sum_cons]
      simp only [stopOf] at added
      omega

/-- If they hold as much as there is room for they leave no gap. -/
theorem runs_of_sum_eq :
    ∀ {entries : List (Nat × Packet)} {start stop : Nat},
      Apart entries → (∀ entry ∈ entries, start ≤ entry.1) →
      (∀ entry ∈ entries, stopOf entry ≤ stop) →
      start + (entries.map fun entry => entry.2.length).sum = stop →
        Runs start entries stop
  | [], _, _, _, _, _, full => full.symm
  | first :: rest, start, stop, apart, after, within, full => by
      obtain ⟨firstEnds, restApart⟩ := List.pairwise_cons.mp apart
      have begins := after first (List.mem_cons_self ..)
      have ends := within first (List.mem_cons_self ..)
      have restWithin : ∀ entry ∈ rest, stopOf entry ≤ stop :=
        fun entry member => within entry (.tail _ member)
      have atMost := sum_le_of_apart restApart firstEnds restWithin ends
      rw [List.map_cons, List.sum_cons] at full
      have atStart : first.1 = start := by
        simp only [stopOf] at atMost
        omega
      refine ⟨atStart,
        runs_of_sum_eq restApart firstEnds restWithin ?_⟩
      simp only [stopOf]
      omega

/-! ## Complete datagrams -/

variable {assembly : Assembly} {datagram holdLimit total : Nat}

theorem Accounted.runs_of_complete
    (accounted : assembly.Accounted datagram holdLimit)
    (complete : assembly.isComplete = true) :
    ∃ total, assembly.total = some total ∧
      Runs 0 assembly.held.entries total := by
  have known : assembly.total = some assembly.received := by
    simpa [isComplete] using complete
  refine ⟨assembly.received, known, ?_⟩
  apply runs_of_sum_eq accounted.apart
  · exact fun entry _ => Nat.zero_le _
  · exact accounted.within assembly.received known
  · rw [Nat.zero_add]
    exact accounted.received_eq.symm

/-- The front of a datagram reaches as far as its fragments leave no position
out. -/
theorem Accounted.le_frontEnd
    (accounted : assembly.Accounted datagram holdLimit) {bound : Nat}
    (covered : ∀ position < bound, ∃ entry ∈ assembly.held.entries,
      entry.1 ≤ position ∧ position < stopOf entry) :
    bound ≤ assembly.frontEnd := by
  obtain ⟨front, behind, split, runs, detached, _⟩ := accounted.front
  refine Nat.le_of_not_lt fun short => ?_
  obtain ⟨entry, member, begins, ends⟩ := covered assembly.frontEnd short
  rw [split] at member
  rcases List.mem_append.mp member with inFront | isBehind
  · have inside := runs.stopOf_le entry inFront
    omega
  · have gap := detached entry isBehind
    omega

/-- A datagram whose end is known is complete once no position is left
out. -/
theorem Accounted.complete_of_covered
    (accounted : assembly.Accounted datagram holdLimit)
    (known : assembly.total = some total)
    (covered : ∀ position < total, ∃ entry ∈ assembly.held.entries,
      entry.1 ≤ position ∧ position < stopOf entry) :
    assembly.isComplete = true := by
  have reached := accounted.le_frontEnd covered
  have within := accounted.within total known
  obtain ⟨front, behind, split, runs, detached, _⟩ := accounted.front
  -- Behind the end of the datagram there is no room for another fragment.
  have nothingBehind : behind = [] := by
    rw [List.eq_nil_iff_forall_not_mem]
    intro entry member
    have gap := detached entry member
    have inside := within entry (split ▸ List.mem_append_right front member)
    have ordered := start_le_stopOf entry
    omega
  rw [nothingBehind, List.append_nil] at split
  rw [← split] at runs
  have noMore : assembly.frontEnd ≤ total := by
    rw [← runs.sum_eq]
    apply sum_le_of_apart accounted.apart
    · exact fun entry _ => Nat.zero_le _
    · exact within
    · exact Nat.zero_le _
  have added := runs.sum_eq
  rw [← accounted.received_eq, Nat.zero_add] at added
  have exactly : assembly.received = total := by
    omega
  simp [isComplete, known, exactly]

theorem Accounted.start_eq
    (accounted : assembly.Accounted datagram holdLimit)
    {entry : Nat × Packet} (member : entry ∈ assembly.held.entries) :
    entry.2.start = entry.1 := by
  obtain ⟨tag, tagged, _, place⟩ := accounted.tagged entry member
  rw [Packet.start, tagged]
  exact place

theorem Accounted.stop_eq
    (accounted : assembly.Accounted datagram holdLimit)
    {entry : Nat × Packet} (member : entry ∈ assembly.held.entries) :
    entry.2.stop = stopOf entry := by
  rw [Packet.stop, accounted.start_eq member]
  rfl

theorem Accounted.tile
    (accounted : assembly.Accounted datagram holdLimit)
    (complete : assembly.isComplete = true) :
    ∃ total, Tile assembly.fragments total ∧
      Runs 0 assembly.held.entries total := by
  obtain ⟨total, known, runs⟩ := accounted.runs_of_complete complete
  refine ⟨total, ?_, runs⟩
  constructor
  · rw [fragments, Table.values, List.pairwise_map]
    apply List.Pairwise.imp_of_mem ?_ accounted.apart
    intro earlier later isEarlier isLater ordered
    rw [Packet.Clears, accounted.stop_eq isEarlier,
      accounted.start_eq isLater]
    exact Or.inl ordered
  · intro position inside
    obtain ⟨entry, member, begins, ends⟩ :=
      runs.exists_covering position (Nat.zero_le _) inside
    refine ⟨entry.2, List.mem_map_of_mem member, ?_, ?_⟩
    · rw [accounted.start_eq member]
      exact begins
    · rw [accounted.stop_eq member]
      exact ends
  · intro fragment isFragment
    obtain ⟨entry, member, rfl⟩ := List.mem_map.mp isFragment
    rw [accounted.stop_eq member]
    exact accounted.within total known entry member
  · obtain ⟨entry, member, isLast, ends⟩ :=
      (accounted.total_eq total).mp known
    refine ⟨entry.2, List.mem_map_of_mem member, isLast, ?_⟩
    rw [accounted.stop_eq member]
    exact ends

theorem Accounted.complete_of_tile
    (accounted : assembly.Accounted datagram holdLimit)
    (tile : Tile assembly.fragments total) :
    assembly.isComplete = true := by
  have known : assembly.total = some total := by
    rw [accounted.total_eq]
    obtain ⟨fragment, isFragment, isFinal, ends⟩ := tile.final
    obtain ⟨entry, member, rfl⟩ := List.mem_map.mp isFragment
    rw [accounted.stop_eq member] at ends
    exact ⟨entry, member, isFinal, ends⟩
  apply accounted.complete_of_covered known
  intro position inside
  obtain ⟨fragment, isFragment, begins, ends⟩ :=
    tile.covered position inside
  obtain ⟨entry, member, rfl⟩ := List.mem_map.mp isFragment
  rw [accounted.start_eq member] at begins
  rw [accounted.stop_eq member] at ends
  exact ⟨entry, member, begins, ends⟩

/-! ## The payload of fragments that leave no gap -/

theorem length_spelling
    (filled : ∀ entry ∈ entries,
      entry.2.toBytes.length = entry.2.length) :
    (Reassembly.spelling (entries.map Prod.snd)).length =
      (entries.map fun entry => entry.2.length).sum := by
  induction entries with
  | nil => rfl
  | cons first rest inductionHypothesis =>
      have restLength := inductionHypothesis
        (fun entry member => filled entry (.tail _ member))
      simp only [List.map_cons, Reassembly.spelling_cons,
        List.length_append, List.sum_cons]
      rw [filled first (List.mem_cons_self ..), restLength]

/-- Each byte of fragments that continue one another is found in the fragment
that covers its position. -/
theorem Runs.getElem?_spelling :
    ∀ {entries : List (Nat × Packet)} {start stop : Nat},
      Runs start entries stop →
      (∀ entry ∈ entries, entry.2.toBytes.length = entry.2.length) →
      ∀ entry ∈ entries, ∀ position, entry.1 ≤ position →
        position < stopOf entry →
          (Reassembly.spelling (entries.map Prod.snd))[position - start]? =
            entry.2.toBytes[position - entry.1]?
  | [], _, _, _, _, _, member, _, _, _ => by
      simp at member
  | first :: rest, start, stop, ⟨begins, runs⟩, filled, entry, member,
      position, after, before => by
      have firstLength := filled first (List.mem_cons_self ..)
      rw [List.map_cons, Reassembly.spelling_cons, ← begins]
      rcases List.mem_cons.mp member with rfl | inRest
      · rw [List.getElem?_append_left]
        simp only [stopOf] at before
        omega
      · have behind := runs.le_start entry inRest
        have spelled := runs.getElem?_spelling
          (fun other isOther => filled other (.tail _ isOther))
          entry inRest position after before
        have place : position - first.1 - first.2.toBytes.length =
            position - stopOf first := by
          rw [firstLength, stopOf, Nat.sub_sub]
        rw [List.getElem?_append_right, place]
        · exact spelled
        · simp only [stopOf] at behind
          omega

/-- Ranges of a byte string that continue one another spell one range. -/
theorem Runs.spelling_eq_between {whole : Bytes} :
    ∀ {entries : List (Nat × Packet)} {start stop : Nat},
      Runs start entries stop →
      (∀ entry ∈ entries,
        entry.2.toBytes = whole.between entry.1 (stopOf entry)) →
        Reassembly.spelling (entries.map Prod.snd) =
          whole.between start stop
  | [], start, stop, runs, _ => by
      rw [runs, Bytes.between_eq_nil (Or.inr (Nat.le_refl _))]
      rfl
  | first :: rest, start, stop, ⟨begins, runs⟩, ranges => by
      have firstRange := ranges first (List.mem_cons_self ..)
      have restRange := runs.spelling_eq_between
        (fun entry member => ranges entry (.tail _ member))
      rw [List.map_cons, Reassembly.spelling_cons, firstRange, restRange,
        ← begins]
      exact Bytes.between_join (start_le_stopOf first) runs.start_le

end Assembly

end PooledPackets
