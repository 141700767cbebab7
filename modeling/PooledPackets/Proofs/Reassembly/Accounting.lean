import Mathlib.Algebra.GroupWithZero.Nat
import PooledPackets.Proofs.Reassembly.Insertion

/-!
# The account of a datagram

A datagram keeps a count of the bytes it holds, the end of its front, a count
of the detached fragments and its length. Each of them is redundant: it can be
read off the fragments held. An insertion that is not refused keeps all of them
in step, whatever the length of the fragment.
-/

namespace PooledPackets.Assembly

/-! ## Fragments in their places -/

/-- Where a fragment that is filed under its offset ends. -/
def stopOf (entry : Nat × Packet) : Nat :=
  entry.1 + entry.2.length

/-- No fragment begins before those in front of it have ended. -/
def Apart (entries : List (Nat × Packet)) : Prop :=
  entries.Pairwise (fun earlier later => stopOf earlier ≤ later.1)

/-- Fragments continue one another from one position to another. -/
def Runs : (start : Nat) → List (Nat × Packet) → (stop : Nat) → Prop
  | start, [], stop => stop = start
  | start, entry :: rest, stop =>
      entry.1 = start ∧ Runs (stopOf entry) rest stop

/-- Nothing follows a fragment in its datagram. -/
def IsLast (entry : Nat × Packet) : Prop :=
  ∃ tag, entry.2.tag = some tag ∧ tag.moreFragments = false

theorem start_le_stopOf (entry : Nat × Packet) :
    entry.1 ≤ stopOf entry :=
  Nat.le_add_right _ _

variable {entries front behind : List (Nat × Packet)}
variable {start middle stop : Nat}

theorem Apart.of_append (apart : Apart (front ++ behind)) :
    Apart front ∧ Apart behind ∧
      ∀ entry ∈ front, ∀ other ∈ behind, stopOf entry ≤ other.1 := by
  simpa [Apart, List.pairwise_append] using apart

/-- The fragment that begins last also ends last. -/
theorem Apart.stopOf_le_getLast? (apart : Apart entries)
    {last : Nat × Packet} (isLast : entries.getLast? = some last) :
    ∀ entry ∈ entries, stopOf entry ≤ stopOf last := by
  obtain ⟨others, rfl⟩ := List.getLast?_eq_some_iff.mp isLast
  intro entry member
  rcases List.mem_append.mp member with inOthers | isEnd
  · have before := apart.of_append.2.2 entry inOthers last (by simp)
    exact Nat.le_trans before (start_le_stopOf last)
  · have same := List.mem_singleton.mp isEnd
    exact Nat.le_of_eq (congrArg stopOf same)

/-! ## Fragments that continue one another -/

theorem runs_append_iff :
    ∀ {front behind : List (Nat × Packet)} {start stop : Nat},
      Runs start (front ++ behind) stop ↔
        ∃ middle, Runs start front middle ∧ Runs middle behind stop
  | [], _, _, _ => by
      simp [Runs]
  | entry :: rest, _, _, _ => by
      simp only [List.cons_append, Runs, runs_append_iff]
      constructor
      · intro given
        obtain ⟨begins, middle, one, other⟩ := given
        exact ⟨middle, ⟨begins, one⟩, other⟩
      · intro given
        obtain ⟨middle, ⟨begins, one⟩, other⟩ := given
        exact ⟨begins, middle, one, other⟩

theorem Runs.start_le :
    ∀ {entries : List (Nat × Packet)} {start stop : Nat},
      Runs start entries stop → start ≤ stop
  | [], _, _, runs => Nat.le_of_eq runs.symm
  | entry :: _, _, _, ⟨begins, runs⟩ => by
      rw [← begins]
      exact Nat.le_trans (start_le_stopOf entry) runs.start_le

theorem Runs.stopOf_le :
    ∀ {entries : List (Nat × Packet)} {start stop : Nat},
      Runs start entries stop → ∀ entry ∈ entries, stopOf entry ≤ stop
  | [], _, _, _, _, member => by
      simp at member
  | first :: _, _, _, ⟨_, runs⟩, entry, member => by
      rcases List.mem_cons.mp member with rfl | inRest
      · exact runs.start_le
      · exact runs.stopOf_le entry inRest

/-- Fragments that continue one another leave no position out. -/
theorem Runs.exists_covering :
    ∀ {entries : List (Nat × Packet)} {start stop : Nat},
      Runs start entries stop → ∀ position, start ≤ position →
        position < stop →
          ∃ entry ∈ entries, entry.1 ≤ position ∧ position < stopOf entry
  | [], _, _, runs, _, after, before => by
      rw [runs] at before
      omega
  | first :: rest, _, _, ⟨begins, runs⟩, position, after, before => by
      by_cases inFirst : position < stopOf first
      · exact ⟨first, List.mem_cons_self .., begins ▸ after, inFirst⟩
      · obtain ⟨entry, member, covers⟩ := runs.exists_covering position
          (Nat.le_of_not_lt inFirst) before
        exact ⟨entry, .tail _ member, covers⟩

/-- Following fragments passes exactly those that continue one another; the
next one, if there is one, leaves a gap. -/
theorem follow_spec :
    ∀ {entries : List (Nat × Packet)} {position : Nat},
      Apart entries → (∀ entry ∈ entries, position ≤ entry.1) →
      entries.Pairwise (fun earlier later => earlier.1 < later.1) →
        ∃ passed rest, entries = passed ++ rest ∧
          Runs position passed (follow position entries).1 ∧
          passed.length = (follow position entries).2 ∧
          ∀ entry ∈ rest, (follow position entries).1 < entry.1
  | [], _, _, _, _ => ⟨[], [], rfl, rfl, rfl, by simp⟩
  | (offset, fragment) :: rest, position, apart, after, ascending => by
      obtain ⟨headEnds, restApart⟩ := List.pairwise_cons.mp apart
      obtain ⟨headFirst, restAscending⟩ := List.pairwise_cons.mp ascending
      by_cases begins : offset = position
      · subst begins
        obtain ⟨passed, left, rfl, runs, counted, gap⟩ :=
          @follow_spec rest (offset + fragment.length) restApart headEnds
            restAscending
        refine ⟨(offset, fragment) :: passed, left, rfl, ?_, ?_, ?_⟩
        · simpa [follow, Runs, stopOf] using runs
        · simpa [follow] using counted
        · simpa [follow] using gap
      · refine ⟨[], (offset, fragment) :: rest, rfl, ?_, ?_, ?_⟩
        · simp [follow, begins, Runs]
        · simp [follow, begins]
        · have headAfter := after _ (List.mem_cons_self ..)
          have gap : position < offset :=
            Nat.lt_of_le_of_ne headAfter (Ne.symm begins)
          intro entry member
          simp only [follow, begins, if_false]
          rcases List.mem_cons.mp member with rfl | inRest
          · exact gap
          · exact Nat.lt_trans gap (headFirst entry inRest)

/-! ## The checks of an insertion -/

variable {assembly longer : Assembly} {tag : FragmentTag}
variable {fragment : Packet}

/-- The look at one neighbour is as good as a look at all fragments held. -/
theorem claims_eq_false_iff (apart : Apart assembly.held.entries) :
    assembly.claims start stop = false ↔
      ∀ entry ∈ assembly.held.entries,
        entry.1 ≠ start ∧ (entry.1 < stop → stopOf entry ≤ start) := by
  have absentIff := @Table.get?_eq_none_iff Packet assembly.held start
  simp only [claims, Bool.or_eq_false_iff, Table.contains_eq_false_iff,
    absentIff, Table.lastBelow?]
  have apartBelow : Apart
      (assembly.held.entries.filter (fun entry => entry.1 < stop)) :=
    List.Pairwise.filter _ apart
  cases last : (assembly.held.entries.filter
      (fun entry => entry.1 < stop)).getLast? with
  | none =>
      have noneBelow := List.getLast?_eq_none_iff.mp last
      rw [List.filter_eq_nil_iff] at noneBelow
      simp only [and_true]
      constructor
      · intro absent entry member
        refine ⟨absent entry member, fun below => ?_⟩
        exact absurd below (by simpa using noneBelow entry member)
      · exact fun free entry member => (free entry member).1
  | some neighbour =>
      have isNeighbour := List.mem_of_getLast? last
      simp only [List.mem_filter, decide_eq_true_eq] at isNeighbour
      simp only [decide_eq_false_iff_not, Nat.not_lt]
      constructor
      · rintro ⟨absent, ends⟩ entry member
        refine ⟨absent entry member, fun below => ?_⟩
        refine Nat.le_trans (apartBelow.stopOf_le_getLast? last entry ?_) ends
        simpa using ⟨member, below⟩
      · intro free
        exact ⟨fun entry member => (free entry member).1,
          (free neighbour isNeighbour.1).2 isNeighbour.2⟩

/-- A fragment agrees with the end of its datagram as far as it is known. -/
theorem contradicts_eq_false_iff (apart : Apart assembly.held.entries)
    {moreFragments : Bool} :
    assembly.contradicts moreFragments stop = false ↔
      if moreFragments then ∀ total, assembly.total = some total →
        stop ≤ total
      else (∀ total, assembly.total = some total → total = stop) ∧
        ∀ entry ∈ assembly.held.entries, stopOf entry ≤ stop := by
  cases moreFragments with
  | true =>
      cases known : assembly.total with
      | none => simp [contradicts, known]
      | some total => simp [contradicts, known]
  | false =>
      cases last : assembly.held.entries.getLast? with
      | none =>
          have nothing := List.getLast?_eq_none_iff.mp last
          cases known : assembly.total with
          | none => simp [contradicts, Table.last?, known, nothing]
          | some total =>
              simp [contradicts, Table.last?, known, nothing]
      | some neighbour =>
          have within : neighbour.1 + neighbour.2.length ≤ stop ↔
              ∀ entry ∈ assembly.held.entries, stopOf entry ≤ stop := by
            constructor
            · exact fun ends entry member => Nat.le_trans
                (apart.stopOf_le_getLast? last entry member) ends
            · exact fun all => all neighbour (List.mem_of_getLast? last)
          rw [← within]
          cases known : assembly.total with
          | none => simp [contradicts, Table.last?, last, known]
          | some total => simp [contradicts, Table.last?, last, known]

/-! ## The account -/

/-- The numbers that a datagram keeps are those of the fragments it holds. The
front is the longest run of fragments from the start of the datagram: what is
held behind it leaves a gap. -/
structure Accounted (assembly : Assembly) (datagram holdLimit : Nat) :
    Prop where
  tagged : ∀ entry ∈ assembly.held.entries, ∃ tag,
    entry.2.tag = some tag ∧ tag.datagram.toNat = datagram ∧
      tag.offset = entry.1
  apart : Apart assembly.held.entries
  received_eq : assembly.received =
    (assembly.held.entries.map fun entry => entry.2.length).sum
  front : ∃ front behind, assembly.held.entries = front ++ behind ∧
    Runs 0 front assembly.frontEnd ∧
    (∀ entry ∈ behind, assembly.frontEnd < entry.1) ∧
    behind.length = assembly.detached
  detached_le : assembly.detached ≤ holdLimit
  total_eq : ∀ total, assembly.total = some total ↔
    ∃ entry ∈ assembly.held.entries, IsLast entry ∧ stopOf entry = total
  within : ∀ total, assembly.total = some total →
    ∀ entry ∈ assembly.held.entries, stopOf entry ≤ total

theorem accounted_begun (deadline datagram holdLimit : Nat) :
    (begun deadline).Accounted datagram holdLimit where
  tagged := by simp [begun, Table.empty]
  apart := List.Pairwise.nil
  received_eq := rfl
  front := ⟨[], [], rfl, rfl, by simp, rfl⟩
  detached_le := Nat.zero_le _
  total_eq := by simp [begun, Table.empty]
  within := by simp [begun]

/-! ## Insertion -/

/-- Where an accepted fragment falls: the front, then the fragments detached in
front of it, then those detached behind it. -/
structure Gap (assembly : Assembly) (tag : FragmentTag) (fragment : Packet)
    (front between above : List (Nat × Packet)) : Prop where
  split : assembly.held.entries = front ++ (between ++ above)
  placed : (assembly.place tag fragment).held.entries =
    front ++ (between ++ (tag.offset, fragment) :: above)
  runs : Runs 0 front assembly.frontEnd
  detached : ∀ entry ∈ between ++ above, assembly.frontEnd < entry.1
  counted : between.length + above.length = assembly.detached
  before : ∀ entry ∈ front ++ between,
    entry.1 < tag.offset ∧ stopOf entry ≤ tag.offset
  after : ∀ entry ∈ above, tag.offset < entry.1 ∧
    tag.offset + fragment.length ≤ entry.1

variable {datagram holdLimit : Nat}

theorem Accounted.frontEnd_le
    (accounted : assembly.Accounted datagram holdLimit)
    (free : assembly.claims tag.offset (tag.offset + fragment.length) =
      false) :
    assembly.frontEnd ≤ tag.offset := by
  obtain ⟨front, behind, split, runs, _, _⟩ := accounted.front
  refine Nat.le_of_not_lt fun inside => ?_
  obtain ⟨entry, member, begins, covers⟩ :=
    runs.exists_covering tag.offset (Nat.zero_le _) inside
  rw [claims_eq_false_iff accounted.apart] at free
  obtain ⟨differs, ends⟩ := free entry
    (split ▸ List.mem_append_left behind member)
  have atOffset := ends (by omega)
  omega

theorem Accounted.exists_gap
    (accounted : assembly.Accounted datagram holdLimit)
    (free : assembly.claims tag.offset (tag.offset + fragment.length) =
      false) :
    ∃ front between above,
      assembly.Gap tag fragment front between above := by
  have notInside := accounted.frontEnd_le free
  rw [claims_eq_false_iff accounted.apart] at free
  obtain ⟨front, behind, splitFront, runs, detached, counted⟩ :=
    accounted.front
  obtain ⟨below, above, split, isBelow, isAbove, placed⟩ :=
    Table.entries_around assembly.held.ascending
      (fun entry member => (free entry member).1)
  -- The front lies below the new fragment as a whole.
  have frontBelow : ∀ entry ∈ front, entry.1 < tag.offset := by
    intro entry member
    have ends := runs.stopOf_le entry member
    have begins := start_le_stopOf entry
    have differs := (free entry
      (splitFront ▸ List.mem_append_left behind member)).1
    omega
  have parts : ∃ between, below = front ++ between ∧
      behind = between ++ above := by
    rcases List.append_eq_append_iff.mp (split.symm.trans splitFront) with
      ⟨more, isFront, isAboveSplit⟩ | ⟨between, isBelowSplit, isBehind⟩
    · cases more with
      | nil =>
          exact ⟨[], by simpa using isFront.symm, by simpa using isAboveSplit.symm⟩
      | cons entry others =>
          have inFront := frontBelow entry (by simp [isFront])
          have inAbove := isAbove entry (by simp [isAboveSplit])
          omega
    · exact ⟨between, isBelowSplit, isBehind⟩
  obtain ⟨between, rfl, rfl⟩ := parts
  refine ⟨front, between, above, ?_⟩
  constructor
  · exact splitFront
  · exact (placed fragment).trans (List.append_assoc ..)
  · exact runs
  · exact detached
  · simpa using counted
  · intro entry member
    have before := isBelow entry member
    have known := (free entry
      (split ▸ List.mem_append_left above member)).2
    exact ⟨before, known (Nat.lt_of_lt_of_le before (Nat.le_add_right ..))⟩
  · intro entry member
    have after := isAbove entry member
    have known := (free entry (split ▸ List.mem_append_right _ member)).2
    refine ⟨after, Nat.le_of_not_lt fun inside => ?_⟩
    have ends := known inside
    have begins := start_le_stopOf entry
    omega

namespace Gap

variable {between above : List (Nat × Packet)}

theorem between_eq_nil
    (gap : assembly.Gap tag fragment front between above)
    (atFront : tag.offset = assembly.frontEnd) : between = [] := by
  rw [List.eq_nil_iff_forall_not_mem]
  intro entry member
  have behind := gap.detached entry (List.mem_append_left above member)
  have before := (gap.before entry (List.mem_append_right front member)).1
  omega

theorem entriesFrom_eq
    (gap : assembly.Gap tag fragment front between above) :
    assembly.held.entriesFrom (tag.offset + fragment.length) = above := by
  have noneBefore : (front ++ between).filter (fun entry =>
      decide (tag.offset + fragment.length ≤ entry.1)) = [] := by
    rw [List.filter_eq_nil_iff]
    intro entry member
    have before := (gap.before entry member).1
    simp only [decide_eq_true_eq]
    omega
  have allAfter : above.filter (fun entry =>
      decide (tag.offset + fragment.length ≤ entry.1)) = above := by
    rw [List.filter_eq_self]
    intro entry member
    simpa using (gap.after entry member).2
  rw [Table.entriesFrom, gap.split, ← List.append_assoc,
    List.filter_append, noneBefore, allAfter, List.nil_append]

theorem mem_place_iff
    (gap : assembly.Gap tag fragment front between above)
    {entry : Nat × Packet} :
    entry ∈ (assembly.place tag fragment).held.entries ↔
      entry = (tag.offset, fragment) ∨ entry ∈ assembly.held.entries := by
  rw [gap.placed, gap.split]
  simp only [List.mem_append, List.mem_cons]
  constructor
  · intro either
    rcases either with inFront | inBetween | isNew | inAbove
    · exact Or.inr (Or.inl inFront)
    · exact Or.inr (Or.inr (Or.inl inBetween))
    · exact Or.inl isNew
    · exact Or.inr (Or.inr (Or.inr inAbove))
  · intro either
    rcases either with isNew | inFront | inBetween | inAbove
    · exact Or.inr (Or.inr (Or.inl isNew))
    · exact Or.inl inFront
    · exact Or.inr (Or.inl inBetween)
    · exact Or.inr (Or.inr (Or.inr inAbove))

theorem apart_place
    (gap : assembly.Gap tag fragment front between above)
    (apart : Apart assembly.held.entries) :
    Apart (assembly.place tag fragment).held.entries := by
  rw [gap.split, ← List.append_assoc] at apart
  obtain ⟨apartBefore, apartAbove, across⟩ := apart.of_append
  rw [gap.placed, ← List.append_assoc, Apart, List.pairwise_append,
    List.pairwise_cons]
  refine ⟨apartBefore, ⟨?_, apartAbove⟩, ?_⟩
  · exact fun entry member => (gap.after entry member).2
  · intro entry member other isRest
    rcases List.mem_cons.mp isRest with rfl | isAbove
    · exact (gap.before entry member).2
    · exact across entry member other isAbove

theorem received_place_eq
    (gap : assembly.Gap tag fragment front between above)
    (received : assembly.received =
      (assembly.held.entries.map fun entry => entry.2.length).sum) :
    (assembly.place tag fragment).received =
      ((assembly.place tag fragment).held.entries.map
        fun entry => entry.2.length).sum := by
  rw [received_place, received, gap.placed, gap.split]
  simp only [List.map_append, List.map_cons, List.sum_append,
    List.sum_cons]
  omega

end Gap

/-- A fragment that continues the front takes along a part of the detached
fragments; what stays detached leaves a gap. -/
theorem Accounted.exists_passed
    (accounted : assembly.Accounted datagram holdLimit)
    (free : assembly.claims tag.offset (tag.offset + fragment.length) =
      false) (atFront : tag.offset = assembly.frontEnd) :
    ∃ front passed rest,
      assembly.Gap tag fragment front [] (passed ++ rest) ∧
      Runs (tag.offset + fragment.length) passed
        (assembly.place tag fragment).frontEnd ∧
      passed.length = (follow (tag.offset + fragment.length)
        (assembly.held.entriesFrom (tag.offset + fragment.length))).2 ∧
      ∀ entry ∈ rest, (assembly.place tag fragment).frontEnd < entry.1 := by
  obtain ⟨front, between, above, gap⟩ := accounted.exists_gap free
  have nothingBetween := gap.between_eq_nil atFront
  subst nothingBetween
  have sublist : above.Sublist assembly.held.entries := by
    rw [gap.split]
    exact (List.sublist_append_right _ _).trans
      (List.sublist_append_right _ _)
  obtain ⟨passed, rest, isAbove, runs, counted, leaves⟩ :=
    @follow_spec above (tag.offset + fragment.length)
      (List.Pairwise.sublist sublist accounted.apart)
      (fun entry member => (gap.after entry member).2)
      (assembly.held.ascending.sublist sublist)
  subst isAbove
  have placed := (@front_place_of_eq assembly tag fragment atFront).1
  rw [gap.entriesFrom_eq] at placed
  rw [gap.entriesFrom_eq, placed]
  exact ⟨front, passed, rest, gap, runs, counted, leaves⟩

theorem Accounted.follow_le
    (accounted : assembly.Accounted datagram holdLimit)
    (free : assembly.claims tag.offset (tag.offset + fragment.length) =
      false) (atFront : tag.offset = assembly.frontEnd) :
    (follow (tag.offset + fragment.length)
      (assembly.held.entriesFrom (tag.offset + fragment.length))).2 ≤
        assembly.detached := by
  obtain ⟨front, passed, rest, gap, _, counted, _⟩ :=
    accounted.exists_passed free atFront
  have all := gap.counted
  rw [List.length_nil, List.length_append] at all
  omega

theorem Accounted.front_place
    (accounted : assembly.Accounted datagram holdLimit)
    (free : assembly.claims tag.offset (tag.offset + fragment.length) =
      false) :
    ∃ front behind,
      (assembly.place tag fragment).held.entries = front ++ behind ∧
      Runs 0 front (assembly.place tag fragment).frontEnd ∧
      (∀ entry ∈ behind,
        (assembly.place tag fragment).frontEnd < entry.1) ∧
      behind.length = (assembly.place tag fragment).detached := by
  by_cases atFront : tag.offset = assembly.frontEnd
  · obtain ⟨front, passed, rest, gap, runs, counted, leaves⟩ :=
      accounted.exists_passed free atFront
    refine ⟨front ++ (tag.offset, fragment) :: passed, rest, ?_, ?_,
      leaves, ?_⟩
    · simpa using gap.placed
    · rw [runs_append_iff]
      exact ⟨assembly.frontEnd, gap.runs, atFront, runs⟩
    · have all := gap.counted
      rw [List.length_nil, List.length_append] at all
      rw [(front_place_of_eq atFront).2, ← counted]
      omega
  · obtain ⟨front, between, above, gap⟩ := accounted.exists_gap free
    have behindFront := accounted.frontEnd_le free
    refine ⟨front, between ++ (tag.offset, fragment) :: above, gap.placed,
      ?_, ?_, ?_⟩
    · rw [(front_place_of_ne atFront).1]
      exact gap.runs
    · intro entry member
      rw [(front_place_of_ne atFront).1]
      rcases List.mem_append.mp member with isBetween | isRest
      · exact gap.detached entry (List.mem_append_left above isBetween)
      · rcases List.mem_cons.mp isRest with rfl | isAbove
        · exact Nat.lt_of_le_of_ne behindFront (Ne.symm atFront)
        · exact gap.detached entry (List.mem_append_right between isAbove)
    · rw [(front_place_of_ne atFront).2, ← gap.counted,
        List.length_append, List.length_cons]
      omega

/-- The length of a datagram is known once its last fragment is held, and it is
not known before. -/
theorem Accounted.total_place
    (accounted : assembly.Accounted datagram holdLimit)
    (tagged : fragment.tag = some tag)
    (free : assembly.claims tag.offset (tag.offset + fragment.length) =
      false)
    (agrees : assembly.contradicts tag.moreFragments
      (tag.offset + fragment.length) = false) :
    (∀ total, (assembly.place tag fragment).total = some total ↔
      ∃ entry ∈ (assembly.place tag fragment).held.entries,
        IsLast entry ∧ stopOf entry = total) ∧
    ∀ total, (assembly.place tag fragment).total = some total →
      ∀ entry ∈ (assembly.place tag fragment).held.entries,
        stopOf entry ≤ total := by
  obtain ⟨front, between, above, gap⟩ := accounted.exists_gap free
  rw [contradicts_eq_false_iff accounted.apart] at agrees
  have isLastIff : IsLast (tag.offset, fragment) ↔
      tag.moreFragments = false := by
    simp [IsLast, tagged]
  -- Only a last fragment makes the length known.
  cases more : tag.moreFragments with
  | true =>
      simp only [more, if_true] at agrees
      have unchanged : (assembly.place tag fragment).total =
          assembly.total := by
        simp [more]
      have notLast : ¬IsLast (tag.offset, fragment) := by
        simp [isLastIff, more]
      refine ⟨fun total => ?_, fun total known entry member => ?_⟩
      · rw [unchanged, accounted.total_eq]
        constructor
        · intro given
          obtain ⟨entry, member, isLast⟩ := given
          exact ⟨entry, gap.mem_place_iff.mpr (Or.inr member), isLast⟩
        · intro given
          obtain ⟨entry, member, isLast⟩ := given
          rcases gap.mem_place_iff.mp member with rfl | held
          · exact absurd isLast.1 notLast
          · exact ⟨entry, held, isLast⟩
      · rw [unchanged] at known
        rcases gap.mem_place_iff.mp member with rfl | held
        · exact agrees total known
        · exact accounted.within total known entry held
  | false =>
      simp only [more, Bool.false_eq_true, if_false] at agrees
      obtain ⟨sameEnd, allWithin⟩ := agrees
      have set : (assembly.place tag fragment).total =
          some (tag.offset + fragment.length) := by
        simp [more]
      refine ⟨fun total => ?_, fun total known entry member => ?_⟩
      · rw [set, Option.some.injEq]
        constructor
        · rintro rfl
          exact ⟨_, gap.mem_place_iff.mpr (Or.inl rfl),
            isLastIff.mpr more, rfl⟩
        · intro given
          obtain ⟨entry, member, isLast, ends⟩ := given
          rcases gap.mem_place_iff.mp member with rfl | held
          · exact ends
          · have known := (accounted.total_eq total).mpr
              ⟨entry, held, isLast, ends⟩
            exact (sameEnd total known).symm
      · rw [set, Option.some.injEq] at known
        subst known
        rcases gap.mem_place_iff.mp member with rfl | held
        · exact Nat.le_refl _
        · exact allWithin entry held

theorem Accounted.insert
    (accounted : assembly.Accounted datagram holdLimit)
    (tagged : fragment.tag = some tag)
    (isDatagram : tag.datagram.toNat = datagram)
    (inserting : assembly.insert tag fragment holdLimit = .ok longer) :
    longer.Accounted datagram holdLimit := by
  obtain ⟨free, agrees, room, rfl⟩ := insert_eq_ok_iff.mp inserting
  obtain ⟨front, between, above, gap⟩ := accounted.exists_gap free
  have totals := accounted.total_place tagged free agrees
  constructor
  · intro entry member
    rcases gap.mem_place_iff.mp member with rfl | held
    · exact ⟨tag, tagged, isDatagram, rfl⟩
    · exact accounted.tagged entry held
  · exact gap.apart_place accounted.apart
  · exact gap.received_place_eq accounted.received_eq
  · exact accounted.front_place free
  · by_cases atFront : tag.offset = assembly.frontEnd
    · rw [(front_place_of_eq atFront).2]
      exact Nat.le_trans (Nat.sub_le ..) accounted.detached_le
    · rw [(front_place_of_ne atFront).2]
      exact room.resolve_left atFront
  · exact totals.1
  · exact totals.2

end PooledPackets.Assembly
