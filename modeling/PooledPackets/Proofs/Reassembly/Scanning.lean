import PooledPackets.Proofs.Reassembly.Representation

/-!
# A look at every fragment held

An insertion looks at one neighbour of the new fragment, at the last fragment
held and at three numbers that the datagram keeps. Here the same question is
put to all fragments that are held, one by one and without those numbers. In
every state that a reassembler can come to, both give the same answer.
-/

namespace PooledPackets

namespace Assembly

/-! ## The questions -/

instance (entry : Nat × Packet) : Decidable (IsLast entry) :=
  decidable_of_iff
    (entry.2.tag.any (fun tag => !tag.moreFragments) = true) (by
      simp [IsLast, Option.any_eq_true])

/-- A fragment starts where the new one does or shares bytes with it. -/
def Collides (offset stop : Nat) (entry : Nat × Packet) : Prop :=
  entry.1 = offset ∨ entry.1 < stop ∧ offset < stopOf entry

instance (offset stop : Nat) (entry : Nat × Packet) :
    Decidable (Collides offset stop entry) :=
  inferInstanceAs (Decidable (_ ∨ _))

/-- A fragment cannot be of one datagram with the new one: the last fragment
ends in front of it or elsewhere, or something lies behind the new end. -/
def Disagrees (moreFragments : Bool) (stop : Nat) (entry : Nat × Packet) :
    Prop :=
  match moreFragments with
  | true => IsLast entry ∧ stopOf entry < stop
  | false => (IsLast entry ∧ stopOf entry ≠ stop) ∨ stop < stopOf entry

instance (moreFragments : Bool) (stop : Nat) (entry : Nat × Packet) :
    Decidable (Disagrees moreFragments stop entry) :=
  match moreFragments with
  | true => inferInstanceAs (Decidable (_ ∧ _))
  | false => inferInstanceAs (Decidable (_ ∨ _))

/-- The bytes in front of a position are all held. -/
def Connected (entries : List (Nat × Packet)) (position : Nat) : Prop :=
  ∀ earlier < position, ∃ entry ∈ entries,
    entry.1 ≤ earlier ∧ earlier < stopOf entry

instance (entries : List (Nat × Packet)) (position : Nat) :
    Decidable (Connected entries position) :=
  inferInstanceAs (Decidable (∀ earlier < position, _))

/-- The run of bytes from the start of the datagram ends at a position. -/
def EndsRun (entries : List (Nat × Packet)) (position : Nat) : Prop :=
  Connected entries position ∧ ¬Connected entries (position + 1)

instance (entries : List (Nat × Packet)) (position : Nat) :
    Decidable (EndsRun entries position) :=
  inferInstanceAs (Decidable (_ ∧ _))

/-- The fragments that lie outside the run from the start. -/
def outsideRun (entries : List (Nat × Packet)) : List (Nat × Packet) :=
  entries.filter fun entry => ¬Connected entries entry.1

/-- Why a new fragment is refused, as seen from all fragments held. -/
def scan? (entries : List (Nat × Packet)) (tag : FragmentTag)
    (length holdLimit : Nat) : Option BufferError :=
  let stop := tag.offset + length
  if ∃ entry ∈ entries, Collides tag.offset stop entry then
    some (.overlap tag.datagram tag.offset length)
  else if ∃ entry ∈ entries, Disagrees tag.moreFragments stop entry then
    some (.invalidFragment tag.datagram tag.offset)
  else if ¬EndsRun entries tag.offset ∧
      holdLimit ≤ (outsideRun entries).length then
    some (.holdLimitExceeded tag.datagram holdLimit)
  else none

/-! ## The answers -/

variable {assembly longer : Assembly} {tag : FragmentTag}
variable {fragment : Packet} {datagram holdLimit : Nat}

theorem claims_eq_decide (apart : Apart assembly.held.entries)
    (start stop : Nat) :
    assembly.claims start stop = decide
      (∃ entry ∈ assembly.held.entries, Collides start stop entry) := by
  have free : assembly.claims start stop = false ↔
      ∀ entry ∈ assembly.held.entries, ¬Collides start stop entry := by
    rw [claims_eq_false_iff apart]
    refine forall_congr' fun entry => forall_congr' fun _ => ?_
    simp only [Collides]
    omega
  by_cases collides :
      ∃ entry ∈ assembly.held.entries, Collides start stop entry
  · rw [decide_eq_true collides, ← Bool.not_eq_false, free]
    obtain ⟨entry, member, isCollision⟩ := collides
    exact fun none => none entry member isCollision
  · rw [decide_eq_false collides, free]
    exact fun entry member isCollision =>
      collides ⟨entry, member, isCollision⟩

namespace Accounted

theorem contradicts_eq_decide
    (accounted : assembly.Accounted datagram holdLimit)
    (moreFragments : Bool) (stop : Nat) :
    assembly.contradicts moreFragments stop = decide
      (∃ entry ∈ assembly.held.entries,
        Disagrees moreFragments stop entry) := by
  have agrees := @contradicts_eq_false_iff stop assembly accounted.apart
    moreFragments
  have endOf : ∀ entry ∈ assembly.held.entries, IsLast entry →
      assembly.total = some (stopOf entry) := fun entry member isLast =>
    (accounted.total_eq (stopOf entry)).mpr ⟨entry, member, isLast, rfl⟩
  by_cases disagrees :
      ∃ entry ∈ assembly.held.entries, Disagrees moreFragments stop entry
  · rw [decide_eq_true disagrees, ← Bool.not_eq_false, agrees]
    obtain ⟨entry, member, isAgainst⟩ := disagrees
    cases moreFragments with
    | true =>
        intro allWithin
        have within := allWithin _ (endOf entry member isAgainst.1)
        exact absurd within (Nat.not_le_of_lt isAgainst.2)
    | false =>
        intro fits
        rcases isAgainst with elsewhere | beyond
        · exact elsewhere.2 (fits.1 _ (endOf entry member elsewhere.1))
        · exact absurd (fits.2 entry member) (Nat.not_le_of_lt beyond)
  · rw [decide_eq_false disagrees, agrees]
    have noneAgainst : ∀ entry ∈ assembly.held.entries,
        ¬Disagrees moreFragments stop entry :=
      fun entry member isAgainst => disagrees ⟨entry, member, isAgainst⟩
    cases moreFragments with
    | true =>
        intro total known
        obtain ⟨entry, member, isLast, rfl⟩ :=
          (accounted.total_eq total).mp known
        exact Nat.le_of_not_lt fun short =>
          noneAgainst entry member ⟨isLast, short⟩
    | false =>
        constructor
        · intro total known
          obtain ⟨entry, member, isLast, rfl⟩ :=
            (accounted.total_eq total).mp known
          exact Decidable.byContradiction fun elsewhere =>
            noneAgainst entry member (Or.inl ⟨isLast, elsewhere⟩)
        · exact fun entry member => Nat.le_of_not_lt fun beyond =>
            noneAgainst entry member (Or.inr beyond)

/-- Bytes are missing nowhere before the end of the front, and right there. -/
theorem connected_iff (accounted : assembly.Accounted datagram holdLimit)
    {position : Nat} :
    Connected assembly.held.entries position ↔
      position ≤ assembly.frontEnd := by
  obtain ⟨front, behind, split, runs, detached, _⟩ := accounted.front
  constructor
  · intro connected
    refine Nat.le_of_not_lt fun beyond => ?_
    obtain ⟨entry, member, begins, covers⟩ := connected _ beyond
    rw [split] at member
    rcases List.mem_append.mp member with inFront | isBehind
    · have ends := runs.stopOf_le entry inFront
      omega
    · have gap := detached entry isBehind
      omega
  · intro within earlier before
    obtain ⟨entry, member, covers⟩ := runs.exists_covering earlier
      (Nat.zero_le _) (Nat.lt_of_lt_of_le before within)
    exact ⟨entry, split ▸ List.mem_append_left behind member, covers⟩

theorem endsRun_iff (accounted : assembly.Accounted datagram holdLimit)
    {position : Nat} :
    EndsRun assembly.held.entries position ↔
      position = assembly.frontEnd := by
  rw [EndsRun, accounted.connected_iff, accounted.connected_iff]
  omega

theorem length_outsideRun
    (accounted : assembly.Accounted datagram holdLimit) :
    (outsideRun assembly.held.entries).length = assembly.detached := by
  obtain ⟨front, behind, split, runs, detached, counted⟩ := accounted.front
  have isOutside : outsideRun assembly.held.entries =
      assembly.held.entries.filter
        (fun entry => assembly.frontEnd < entry.1) := by
    apply List.filter_congr
    intro entry _
    simp [accounted.connected_iff]
  have noneInFront : front.filter
      (fun entry => assembly.frontEnd < entry.1) = [] := by
    rw [List.filter_eq_nil_iff]
    intro entry member
    have ends := runs.stopOf_le entry member
    have begins := start_le_stopOf entry
    simp only [decide_eq_true_eq]
    omega
  have allBehind : behind.filter
      (fun entry => assembly.frontEnd < entry.1) = behind := by
    rw [List.filter_eq_self]
    intro entry member
    simpa using detached entry member
  rw [isOutside, split, List.filter_append, noneInFront, allBehind,
    List.nil_append, counted]

/-- An accepted fragment is held besides those held before. -/
theorem entries_insert_perm
    (accounted : assembly.Accounted datagram holdLimit)
    (inserting : assembly.insert tag fragment holdLimit = .ok longer) :
    longer.held.entries.Perm
      ((tag.offset, fragment) :: assembly.held.entries) := by
  obtain ⟨free, _, _, rfl⟩ := insert_eq_ok_iff.mp inserting
  obtain ⟨front, between, above, gap⟩ := accounted.exists_gap free
  rw [gap.placed, gap.split, ← List.append_assoc, ← List.append_assoc]
  exact List.perm_middle

theorem insert_agrees (accounted : assembly.Accounted datagram holdLimit)
    (tag : FragmentTag) (fragment : Packet) :
    match scan? assembly.held.entries tag fragment.length holdLimit with
    | some error => assembly.insert tag fragment holdLimit = .error error
    | none => ∃ longer,
        assembly.insert tag fragment holdLimit = .ok longer ∧
        longer.held.entries.Perm
          ((tag.offset, fragment) :: assembly.held.entries) := by
  have claims := claims_eq_decide accounted.apart tag.offset
    (tag.offset + fragment.length)
  have contradicts := accounted.contradicts_eq_decide tag.moreFragments
    (tag.offset + fragment.length)
  have runEnd := @endsRun_iff assembly datagram holdLimit accounted
    tag.offset
  by_cases collides : ∃ entry ∈ assembly.held.entries,
      Collides tag.offset (tag.offset + fragment.length) entry
  · simp [scan?, Assembly.insert, claims, collides]
  by_cases disagrees : ∃ entry ∈ assembly.held.entries,
      Disagrees tag.moreFragments (tag.offset + fragment.length) entry
  · simp [scan?, Assembly.insert, claims, collides, contradicts,
      disagrees]
  by_cases outOfReach : ¬EndsRun assembly.held.entries tag.offset ∧
      holdLimit ≤ (outsideRun assembly.held.entries).length
  · have isFull := outOfReach
    rw [runEnd, accounted.length_outsideRun] at isFull
    simp only [scan?, if_neg collides, if_neg disagrees, if_pos outOfReach]
    exact insert_of_outOfReach (claims.trans (decide_eq_false collides))
      (contradicts.trans (decide_eq_false disagrees)) isFull
  · have hasRoom := outOfReach
    rw [runEnd, accounted.length_outsideRun] at hasRoom
    have accepted : assembly.insert tag fragment holdLimit =
        .ok (assembly.place tag fragment) :=
      insert_eq_ok_iff.mpr ⟨claims.trans (decide_eq_false collides),
        contradicts.trans (decide_eq_false disagrees), by omega, rfl⟩
    simp only [scan?, if_neg collides, if_neg disagrees,
      if_neg outOfReach]
    exact ⟨_, accepted, accounted.entries_insert_perm accepted⟩

end Accounted

end Assembly

namespace Reassembler

/-- The states that a reassembler of a pool can come to, whether it is its
owner's or one that lasts only for a single datagram: whoever hands it
fragments, whatever else they have in hand and however long a new datagram may
stay incomplete. -/
inductive Attained (id : PoolId) (limits : ReassemblyLimits) :
    Reassembler → Prop
  | fresh : Attained id limits ⟨id, limits, .empty⟩
  | pushUntil {reassembler after : Reassembler} {hand : Hand}
      {fragment : Packet} {now deadline : Nat}
      {answer : Except BufferError (Option Packet)} {pools pools' : Pools}
      (attained : Attained id limits reassembler)
      (pushed : reassembler.pushUntil hand fragment now deadline pools =
        .done (answer, after) pools') : Attained id limits after
  | expire {reassembler after : Reassembler} {now : Nat} {late : List Nat}
      {pools pools' : Pools} (attained : Attained id limits reassembler)
      (expired : reassembler.expire now pools =
        .done (late, after) pools') : Attained id limits after
  | clear {reassembler after : Reassembler} {choices : List Nat}
      {pools pools' : Pools} (attained : Attained id limits reassembler)
      (cleared : reassembler.clear choices pools = .done after pools') :
      Attained id limits after

variable {id : PoolId} {limits : ReassemblyLimits}
variable {reassembler : Reassembler}

theorem Attained.accounted (attained : Attained id limits reassembler) :
    reassembler.limits = limits ∧ reassembler.Accounted := by
  induction attained with
  | fresh => exact ⟨rfl, .fresh id limits⟩
  | @pushUntil reassembler after hand fragment now deadline answer pools _ _
      pushed inductionHypothesis =>
      obtain ⟨sameLimits, accounted⟩ := inductionHypothesis
      have decided := @pushUntil_answered pools reassembler hand fragment
        now deadline
      rw [pushed] at decided
      obtain ⟨rfl, _⟩ := decided
      have keeps := reassembler.judge_keeps fragment now deadline
      exact ⟨keeps.2.trans sameLimits,
        accounted.judge fragment now deadline⟩
  | @expire reassembler after now late pools _ _ expired
      inductionHypothesis =>
      obtain ⟨sameLimits, accounted⟩ := inductionHypothesis
      have decided := @expire_decided pools reassembler now
      rw [expired] at decided
      cases decided
      exact ⟨sameLimits, accounted.swept now⟩
  | @clear reassembler after choices pools _ _ cleared
      inductionHypothesis =>
      obtain ⟨sameLimits, _⟩ := inductionHypothesis
      have decided := @clear_decided pools reassembler choices
      rw [cleared] at decided
      cases decided
      exact ⟨sameLimits, .cleared reassembler⟩

/-- The states of a reassembler that is used through its own operations are
among them. -/
theorem Reachable.attained (reached : Reachable id limits reassembler) :
    Attained id limits reassembler := by
  induction reached with
  | fresh => exact .fresh
  | @push reassembler after fragment now answer pools _ _ pushed
      inductionHypothesis =>
      have answered := @push_answered pools reassembler fragment now
      rw [pushed] at answered
      obtain ⟨deadline, reading, _⟩ := answered
      rw [push_eq reading] at pushed
      exact .pushUntil inductionHypothesis pushed
  | expire _ expired inductionHypothesis =>
      exact .expire inductionHypothesis expired
  | clear _ cleared inductionHypothesis =>
      exact .clear inductionHypothesis cleared

/-- Whatever a reassembler has come to and whichever datagram a new fragment
belongs to, known or not: the insertion answers as a look at every fragment
held does, and what it accepts is held besides those. -/
theorem Attained.insert_agrees_with_scan
    (attained : Attained id limits reassembler) (datagram deadline : Nat)
    (tag : FragmentTag) (fragment : Packet) :
    let assembly := reassembler.assemblyFor datagram deadline
    match Assembly.scan? assembly.held.entries tag fragment.length
        limits.holdLimit with
    | some error =>
        assembly.insert tag fragment limits.holdLimit = .error error
    | none => ∃ longer,
        assembly.insert tag fragment limits.holdLimit = .ok longer ∧
        longer.held.entries.Perm
          ((tag.offset, fragment) :: assembly.held.entries) := by
  obtain ⟨rfl, accounted⟩ := attained.accounted
  exact (accounted.assemblyFor datagram deadline).insert_agrees tag fragment

/-- Next to a front that ends at two and one detached fragment there is no room
for another detached one, but there is for one that continues the front. -/
theorem insert_agrees_with_scan_of_two :
    ∃ reassembler, Attained 0 ⟨1, 1, .ofSeconds 1⟩ reassembler ∧
      let assembly := reassembler.assemblyFor 7 9
      let fragment := { Packet.ofSegments 0 [] with length := 1 }
      assembly.insert ⟨7, 3, true⟩ fragment 1 =
        .error (.holdLimitExceeded 7 1) ∧
      ∃ longer, assembly.insert ⟨7, 2, true⟩ fragment 1 = .ok longer ∧
        longer.held.entries.length = 3 := by
  have one : Attained 0 ⟨1, 1, .ofSeconds 1⟩ _ := .pushUntil .fresh
    (rfl : Reassembler.pushUntil _ (fun _ => [])
      { Packet.ofSegments 0 [] with length := 2, tag := some ⟨7, 4, true⟩ }
      0 9 default = .done (.ok none, _) default)
  have two : Attained 0 ⟨1, 1, .ofSeconds 1⟩ _ := .pushUntil one
    (rfl : Reassembler.pushUntil _ (fun _ => [])
      { Packet.ofSegments 0 [] with length := 2, tag := some ⟨7, 0, true⟩ }
      1 9 default = .done (.ok none, _) default)
  have refused := two.insert_agrees_with_scan 7 9 ⟨7, 3, true⟩
    { Packet.ofSegments 0 [] with length := 1 }
  obtain ⟨longer, accepted, held⟩ :=
    two.insert_agrees_with_scan 7 9 ⟨7, 2, true⟩
      { Packet.ofSegments 0 [] with length := 1 }
  exact ⟨_, two, refused, longer, accepted, held.length_eq⟩

end Reassembler

end PooledPackets
