import PooledPackets.Proofs.Reassembly.Projection

/-!
# Fragments and the clock

A fragment that arrives meets its datagram in one of four ways: the datagram is
late, or incomplete and in time, or new without room for it, or new with room.
What is decided about the datagram, and about the others, depends on which of
them it is.
-/

namespace PooledPackets

namespace Assembly

variable {assembly longer : Assembly} {tag : FragmentTag}
variable {fragment : Packet} {holdLimit deadline : Nat}

theorem deadline_of_insert
    (inserting : assembly.insert tag fragment holdLimit = .ok longer) :
    longer.deadline = assembly.deadline := by
  obtain ⟨_, _, _, rfl⟩ := insert_eq_ok_iff.mp inserting
  rfl

/-- A fragment that completes a datagram by itself is all of it. -/
theorem alone_of_complete
    (inserting : (begun deadline).insert tag fragment holdLimit =
      .ok longer)
    (complete : longer.isComplete = true) :
    tag.offset = 0 ∧ tag.moreFragments = false := by
  obtain ⟨_, _, _, rfl⟩ := insert_eq_ok_iff.mp inserting
  cases more : tag.moreFragments with
  | true => simp [isComplete, place, begun, more] at complete
  | false =>
      simp only [isComplete, place, begun, more] at complete
      simp at complete
      exact ⟨complete, rfl⟩

end Assembly

/-- Whether a refusal is about a fragment that does not go with what is held of
its datagram. -/
def BufferError.ofFragment : BufferError → Bool
  | .overlap .. => true
  | .invalidFragment .. => true
  | .holdLimitExceeded .. => true
  | _ => false

theorem Assembly.ofFragment_of_insert {assembly : Assembly}
    {tag : FragmentTag} {fragment : Packet} {holdLimit : Nat}
    {error : BufferError}
    (refused : assembly.insert tag fragment holdLimit = .error error) :
    error.ofFragment = true := by
  simp only [insert] at refused
  split at refused
  · cases refused
    rfl
  · split at refused
    · cases refused
      rfl
    · split at refused
      · cases refused
        rfl
      · cases refused

namespace Reassembler

variable {reassembler changed : Reassembler} {fragment : Packet}
variable {tag : FragmentTag} {datagram now deadline : Nat}

/-! ## Datagrams that are not late -/

theorem get?_swept (reassembler : Reassembler) (now number : Nat) :
    (reassembler.swept now).pending.get? number =
      (reassembler.pending.get? number).filter
        fun assembly => decide (now < assembly.deadline) := by
  rw [swept, Table.get?_filter]
  congr 1
  funext assembly
  simp only [← Nat.not_le, decide_not]

theorem inFlight_swept_le (reassembler : Reassembler) (now : Nat) :
    (reassembler.swept now).inFlight ≤ reassembler.inFlight :=
  List.length_filter_le _ _

/-- Once those that are late are gone, the earliest deadline is still to
come. -/
theorem nextDeadline?_swept (reassembler : Reassembler) (now : Nat) :
    ∀ next, (reassembler.swept now).nextDeadline? = some next →
      now < next := by
  intro next isNext
  have among := List.min?_mem isNext
  rw [List.mem_map] at among
  obtain ⟨assembly, member, rfl⟩ := among
  obtain ⟨entry, isEntry, rfl⟩ := List.mem_map.mp member
  have kept := (List.mem_filter.mp isEntry).2
  simpa using kept

theorem late_swept (reassembler : Reassembler) (now : Nat) :
    (reassembler.swept now).late now = [] := by
  apply List.eq_nil_iff_forall_not_mem.mpr
  intro datagram member
  obtain ⟨assembly, found, isLate⟩ := mem_late_iff.mp member
  rw [get?_swept, Option.filter_eq_some_iff, decide_eq_true_eq] at found
  omega

theorem late_ascending (reassembler : Reassembler) (now : Nat) :
    (reassembler.late now).Pairwise (fun earlier later => earlier < later) :=
  List.pairwise_map.mpr (reassembler.pending.ascending.filter _)

/-! ## How a fragment finds its datagram -/

/-- How a fragment finds its datagram, and what is decided then. -/
inductive Arrival (reassembler : Reassembler) (tag : FragmentTag)
    (fragment : Packet) (now deadline : Nat) :
    Decision × Reassembler → Prop
  | late {assembly : Assembly}
      (found : reassembler.pending.get? tag.datagram.toNat = some assembly)
      (isLate : assembly.deadline ≤ now) :
      Arrival reassembler tag fragment now deadline
        (.refused (.reassemblyTimeout tag.datagram),
          reassembler.without tag.datagram.toNat)
  | inTime {assembly : Assembly}
      (found : reassembler.pending.get? tag.datagram.toNat = some assembly)
      (isEarly : now < assembly.deadline) :
      Arrival reassembler tag fragment now deadline
        (reassembler.judgeAdded assembly tag fragment)
  | crowded
      (absent : reassembler.pending.get? tag.datagram.toNat = none)
      (full : reassembler.limits.maxDatagrams ≤
        (reassembler.swept now).inFlight) :
      Arrival reassembler tag fragment now deadline
        (.refused (.tooManyDatagrams reassembler.limits.maxDatagrams),
          reassembler.swept now)
  | first
      (absent : reassembler.pending.get? tag.datagram.toNat = none)
      (room : (reassembler.swept now).inFlight <
        reassembler.limits.maxDatagrams) :
      Arrival reassembler tag fragment now deadline
        ((reassembler.roomy tag.datagram.toNat now).judgeAdded
          (.begun deadline) tag fragment)

theorem judge_arrives (tagged : fragment.tag = some tag) :
    reassembler.Arrival tag fragment now deadline
      (reassembler.judge fragment now deadline) := by
  simp only [judge, tagged]
  cases found : reassembler.pending.get? tag.datagram.toNat with
  | some assembly =>
      have room : reassembler.HasRoom tag.datagram.toNat :=
        Or.inl (by simp [Table.contains, found])
      rw [roomy_of_room room]
      simp only [judgeTagged, found]
      split
      · rename_i isLate
        exact .late found isLate
      · rename_i notLate
        exact .inTime found (Nat.lt_of_not_le notLate)
  | none =>
      by_cases full : reassembler.limits.maxDatagrams ≤ reassembler.inFlight
      · have isSwept : reassembler.roomy tag.datagram.toNat now =
            reassembler.swept now := by
          simp [roomy, Table.contains, found, full]
        have stillAbsent := reassembler.get?_roomy tag.datagram.toNat now
        rw [isSwept, found] at stillAbsent
        rw [isSwept]
        simp only [judgeTagged, stillAbsent]
        split
        · rename_i stillFull
          exact .crowded found stillFull
        · rename_i hasRoom
          rw [← isSwept]
          exact .first found (Nat.lt_of_not_le hasRoom)
      · have hasRoom := Nat.lt_of_not_le full
        have room : reassembler.HasRoom tag.datagram.toNat :=
          Or.inr hasRoom
        simp only [judgeTagged, roomy_of_room room, found, full, if_false]
        have arrival : reassembler.Arrival tag fragment now deadline _ :=
          .first found (Nat.lt_of_le_of_lt
            (reassembler.inFlight_swept_le now) hasRoom)
        rw [roomy_of_room room] at arrival
        exact arrival

/-- What adding a fragment to its datagram comes to, case by case. -/
theorem judgeAdded_cases (reassembler : Reassembler) (assembly : Assembly)
    (tag : FragmentTag) (fragment : Packet) :
    (∃ error, error.ofFragment = true ∧
      reassembler.judgeAdded assembly tag fragment =
        (.refused error, reassembler.without tag.datagram.toNat)) ∨
    ∃ longer, assembly.insert tag fragment reassembler.limits.holdLimit =
        .ok longer ∧
      ((longer.isComplete = true ∧
          reassembler.judgeAdded assembly tag fragment =
            (.whole longer, reassembler.without tag.datagram.toNat)) ∨
        (longer.isComplete = false ∧
          reassembler.judgeAdded assembly tag fragment =
            (.waiting,
              reassembler.having tag.datagram.toNat longer))) := by
  unfold judgeAdded
  cases inserting : assembly.insert tag fragment
      reassembler.limits.holdLimit with
  | error error =>
      exact Or.inl ⟨error, Assembly.ofFragment_of_insert inserting, rfl⟩
  | ok longer =>
      refine Or.inr ⟨longer, rfl, ?_⟩
      cases complete : longer.isComplete with
      | true => exact Or.inl ⟨rfl, by simp [complete]⟩
      | false => exact Or.inr ⟨rfl, by simp [complete]⟩

/-! ## What an answer tells -/

/-- An answer to a fragment, and the reassembler afterwards, go by the clock:
what is late is refused and gone, nothing is put together late, a new datagram
is turned away exactly if those that are not late leave no room for it, and
every other datagram stays as it is, unless it is late and had to make room. -/
structure Punctual (reassembler : Reassembler) (tag : FragmentTag)
    (now deadline : Nat) (answer : Except BufferError (Option Packet))
    (changed : Reassembler) : Prop where
  late : ∀ assembly,
    reassembler.pending.get? tag.datagram.toNat = some assembly →
    assembly.deadline ≤ now →
      answer = .error (.reassemblyTimeout tag.datagram) ∧
      changed.pending.get? tag.datagram.toNat = none
  inTime : ∀ packet, answer = .ok (some packet) →
    (∃ assembly,
      reassembler.pending.get? tag.datagram.toNat = some assembly ∧
      now < assembly.deadline) ∨
    (reassembler.pending.get? tag.datagram.toNat = none ∧
      tag.offset = 0 ∧ tag.moreFragments = false)
  crowded : (∃ limit, answer = .error (.tooManyDatagrams limit)) ↔
    reassembler.pending.get? tag.datagram.toNat = none ∧
    reassembler.limits.maxDatagrams ≤ (reassembler.swept now).inFlight
  kept : ∀ assembly longer,
    reassembler.pending.get? tag.datagram.toNat = some assembly →
    changed.pending.get? tag.datagram.toNat = some longer →
      longer.deadline = assembly.deadline
  first : ∀ assembly,
    reassembler.pending.get? tag.datagram.toNat = none →
    changed.pending.get? tag.datagram.toNat = some assembly →
      assembly.deadline = deadline
  others : ∀ number, number ≠ tag.datagram.toNat →
    changed.pending.get? number =
      if reassembler.pending.get? tag.datagram.toNat = none ∧
          reassembler.limits.maxDatagrams ≤ reassembler.inFlight then
        (reassembler.swept now).pending.get? number
      else reassembler.pending.get? number

/-- A refusal for the sake of a payload or of a fragment does not turn a new
datagram away. -/
theorem ne_tooMany {error : BufferError}
    (other : error.ofPayload = true ∨ error.ofFragment = true)
    (limit : Nat) : error ≠ .tooManyDatagrams limit := by
  rintro rfl
  simp [BufferError.ofPayload, BufferError.ofFragment] at other

/-- What adding a fragment to its datagram is answered. -/
theorem answer_of_judgeAdded {assembly : Assembly}
    {answer : Except BufferError (Option Packet)}
    (answered : (reassembler.judgeAdded assembly tag fragment).1.Answered
      answer) :
    ∀ limit, answer ≠ .error (.tooManyDatagrams limit) := by
  rintro limit rfl
  rcases reassembler.judgeAdded_cases assembly tag fragment with
    ⟨error, isFragment, added⟩ | ⟨longer, _, ⟨_, added⟩ | ⟨_, added⟩⟩
  · rw [added] at answered
    cases answered.1
    exact ne_tooMany (Or.inr isFragment) limit rfl
  · rw [added] at answered
    exact ne_tooMany (Or.inl (answered.2 longer _ rfl rfl)) limit rfl
  · rw [added] at answered
    cases answered.1

/-- What is added to a datagram does not change its deadline. -/
theorem deadline_of_judgeAdded {assembly longer : Assembly}
    (found : (reassembler.judgeAdded assembly tag fragment).2.pending.get?
      tag.datagram.toNat = some longer) :
    longer.deadline = assembly.deadline := by
  rcases reassembler.judgeAdded_cases assembly tag fragment with
    ⟨_, _, added⟩ | ⟨grown, inserting, ⟨_, added⟩ | ⟨_, added⟩⟩
  · simp [added, without] at found
  · simp [added, without] at found
  · simp only [added, having, Table.get?_insert, if_true] at found
    cases found
    exact Assembly.deadline_of_insert inserting

theorem get?_judgeAdded_of_ne {assembly : Assembly} {number : Nat}
    (different : number ≠ tag.datagram.toNat) :
    (reassembler.judgeAdded assembly tag fragment).2.pending.get? number =
      reassembler.pending.get? number := by
  rcases reassembler.judgeAdded_cases assembly tag fragment with
    ⟨_, _, added⟩ | ⟨_, _, ⟨_, added⟩ | ⟨_, added⟩⟩
  · simp [added, without, different]
  · simp [added, without, different]
  · simp [added, having, different]

theorem alone_of_judgeAdded {packet : Packet}
    (answered : (reassembler.judgeAdded (.begun deadline) tag
      fragment).1.Answered (.ok (some packet))) :
    tag.offset = 0 ∧ tag.moreFragments = false := by
  rcases reassembler.judgeAdded_cases (.begun deadline) tag fragment with
    ⟨_, _, added⟩ | ⟨_, inserting, ⟨complete, added⟩ | ⟨_, added⟩⟩
  · rw [added] at answered
    cases answered.1
  · exact Assembly.alone_of_complete inserting complete
  · rw [added] at answered
    cases answered.1

/-- Every answer to a fragment goes by the clock. -/
theorem punctual {answer : Except BufferError (Option Packet)}
    (tagged : fragment.tag = some tag)
    (answered : (reassembler.judge fragment now deadline).1.Answered
      answer) :
    reassembler.Punctual tag now deadline answer
      (reassembler.judge fragment now deadline).2 := by
  have arrival : reassembler.Arrival tag fragment now deadline _ :=
    reassembler.judge_arrives tagged
  generalize reassembler.judge fragment now deadline = decided
    at arrival answered ⊢
  cases arrival with
  | @late assembly found isLate =>
      cases answered.1
      constructor
      · exact fun _ _ _ => ⟨rfl, by simp [without]⟩
      · simp
      · simp [found]
      · simp [without]
      · simp [found]
      · intro number different
        simp [without, found, different]
  | @inTime assembly found isEarly =>
      constructor
      · intro other isOther isLate
        rw [found] at isOther
        cases isOther
        omega
      · exact fun _ _ => Or.inl ⟨assembly, found, isEarly⟩
      · constructor
        · rintro ⟨limit, rfl⟩
          exact absurd rfl (answer_of_judgeAdded answered limit)
        · rintro ⟨absent, _⟩
          simp [found] at absent
      · intro other longer isOther isLonger
        rw [found] at isOther
        cases isOther
        exact deadline_of_judgeAdded isLonger
      · simp [found]
      · intro number different
        rw [get?_judgeAdded_of_ne different]
        simp [found]
  | crowded absent full =>
      cases answered.1
      have wasFull : reassembler.limits.maxDatagrams ≤
          reassembler.inFlight :=
        Nat.le_trans full (reassembler.inFlight_swept_le now)
      constructor
      · simp [absent]
      · simp
      · simp [absent, full]
      · simp [absent]
      · intro assembly _ found
        simp [get?_swept, absent] at found
      · intro number _
        simp [absent, wasFull]
  | first absent room =>
      have notFull : ¬(reassembler.limits.maxDatagrams ≤
          (reassembler.swept now).inFlight) := Nat.not_le_of_lt room
      constructor
      · simp [absent]
      · rintro packet rfl
        exact Or.inr ⟨absent, alone_of_judgeAdded answered⟩
      · constructor
        · rintro ⟨limit, rfl⟩
          exact absurd rfl (answer_of_judgeAdded answered limit)
        · rintro ⟨_, full⟩
          exact absurd full notFull
      · simp [absent]
      · intro assembly _ found
        exact deadline_of_judgeAdded found
      · intro number different
        rw [get?_judgeAdded_of_ne different]
        simp only [roomy, Table.contains, absent, Option.isSome_none,
          Bool.not_false, Bool.true_and, decide_eq_true_eq, true_and]
        split
        · rfl
        · rfl

end Reassembler

end PooledPackets
