import PooledPackets.Proofs.Fragments.Pieces
import PooledPackets.Proofs.Ownership.Costs

/-!
# Walks under any schedule

Fragments are asked for, a stalled walk is resumed, a walk is started over, and
in between others take segments from the pools and give them back. Whatever
the order of all that is, the fragments since the last start are the first
pieces of the packet, a fragment that cannot be made costs nothing, and the
number of fragments still to come is the one that was promised.
-/

namespace PooledPackets

open Operation

/-! ## Refusals that cost nothing -/

/-- The free segments of all pools, and their order, are still the same. -/
def Pools.SameFree (pools after : Pools) : Prop :=
  ∀ id, (after.get id).free = (pools.get id).free

theorem Pools.Refused.sameFree {pools after : Pools} {id : PoolId}
    {error : BufferError} (refused : pools.Refused id error after) :
    pools.SameFree after :=
  refused.free_eq rfl

namespace Fragmenter

variable {pools origin : Pools} {others : List Packet}

/-! ## One call -/

/-- What a call for the next fragment can come to. -/
inductive Answers (walk : Fragmenter) (origin before : Pools) :
    Option (Except BufferError Packet) × Fragmenter → Pools → Prop
  /-- A walk that is finished or stalled stays as it is. -/
  | silent (ended : walk.finished = true ∨ walk.stalled = true) :
      Answers walk origin before (none, walk) before
  | made {fragment : Packet} {after : Pools}
      (goesOn : walk.finished = false ∧ walk.stalled = false)
      (isPiece : (walk.division (origin.get walk.pool).layout).IsPiece
        walk.offset fragment)
      (length_eq : fragment.length = walk.nextLength) :
      Answers walk origin before
        (some (.ok fragment), walk.advance walk.nextLength) after
  /-- A walk for which the pool is short of segments stalls where it is. -/
  | short {error : BufferError} {after : Pools}
      (goesOn : walk.finished = false ∧ walk.stalled = false)
      (shortage : (origin.get walk.pool).shortage?
        (before.get walk.pool).freeCount walk.nextLength = some error)
      (sameFree : before.SameFree after) :
      Answers walk origin before
        (some (.error error), { walk with stalled := true }) after

/-- A walk that is at its end or can go on once it is not stalled. -/
structure Steady (walk : Fragmenter) : Prop where
  sound : walk.source.Sound
  progress : 0 < walk.fragmentLength
  underway : walk.finished = true ∨ walk.Underway

variable {walk : Fragmenter}

/-- Every call is answered, whatever the others have left of the pools. -/
theorem Steady.answers (steady : walk.Steady)
    (consistent : pools.Consistent origin .never others) :
    (walk.next pools).Satisfies
      (fun result after => walk.Answers origin pools result after)
      (fun _ _ => False) (fun _ => False) := by
  by_cases ended : walk.finished = true ∨ walk.stalled = true
  · have isEnded : (walk.finished || walk.stalled) = true := by
      rw [Bool.or_eq_true]
      exact ended
    rw [next, if_pos isEnded]
    exact Outcome.Satisfies.pure (.silent ended)
  · rw [not_or, Bool.not_eq_true, Bool.not_eq_true] at ended
    have underway := steady.underway.resolve_left (by simp [ended.1])
    have known := (consistent.next_costs steady.sound ended.1
      ended.2).and (consistent.next_satisfies steady.sound)
    apply known.mono ?_ (fun _ _ refused => refused.1)
      (fun _ stopped => stopped)
    intro result after ending
    obtain ⟨costs, sameSource, answer⟩ := ending
    obtain ⟨item, further⟩ := result
    cases item with
    | none => exact costs.elim
    | some made =>
        cases made with
        | error error =>
            obtain ⟨_, rfl⟩ := answer
            exact .short ended costs.2.1 costs.2.2.sameFree
        | ok fragment =>
            obtain ⟨consistentFragment, rfl, makes, _⟩ := costs
            have sound : fragment.Sound :=
              consistentFragment.kept fragment (List.mem_cons_self ..)
            obtain ⟨length, isPiece⟩ := underway.makes_piece makes sound
            exact .made ended isPiece length

/-- A walk is at its end behind the last fragment and can go on otherwise. -/
theorem Steady.advance (steady : walk.Steady)
    (unfinished : walk.finished = false) :
    (walk.advance walk.nextLength).Steady where
  sound := steady.sound
  progress := steady.progress
  underway := by
    have underway := steady.underway.resolve_left (by simp [unfinished])
    rcases underway.advance with ⟨_, isFinished⟩ | ⟨_, _, further⟩
    · exact Or.inl isFinished
    · exact Or.inr further

/-- Whether a walk is stalled does not matter for how far it has come. -/
theorem Steady.stalling (steady : walk.Steady) (stalled : Bool) :
    { walk with stalled := stalled }.Steady where
  sound := steady.sound
  progress := steady.progress
  underway := steady.underway.imp id fun underway =>
    ⟨underway.sound, underway.progress, underway.unfinished,
      underway.inside⟩

theorem steady_restart (sound : walk.source.Sound)
    (progress : 0 < walk.fragmentLength) : walk.restart.Steady where
  sound := sound
  progress := progress
  underway := Or.inr
    (underway_unbegun walk.pool sound walk.datagram progress)

theorem Answers.steady {result : Option (Except BufferError Packet) × Fragmenter}
    {after : Pools} (answers : walk.Answers origin pools result after)
    (steady : walk.Steady) : result.2.Steady := by
  cases answers with
  | silent _ => exact steady
  | made goesOn _ _ => exact steady.advance goesOn.1
  | short _ _ _ => exact steady.stalling true

/-! ## What is still to come -/

/-- Calls one after the other that are all answered with a fragment or with the
reason why there is none, each of them in the pools of some session that can be
reached. -/
inductive Draws (configs : List Config) :
    Fragmenter → List (Except BufferError Packet) → Fragmenter → Prop
  | nothing {walk : Fragmenter} : Draws configs walk [] walk
  | another {walk further last : Fragmenter}
      {item : Except BufferError Packet}
      {later : List (Except BufferError Packet)} {session : Session}
      {pools : Pools} (reached : session.Reached configs)
      (answered : walk.next session.pools =
        .done (some item, further) pools)
      (goesOn : Draws configs further later last) :
      Draws configs walk (item :: later) last

theorem hint_eq_zero (ended : (walk.finished || walk.stalled) = true) :
    walk.hint = (0, 0) := by
  rw [hint, if_pos ended]

theorem hint_eq_left (goesOn : walk.finished = false ∧
    walk.stalled = false) : walk.hint = (1, walk.left) := by
  rw [hint, goesOn.1, goesOn.2]
  rfl

/-- Each call uses up one of the fragments that were still to come. -/
theorem Answers.hint_lt {item : Except BufferError Packet}
    {further : Fragmenter} {after : Pools}
    (answers : walk.Answers origin pools (some item, further) after)
    (steady : walk.Steady) : further.hint.2 < walk.hint.2 := by
  have someLeft : 0 < walk.left := by
    rw [left]
    omega
  cases answers with
  | made goesOn _ _ =>
      rw [hint_eq_left goesOn]
      have underway := steady.underway.resolve_left (by simp [goesOn.1])
      rcases underway.advance with ⟨_, isFinished⟩ | ⟨_, inside, further⟩
      · rw [hint_eq_zero (by rw [isFinished, Bool.true_or])]
        exact someLeft
      · have fewer := left_advance steady.progress inside
        have goesFurther : (walk.advance walk.nextLength).finished = false ∧
            (walk.advance walk.nextLength).stalled = false :=
          ⟨further.unfinished, goesOn.2⟩
        rw [hint_eq_left goesFurther]
        dsimp only
        omega
  | short goesOn _ _ =>
      rw [hint_eq_left goesOn, hint_eq_zero (by simp)]
      exact someLeft

/-- The answers before the first silence are no more than was promised. -/
theorem Draws.length_le {configs : List Config} {last : Fragmenter}
    {items : List (Except BufferError Packet)}
    (draws : walk.Draws configs items last) (steady : walk.Steady) :
    items.length ≤ walk.hint.2 := by
  induction draws with
  | nothing => exact Nat.zero_le _
  | @another walk further last item later session pools reached answered _
      inductionHypothesis =>
      have answers := (steady.answers reached.owns).of_done answered
      have fewer := answers.hint_lt steady
      have rest := inductionHypothesis (answers.steady steady)
      rw [List.length_cons]
      omega

/-- The fragment in an answer, if there is one. -/
def fragmentsIn : Option (Except BufferError Packet) → List Packet
  | some (.ok fragment) => [fragment]
  | _ => []

/-- What a walk has come to under a schedule, and the fragments that it yielded
since it was last started. Each call finds the pools as some session has left
them: what the others do in between is up to them. -/
inductive Scheduled (configs : List Config) (begun : Fragmenter) :
    Fragmenter → List Packet → Prop
  | start : Scheduled configs begun begun []
  | next {walk further : Fragmenter} {yielded : List Packet}
      {item : Option (Except BufferError Packet)} {session : Session}
      {pools : Pools} (before : Scheduled configs begun walk yielded)
      (reached : session.Reached configs)
      (answered : walk.next session.pools = .done (item, further) pools) :
      Scheduled configs begun further (yielded ++ fragmentsIn item)
  | resume {walk : Fragmenter} {yielded : List Packet}
      (before : Scheduled configs begun walk yielded) :
      Scheduled configs begun walk.resume yielded
  | restart {walk : Fragmenter} {yielded : List Packet}
      (before : Scheduled configs begun walk yielded) :
      Scheduled configs begun walk.restart []

/-- A fragment is the one of a number, counted from zero: it has the bytes from
its place on, as many as a fragment has or as are left, and its tag says where
they belong. -/
structure IsNumber (begun : Fragmenter) (layout : Layout) (number : Nat)
    (fragment : Packet) : Prop where
  isPiece : (begun.division layout).IsPiece (number * begun.fragmentLength)
    fragment
  length_eq : fragment.length = min begun.fragmentLength
    (begun.source.length - number * begun.fragmentLength)
  nonempty : begun.source.length ≠ 0 → 0 < fragment.length

/-- How far a walk has come once it yielded some fragments: nothing but its
position and its two flags has changed; it is behind the last byte of those
fragments, and at its end exactly if those are all fragments of the packet. -/
structure Stands (begun : Fragmenter) (layout : Layout) (walk : Fragmenter)
    (yielded : List Packet) : Prop where
  walk_eq : walk = { begun with
    offset := min (yielded.length * begun.fragmentLength)
      begun.source.length
    finished := decide (yielded.length = begun.count)
    stalled := walk.stalled }
  length_le : yielded.length ≤ begun.count
  numbered : ∀ number fragment, yielded[number]? = some fragment →
    begun.IsNumber layout number fragment

variable {begun : Fragmenter} {layout : Layout} {yielded : List Packet}

theorem count_pos (begun : Fragmenter) : 0 < begun.count := by
  rw [count]
  omega

theorem lt_count_iff (progress : 0 < begun.fragmentLength) {number : Nat} :
    number < begun.count ↔
      number * begun.fragmentLength < begun.source.length ∨ number = 0 := by
  rw [count, ← Layout.lt_portions_iff progress]
  omega

/-! ### Behind a number of fragments -/

/-- A walk behind the first fragments of its packet: nothing but its position
and its flags has changed. -/
def behind (begun : Fragmenter) (number : Nat) (stalled : Bool) : Fragmenter :=
  { begun with
    offset := min (number * begun.fragmentLength) begun.source.length
    finished := decide (number = begun.count)
    stalled := stalled }

section Behind

variable {number : Nat} {stalled : Bool}

@[simp] theorem source_behind :
    (begun.behind number stalled).source = begun.source :=
  rfl

theorem behind_zero : begun.behind 0 stalled =
    { begun with offset := 0, finished := false, stalled := stalled } := by
  rw [behind, Nat.zero_mul, Nat.zero_min,
    decide_eq_false (Nat.ne_of_lt begun.count_pos)]

theorem offset_behind (progress : 0 < begun.fragmentLength)
    (fewer : number < begun.count) :
    (begun.behind number stalled).offset = number * begun.fragmentLength := by
  dsimp only [behind]
  rcases (lt_count_iff progress).mp fewer with inside | isFirst
  · exact Nat.min_eq_left (Nat.le_of_lt inside)
  · rw [isFirst, Nat.zero_mul, Nat.zero_min]

theorem nextLength_behind (progress : 0 < begun.fragmentLength)
    (fewer : number < begun.count) :
    (begun.behind number stalled).nextLength = min begun.fragmentLength
      (begun.source.length - number * begun.fragmentLength) := by
  rw [nextLength, offset_behind progress fewer]
  rfl

/-- The fragment of a number reaches up to the one of the next number, and to
the end of the packet exactly if there is none. -/
theorem reach_behind (progress : 0 < begun.fragmentLength)
    (fewer : number < begun.count) :
    (begun.behind number stalled).offset +
        (begun.behind number stalled).nextLength =
      min ((number + 1) * begun.fragmentLength) begun.source.length := by
  rw [offset_behind progress fewer, nextLength_behind progress fewer,
    Nat.succ_mul]
  rcases (lt_count_iff progress).mp fewer with inside | isFirst
  · omega
  · rw [isFirst, Nat.zero_mul]
    omega

theorem reach_lt_iff (progress : 0 < begun.fragmentLength) :
    min ((number + 1) * begun.fragmentLength) begun.source.length <
      begun.source.length ↔ number + 1 < begun.count := by
  rw [lt_count_iff progress]
  omega

theorem advance_behind (progress : 0 < begun.fragmentLength)
    (fewer : number < begun.count) :
    (begun.behind number stalled).advance
        (begun.behind number stalled).nextLength =
      begun.behind (number + 1) stalled := by
  have isLast : decide (begun.source.length ≤
      min ((number + 1) * begun.fragmentLength) begun.source.length) =
        decide (number + 1 = begun.count) := by
    have goesOn := @reach_lt_iff begun number progress
    rw [decide_eq_decide]
    omega
  rw [advance, reach_behind progress fewer, source_behind, isLast]
  rfl

theorem restart_behind :
    (begun.behind number stalled).restart = begun.behind 0 false := by
  rw [behind_zero]
  rfl

theorem unbegun_eq_behind (pool : PoolId) (source : Packet)
    (datagram : UInt32) (fragmentLength : Nat) :
    unbegun pool source datagram fragmentLength =
      (unbegun pool source datagram fragmentLength).behind 0 false := by
  rw [behind_zero]
  rfl

end Behind

/-- Where a walk stands that can still go on. -/
theorem Stands.length_lt (stands : begun.Stands layout walk yielded)
    (unfinished : walk.finished = false) : yielded.length < begun.count := by
  rw [stands.walk_eq, decide_eq_false_iff_not] at unfinished
  exact Nat.lt_of_le_of_ne stands.length_le unfinished

theorem Stands.eq_behind (stands : begun.Stands layout walk yielded) :
    walk = begun.behind yielded.length walk.stalled :=
  stands.walk_eq

/-- What holds of the fragments so far by their numbers, and of one more
fragment by the next number, holds of all of them. -/
theorem numbered_snoc {property : Nat → Packet → Prop} {fragment : Packet}
    (numbered : ∀ number piece, yielded[number]? = some piece →
      property number piece)
    (isNext : property yielded.length fragment) (number : Nat)
    (piece : Packet) (isThere : (yielded ++ [fragment])[number]? = some piece) :
    property number piece := by
  rw [List.getElem?_append] at isThere
  split at isThere
  · exact numbered number piece isThere
  · obtain ⟨isLast, isFragment⟩ := List.getElem?_eq_some_iff.mp isThere
    rw [List.length_singleton] at isLast
    obtain rfl : number = yielded.length := by omega
    simp only [Nat.sub_self, List.getElem_cons_zero] at isFragment
    subst isFragment
    exact isNext

/-- A walk that goes on yields the fragment of the next number. -/
theorem Stands.advance {fragment : Packet}
    (stands : begun.Stands layout walk yielded)
    (progress : 0 < begun.fragmentLength) (unfinished : walk.finished = false)
    (isPiece : (walk.division layout).IsPiece walk.offset fragment)
    (length_eq : fragment.length = walk.nextLength) :
    begun.Stands layout (walk.advance walk.nextLength)
      (yielded ++ [fragment]) := by
  have fewer := stands.length_lt unfinished
  have stalled_eq : (walk.advance walk.nextLength).stalled = walk.stalled :=
    rfl
  have sameDivision : walk.division layout = begun.division layout := by
    rw [stands.walk_eq]
    rfl
  have offset_eq : walk.offset = yielded.length * begun.fragmentLength := by
    rw [stands.eq_behind]
    exact offset_behind progress fewer
  have nextLength_eq : walk.nextLength = min begun.fragmentLength
      (begun.source.length - yielded.length * begun.fragmentLength) := by
    rw [stands.eq_behind]
    exact nextLength_behind progress fewer
  constructor
  · rw [stalled_eq, List.length_append, List.length_singleton]
    rw [stands.eq_behind]
    exact advance_behind progress fewer
  · rw [List.length_append, List.length_singleton]
    exact fewer
  · refine numbered_snoc stands.numbered
      ⟨?_, length_eq.trans nextLength_eq, fun nonempty => ?_⟩
    · rw [← sameDivision, ← offset_eq]
      exact isPiece
    · rw [length_eq, nextLength_eq]
      rcases (lt_count_iff progress).mp fewer with inside | isFirst
      · omega
      · rw [isFirst, Nat.zero_mul]
        omega

theorem Stands.stalling (stands : begun.Stands layout walk yielded)
    (stalled : Bool) :
    begun.Stands layout { walk with stalled := stalled } yielded where
  walk_eq := by rw [stands.walk_eq]
  length_le := stands.length_le
  numbered := stands.numbered

theorem Stands.restart (stands : begun.Stands layout walk yielded) :
    begun.Stands layout walk.restart [] where
  walk_eq := by
    rw [stands.eq_behind]
    exact restart_behind
  length_le := Nat.zero_le _
  numbered := by simp

theorem Answers.stands {result : Option (Except BufferError Packet) × Fragmenter}
    {after : Pools} (answers : walk.Answers origin pools result after)
    (stands : begun.Stands (origin.get begun.pool).layout walk yielded)
    (progress : 0 < begun.fragmentLength) :
    begun.Stands (origin.get begun.pool).layout result.2
      (yielded ++ fragmentsIn result.1) := by
  have samePool : walk.pool = begun.pool := by rw [stands.walk_eq]
  cases answers with
  | silent _ =>
      simp only [fragmentsIn, List.append_nil]
      exact stands
  | made goesOn isPiece length_eq =>
      rw [samePool] at isPiece
      exact stands.advance progress goesOn.1 isPiece length_eq
  | short _ _ _ =>
      simp only [fragmentsIn, List.append_nil]
      exact stands.stalling true

theorem stands_unbegun (pool : PoolId) (source : Packet) (datagram : UInt32)
    (fragmentLength : Nat) :
    (unbegun pool source datagram fragmentLength).Stands layout
      (unbegun pool source datagram fragmentLength) [] where
  walk_eq := unbegun_eq_behind ..
  length_le := Nat.zero_le _
  numbered := by simp

variable {configs : List Config} {pool : PoolId} {source : Packet}
variable {datagram : UInt32} {fragmentLength : Nat}

theorem Scheduled.stands
    (scheduled : Scheduled configs
      (unbegun pool source datagram fragmentLength) walk yielded)
    (sound : source.Sound) (progress : 0 < fragmentLength) :
    walk.Steady ∧ (unbegun pool source datagram fragmentLength).Stands
      ((Pools.ofConfigs configs).get pool).layout walk yielded := by
  induction scheduled with
  | start =>
      exact ⟨@steady_restart (unbegun pool source datagram fragmentLength)
        sound progress, stands_unbegun pool source datagram fragmentLength⟩
  | next before reached answered inductionHypothesis =>
      obtain ⟨steady, stands⟩ := inductionHypothesis
      have answers := (steady.answers reached.owns).of_done answered
      exact ⟨answers.steady steady, answers.stands stands progress⟩
  | resume _ inductionHypothesis =>
      exact ⟨inductionHypothesis.1.stalling false,
        inductionHypothesis.2.stalling false⟩
  | restart _ inductionHypothesis =>
      obtain ⟨steady, stands⟩ := inductionHypothesis
      exact ⟨steady_restart steady.sound steady.progress, stands.restart⟩

end Fragmenter

end PooledPackets
