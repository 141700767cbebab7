import PooledPackets.Proofs.Load.Delivery
import PooledPackets.Proofs.Reassembly.Answers
import PooledPackets.Proofs.Reassembly.Timing

/-!
# Collecting what has arrived

A worker's reassembler sees the fragments of one datagram only. Whatever their
tags say otherwise, nothing gets lost, and few things can go wrong. Where the
fragments are the pieces of a payload, what becomes of them can be told from
their extents and the order in which they come.
-/

namespace PooledPackets

/-- An operation that is always done may be said to be refused, or to stop the
run, for any reason. -/
theorem Outcome.Satisfies.alwaysDone {α : Type} {outcome : Outcome α}
    {done : α → Pools → Prop} {refused : BufferError → Pools → Prop}
    {stopped : Stop → Prop}
    (contract : outcome.Satisfies done (fun _ _ => False)
      (fun _ => False)) :
    outcome.Satisfies done refused stopped :=
  contract.mono (fun _ _ known => known)
    (fun _ _ impossible => impossible.elim)
    (fun _ impossible => impossible.elim)

/-- Whether a refusal is about fragments of one datagram that do not go
together, come late or are too large together. -/
def BufferError.ofGathering : BufferError → Bool
  | .reassemblyTimeout .. => true
  | .overlap .. => true
  | .invalidFragment .. => true
  | .holdLimitExceeded .. => true
  | .oversizedPacket .. => true
  | _ => false

theorem BufferError.ofGathering_of_ofFragment {error : BufferError}
    (isFragment : error.ofFragment = true) : error.ofGathering = true := by
  cases error <;> first | rfl | cases isFragment

/-- A packet that is not released is refused more bytes only as too large. -/
theorem Gauge.ofGathering_of_firstRefusal? {limit : Nat}
    {error : BufferError} :
    ∀ {pieces : List Bytes} {gauge : Gauge},
      gauge.released = false →
      gauge.firstRefusal? limit pieces = some error →
        error.ofGathering = true
  | [], _, _, refused => by cases refused
  | piece :: rest, gauge, held, refused => by
      unfold firstRefusal? refusal? at refused
      rw [if_neg (by simp [held])] at refused
      by_cases fits : piece.length ≤ gauge.room
      · rw [if_pos fits] at refused
        refine ofGathering_of_firstRefusal? ?_ refused
        exact held
      · rw [if_neg fits] at refused
        cases refused
        rfl

theorem Reassembly.ofGathering_of_refusal? {chaining : Bool} {limit : Nat}
    {error : BufferError} {packets : List Packet}
    (held : ∀ packet ∈ packets, packet.chain ≠ [])
    (refused : Reassembly.refusal? chaining limit packets = some error) :
    error.ofGathering = true := by
  unfold Reassembly.refusal? at refused
  split at refused
  · cases refused
  · split at refused
    · cases refused
    · refine Gauge.ofGathering_of_firstRefusal? ?_ refused
      simpa [Packet.gauge, Packet.isReleased] using
        held _ (List.mem_cons_self ..)

/-- What a reassembler that sees one datagram only may answer: nothing yet, a
packet of its pool, or a refusal for one of few reasons. -/
def Reassembler.Fitting (id : PoolId) :
    Except BufferError (Option Packet) → Prop
  | .ok whole => ∀ packet ∈ whole, packet.pool = id
  | .error error => error.ofGathering = true

/-- A fragment of a datagram, made in a pool. -/
structure Packet.PartOf (fragment : Packet) (id : PoolId) (number : Nat) :
    Prop where
  pool_eq : fragment.pool = id
  held : fragment.chain ≠ []
  tagged : ∃ tag, fragment.tag = some tag ∧ tag.datagram.toNat = number

namespace Reassembler

/-- A reassembler that holds nothing but fragments of one datagram. -/
structure Serves (reassembler : Reassembler) (id : PoolId)
    (limits : ReassemblyLimits) (number : Nat) : Prop where
  pool_eq : reassembler.pool = id
  limits_eq : reassembler.limits = limits
  confined : reassembler.Confined [number]
  held : ∀ part ∈ reassembler.fragments, part.chain ≠ []

variable {reassembler : Reassembler} {fragment : Packet} {tag : FragmentTag}
variable {now deadline : Nat}

theorem serves_empty {id : PoolId} {limits : ReassemblyLimits}
    (positive : 0 < limits.maxDatagrams) (number : Nat) :
    Serves ⟨id, limits, .empty⟩ id limits number where
  pool_eq := rfl
  limits_eq := rfl
  confined := ⟨positive, fun _ _ found => by cases found⟩
  held := by simp [fragments, Table.values, Table.empty]

/-- Once the one datagram is gone there is nothing left. -/
theorem Serves.eq_empty {id : PoolId} {limits : ReassemblyLimits}
    {number : Nat} (serves : reassembler.Serves id limits number)
    (absent : reassembler.pending.get? number = none) :
    reassembler = ⟨id, limits, .empty⟩ := by
  have nothing : reassembler.pending = .empty := by
    apply Table.eq_of_entries
    apply List.eq_nil_iff_forall_not_mem.mpr
    intro entry member
    have found := Table.get?_eq_some_iff.mpr member
    have listed := (serves.confined.held entry.1 entry.2 found).1
    rw [List.mem_singleton.mp listed, absent] at found
    cases found
  rw [← serves.pool_eq, ← serves.limits_eq, ← nothing]

/-- Where there is room, a fragment is refused only as late or as one that does
not go with what is held. -/
theorem ofGathering_of_judge {error : BufferError}
    (tagged : fragment.tag = some tag)
    (room : reassembler.HasRoom tag.datagram.toNat)
    (refused : (reassembler.judge fragment now deadline).1 =
      .refused error) :
    error.ofGathering = true := by
  have ofAdded : ∀ {other : Reassembler} {assembly : Assembly},
      (other.judgeAdded assembly tag fragment).1 = .refused error →
        error.ofGathering = true := by
    intro other assembly isRefused
    rcases other.judgeAdded_cases assembly tag fragment with
      ⟨found, isFragment, added⟩ | ⟨_, _, ⟨_, added⟩ | ⟨_, added⟩⟩
    · rw [added] at isRefused
      cases isRefused
      exact BufferError.ofGathering_of_ofFragment isFragment
    · rw [added] at isRefused
      cases isRefused
    · rw [added] at isRefused
      cases isRefused
  rw [judge_of_room tagged room] at refused
  split at refused
  · split at refused
    · cases refused
      rfl
    · exact ofAdded refused
  · exact ofAdded refused

namespace Serves

variable {id : PoolId} {limits : ReassemblyLimits} {number : Nat}

theorem held_cons (serves : reassembler.Serves id limits number)
    (part : fragment.PartOf id number) :
    ∀ packet ∈ fragment :: reassembler.fragments, packet.chain ≠ [] := by
  intro packet member
  rcases List.mem_cons.mp member with rfl | isHeld
  · exact part.held
  · exact serves.held packet isHeld

theorem hasRoom (serves : reassembler.Serves id limits number)
    (isNumber : tag.datagram.toNat = number) :
    reassembler.HasRoom tag.datagram.toNat :=
  serves.confined.hasRoom (List.mem_singleton.mpr isNumber)

/-- Whatever is decided on a fragment of the one datagram, nothing else is
held afterwards. -/
theorem judge (serves : reassembler.Serves id limits number)
    (part : fragment.PartOf id number) :
    (reassembler.judge fragment now deadline).2.Serves id limits number := by
  obtain ⟨tag, tagged, isNumber⟩ := part.tagged
  have keeps := reassembler.judge_keeps fragment now deadline
  constructor
  · exact keeps.1.trans serves.pool_eq
  · exact keeps.2.trans serves.limits_eq
  · exact serves.confined.judge tagged (List.mem_singleton.mpr isNumber)
      (part.pool_eq.trans serves.pool_eq.symm)
  · intro packet member
    exact serves.held_cons part packet
      (reassembler.fragments_judge_subset fragment now deadline member)

end Serves

end Reassembler

namespace Pools.Consistent

variable {pools origin : Pools} {others : List Packet}
variable {reassembler : Reassembler} {fragment : Packet}
variable {id : PoolId} {limits : ReassemblyLimits}
variable {number now deadline : Nat}

/-- While the clock cannot show the deadline, every fragment stops the run. -/
theorem push_unread
    (consistent : pools.Consistent origin .never
      (fragment :: (reassembler.fragments ++ others)))
    (unread : reassembler.limits.timeout.after? now = none) :
    (reassembler.push fragment now pools).Satisfies (fun _ _ => False)
      (fun _ _ => False) (fun stop => stop = .outOfRange) := by
  have kept : ∀ packet ∈ [fragment], packet.Kept .never := by
    simpa using consistent.kept fragment (List.mem_cons_self ..)
  unfold Reassembler.push
  rw [unread]
  exact Outcome.Satisfies.holding rfl fun _ _ foreign =>
    (Packet.Kept.collapses kept foreign).mayStop.elim

/-- What becomes of a fragment of the one datagram, if anything does, is
fitting. -/
theorem answer_fitting {after : Pools} {changed : Reassembler}
    {answer : Except BufferError (Option Packet)}
    (consistent : pools.Consistent origin .never
      (fragment :: (reassembler.fragments ++ others)))
    (serves : reassembler.Serves id limits number)
    (part : fragment.PartOf id number)
    (reading : reassembler.limits.timeout.after? now = some deadline)
    (answers : reassembler.Answers .never pools fragment now deadline
      (answer, changed))
    (pushed : reassembler.push fragment now pools =
      .done (answer, changed) after) :
    Reassembler.Fitting id answer := by
  obtain ⟨tag, tagged, isNumber⟩ := part.tagged
  have room := serves.hasRoom isNumber
  have own := part.pool_eq.trans serves.pool_eq.symm
  have fits := answers.fits
  cases decided : (reassembler.judge fragment now deadline).1 with
  | refused reason =>
      rw [decided] at fits
      cases fits
      exact Reassembler.ofGathering_of_judge tagged room decided
  | waiting =>
      rw [decided] at fits
      cases fits
      simp [Reassembler.Fitting]
  | whole longer =>
      obtain ⟨_, _, ended⟩ := answers.ending longer decided
      match answer with
      | .ok none => exact ended.elim
      | .ok (some packet) =>
          intro other isPacket
          cases isPacket
          exact ended.pool_eq.trans serves.pool_eq
      | .error error =>
          obtain ⟨_, isError, refused⟩ :=
            (Reassembler.push_joins consistent serves.confined own reading
              tagged (List.mem_singleton.mpr isNumber) decided
                pushed).resolve_right (by simp)
          cases isError
          obtain ⟨_, inserting, _⟩ :=
            Reassembler.of_judge_whole tagged room decided
          exact Reassembly.ofGathering_of_refusal?
            (fun packet member => serves.held_cons part packet
              (Reassembler.fragments_of_insert_subset inserting member))
            refused

/-- A fragment of the one datagram is accepted or refused for one of few
reasons, unless the clock cannot show the deadline. -/
theorem push_serves
    (consistent : pools.Consistent origin .never
      (fragment :: (reassembler.fragments ++ others)))
    (serves : reassembler.Serves id limits number)
    (part : fragment.PartOf id number) :
    (reassembler.push fragment now pools).Satisfies
      (fun acceptance after =>
        after.Consistent origin .never
          (Reassembler.delivered acceptance.1 ++
            (acceptance.2.fragments ++ others)) ∧
        acceptance.2.Serves id limits number ∧
        Reassembler.Fitting id acceptance.1)
      (fun _ _ => False)
      (fun stop => stop = .outOfRange ∧
        limits.timeout.after? now = none) := by
  cases reading : limits.timeout.after? now with
  | none =>
      rw [← serves.limits_eq] at reading
      exact (consistent.push_unread reading).mono
        (fun _ _ impossible => impossible.elim)
        (fun _ _ impossible => impossible) fun _ isStop => ⟨isStop, rfl⟩
  | some deadline =>
      rw [← serves.limits_eq] at reading
      have contract : (reassembler.pushUntil (fun _ => []) fragment now
          deadline pools).Satisfies _ _ _ :=
        consistent.pushUntil_satisfies (fun _ _ => by simp)
      rw [Reassembler.push_eq reading]
      refine (contract.and Outcome.Satisfies.exactly).mono ?_
        (fun _ _ impossible => impossible.1)
        (fun _ impossible => False.elim impossible)
      rintro ⟨answer, changed⟩ after ⟨⟨answers, consistentAfter⟩, pushed⟩
      rw [← Reassembler.push_eq reading] at pushed
      have isChanged : changed =
          (reassembler.judge fragment now deadline).2 := answers.state_eq
      exact ⟨consistentAfter, isChanged ▸ serves.judge part,
        consistent.answer_fitting serves part reading answers pushed⟩

/-- Whatever comes of the fragments of one datagram, none of them gets lost,
and it fails for few reasons only. -/
theorem collect_serves (now : Nat) :
    ∀ {arrivals : List Packet} {whole : Option Packet}
      {reassembler : Reassembler} {pools : Pools},
      pools.Consistent origin .never
        (arrivals ++ (reassembler.fragments ++ whole.toList)) →
      reassembler.Serves id limits number →
      (∀ fragment ∈ arrivals, fragment.PartOf id number) →
      (∀ packet ∈ whole, packet.pool = id) →
      (Load.collect now reassembler whole arrivals pools).Satisfies
        (fun result after => result.2.Serves id limits number ∧
          match result.1 with
          | .ok received => (∀ packet ∈ received, packet.pool = id) ∧
              after.Consistent origin .never
                (result.2.fragments ++ received.toList)
          | .error error => error.ofGathering = true ∧
              after.Consistent origin .never result.2.fragments)
        (fun _ _ => False)
        (fun stop => stop = .outOfRange ∧
          limits.timeout.after? now = none)
  | [], whole, reassembler, _, consistent, serves, _, own =>
      Outcome.Satisfies.pure ⟨serves, own, consistent⟩
  | fragment :: rest, whole, reassembler, pools, consistent, serves,
      parts, own => by
      have first : pools.Consistent origin .never
          (fragment :: (reassembler.fragments ++
            (rest ++ whole.toList))) :=
        consistent.perm (List.Perm.cons fragment
          (List.perm_append_comm_assoc _ _ _))
      apply Outcome.Satisfies.bind (first.push_serves serves
        (parts fragment (List.mem_cons_self ..)))
      rintro ⟨answer, changed⟩ after ⟨consistentAfter, servesAfter, reason⟩
      have later : ∀ fragment ∈ rest, fragment.PartOf id number :=
        fun fragment member => parts fragment (.tail _ member)
      have inOrder := List.perm_append_comm_assoc
        changed.fragments rest whole.toList
      match answer with
      | .error error =>
          apply Outcome.Satisfies.bind
            (consistentAfter.perm inOrder).dropAll_satisfies.returned.alwaysDone
          intro _ dropped consistentDropped
          apply Outcome.Satisfies.bind (consistentDropped.perm
            List.perm_append_comm).dropAll_satisfies.returned.alwaysDone
          intro _ last consistentLast
          exact Outcome.Satisfies.pure
            ⟨servesAfter, reason, consistentLast⟩
      | .ok none =>
          exact collect_serves now (consistentAfter.perm inOrder) servesAfter
            later own
      | .ok (some packet) =>
          have oldFirst : after.Consistent origin .never
              (whole.toList ++ (rest ++ (changed.fragments ++
                (some packet).toList))) := by
            apply consistentAfter.perm
            refine List.perm_append_comm.trans ?_
            refine (inOrder.append_right [packet]).trans ?_
            rw [List.append_assoc, List.append_assoc]
            refine List.Perm.trans ?_ (List.perm_append_comm_assoc _ _ _)
            exact List.Perm.append_left _ (List.perm_append_comm_assoc _ _ _)
          apply Outcome.Satisfies.bind
            oldFirst.dropAll_satisfies.returned.alwaysDone
          intro _ dropped consistentDropped
          exact collect_serves now consistentDropped servesAfter later reason

end Pools.Consistent

/-! ## Pieces of a payload -/

/-- Why pieces that arrive one after the other, all at the same time, do not
become the whole payload. A piece that is not the first one may be late or out
of reach; `unjoined` says why the pieces are not put together once all are
there. -/
def Extent.gatherRefusal? (datagram : UInt32) (limits : ReassemblyLimits)
    (unjoined : Option BufferError) :
    (arrived left : List Extent) → Option BufferError
  | _, [] => none
  | arrived, extent :: left =>
      if arrived ≠ [] ∧ limits.timeout.nanoseconds = 0 then
        some (.reassemblyTimeout datagram)
      else if inReach limits.holdLimit arrived extent then
        if left = [] then unjoined
        else gatherRefusal? datagram limits unjoined
          (arrived ++ [extent]) left
      else some (.holdLimitExceeded datagram limits.holdLimit)

/-- How the collecting of pieces ends if this is foretold. -/
def Division.Gathered (division : Division) (foretold : Option BufferError)
    (result : Reassembler.Acceptance) : Prop :=
  match result.1 with
  | .ok none => False
  | .ok (some packet) => foretold = none ∧
      packet.toBytes = division.whole ∧
      result.2.pending.get? division.datagram.toNat = none
  | .error error => foretold = some error

/-- The clock shows that the deadline has come at once exactly if there was no
time to wait. -/
theorem Duration.deadline_le_iff {span : Duration} {now deadline : Nat}
    (reading : span.after? now = some deadline) :
    deadline ≤ now ↔ span.nanoseconds = 0 := by
  unfold after? at reading
  dsimp only at reading
  split at reading
  · cases reading
    omega
  · cases reading

namespace Reassembler

variable {reassembler : Reassembler} {fragment : Packet}
variable {now deadline : Nat} {pools : Pools}

theorem push_of_refused {error : BufferError} {changed : Reassembler}
    (reading : reassembler.limits.timeout.after? now = some deadline)
    (decided : reassembler.judge fragment now deadline =
      (.refused error, changed)) :
    (reassembler.push fragment now pools).Satisfies
      (fun acceptance _ => acceptance.1 = .error error)
      (fun _ _ => False) (fun _ => True) := by
  apply (reassembler.push_decided fragment now).monoDone
  rintro acceptance after ⟨given, isGiven, _, fits⟩
  cases reading.symm.trans isGiven
  rw [decided] at fits
  exact fits

end Reassembler

namespace Pools.Consistent

variable {pools origin : Pools} {reassembler : Reassembler}
variable {id : PoolId} {limits : ReassemblyLimits} {now deadline : Nat}
variable {division : Division} {pieces : List Packet}

/-- The last piece to arrive makes the payload whole, unless the pieces cannot
be put together. -/
theorem push_gathers_last {arrived : List Packet} {piece : Packet}
    {others : List Packet}
    (consistent : pools.Consistent origin .never
      (piece :: (reassembler.fragments ++ others)))
    (reading : reassembler.limits.timeout.after? now = some deadline)
    (gathers : reassembler.Gathers division deadline arrived)
    (confined : reassembler.Confined [division.datagram.toNat])
    (areAll : division.Pieces 0 pieces)
    (sameAll : pieces.Perm (arrived ++ [piece]))
    (own : piece.pool = reassembler.pool)
    (timely : arrived ≠ [] → now < deadline)
    (reached : Extent.inReach reassembler.limits.holdLimit
      (arrived.map Packet.extent) piece.extent = true) :
    (reassembler.push piece now pools).Satisfies
      (fun acceptance _ => division.Gathered (Reassembly.refusal?
        (origin.get reassembler.pool).config.chaining
        (origin.get reassembler.pool).layout.maxPayload pieces) acceptance)
      (fun _ _ => False) (fun _ => True) := by
  have isPiece : division.IsPiece piece.start piece :=
    (areAll.isPiece_of_mem piece
      (sameAll.mem_iff.mpr (by simp))).1
  obtain ⟨longer, judged, isAll, spelled⟩ :=
    gathers.judge_whole areAll sameAll (fun _ => rfl) timely reached
  have isWhole : (reassembler.judge piece now deadline).1 =
      .whole longer := by
    rw [judged]
  apply ((reassembler.push_decided piece now).and
    Outcome.Satisfies.exactly).mono ?_ (fun _ _ impossible => impossible.1)
      (fun _ _ => trivial)
  rintro ⟨answer, changed⟩ after ⟨⟨given, isGiven, isChanged, _⟩, pushed⟩
  cases reading.symm.trans isGiven
  rw [judged] at isChanged
  rcases Reassembler.push_joins consistent confined own reading
      isPiece.tagged (List.mem_singleton_self _) isWhole pushed with
    ⟨error, rfl, refused⟩ | ⟨packet, rfl, accepted, isPayload⟩
  · rw [isAll] at refused
    exact refused
  · rw [isAll] at accepted isPayload
    refine ⟨accepted, isPayload.trans spelled, ?_⟩
    dsimp only at isChanged ⊢
    rw [isChanged, Reassembler.without, Table.get?_erase, if_pos rfl]

/-- A piece in reach that others are still to follow is held. -/
theorem push_gathers_more {arrived left : List Packet} {piece : Packet}
    (consistent : pools.Consistent origin .never
      (piece :: (reassembler.fragments ++ left)))
    (reading : reassembler.limits.timeout.after? now = some deadline)
    (serves : reassembler.Serves id limits division.datagram.toNat)
    (gathers : reassembler.Gathers division deadline arrived)
    (areAll : division.Pieces 0 pieces)
    (sameAll : pieces.Perm (arrived ++ piece :: left))
    (part : piece.PartOf id division.datagram.toNat)
    (missing : left ≠ []) (timely : arrived ≠ [] → now < deadline)
    (reached : Extent.inReach reassembler.limits.holdLimit
      (arrived.map Packet.extent) piece.extent = true) :
    (reassembler.push piece now pools).Satisfies
      (fun acceptance after => acceptance.1 = .ok none ∧
        acceptance.2.Serves id limits division.datagram.toNat ∧
        acceptance.2.Gathers division deadline (arrived ++ [piece]) ∧
        after.Consistent origin .never (acceptance.2.fragments ++ left))
      (fun _ _ => False) (fun _ => True) := by
  obtain ⟨changed, waiting, _, _, gathersMore⟩ :=
    gathers.waits_of_reach areAll sameAll
      ((gathers.inReach_iff areAll sameAll).mp reached) missing
      (fun _ => rfl) timely
  have isDone : reassembler.push piece now pools =
      .done (.ok none, changed) pools :=
    (Reassembler.push_eq reading pools).trans (waiting _ pools)
  obtain ⟨consistentAfter, servesAfter, _⟩ :=
    (consistent.push_serves serves part).of_done isDone
  rw [isDone]
  exact ⟨rfl, servesAfter, gathersMore, consistentAfter⟩

/-- A refusal ends the collecting, whatever is left. -/
theorem collect_of_refused {fragment : Packet} {rest : List Packet}
    {error : BufferError}
    (refused : (reassembler.push fragment now pools).Satisfies
      (fun acceptance _ => acceptance.1 = .error error)
      (fun _ _ => False) (fun _ => True)) :
    (Load.collect now reassembler none (fragment :: rest) pools).Satisfies
      (fun result _ => result.1 = .error error) (fun _ _ => False)
      (fun _ => True) := by
  apply Outcome.Satisfies.bind refused
  rintro ⟨_, changed⟩ after rfl
  apply Outcome.Satisfies.bind (Packet.dropAll_returns rest _)
  intro _ dropped _
  apply Outcome.Satisfies.bind (Packet.dropAll_returns _ _)
  exact fun _ _ _ => Outcome.Satisfies.pure rfl

/-- Nothing is collected while the clock cannot show a deadline. -/
theorem collect_of_unread {fragment : Packet} {rest : List Packet}
    {whole : Option Packet}
    (unread : reassembler.limits.timeout.after? now = none) :
    (Load.collect now reassembler whole (fragment :: rest) pools).Satisfies
      (fun _ _ => False) (fun _ _ => False) (fun _ => True) := by
  have pushing : (reassembler.push fragment now pools).Satisfies
      (fun _ _ => False) (fun _ _ => False) (fun _ => True) := by
    unfold Reassembler.push
    rw [unread]
    exact Outcome.Satisfies.holding trivial fun _ _ _ => trivial
  exact Outcome.Satisfies.bind pushing fun _ _ impossible => impossible.elim

/-- What becomes of pieces of a payload that arrive at the same time can be
told from their extents. -/
theorem collect_gathers (areAll : division.Pieces 0 pieces)
    (reading : limits.timeout.after? now = some deadline)
    (parts : ∀ piece ∈ pieces, piece.PartOf id division.datagram.toNat) :
    ∀ {left arrived : List Packet} {reassembler : Reassembler}
      {pools : Pools},
      pools.Consistent origin .never
        (left ++ (reassembler.fragments ++ [])) →
      reassembler.Serves id limits division.datagram.toNat →
      reassembler.Gathers division deadline arrived →
      pieces.Perm (arrived ++ left) → left ≠ [] →
      (Load.collect now reassembler none left pools).Satisfies
        (fun result _ => division.Gathered
          (Extent.gatherRefusal? division.datagram limits
            (Reassembly.refusal? (origin.get id).config.chaining
              (origin.get id).layout.maxPayload pieces)
            (arrived.map Packet.extent) (left.map Packet.extent)) result)
        (fun _ _ => False) (fun _ => True)
  | [], _, _, _, _, _, _, _, nonempty => absurd rfl nonempty
  | piece :: rest, arrived, reassembler, pools, consistent, serves, gathers,
      sameAll, _ => by
      have isMember : piece ∈ pieces := sameAll.mem_iff.mpr (by simp)
      have isPiece := (areAll.isPiece_of_mem piece isMember).1
      have part := parts piece isMember
      have tardy := Duration.deadline_le_iff reading
      have isPool := serves.pool_eq
      have areLimits := serves.limits_eq
      have someArrived : arrived.map Packet.extent ≠ [] ↔ arrived ≠ [] := by
        rw [Ne, List.map_eq_nil_iff]
      rw [← areLimits] at reading
      by_cases isLate : arrived ≠ [] ∧ deadline ≤ now
      · rw [List.map_cons, Extent.gatherRefusal?,
          if_pos ⟨someArrived.mpr isLate.1, tardy.mp isLate.2⟩]
        apply (collect_of_refused (Reassembler.push_of_refused reading
          (gathers.judge_late isPiece isLate.1 isLate.2))).monoDone
        rintro ⟨_, _⟩ _ rfl
        rfl
      have timely : arrived ≠ [] → now < deadline :=
        fun begun => Nat.lt_of_not_le fun late => isLate ⟨begun, late⟩
      have inTime : ¬(arrived.map Packet.extent ≠ [] ∧
          limits.timeout.nanoseconds = 0) := by
        rw [someArrived, ← tardy]
        exact isLate
      rw [List.map_cons, Extent.gatherRefusal?, if_neg inTime]
      by_cases reached : Extent.inReach limits.holdLimit
          (arrived.map Packet.extent) piece.extent = true
      · have first : pools.Consistent origin .never
            (piece :: (reassembler.fragments ++ rest)) := by
          rw [List.append_nil] at consistent
          exact consistent.perm
            (List.Perm.cons piece List.perm_append_comm)
        rw [if_pos reached]
        rw [← areLimits] at reached
        cases rest with
        | nil =>
            rw [List.map_nil, if_pos rfl]
            have own := part.pool_eq.trans isPool.symm
            apply Outcome.Satisfies.bind (push_gathers_last first reading
              gathers serves.confined areAll sameAll own timely reached)
            rintro ⟨answer, changed⟩ after known
            rw [isPool] at known
            match answer with
            | .ok none => exact known.elim
            | .ok (some packet) => exact Outcome.Satisfies.pure known
            | .error error => exact Outcome.Satisfies.pure known
        | cons next others =>
            apply Outcome.Satisfies.bind (push_gathers_more first reading
              serves gathers areAll sameAll part (by simp) timely reached)
            rintro ⟨_, changed⟩ after
              ⟨rfl, servesAfter, gathersMore, consistentAfter⟩
            have inOrder : (changed.fragments ++ next :: others).Perm
                (next :: others ++ (changed.fragments ++ [])) := by
              rw [List.append_nil]
              exact List.perm_append_comm
            rw [List.append_cons] at sameAll
            have foretold := collect_gathers areAll (areLimits ▸ reading)
              parts (consistentAfter.perm inOrder) servesAfter gathersMore
              sameAll (by simp)
            rw [List.map_append, List.map_singleton] at foretold
            rw [if_neg (by simp)]
            exact foretold
      · rw [if_neg reached]
        rw [← areLimits, Bool.not_eq_true] at reached
        rw [← areLimits]
        apply (collect_of_refused (Reassembler.push_of_refused reading
          (gathers.judge_outOfReach areAll sameAll (fun _ => rfl) timely
            reached))).monoDone
        rintro ⟨_, _⟩ _ rfl
        rfl

end Pools.Consistent

end PooledPackets
