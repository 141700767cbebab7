import PooledPackets.Proofs.Reassembly.Projection
import PooledPackets.Proofs.Reassembly.Scanning
import PooledPackets.Proofs.Reassembly.Tiling
import PooledPackets.Proofs.Sessions.Failures

/-!
# What counts as an overlap

A fragment is refused as overlapping if it shares a byte with one that is held
or repeats it. It is also refused if it has no payload but stands at a byte
that is held, or claims a byte at which one without payload stands, although
nothing is claimed twice then.
-/

namespace PooledPackets

namespace Packet

variable {one other : Packet} {position : Nat}

/-- Some byte of the datagram is in both fragments. -/
def Shares (one other : Packet) : Prop :=
  ∃ position, one.Covers position ∧ other.Covers position

/-- One fragment has the place and the length of the other. -/
def Duplicates (one other : Packet) : Prop :=
  one.start = other.start ∧ one.length = other.length

/-- A fragment without payload stands at a byte of another one. -/
def StandsIn (one other : Packet) : Prop :=
  one.length = 0 ∧ other.Covers one.start

theorem length_pos_of_covers (covers : one.Covers position) :
    0 < one.length := by
  obtain ⟨begins, ends⟩ := covers
  rw [stop] at ends
  omega

theorem shares_iff :
    one.Shares other ↔
      0 < one.length ∧ 0 < other.length ∧
        one.start < other.stop ∧ other.start < one.stop := by
  constructor
  · rintro ⟨position, inOne, inOther⟩
    refine ⟨length_pos_of_covers inOne, length_pos_of_covers inOther, ?_, ?_⟩
    · exact Nat.lt_of_le_of_lt inOne.1 inOther.2
    · exact Nat.lt_of_le_of_lt inOther.1 inOne.2
  · rintro ⟨oneFilled, otherFilled, oneFirst, otherFirst⟩
    -- The later of the two starts is in both.
    refine ⟨max one.start other.start, ⟨?_, ?_⟩, ?_, ?_⟩
    · exact Nat.le_max_left _ _
    · simp only [stop] at otherFirst ⊢
      omega
    · exact Nat.le_max_right _ _
    · simp only [stop] at oneFirst ⊢
      omega

end Packet

namespace Assembly

variable {assembly : Assembly} {tag : FragmentTag} {fragment : Packet}
variable {entry : Nat × Packet} {datagram holdLimit : Nat}

/-- The question that is asked of every fragment held, in terms of bytes. -/
theorem collides_iff (tagged : fragment.tag = some tag)
    (startsAt : entry.2.start = entry.1) :
    Collides tag.offset (tag.offset + fragment.length) entry ↔
      entry.2.Shares fragment ∨ entry.2.Duplicates fragment ∨
        entry.2.StandsIn fragment ∨ fragment.StandsIn entry.2 := by
  have begins : fragment.start = tag.offset := by
    rw [Packet.start, tagged, Option.elim_some]
  rw [Packet.shares_iff]
  simp only [Collides, stopOf, Packet.Duplicates, Packet.StandsIn,
    Packet.Covers, Packet.stop, begins, startsAt]
  by_cases isEmpty : entry.2.length = 0
  · by_cases newEmpty : fragment.length = 0
    · omega
    · omega
  · by_cases newEmpty : fragment.length = 0
    · omega
    · omega

theorem insert_overlap_iff {number : UInt32} {offset length : Nat} :
    assembly.insert tag fragment holdLimit =
        .error (.overlap number offset length) ↔
      (number = tag.datagram ∧ offset = tag.offset ∧
        length = fragment.length) ∧
      assembly.claims tag.offset (tag.offset + fragment.length) = true := by
  cases claims : assembly.claims tag.offset (tag.offset + fragment.length) with
  | true =>
      simp only [insert, claims, if_true, Except.error.injEq,
        BufferError.overlap.injEq, and_true, eq_comm]
  | false =>
      simp only [insert, claims, Bool.false_eq_true, if_false, and_false,
        iff_false]
      split
      · simp
      · split
        · simp
        · simp

theorem Accounted.claims_iff
    (accounted : assembly.Accounted datagram holdLimit)
    (tagged : fragment.tag = some tag) :
    assembly.claims tag.offset (tag.offset + fragment.length) = true ↔
      ∃ part ∈ assembly.fragments, part.Shares fragment ∨
        part.Duplicates fragment ∨ part.StandsIn fragment ∨
          fragment.StandsIn part := by
  rw [claims_eq_decide accounted.apart, decide_eq_true_iff]
  constructor
  · rintro ⟨entry, member, collides⟩
    exact ⟨entry.2, List.mem_map_of_mem member,
      (collides_iff tagged (accounted.start_eq member)).mp collides⟩
  · rintro ⟨part, isHeld, disputes⟩
    obtain ⟨entry, member, rfl⟩ := List.mem_map.mp isHeld
    exact ⟨entry, member,
      (collides_iff tagged (accounted.start_eq member)).mpr disputes⟩

end Assembly

namespace Reassembler

variable {reassembler : Reassembler} {fragment : Packet} {tag : FragmentTag}
variable {assembly : Assembly} {now deadline : Nat}
variable {answer : Except BufferError (Option Packet)}

/-- Of all that can become of a fragment of a datagram that is waited for, only
a refused insertion is answered with an overlap. -/
theorem answer_overlap_iff (tagged : fragment.tag = some tag)
    (isPending : reassembler.pending.get? tag.datagram.toNat = some assembly)
    (inTime : now < assembly.deadline)
    (answered : (reassembler.judge fragment now deadline).1.Answered answer)
    {number : UInt32} {offset length : Nat} :
    answer = .error (.overlap number offset length) ↔
      assembly.insert tag fragment reassembler.limits.holdLimit =
        .error (.overlap number offset length) := by
  have room : reassembler.HasRoom tag.datagram.toNat :=
    Or.inl (by rw [Table.contains, isPending, Option.isSome_some])
  rw [judge_of_room tagged room, isPending] at answered
  dsimp only at answered
  rw [if_neg (Nat.not_le_of_lt inTime), judgeAdded] at answered
  obtain ⟨fits, forPayload⟩ := answered
  cases inserting :
      assembly.insert tag fragment reassembler.limits.holdLimit with
  | error error =>
      rw [inserting] at fits
      rw [show answer = .error error from fits]
      simp
  | ok longer =>
      rw [inserting] at fits forPayload
      dsimp only at fits forPayload
      refine ⟨fun overlaps => ?_, fun impossible => by cases impossible⟩
      subst overlaps
      split at fits
      · rename_i complete
        rw [if_pos complete] at forPayload
        have ofPayload := forPayload longer _ rfl rfl
        cases ofPayload
      · cases fits

end Reassembler

namespace Session

variable {configs : List Config} {session : Session}
variable {reassembler : Reassembler} {fragment : Packet} {tag : FragmentTag}
variable {assembly : Assembly} {index slot now deadline : Nat}

/-- A fragment of a datagram that is waited for, and is not late, is answered
with an overlap exactly if it shares a byte with a fragment that is held, has
its place and length, or if one of the two has no payload and stands at a byte
of the other. Where all of them have payload, exactly if some byte is
shared. -/
theorem Reached.push_overlap_iff (reached : session.Reached configs)
    (found : session.reassemblers.get? index = some reassembler)
    (isFragment : session.packets.get? slot = some fragment)
    (tagged : fragment.tag = some tag)
    (isPending : reassembler.pending.get? tag.datagram.toNat = some assembly)
    (inTime : now < assembly.deadline)
    (reading : reassembler.limits.timeout.after? now = some deadline)
    (target : Nat)
    (isFree : session.lends (.push index slot now target) = false) :
    ∃ answer after,
      session.step (.push index slot now target) =
        .ok (.pushed (some tag.datagram) answer, after) ∧
      after.Reached configs ∧
      (∀ number offset length,
        answer = .error (.overlap number offset length) ↔
          (number = tag.datagram ∧ offset = tag.offset ∧
            length = fragment.length) ∧
          ∃ part ∈ assembly.fragments, part.Shares fragment ∨
            part.Duplicates fragment ∨ part.StandsIn fragment ∨
              fragment.StandsIn part) ∧
      ((∀ part ∈ fragment :: assembly.fragments, 0 < part.length) →
        ((∃ number offset length,
            answer = .error (.overlap number offset length)) ↔
          ∃ part ∈ assembly.fragments,
            part.Shares fragment ∨ part.Duplicates fragment)) := by
  obtain ⟨answer, changed, after, stepped, _, _, answered⟩ :=
    push_judged reached.owns isFree found isFragment reading
  have accounted := ((reached.accounted index reassembler found).2.pending
    tag.datagram.toNat assembly isPending).toAccounted
  have answerIff (number : UInt32) (offset length : Nat) :
      answer = .error (.overlap number offset length) ↔ _ :=
    (Reassembler.answer_overlap_iff tagged isPending inTime answered).trans
      (Assembly.insert_overlap_iff.trans
        (and_congr_right fun _ => accounted.claims_iff tagged))
  rw [tagged] at stepped
  refine ⟨answer, after, stepped, reached.step rfl stepped, answerIff, ?_⟩
  intro filled
  have newFilled := filled fragment (List.mem_cons_self ..)
  constructor
  · rintro ⟨number, offset, length, overlaps⟩
    obtain ⟨_, part, isHeld, disputes⟩ := (answerIff _ _ _).mp overlaps
    have partFilled := filled part (.tail _ isHeld)
    refine ⟨part, isHeld, ?_⟩
    rcases disputes with shares | same | stands | stands
    · exact Or.inl shares
    · exact Or.inr same
    · exact absurd stands.1 (Nat.ne_of_gt partFilled)
    · exact absurd stands.1 (Nat.ne_of_gt newFilled)
  · rintro ⟨part, isHeld, shares | same⟩
    · exact ⟨_, _, _, (answerIff _ _ _).mpr
        ⟨⟨rfl, rfl, rfl⟩, part, isHeld, Or.inl shares⟩⟩
    · exact ⟨_, _, _, (answerIff _ _ _).mpr
        ⟨⟨rfl, rfl, rfl⟩, part, isHeld, Or.inr (Or.inl same)⟩⟩

/-- Behind four bytes that are held, a fragment begins one byte too early. -/
theorem push_overlap_iff_of_two :
    let config : Config :=
      { segmentCapacity := 4, segmentCount := 3, headerReserve := 0 }
    ∃ (session after : Session) (reassembler : Reassembler)
      (fragment : Packet) (assembly : Assembly) (deadline : Nat),
      session.Reached [config] ∧
      session.reassemblers.get? 0 = some reassembler ∧
      session.packets.get? 1 = some fragment ∧
      fragment.tag = some ⟨7, 3, true⟩ ∧
      reassembler.pending.get? 7 = some assembly ∧
      5 < assembly.deadline ∧
      reassembler.limits.timeout.after? 5 = some deadline ∧
      (∃ part ∈ assembly.fragments, part.Shares fragment) ∧
      session.step (.push 0 1 5 9) =
        .ok (.pushed (some 7) (.error (.overlap 7 3 2)), after) := by
  intro config
  have plays : (do
      let session ← ((start (Pools.ofConfigs [config])).runAll
        [.newPool, .newReassembler 0 0 [],
          .receive 0 (.made ⟨7, 0, true⟩ [1, 2, 3, 4]) 0,
          .push 0 0 3 0, .receive 0 (.made ⟨7, 3, true⟩ [4, 5]) 1]).toOption
      let reassembler ← session.reassemblers.get? 0
      let fragment ← session.packets.get? 1
      let deadline ← reassembler.limits.timeout.after? 5
      let assembly ← reassembler.pending.get? 7
      pure (decide (session.lends (.push 0 1 5 9) = false ∧
        fragment.tag = some ⟨7, 3, true⟩ ∧
        5 < assembly.deadline ∧ fragment.length = 2 ∧
        ∃ part ∈ assembly.fragments,
          0 < part.length ∧ 0 < fragment.length ∧
            part.start < fragment.stop ∧ fragment.start < part.stop))) =
      some true := by
    decide +kernel
  obtain ⟨session, ran, plays⟩ := Option.bind_eq_some_iff.mp plays
  obtain ⟨reassembler, found, plays⟩ := Option.bind_eq_some_iff.mp plays
  obtain ⟨fragment, isFragment, plays⟩ := Option.bind_eq_some_iff.mp plays
  obtain ⟨deadline, reading, plays⟩ := Option.bind_eq_some_iff.mp plays
  obtain ⟨assembly, isPending, plays⟩ := Option.bind_eq_some_iff.mp plays
  rw [toOption_eq_some_iff] at ran
  obtain ⟨isFree, tagged, inTime, size, part, isHeld, meets⟩ :=
    of_decide_eq_true (Option.some.inj plays)
  have shares : part.Shares fragment := Packet.shares_iff.mpr meets
  have reached : session.Reached [config] := ⟨by decide, _, by decide, ran⟩
  obtain ⟨answer, after, stepped, _, overlaps, _⟩ :=
    reached.push_overlap_iff found isFragment tagged isPending inTime reading
      9 isFree
  have isOverlap := (overlaps 7 3 2).mpr
    ⟨⟨rfl, rfl, size.symm⟩, part, isHeld, Or.inl shares⟩
  rw [isOverlap] at stepped
  exact ⟨session, after, reassembler, fragment, assembly, deadline, reached,
    found, isFragment, tagged, isPending, inTime, reading,
    ⟨part, isHeld, shares⟩, stepped⟩

/-- A fragment without payload that stands among four bytes that are held is
refused as overlapping. It shares no byte with them and repeats nothing. -/
theorem push_overlap_of_empty :
    let config : Config :=
      { segmentCapacity := 4, segmentCount := 3, headerReserve := 0 }
    ∃ (session after : Session) (reassembler : Reassembler)
      (fragment : Packet) (assembly : Assembly),
      session.Reached [config] ∧
      session.reassemblers.get? 0 = some reassembler ∧
      session.packets.get? 1 = some fragment ∧
      fragment.tag = some ⟨7, 2, true⟩ ∧
      reassembler.pending.get? 7 = some assembly ∧
      5 < assembly.deadline ∧
      (∀ part ∈ assembly.fragments,
        ¬part.Shares fragment ∧ ¬part.Duplicates fragment) ∧
      session.step (.push 0 1 5 9) =
        .ok (.pushed (some 7) (.error (.overlap 7 2 0)), after) := by
  intro config
  have plays : (do
      let session ← ((start (Pools.ofConfigs [config])).runAll
        [.newPool, .newReassembler 0 0 [],
          .receive 0 (.made ⟨7, 0, true⟩ [1, 2, 3, 4]) 0,
          .push 0 0 3 0, .receive 0 (.made ⟨7, 2, true⟩ []) 1]).toOption
      let reassembler ← session.reassemblers.get? 0
      let fragment ← session.packets.get? 1
      let assembly ← reassembler.pending.get? 7
      let stepped ← (session.step (.push 0 1 5 9)).toOption
      let refusal ← stepped.1.refusal?
      pure (decide (refusal = (some 7, BufferError.overlap 7 2 0) ∧
        fragment.tag = some ⟨7, 2, true⟩ ∧ 5 < assembly.deadline ∧
        fragment.length = 0 ∧
        ∀ part ∈ assembly.fragments, part.start ≠ fragment.start))) =
      some true := by
    decide +kernel
  obtain ⟨session, ran, plays⟩ := Option.bind_eq_some_iff.mp plays
  obtain ⟨reassembler, found, plays⟩ := Option.bind_eq_some_iff.mp plays
  obtain ⟨fragment, isFragment, plays⟩ := Option.bind_eq_some_iff.mp plays
  obtain ⟨assembly, isPending, plays⟩ := Option.bind_eq_some_iff.mp plays
  obtain ⟨⟨reply, after⟩, stepped, plays⟩ := Option.bind_eq_some_iff.mp plays
  obtain ⟨refusal, isRefusal, plays⟩ := Option.bind_eq_some_iff.mp plays
  rw [toOption_eq_some_iff] at ran stepped
  obtain ⟨rfl, tagged, inTime, isEmpty, elsewhere⟩ :=
    of_decide_eq_true (Option.some.inj plays)
  obtain rfl : reply = .pushed (some 7) (.error (.overlap 7 2 0)) :=
    Reply.refusal?_eq_some_iff.mp isRefusal
  refine ⟨session, after, reassembler, fragment, assembly,
    ⟨by decide, _, by decide, ran⟩, found, isFragment, tagged, isPending,
    inTime, ?_, stepped⟩
  intro part isHeld
  constructor
  · rintro ⟨position, _, inNew⟩
    exact absurd isEmpty (Nat.ne_of_gt (Packet.length_pos_of_covers inNew))
  · exact fun same => elsewhere part isHeld same.1

end Session

end PooledPackets
