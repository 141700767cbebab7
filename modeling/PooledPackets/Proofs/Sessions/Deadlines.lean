import PooledPackets.Proofs.Reassembly.Timing
import PooledPackets.Proofs.Sessions.Journal

/-!
# Deadlines over a session

Beside a session a note is kept of when each incomplete datagram was begun,
that is, of the clock reading of the push that it came from. It does not look
at any deadline, but every deadline is the reading noted and the time allowed
by the pool. What becomes of a datagram later goes by that deadline, whatever
the readings were in between.
-/

namespace PooledPackets

/-- The clock readings at which incomplete datagrams were begun, by the number
of the reassembler and that of the datagram. -/
abbrev Births := Nat → Nat → Option Nat

/-- The clock reading with which a command hands a fragment to a
reassembler. -/
def Command.reading? (index : Nat) : Command → Option Nat
  | .push other _ now _ => if other = index then some now else none
  | _ => none

/-- The births after a command. That of a datagram stays as it is until the
datagram is not incomplete any more. -/
def Births.next (births : Births) (_ : Session) (command : Command)
    (_ : Reply) (after : Session) : Births :=
  fun index datagram =>
    if after.isPending index datagram then
      match births index datagram with
      | some born => some born
      | none => command.reading? index
    else none

namespace Session

variable {session after : Session} {command : Command} {reply : Reply}
variable {index datagram : Nat} {reassembler changed : Reassembler}

theorem isPending_iff : session.isPending index datagram = true ↔
    ∃ reassembler assembly,
      session.reassemblers.get? index = some reassembler ∧
      reassembler.pending.get? datagram = some assembly := by
  simp [isPending, Option.any_eq_true, Table.contains,
    Option.isSome_iff_exists]

/-! ## One step -/

/-- Where the deadline of a datagram comes from that is incomplete after a
command: it is the one from before, or the command began the datagram. -/
inductive Dated (session : Session) (command : Command)
    (index datagram : Nat) (limits : ReassemblyLimits) (deadline : Nat) :
    Prop
  | kept {reassembler : Reassembler} {assembly : Assembly}
      (found : session.reassemblers.get? index = some reassembler)
      (isHeld : reassembler.pending.get? datagram = some assembly)
      (sameLimits : reassembler.limits = limits)
      (sameDeadline : assembly.deadline = deadline)
  | begun {now : Nat}
      (absent : session.isPending index datagram = false)
      (isReading : command.reading? index = some now)
      (shown : limits.timeout.after? now = some deadline)

/-- What was incomplete before and is now is the same datagram still. -/
theorem dated_of_judged {source now slot : Nat} {fragment : Packet}
    {deadline : Nat} {answer : Except BufferError (Option Packet)}
    {longer : Assembly}
    (found : session.reassemblers.get? index = some reassembler)
    (reading : reassembler.limits.timeout.after? now = some deadline)
    (answered : (reassembler.judge fragment now deadline).1.Answered answer)
    (isHeld : (reassembler.judge fragment now deadline).2.pending.get?
      datagram = some longer) :
    session.Dated (.push index source now slot) index datagram
      reassembler.limits longer.deadline := by
  cases tagged : fragment.tag with
  | none =>
      simp only [Reassembler.judge, tagged] at isHeld
      exact .kept found isHeld rfl rfl
  | some tag =>
      have punctual := Reassembler.punctual tagged answered
      by_cases own : datagram = tag.datagram.toNat
      · subst own
        cases wasHeld : reassembler.pending.get? tag.datagram.toNat with
        | some assembly =>
            exact .kept found wasHeld rfl
              (punctual.kept assembly longer wasHeld isHeld).symm
        | none =>
            have isReading : Command.reading? index
                (.push index source now slot) = some now := by
              simp [Command.reading?]
            refine .begun ?_ isReading ?_
            · simp [isPending, found, Table.contains, wasHeld]
            · rw [punctual.first longer wasHeld isHeld]
              exact reading
      · rw [punctual.others datagram own] at isHeld
        split at isHeld
        · rw [Reassembler.get?_swept, Option.filter_eq_some_iff] at isHeld
          exact .kept found isHeld.1 rfl rfl
        · exact .kept found isHeld rfl rfl

theorem carryOut_dates :
    SessionStep.Satisfies (carryOut command) session
      (fun _ after => ∀ index changed datagram longer,
        after.reassemblers.get? index = some changed →
        changed.pending.get? datagram = some longer →
          session.Dated command index datagram changed.limits
            longer.deadline) (fun _ => True) := by
  rcases command.push_or_not with ⟨at', source, now, slot, rfl⟩ | noPush
  · apply SessionStep.Satisfies.monoDone push_ends
    intro reply after ending index changed datagram longer isThere isHeld
    cases ending with
    | idle same _ =>
        rw [same] at isThere
        exact .kept isThere isHeld rfl rfl
    | @answered reassembler judged fragment answer _ _ found _ pushed same =>
        rw [same, Table.get?_insert] at isThere
        split at isThere
        · rename_i isIndex
          cases isThere
          cases isIndex
          obtain ⟨deadline, reading, isJudged, answered⟩ :=
            (reassembler.push_answered fragment now).of_done pushed
          dsimp only at isJudged answered
          rw [isJudged] at isHeld ⊢
          rw [(reassembler.judge_keeps fragment now deadline).2]
          exact dated_of_judged found reading answered isHeld
        · exact .kept isThere isHeld rfl rfl
  · apply (carryOut_settles noPush).monoDone
    intro _ after settled index changed datagram longer isThere isHeld
    rcases settled index changed isThere with
      ⟨pool, rfl⟩ | ⟨previous, wasThere, letsGo⟩
    · simp at isHeld
    · exact .kept wasThere (letsGo.get?_eq isHeld) letsGo.keeps.2.symm rfl

theorem step_dates :
    SessionStep.Satisfies (fun session => session.step command) session
      (fun _ after => ∀ index changed datagram longer,
        after.reassemblers.get? index = some changed →
        changed.pending.get? datagram = some longer →
          session.Dated command index datagram changed.limits
            longer.deadline) (fun _ => True) := by
  apply step_keeps ?_ carryOut_dates
  intro index changed datagram longer isThere isHeld
  exact .kept isThere isHeld rfl rfl

end Session

/-! ## Whole runs -/

/-- The deadline of every incomplete datagram is the reading at which it was
begun and the time allowed. Of other datagrams no reading is noted. -/
structure Births.Date (births : Births) (session : Session) : Prop where
  deadline : ∀ index reassembler datagram assembly,
    session.reassemblers.get? index = some reassembler →
    reassembler.pending.get? datagram = some assembly →
    ∃ born, births index datagram = some born ∧
      reassembler.limits.timeout.after? born = some assembly.deadline
  absent : ∀ index datagram, session.isPending index datagram = false →
    births index datagram = none

namespace Births.Date

variable {births : Births} {session after : Session}
variable {command : Command} {reply : Reply}

theorem next (dates : births.Date session)
    (stepped : session.step command = .ok (reply, after)) :
    (births.next session command reply after).Date after := by
  have dated := Session.step_dates.of_ok stepped
  constructor
  · intro index changed datagram longer found isHeld
    have pending : after.isPending index datagram = true :=
      Session.isPending_iff.mpr ⟨changed, longer, found, isHeld⟩
    simp only [Births.next, pending, if_true]
    cases dated index changed datagram longer found isHeld with
    | kept wasThere wasHeld sameLimits sameDeadline =>
        obtain ⟨born, isBorn, shown⟩ :=
          dates.deadline index _ datagram _ wasThere wasHeld
        rw [sameLimits, sameDeadline] at shown
        exact ⟨born, by simp [isBorn], shown⟩
    | @begun now absent isReading shown =>
        have unborn := dates.absent index datagram absent
        exact ⟨now, by simp [unborn, isReading], shown⟩
  · intro index datagram notPending
    simp [Births.next, notPending]

end Births.Date

namespace Session

variable {session after : Session} {index : Nat} {births : Births}
variable {reassembler : Reassembler}

/-- Carries out commands and notes when incomplete datagrams were begun. -/
def runTiming (session : Session) (births : Births) :
    List Command → Except Stop (Session × Births) :=
  session.runBeside Births.next births

/-- A reassembler of a session goes by the clock: each deadline is the reading
of the push that began the datagram and the time allowed, and stays so; every
push that takes no packet which is lent is answered accordingly, unless the
clock cannot show how long its datagram would be waited for; and a look at the
clock takes exactly the datagrams that are late, by ascending number, and leaves
none for a second look at the same time. -/
structure KeepsTime (session : Session) (births : Births) (index : Nat)
    (reassembler : Reassembler) : Prop where
  deadline : ∀ datagram assembly,
    reassembler.pending.get? datagram = some assembly →
    ∃ born, births index datagram = some born ∧
      reassembler.limits.timeout.after? born = some assembly.deadline
  steady : ∀ command reply after changed datagram assembly longer,
    session.step command = .ok (reply, after) →
    after.reassemblers.get? index = some changed →
    reassembler.pending.get? datagram = some assembly →
    changed.pending.get? datagram = some longer →
      longer.deadline = assembly.deadline
  push : ∀ source now slot fragment tag,
    session.lends (.push index source now slot) = false →
    session.packets.get? source = some fragment →
    fragment.tag = some tag →
    match reassembler.limits.timeout.after? now with
    | none => session.step (.push index source now slot) =
        .error .outOfRange
    | some deadline => ∃ answer changed after,
        session.step (.push index source now slot) =
          .ok (.pushed (some tag.datagram) answer, after) ∧
        after.reassemblers = session.reassemblers.insert index changed ∧
        reassembler.Punctual tag now deadline answer changed
  untagged : ∀ source now slot fragment reply after,
    session.lends (.push index source now slot) = false →
    session.packets.get? source = some fragment →
    fragment.tag = none →
    session.step (.push index source now slot) = .ok (reply, after) →
      after.reassemblers = session.reassemblers.insert index reassembler
  expire : ∀ now, ∃ late changed after last,
    session.step (.expire index now) = .ok (.expired late, after) ∧
    late.Pairwise (fun earlier later => earlier < later) ∧
    (∀ datagram, datagram ∈ late ↔ ∃ assembly,
      reassembler.pending.get? datagram = some assembly ∧
      assembly.deadline ≤ now) ∧
    after.reassemblers = session.reassemblers.insert index changed ∧
    (∀ datagram, changed.pending.get? datagram =
      (reassembler.pending.get? datagram).filter
        fun assembly => decide (now < assembly.deadline)) ∧
    (∀ next, changed.nextDeadline? = some next → now < next) ∧
    after.step (.expire index now) = .ok (.expired [], last)

/-- A datagram that is incomplete before and after a command has one
deadline. -/
theorem deadline_steady {command : Command} {reply : Reply}
    {changed : Reassembler} {datagram : Nat} {assembly longer : Assembly}
    (found : session.reassemblers.get? index = some reassembler)
    (stepped : session.step command = .ok (reply, after))
    (isThere : after.reassemblers.get? index = some changed)
    (wasHeld : reassembler.pending.get? datagram = some assembly)
    (isHeld : changed.pending.get? datagram = some longer) :
    longer.deadline = assembly.deadline := by
  cases step_dates.of_ok stepped index changed datagram longer isThere
    isHeld with
  | kept wasThere alsoHeld _ sameDeadline =>
      rw [found] at wasThere
      cases wasThere
      rw [wasHeld] at alsoHeld
      cases alsoHeld
      exact sameDeadline.symm
  | begun absent _ _ =>
      have pending := isPending_iff.mpr ⟨_, _, found, wasHeld⟩
      simp [pending] at absent

theorem push_punctual {origin : Pools} {source now slot deadline : Nat}
    {fragment : Packet} {tag : FragmentTag}
    (owns : session.Owns origin .never [])
    (isFree : session.lends (.push index source now slot) = false)
    (found : session.reassemblers.get? index = some reassembler)
    (isFragment : session.packets.get? source = some fragment)
    (tagged : fragment.tag = some tag)
    (reading : reassembler.limits.timeout.after? now = some deadline) :
    ∃ answer changed after,
      session.step (.push index source now slot) =
        .ok (.pushed (some tag.datagram) answer, after) ∧
      after.reassemblers = session.reassemblers.insert index changed ∧
      reassembler.Punctual tag now deadline answer changed := by
  obtain ⟨answer, changed, after, stepped, sameOthers, rfl, answered⟩ :=
    push_judged owns isFree found isFragment reading
  rw [tagged] at stepped
  exact ⟨answer, _, after, stepped, sameOthers,
    Reassembler.punctual tagged answered⟩

/-- A packet that is no fragment changes nothing about what is waited for. -/
theorem push_untagged {source now slot : Nat} {fragment : Packet}
    {reply : Reply}
    (isFree : session.lends (.push index source now slot) = false)
    (found : session.reassemblers.get? index = some reassembler)
    (isFragment : session.packets.get? source = some fragment)
    (untagged : fragment.tag = none)
    (stepped : session.step (.push index source now slot) =
      .ok (reply, after)) :
    after.reassemblers = session.reassemblers.insert index reassembler := by
  have effect := push_steps.of_ok stepped
  cases effect with
  | idle absent _ => simp [found, isFragment, isFree] at absent
  | @answered _ changed _ answer _ last wasThere wasFragment pushed =>
      rw [found] at wasThere
      rw [isFragment] at wasFragment
      cases wasThere
      cases wasFragment
      obtain ⟨deadline, _, isJudged, _⟩ :=
        (reassembler.push_answered fragment now).of_done pushed
      simp only [Reassembler.judge, untagged] at isJudged
      rw [← isJudged]
      exact reassemblers_receiving slot answer

/-- A look at the clock is answered with what is late, and the rest stays. -/
theorem expire_swept {origin : Pools}
    (owns : session.Owns origin .never [])
    (found : session.reassemblers.get? index = some reassembler)
    (now : Nat) :
    ∃ after, session.step (.expire index now) =
        .ok (.expired (reassembler.late now), after) ∧
      after.reassemblers =
        session.reassemblers.insert index (reassembler.swept now) ∧
      after.Owns origin .never [] := by
  obtain ⟨⟨reply, after⟩, stepped⟩ := expire_answers owns found now
  have isFree : session.lends (.expire index now) = false :=
    session.lends_of_still fun _ => rfl
  rw [step_of_free isFree] at stepped ⊢
  have ownsAfter : after.Owns origin .never [] :=
    (carryOut_satisfies owns (by simp [Command.exchanges])).of_ok stepped
  rcases (expire_leaves index now).of_ok stepped with
    ⟨absent, _⟩ | ⟨other, pools, isThere, rfl, rfl⟩
  · simp [found] at absent
  · rw [found] at isThere
    cases isThere
    exact ⟨_, stepped, rfl, ownsAfter⟩

/-- Whatever was pushed, expired and cleared before, at whatever readings of
the clock, a reassembler goes by the clock. -/
theorem runTiming_keepsTime {configs : List Config}
    {commands : List Command} (few : configs.length ≤ UInt32.size)
    (faithful : ∀ command ∈ commands, command.exchanges = false)
    (ran : (start (Pools.ofConfigs configs)).runTiming (fun _ _ => none)
      commands = .ok (session, births))
    (found : session.reassemblers.get? index = some reassembler) :
    session.KeepsTime births index reassembler := by
  have unborn : Births.Date (fun _ _ => none)
      (start (Pools.ofConfigs configs)) := by
    constructor
    · intro other kept datagram assembly isThere
      simp [start] at isThere
    · exact fun _ _ _ => rfl
  obtain ⟨dates, ranAll⟩ :=
    runBeside_keeps (fun dates stepped => dates.next stepped) unborn ran
  have reached : session.Reached configs := ⟨few, commands, faithful, ranAll⟩
  have owns := reached.owns
  constructor
  · intro datagram assembly isHeld
    exact dates.deadline index reassembler datagram assembly found isHeld
  · intro _ _ _ _ _ _ _ stepped isThere wasHeld isHeld
    exact deadline_steady found stepped isThere wasHeld isHeld
  · intro source now slot fragment tag isFree isFragment tagged
    cases reading : reassembler.limits.timeout.after? now with
    | none => exact push_outOfRange owns isFree found isFragment reading
    | some deadline =>
        exact push_punctual owns isFree found isFragment tagged reading
  · intro _ _ _ _ _ _ isFree isFragment untagged stepped
    exact push_untagged isFree found isFragment untagged stepped
  · intro now
    obtain ⟨after, stepped, same, ownsAfter⟩ := expire_swept owns found now
    have foundAfter : after.reassemblers.get? index =
        some (reassembler.swept now) := by
      simp [same]
    obtain ⟨last, again, _, _⟩ := expire_swept ownsAfter foundAfter now
    rw [Reassembler.late_swept] at again
    exact ⟨reassembler.late now, reassembler.swept now, after, last, stepped,
      reassembler.late_ascending now, fun _ => Reassembler.mem_late_iff,
      same, reassembler.get?_swept now,
      reassembler.nextDeadline?_swept now, again⟩

/-- A datagram that was begun, discarded when it was late, and begun again at an
earlier reading of the clock has the deadline that goes with the later push. -/
theorem runTiming_keepsTime_of_two :
    let config : Config :=
      { segmentCapacity := 8, segmentCount := 4, headerReserve := 0,
        reassembly := { maxDatagrams := 1, timeout := ⟨10⟩ } }
    let commands : List Command :=
      [.newPool, .newReassembler 0 0 [],
        .receive 0 (.made ⟨7, 0, true⟩ [1, 2]) 0,
        .receive 0 (.made ⟨7, 2, false⟩ [3]) 1,
        .receive 0 (.made ⟨7, 0, true⟩ [1, 2]) 2,
        .push 0 0 20 9, .push 0 1 30 9, .push 0 2 5 9]
    ∃ session births reassembler,
      (start (Pools.ofConfigs [config])).runTiming (fun _ _ => none)
        commands = .ok (session, births) ∧
      session.reassemblers.get? 0 = some reassembler ∧
      births 0 7 = some 5 ∧ reassembler.nextDeadline? = some 15 ∧
      session.KeepsTime births 0 reassembler := by
  intro config commands
  have notes : (do
      let (session, births) ← ((start (Pools.ofConfigs [config])).runTiming
        (fun _ _ => none) commands).toOption
      let reassembler ← session.reassemblers.get? 0
      pure (births 0 7, reassembler.nextDeadline?)) =
        some (some 5, some 15) := by
    decide +kernel
  obtain ⟨⟨session, births⟩, ran, notes⟩ := Option.bind_eq_some_iff.mp notes
  obtain ⟨reassembler, found, isNoted⟩ := Option.bind_eq_some_iff.mp notes
  rw [toOption_eq_some_iff] at ran
  simp only [Option.pure_def, Option.some.injEq, Prod.mk.injEq] at isNoted
  exact ⟨session, births, reassembler, ran, found, isNoted.1, isNoted.2,
    runTiming_keepsTime (by decide) (by decide) ran found⟩

end Session

end PooledPackets
