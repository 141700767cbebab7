import PooledPackets.Proofs.Reassembly.Representation
import PooledPackets.Proofs.Sessions.Reassemblers

/-!
# Accounts over a session

In a session that never exchanged segments every live packet is sound, every
reassembler has the limits of its pool and keeps the accounts of its
datagrams.
-/

namespace PooledPackets

namespace Reassembler

variable {reassembler changed : Reassembler}

theorem LetsGo.keeps (letsGo : reassembler.LetsGo changed) :
    changed.pool = reassembler.pool ∧
      changed.limits = reassembler.limits := by
  cases letsGo with
  | nothing => exact ⟨rfl, rfl⟩
  | late now => exact ⟨rfl, rfl⟩
  | everything => exact ⟨rfl, rfl⟩

theorem Accounted.letGo (accounted : reassembler.Accounted)
    (letsGo : reassembler.LetsGo changed) : changed.Accounted := by
  cases letsGo with
  | nothing => exact accounted
  | late now => exact accounted.swept now
  | everything => exact .cleared reassembler

theorem LetsGo.get?_eq (letsGo : reassembler.LetsGo changed)
    {datagram : Nat} {assembly : Assembly}
    (found : changed.pending.get? datagram = some assembly) :
    reassembler.pending.get? datagram = some assembly := by
  cases letsGo with
  | nothing => exact found
  | late now =>
      rw [Table.get?_eq_some_iff] at found ⊢
      exact (List.mem_filter.mp found).1
  | everything => simp [cleared] at found

end Reassembler

namespace Session

variable {session : Session} {origin : Pools} {exchange : Exchange}

/-! ## Calls that are answered -/

variable {reassembler : Reassembler} {fragment : Packet}
variable {index source now slot deadline : Nat}

/-- A fragment gets its answer if the clock can show its deadline. -/
theorem push_answers (owns : session.Owns origin .never [])
    (isFree : session.lends (.push index source now slot) = false)
    (found : session.reassemblers.get? index = some reassembler)
    (isFragment : session.packets.get? source = some fragment)
    (reading : reassembler.limits.timeout.after? now = some deadline) :
    ∃ result, session.step (.push index source now slot) = .ok result := by
  have handed := owns.handed found isFragment
  have ownsVacated : (session.vacated source).Owns origin .never
      [fragment] := owns.perm (live_perm_of_packet isFragment)
  have answering : (reassembler.pushUntil (fun _ => []) fragment now
      deadline session.pools).Satisfies _ _ _ :=
    handed.pushUntil_satisfies (fun _ _ => by simp)
  rw [← Reassembler.push_eq reading] at answering
  have contract : SessionStep.Satisfies (push index source now slot) session
      (fun _ _ => True) Exchange.never.MayStop := by
    apply SessionStep.Satisfies.get
    rw [found]
    apply SessionStep.Satisfies.get
    rw [isFragment]
    refine SessionStep.Satisfies.changing (SessionStep.Satisfies.bind
      (perform_stops ownsVacated.keptSources answering) ?_)
    intro result _ ending
    obtain ⟨pools, rfl, known⟩ := ending
    match result with
    | .error error => exact known.elim
    | .ok (answer, changed) =>
        have ownsDelivered : (((session.vacated source).withPools
            pools).attended index changed).Owns origin .never
              (Reassembler.delivered answer) :=
          known.2.perm
            ((live_attended_perm _ index changed).symm.append_left _)
        apply SessionStep.Satisfies.changing
        match answer with
        | .error error => trivial
        | .ok none => trivial
        | .ok (some packet) =>
            exact SessionStep.Satisfies.giving ((keep_stops
              ownsDelivered).monoDone fun _ _ _ => trivial)
  rw [step_of_free isFree]
  exact contract.exists_ok

/-- The answer is the one that the reassembler decides on, and it is left as
decided. -/
theorem push_judged (owns : session.Owns origin .never [])
    (isFree : session.lends (.push index source now slot) = false)
    (found : session.reassemblers.get? index = some reassembler)
    (isFragment : session.packets.get? source = some fragment)
    (reading : reassembler.limits.timeout.after? now = some deadline) :
    ∃ answer changed after,
      session.step (.push index source now slot) =
        .ok (.pushed (fragment.tag.map FragmentTag.datagram) answer,
          after) ∧
      after.reassemblers = session.reassemblers.insert index changed ∧
      changed = (reassembler.judge fragment now deadline).2 ∧
      (reassembler.judge fragment now deadline).1.Answered answer := by
  obtain ⟨⟨reply, after⟩, stepped⟩ :
      ∃ result, session.step (.push index source now slot) = .ok result :=
    push_answers owns isFree found isFragment reading
  have effect := push_steps.of_ok stepped
  cases effect with
  | idle absent _ => simp [found, isFragment, isFree] at absent
  | @answered _ changed _ answer _ last wasThere wasFragment pushed =>
      rw [found] at wasThere
      rw [isFragment] at wasFragment
      cases wasThere
      cases wasFragment
      obtain ⟨shown, isShown, isJudged, answered⟩ :=
        (reassembler.push_answered fragment now).of_done pushed
      rw [reading, Option.some.injEq] at isShown
      subst isShown
      exact ⟨answer, changed, _, stepped,
        reassemblers_receiving slot answer, isJudged, answered⟩

/-- The run stops at a fragment whose deadline the clock cannot show. -/
theorem push_outOfRange (owns : session.Owns origin .never [])
    (isFree : session.lends (.push index source now slot) = false)
    (found : session.reassemblers.get? index = some reassembler)
    (isFragment : session.packets.get? source = some fragment)
    (reading : reassembler.limits.timeout.after? now = none) :
    session.step (.push index source now slot) = .error .outOfRange := by
  cases stepped : session.step (.push index source now slot) with
  | error stop =>
      have ends := (carryOut_satisfies owns (by
        simp [Command.exchanges])).of_error (carryOut_of_step_error stepped)
      rcases ends with stops | rfl
      · exact stops.elim
      · rfl
  | ok result =>
      obtain ⟨reply, after⟩ := result
      have effect := push_steps.of_ok stepped
      cases effect with
      | idle absent _ => simp [found, isFragment, isFree] at absent
      | answered wasThere _ pushed =>
          rw [found] at wasThere
          cases wasThere
          obtain ⟨deadline, shown, _⟩ :=
            (reassembler.push_decided _ now).of_done pushed
          simp [reading] at shown

/-- A look at the clock is always answered. -/
theorem expire_answers (owns : session.Owns origin .never [])
    (found : session.reassemblers.get? index = some reassembler)
    (now : Nat) :
    ∃ result, session.step (.expire index now) = .ok result := by
  have held := owns.perm (live_perm_of_reassembler found)
  have contract : SessionStep.Satisfies (carryOut (.expire index now))
      session (fun _ _ => True) Exchange.never.MayStop := by
    apply SessionStep.Satisfies.get
    rw [found]
    apply SessionStep.Satisfies.bind
      (perform_stops owns.keptSources (held.expire_satisfies now).returned)
    intro result _ ending
    obtain ⟨pools, rfl, known⟩ := ending
    match result with
    | .error error => exact known.elim
    | .ok (late, changed) => trivial
  rw [step_of_free (session.lends_of_still fun _ => rfl)]
  exact contract.exists_ok

/-! ## Accounts -/

/-- The reassemblers of a session have the limits of their pools and keep
their accounts. -/
def Accounted (session : Session) (origin : Pools) : Prop :=
  ∀ index reassembler,
    session.reassemblers.get? index = some reassembler →
      reassembler.limits =
        (origin.get reassembler.pool).config.reassembly ∧
      reassembler.Accounted

theorem Accounted.settled {after : Session}
    (accounted : session.Accounted origin)
    (owns : session.Owns origin exchange [])
    (settled : session.Settled after) : after.Accounted origin := by
  intro index reassembler found
  rcases settled index reassembler found with
    ⟨pool, rfl⟩ | ⟨previous, wasThere, letsGo⟩
  · refine ⟨?_, .fresh pool _⟩
    exact congrArg Config.reassembly (owns.balanced.accounts pool).config_eq
  · obtain ⟨sameLimits, wasAccounted⟩ := accounted index previous wasThere
    obtain ⟨keepsPool, keepsLimits⟩ := letsGo.keeps
    rw [keepsPool, keepsLimits]
    exact ⟨sameLimits, wasAccounted.letGo letsGo⟩

theorem carryOut_accounted {command : Command}
    (accounted : session.Accounted origin)
    (owns : session.Owns origin exchange []) :
    SessionStep.Satisfies (carryOut command) session
      (fun _ after => after.Accounted origin) (fun _ => True) := by
  rcases command.push_or_not with ⟨index, source, now, slot, rfl⟩ | noPush
  · apply SessionStep.Satisfies.monoDone push_ends
    intro reply after ending
    cases ending with
    | idle same _ =>
        exact accounted.settled owns (settled_of_same same)
    | @answered reassembler changed fragment _ _ _ found _ pushed same =>
        obtain ⟨deadline, _, rfl, _⟩ :=
          (reassembler.push_decided fragment now).of_done pushed
        obtain ⟨sameLimits, wasAccounted⟩ :=
          accounted index reassembler found
        obtain ⟨keepsPool, keepsLimits⟩ :=
          reassembler.judge_keeps fragment now deadline
        intro other kept isKept
        rw [same, Table.get?_insert] at isKept
        split at isKept
        · cases isKept
          rw [keepsPool, keepsLimits]
          exact ⟨sameLimits, wasAccounted.judge fragment now deadline⟩
        · exact accounted other kept isKept
  · apply (carryOut_settles noPush).monoDone
    exact fun _ after settled => accounted.settled owns settled

/-- A session can come from new pools, of which there are not more than numbers
for them, without any exchange of segments. -/
def Reached (configs : List Config) (session : Session) : Prop :=
  configs.length ≤ UInt32.size ∧ ∃ commands : List Command,
    (∀ command ∈ commands, command.exchanges = false) ∧
    (start (Pools.ofConfigs configs)).runAll commands = .ok session

theorem runAll_accounted {commands : List Command} {after : Session}
    (accounted : session.Accounted origin)
    (owns : session.Owns origin .never [])
    (faithful : ∀ command ∈ commands, command.exchanges = false)
    (ran : session.runAll commands = .ok after) :
    after.Accounted origin := by
  have both : after.Accounted origin ∧ after.Owns origin .never [] := by
    apply runAll_keeps ?_ ⟨accounted, owns⟩ faithful ran
    intro command session after reply isFaithful before stepped
    have noExchange : command.exchanges = true →
        Exchange.never = .freely := by
      simp [isFaithful]
    refine ⟨?_, ?_⟩
    · exact (step_keeps before.1
        (carryOut_accounted before.1 before.2)).of_ok stepped
    · exact (step_keeps before.2
        (carryOut_satisfies before.2 noExchange)).of_ok stepped
  exact both.1

variable {configs : List Config}

theorem Reached.owns (reached : session.Reached configs) :
    session.Owns (Pools.ofConfigs configs) .never [] := by
  obtain ⟨few, commands, faithful, ran⟩ := reached
  apply runAll_owns (start_owns few .never) ?_ ran
  intro command member exchanges
  simp [faithful command member] at exchanges

/-- The pools of a session are consistent with one of its packets and the
others. -/
theorem Reached.consistent (reached : session.Reached configs)
    {packet : Packet} (isLive : packet ∈ session.live) :
    session.pools.Consistent (Pools.ofConfigs configs) .never
      (packet :: session.live.erase packet) :=
  reached.owns.perm (List.perm_cons_erase isLive)

theorem Reached.layout_eq (reached : session.Reached configs)
    (id : PoolId) :
    (session.pools.get id).layout =
      ((Pools.ofConfigs configs).get id).layout :=
  (reached.owns.balanced.accounts id).layout_eq

theorem Reached.config_eq (reached : session.Reached configs)
    (id : PoolId) :
    (session.pools.get id).config =
      ((Pools.ofConfigs configs).get id).config :=
  (reached.owns.balanced.accounts id).config_eq

theorem Reached.accounted (reached : session.Reached configs) :
    session.Accounted (Pools.ofConfigs configs) := by
  obtain ⟨few, commands, faithful, ran⟩ := reached
  apply runAll_accounted ?_ (start_owns few .never) faithful ran
  intro index reassembler found
  simp [start] at found

theorem runAll_append :
    ∀ {commands more : List Command} {session between : Session},
      session.runAll commands = .ok between →
        session.runAll (commands ++ more) = between.runAll more
  | [], _, _, _, ran => by
      cases ran
      rfl
  | command :: rest, more, session, between, ran => by
      simp only [List.cons_append, runAll] at ran ⊢
      cases stepped : session.step command with
      | error stop => simp [stepped] at ran
      | ok result =>
          simp only [stepped] at ran ⊢
          exact runAll_append ran

theorem Reached.step {configs : List Config} {session after : Session}
    {command : Command} {reply : Reply}
    (reached : session.Reached configs)
    (faithful : command.exchanges = false)
    (stepped : session.step command = .ok (reply, after)) :
    after.Reached configs := by
  obtain ⟨few, commands, areFaithful, ran⟩ := reached
  refine ⟨few, commands ++ [command], ?_, ?_⟩
  · intro other member
    rcases List.mem_append.mp member with before | isLast
    · exact areFaithful other before
    · rw [List.mem_singleton.mp isLast]
      exact faithful
  · rw [runAll_append ran]
    simp only [runAll, stepped]

end Session

end PooledPackets
