import PooledPackets.Proofs.Reassembly.Answers
import PooledPackets.Proofs.Sessions.Accounts

/-!
# A run as a reassembler sees it

A run of a session is looked at as one of its reassemblers sees it: as the
fragments that are handed to it and the looks at the clock, each with the
reply. Up to the next call about a datagram nothing changes about it.
-/

namespace PooledPackets

open Operation

/-- What a reassembler is asked for. -/
inductive Request where
  | push (fragment : Packet) (now : Nat)
  | expire (now : Nat)

namespace Request

/-- Whether a request is about a datagram. A look at the clock is about all of
them. -/
def concerns (datagram : UInt32) : Request → Bool
  | .push fragment _ =>
      fragment.tag.any fun tag => tag.datagram == datagram
  | .expire _ => true

/-- Whether a fragment that is handed over belongs to a pool and to one of
some datagrams. -/
def isOwn (pool : PoolId) (numbers : List UInt32) : Request → Bool
  | .push fragment _ => fragment.pool == pool &&
      fragment.tag.any fun tag => numbers.contains tag.datagram
  | .expire _ => true

/-- The same request, made with the same fragment or with one like it. -/
inductive Same : Request → Request → Prop
  | push {fragment fragment' : Packet}
      (alike : fragment.Resembles fragment') (now : Nat) :
      Same (.push fragment now) (.push fragment' now)
  | expire (now : Nat) : Same (.expire now) (.expire now)

variable {request request' : Request} {pool : PoolId}
variable {numbers : List UInt32}

theorem Same.concerns_eq (same : request.Same request')
    (datagram : UInt32) :
    request.concerns datagram = request'.concerns datagram := by
  cases same with
  | push alike now => simp only [concerns, alike.tag_eq]
  | expire now => rfl

theorem Same.isOwn_eq (same : request.Same request') (pool : PoolId)
    (numbers : List UInt32) :
    request.isOwn pool numbers = request'.isOwn pool numbers := by
  cases same with
  | push alike now => simp only [isOwn, alike.pool_eq, alike.tag_eq]
  | expire now => rfl

theorem isOwn_push_iff {fragment : Packet} {now : Nat} :
    (push fragment now).isOwn pool numbers = true ↔
      fragment.pool = pool ∧
      ∃ tag, fragment.tag = some tag ∧ tag.datagram ∈ numbers := by
  cases tagged : fragment.tag <;> simp [isOwn, tagged]

instance : DecidableRel Same
  | .push fragment now, .push fragment' now' =>
      decidable_of_iff (fragment.Resembles fragment' ∧ now = now') <| by
        constructor
        · rintro ⟨alike, rfl⟩
          exact .push alike now
        · rintro (⟨alike, _⟩ | _)
          exact ⟨alike, rfl⟩
  | .expire now, .expire now' =>
      decidable_of_iff (now = now') <| by
        constructor
        · rintro rfl
          exact .expire now
        · rintro ⟨⟩
          rfl
  | .push _ _, .expire _ => isFalse nofun
  | .expire _, .push _ _ => isFalse nofun

end Request

/-- A request with the reply to it, if the run did not stop there. -/
structure Call where
  request : Request
  reply : Option Reply

/-- Replies that say the same about a datagram. -/
inductive SameReply (datagram : UInt32) : Option Reply → Option Reply → Prop
  | stopped : SameReply datagram none none
  | pushed {number : Option UInt32}
      {answer answer' : Except BufferError (Option Packet)}
      (same : Reassembler.SameAnswer answer answer') :
      SameReply datagram (some (.pushed number answer))
        (some (.pushed number answer'))
  | expired {late late' : List Nat}
      (same : datagram.toNat ∈ late ↔ datagram.toNat ∈ late') :
      SameReply datagram (some (.expired late)) (some (.expired late'))

/-- A command that exchanges nothing and, if it names the reassembler, hands
it a fragment or makes it look at the clock. -/
def Command.feeds (index : Nat) : Command → Bool
  | .swapFirst .. => false
  | .newReassembler _ other _ => other != index
  | .clear other _ => other != index
  | .dropReassembler other _ => other != index
  | _ => true

namespace Session

/-- What a command asks a reassembler for, if it is carried out. -/
def request? (session : Session) (index : Nat) :
    Command → Option Request
  | .push other source now slot =>
      if other = index ∧
          session.lends (.push other source now slot) = false then
        (session.packets.get? source).map fun fragment =>
          .push fragment now
      else none
  | .expire other now => if other = index then some (.expire now) else none
  | _ => none

/-- What a reassembler is asked for in a run, up to where the run stops. -/
def calls (index : Nat) (session : Session) : List Command → List Call
  | [] => []
  | command :: rest =>
      let made := (session.request? index command).toList
      match session.step command with
      | .error _ => made.map fun request => ⟨request, none⟩
      | .ok (reply, after) =>
          (made.map fun request => ⟨request, some reply⟩) ++
            after.calls index rest

/-- Those of the calls in a run that are about a datagram. -/
def callsAbout (datagram : UInt32) (index : Nat) (session : Session)
    (commands : List Command) : List Call :=
  (session.calls index commands).filter fun call =>
    call.request.concerns datagram

/-! ## One run -/

/-- A session goes on with commands that hand a reassembler nothing but its
own pool's fragments of some datagrams, for which it has room. -/
structure Follows (session : Session) (configs : List Config) (index : Nat)
    (numbers : List UInt32) (reassembler : Reassembler)
    (commands : List Command) : Prop where
  reached : session.Reached configs
  found : session.reassemblers.get? index = some reassembler
  confined : reassembler.Confined (numbers.map UInt32.toNat)
  feeds : ∀ command ∈ commands, command.feeds index = true
  own : ∀ call ∈ session.calls index commands,
    call.request.isOwn reassembler.pool numbers = true

variable {session after other : Session} {configs : List Config}
variable {index : Nat} {numbers : List UInt32}
variable {reassembler changed : Reassembler} {command : Command}
variable {commands : List Command} {reply : Reply} {request : Request}

theorem faithful_of_feeds (feeds : command.feeds index = true) :
    command.exchanges = false := by
  cases command <;> simp_all [Command.feeds, Command.exchanges]

theorem of_request?_eq_push {fragment : Packet} {now : Nat}
    (asked : session.request? index command = some (.push fragment now)) :
    ∃ source slot, command = .push index source now slot ∧
      session.lends command = false ∧
      session.packets.get? source = some fragment := by
  cases command with
  | push other source reading slot =>
      simp only [request?] at asked
      split at asked
      · rename_i carried
        obtain ⟨rfl, isFree⟩ := carried
        obtain ⟨packet, isPacket, same⟩ := Option.map_eq_some_iff.mp asked
        cases same
        exact ⟨source, slot, rfl, isFree, isPacket⟩
      · cases asked
  | expire other reading =>
      simp only [request?] at asked
      split at asked <;> cases asked
  | _ => cases asked

theorem of_request?_eq_expire {now : Nat}
    (asked : session.request? index command = some (.expire now)) :
    command = .expire index now := by
  cases command with
  | push other source reading slot =>
      simp only [request?] at asked
      split at asked
      · obtain ⟨packet, _, same⟩ := Option.map_eq_some_iff.mp asked
        cases same
      · cases asked
  | expire other reading =>
      simp only [request?] at asked
      split at asked
      · rename_i isIndex
        subst isIndex
        cases asked
        rfl
      · cases asked
  | _ => cases asked

/-- A command that asks for nothing does not name the reassembler, or it
pushes from an empty slot or a packet that is lent. -/
theorem of_request?_eq_none (feeds : command.feeds index = true)
    (silent : session.request? index command = none) :
    command.reassembler? ≠ some index ∨
    ∃ source now slot, command = .push index source now slot ∧
      (session.packets.get? source = none ∨
        session.lends command = true) := by
  by_cases named : command.reassembler? = some index
  · right
    cases command with
    | push other source now slot =>
        cases named
        refine ⟨source, now, slot, rfl, ?_⟩
        by_cases isLent : session.lends (.push index source now slot) = true
        · exact Or.inr isLent
        · simp only [request?, isLent, and_self, if_true,
            Option.map_eq_none_iff] at silent
          exact Or.inl silent
    | expire other now =>
        cases named
        simp [request?] at silent
    | newReassembler pool other choices | clear other choices
    | dropReassembler other choices =>
        cases named
        simp [Command.feeds] at feeds
    | _ => cases named
  · exact Or.inl named

namespace Follows

theorem owns
    (follows : session.Follows configs index numbers reassembler commands) :
    session.Owns (Pools.ofConfigs configs) .never [] :=
  follows.reached.owns

/-- What comes after a step. -/
theorem next (follows : session.Follows configs index numbers reassembler
      (command :: commands))
    (stepped : session.step command = .ok (reply, after))
    (found : after.reassemblers.get? index = some changed)
    (samePool : changed.pool = reassembler.pool)
    (confined : changed.Confined (numbers.map UInt32.toNat)) :
    after.Follows configs index numbers changed commands where
  reached := follows.reached.step
    (faithful_of_feeds (follows.feeds command (List.mem_cons_self ..)))
    stepped
  found := found
  confined := confined
  feeds := fun other member => follows.feeds other (.tail _ member)
  own := by
    intro call member
    rw [samePool]
    apply follows.own call
    simp only [calls, stepped]
    exact List.mem_append_right _ member

theorem feedsFirst
    (follows : session.Follows configs index numbers reassembler
      (command :: commands)) : command.feeds index = true :=
  follows.feeds command (List.mem_cons_self ..)

theorem isOwn
    (follows : session.Follows configs index numbers reassembler
      (command :: commands))
    (asked : session.request? index command = some request) :
    request.isOwn reassembler.pool numbers = true := by
  have first : ∃ reply, ⟨request, reply⟩ ∈
      session.calls index (command :: commands) := by
    simp only [calls, asked, Option.toList_some, List.map_cons, List.map_nil]
    split
    · exact ⟨none, List.mem_cons_self ..⟩
    · exact ⟨_, List.mem_append_left _ (List.mem_cons_self ..)⟩
  obtain ⟨reply, member⟩ := first
  exact follows.own _ member

/-- A command that asks for nothing leaves the reassembler as it is. -/
theorem skips
    (follows : session.Follows configs index numbers reassembler
      (command :: commands))
    (silent : session.request? index command = none)
    (stepped : session.step command = .ok (reply, after)) :
    after.Follows configs index numbers reassembler commands := by
  refine follows.next stepped ?_ rfl follows.confined
  rcases of_request?_eq_none follows.feedsFirst silent with
    unnamed | ⟨source, now, slot, rfl, absent⟩
  · rw [(step_spares unnamed).of_ok stepped]
    exact follows.found
  · have effect := push_steps.of_ok stepped
    rcases absent with noFragment | isLent
    · cases effect with
      | idle _ _ => exact follows.found
      | answered _ isFragment _ => simp [noFragment] at isFragment
    · simp only [step, isLent, if_true, Except.ok.injEq,
        Prod.mk.injEq] at stepped
      exact stepped.2 ▸ follows.found

/-- A fragment that is handed over gets an answer, and the reassembler is in
the state that this leads to. -/
theorem pushes {fragment : Packet} {now : Nat}
    (follows : session.Follows configs index numbers reassembler
      (command :: commands))
    (asked : session.request? index command = some (.push fragment now))
    (stepped : session.step command = .ok (reply, after)) :
    ∃ answer changed pools deadline,
      reply = .pushed (fragment.tag.map FragmentTag.datagram) answer ∧
      reassembler.push fragment now session.pools =
        .done (answer, changed) pools ∧
      changed = (reassembler.judge fragment now deadline).2 ∧
      after.Follows configs index numbers changed commands := by
  obtain ⟨ofPool, tag, tagged, listed⟩ :=
        Request.isOwn_push_iff.mp (follows.isOwn asked)
  obtain ⟨source, slot, rfl, isFree, isFragment⟩ :=
    of_request?_eq_push asked
  have effect := push_steps.of_ok stepped
  cases effect with
  | idle absent _ => simp [follows.found, isFragment, isFree] at absent
  | @answered _ changed _ answer pools last isThere isSame pushed =>
      rw [follows.found] at isThere
      rw [isFragment] at isSame
      cases isThere
      cases isSame
      obtain ⟨deadline, _, isChanged, _⟩ :=
        (reassembler.push_decided fragment now).of_done pushed
      dsimp only at isChanged
      subst isChanged
      refine ⟨answer, _, pools, deadline, rfl, pushed, rfl,
        follows.next stepped ?_ ?_ ?_⟩
      · change (((session.vacated source).attended index _).receiving slot
          answer).reassemblers.get? index = _
        rw [reassemblers_receiving]
        simp [attended]
      · exact (reassembler.judge_keeps fragment now deadline).1
      · exact follows.confined.judge tagged (List.mem_map_of_mem listed)
          ofPool

theorem expires {now : Nat}
    (follows : session.Follows configs index numbers reassembler
      (command :: commands))
    (asked : session.request? index command = some (.expire now))
    (stepped : session.step command = .ok (reply, after)) :
    reply = .expired (reassembler.late now) ∧
      after.Follows configs index numbers (reassembler.swept now)
        commands := by
  cases of_request?_eq_expire asked
  rw [step_of_free (session.lends_of_still fun _ => rfl)] at stepped
  rcases (expire_leaves index now).of_ok stepped with
    ⟨absent, _⟩ | ⟨other, pools, isThere, isReply, isAfter⟩
  · simp [follows.found] at absent
  · rw [follows.found] at isThere
    cases isThere
    rw [← step_of_free (session.lends_of_still fun _ => rfl)] at stepped
    refine ⟨isReply, follows.next stepped ?_ rfl (follows.confined.swept now)⟩
    rw [isAfter]
    simp [attended, withPools]

/-! ## Requests that are carried out -/

/-- A fragment gets its answer, unless the clock cannot show its deadline. -/
theorem answers {fragment : Packet} {now deadline : Nat}
    (follows : session.Follows configs index numbers reassembler
      (command :: commands))
    (asked : session.request? index command = some (.push fragment now))
    (reading : reassembler.limits.timeout.after? now = some deadline) :
    ∃ result, session.step command = .ok result := by
  obtain ⟨source, slot, rfl, isFree, isFragment⟩ :=
    of_request?_eq_push asked
  exact push_answers follows.owns isFree follows.found isFragment reading

theorem stops {fragment : Packet} {now : Nat}
    (follows : session.Follows configs index numbers reassembler
      (command :: commands))
    (asked : session.request? index command = some (.push fragment now))
    (reading : reassembler.limits.timeout.after? now = none) :
    ∃ stop, session.step command = .error stop := by
  obtain ⟨source, slot, rfl, isFree, isFragment⟩ :=
    of_request?_eq_push asked
  exact ⟨.outOfRange,
    push_outOfRange follows.owns isFree follows.found isFragment reading⟩

theorem looks {now : Nat}
    (follows : session.Follows configs index numbers reassembler
      (command :: commands))
    (asked : session.request? index command = some (.expire now)) :
    ∃ result, session.step command = .ok result := by
  cases of_request?_eq_expire asked
  exact expire_answers follows.owns follows.found now

/-! ## The next call about a datagram -/

/-- Requests about other datagrams change nothing about this one. -/
theorem keeps_datagram {datagram : UInt32}
    (follows : session.Follows configs index numbers reassembler
      (command :: commands))
    (apart : ∀ request, session.request? index command = some request →
      request.concerns datagram = false)
    (stepped : session.step command = .ok (reply, after)) :
    ∃ changed, after.Follows configs index numbers changed commands ∧
      changed.pool = reassembler.pool ∧
      changed.limits = reassembler.limits ∧
      changed.pending.get? datagram.toNat =
        reassembler.pending.get? datagram.toNat := by
  cases asked : session.request? index command with
  | none => exact ⟨reassembler, follows.skips asked stepped, rfl, rfl, rfl⟩
  | some request =>
      have isApart := apart request asked
      cases request with
      | expire now => cases isApart
      | push fragment now =>
          obtain ⟨_, tag, tagged, listed⟩ :=
            Request.isOwn_push_iff.mp (follows.isOwn asked)
          obtain ⟨answer, changed, pools, deadline, _, _, rfl, goesOn⟩ :=
            follows.pushes asked stepped
          have room := follows.confined.hasRoom
            (List.mem_map_of_mem listed)
          have different : datagram.toNat ≠ tag.datagram.toNat := by
            intro same
            simp [Request.concerns, tagged, UInt32.toNat_inj.mp same]
              at isApart
          obtain ⟨keepsPool, keepsLimits⟩ :=
            reassembler.judge_keeps fragment now deadline
          exact ⟨_, goesOn, keepsPool, keepsLimits,
            Reassembler.get?_judge_of_ne tagged room different⟩

end Follows

theorem callsAbout_of_stop {datagram : UInt32} {stop : Stop}
    (asked : session.request? index command = some request)
    (concerned : request.concerns datagram = true)
    (commands : List Command) (stopped : session.step command = .error stop) :
    session.callsAbout datagram index (command :: commands) =
      [⟨request, none⟩] := by
  simp [callsAbout, calls, asked, stopped, concerned]

theorem callsAbout_of_reply {datagram : UInt32}
    (asked : session.request? index command = some request)
    (concerned : request.concerns datagram = true)
    (commands : List Command)
    (stepped : session.step command = .ok (reply, after)) :
    session.callsAbout datagram index (command :: commands) =
      ⟨request, some reply⟩ :: after.callsAbout datagram index commands := by
  simp [callsAbout, calls, asked, stepped, concerned]

theorem callsAbout_of_apart {datagram : UInt32}
    (apart : ∀ request, session.request? index command = some request →
      request.concerns datagram = false) (commands : List Command) :
    session.callsAbout datagram index (command :: commands) = [] ∨
    ∃ reply after, session.step command = .ok (reply, after) ∧
      session.callsAbout datagram index (command :: commands) =
        after.callsAbout datagram index commands := by
  have nothing : ∀ reply, ((session.request? index command).toList.map
      fun request => (⟨request, reply⟩ : Call)).filter
        (fun call => call.request.concerns datagram) = [] := by
    intro reply
    cases asked : session.request? index command with
    | none => rfl
    | some request => simp [apart request asked]
  cases stepped : session.step command with
  | error stop =>
      left
      simp only [callsAbout, calls, stepped]
      exact nothing none
  | ok result =>
      refine Or.inr ⟨result.1, result.2, rfl, ?_⟩
      simp only [callsAbout, calls, stepped, List.filter_append]
      rw [nothing (some result.1), List.nil_append]

namespace Follows

/-- Up to the next call about a datagram nothing changes about it. -/
theorem exists_next {datagram : UInt32} {call : Call} {rest : List Call} :
    ∀ {commands : List Command} {session : Session}
      {reassembler : Reassembler},
      session.Follows configs index numbers reassembler commands →
      session.callsAbout datagram index commands = call :: rest →
      ∃ (between : Session) (kept : Reassembler) (command : Command)
        (remaining : List Command),
        between.Follows configs index numbers kept
          (command :: remaining) ∧
        kept.pool = reassembler.pool ∧ kept.limits = reassembler.limits ∧
        kept.pending.get? datagram.toNat =
          reassembler.pending.get? datagram.toNat ∧
        between.request? index command = some call.request ∧
        call.request.concerns datagram = true ∧
        between.callsAbout datagram index (command :: remaining) =
          call :: rest
  | [], _, _, _, split => by simp [callsAbout, calls] at split
  | command :: remaining, session, reassembler, follows, split => by
      by_cases apart : ∀ request,
          session.request? index command = some request →
            request.concerns datagram = false
      · rcases callsAbout_of_apart apart remaining with
          nothing | ⟨reply, after, stepped, same⟩
        · simp [nothing] at split
        · rw [same] at split
          obtain ⟨changed, goesOn, samePool, sameLimits, sameHeld⟩ :=
            follows.keeps_datagram apart stepped
          obtain ⟨between, kept, next, others, further, keptPool,
            keptLimits, keptHeld, asked⟩ := exists_next goesOn split
          exact ⟨between, kept, next, others, further,
            keptPool.trans samePool, keptLimits.trans sameLimits,
            keptHeld.trans sameHeld, asked⟩
      · push Not at apart
        obtain ⟨request, asked, concerned⟩ := apart
        rw [ne_eq, Bool.not_eq_false] at concerned
        have isRequest : call.request = request := by
          cases stepped : session.step command with
          | error stop =>
              rw [callsAbout_of_stop asked concerned remaining stepped,
                List.cons.injEq] at split
              rw [← split.1]
          | ok result =>
              rw [callsAbout_of_reply asked concerned remaining stepped,
                List.cons.injEq] at split
              rw [← split.1]
        subst isRequest
        exact ⟨session, reassembler, command, remaining, follows, rfl, rfl,
          rfl, asked, concerned, split⟩

end Follows

end Session

end PooledPackets
