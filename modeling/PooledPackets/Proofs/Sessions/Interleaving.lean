import PooledPackets.Proofs.Sessions.Calls

/-!
# Datagrams that are interleaved

What is replied to a reassembler's fragments of one datagram does not depend
on the fragments of the others, as long as there is room for all of them: the
calls about it get the same replies in a run that has no others.
-/

namespace PooledPackets

namespace Session

variable {session after other : Session} {configs : List Config}
variable {index : Nat} {numbers : List UInt32}
variable {reassembler changed : Reassembler} {command : Command}
variable {commands : List Command} {reply : Reply} {request : Request}

namespace Follows

/-! ## Two runs -/

variable {index' : Nat} {numbers' : List UInt32}
variable {reassembler' : Reassembler} {command' : Command}
variable {commands' : List Command} {request' : Request}
variable {datagram : UInt32}

/-- The same request about a datagram gets the same reply in two runs that
hold the same of it, and they go on to hold the same of it. Where one of them
stops, so does the other. -/
theorem step_alike
    (follows : session.Follows configs index numbers reassembler
      (command :: commands))
    (follows' : other.Follows configs index' numbers' reassembler'
      (command' :: commands'))
    (agree : Reassembler.AgreeOn datagram.toNat reassembler reassembler')
    (asked : session.request? index command = some request)
    (asked' : other.request? index' command' = some request')
    (same : request.Same request')
    (concerned : request.concerns datagram = true) :
    (∃ stop stop', session.step command = .error stop ∧
      other.step command' = .error stop') ∨
    ∃ reply after changed reply' after' changed',
      session.step command = .ok (reply, after) ∧
      other.step command' = .ok (reply', after') ∧
      SameReply datagram (some reply) (some reply') ∧
      after.Follows configs index numbers changed commands ∧
      after'.Follows configs index' numbers' changed' commands' ∧
      Reassembler.AgreeOn datagram.toNat changed changed' := by
  cases same with
  | expire now =>
      obtain ⟨⟨reply, after⟩, stepped⟩ := follows.looks asked
      obtain ⟨⟨reply', after'⟩, stepped'⟩ := follows'.looks asked'
      obtain ⟨rfl, goesOn⟩ := follows.expires asked stepped
      obtain ⟨rfl, goesOn'⟩ := follows'.expires asked' stepped'
      exact Or.inr ⟨_, after, _, _, after', _, stepped, stepped',
        .expired (agree.mem_late_iff now), goesOn, goesOn',
        agree.swept now⟩
  | @push fragment fragment' alike now =>
      obtain ⟨ofPool, tag, tagged, listed⟩ :=
        Request.isOwn_push_iff.mp (follows.isOwn asked)
      obtain ⟨_, tag', tagged', listed'⟩ :=
        Request.isOwn_push_iff.mp (follows'.isOwn asked')
      have sameTag : tag' = tag := by
        rw [alike.tag_eq, tagged'] at tagged
        exact Option.some.inj tagged
      subst sameTag
      have isDatagram : tag'.datagram = datagram := by
        simpa [Request.concerns, tagged] using concerned
      subst isDatagram
      cases reading : reassembler.limits.timeout.after? now with
      | none =>
          have reading' := reading
          rw [agree.limits_eq] at reading'
          obtain ⟨stop, stopped⟩ := follows.stops asked reading
          obtain ⟨stop', stopped'⟩ := follows'.stops asked' reading'
          exact Or.inl ⟨stop, stop', stopped, stopped'⟩
      | some deadline =>
          have reading' := reading
          rw [agree.limits_eq] at reading'
          obtain ⟨⟨reply, after⟩, stepped⟩ := follows.answers asked reading
          obtain ⟨⟨reply', after'⟩, stepped'⟩ :=
            follows'.answers asked' reading'
          obtain ⟨answer, changed, pools, _, rfl, pushed, _, goesOn⟩ :=
            follows.pushes asked stepped
          obtain ⟨answer', changed', pools', _, rfl, pushed', _, goesOn'⟩ :=
            follows'.pushes asked' stepped'
          obtain ⟨source, slot, rfl, _, isFragment⟩ :=
            of_request?_eq_push asked
          obtain ⟨source', slot', rfl, _, isFragment'⟩ :=
            of_request?_eq_push asked'
          obtain ⟨sameAnswer, agreeAfter⟩ := agree.push alike tagged ofPool
            (follows.owns.handed follows.found isFragment)
            (follows'.owns.handed follows'.found isFragment')
            follows.confined follows'.confined
            (List.mem_map_of_mem listed) (List.mem_map_of_mem listed')
            pushed pushed'
          have replies : SameReply tag'.datagram
              (some (.pushed (fragment.tag.map FragmentTag.datagram) answer))
              (some (.pushed (fragment'.tag.map FragmentTag.datagram)
                answer')) := by
            rw [alike.tag_eq]
            exact .pushed sameAnswer
          exact Or.inr ⟨_, after, changed, _, after', changed', stepped,
            stepped', replies, goesOn, goesOn', agreeAfter⟩

/-- Two runs that hold the same of a datagram, and in which the same is asked
about it, give the same replies about it. -/
theorem callsAbout_alike {calls calls' : List Call}
    (same : List.Forall₂
      (fun call call' => call.request.Same call'.request) calls calls') :
    ∀ {commands commands' : List Command} {session other : Session}
      {reassembler reassembler' : Reassembler},
      session.Follows configs index numbers reassembler commands →
      other.Follows configs index' numbers' reassembler' commands' →
      Reassembler.AgreeOn datagram.toNat reassembler reassembler' →
      session.callsAbout datagram index commands = calls →
      other.callsAbout datagram index' commands' = calls' →
      List.Forall₂
        (fun call call' => SameReply datagram call.reply call'.reply)
        calls calls' := by
  induction same with
  | nil => exact fun _ _ _ _ _ => .nil
  | @cons call call' rest rest' alike _ inductionHypothesis =>
      intro commands commands' session other reassembler reassembler'
        follows follows' agree split split'
      obtain ⟨between, kept, command, remaining, goesOn, keptPool,
        keptLimits, keptHeld, asked, concerned, first⟩ :=
        follows.exists_next split
      obtain ⟨between', kept', command', remaining', goesOn', keptPool',
        keptLimits', keptHeld', asked', concerned', first'⟩ :=
        follows'.exists_next split'
      have agreeKept : Reassembler.AgreeOn datagram.toNat kept kept' := by
        constructor
        · rw [keptPool, keptPool', agree.pool_eq]
        · rw [keptLimits, keptLimits', agree.limits_eq]
        · rw [keptHeld, keptHeld']
          exact agree.pending
      rcases goesOn.step_alike goesOn' agreeKept asked asked' alike
        concerned with
        ⟨stop, stop', stopped, stopped'⟩ |
        ⟨reply, after, changed, reply', after', changed', stepped,
          stepped', replies, further, further', agreeAfter⟩
      · rw [callsAbout_of_stop asked concerned remaining stopped] at first
        rw [callsAbout_of_stop asked' concerned' remaining' stopped']
          at first'
        rw [← first, ← first']
        exact .cons .stopped .nil
      · rw [callsAbout_of_reply asked concerned remaining stepped,
          List.cons.injEq] at first
        rw [callsAbout_of_reply asked' concerned' remaining' stepped',
          List.cons.injEq] at first'
        have later := inductionHypothesis further further' agreeAfter
          first.2 first'.2
        rw [← first.1, ← first'.1]
        exact .cons replies later

end Follows

/-! ## Independence -/

/-- What the calls of one run are like, those of another run are like whose
calls are the same. -/
theorem forall_of_same {calls calls' : List Call} {holds : Request → Prop}
    (keeps : ∀ {request request' : Request}, request.Same request' →
      holds request → holds request')
    (same : List.Forall₂
      (fun call call' => call.request.Same call'.request) calls calls')
    (all : ∀ call ∈ calls, holds call.request) :
    ∀ call ∈ calls', holds call.request := by
  induction same with
  | nil => simp
  | cons alike _ inductionHypothesis =>
      rw [List.forall_mem_cons] at all ⊢
      exact ⟨keeps alike all.1, inductionHypothesis all.2⟩

/-- What a reassembler replies about one datagram does not depend on the
fragments of other datagrams that it gets in between, as long as it has room
for all of them: a run in which it gets only the fragments of this datagram
gives the same replies. -/
theorem calls_independent {configs : List Config}
    {session other : Session} {commands commands' : List Command}
    {index index' : Nat} {reassembler reassembler' : Reassembler}
    {datagram : UInt32} {numbers : List UInt32}
    (reached : session.Reached configs) (reached' : other.Reached configs)
    (found : session.reassemblers.get? index = some reassembler)
    (found' : other.reassemblers.get? index' = some reassembler')
    (empty : reassembler.pending = .empty)
    (empty' : reassembler'.pending = .empty)
    (samePool : reassembler.pool = reassembler'.pool)
    (feeds : ∀ command ∈ commands, command.feeds index = true)
    (feeds' : ∀ command ∈ commands', command.feeds index' = true)
    (own : ∀ call ∈ session.calls index commands,
      call.request.isOwn reassembler.pool numbers = true)
    (few : numbers.length ≤ reassembler.limits.maxDatagrams)
    (same : List.Forall₂
      (fun call call' => call.request.Same call'.request)
      (session.callsAbout datagram index commands)
      (other.calls index' commands')) :
    List.Forall₂
      (fun call call' => SameReply datagram call.reply call'.reply)
      (session.callsAbout datagram index commands)
      (other.calls index' commands') := by
  have sameLimits : reassembler.limits = reassembler'.limits := by
    rw [(reached.accounted index reassembler found).1,
      (reached'.accounted index' reassembler' found').1, samePool]
  have nothingHeld : ∀ reassembler : Reassembler,
      reassembler.pending = .empty →
      numbers.length ≤ reassembler.limits.maxDatagrams →
      reassembler.Confined (numbers.map UInt32.toNat) := by
    intro reassembler empty few
    refine ⟨by simpa using few, ?_⟩
    simp [empty]
  have follows : session.Follows configs index numbers reassembler
      commands :=
    ⟨reached, found, nothingHeld _ empty few, feeds, own⟩
  have ownAbout : ∀ call ∈ session.callsAbout datagram index commands,
      call.request.isOwn reassembler'.pool numbers = true := by
    intro call member
    rw [← samePool]
    exact own call (List.mem_filter.mp member).1
  have keepsOwn : ∀ {request request' : Request}, request.Same request' →
      request.isOwn reassembler'.pool numbers = true →
      request'.isOwn reassembler'.pool numbers = true :=
    fun alike known => alike.isOwn_eq _ _ ▸ known
  have follows' : other.Follows configs index' numbers reassembler'
      commands' :=
    ⟨reached', found', nothingHeld _ empty' (sameLimits ▸ few), feeds',
      forall_of_same keepsOwn same ownAbout⟩
  have agree : Reassembler.AgreeOn datagram.toNat reassembler
      reassembler' := by
    refine ⟨samePool, sameLimits, ?_⟩
    rw [empty, empty']
    exact .none
  -- All calls of the second run are about the datagram.
  have allAbout : other.callsAbout datagram index' commands' =
      other.calls index' commands' := by
    have keeps : ∀ {request request' : Request}, request.Same request' →
        request.concerns datagram = true →
        request'.concerns datagram = true :=
      fun alike known => alike.concerns_eq datagram ▸ known
    rw [callsAbout, List.filter_eq_self]
    exact forall_of_same keeps same
      fun call member => (List.mem_filter.mp member).2
  exact Follows.callsAbout_alike same follows follows' agree rfl allAbout

/-- Two fragments of one datagram, with fragments of another one in between
that overlap each other. -/
theorem calls_independent_of_two :
    let config : Config :=
      { segmentCapacity := 4, segmentCount := 8, headerReserve := 0,
        chaining := false, reassembly := { maxDatagrams := 2 } }
    let session : Session :=
      { start (Pools.ofConfigs [config]) with
        made := 1
        reassemblers :=
          Table.empty.insert 0 ⟨0, config.reassembly, .empty⟩ }
    let first : Command := .receive 0 (.made ⟨1, 0, true⟩ [1, 2]) 0
    let last : Command := .receive 0 (.made ⟨1, 2, false⟩ [3, 4]) 0
    let otherOne : Command := .receive 0 (.made ⟨2, 1, true⟩ [5, 6]) 1
    let commands : List Command :=
      [otherOne, first, .push 0 0 0 9, .push 0 1 1 9, .expire 0 2, otherOne,
        .push 0 1 2 9, otherOne, .push 0 1 3 9, last, .push 0 0 4 9]
    let commands' : List Command :=
      [first, .push 0 0 0 9, .expire 0 2, last, .push 0 0 4 9]
    (session.callsAbout 1 0 commands).length = 3 ∧
    List.Forall₂ (fun call call' => SameReply 1 call.reply call'.reply)
      (session.callsAbout 1 0 commands) (session.calls 0 commands') := by
  intro config session first last otherOne commands commands'
  have reached : session.Reached [config] :=
    ⟨by decide, [.newPool, .newReassembler 0 0 []], by decide, rfl⟩
  have found : session.reassemblers.get? 0 =
      some ⟨0, config.reassembly, .empty⟩ := rfl
  refine ⟨by decide +kernel, ?_⟩
  exact calls_independent reached reached found found rfl rfl rfl
    (by decide) (by decide)
    (show ∀ call ∈ session.calls 0 commands,
      call.request.isOwn 0 [1, 2] = true by decide +kernel)
    (by decide) (by decide +kernel)

end Session

end PooledPackets
