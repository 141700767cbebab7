import PooledPackets.Proofs.Counters.Commands

/-!
# The counters add up

Beside a run minutes are kept of what there is to note of each answer. At its
end the counters of every pool come to the packets that live and to what the
minutes say, and so they do when the session has given everything back.
-/

namespace PooledPackets

open Books

/-! ## Minutes -/

/-- What there was to note in a run, each note with its pool. -/
abbrev Minutes := List (PoolId × Note)

namespace Minutes

/-- The packets that went into others: of those that were linked into one all
but one. -/
def absorbed (minutes : Minutes) (id : PoolId) : Int :=
  (minutes.map fun
    | (pool, .joined packets) =>
        if pool = id then (packets : Int) - 1 else 0
    | (_, .event _) => 0).sum

/-- What the minutes say of the books. -/
def books (minutes : Minutes) : Books :=
  (minutes.map fun entry => Books.noted entry.1 entry.2).sum

/-- Packets were linked only where that is allowed. -/
def Permitted (minutes : Minutes) (origin : Pools) : Prop :=
  ∀ id packets, (id, Note.joined packets) ∈ minutes →
    (origin.get id).config.chaining = true

variable {minutes : Minutes} {origin : Pools} {id : PoolId}

@[simp]
theorem books_append (minutes later : Minutes) :
    (minutes ++ later).books = minutes.books + later.books := by
  simp [books]

theorem books_at (id : PoolId) (notes : List Note) :
    books (notes.map (id, ·)) = allNoted id notes := by
  simp only [books, allNoted, List.map_map]
  rfl

theorem books_packets (minutes : Minutes) (id : PoolId) :
    minutes.books id .packets = minutes.absorbed id := by
  induction minutes with
  | nil => rfl
  | cons entry rest ih =>
      obtain ⟨pool, note⟩ := entry
      simp only [books, absorbed, List.map_cons, List.sum_cons] at ih ⊢
      rw [Pi.add_apply, Pi.add_apply, ih]
      cases note with
      | event event => simp [noted, entry]
      | joined packets =>
          by_cases same : pool = id
          · simp [noted, entry, same]
          · simp [noted, entry, same, Ne.symm same]

theorem books_tally (minutes : Minutes) (id : PoolId) (event : Event) :
    minutes.books id (.tally event) = minutes.count (id, .event event) := by
  induction minutes with
  | nil => rfl
  | cons entry rest ih =>
      obtain ⟨pool, note⟩ := entry
      simp only [books, List.map_cons, List.sum_cons] at ih ⊢
      rw [Pi.add_apply, Pi.add_apply, ih, List.count_cons]
      cases note with
      | joined packets => simp [noted, entry]
      | event other =>
          by_cases same : pool = id ∧ other = event
          · simp [noted, entry, same]; omega
          · have differ : ¬(id = pool ∧ event = other) :=
              fun equal => same ⟨equal.1.symm, equal.2.symm⟩
            simp [noted, entry, same, differ]

theorem Permitted.absorbed_eq (permitted : minutes.Permitted origin)
    (unchained : (origin.get id).config.chaining = false) :
    minutes.absorbed id = 0 := by
  apply List.sum_eq_zero
  intro share member
  obtain ⟨⟨pool, note⟩, isEntry, rfl⟩ := List.mem_map.mp member
  cases note with
  | event event => rfl
  | joined packets =>
      have chained := permitted pool packets isEntry
      apply if_neg
      intro same
      rw [same, unchained] at chained
      cases chained

end Minutes

/-! ## What pools add up to -/

/-- A packet of a pool that was not released. -/
def Packet.livesIn (packet : Packet) (id : PoolId) : Bool :=
  packet.pool == id && !packet.isReleased

theorem Books.alive_packets (packets : List Packet) (id : PoolId) :
    alive packets id .packets =
      packets.countP fun packet => packet.livesIn id := by
  induction packets with
  | nil => rfl
  | cons packet rest ih =>
      rw [alive_cons, Pi.add_apply, Pi.add_apply, ih, List.countP_cons]
      cases released : packet.isReleased with
      | true => simp [lives, released, Packet.livesIn]
      | false =>
          by_cases own : packet.pool = id
          · simp [lives, entry, released, Packet.livesIn, own]; omega
          · simp [lives, entry, released, Packet.livesIn, own, Ne.symm own]

theorem Books.alive_tally (packets : List Packet) (id : PoolId)
    (event : Event) : alive packets id (.tally event) = 0 := by
  induction packets with
  | nil => rfl
  | cons packet rest ih =>
      rw [alive_cons, Pi.add_apply, Pi.add_apply, ih]
      cases released : packet.isReleased <;> simp [lives, released, entry]

/-- The counters of a pool add up. -/
structure Pools.AddUp (pools : Pools) (id : PoolId) (live : List Packet)
    (minutes : Minutes) : Prop where
  /-- A packet that was made was given back, or lives, or went into another
  one. -/
  packets : ((pools.get id).counters.allocations : Int) =
    (pools.get id).counters.releases +
      live.countP (fun packet => packet.livesIn id) + minutes.absorbed id
  /-- Where nothing is linked no packet goes into another one. -/
  unchained : (pools.get id).config.chaining = false →
    (pools.get id).counters.allocations =
      (pools.get id).counters.releases +
        live.countP fun packet => packet.livesIn id
  events : ∀ event, (pools.get id).counters.tally event =
    minutes.count (id, .event event)

theorem Pools.Booked.addUp {pools origin : Pools} {live : List Packet}
    {minutes : Minutes}
    (booked : pools.Booked origin (minutes.books + alive live))
    (permitted : minutes.Permitted origin) (id : PoolId) :
    pools.AddUp id live minutes := by
  have packets := booked.reading_eq id .packets
  rw [Pi.add_apply, Pi.add_apply, minutes.books_packets,
    alive_packets] at packets
  simp only [Counters.reading] at packets
  refine ⟨by omega, ?_, ?_⟩
  · intro unchained
    rw [booked.config_eq] at unchained
    rw [permitted.absorbed_eq unchained] at packets
    omega
  · intro event
    have tally := booked.reading_eq id (.tally event)
    rw [Pi.add_apply, Pi.add_apply, minutes.books_tally, alive_tally,
      add_zero] at tally
    exact Int.ofNat_inj.mp tally

/-! ## Links where they are allowed -/

/-- Among some notes there is one of packets that were linked only if that is
allowed. -/
def Note.Allow (notes : List Note) (chaining : Bool) : Prop :=
  ∀ packets, Note.joined packets ∈ notes → chaining = true

namespace Note.Allow

variable {chaining : Bool} {id : PoolId}

theorem nil (chaining : Bool) : Allow [] chaining := by
  simp [Allow]

theorem append {notes others : List Note} (first : Allow notes chaining)
    (second : Allow others chaining) : Allow (notes ++ others) chaining := by
  intro packets member
  rcases List.mem_append.mp member with inFirst | inSecond
  · exact first packets inFirst
  · exact second packets inSecond

theorem cons_event {notes : List Note} (event : Event)
    (later : Allow notes chaining) :
    Allow (.event event :: notes) chaining := by
  intro packets member
  rcases List.mem_cons.mp member with impossible | isLater
  · cases impossible
  · exact later packets isLater

theorem refusal (error : BufferError) (chaining : Bool) :
    Allow error.notes chaining := by
  cases error with
  | poolExhausted | oversizedPacket | doubleRelease | reassemblyTimeout
  | overlap => exact cons_event _ (nil chaining)
  | _ => exact nil chaining

theorem timeouts (late : List Nat) (chaining : Bool) :
    Allow (Reassembler.timeouts late) chaining := by
  simp [Allow, Reassembler.timeouts]

theorem fragment (result : Option (Except BufferError Packet))
    (chaining : Bool) : Allow (Fragmenter.notes result) chaining := by
  match result with
  | none => exact nil chaining
  | some (.ok _) => exact cons_event _ (nil chaining)
  | some (.error error) => exact refusal error chaining

theorem fragments (results : List (Except BufferError (Nat × Packet)))
    (chaining : Bool) : Allow (Fragmenter.allNotes results) chaining := by
  intro packets member
  obtain ⟨result, _, isNote⟩ := List.mem_flatMap.mp member
  cases result with
  | ok _ => exact cons_event _ (nil chaining) packets isNote
  | error error => exact refusal error chaining packets isNote

theorem joining (fragments : List Packet) :
    Allow (Reassembly.notes chaining id fragments) chaining := by
  intro packets member
  cases chaining with
  | true => rfl
  | false => simp [Reassembly.notes] at member

theorem decision (decision : Reassembler.Decision)
    (answer : Except BufferError (Option Packet)) :
    Allow (decision.notes chaining id answer) chaining := by
  match answer with
  | .error error => exact refusal error chaining
  | .ok none => exact nil chaining
  | .ok (some _) =>
      apply cons_event
      cases decision with
      | whole assembly => exact joining assembly.fragments
      | _ => exact nil chaining

theorem pushed (reassembler : Reassembler) (fragment : Packet)
    (now deadline : Nat) (answer : Except BufferError (Option Packet)) :
    Allow (reassembler.notes chaining fragment now deadline answer)
      chaining := by
  refine append ?_ (decision _ answer)
  cases fragment.tag with
  | none => exact nil chaining
  | some tag => exact timeouts _ chaining

theorem delivery (reassembler : Reassembler) (deadline : Nat)
    (arrivals : List (Nat × Packet)) :
    Allow (reassembler.deliveryNotes chaining deadline arrivals)
      chaining := by
  apply cons_event
  cases reassembler.completed? deadline arrivals with
  | none => exact nil chaining
  | some assembly => exact joining assembly.fragments

end Note.Allow

namespace Session

variable {session : Session} {origin : Pools} {configs : List Config}

/-- Of a pool only what it allows is noted. -/
theorem notes_allow {command : Command} {reply : Reply} {id : PoolId}
    (counting : session.counting? command = some id) :
    Note.Allow (session.notes command reply)
      (session.pools.get id).config.chaining := by
  cases reply with
  | refused error => exact .refusal error _
  | fragment result => exact .fragment result _
  | fragments results => exact .fragments results _
  | expired late => exact .timeouts late _
  | pushed number answer =>
      cases command with
      | push index source now slot =>
          simp only [notes, pushNotes]
          cases found : session.reassemblers.get? index with
          | none => exact .nil _
          | some reassembler =>
              have samePool : reassembler.pool = id := by
                simpa [counting?, found] using counting
              rw [← samePool]
              cases session.packets.get? source with
              | none => exact .nil _
              | some fragment =>
                  dsimp only
                  cases reassembler.limits.timeout.after? now with
                  | none => exact .nil _
                  | some deadline =>
                      exact .pushed reassembler fragment now deadline answer
      | _ => exact .nil _
  | packet packet =>
      cases command with
      | reassemble pool arrivals slot deadline choices =>
          cases counting
          simp only [notes, reassemblyNotes]
          cases session.packetsIn? (arrivals.map Prod.snd) with
          | none => exact .nil _
          | some fragments => exact .delivery _ deadline _
      | _ => exact .nil _
  | _ => exact .nil _

/-- What a command adds to the minutes. -/
def entries (session : Session) (command : Command) (reply : Reply) :
    Minutes :=
  match session.counting? command with
  | none => []
  | some id => (session.notes command reply).map (id, ·)

theorem books_entries (session : Session) (command : Command)
    (reply : Reply) : (session.entries command reply).books =
      session.noted command reply := by
  rw [entries, noted]
  cases session.counting? command with
  | none => rfl
  | some id => exact Minutes.books_at id _

end Session

/-! ## Runs -/

/-- The minutes after a command. -/
def Minutes.next (minutes : Minutes) (session : Session)
    (command : Command) (reply : Reply) (_ : Session) : Minutes :=
  minutes ++ session.entries command reply

theorem Minutes.Permitted.next {minutes : Minutes} {session after : Session}
    {origin : Pools} {books : Books} {command : Command} {reply : Reply}
    (permitted : minutes.Permitted origin)
    (booked : session.Booked origin [] books) :
    (minutes.next session command reply after).Permitted origin := by
  intro id packets member
  rcases List.mem_append.mp member with before | isNew
  · exact permitted id packets before
  · simp only [Session.entries] at isNew
    cases counting : session.counting? command with
    | none => simp [counting] at isNew
    | some pool =>
        simp only [counting, List.mem_map, Prod.mk.injEq] at isNew
        obtain ⟨note, isNote, rfl, rfl⟩ := isNew
        rw [← booked.pools.config_eq]
        exact Session.notes_allow counting packets isNote

theorem Pools.counters_ofConfigs (configs : List Config) (id : PoolId) :
    ((ofConfigs configs).get id).counters = {} := by
  rw [get_ofConfigs]
  cases found : configs[id]?.bind (Pool.ofConfig? id) with
  | none => rfl
  | some pool =>
      obtain ⟨config, _, made⟩ := Option.bind_eq_some_iff.mp found
      obtain ⟨layout, rfl⟩ := Pool.exists_of_ofConfig? made
      rfl

namespace Session

variable {session : Session} {origin : Pools} {configs : List Config}

/-- Carries out commands and keeps minutes. -/
def runMinuting (session : Session) (minutes : Minutes) :
    List Command → Except Stop (Session × Minutes) :=
  session.runBeside Minutes.next minutes

/-- New pools have counted nothing. -/
theorem start_booked (few : configs.length ≤ UInt32.size) :
    (start (Pools.ofConfigs configs)).Booked (Pools.ofConfigs configs) []
      0 where
  intact := by simp [start, live]
  pools := by
    refine ⟨Pools.distinct_ofConfigs few, fun _ => rfl, fun id line => ?_⟩
    change ((Pools.ofConfigs configs).get id).counters.reading line = 0
    rw [Pools.counters_ofConfigs]
    cases line with
    | packets => rfl
    | tally event => cases event <;> rfl

/-- The minutes of a run are on the books. -/
theorem runMinuting_booked {commands : List Command} {minutes : Minutes}
    (few : configs.length ≤ UInt32.size)
    (faithful : ∀ command ∈ commands, command.exchanges = false)
    (ran : (start (Pools.ofConfigs configs)).runMinuting [] commands =
      .ok (session, minutes)) :
    session.Booked (Pools.ofConfigs configs) [] minutes.books ∧
      minutes.Permitted (Pools.ofConfigs configs) := by
  let goesWith (minutes : Minutes) (session : Session) : Prop :=
    session.Reached configs ∧
    session.Booked (Pools.ofConfigs configs) [] minutes.books ∧
    minutes.Permitted (Pools.ofConfigs configs)
  have begins : goesWith [] (start (Pools.ofConfigs configs)) := by
    have reached : (start (Pools.ofConfigs configs)).Reached configs :=
      ⟨few, [], by simp, rfl⟩
    exact ⟨reached, start_booked few, by simp [Minutes.Permitted]⟩
  have keeps : ∀ {command : Command} {session after : Session}
      {reply : Reply} {minutes : Minutes}, command.exchanges = false →
      goesWith minutes session →
      session.step command = .ok (reply, after) →
        goesWith (minutes.next session command reply after) after := by
    intro command session after reply minutes isFaithful before stepped
    obtain ⟨reached, booked, permitted⟩ := before
    have noted := (step_satisfies
      (fun _ => booked.idle (noted_of_silent rfl)) fun _ =>
        carryOut_noted booked reached.accounted isFaithful).of_ok stepped
    refine ⟨reached.step isFaithful stepped, noted.of_eq ?_,
      permitted.next booked⟩
    rw [Minutes.next, Minutes.books_append, books_entries]
  exact (runBeside_keeps_allowed keeps begins faithful ran).1.2

/-! ## The end of a session -/

/-- Things given back one after the other are off the books. -/
theorem forM_booked {α : Type} {held : α → List Packet}
    {giveBack : α → SessionStep PUnit}
    (gives : ∀ {item : α} {session : Session} {books : Books},
      session.pools.Booked origin books →
      SessionStep.Satisfies (giveBack item) session
        (fun _ after => after.pools.Booked origin
          (books - alive (held item))) (fun _ => True))
    {items : List α} {books : Books}
    (booked : session.pools.Booked origin books) :
    SessionStep.Satisfies (items.forM giveBack) session
      (fun _ after => after.pools.Booked origin
        (books - alive (items.flatMap held))) (fun _ => True) := by
  induction items generalizing session books with
  | nil => exact booked.of_eq (by simp)
  | cons item rest inductionHypothesis =>
      apply SessionStep.Satisfies.bind (gives booked)
      intro _ _ given
      apply (inductionHypothesis given).monoDone
      intro _ _ last
      apply last.of_eq
      rw [List.flatMap_cons, alive_append]
      abel

theorem clearing_booked {reassembler : Reassembler}
    {choices : List Nat} {session : Session} {books : Books}
    (booked : session.pools.Booked origin books) :
    SessionStep.Satisfies (do
      let _ ← perform (reassembler.clear choices)) session
      (fun _ after => after.pools.Booked origin
        (books - alive reassembler.fragments)) (fun _ => True) := by
  have cleared : (reassembler.clear choices session.pools).Satisfies _
      (fun _ _ => False) _ := booked.clear_satisfies
  apply SessionStep.Satisfies.bind (perform_leaves cleared)
  intro result after ending
  obtain ⟨pools, rfl, known⟩ := ending
  cases result with
  | error error => exact known.elim
  | ok changed => exact known.2

theorem discarding_booked {packet : Packet} {session : Session}
    {books : Books} (booked : session.pools.Booked origin books) :
    SessionStep.Satisfies (discard packet) session
      (fun _ after => after.pools.Booked origin (books - alive [packet]))
      (fun _ => True) := by
  have dropped : (packet.drop session.pools).Satisfies _
      (fun _ _ => False) _ := booked.drop_satisfies packet
  apply SessionStep.Satisfies.bind (perform_leaves dropped)
  intro result after ending
  obtain ⟨pools, rfl, known⟩ := ending
  cases result with
  | error error => exact known.elim
  | ok value => exact known.of_eq (by rw [alive_cons, alive_nil, add_zero])

/-- At the end of a session no packet is on the books any more. -/
theorem finish_booked {books : Books} {choices : Nat → List Nat}
    {pools : Pools} (booked : session.Booked origin [] books)
    (finished : session.finish choices = .ok pools) :
    pools.Booked origin books := by
  have ending : SessionStep.Satisfies (do
      session.reassemblers.entries.forM fun entry => do
        let _ ← perform (entry.2.clear (choices entry.1))
      session.packets.values.forM discard) session.rested
      (fun _ after => after.pools.Booked origin books) (fun _ => True) := by
    have rested : session.rested.pools.Booked origin
      (books + alive session.live) := booked.pools
    apply SessionStep.Satisfies.bind
      (@forM_booked _ _ _ (fun entry => entry.2.fragments) _
        clearing_booked _ _ rested)
    intro _ _ cleared
    apply (forM_booked discarding_booked cleared).monoDone
    intro _ last emptied
    apply emptied.of_eq
    change books + alive session.live -
      alive (session.reassemblers.entries.flatMap fun entry =>
        entry.2.fragments) -
        alive (session.packets.values.flatMap fun packet => [packet]) = books
    rw [live, Table.values, Table.values, alive_append, List.flatMap_map,
      List.flatMap_singleton']
    abel
  unfold finish at finished
  rcases SessionStep.run_bind _ session.rested _ with
    ⟨⟨_, emptied⟩, stepped, same⟩ | ⟨stop, stepped, same⟩
  · rw [same] at finished
    cases finished
    exact ending.of_ok stepped
  · rw [same] at finished
    cases finished

/-- The counters add up after every run without exchanges, and when the session
has given everything back. -/
theorem counters_addUp {commands : List Command} {minutes : Minutes}
    (few : configs.length ≤ UInt32.size)
    (faithful : ∀ command ∈ commands, command.exchanges = false)
    (ran : (start (Pools.ofConfigs configs)).runMinuting [] commands =
      .ok (session, minutes)) (id : PoolId) :
    session.pools.AddUp id session.live minutes ∧
    ∀ choices pools, session.finish choices = .ok pools →
      pools.AddUp id [] minutes := by
  obtain ⟨booked, permitted⟩ := runMinuting_booked few faithful ran
  refine ⟨booked.pools.addUp permitted id, ?_⟩
  intro choices pools finished
  have ending := finish_booked booked finished
  rw [← add_zero minutes.books, ← alive_nil] at ending
  exact ending.addUp permitted id

/-- A datagram of two fragments that were linked, one that is dropped for
another, an overlap, a fragment, a second release, and requests that a pool
cannot meet. Of six packets four were given back, one lives, and one is gone
into another. -/
theorem counters_addUp_of_each_event :
    let chained : Config :=
      { segmentCapacity := 8, segmentCount := 6, headerReserve := 0,
        reassembly := { maxDatagrams := 1, timeout := ⟨10⟩ } }
    let single : Config :=
      { segmentCapacity := 6, segmentCount := 2, headerReserve := 0,
        chaining := false }
    let commands : List Command :=
      [.newPool, .newPool, .newReassembler 0 0 [],
        .receive 0 (.made ⟨7, 0, true⟩ [1, 2]) 0,
        .push 0 0 0 9, .receive 0 (.made ⟨7, 2, false⟩ [3]) 1,
        .push 0 1 1 9, .receive 0 (.made ⟨8, 0, true⟩ [1, 2]) 0,
        .push 0 0 5 8, .receive 0 (.made ⟨9, 0, true⟩ [1, 2]) 0,
        .push 0 0 20 8, .receive 0 (.made ⟨9, 1, true⟩ [1, 2]) 1,
        .push 0 1 21 8, .beginWalk 0 9 2 0, .nextFragment 0 2, .endWalk 0,
        .release 9, .release 9, .packetFrom 1 [1, 2, 3, 4, 5, 6, 7] 3,
        .packetFrom 1 [1] 3, .copy 1 3 4, .copy 1 3 5]
    ∃ session minutes,
      (start (Pools.ofConfigs [chained, single])).runMinuting [] commands =
        .ok (session, minutes) ∧
      minutes = [(0, .event .delivered), (0, .joined 2),
        (0, .event .timeout), (0, .event .overlap), (0, .event .fragment),
        (0, .event .doubleRelease), (1, .event .oversized),
        (1, .event .exhausted)] ∧
      (session.pools.get 0).counters.allocations = 6 ∧
      (session.pools.get 0).counters.releases = 4 ∧
      session.pools.AddUp 0 session.live minutes ∧
      session.pools.AddUp 1 session.live minutes := by
  intro chained single commands
  have known : (do
      let (session, minutes) ← ((start (Pools.ofConfigs
        [chained, single])).runMinuting [] commands).toOption
      let counters := (session.pools.get 0).counters
      pure (minutes, counters.allocations, counters.releases)) =
        some ([(0, .event .delivered), (0, .joined 2), (0, .event .timeout),
          (0, .event .overlap), (0, .event .fragment),
          (0, .event .doubleRelease), (1, .event .oversized),
          (1, .event .exhausted)], 6, 4) := by
    decide +kernel
  obtain ⟨⟨session, minutes⟩, ran, known⟩ :=
    Option.bind_eq_some_iff.mp known
  simp only [Option.pure_def, Option.some.injEq, Prod.mk.injEq] at known
  obtain ⟨noted, made, given⟩ := known
  rw [toOption_eq_some_iff] at ran
  have addUp := counters_addUp (by decide) (by decide) ran
  exact ⟨session, minutes, ran, noted, made, given, (addUp 0).1,
    (addUp 1).1⟩

end Session

end PooledPackets
