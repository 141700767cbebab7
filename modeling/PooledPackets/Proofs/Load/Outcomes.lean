import PooledPackets.Proofs.Load.Misreadings

/-!
# What a round trip comes to

Settings that are accepted make a link over which datagrams get across. Where
they do not, too few segments or too small limits are the reason; only where
both ends write headers differently, or no time is left to wait, can something
else go wrong.
-/

namespace PooledPackets

/-- Whether a refusal says that a datagram is too much for a pool, a limit or
a header. -/
def BufferError.ofCapacity : BufferError → Bool
  | .poolExhausted .. => true
  | .oversizedPacket .. => true
  | .fragmentationDisabled .. => true
  | .holdLimitExceeded .. => true
  | .outOfBounds .. => true
  | _ => false

theorem Pool.ofCapacity_of_shortage? {pool : Pool} {free len : Nat}
    {error : BufferError} (short : pool.shortage? free len = some error) :
    error.ofCapacity = true := by
  simp only [shortage?] at short
  split at short
  · cases short
    rfl
  · split at short
    · cases short
      rfl
    · cases short

theorem Extent.ofCapacity_of_overrun? {limit : Nat} {error : BufferError} :
    ∀ {total : Nat} {extents : List Extent},
      overrun? limit total extents = some error → error.ofCapacity = true
  | _, [], exceeds => by cases exceeds
  | total, extent :: rest, exceeds => by
      rw [overrun?] at exceeds
      split at exceeds
      · cases exceeds
        rfl
      · exact ofCapacity_of_overrun? exceeds

/-- Pieces that do not become a whole are too much for something, or there was
no time to wait for more than one. -/
theorem Extent.cases_of_gatherRefusal? {datagram : UInt32}
    {limits : ReassemblyLimits} {unjoined : Option BufferError}
    {error : BufferError}
    (joins : ∀ error, unjoined = some error → error.ofCapacity = true) :
    ∀ {arrived left : List Extent},
      gatherRefusal? datagram limits unjoined arrived left = some error →
        error.ofCapacity = true ∨
        (error = .reassemblyTimeout datagram ∧
          limits.timeout.nanoseconds = 0 ∧ 1 < arrived.length + left.length)
  | _, [], refused => by cases refused
  | arrived, extent :: left, refused => by
      rw [gatherRefusal?] at refused
      split at refused
      · rename_i late
        cases refused
        have some := List.length_pos_iff.mpr late.1
        rw [List.length_cons]
        exact Or.inr ⟨rfl, late.2, by omega⟩
      · split at refused
        · split at refused
          · exact Or.inl (joins error refused)
          · rcases cases_of_gatherRefusal? joins refused with
              isCapacity | ⟨isLate, noTime, several⟩
            · exact Or.inl isCapacity
            · rw [List.length_append, List.length_singleton] at several
              rw [List.length_cons]
              exact Or.inr ⟨isLate, noTime, by omega⟩
        · cases refused
          exact Or.inl rfl

namespace Load

namespace Link

variable {link : Link} {origin : Pools} {error : BufferError}

theorem ofCapacity_of_barrier? {free : Nat} {extent : Extent}
    (barred : link.barrier? origin free extent = some error) :
    error.ofCapacity = true := by
  unfold barrier? at barred
  split at barred
  · cases barred
    rfl
  · exact Pool.ofCapacity_of_shortage? barred

theorem ofCapacity_of_obstacle? {here : Nat} :
    ∀ {there : Nat} {extents : List Extent},
      link.obstacle? origin here there extents = some error →
        error.ofCapacity = true
  | _, [], found => by cases found
  | _, extent :: rest, found => by
      rw [obstacle?, Option.or_eq_some_iff, Option.or_eq_some_iff] at found
      rcases found with (short | ⟨_, barred⟩) | ⟨_, later⟩
      · exact Pool.ofCapacity_of_shortage? short
      · exact ofCapacity_of_barrier? barred
      · exact ofCapacity_of_obstacle? later

/-- A payload that does not get across is too much for something. -/
theorem ofCapacity_of_refusal? {len : Nat}
    (refused : link.refusal? origin len = some error) :
    error.ofCapacity = true := by
  rw [refusal?, Option.or_eq_some_iff] at refused
  rcases refused with short | ⟨_, unsent⟩
  · exact Pool.ofCapacity_of_shortage? short
  · unfold sendRefusal? at unsent
    split at unsent
    · cases unsent
      rfl
    · exact ofCapacity_of_obstacle? unsent

/-- A payload that has got across is too much for something, or it came in
several fragments and there was no time to wait for them. -/
theorem cases_of_gatherRefusal? {datagram : UInt32} {len : Nat}
    {choices : List Nat} (ready : link.Ready origin)
    (refused : link.gatherRefusal? origin datagram len choices =
      some error) :
    error.ofCapacity = true ∨
      (error = .reassemblyTimeout datagram ∧
        (link.timeout origin).nanoseconds = 0 ∧
        link.portion origin < len) := by
  have joins : ∀ error,
      link.joinRefusal? origin (link.extents origin len) = some error →
        error.ofCapacity = true := by
    intro error unjoined
    unfold joinRefusal? at unjoined
    split at unjoined
    · cases unjoined
    · exact Extent.ofCapacity_of_overrun? unjoined
  rcases Extent.cases_of_gatherRefusal? joins refused with
    isCapacity | ⟨isLate, noTime, several⟩
  · exact Or.inl isCapacity
  · refine Or.inr ⟨isLate, noTime, Nat.lt_of_not_le fun fits => ?_⟩
    rw [(arrange_perm _ _).length_eq, extents_of_fits ready fits] at several
    simp at several

end Link

namespace Settings

variable {settings : Settings} {origin pools : Pools}

/-- Headers are read in the byte order that they are written in, if fragments
cross the link with headers. -/
def Concordant (settings : Settings) : Prop :=
  settings.workload.linkFrames = true →
    settings.pool.byteOrder = settings.receiverConfig.byteOrder

/-- What a round trip may come to. -/
inductive RoundTripEnds (settings : Settings) (origin : Pools)
    (payload : Bytes) : Except BufferError (Packet × Nat) → Prop
  /-- A packet of the receiving pool has been put together. Its payload is the
  one that was sent, unless several fragments were read in another byte order
  than they were written in. -/
  | received {packet : Packet} {fragments : Nat}
      (own : packet.pool = receiverId)
      (intact : settings.Concordant ∨
        payload.length ≤ settings.link.portion origin →
          packet.toBytes = payload) :
      RoundTripEnds settings origin payload (.ok (packet, fragments))
  | refused {error : BufferError} (isCapacity : error.ofCapacity = true) :
      RoundTripEnds settings origin payload (.error error)
  /-- Several fragments did not become a whole in time, either because there was
  no time or because they were misread. -/
  | late {datagram : UInt32}
      (several : settings.link.portion origin < payload.length)
      (cause :
        settings.receiverConfig.reassembly.timeout.nanoseconds = 0 ∨
          ¬settings.Concordant) :
      RoundTripEnds settings origin payload
        (.error (.reassemblyTimeout datagram))
  /-- Several fragments were misread and do not go together. -/
  | misread {error : BufferError} (isFragment : error.ofFragment = true)
      (several : settings.link.portion origin < payload.length)
      (discordant : ¬settings.Concordant) :
      RoundTripEnds settings origin payload (.error error)

/-- A worker of a run that holds nothing. -/
def idleWorker (settings : Settings) : Worker where
  link := settings.link
  reassembler := ⟨receiverId, settings.receiverConfig.reassembly, .empty⟩
  arrivals := []

theorem Equips.receiver_config (equips : settings.Equips origin) :
    (origin.get receiverId).config = settings.receiverConfig := by
  obtain ⟨layout, isReceiver⟩ := equips.receiver_eq
  rw [isReceiver]
  rfl

theorem Equips.sender_config (equips : settings.Equips origin) :
    (origin.get senderId).config = settings.pool := by
  obtain ⟨layout, isSender⟩ := equips.sender_eq
  rw [isSender]
  rfl

theorem Equips.idleWorker_eq (equips : settings.Equips origin) :
    settings.link.idleWorker origin = settings.idleWorker := by
  have sameConfig := equips.receiver_config
  rw [Link.idleWorker, idleWorker, ← sameConfig]
  rfl

theorem Equips.faithful_iff (equips : settings.Equips origin) :
    settings.link.Faithful origin ↔ settings.Concordant := by
  rw [Concordant, ← equips.sender_config, ← equips.receiver_config]
  rfl

/-- The settings of a text and the pools that are made with them. -/
def equipped? (text : String) : Option (Settings × Pools) :=
  match Settings.read text with
  | .error _ => none
  | .ok settings =>
      settings.makePools.toOption.map fun origin => (settings, origin)

theorem equipped?_eq_some_iff {text : String} :
    equipped? text = some (settings, origin) ↔
      Settings.read text = .ok settings ∧
        settings.makePools = .ok origin := by
  unfold equipped?
  cases Settings.read text with
  | error error => simp
  | ok found =>
      rw [Option.map_eq_some_iff]
      constructor
      · rintro ⟨pools, made, same⟩
        cases same
        exact ⟨rfl, toOption_eq_some_iff.mp made⟩
      · rintro ⟨same, made⟩
        cases same
        exact ⟨origin, toOption_eq_some_iff.mpr made, rfl⟩

/-- Settings for one length of payload, over a link with frames which arrive in
any order, with some lines for the receiving pool. -/
def sampleText (mtu length receiver : String) : String :=
  "[general]\nduration=\"1s\"\nwarmup=\"1s\"\nthreads=1\n" ++
  "[rx]\n" ++ receiver ++ "\n[workload]\nlink_frames=true\n" ++
  "shuffle=true\nmtu=" ++ mtu ++
  "\npayload.min=" ++ length ++ "\npayload.max=" ++ length

/-- With settings that pass the check, whatever the payload and the order of
arrival, a round trip between idle pools delivers the payload or is refused for
want of capacity. Anything else takes several fragments, and either no time to
wait for them or headers that are read in another byte order than they are
written in. Nothing stops the run but a clock that cannot show a deadline. -/
theorem roundTrip_ends (checked : settings.check = .ok ⟨⟩)
    (made : settings.makePools = .ok origin)
    (idle : pools.Balanced origin []) (round : Round) :
    (settings.idleWorker.roundTrip round pools).Satisfies
      (fun result _ =>
        settings.RoundTripEnds origin round.payload result.1)
      (fun _ _ => False)
      (fun stop => stop = .outOfRange ∧
        settings.receiverConfig.reassembly.timeout.after? round.now =
          none) := by
  have equips := equips_of_check checked made
  have ready : settings.link.Ready origin := equips.toReady
  have sameTimeout : settings.link.timeout origin =
      settings.receiverConfig.reassembly.timeout := by
    rw [← equips.receiver_config]
    rfl
  rw [← equips.idleWorker_eq, ← sameTimeout]
  apply (roundTrip_trips ready ⟨idle, by simp⟩ round).monoDone
  rintro ⟨result, worker⟩ after trips
  dsimp only at trips ⊢
  have preserves : settings.Concordant ∨
      round.payload.length ≤ settings.link.portion origin →
        settings.link.Preserves origin round.payload.length := by
    rw [← equips.faithful_iff]
    exact id
  cases trips with
  | unsent refused _ => exact .refused (Link.ofCapacity_of_refusal? refused)
  | received _ own foretold _ =>
      exact .received own fun kept => (foretold (preserves kept)).1
  | @ungathered error reassembler _ _ isGathering foretold _ _ _ =>
      by_cases kept : settings.Concordant ∨
          round.payload.length ≤ settings.link.portion origin
      · obtain ⟨datagram, refused⟩ := foretold (preserves kept)
        rcases Link.cases_of_gatherRefusal? ready refused with
          isCapacity | ⟨rfl, noTime, several⟩
        · exact .refused isCapacity
        · exact .late several (Or.inl (sameTimeout ▸ noTime))
      · rw [not_or, Nat.not_le] at kept
        cases error <;> cases isGathering
        · exact .refused rfl
        · exact .misread rfl kept.2 kept.1
        · exact .late kept.2 (Or.inr kept.1)
        · exact .refused rfl
        · exact .misread rfl kept.2 kept.1

set_option maxRecDepth 100000 in
/-- A payload in three fragments, the last one of which arrives first. -/
theorem roundTrip_ends_three_fragments :
    ∃ settings origin,
      Settings.read (sampleText "4" "10" "") = .ok settings ∧
      settings.makePools = .ok origin ∧ origin.Balanced origin [] ∧
      (settings.idleWorker.roundTrip ⟨.replicate 10 7, 0, [2], []⟩
        origin).Satisfies
          (fun result _ => settings.RoundTripEnds origin
            (.replicate 10 7) result.1)
          (fun _ _ => False)
          (fun stop => stop = .outOfRange ∧
            settings.receiverConfig.reassembly.timeout.after? 0 =
              none) := by
  have begins : (equipped? (sampleText "4" "10" "")).isSome = true := by
    decide +kernel
  obtain ⟨⟨settings, origin⟩, found⟩ := Option.isSome_iff_exists.mp begins
  obtain ⟨accepted, made⟩ := equipped?_eq_some_iff.mp found
  have checked := check_of_read accepted
  have idle := (equips_of_check checked made).balanced
  exact ⟨settings, origin, accepted, made, idle,
    roundTrip_ends checked made idle ⟨.replicate 10 7, 0, [2], []⟩⟩

/-! ## Where more than capacity is lacking -/

/-- With the settings of a text every payload in range is delivered between idle
pools or refused for want of capacity. -/
def AlwaysDelivers (text : String) : Prop :=
  ∀ (settings : Settings) (origin pools : Pools) (round : Round),
    Settings.read text = .ok settings → settings.makePools = .ok origin →
    pools.Balanced origin [] →
    settings.workload.payload.least ≤ round.payload.length →
    round.payload.length ≤ settings.workload.payload.greatest →
    (settings.idleWorker.roundTrip round pools).Satisfies
      (fun result _ =>
        match result.1 with
        | .ok (packet, _) =>
            packet.pool = receiverId ∧ packet.toBytes = round.payload
        | .error error => error.ofCapacity = true)
      (fun _ _ => False) (fun _ => False)

/-- Whether the first round trip with the settings of a text comes to anything
else. -/
def strays (text : String) (round : Round) : Bool :=
  (equipped? text).any fun (settings, origin) =>
    decide (settings.workload.payload.least ≤ round.payload.length) &&
    decide (round.payload.length ≤ settings.workload.payload.greatest) &&
    match settings.idleWorker.roundTrip round origin with
    | .done (.ok (packet, _), _) _ =>
        decide (packet.toBytes ≠ round.payload)
    | .done (.error error, _) _ => !error.ofCapacity
    | .failed .. => true
    | .stopped _ => true

theorem not_alwaysDelivers {text : String} {round : Round}
    (astray : strays text round = true) : ¬AlwaysDelivers text := by
  intro always
  rw [strays, Option.any_eq_true] at astray
  obtain ⟨⟨settings, origin⟩, found, otherwise⟩ := astray
  obtain ⟨accepted, made⟩ := equipped?_eq_some_iff.mp found
  have balanced := (equips_of_check (check_of_read accepted) made).balanced
  rw [Bool.and_eq_true, Bool.and_eq_true, decide_eq_true_eq,
    decide_eq_true_eq] at otherwise
  obtain ⟨⟨atLeast, atMost⟩, otherwise⟩ := otherwise
  have delivers := always settings origin origin round accepted made
    balanced atLeast atMost
  revert delivers otherwise
  cases settings.idleWorker.roundTrip round origin with
  | done result after =>
      obtain ⟨answer, worker⟩ := result
      cases answer with
      | ok received =>
          intro differs delivers
          exact of_decide_eq_true differs delivers.2
      | error error =>
          intro differs delivers
          have isCapacity : error.ofCapacity = true := delivers
          simp [isCapacity] at differs
  | failed error after => exact fun _ impossible => impossible
  | stopped stop => exact fun _ impossible => impossible

/-- Whether a payload of some length that arrives in some order is cut short
with the settings of a text. -/
def cutsShort (text : String) (len : Nat) (choices : List Nat) : Bool :=
  (equipped? text).any fun (settings, origin) =>
    decide (settings.workload.payload.least ≤ len) &&
    decide (len ≤ settings.workload.payload.greatest) &&
    decide (settings.link.refusal? origin len = none) &&
    (origin.get settings.link.receiver).config.chaining &&
    ((settings.link.timeout origin).after? 0).any (0 < ·) &&
    match arrange choices (settings.link.extents origin len) with
    | first :: last :: rest =>
        decide (settings.link.CutsShort origin len first last rest)
    | _ => false

theorem not_alwaysDelivers_of_cutsShort {text : String} {len : Nat}
    {choices : List Nat} (isCut : cutsShort text len choices = true) :
    ¬AlwaysDelivers text := by
  intro always
  rw [cutsShort, Option.any_eq_true] at isCut
  obtain ⟨⟨settings, origin⟩, found, isCut⟩ := isCut
  obtain ⟨accepted, made⟩ := equipped?_eq_some_iff.mp found
  simp only [Bool.and_eq_true, decide_eq_true_eq] at isCut
  obtain ⟨⟨⟨⟨⟨atLeast, atMost⟩, sent⟩, chaining⟩, inTime⟩, isCut⟩ := isCut
  rw [Option.any_eq_true] at inTime
  obtain ⟨deadline, reading, timely⟩ := inTime
  split at isCut
  · rename_i first last rest arranged
    have cut := of_decide_eq_true isCut
    have equips := equips_of_check (check_of_read accepted) made
    have isLength : (List.replicate len (0 : UInt8)).length = len :=
      List.length_replicate
    have delivers := always settings origin origin
      ⟨.replicate len 0, 0, choices, []⟩ accepted made equips.balanced
      (isLength.symm ▸ atLeast) (isLength.symm ▸ atMost)
    have short := roundTrip_cutShort equips.toReady
      ⟨equips.balanced, by simp⟩ ⟨.replicate len 0, 0, choices, []⟩
      (isLength.symm ▸ sent) chaining reading (of_decide_eq_true timely)
      (isLength.symm ▸ arranged) (isLength.symm ▸ cut)
    rw [equips.idleWorker_eq] at short
    obtain ⟨⟨_, worker⟩, after, isDone, packet, count, rfl, less⟩ :=
      short.exists_done
    have intact : packet.toBytes = .replicate len 0 :=
      (delivers.of_done isDone).2
    rw [intact] at less
    exact Nat.lt_irrefl _ less
  · cases isCut

set_option maxRecDepth 100000 in
/-- Settings are accepted with which fragments are misread, so that they do not
go together, never become a whole or become another one, with no time to wait
for a second fragment, and with more time than the clock can show. -/
theorem not_all_alwaysDeliver :
    ¬AlwaysDelivers (sampleText "128" "257" "endianness=\"big\"") ∧
      ¬AlwaysDelivers (sampleText "4" "10" "endianness=\"big\"") ∧
      ¬AlwaysDelivers (sampleText "256" "65537" ("endianness=\"big\"\n" ++
        "segment_count=300\nreassembly.hold_limit=300")) ∧
      ¬AlwaysDelivers
        (sampleText "4" "10" "reassembly.timeout=\"0s\"") ∧
      ¬AlwaysDelivers (sampleText "4" "10"
        "reassembly.timeout=\"9223372036854775807s\"") := by
  have misread :
      strays (sampleText "128" "257" "endianness=\"big\"")
        ⟨.replicate 257 0, 0, [], []⟩ = true := by
    decide +kernel
  have incomplete :
      strays (sampleText "4" "10" "endianness=\"big\"")
        ⟨.replicate 10 0, 0, [], []⟩ = true := by
    decide +kernel
  have isCut : cutsShort (sampleText "256" "65537"
      ("endianness=\"big\"\n" ++
        "segment_count=300\nreassembly.hold_limit=300"))
      65537 [0, 255] = true := by
    decide +kernel
  have noTime :
      strays (sampleText "4" "10" "reassembly.timeout=\"0s\"")
        ⟨.replicate 10 0, 0, [], []⟩ = true := by
    decide +kernel
  have beyondClock :
      strays (sampleText "4" "10"
        "reassembly.timeout=\"9223372036854775807s\"")
          ⟨.replicate 10 0, Duration.perSecond, [], []⟩ = true := by
    decide +kernel
  exact ⟨not_alwaysDelivers misread, not_alwaysDelivers incomplete,
    not_alwaysDelivers_of_cutsShort isCut, not_alwaysDelivers noTime,
    not_alwaysDelivers beyondClock⟩

end Settings

end Load

end PooledPackets
