import PooledPackets.Proofs.Load.Collecting

/-!
# Round trips

A worker that holds nothing sends a datagram and gets it back, or it is told why
not. The reasons can be foretold from the pools, the length of the datagram and
the order of arrival, as long as headers are read as they were written.
-/

namespace PooledPackets.Load

open Operation

theorem forall₂_eraseIdx {α β : Type} {related : α → β → Prop} :
    ∀ {items : List α} {others : List β} (index : Nat),
      List.Forall₂ related items others →
        List.Forall₂ related (items.eraseIdx index) (others.eraseIdx index)
  | _, _, _, .nil => .nil
  | _, _, 0, .cons _ later => later
  | _, _, index + 1, .cons same later =>
      .cons same (forall₂_eraseIdx index later)

theorem rel_getElem? {α β : Type} {related : α → β → Prop} :
    ∀ {items : List α} {others : List β} (index : Nat),
      List.Forall₂ related items others →
        Option.Rel related items[index]? others[index]?
  | _, _, _, .nil => .none
  | _, _, 0, .cons same _ => .some same
  | _, _, index + 1, .cons _ later => rel_getElem? index later

/-- What is arranged does not matter to the order. -/
theorem arrange_forall₂ {α β : Type} {related : α → β → Prop} :
    ∀ (choices : List Nat) {items : List α} {others : List β},
      List.Forall₂ related items others →
        List.Forall₂ related (arrange choices items)
          (arrange choices others)
  | [], _, _, same => same
  | choice :: choices, items, others, same => by
      have chosen := rel_getElem? (choice % items.length) same
      rw [arrange, arrange, ← same.length_eq]
      generalize items[choice % items.length]? = item,
        others[choice % items.length]? = other at chosen
      cases chosen with
      | none => exact same
      | some alike =>
          exact .cons alike
            (arrange_forall₂ choices (forall₂_eraseIdx _ same))

theorem arrange_map {α β : Type} (change : α → β) (choices : List Nat)
    (items : List α) :
    (arrange choices items).map change =
      arrange choices (items.map change) := by
  have mapped : List.Forall₂ (fun item other => change item = other) items
      (items.map change) := by
    rw [List.forall₂_map_right_iff]
    exact List.forall₂_same.mpr fun _ _ => rfl
  have arranged := arrange_forall₂ choices mapped
  rw [← List.forall₂_map_left_iff, List.forall₂_eq_eq_eq] at arranged
  exact arranged

namespace Link

variable {link : Link} {origin : Pools}

/-- A worker between round trips. -/
def idleWorker (link : Link) (origin : Pools) : Worker where
  link := link
  reassembler :=
    ⟨link.receiver, (origin.get link.receiver).config.reassembly, .empty⟩
  arrivals := []

/-- The time that a datagram may take to arrive. -/
def timeout (link : Link) (origin : Pools) : Duration :=
  (origin.get link.receiver).config.reassembly.timeout

/-- Why a payload of some length does not get across while nothing else is in
use. -/
def refusal? (link : Link) (origin : Pools) (len : Nat) :
    Option BufferError :=
  ((origin.get link.sender).shortage? (origin.get link.sender).freeCount
    len).or (link.sendRefusal? origin
      ((origin.get link.sender).freeCount -
        (origin.get link.sender).layout.segmentsFor len)
      (origin.get link.receiver).freeCount len)

/-- Why a payload that has got across is not put together again. -/
def gatherRefusal? (link : Link) (origin : Pools) (datagram : UInt32)
    (len : Nat) (choices : List Nat) : Option BufferError :=
  Extent.gatherRefusal? datagram
    (origin.get link.receiver).config.reassembly
    (link.joinRefusal? origin (link.extents origin len)) []
    (arrange choices (link.extents origin len))

/-- The fragments of a payload of some length are told apart at the other end:
headers are read as they were written, or there is only one fragment. -/
def Preserves (link : Link) (origin : Pools) (len : Nat) : Prop :=
  link.Faithful origin ∨ len ≤ link.portion origin

theorem extents_of_fits {len : Nat} (ready : link.Ready origin)
    (fits : len ≤ link.portion origin) :
    link.extents origin len = [⟨0, len⟩] := by
  have positive := link.portion_pos ready
  have one : max (Layout.portions len (link.portion origin)) 1 = 1 := by
    have few : Layout.portions len (link.portion origin) < 2 := by
      rw [Layout.portions, Nat.div_lt_iff_lt_mul positive]
      omega
    omega
  rw [extents, one]
  simp [Extent.cuts, fits]

/-- Where fragments are told apart their tags are unharmed. -/
theorem Preserves.keeps {len : Nat} (ready : link.Ready origin)
    (preserves : link.Preserves origin len) :
    ∀ extent ∈ link.extents origin len,
      link.Faithful origin ∨ extent.start = 0 := by
  intro extent member
  rcases preserves with faithful | fits
  · exact Or.inl faithful
  · rw [extents_of_fits ready fits] at member
    exact Or.inr (List.mem_singleton.mp member ▸ rfl)

/-- How a round trip of a worker that held nothing may end: the result, the
worker and the pools afterwards. -/
inductive Trips (link : Link) (origin : Pools) (round : Round) :
    Except BufferError (Packet × Nat) → Worker → Pools → Prop
  | unsent {error : BufferError} {arrivals : List Packet} {after : Pools}
      (refused : link.refusal? origin round.payload.length = some error)
      (consistent : after.Consistent origin .never arrivals) :
      Trips link origin round (.error error)
        { link.idleWorker origin with arrivals } after
  | ungathered {error : BufferError} {reassembler : Reassembler}
      {after : Pools}
      (sent : link.refusal? origin round.payload.length = none)
      (refused : error.ofGathering = true)
      (foretold : link.Preserves origin round.payload.length →
        ∃ datagram, link.gatherRefusal? origin datagram
          round.payload.length round.choices = some error)
      (pool_eq : reassembler.pool = link.receiver)
      (limits_eq : reassembler.limits =
        (origin.get link.receiver).config.reassembly)
      (consistent : after.Consistent origin .never reassembler.fragments) :
      Trips link origin round (.error error)
        { link.idleWorker origin with reassembler } after
  | received {packet : Packet} {reassembler : Reassembler} {after : Pools}
      (sent : link.refusal? origin round.payload.length = none)
      (pool_eq : packet.pool = link.receiver)
      (foretold : link.Preserves origin round.payload.length →
        packet.toBytes = round.payload ∧
        { link.idleWorker origin with reassembler } =
          link.idleWorker origin ∧
        ∃ datagram, link.gatherRefusal? origin datagram
          round.payload.length round.choices = none)
      (consistent : after.Consistent origin .never
        (reassembler.fragments ++ [packet])) :
      Trips link origin round
        (.ok (packet, (link.extents origin round.payload.length).length))
        { link.idleWorker origin with reassembler } after

end Link

section Trip

variable {link : Link} {origin pools : Pools} {round : Round}

section Collecting

variable {source : Packet} {datagram : UInt32} {arrivals : List Packet}

theorem parts_of_carried {extents : List Extent}
    (carried : List.Forall₂ (link.Carries origin source.toBytes datagram)
      extents arrivals) :
    ∀ arrival ∈ arrivals, arrival.PartOf link.receiver
      (link.numbered origin datagram).toNat := by
  intro arrival member
  obtain ⟨extent, _, carries⟩ :=
    Link.exists_of_carried carried arrival member
  obtain ⟨tag, tagged, isNumber⟩ := carries.tag_eq
  exact ⟨carries.pool_eq, carries.held, tag, tagged,
    congrArg UInt32.toNat isNumber⟩

theorem serves_idleWorker (ready : link.Ready origin) (number : Nat) :
    (link.idleWorker origin).reassembler.Serves link.receiver
      (origin.get link.receiver).config.reassembly number :=
  Reassembler.serves_empty ready.maxDatagrams_pos number

/-- In whatever order packets are taken up, no others are live. -/
theorem consistent_arranged
    (consistent : pools.Consistent origin .never arrivals)
    (choices : List Nat) :
    pools.Consistent origin .never (arrange choices arrivals ++
      ((link.idleWorker origin).reassembler.fragments ++ [])) :=
  consistent.perm ((arrange_perm choices arrivals).symm.trans
    (List.Perm.of_eq (List.append_nil _).symm))

/-- What has arrived unharmed is collected as foretold. -/
theorem collect_foretold (ready : link.Ready origin)
    (consistent : pools.Consistent origin .never arrivals)
    (sound : source.Sound)
    (carried : List.Forall₂ (link.Carries origin source.toBytes datagram)
      (link.extents origin source.length) arrivals)
    (passes : ∀ extent ∈ link.extents origin source.length,
      link.Passes origin extent)
    (preserves : link.Preserves origin source.length) (now : Nat)
    (choices : List Nat) :
    (collect now (link.idleWorker origin).reassembler none
      (arrange choices arrivals) pools).Satisfies
        (fun result _ => (link.division origin source.toBytes
          datagram).Gathered (link.gatherRefusal? origin
            (link.numbered origin datagram) source.length choices) result)
        (fun _ _ => False) (fun _ => True) := by
  have anyOrder := arrange_perm choices arrivals
  have underway := underway_fragmenter ready sound datagram
  have keeps := preserves.keeps ready
  obtain ⟨areAll, areExtents⟩ := Link.pieces_of_carried underway rfl rfl
    carried (fun arrival member => consistent.kept arrival member)
    (fun extent member => ⟨passes extent member, keeps extent member⟩)
  have nonempty : arrange choices arrivals ≠ [] := by
    intro nothing
    rw [nothing] at anyOrder
    rw [← List.Perm.nil_eq anyOrder] at areAll
    cases areAll
  cases reading : (link.timeout origin).after? now with
  | none =>
      obtain ⟨first, rest, isCons⟩ := List.exists_cons_of_ne_nil nonempty
      rw [isCons]
      exact (Pools.Consistent.collect_of_unread reading).monoDone
        fun _ _ impossible => impossible.elim
  | some deadline =>
      have foretold := Pools.Consistent.collect_gathers areAll reading
        (parts_of_carried carried) (consistent_arranged consistent choices)
        (serves_idleWorker ready _) (Reassembler.gathers_nothing rfl
          ready.maxDatagrams_pos) anyOrder.symm nonempty
      have alone : pools.Consistent origin .never (arrivals ++ []) := by
        rw [List.append_nil]
        exact consistent
      have within := underway.within_of_mem rfl
      rw [Link.refusal?_of_carried alone carried within passes areExtents,
        arrange_map, areExtents] at foretold
      exact foretold

/-- What has arrived is collected, as foretold if it is unharmed. -/
theorem collect_carried (ready : link.Ready origin)
    (consistent : pools.Consistent origin .never arrivals)
    (sound : source.Sound)
    (carried : List.Forall₂ (link.Carries origin source.toBytes datagram)
      (link.extents origin source.length) arrivals)
    (passes : ∀ extent ∈ link.extents origin source.length,
      link.Passes origin extent) (now : Nat) (choices : List Nat) :
    (collect now (link.idleWorker origin).reassembler none
      (arrange choices arrivals) pools).Satisfies
        (fun result after =>
          (result.2.Serves link.receiver
              (origin.get link.receiver).config.reassembly
                (link.numbered origin datagram).toNat ∧
            match result.1 with
            | .ok received => (∀ packet ∈ received,
                packet.pool = link.receiver) ∧
                after.Consistent origin .never
                  (result.2.fragments ++ received.toList)
            | .error error => error.ofGathering = true ∧
                after.Consistent origin .never result.2.fragments) ∧
          (link.Preserves origin source.length →
            (link.division origin source.toBytes datagram).Gathered
              (link.gatherRefusal? origin (link.numbered origin datagram)
                source.length choices) result))
        (fun _ _ => False)
        (fun stop => stop = .outOfRange ∧
          (link.timeout origin).after? now = none) := by
  have anyOrder := arrange_perm choices arrivals
  have parts := parts_of_carried carried
  have nothingYet : ∀ packet ∈ (none : Option Packet),
      packet.pool = link.receiver := by
    simp
  have kept := Pools.Consistent.collect_serves now
    (consistent_arranged consistent choices) (serves_idleWorker ready _)
    (fun arrival member => parts arrival (anyOrder.mem_iff.mp member))
    nothingYet
  by_cases preserves : link.Preserves origin source.length
  · exact (kept.and (collect_foretold ready consistent sound carried passes
      preserves now choices)).mono
        (fun _ _ known => ⟨known.1, fun _ => known.2⟩)
        (fun _ _ impossible => impossible.1) (fun _ known => known)
  · exact kept.monoDone fun _ _ known =>
      ⟨known, fun preserved => absurd preserved preserves⟩

end Collecting

theorem passes_of_sendRefusal? {here there len : Nat}
    (sent : link.sendRefusal? origin here there len = none) :
    ∀ extent ∈ link.extents origin len, link.Passes origin extent := by
  unfold Link.sendRefusal? at sent
  split at sent
  · cases sent
  · exact Link.passes_of_obstacle? sent

/-- A packet is filled with the payload, or that is what is in the way. Once it
is filled, what is in the way of its fragments is all that is in the way. -/
theorem packetFrom_fills (ready : link.Ready origin)
    (idle : pools.Consistent origin .never []) (payload : Bytes) :
    (Pool.packetFrom link.sender payload pools).Satisfies
      (fun source after => after.Consistent origin .never [source] ∧
        source.chain ≠ [] ∧ source.toBytes = payload ∧
        link.refusal? origin payload.length = link.sendRefusal? origin
          (after.get link.sender).freeCount
            (after.get link.receiver).freeCount payload.length)
      (fun error after => after.Consistent origin .never [] ∧
        link.refusal? origin payload.length = some error)
      (fun _ => False) := by
  have free : ∀ id,
      (pools.get id).freeCount = (origin.get id).freeCount := by
    have untouched : origin.Consistent origin .never [] :=
      ⟨ready.balanced, by simp⟩
    exact untouched.freeCount_congr idle
  apply (idle.allocateWith_costs link.sender (Nat.le_of_eq
    (congrArg List.length
      (List.flatten_singleton (l := payload))))).mono
  · rintro source after ⟨consistent, made, affordable⟩
    have isPayload : source.toBytes = payload :=
      made.filled.spelled.trans List.flatten_singleton
    have fewerHere := idle.freeCount_cons consistent link.sender
    rw [Pool.taken, if_pos made.filled.pool_eq, made.size_eq, free]
      at fewerHere
    have sameThere := idle.freeCount_cons consistent link.receiver
    rw [Pool.taken, made.filled.pool_eq, if_neg ready.apart,
      Nat.add_zero, free] at sameThere
    refine ⟨consistent, made.filled.held, isPayload, ?_⟩
    rw [Link.refusal?, ← free link.sender, affordable, free, ← fewerHere,
      Nat.add_sub_cancel, sameThere]
    rfl
  · rintro error after ⟨consistent, short, _⟩
    refine ⟨consistent, ?_⟩
    rw [Link.refusal?, ← free, short]
    rfl
  · exact fun _ impossible => impossible

/-- How a round trip ends whose fragments, so many of them, were collected. -/
def Link.ending (link : Link) (origin : Pools) (count : Nat) :
    Reassembler.Acceptance → Except BufferError (Packet × Nat) × Worker
  | (.error error, reassembler) =>
      (.error error, { link.idleWorker origin with reassembler })
  | (.ok none, reassembler) =>
      (.error (.reassemblyTimeout 0),
        { link.idleWorker origin with reassembler })
  | (.ok (some packet), reassembler) =>
      (.ok (packet, count), { link.idleWorker origin with reassembler })

/-- A round trip ends as soon as something is in the way. If nothing is, it ends
as the fragments are collected. -/
theorem roundTrip_satisfies
    {done : Except BufferError (Packet × Nat) × Worker → Pools → Prop}
    {stopped : Stop → Prop} (ready : link.Ready origin)
    (idle : pools.Consistent origin .never []) (round : Round)
    (unsent : ∀ {error : BufferError} {arrivals : List Packet}
        {after : Pools},
      link.refusal? origin round.payload.length = some error →
      after.Consistent origin .never arrivals →
      done (.error error, { link.idleWorker origin with arrivals }) after)
    (sent : ∀ {source : Packet} {datagram : UInt32}
        {arrivals : List Packet} {after : Pools},
      link.refusal? origin round.payload.length = none →
      after.Consistent origin .never arrivals →
      source.Sound → source.toBytes = round.payload →
      source.length = round.payload.length →
      List.Forall₂ (link.Carries origin source.toBytes datagram)
        (link.extents origin source.length) arrivals →
      (∀ extent ∈ link.extents origin source.length,
        link.Passes origin extent) →
      (collect round.now (link.idleWorker origin).reassembler none
        (arrange round.choices arrivals) after).Satisfies
          (fun result last =>
            done (link.ending origin arrivals.length result) last)
          (fun _ _ => False) stopped) :
    ((link.idleWorker origin).roundTrip round pools).Satisfies
      done (fun _ _ => False) stopped := by
  apply Outcome.Satisfies.bind
    (packetFrom_fills ready idle round.payload).attempt.alwaysDone
  intro result stocked known
  cases result with
  | error error => exact Outcome.Satisfies.pure (unsent known.2 known.1)
  | ok source =>
      obtain ⟨consistentSource, held, isPayload, isRefusal⟩ := known
      have noneHeld : stocked.Consistent origin .never
          ((link.idleWorker origin).arrivals ++ [source]) :=
        consistentSource
      apply Outcome.Satisfies.bind
        noneHeld.dropAll_satisfies.returned.alwaysDone
      intro _ clear consistentClear
      have sound : source.Sound :=
        consistentClear.kept source (List.mem_singleton_self _)
      have isLength : source.length = round.payload.length := by
        rw [← sound.length_toBytes, isPayload]
      apply Outcome.Satisfies.bind
        (send_satisfies ready consistentClear held).alwaysDone
      rintro ⟨arrivals, reason⟩ after ⟨consistent, isReason, carried⟩
      dsimp only at consistent isReason carried
      rw [List.append_nil] at consistent
      have sameFree := consistentSource.freeCount_congr consistentClear
      have isRefused :
          link.refusal? origin round.payload.length = reason := by
        rw [isReason, isRefusal, isLength, sameFree, sameFree]
      match reason with
      | some error =>
          exact Outcome.Satisfies.pure (unsent isRefused consistent)
      | none =>
          obtain ⟨datagram, isCarried⟩ := carried rfl
          apply Outcome.Satisfies.bind (sent isRefused consistent sound
            isPayload isLength isCarried
              (passes_of_sendRefusal? isReason.symm))
          rintro ⟨answer, reassembler⟩ last known
          match answer with
          | .error error => exact Outcome.Satisfies.pure known
          | .ok none => exact Outcome.Satisfies.pure known
          | .ok (some packet) => exact Outcome.Satisfies.pure known

/-- A round trip ends in one of these ways, unless the clock cannot show the
deadline. -/
theorem roundTrip_trips (ready : link.Ready origin)
    (idle : pools.Consistent origin .never []) (round : Round) :
    ((link.idleWorker origin).roundTrip round pools).Satisfies
      (fun result after => link.Trips origin round result.1 result.2 after)
      (fun _ _ => False)
      (fun stop => stop = .outOfRange ∧
        (link.timeout origin).after? round.now = none) := by
  apply roundTrip_satisfies ready idle round
  · exact fun refused consistent => .unsent refused consistent
  · intro source datagram arrivals after sent consistent sound isPayload
      isLength carried passes
    apply (collect_carried ready consistent sound carried passes round.now
      round.choices).monoDone
    rintro ⟨answer, reassembler⟩ last ⟨⟨serves, kept⟩, gathered⟩
    rw [isLength, isPayload] at gathered
    match answer with
    | .error error =>
        exact .ungathered sent kept.1
          (fun preserves => ⟨_, gathered preserves⟩) serves.pool_eq
          serves.limits_eq kept.2
    | .ok none =>
        have nothingElse := kept.2
        rw [Option.toList_none, List.append_nil] at nothingElse
        exact .ungathered sent rfl
          (fun preserves => (gathered preserves).elim) serves.pool_eq
          serves.limits_eq nothingElse
    | .ok (some packet) =>
        have counted := carried.length_eq
        rw [isLength] at counted
        dsimp only [Link.ending]
        rw [← counted]
        refine .received sent (kept.1 packet rfl) ?_ kept.2
        intro preserves
        obtain ⟨foretold, intact, absent⟩ := gathered preserves
        have isEmpty := serves.eq_empty absent
        dsimp only at isEmpty
        refine ⟨intact, ?_, _, foretold⟩
        rw [isEmpty]
        rfl

end Trip

end PooledPackets.Load
