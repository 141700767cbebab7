import PooledPackets.Proofs.Contents.Ledger
import PooledPackets.Proofs.Sessions.Lending

/-!
# Commands and the ledger

After every command that neither exchanges segments nor writes over payload
the packets of a session are what the ledger says, and only the packets in the
slots that the command reaches can be others than before.
-/

namespace PooledPackets

/-- The slots whose packets a command hands over, whatever comes of them. -/
def Command.given : Command → List Nat
  | .push _ source _ _ => [source]
  | .reassemble _ arrivals _ _ _ => arrivals.map Prod.snd
  | _ => []

/-- Whether a reply says that nothing came of a command. -/
def Reply.isRefusal : Reply → Bool
  | .lent => true
  | .refused _ => true
  | .pushed _ (.error _) => true
  | .fragment (some (.error _)) => true
  | _ => false

/-- Whether the packet in a slot can be another one after a command. -/
def Command.reaches (command : Command) (reply : Reply) (slot : Nat) : Prop :=
  (slot ∈ command.given ∧ reply ≠ .lent) ∨
    (reply.isRefusal = false ∧ command.changes slot = true)

/-- The packets in slots are what a ledger says. Against an earlier session only
the slots reached have changed. -/
structure Ledger.Tracks (ledger : Ledger) (session : Session)
    (reached : Nat → Prop) (after : Session) : Prop extends
    ledger.Covers after where
  spares : ∀ slot, ¬reached slot →
    after.packets.get? slot = session.packets.get? slot

namespace Ledger.Tracks

variable {ledger : Ledger} {session after : Session}
variable {reached further : Nat → Prop} {slot : Nat} {packet : Packet}
variable {history : History}

theorem of_same (covers : ledger.Covers session)
    (samePackets : after.packets = session.packets) :
    ledger.Tracks session reached after where
  packets := by
    rw [samePackets]
    exact covers.packets
  spares := fun _ _ => by rw [samePackets]

theorem refl (covers : ledger.Covers session) :
    ledger.Tracks session reached session :=
  of_same covers rfl

theorem withPools (tracks : ledger.Tracks session reached after)
    (pools : Pools) :
    ledger.Tracks session reached (after.withPools pools) :=
  ⟨⟨tracks.packets⟩, tracks.spares⟩

theorem mono (tracks : ledger.Tracks session reached after)
    (wider : ∀ slot, reached slot → further slot) :
    ledger.Tracks session further after where
  toCovers := tracks.toCovers
  spares := fun slot spared =>
    tracks.spares slot fun isReached => spared (wider slot isReached)

theorem vacated (tracks : ledger.Tracks session reached after)
    (isReached : reached slot) :
    ledger.Tracks session reached (after.vacated slot) where
  toCovers := tracks.toCovers.vacated slot
  spares := fun other spared => by
    have different : other ≠ slot := by
      rintro rfl
      exact spared isReached
    rw [Session.vacated, Table.get?_erase, if_neg different]
    exact tracks.spares other spared

theorem vacatedAll :
    ∀ {slots : List Nat} {after : Session},
      ledger.Tracks session reached after →
      (∀ slot ∈ slots, reached slot) →
      ledger.Tracks session reached (after.vacatedAll slots)
  | [], _, tracks, _ => tracks
  | first :: rest, after, tracks, areReached => by
      have vacatedFirst := tracks.vacated
        (areReached first (List.mem_cons_self ..))
      have areReachedRest : ∀ slot ∈ rest, reached slot :=
        fun slot member => areReached slot (.tail _ member)
      have vacatedRest := vacatedAll vacatedFirst areReachedRest
      exact vacatedRest

theorem spares_filed (tracks : ledger.Tracks session reached after)
    (isReached : reached slot) (packet : Packet) {other : Nat}
    (spared : ¬reached other) :
    (after.filed slot packet).packets.get? other =
      session.packets.get? other := by
  have different : other ≠ slot := by
    rintro rfl
    exact spared isReached
  rw [Session.filed, Table.get?_insert, if_neg different]
  exact tracks.spares other spared

theorem filed (tracks : ledger.Tracks session reached after)
    (isReached : reached slot) (told : packet.Matches history) :
    (ledger.file slot history).Tracks session reached
      (after.filed slot packet) where
  toCovers := tracks.toCovers.filed slot told
  spares := fun _ => tracks.spares_filed isReached packet

theorem refiled (tracks : ledger.Tracks session reached after)
    (isReached : reached slot)
    (told : packet.Matches (ledger.packets slot)) :
    ledger.Tracks session reached (after.filed slot packet) where
  toCovers := tracks.toCovers.refiled told
  spares := fun _ => tracks.spares_filed isReached packet

theorem attended (tracks : ledger.Tracks session reached after)
    (index : Nat) (reassembler : Reassembler) :
    ledger.Tracks session reached (after.attended index reassembler) :=
  ⟨⟨tracks.packets⟩, tracks.spares⟩

theorem walking (tracks : ledger.Tracks session reached after)
    (index : Nat) (walk : Walk) :
    ledger.Tracks session reached (after.walking index walk) :=
  ⟨⟨tracks.packets⟩, tracks.spares⟩

end Ledger.Tracks

namespace Session

/-- Whatever the reply to a step is, a ledger that goes with the reply tracks
what became of the session. -/
def Tells (told : Reply → Ledger) (session : Session)
    (reached : Reply → Nat → Prop) (step : SessionStep Reply)
    (now : Session) : Prop :=
  SessionStep.Satisfies step now
    (fun reply after => (told reply).Tracks session (reached reply) after)
    (fun _ => True)

variable {session now : Session} {told : Reply → Ledger}
variable {reached : Reply → Nat → Prop} {slot : Nat} {ledger : Ledger}

/-! ## The parts of commands -/

theorem withPool_tells {id : PoolId} {next : SessionStep Reply}
    (absent : (told .noSuchPool).Tracks session (reached .noSuchPool) now)
    (goesOn : Tells told session reached next now) :
    Tells told session reached (withPool id next) now :=
  SessionStep.Satisfies.get (SessionStep.Satisfies.ite
    (fun _ => goesOn) (fun _ => absent))

theorem withPacket_tells {next : Packet → SessionStep Reply}
    (absent : (told .noSuchSlot).Tracks session (reached .noSuchSlot) now)
    (goesOn : ∀ packet, now.packets.get? slot = some packet →
      Tells told session reached (next packet) now) :
    Tells told session reached (withPacket slot next) now := by
  apply SessionStep.Satisfies.get
  cases found : now.packets.get? slot with
  | none => exact absent
  | some packet => exact goesOn packet found

theorem withWalk_tells {index : Nat} {next : Walk → SessionStep Reply}
    (absent : (told .noSuchWalk).Tracks session (reached .noSuchWalk) now)
    (goesOn : ∀ walk, now.walk? index = some walk →
      Tells told session reached (next walk) now) :
    Tells told session reached (withWalk index next) now := by
  apply SessionStep.Satisfies.get
  cases found : now.walk? index with
  | none => exact absent
  | some walk => exact goesOn walk found

theorem breakOff_tells (stop : Stop) :
    Tells told session reached (breakOff stop) now := by
  obtain ⟨ended, broken⟩ := exists_breakOff_eq (α := Reply) stop now
  simp [Tells, SessionStep.Satisfies, broken]

theorem keepResult_tells {operation : Operation Packet}
    {matching : Packet → Prop}
    (contract : (operation now.pools).Satisfies
      (fun packet _ => matching packet) (fun _ _ => True) (fun _ => True))
    (refused : ∀ error,
      (told (.refused error)).Tracks session (reached (.refused error)) now)
    (made : ∀ packet, matching packet →
      (told (.packet packet)).Tracks session (reached (.packet packet))
        (now.filed slot packet)) :
    Tells told session reached (keepResult slot operation) now := by
  apply SessionStep.Satisfies.bind (perform_leaves contract)
  rintro result _ ⟨pools, rfl, known⟩
  cases result with
  | error error => exact (refused error).withPools pools
  | ok packet =>
      apply SessionStep.Satisfies.bind (keep_leaves slot packet _)
      rintro _ _ ⟨last, rfl⟩
      exact (made packet known).withPools last

theorem updateResult_tells {operation : Operation Packet}
    {reply : Packet → Reply} {matching : Packet → Prop}
    (contract : (operation now.pools).Satisfies
      (fun packet _ => matching packet) (fun _ _ => True) (fun _ => True))
    (refused : ∀ error,
      (told (.refused error)).Tracks session (reached (.refused error)) now)
    (made : ∀ packet, matching packet →
      (told (reply packet)).Tracks session (reached (reply packet))
        (now.filed slot packet)) :
    Tells told session reached (updateResult slot operation reply) now := by
  apply SessionStep.Satisfies.bind (perform_leaves contract)
  rintro result _ ⟨pools, rfl, known⟩
  cases result with
  | error error => exact (refused error).withPools pools
  | ok packet => exact (made packet known).withPools pools

/-! ## Splitting packets -/

variable {origin : Pools} {walk : Walk} {index : Nat}

/-- What is known of the packet that a walk splits when its next fragment is
made. -/
theorem made_of_next {item : Option (Except BufferError Packet)}
    {fragmenter : Fragmenter} {pools : Pools}
    (owns : session.Owns origin .never [])
    (found : session.walk? index = some walk)
    (answered : walk.fragmenter.next session.pools =
      .done (item, fragmenter) pools) :
    (∀ error, item = some (.error error) →
      fragmenter = { walk.fragmenter with stalled := true }) ∧
    ∀ fragment, item = some (.ok fragment) →
      fragmenter = walk.fragmenter.advance walk.fragmenter.nextLength ∧
      walk.fragmenter.Makes .never
        (session.pools.get walk.fragmenter.pool).layout fragment := by
  have isSource := (walk?_eq_some_iff.mp found).1
  have kept := owns.kept _ (mem_live_of_packet isSource)
  have known := (Pools.Consistent.next_satisfies owns kept).of_done answered
  constructor
  · rintro error rfl
    exact known.2.2
  · rintro fragment rfl
    exact known.2.2

variable {base : Session} {marked : Nat → Prop} {source : History}

/-- Fragments are filed one after the other in slots that are free, each with
its piece of the packet that is being split. -/
theorem collectFragments_tracks :
    ∀ {max slot : Nat} {session : Session} {ledger : Ledger} {walk : Walk},
      session.Owns origin .never [] → session.walk? index = some walk →
      walk.fragmenter.source.Matches source →
      ledger.Tracks base marked session →
      (∀ place, slot ≤ place → place < slot + max →
        session.Free place ∧ marked place) →
      SessionStep.Satisfies (collectFragments index slot max) session
        (fun results after =>
          (ledger.filePieces source walk.fragmenter results).Tracks base
            marked after) (fun _ => True)
  | 0, _, _, _, _, _, _, _, tracks, _ => tracks
  | max + 1, slot, session, ledger, walk, owns, found, told, tracks,
      inRange => by
      have keepsOwning : SessionStep.Satisfies (nextFragment index slot)
          session (fun _ after => after.Owns origin .never [])
          (fun _ => True) :=
        (nextFragment_satisfies owns).mono (fun _ _ known => known)
          (fun _ _ => trivial)
      apply SessionStep.Satisfies.bind (keepsOwning.and nextFragment_leaves)
      intro reply after known
      obtain ⟨ownsAfter, effect⟩ := known
      have later : ∀ {start : Nat}, slot ≤ start →
          start + max ≤ slot + (max + 1) → ∀ place, start ≤ place →
          place < start + max → after.Free place ∧ marked place := by
        intro start above below place isAbove isBelow
        have before := inRange place (by omega) (by omega)
        exact ⟨effect.free before.1, before.2⟩
      cases effect with
      | idle absent => simp [found] at absent
      | @moved begun item fragmenter pools isThere answered last =>
          rw [found] at isThere
          cases isThere
          obtain ⟨stalls, makes⟩ := made_of_next owns found answered
          have first := inRange slot (Nat.le_refl _) (by omega)
          -- The walk moves along with each fragment, over the same packet.
          have sameSource :=
            (walk.fragmenter.next_source_eq _).of_done answered
          have goesOn := walk?_moved first.1 found sameSource item last
          match item with
          | none => exact (tracks.walking index _).withPools last
          | some (.error error) =>
              cases stalls error rfl
              apply SessionStep.Satisfies.bind (collectFragments_tracks
                ownsAfter goesOn told
                ((tracks.walking index _).withPools last)
                (later (by omega) (by omega)))
              exact fun _ _ known => known
          | some (.ok fragment) =>
              obtain ⟨rfl, isPiece⟩ := makes fragment rfl
              have piece := isPiece.matches told
              apply SessionStep.Satisfies.bind (collectFragments_tracks
                ownsAfter goesOn told
                (((tracks.walking index _).filed first.2 piece).withPools
                  last) (later (by omega) (by omega)))
              exact fun _ _ known => known

variable (covers : ledger.Covers session)
variable (owns : session.Owns origin .never [])
include covers owns

theorem nextFragment_tells (index slot : Nat) :
    Tells (ledger.told session (.nextFragment index slot)) session
      (Command.reaches (.nextFragment index slot)) (nextFragment index slot)
      session := by
  apply nextFragment_leaves.monoDone
  intro reply after effect
  cases effect with
  | idle _ => exact .refl covers
  | @moved walk item fragmenter pools found answered last =>
      have moving : ∀ reply, ledger.Tracks session
          (Command.reaches (.nextFragment index slot) reply)
          (session.walking index { walk with fragmenter }) :=
        fun _ => (Ledger.Tracks.refl covers).walking index _
      match item with
      | none => exact (moving _).withPools last
      | some (.error error) => exact (moving _).withPools last
      | some (.ok fragment) =>
          have makes := ((made_of_next owns found answered).2 _ rfl).2
          have isReached : Command.reaches (.nextFragment index slot)
              (.fragment (some (.ok fragment))) slot :=
            Or.inr ⟨rfl, by simp [Command.changes]⟩
          have filed := (moving _).filed isReached
            (makes.matches (covers.matches_source found))
          change (ledger.split session index
            [.ok (slot, fragment)]).Tracks _ _ _
          rw [ledger.split_eq found]
          exact filed.withPools last

theorem collectFragments_tells {slot max : Nat}
    (isFree : session.lends (.collectFragments index slot max) = false) :
    Tells (ledger.told session (.collectFragments index slot max)) session
      (Command.reaches (.collectFragments index slot max))
      (carryOut (.collectFragments index slot max)) session := by
  apply withWalk_tells (.refl covers)
  intro walk found
  have unchanged : ledger.Tracks session
      (fun place => slot ≤ place ∧ place < slot + max) session :=
    .refl covers
  apply SessionStep.Satisfies.bind (collectFragments_tracks owns found
    (covers.matches_source found) unchanged fun place above below =>
      ⟨free_of_collecting isFree place above below, above, below⟩)
  intro results after tracks
  change (ledger.split session index results).Tracks _ _ _
  rw [ledger.split_eq found]
  apply tracks.mono
  intro place inRange
  exact Or.inr ⟨rfl, by simp [Command.changes, inRange]⟩

theorem beginWalk_tells (pool : PoolId) (slot mtu index : Nat) :
    Tells (ledger.told session (.beginWalk pool slot mtu index)) session
      (Command.reaches (.beginWalk pool slot mtu index))
      (beginWalk pool slot mtu index) session := by
  apply withPool_tells (.refl covers)
  apply withPacket_tells (.refl covers)
  intro packet found
  have split := owns.perm (live_perm_of_packet found)
  apply SessionStep.Satisfies.bind
    (perform_leaves (split.fragmentForLink_satisfies pool packet mtu))
  intro result _ ending
  obtain ⟨pools, rfl, known⟩ := ending
  cases result with
  | error error => exact (Ledger.Tracks.refl covers).withPools pools
  | ok fragmenter =>
      have walking : ledger.Tracks session
          (Command.reaches (.beginWalk pool slot mtu index)
            (.walk fragmenter))
          (session.walking index ⟨slot, fragmenter⟩) :=
        (Ledger.Tracks.refl covers).walking index _
      exact walking.withPools pools

end Session

end PooledPackets
