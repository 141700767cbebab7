import PooledPackets.Proofs.Contents.Runs

/-!
# Fragments have segments

A packet that is released loses its tag, so a fragment always has segments. To
see this a new ledger is opened before each step: what it says of the packets
after the step does not depend on what happened before.
-/

namespace PooledPackets

universe u v

namespace Table

variable {α : Type u} {β : Type v}

/-- The table with something read off each value. -/
def mapValues (table : Table α) (read : α → β) : Table β where
  entries := table.entries.map (Prod.map id read)
  ascending := List.pairwise_map.mpr table.ascending

theorem related_mapValues {related : α → β → Prop} {table : Table α}
    {read : α → β} (holds : ∀ value ∈ table.values, related value (read value)) :
    table.Related related (table.mapValues read) := by
  rw [Related, mapValues, List.forall₂_map_right_iff, List.forall₂_same]
  intro entry member
  exact ⟨rfl, holds entry.2 (List.mem_map_of_mem member)⟩

end Table

namespace Packet

variable {packet : Packet}

/-- A fragment has segments. -/
def Solid (packet : Packet) : Prop :=
  ∀ tag, packet.tag = some tag → packet.chain ≠ []

theorem Matches.solid {history : History}
    (told : packet.Matches history) : packet.Solid :=
  fun _ tagged => told.held_of_tag tagged

/-- What may have happened to a packet, told from the packet itself. -/
def history (packet : Packet) : History :=
  if packet.isReleased then .released
  else .made packet.toBytes packet.tag

theorem Solid.matches (solid : packet.Solid) :
    packet.Matches packet.history := by
  rw [history]
  cases isReleased : packet.isReleased with
  | true =>
      have nothing : packet.chain = [] := List.isEmpty_iff.mp isReleased
      refine ⟨?_, ?_, isReleased⟩
      · rw [toBytes, nothing]
        rfl
      · cases tagged : packet.tag with
        | none => rfl
        | some tag => exact absurd nothing (solid tag tagged)
  | false => exact .made (isReleased_eq_false_iff.mp isReleased) rfl rfl

theorem Solid.writeZone (solid : packet.Solid) (zone : Zone)
    (only : Option Nat) (bytes : Bytes) :
    (packet.writeZone zone only bytes).Solid := by
  intro tag tagged
  have held := solid tag tagged
  rw [← List.length_pos_iff] at held ⊢
  rw [Packet.writeZone, List.length_mapIdx]
  exact held

end Packet

namespace Reassembler

theorem values_heldFor (reassembler : Reassembler) (datagram : Nat) :
    (reassembler.heldFor datagram).values =
      reassembler.fragmentsFor datagram := by
  rw [heldFor, fragmentsFor]
  cases reassembler.pending.get? datagram with
  | none => rfl
  | some assembly => rfl

end Reassembler

namespace Session

variable {session after : Session} {origin : Pools} {configs : List Config}
variable {command : Command} {reply : Reply}

/-- All fragments of a session have segments. -/
def Solid (session : Session) : Prop :=
  ∀ packet ∈ session.live, packet.Solid

/-- A ledger that begins with a session as it is. -/
def opening (session : Session) : Ledger where
  packets slot := (session.packets.get? slot).elim .released Packet.history
  held index datagram :=
    (session.reassemblers.get? index).elim .empty fun reassembler =>
      (reassembler.heldFor datagram).mapValues Packet.history

theorem Solid.opening_describes (solid : session.Solid) :
    session.opening.Describes session where
  packets slot packet found := by
    have isLive := mem_live_of_packet found
    simp only [opening, found, Option.elim_some]
    exact (solid packet isLive).matches
  held index reassembler found datagram := by
    simp only [opening, found, Option.elim_some]
    apply Table.related_mapValues
    intro fragment member
    apply Packet.Solid.matches
    apply solid
    rw [reassembler.values_heldFor datagram] at member
    exact (live_perm_of_reassembler found).mem_iff.mpr
      (List.mem_append_left _ (reassembler.fragmentsFor_subset _ member))

/-- Writing into the zones of a packet does not take its segments. -/
theorem Solid.writeZone {slot : Nat} {zone : Packet.Zone}
    {only : Option Nat} {bytes : Bytes} (solid : session.Solid) :
    SessionStep.Satisfies (carryOut (.writeZone slot zone only bytes)) session
      (fun _ after => after.Solid) (fun _ => True) := by
  apply SessionStep.Satisfies.get
  cases found : session.packets.get? slot with
  | none => exact solid
  | some packet =>
      have split := live_perm_of_packet found
      have isSolid := solid packet
        (split.mem_iff.mpr (List.mem_cons_self ..))
      intro other member
      rcases List.mem_cons.mp
          ((live_filed_perm session slot _).mem_iff.mp member) with
        rfl | isOther
      · exact isSolid.writeZone zone only bytes
      · exact solid other (split.mem_iff.mpr (.tail _ isOther))

theorem Solid.step (solid : session.Solid)
    (owns : session.Owns origin .never [])
    (accounted : session.Accounted origin)
    (faithful : command.exchanges = false)
    (stepped : session.step command = .ok (reply, after)) :
    after.Solid := by
  cases meddles : command.meddles with
  | false =>
      obtain ⟨describes, spares⟩ := step_describes solid.opening_describes
        owns accounted meddles stepped
      intro packet member
      rcases spares.live packet member with wasLive | ⟨slot, _, found⟩
      · exact solid packet wasLive
      · exact (describes.packets slot packet found).solid
  | true =>
      cases command with
      | writeZone slot zone only bytes =>
          exact (step_keeps solid solid.writeZone).of_ok stepped
      | swapFirst first second => cases faithful
      | _ => cases meddles

/-- In every session that is reached without exchanges all fragments have
segments. -/
theorem Reached.solid (reached : session.Reached configs) :
    session.Solid := by
  obtain ⟨few, commands, faithful, ran⟩ := reached
  have all : session.Solid ∧
      session.Owns (Pools.ofConfigs configs) .never [] ∧
      session.Accounted (Pools.ofConfigs configs) := by
    apply runAll_keeps ?_ ?_ faithful ran
    · intro command session after reply isFaithful before stepped
      obtain ⟨solid, owns, accounted⟩ := before
      refine ⟨solid.step owns accounted isFaithful stepped, ?_, ?_⟩
      · exact (step_keeps owns
          (carryOut_satisfies owns (by simp [isFaithful]))).of_ok stepped
      · exact (step_keeps accounted
          (carryOut_accounted accounted owns)).of_ok stepped
    · refine ⟨?_, start_owns few .never, ?_⟩
      · intro packet member
        simp [live, start, Table.values, Table.empty] at member
      · intro index reassembler found
        simp [start] at found
  exact all.1

end Session

end PooledPackets
