import PooledPackets.Load.Traffic
import PooledPackets.Proofs.Configs.Verdicts
import PooledPackets.Proofs.Ownership.Conservation

/-!
# The pools of a load run

Settings that pass the check may come from a text, which is accepted only with
such settings, or from anywhere else. What the check is for holds of the pools
that are made with them.
-/

namespace PooledPackets

/-- A configuration that is accepted has limits that leave room for a datagram
and for a fragment out of order. -/
theorem Config.limits_of_accepted {config : Config} {layout : Layout}
    (accepted : config.validate = .accepted layout) :
    0 < config.reassembly.holdLimit ∧
      0 < config.reassembly.maxDatagrams := by
  obtain ⟨_, limited, _⟩ := validate_eq_accepted_iff.mp accepted
  exact ⟨limited.holdLimit_pos, limited.maxDatagrams_pos⟩

namespace Load

/-- Two pools at the ends of a link, between which a datagram can be sent: they
are different ones, no segment of them is out, the link carries something, and
what is needed ahead of a payload or to put one together has been provided
for. -/
structure Link.Ready (link : Link) (origin : Pools) : Prop where
  apart : link.sender ≠ link.receiver
  balanced : origin.Balanced origin []
  mtu_pos : 0 < link.mtu
  headerRoom : link.frames = true → FragmentHeader.size ≤
    (origin.get link.sender).layout.headerReserve
  holdLimit_pos :
    0 < (origin.get link.receiver).config.reassembly.holdLimit
  maxDatagrams_pos :
    0 < (origin.get link.receiver).config.reassembly.maxDatagrams

namespace Settings

variable {settings : Settings} {origin : Pools}

theorem check_of_read {text : String}
    (accepted : Settings.read text = .ok settings) :
    settings.check = .ok ⟨⟩ := by
  unfold Settings.read at accepted
  split at accepted
  · cases accepted
  · split at accepted
    · cases accepted
    · rename_i decoded _
      cases checked : decoded.check with
      | error error => simp [checked, bind, Except.bind] at accepted
      | ok _ =>
          simp [checked, bind, Except.bind, pure, Except.pure] at accepted
          rw [← accepted, checked]

theorem layoutOf_eq_ok_iff {config : Config} {layout : Layout} :
    layoutOf config = .ok layout ↔ config.validate = .accepted layout := by
  unfold layoutOf
  cases config.validate with
  | accepted found => simp
  | refused error => simp
  | overflow => simp

theorem mtu_pos_of_objection? (noObjection : settings.objection? = none) :
    0 < settings.workload.mtu := by
  unfold objection? at noObjection
  split at noObjection
  · cases noObjection
  · split at noObjection
    · cases noObjection
    · rename_i someMtu
      exact Nat.pos_of_ne_zero someMtu

/-- What checked settings come with. -/
theorem layouts_of_check (checked : settings.check = .ok ⟨⟩) :
    0 < settings.workload.mtu ∧ ∃ here there,
      layoutOf settings.pool = .ok here ∧
      layoutOf settings.receiverConfig = .ok there ∧
      (settings.workload.linkFrames = true →
        FragmentHeader.size ≤ here.headerReserve) := by
  unfold check at checked
  cases objection : settings.objection? with
  | some objection =>
      simp [objection, throw, throwThe, MonadExceptOf.throw, bind,
        Except.bind] at checked
  | none =>
      cases isHere : layoutOf settings.pool with
      | error error => simp [objection, isHere, bind, Except.bind] at checked
      | ok here =>
          cases isThere : layoutOf settings.receiverConfig with
          | error error =>
              simp [objection, isHere, isThere, bind, Except.bind]
                at checked
          | ok there =>
              simp only [objection, isHere, isThere, bind, Except.bind, pure,
                Except.pure, throw, throwThe, MonadExceptOf.throw]
                at checked
              refine ⟨mtu_pos_of_objection? objection, here, there, rfl, rfl,
                fun frames => Nat.le_of_not_lt fun small => ?_⟩
              rw [if_pos ⟨frames, small⟩] at checked
              cases checked

theorem ofLayout_of_makePool {id : PoolId} {config : Config} {pool : Pool}
    (made : makePool id config = .ok pool) :
    ∃ layout, layoutOf config = .ok layout ∧
      pool = .ofLayout id config layout := by
  unfold makePool at made
  cases isLayout : layoutOf config with
  | error error => simp [isLayout, bind, Except.bind] at made
  | ok layout =>
      simp only [isLayout, bind, Except.bind, Pool.create?] at made
      split at made
      · cases made
      · rename_i found
        split at found
        · cases found
          cases made
          exact ⟨layout, rfl, rfl⟩
        · cases found

/-- Both pools as they are made with given layouts. -/
def poolsWith (settings : Settings) (here there : Layout) : Pools :=
  ((default : Pools).add senderId 0
    (.ofLayout senderId settings.pool here)).add receiverId 1
      (.ofLayout receiverId settings.receiverConfig there)

@[simp]
theorem get_sender (settings : Settings) (here there : Layout) :
    (settings.poolsWith here there).get senderId =
      .ofLayout senderId settings.pool here := by
  rw [poolsWith, Pools.get_add, if_neg (by decide), Pools.get_add, if_pos rfl]

@[simp]
theorem get_receiver (settings : Settings) (here there : Layout) :
    (settings.poolsWith here there).get receiverId =
      .ofLayout receiverId settings.receiverConfig there := by
  rw [poolsWith, Pools.get_add, if_pos rfl]

/-- The two pools have the first two numbers. -/
theorem distinct_poolsWith (settings : Settings) (here there : Layout) :
    (settings.poolsWith here there).Distinct := by
  have counted : ∀ {id : PoolId} {number : UInt32},
      (settings.poolsWith here there).numbers.get? id = some number →
        id = number.toNat := by
    intro id number found
    simp only [poolsWith, Pools.add, Table.get?_insert] at found
    split at found
    · rename_i isReceiver
      cases found
      exact isReceiver
    · split at found
      · rename_i isSender
        cases found
        exact isSender
      · cases found
  intro one other same
  rw [Pools.sameNumber, Bool.or_eq_true, beq_iff_eq] at same
  rcases same with isSame | same
  · exact isSame
  · split at same
    · rename_i found found'
      rw [counted found, counted found', eq_of_beq same]
    · cases same

theorem balanced_poolsWith (settings : Settings) (here there : Layout) :
    (settings.poolsWith here there).Balanced
      (settings.poolsWith here there) [] := by
  refine ⟨fun id => ?_, rfl, settings.distinct_poolsWith here there⟩
  simp only [poolsWith, Pools.get_add]
  split
  · rename_i isReceiver
    exact isReceiver ▸ Pool.accounts_ofLayout receiverId _ there
  · split
    · rename_i isSender
      exact isSender ▸ Pool.accounts_ofLayout senderId _ here
    · exact Pool.accounts_absent id

theorem poolsWith_of_makePools (made : settings.makePools = .ok origin) :
    ∃ here there, layoutOf settings.pool = .ok here ∧
      layoutOf settings.receiverConfig = .ok there ∧
      origin = settings.poolsWith here there := by
  unfold makePools at made
  cases sending : makePool senderId settings.pool with
  | error error => simp [sending, bind, Except.bind] at made
  | ok sender =>
      cases receiving : makePool receiverId settings.receiverConfig with
      | error error => simp [sending, receiving, bind, Except.bind] at made
      | ok receiver =>
          simp only [sending, receiving, bind, Except.bind, pure, Except.pure,
            Except.ok.injEq] at made
          obtain ⟨here, isHere, rfl⟩ := ofLayout_of_makePool sending
          obtain ⟨there, isThere, rfl⟩ := ofLayout_of_makePool receiving
          exact ⟨here, there, isHere, isThere, made.symm⟩

/-- The pools that are made with settings: both are new, and what the link
needs has been provided for. -/
structure Equips (settings : Settings) (origin : Pools) : Prop extends
    settings.link.Ready origin where
  sender_eq : ∃ layout, origin.get senderId =
    .ofLayout senderId settings.pool layout
  receiver_eq : ∃ layout, origin.get receiverId =
    .ofLayout receiverId settings.receiverConfig layout

theorem equips_of_check (checked : settings.check = .ok ⟨⟩)
    (made : settings.makePools = .ok origin) : settings.Equips origin := by
  obtain ⟨mtu, here, there, isHere, isThere, headerRoom⟩ :=
    layouts_of_check checked
  obtain ⟨here', there', isHere', isThere', rfl⟩ :=
    poolsWith_of_makePools made
  rw [isHere, Except.ok.injEq] at isHere'
  rw [isThere, Except.ok.injEq] at isThere'
  subst isHere' isThere'
  obtain ⟨holdLimit, maxDatagrams⟩ :=
    Config.limits_of_accepted (layoutOf_eq_ok_iff.mp isThere)
  have isSender := settings.get_sender here there
  have isReceiver := settings.get_receiver here there
  constructor
  · constructor
    · exact (by decide : senderId ≠ receiverId)
    · exact settings.balanced_poolsWith here there
    · exact mtu
    · dsimp only [link]
      rw [isSender]
      exact headerRoom
    · dsimp only [link]
      rw [isReceiver]
      exact holdLimit
    · dsimp only [link]
      rw [isReceiver]
      exact maxDatagrams
  · exact ⟨here, isSender⟩
  · exact ⟨there, isReceiver⟩

end Settings

end Load

end PooledPackets
