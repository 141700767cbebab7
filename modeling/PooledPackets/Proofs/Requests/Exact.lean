import PooledPackets.Proofs.Counters.Books
import PooledPackets.Proofs.Ownership.Copying
import PooledPackets.Proofs.Packets.Writing

/-!
# Requests for segments

A packet asks its pool for segments when it is made and when it outgrows its
chain. Here is what such a request comes to, in any pools: which segments are
handed out, why none are, and what is different afterwards.
-/

namespace PooledPackets

open Operation

/-! ## What is different afterwards -/

/-- The pool of one number is changed; all others are as they were. -/
def Pools.ChangesOnly (pools : Pools) (id : PoolId) (change : Pool → Pool)
    (after : Pools) : Prop :=
  ∀ other, after.get other =
    if other = id then change (pools.get id) else pools.get other

/-- The pool without the segments that it handed out. -/
def Pool.lend (count : Nat) (pool : Pool) : Pool :=
  (pool.take count).2

/-- What a refused request leaves on the counters of a pool. -/
def BufferError.counted : BufferError → Counters → Counters
  | .poolExhausted .. => Event.exhausted.counted
  | .oversizedPacket .. => Event.oversized.counted
  | _ => id

/-- A request that was refused with an error has left nothing behind but one
event on the counters of a pool, or not even that. -/
def Pools.Refused (pools : Pools) (id : PoolId) (error : BufferError)
    (after : Pools) : Prop :=
  pools.ChangesOnly id (fun pool => pool.count error.counted) after

namespace Pools.ChangesOnly

variable {pools between after : Pools} {id : PoolId}
variable {change further : Pool → Pool}

theorem set (pools : Pools) (id : PoolId) (pool : Pool) :
    pools.ChangesOnly id (fun _ => pool) (pools.set id pool) :=
  fun other => pools.get_set id other pool

theorem refl (unchanged : change (pools.get id) = pools.get id) :
    pools.ChangesOnly id change pools := by
  intro other
  by_cases same : other = id
  · rw [if_pos same, unchanged, same]
  · rw [if_neg same]

theorem here (changes : pools.ChangesOnly id change after) :
    after.get id = change (pools.get id) := by
  rw [changes id, if_pos rfl]

/-- Something is counted besides. -/
theorem count (changes : pools.ChangesOnly id change after)
    (counted : Counters → Counters) :
    pools.ChangesOnly id (fun pool => (change pool).count counted)
      (after.set id ((after.get id).count counted)) := by
  rw [changes.here]
  intro other
  rw [Pools.get_set, changes other]
  by_cases same : other = id
  · simp only [if_pos same]
  · simp only [if_neg same]

theorem trans (first : pools.ChangesOnly id change between)
    (second : between.ChangesOnly id further after) :
    pools.ChangesOnly id (further ∘ change) after := by
  intro other
  rw [second other, first.here, first other]
  by_cases same : other = id
  · simp only [if_pos same, Function.comp_apply]
  · simp only [if_neg same]

theorem free_apply (changes : pools.ChangesOnly id change after)
    (other : PoolId) :
    (after.get other).free =
      if other = id then (change (pools.get id)).free
      else (pools.get other).free := by
  rw [changes other]
  split
  · rfl
  · rfl

/-- A change that leaves the queue of its pool alone leaves all alone. -/
theorem free_eq (changes : pools.ChangesOnly id change after)
    (kept : (change (pools.get id)).free = (pools.get id).free)
    (other : PoolId) : (after.get other).free = (pools.get other).free := by
  rw [changes.free_apply]
  by_cases same : other = id
  · rw [if_pos same, kept, same]
  · rw [if_neg same]

end Pools.ChangesOnly

namespace Pool

/-- Segments that are handed out one lot after the other could have been
handed out at once. -/
theorem lend_lend (first second : Nat) (pool : Pool) :
    (pool.lend first).lend second = pool.lend (first + second) := by
  simp only [lend, take, List.drop_drop, markOut, ← List.foldl_append,
    ← List.take_add]

theorem lend_zero (pool : Pool) : pool.lend 0 = pool := by
  simp [lend, take, markOut]

@[simp]
theorem free_lend (count : Nat) (pool : Pool) :
    (pool.lend count).free = pool.free.drop count := rfl

@[simp]
theorem layout_lend (count : Nat) (pool : Pool) :
    (pool.lend count).layout = pool.layout := rfl

@[simp]
theorem freeCount_lend (count : Nat) (pool : Pool) :
    (pool.lend count).freeCount = pool.freeCount - count :=
  List.length_drop

/-- A pool can add so many segments to the chain of a packet. -/
def Spares (pool : Pool) (count : Nat) : Prop :=
  count = 0 ∨ pool.config.chaining = true ∧ count ≤ pool.freeCount

theorem Spares.le_freeCount {pool : Pool} {count : Nat}
    (spared : pool.Spares count) : count ≤ pool.freeCount := by
  rw [Spares] at spared
  omega

theorem Spares.of_le {pool : Pool} {few many : Nat}
    (spared : pool.Spares many) (fewer : few ≤ many) : pool.Spares few := by
  rcases spared with nothing | ⟨mayChain, enough⟩
  · exact Or.inl (Nat.le_zero.mp (nothing ▸ fewer))
  · exact Or.inr ⟨mayChain, Nat.le_trans fewer enough⟩

theorem spares_add {pool : Pool} {first second : Nat} :
    pool.Spares (first + second) ↔
      pool.Spares first ∧ (pool.lend first).Spares second := by
  have sameConfig : (pool.lend first).config = pool.config := rfl
  simp only [Spares, freeCount_lend, sameConfig]
  cases pool.config.chaining with
  | true =>
      simp only [true_and]
      omega
  | false => simp

/-! ## Making a packet -/

/-- Segments are handed out from the front of the queue, all that are asked
for or none. -/
theorem checkOut_exactly (id : PoolId) (count : Nat) (pools : Pools) :
    (checkOut id count pools).Satisfies
      (fun segments after => count ≤ (pools.get id).freeCount ∧
        segments = (pools.get id).free.take count ∧
        pools.ChangesOnly id (lend count) after)
      (fun error after => (pools.get id).freeCount < count ∧
        error = .poolExhausted count (pools.get id).freeCount ∧
        pools.Refused id error after)
      (fun _ => False) := by
  refine Outcome.Satisfies.readPool (Outcome.Satisfies.ite ?_ ?_)
  · exact fun short => ⟨short, rfl, Pools.ChangesOnly.set pools id _⟩
  · exact fun enough =>
      ⟨Nat.le_of_not_lt enough, rfl, Pools.ChangesOnly.set pools id _⟩

/-- Why a pool with so many free segments does not make a packet with room for
so many bytes. -/
def shortage? (pool : Pool) (free len : Nat) : Option BufferError :=
  let needed := pool.layout.segmentsFor len
  if 1 < needed ∧ pool.config.chaining = false then
    some (.oversizedPacket len pool.layout.maxPayload)
  else if free < needed then some (.poolExhausted needed free)
  else none

theorem le_freeCount_of_affordable (pool : Pool) {free len : Nat}
    (affordable : pool.shortage? free len = none) :
    pool.layout.segmentsFor len ≤ free := by
  rw [shortage?] at affordable
  split at affordable
  · cases affordable
  · split at affordable
    · cases affordable
    · rename_i enough
      exact Nat.le_of_not_lt enough

/-- The pool once it has made a packet of so many segments. -/
def provide (needed : Nat) (pool : Pool) : Pool :=
  (pool.lend needed).count fun counters =>
    { counters with allocations := counters.allocations + 1 }

theorem assemble_exactly (id : PoolId) (segments : List Segment)
    (pools : Pools) :
    (Packet.assemble id segments pools).Satisfies
      (fun packet after => packet = Packet.ofSegments id segments ∧
        after = pools)
      (fun _ _ => False) (fun _ => True) := by
  apply Outcome.Satisfies.bind
    ((Packet.check_ends (Packet.ofSegments id segments)).holding
      fun _ _ _ => trivial)
  exact fun _ _ unchanged => Outcome.Satisfies.pure ⟨rfl, unchanged⟩

/-- A packet is made of the first free segments, or it is not made. -/
theorem allocate_exactly (id : PoolId) (len : Nat) (pools : Pools) :
    (allocate id len pools).Satisfies
      (fun packet after =>
        (pools.get id).shortage? (pools.get id).freeCount len = none ∧
        packet = Packet.ofSegments id ((pools.get id).free.take
          ((pools.get id).layout.segmentsFor len)) ∧
        pools.ChangesOnly id
          (provide ((pools.get id).layout.segmentsFor len)) after)
      (fun error after =>
        (pools.get id).shortage? (pools.get id).freeCount len = some error ∧
        pools.Refused id error after)
      (fun _ => True) := by
  refine Outcome.Satisfies.readPool (Outcome.Satisfies.ite ?_ ?_)
  · exact fun tooLarge =>
      ⟨if_pos tooLarge, Pools.ChangesOnly.set pools id _⟩
  · intro mayChain
    refine Outcome.Satisfies.bind ((checkOut_exactly id
      ((pools.get id).layout.segmentsFor len) pools).mono
        (fun _ _ known => known) ?_ (fun _ impossible => impossible.elim)) ?_
    · rintro _ after ⟨short, rfl, refused⟩
      exact ⟨(if_neg mayChain).trans (if_pos short), refused⟩
    · rintro segments between ⟨enough, rfl, lent⟩
      have provided := lent.count fun counters =>
        { counters with allocations := counters.allocations + 1 }
      apply (assemble_exactly id _ _).neverRefused.monoDone
      rintro packet after ⟨isMade, rfl⟩
      exact ⟨(if_neg mayChain).trans (if_neg (Nat.not_lt_of_le enough)),
        isMade, provided⟩

end Pool

/-! ## Adding bytes -/

namespace Packet

/-- The segments that a packet needs besides its own for so many more
bytes. -/
def missing (packet : Packet) (layout : Layout) (count : Nat) : Nat :=
  Layout.portions (count - packet.available) layout.maxPayload

/-- Why a pool does not make room in a packet for so many more bytes. -/
def shortage? (packet : Packet) (pool : Pool) (count : Nat) :
    Option BufferError :=
  let missing := packet.missing pool.layout count
  if missing = 0 then none
  else if pool.config.chaining = false then
    some (.oversizedPacket (packet.length + count) pool.layout.maxPayload)
  else if pool.freeCount < missing then
    some (.poolExhausted missing pool.freeCount)
  else none

variable {packet : Packet}

theorem shortage?_eq_none_iff {pool : Pool} {count : Nat} :
    packet.shortage? pool count = none ↔
      pool.Spares (packet.missing pool.layout count) := by
  rw [shortage?, Pool.Spares]
  by_cases nothing : packet.missing pool.layout count = 0
  · simp [nothing]
  · cases pool.config.chaining with
    | true => simp [nothing]
    | false => simp [nothing]

theorem missing_eq_zero_iff {layout : Layout} {count : Nat} :
    packet.missing layout count = 0 ↔ count ≤ packet.available := by
  rw [missing, Layout.portions_eq_zero_iff layout.maxPayload_pos]
  omega

/-- With the segments that it needs besides its own a packet has room for what
they were asked for. -/
theorem le_available_add_missing (packet : Packet) (layout : Layout)
    (count : Nat) :
    count ≤ packet.available +
      packet.missing layout count * layout.maxPayload := by
  have covers := @Layout.le_portions_mul (count - packet.available) _
    layout.maxPayload_pos
  rw [missing]
  omega

theorem missing_le_of_le (packet : Packet) (layout : Layout)
    {few many : Nat} (fewer : few ≤ many) :
    packet.missing layout few ≤ packet.missing layout many := by
  have covers := packet.le_available_add_missing layout many
  rw [missing, Layout.portions_le_iff layout.maxPayload_pos]
  omega

/-- What two requests need one after the other they need together. -/
theorem missing_add (packet : Packet) (layout : Layout)
    {longer : Packet} {first : Nat} (second : Nat)
    (left : longer.available + first = packet.available +
      packet.missing layout first * layout.maxPayload) :
    packet.missing layout (first + second) =
      packet.missing layout first + longer.missing layout second := by
  have leftOver : packet.available + packet.missing layout first *
      layout.maxPayload - first = longer.available := by
    omega
  rw [missing, Layout.portions_add_sub layout.maxPayload_pos, ← missing,
    leftOver, ← missing]

@[simp]
theorem extend_nil (packet : Packet) : packet.extend [] = packet := by
  simp [extend]

/-- Room is made with the first free segments, or it is not made. -/
theorem makeRoom_exactly (packet : Packet) (count : Nat) (pools : Pools) :
    (packet.makeRoom count pools).Satisfies
      (fun roomy after =>
        packet.shortage? (pools.get packet.pool) count = none ∧
        roomy = packet.extend ((pools.get packet.pool).free.take
          (packet.missing (pools.get packet.pool).layout count)) ∧
        pools.ChangesOnly packet.pool (Pool.lend
          (packet.missing (pools.get packet.pool).layout count)) after)
      (fun error after =>
        packet.shortage? (pools.get packet.pool) count = some error ∧
        pools.Refused packet.pool error after)
      (fun _ => False) := by
  refine Outcome.Satisfies.ite ?_ ?_
  · intro fits
    have nothing : packet.missing (pools.get packet.pool).layout count = 0 :=
      missing_eq_zero_iff.mpr fits
    refine Outcome.Satisfies.pure ⟨if_pos nothing, ?_, ?_⟩
    · rw [nothing, List.take_zero, extend_nil]
    · rw [nothing]
      exact Pools.ChangesOnly.refl (Pool.lend_zero _)
  · intro tooMuch
    have something : packet.missing (pools.get packet.pool).layout count ≠ 0 :=
      mt missing_eq_zero_iff.mp tooMuch
    refine Outcome.Satisfies.readPool ?_
    cases chains : (pools.get packet.pool).config.chaining with
    | true =>
        have mayChain : ¬(pools.get packet.pool).config.chaining = false := by
          simp [chains]
        apply Outcome.Satisfies.bind ((Pool.checkOut_exactly packet.pool
          (packet.missing (pools.get packet.pool).layout count)
            pools).monoRefused ?_)
        · rintro segments after ⟨enough, rfl, lent⟩
          exact Outcome.Satisfies.pure ⟨(if_neg something).trans
            ((if_neg mayChain).trans (if_neg (Nat.not_lt_of_le enough))),
              rfl, lent⟩
        · rintro error after ⟨short, rfl, refused⟩
          exact ⟨(if_neg something).trans ((if_neg mayChain).trans
            (if_pos short)), refused⟩
    | false =>
        exact ⟨(if_neg something).trans (if_pos chains),
          Pools.ChangesOnly.set pools packet.pool _⟩

/-- Bytes are written behind the payload once there is room for them. -/
theorem Sound.append_exactly (sound : packet.Sound)
    (held : packet.chain ≠ []) (bytes : Bytes) (pools : Pools) :
    (packet.append bytes pools).Satisfies
      (fun longer after =>
        packet.shortage? (pools.get packet.pool) bytes.length = none ∧
        (packet.extend ((pools.get packet.pool).free.take
          (packet.missing (pools.get packet.pool).layout
            bytes.length))).write bytes = .ok longer ∧
        pools.ChangesOnly packet.pool (Pool.lend
          (packet.missing (pools.get packet.pool).layout bytes.length)) after)
      (fun error after =>
        packet.shortage? (pools.get packet.pool) bytes.length = some error ∧
        pools.Refused packet.pool error after)
      (fun _ => True) := by
  have notReleased : ¬packet.isReleased = true := by
    simpa [isReleased] using held
  rw [append, if_neg notReleased]
  refine Outcome.Satisfies.ite ?_ ?_
  · intro isNothing
    obtain rfl : bytes = [] := List.isEmpty_iff.mp isNothing
    have nothing : packet.missing (pools.get packet.pool).layout 0 = 0 :=
      missing_eq_zero_iff.mpr (Nat.zero_le _)
    refine Outcome.Satisfies.pure ⟨if_pos nothing, ?_, ?_⟩
    · rw [List.length_nil, nothing, List.take_zero, extend_nil]
      exact sound.write_nil held
    · rw [List.length_nil, nothing]
      exact Pools.ChangesOnly.refl (Pool.lend_zero _)
  · intro _
    apply Outcome.Satisfies.bind ((packet.makeRoom_exactly bytes.length
      pools).mono (fun _ _ known => known) (fun _ _ known => known)
        (fun _ impossible => impossible.elim))
    rintro roomy after ⟨affordable, rfl, lent⟩
    cases writing : Packet.write _ bytes with
    | error violation => trivial
    | ok written =>
        apply Outcome.Satisfies.bind written.check_ends.neverRefused
        rintro _ _ rfl
        exact Outcome.Satisfies.pure ⟨affordable, rfl, lent⟩

end Packet

/-! ## Without an exchange -/

namespace Packet.Sound

variable {packet longer : Packet}

/-- What is written takes up the room that there was. -/
theorem available_write (sound : packet.Sound) (held : packet.chain ≠ [])
    {bytes : Bytes} (fits : bytes.length ≤ packet.available)
    (writing : packet.write bytes = .ok longer) :
    longer.available + bytes.length = packet.available := by
  by_cases nothing : bytes = []
  · subst nothing
    rw [sound.write_nil held] at writing
    cases writing
    rfl
  · obtain ⟨written, isWritten, _, _, room⟩ :=
      sound.write_fits held nothing fits
    rw [writing] at isWritten
    cases isWritten
    exact room

end Packet.Sound

namespace Pools.Consistent

variable {pools origin : Pools} {others : List Packet} {packet : Packet}

/-- A packet with the first free segments of its pool behind its chain. -/
theorem extend_free
    (consistent : pools.Consistent origin .never (packet :: others))
    (held : packet.chain ≠ []) {count : Nat}
    (enough : count ≤ (pools.get packet.pool).freeCount) :
    (packet.extend ((pools.get packet.pool).free.take count)).Sound ∧
      (packet.extend ((pools.get packet.pool).free.take count)).available =
        packet.available +
          count * (pools.get packet.pool).layout.maxPayload := by
  have sound : packet.Sound :=
    consistent.kept packet (List.mem_cons_self ..)
  have accounts := consistent.balanced.accounts packet.pool
  have isFree : ∀ segment ∈ (pools.get packet.pool).free.take count,
      segment ∈ (pools.get packet.pool).free :=
    fun _ member => List.mem_of_mem_take member
  have room := @room_of_fresh _ (pools.get packet.pool).layout
    fun segment member => ⟨accounts.free_empty segment (isFree segment member),
      (accounts.free_layout segment (isFree segment member)).trans
        accounts.layout_eq.symm⟩
  refine ⟨sound.extend held fun segment member =>
    ⟨accounts.free_own segment (isFree segment member),
      accounts.free_empty segment (isFree segment member)⟩, ?_⟩
  rw [sound.available_extend held, room, List.length_take_of_le enough]

/-- Without an exchange bytes are appended exactly if the pool can spare the
segments for them. -/
theorem append_exactly
    (consistent : pools.Consistent origin .never (packet :: others))
    (held : packet.chain ≠ []) (bytes : Bytes) :
    (packet.append bytes pools).Satisfies
      (fun longer after =>
        after.Consistent origin .never (longer :: others) ∧
        packet.Grown .never longer bytes ∧
        packet.shortage? (pools.get packet.pool) bytes.length = none ∧
        (packet.extend ((pools.get packet.pool).free.take
          (packet.missing (pools.get packet.pool).layout
            bytes.length))).write bytes = .ok longer ∧
        pools.ChangesOnly packet.pool (Pool.lend
          (packet.missing (pools.get packet.pool).layout bytes.length)) after)
      (fun error after =>
        packet.shortage? (pools.get packet.pool) bytes.length = some error ∧
        pools.Refused packet.pool error after)
      (fun _ => False) := by
  have sound : packet.Sound :=
    consistent.kept packet (List.mem_cons_self ..)
  apply ((consistent.append_satisfies bytes).and
    (sound.append_exactly held bytes pools)).mono
  · rintro longer after ⟨⟨consistentLonger, grown⟩, exactly⟩
    exact ⟨consistentLonger, grown, exactly⟩
  · rintro error after ⟨_, exactly⟩
    exact exactly
  · exact fun _ impossible => impossible

/-- What has been appended takes up the room that there was and that of the
segments taken for it. -/
theorem available_append
    (consistent : pools.Consistent origin .never (packet :: others))
    (held : packet.chain ≠ []) {longer : Packet} {bytes : Bytes}
    (spared : (pools.get packet.pool).Spares
      (packet.missing (pools.get packet.pool).layout bytes.length))
    (writing : (packet.extend ((pools.get packet.pool).free.take
      (packet.missing (pools.get packet.pool).layout bytes.length))).write
        bytes = .ok longer) :
    longer.available + bytes.length = packet.available +
      packet.missing (pools.get packet.pool).layout bytes.length *
        (pools.get packet.pool).layout.maxPayload := by
  obtain ⟨sound, room⟩ := consistent.extend_free held spared.le_freeCount
  have covers := packet.le_available_add_missing
    (pools.get packet.pool).layout bytes.length
  rw [← room] at covers ⊢
  exact sound.available_write (by simp [Packet.extend, held]) covers writing

theorem append_of_spared
    (consistent : pools.Consistent origin .never (packet :: others))
    (held : packet.chain ≠ []) {bytes : Bytes}
    (spared : (pools.get packet.pool).Spares
      (packet.missing (pools.get packet.pool).layout bytes.length)) :
    ∃ longer after, packet.append bytes pools = .done longer after ∧
      after.Consistent origin .never (longer :: others) ∧
      packet.Grown .never longer bytes ∧
      (packet.extend ((pools.get packet.pool).free.take
        (packet.missing (pools.get packet.pool).layout
          bytes.length))).write bytes = .ok longer ∧
      pools.ChangesOnly packet.pool (Pool.lend
        (packet.missing (pools.get packet.pool).layout bytes.length))
          after := by
  have contract := consistent.append_exactly held bytes
  cases ending : packet.append bytes pools with
  | stopped stop =>
      rw [ending] at contract
      exact contract.elim
  | failed error after =>
      rw [ending] at contract
      rw [← Packet.shortage?_eq_none_iff, contract.1] at spared
      cases spared
  | done longer after =>
      rw [ending] at contract
      obtain ⟨consistentLonger, grown, _, writing, lent⟩ := contract
      exact ⟨longer, after, rfl, consistentLonger, grown, writing, lent⟩

theorem append_of_short
    (consistent : pools.Consistent origin .never (packet :: others))
    (held : packet.chain ≠ []) {bytes : Bytes}
    (short : ¬(pools.get packet.pool).Spares
      (packet.missing (pools.get packet.pool).layout bytes.length)) :
    ∃ error after, packet.append bytes pools = .failed error after := by
  have contract := consistent.append_exactly held bytes
  cases ending : packet.append bytes pools with
  | stopped stop =>
      rw [ending] at contract
      exact contract.elim
  | failed error after => exact ⟨error, after, rfl⟩
  | done longer after =>
      rw [ending] at contract
      obtain ⟨_, _, affordable, _⟩ := contract
      exact absurd (Packet.shortage?_eq_none_iff.mp affordable) short

end Pools.Consistent

end PooledPackets
