/-!
# Tables with ascending numbers

A table files values under natural numbers and lists them in ascending order.
Pools, packet slots, reassemblers, incomplete datagrams and the fragments of
one datagram are all kept in such tables.
-/

namespace PooledPackets

universe u v

/-- Values filed under numbers, each number once, in ascending order. -/
structure Table (α : Type u) where
  entries : List (Nat × α)
  ascending : entries.Pairwise (fun earlier later => earlier.1 < later.1)

namespace Table

variable {α : Type u}

def empty : Table α :=
  ⟨[], List.Pairwise.nil⟩

instance : Inhabited (Table α) := ⟨empty⟩

/-! ## Association lists -/

/-- The value filed under a number in a list of entries. -/
def lookup (key : Nat) : List (Nat × α) → Option α
  | [] => none
  | (number, value) :: rest =>
      if key = number then some value else lookup key rest

/-- Puts a value in its place in an ascending list of entries; a value already
filed under the number is replaced. -/
def place (key : Nat) (value : α) : List (Nat × α) → List (Nat × α)
  | [] => [(key, value)]
  | (number, held) :: rest =>
      if key < number then (key, value) :: (number, held) :: rest
      else if key = number then (key, value) :: rest
      else (number, held) :: place key value rest

theorem mem_place {key : Nat} {value : α} {entries : List (Nat × α)}
    {entry : Nat × α} (member : entry ∈ place key value entries) :
    entry = (key, value) ∨ entry ∈ entries := by
  induction entries with
  | nil =>
      simp only [place, List.mem_singleton] at member
      exact Or.inl member
  | cons head rest inductionHypothesis =>
      simp only [place] at member
      split at member
      · simp only [List.mem_cons] at member ⊢
        exact member
      · split at member
        · simp only [List.mem_cons] at member ⊢
          rcases member with same | inRest
          · exact Or.inl same
          · exact Or.inr (Or.inr inRest)
        · simp only [List.mem_cons] at member ⊢
          rcases member with atHead | inRest
          · exact Or.inr (Or.inl atHead)
          · rcases inductionHypothesis inRest with same | held
            · exact Or.inl same
            · exact Or.inr (Or.inr held)

theorem place_ascending {key : Nat} {value : α} {entries : List (Nat × α)}
    (ascending : entries.Pairwise (fun earlier later => earlier.1 < later.1)) :
    (place key value entries).Pairwise
      (fun earlier later => earlier.1 < later.1) := by
  induction entries with
  | nil => simp [place]
  | cons head rest inductionHypothesis =>
      obtain ⟨headFirst, restAscending⟩ := List.pairwise_cons.mp ascending
      simp only [place]
      split
      · rename_i before
        refine List.pairwise_cons.mpr ⟨?_, ascending⟩
        intro entry member
        rcases List.mem_cons.mp member with rfl | inRest
        · exact before
        · exact Nat.lt_trans before (headFirst entry inRest)
      · split
        · rename_i same
          refine List.pairwise_cons.mpr ⟨?_, restAscending⟩
          intro entry member
          rw [same]
          exact headFirst entry member
        · rename_i notBefore notSame
          refine List.pairwise_cons.mpr
            ⟨?_, inductionHypothesis restAscending⟩
          intro entry member
          rcases mem_place member with rfl | inRest
          · exact Nat.lt_of_le_of_ne (Nat.le_of_not_lt notBefore)
              (Ne.symm notSame)
          · exact headFirst entry inRest

/-! ## Operations -/

def get? (table : Table α) (key : Nat) : Option α :=
  lookup key table.entries

def contains (table : Table α) (key : Nat) : Bool :=
  (table.get? key).isSome

/-- Files a value, replacing what the number held. -/
def insert (table : Table α) (key : Nat) (value : α) : Table α :=
  ⟨place key value table.entries, place_ascending table.ascending⟩

/-- Keeps the entries that satisfy a test. -/
def filter (table : Table α) (keep : Nat → α → Bool) : Table α :=
  ⟨table.entries.filter (fun entry => keep entry.1 entry.2),
    table.ascending.filter _⟩

/-- Removes what is filed under a number. -/
def erase (table : Table α) (key : Nat) : Table α :=
  table.filter (fun number _ => number != key)

def size (table : Table α) : Nat :=
  table.entries.length

def isEmpty (table : Table α) : Bool :=
  table.entries.isEmpty

/-- The filed values, by ascending number. -/
def values (table : Table α) : List α :=
  table.entries.map Prod.snd

/-- The numbers in use, ascending. -/
def keys (table : Table α) : List Nat :=
  table.entries.map Prod.fst

/-- The entry with the largest number below a bound. -/
def lastBelow? (table : Table α) (bound : Nat) : Option (Nat × α) :=
  (table.entries.filter (fun entry => entry.1 < bound)).getLast?

def last? (table : Table α) : Option (Nat × α) :=
  table.entries.getLast?

/-- The entries from a number on, ascending. -/
def entriesFrom (table : Table α) (start : Nat) : List (Nat × α) :=
  table.entries.filter (fun entry => start ≤ entry.1)

/-! ## What the operations do to a look-up -/

theorem lookup_place (key sought : Nat) (value : α)
    (entries : List (Nat × α)) :
    lookup sought (place key value entries) =
      if sought = key then some value else lookup sought entries := by
  induction entries with
  | nil => rfl
  | cons head rest inductionHypothesis =>
      simp only [place]
      split
      · simp only [lookup]
      · split
        · rename_i same
          subst same
          simp only [lookup]
          split <;> rfl
        · rename_i notSame
          simp only [lookup]
          split
          · rename_i found
            subst found
            rw [if_neg (Ne.symm notSame)]
          · exact inductionHypothesis

@[simp] theorem get?_empty (sought : Nat) :
    (empty : Table α).get? sought = none := rfl

@[simp] theorem get?_insert (table : Table α) (key sought : Nat) (value : α) :
    (table.insert key value).get? sought =
      if sought = key then some value else table.get? sought :=
  lookup_place key sought value table.entries

theorem lookup_erase (key sought : Nat) (entries : List (Nat × α)) :
    lookup sought (entries.filter (fun entry => entry.1 != key)) =
      if sought = key then none else lookup sought entries := by
  induction entries with
  | nil => simp [lookup]
  | cons head rest inductionHypothesis =>
      by_cases isKey : head.1 = key
      · rw [List.filter_cons_of_neg (by simp [isKey]), inductionHypothesis]
        simp only [lookup, isKey]
        split <;> rfl
      · rw [List.filter_cons_of_pos (by simp [isKey])]
        simp only [lookup, inductionHypothesis]
        by_cases soughtIsHead : sought = head.1
        · simp [soughtIsHead, isKey]
        · simp [soughtIsHead]

@[simp] theorem get?_erase (table : Table α) (key sought : Nat) :
    (table.erase key).get? sought =
      if sought = key then none else table.get? sought :=
  lookup_erase key sought table.entries

end Table

end PooledPackets
