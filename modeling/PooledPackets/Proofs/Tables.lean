import PooledPackets.Table

/-!
# Tables as collections

What the operations on a table do to the collection of its values. The order
of the values is forgotten, so that nothing but loss and repetition shows.
-/

namespace PooledPackets.Table

universe u

variable {α : Type u}

/-! ## Look-up and membership -/

theorem lookup_eq_some_iff {key : Nat} {value : α} :
    ∀ {entries : List (Nat × α)},
      entries.Pairwise (fun earlier later => earlier.1 < later.1) →
        (lookup key entries = some value ↔ (key, value) ∈ entries)
  | [], _ => by
      simp [lookup]
  | (number, held) :: rest, ascending => by
      obtain ⟨headFirst, restAscending⟩ := List.pairwise_cons.mp ascending
      simp only [lookup, List.mem_cons, Prod.mk.injEq]
      by_cases isHead : key = number
      · subst isHead
        have notInRest : (key, value) ∉ rest := by
          intro member
          exact Nat.lt_irrefl key (headFirst (key, value) member)
        simp [notInRest, eq_comm]
      · simp [isHead, lookup_eq_some_iff restAscending]

theorem get?_eq_some_iff {table : Table α} {key : Nat} {value : α} :
    table.get? key = some value ↔ (key, value) ∈ table.entries :=
  lookup_eq_some_iff table.ascending

theorem get?_eq_none_iff {table : Table α} {key : Nat} :
    table.get? key = none ↔ ∀ entry ∈ table.entries, entry.1 ≠ key := by
  constructor
  · intro absent entry member isKey
    have found : table.get? key = some entry.2 :=
      get?_eq_some_iff.mpr (isKey ▸ member)
    simp [found] at absent
  · intro noEntry
    cases found : table.get? key with
    | none => rfl
    | some value =>
        exact absurd rfl
          (noEntry (key, value) (get?_eq_some_iff.mp found))

theorem contains_eq_false_iff {table : Table α} {key : Nat} :
    table.contains key = false ↔ table.get? key = none := by
  simp [contains]

/-- Looking up several numbers does not depend on what is filed under
others. -/
theorem mapM_get?_erase {table : Table α} {key : Nat} :
    ∀ {keys : List Nat}, key ∉ keys →
      keys.mapM (table.erase key).get? = keys.mapM table.get?
  | [], _ => rfl
  | first :: rest, notNamed => by
      rw [List.mem_cons, not_or] at notNamed
      rw [List.mapM_cons, List.mapM_cons, mapM_get?_erase notNamed.2,
        get?_erase, if_neg (Ne.symm notNamed.1)]

theorem eq_of_entries {table other : Table α}
    (same : table.entries = other.entries) : table = other := by
  cases table
  cases other
  cases same
  rfl

theorem filter_eq_self {table : Table α} {keep : Nat → α → Bool}
    (keepsAll : ∀ entry ∈ table.entries, keep entry.1 entry.2 = true) :
    table.filter keep = table :=
  eq_of_entries (List.filter_eq_self.mpr keepsAll)

/-- What passes one test after another passes both at once. -/
theorem filter_filter (table : Table α) {first second both : Nat → α → Bool}
    (same : ∀ entry ∈ table.entries,
      (first entry.1 entry.2 && second entry.1 entry.2) =
        both entry.1 entry.2) :
    (table.filter first).filter second = table.filter both := by
  apply eq_of_entries
  change List.filter _ (List.filter _ table.entries) =
    List.filter _ table.entries
  rw [List.filter_filter]
  apply List.filter_congr
  intro entry member
  rw [Bool.and_comm]
  exact same entry member

/-- A number finds what it found before, if that passes the test. -/
theorem get?_filter (table : Table α) (keep : Nat → α → Bool)
    (key : Nat) :
    (table.filter keep).get? key = (table.get? key).filter (keep key) := by
  apply Option.ext
  intro value
  rw [get?_eq_some_iff, Option.filter_eq_some_iff, get?_eq_some_iff]
  exact List.mem_filter

/-! ## The values after an operation -/

@[simp]
theorem values_empty : (empty : Table α).values = [] := rfl

theorem values_eq_nil {table : Table α}
    (absent : ∀ key, table.get? key = none) : table.values = [] := by
  have noEntry : table.entries = [] := by
    apply List.eq_nil_iff_forall_not_mem.mpr
    intro entry member
    exact get?_eq_none_iff.mp (absent entry.1) entry member rfl
  rw [values, noEntry, List.map_nil]

theorem erase_of_get?_eq_none {table : Table α} {key : Nat}
    (absent : table.get? key = none) :
    table.erase key = table := by
  apply filter_eq_self
  intro entry member
  simpa using get?_eq_none_iff.mp absent entry member

theorem place_perm (key : Nat) (value : α) :
    ∀ entries : List (Nat × α),
      entries.Pairwise (fun earlier later => earlier.1 < later.1) →
        (place key value entries).Perm
          ((key, value) :: entries.filter (fun entry => entry.1 != key))
  | [], _ => by
      simp [place]
  | (number, held) :: rest, ascending => by
      obtain ⟨headFirst, restAscending⟩ := List.pairwise_cons.mp ascending
      simp only [place]
      split
      · rename_i before
        have allKept :
            ((number, held) :: rest).filter (fun entry => entry.1 != key) =
              (number, held) :: rest := by
          rw [List.filter_eq_self]
          intro entry member
          rcases List.mem_cons.mp member with rfl | inRest
          · simpa using Nat.ne_of_gt before
          · have := headFirst entry inRest
            simp only [bne_iff_ne]
            omega
        rw [allKept]
      · split
        · rename_i same
          subst same
          have restKept :
              rest.filter (fun entry => entry.1 != key) = rest := by
            rw [List.filter_eq_self]
            intro entry member
            simpa using Nat.ne_of_gt (headFirst entry member)
          simp [restKept]
        · rename_i _ notSame
          rw [List.filter_cons_of_pos (by simpa using Ne.symm notSame)]
          exact
            ((place_perm key value rest restAscending).cons _).trans
              (List.Perm.swap _ _ _)

theorem values_insert_perm (table : Table α) (key : Nat) (value : α) :
    (table.insert key value).values.Perm
      (value :: (table.erase key).values) :=
  (place_perm key value table.entries table.ascending).map Prod.snd

/-- What a number held before an insertion and what it holds afterwards are
both gone once it is erased. -/
theorem erase_insert_self (table : Table α) (key : Nat) (value : α) :
    (table.insert key value).erase key = table.erase key := by
  have sameRest : ∀ entries : List (Nat × α),
      (place key value entries).filter (fun entry => entry.1 != key) =
        entries.filter (fun entry => entry.1 != key) := by
    intro entries
    induction entries with
    | nil => simp [place]
    | cons head rest inductionHypothesis =>
        simp only [place]
        split
        · simp
        · split
          · rename_i same
            simp [same]
          · rw [List.filter_cons, List.filter_cons, inductionHypothesis]
  simp only [erase, filter, insert, sameRest]

theorem erase_comm (table : Table α) (first second : Nat) :
    (table.erase first).erase second =
      (table.erase second).erase first := by
  simp only [erase, filter, List.filter_filter, Bool.and_comm]

theorem filter_key_perm (key : Nat) (value : α) :
    ∀ {entries : List (Nat × α)},
      entries.Pairwise (fun earlier later => earlier.1 < later.1) →
        (key, value) ∈ entries →
          entries.Perm
            ((key, value) :: entries.filter (fun entry => entry.1 != key))
  | [], _, member => by
      simp at member
  | (number, held) :: rest, ascending, member => by
      obtain ⟨headFirst, restAscending⟩ := List.pairwise_cons.mp ascending
      rcases List.mem_cons.mp member with isHead | inRest
      · cases isHead
        have restKept :
            rest.filter (fun entry => entry.1 != key) = rest := by
          rw [List.filter_eq_self]
          intro entry inRest
          simpa using Nat.ne_of_gt (headFirst entry inRest)
        simp [restKept]
      · have before := headFirst (key, value) inRest
        rw [List.filter_cons_of_pos (by simpa using Nat.ne_of_lt before)]
        exact
          ((filter_key_perm key value restAscending inRest).cons _).trans
            (List.Perm.swap _ _ _)

theorem values_perm_of_get? {table : Table α} {key : Nat} {value : α}
    (found : table.get? key = some value) :
    table.values.Perm (value :: (table.erase key).values) :=
  (filter_key_perm key value table.ascending
    (get?_eq_some_iff.mp found)).map Prod.snd

/-- A number that is not in use falls between the entries below it and those
above it. -/
theorem entries_around {key : Nat} :
    ∀ {entries : List (Nat × α)},
      entries.Pairwise (fun earlier later => earlier.1 < later.1) →
        (∀ entry ∈ entries, entry.1 ≠ key) →
          ∃ below above, entries = below ++ above ∧
            (∀ entry ∈ below, entry.1 < key) ∧
            (∀ entry ∈ above, key < entry.1) ∧
            ∀ value, place key value entries =
              below ++ (key, value) :: above
  | [], _, _ => ⟨[], [], rfl, by simp, by simp, fun _ => rfl⟩
  | head :: rest, ascending, absent => by
      obtain ⟨headFirst, restAscending⟩ := List.pairwise_cons.mp ascending
      have notHead := absent head (List.mem_cons_self ..)
      by_cases before : key < head.1
      · refine ⟨[], head :: rest, rfl, by simp, ?_, ?_⟩
        · intro entry member
          rcases List.mem_cons.mp member with rfl | inRest
          · exact before
          · exact Nat.lt_trans before (headFirst entry inRest)
        · intro value
          simp [place, before]
      · obtain ⟨below, above, rfl, isBelow, isAbove, placed⟩ :=
          entries_around restAscending
            (fun entry member => absent entry (.tail _ member))
        refine ⟨head :: below, above, rfl, ?_, isAbove, ?_⟩
        · intro entry member
          rcases List.mem_cons.mp member with rfl | inBelow
          · omega
          · exact isBelow entry inBelow
        · intro value
          simp [place, before, Ne.symm notHead, placed]

/-- The entries that pass a test and those that fail it are all entries. -/
theorem values_filter_perm (table : Table α) (keep : Nat → α → Bool) :
    ((table.filter keep).values ++
      (table.filter fun number value => !keep number value).values).Perm
        table.values := by
  have parts :=
    List.filter_append_perm (fun entry => keep entry.1 entry.2) table.entries
  simpa [values, filter] using parts.map Prod.snd

/-! ## The number of entries -/

theorem size_erase_le (table : Table α) (key : Nat) :
    (table.erase key).size ≤ table.size :=
  List.length_filter_le _ _

theorem size_insert_of_absent {table : Table α} {key : Nat}
    (absent : table.get? key = none) (value : α) :
    (table.insert key value).size = table.size + 1 := by
  have placed := (values_insert_perm table key value).length_eq
  rw [erase_of_get?_eq_none absent] at placed
  simpa [values, size] using placed

theorem size_insert_of_present {table : Table α} {key : Nat} {held : α}
    (found : table.get? key = some held) (value : α) :
    (table.insert key value).size = table.size := by
  have placed := (values_insert_perm table key value).length_eq
  have before := (values_perm_of_get? found).length_eq
  simp only [List.length_cons] at placed before
  simp only [values, List.length_map] at placed before
  simp only [size]
  omega

end PooledPackets.Table
