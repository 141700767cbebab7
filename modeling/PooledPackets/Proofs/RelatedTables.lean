import Mathlib.Data.List.Forall2
import PooledPackets.Table

/-!
# Related tables

Two tables that file related values under the same numbers answer alike and
stay related when related values are filed in both.
-/

namespace PooledPackets.Table

universe u v

variable {α : Type u} {β : Type v} {related : α → β → Prop}

/-- Entries with the same number and related values. -/
def SameEntry (related : α → β → Prop) (entry : Nat × α)
    (other : Nat × β) : Prop :=
  entry.1 = other.1 ∧ related entry.2 other.2

/-- Tables with the same numbers and related values under them. -/
def Related (related : α → β → Prop) (table : Table α)
    (other : Table β) : Prop :=
  List.Forall₂ (SameEntry related) table.entries other.entries

namespace Related

variable {table : Table α} {other : Table β}

theorem lookup {key : Nat} {entries : List (Nat × α)}
    {others : List (Nat × β)}
    (same : List.Forall₂ (SameEntry related) entries others) :
    Option.Rel related (Table.lookup key entries)
      (Table.lookup key others) := by
  induction same with
  | nil => exact .none
  | @cons entry entry' _ _ first _ inductionHypothesis =>
      obtain ⟨number, value⟩ := entry
      obtain ⟨_, value'⟩ := entry'
      obtain ⟨rfl, together⟩ := first
      simp only [Table.lookup]
      by_cases isNumber : key = number
      · rw [if_pos isNumber, if_pos isNumber]
        exact .some together
      · rw [if_neg isNumber, if_neg isNumber]
        exact inductionHypothesis

theorem get? (same : table.Related related other) (key : Nat) :
    Option.Rel related (table.get? key) (other.get? key) :=
  lookup same

theorem contains_eq (same : table.Related related other) (key : Nat) :
    table.contains key = other.contains key := by
  have both := same.get? key
  unfold contains
  generalize table.get? key = found, other.get? key = found' at both ⊢
  cases both with
  | some _ => rfl
  | none => rfl

theorem place {key : Nat} {value : α} {value' : β}
    (together : related value value') {entries : List (Nat × α)}
    {others : List (Nat × β)}
    (same : List.Forall₂ (SameEntry related) entries others) :
    List.Forall₂ (SameEntry related) (Table.place key value entries)
      (Table.place key value' others) := by
  induction same with
  | nil => exact .cons ⟨rfl, together⟩ .nil
  | @cons entry entry' _ _ first later inductionHypothesis =>
      obtain ⟨number, held⟩ := entry
      obtain ⟨_, held'⟩ := entry'
      obtain ⟨rfl, heldTogether⟩ := first
      simp only [Table.place]
      split
      · exact .cons ⟨rfl, together⟩ (.cons ⟨rfl, heldTogether⟩ later)
      · split
        · exact .cons ⟨rfl, together⟩ later
        · exact .cons ⟨rfl, heldTogether⟩ inductionHypothesis

theorem insert (same : table.Related related other) {value : α}
    {value' : β} (together : related value value') (key : Nat) :
    (table.insert key value).Related related (other.insert key value') :=
  place together same

/-- A test that related entries pass together is passed by some entry of both
tables or of neither. -/
theorem any_eq (same : table.Related related other)
    {test : Nat × α → Bool} {test' : Nat × β → Bool}
    (agree : ∀ entry ∈ table.entries, ∀ entry',
      SameEntry related entry entry' → test entry = test' entry') :
    table.entries.any test = other.entries.any test' := by
  unfold Related at same
  generalize table.entries = entries, other.entries = others at same agree ⊢
  induction same with
  | nil => rfl
  | cons first _ inductionHypothesis =>
      rw [List.any_cons, List.any_cons,
        agree _ (List.mem_cons_self ..) _ first,
        inductionHypothesis fun entry member => agree entry (.tail _ member)]

theorem exists_of_mem (same : table.Related related other)
    {entry : Nat × α} (member : entry ∈ table.entries) :
    ∃ entry' ∈ other.entries, SameEntry related entry entry' := by
  unfold Related at same
  generalize table.entries = entries, other.entries = others at same member ⊢
  induction same with
  | nil => simp at member
  | cons first _ inductionHypothesis =>
      rcases List.mem_cons.mp member with rfl | inRest
      · exact ⟨_, List.mem_cons_self .., first⟩
      · obtain ⟨entry', isThere, together⟩ := inductionHypothesis inRest
        exact ⟨entry', .tail _ isThere, together⟩

/-- Entries chosen by their numbers alone. -/
theorem chosen (chooses : Nat → Bool) :
    ∀ {entries : List (Nat × α)} {others : List (Nat × β)},
      List.Forall₂ (SameEntry related) entries others →
        List.Forall₂ (SameEntry related)
          (entries.filter fun entry => chooses entry.1)
          (others.filter fun entry => chooses entry.1)
  | [], [], .nil => .nil
  | (number, value) :: rest, (_, value') :: rest', .cons same later => by
      obtain ⟨rfl, together⟩ := same
      have others := chosen chooses later
      rw [List.filter_cons, List.filter_cons]
      by_cases isChosen : chooses number = true
      · rw [if_pos isChosen, if_pos isChosen]
        exact .cons ⟨rfl, together⟩ others
      · rw [if_neg isChosen, if_neg isChosen]
        exact others

theorem last : ∀ {entries : List (Nat × α)} {others : List (Nat × β)},
    List.Forall₂ (SameEntry related) entries others →
      Option.Rel (SameEntry related) entries.getLast? others.getLast?
  | [], [], .nil => .none
  | [entry], [other], .cons same .nil => .some same
  | _ :: second :: rest, _ :: second' :: rest', .cons _ later => by
      rw [List.getLast?_cons_cons, List.getLast?_cons_cons]
      exact last later

theorem last? (same : table.Related related other) :
    Option.Rel (SameEntry related) table.last? other.last? :=
  last same

theorem lastBelow? (same : table.Related related other) (bound : Nat) :
    Option.Rel (SameEntry related) (table.lastBelow? bound)
      (other.lastBelow? bound) :=
  last (chosen (fun number => decide (number < bound)) same)

theorem entriesFrom (same : table.Related related other) (start : Nat) :
    List.Forall₂ (SameEntry related) (table.entriesFrom start)
      (other.entriesFrom start) :=
  chosen (fun number => decide (start ≤ number)) same

end Related

end PooledPackets.Table
