/-!
# Orders

Fragments may arrive in any order, and a hash table gives up its entries in
any. An order is given by choices: each one picks the next item out of those
that are left. Every order can be chosen, and whatever is chosen, all items
come.
-/

namespace PooledPackets

/-- The items in the order that choices give. A choice is taken modulo the
number of items left; what is left without choices keeps its order. -/
def arrange {α : Type} : (choices : List Nat) → List α → List α
  | [], items => items
  | choice :: choices, items =>
      match items[choice % items.length]? with
      | none => items
      | some item =>
          item :: arrange choices (items.eraseIdx (choice % items.length))

private theorem perm_cons_eraseIdx {α : Type} {items : List α} {index : Nat}
    {item : α} (found : items[index]? = some item) :
    (item :: items.eraseIdx index).Perm items := by
  induction items generalizing index with
  | nil => simp at found
  | cons head tail inductionHypothesis =>
      cases index with
      | zero =>
          simp only [List.getElem?_cons_zero, Option.some.injEq] at found
          subst found
          exact List.Perm.refl _
      | succ index =>
          simp only [List.getElem?_cons_succ] at found
          simp only [List.eraseIdx_cons_succ]
          exact (List.Perm.swap head item _).trans <|
            List.Perm.cons head (inductionHypothesis found)

/-- Whatever is chosen, the same items come. -/
theorem arrange_perm {α : Type} (choices : List Nat) (items : List α) :
    (arrange choices items).Perm items := by
  induction choices generalizing items with
  | nil => exact List.Perm.refl _
  | cons choice choices inductionHypothesis =>
      simp only [arrange]
      split
      · exact List.Perm.refl _
      · next item found =>
          exact (List.Perm.cons item (inductionHypothesis _)).trans
            (perm_cons_eraseIdx found)

/-- Every order can be chosen. -/
theorem exists_arrange_eq {α : Type} {items others : List α}
    (same : others.Perm items) :
    ∃ choices, arrange choices items = others := by
  induction others generalizing items with
  | nil =>
      have empty : items = [] := List.nil_perm.mp same
      exact ⟨[], empty⟩
  | cons item rest inductionHypothesis =>
      have member : item ∈ items := same.mem_iff.mp (List.mem_cons_self ..)
      obtain ⟨index, found⟩ := List.mem_iff_getElem?.mp member
      have inside : index < items.length :=
        (List.getElem?_eq_some_iff.mp found).1
      have others : rest.Perm (items.eraseIdx index) :=
        (same.trans (perm_cons_eraseIdx found).symm).cons_inv
      obtain ⟨choices, arranged⟩ := inductionHypothesis others
      refine ⟨index :: choices, ?_⟩
      simp only [arrange, Nat.mod_eq_of_lt inside, found, arranged]

end PooledPackets
