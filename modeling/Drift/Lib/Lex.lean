import Mathlib.Tactic.TypeStar
import Std.Data.ExtTreeMap
import Std.Data.ExtTreeSet

/-!
# Lexicographic comparison of pairs

The comparison under which maps and sets keyed by tuples are ordered.
-/

namespace Lex

open Std

variable {α β : Type*}

/-- Compares two pairs by their first and then their second components. -/
def pair (cmpα : α → α → Ordering) (cmpβ : β → β → Ordering) (a b : α × β) : Ordering :=
  (cmpα a.1 b.1).then (cmpβ a.2 b.2)

variable {cmpα : α → α → Ordering} {cmpβ : β → β → Ordering}

instance [TransCmp cmpα] [TransCmp cmpβ] : TransCmp (pair cmpα cmpβ) := by
  have hα : TransCmp fun a b : α × β => cmpα a.1 b.1 :=
    { eq_swap := OrientedCmp.eq_swap
      isLE_trans := TransCmp.isLE_trans }
  have hβ : TransCmp fun a b : α × β => cmpβ a.2 b.2 :=
    { eq_swap := OrientedCmp.eq_swap
      isLE_trans := TransCmp.isLE_trans }
  exact inferInstanceAs
    (TransCmp (compareLex (fun a b : α × β => cmpα a.1 b.1) fun a b => cmpβ a.2 b.2))

instance [LawfulEqCmp cmpα] [LawfulEqCmp cmpβ] : LawfulEqCmp (pair cmpα cmpβ) where
  compare_self := by
    intro a
    rw [pair, Ordering.then_eq_eq]
    exact ⟨ReflCmp.compare_self, ReflCmp.compare_self⟩
  eq_of_compare {a b} h := by
    rw [pair, Ordering.then_eq_eq] at h
    exact Prod.ext (LawfulEqCmp.eq_of_compare h.1) (LawfulEqCmp.eq_of_compare h.2)

end Lex
