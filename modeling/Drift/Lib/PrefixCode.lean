import Mathlib.Data.List.Basic
import Mathlib.Data.List.Infix

/-!
# Prefix codes

In a table of code words none of which starts another, the first entry whose word a source starts with is
the one whose word was written there.
-/

namespace PrefixCode

variable {S B : Type*}

/-- No code word starts another. -/
def Free (code : B → List S) (entries : List B) : Prop :=
  entries.Pairwise fun a b => ¬ code a <+: code b ∧ ¬ code b <+: code a

instance decidableFree [DecidableEq S] (code : B → List S) (entries : List B) : Decidable (Free code entries) :=
  inferInstanceAs (Decidable (entries.Pairwise _))

theorem find?_append [DecidableEq S] {code : B → List S} {entries : List B} (hfree : Free code entries)
    {entry : B} (hentry : entry ∈ entries) (rest : List S) :
    entries.find? (fun e => (code e).isPrefixOf (code entry ++ rest)) = some entry := by
  induction entries with
  | nil => exact absurd hentry List.not_mem_nil
  | cons first entries ih =>
      obtain ⟨hfirst, hentries⟩ := List.pairwise_cons.mp hfree
      rcases List.mem_cons.mp hentry with rfl | hmem
      · rw [List.find?_cons, List.isPrefixOf_iff_prefix.mpr (List.prefix_append _ _)]
      · have hother : (code first).isPrefixOf (code entry ++ rest) = false := by
          by_contra hfound
          rw [Bool.not_eq_false] at hfound
          have hleft := List.isPrefixOf_iff_prefix.mp hfound
          have hright : code entry <+: code entry ++ rest := List.prefix_append _ _
          rcases List.prefix_or_prefix_of_prefix hleft hright with h | h
          · exact (hfirst entry hmem).1 h
          · exact (hfirst entry hmem).2 h
        rw [List.find?_cons, hother]
        exact ih hentries hmem

end PrefixCode
