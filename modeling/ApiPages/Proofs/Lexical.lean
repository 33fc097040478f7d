import Mathlib.Data.List.Induction
import ApiPages.Path.Lexical
import ApiPages.Proofs.Line

/-!
Places, and the ways between them. A way goes up from its start to where the two places part, and
from there on it names nothing that does not stand in its target.
-/
namespace ApiPages

namespace Lexical

theorem mem_of_mem_components {t name : Text} {c : CodePoint} (h : name ∈ components t)
    (hc : c ∈ name) :
    c ∈ t := by
  have hpiece : name ∈ t.splitOn '/'.code := (List.mem_filter.mp h).1
  have hjoin : c ∈ Text.join ['/'.code] (t.splitOn '/'.code) := (Text.infix_join hpiece).subset hc
  rwa [Text.join, List.intercalate_splitOn] at hjoin

theorem mem_way {source target : List Text} {name : Text} (h : name ∈ way source target) :
    name = up ∨ name ∈ target := by
  induction source generalizing target with
  | nil => exact .inr (by simpa [way] using h)
  | cons a source ih =>
    cases target with
    | nil =>
      have h : name ∈ List.replicate (source.length + 1) up := by simpa [way] using h
      exact .inl (List.eq_of_mem_replicate h)
    | cons b target =>
      rw [way] at h
      split at h
      · rcases ih h with h | h
        · exact .inl h
        · exact .inr (List.mem_cons_of_mem b h)
      · rcases List.mem_append.mp h with h | h
        · exact .inl (List.eq_of_mem_replicate h)
        · exact .inr h

theorem way_append (shared source target : List Text) :
    way (shared ++ source) (shared ++ target) = way source target := by
  induction shared with
  | nil => rfl
  | cons a shared ih => rw [List.cons_append, List.cons_append, way, if_pos rfl, ih]

theorem foldl_enter (names here : List Text) :
    ∃ kept added, kept <+: here ∧ names.foldl enter here = kept ++ added ∧ added ⊆ names := by
  induction names using List.reverseRecOn with
  | nil => exact ⟨here, [], List.prefix_rfl, by simp, by simp⟩
  | append_singleton names name ih =>
    obtain ⟨kept, added, hkept, hplace, hadded⟩ := ih
    have hadded : added ⊆ names ++ [name] := List.Subset.trans hadded (List.subset_append_left _ _)
    rw [List.foldl_append, hplace, List.foldl_cons, List.foldl_nil, enter]
    split
    · by_cases hnil : added = []
      · refine ⟨kept.dropLast, [], (List.dropLast_prefix kept).trans hkept, ?_, by simp⟩
        simp [hnil]
      · refine ⟨kept, added.dropLast, hkept, List.dropLast_append_of_ne_nil hnil, ?_⟩
        exact List.Subset.trans (List.dropLast_subset added) hadded
    · refine ⟨kept, added ++ [name], hkept, List.append_assoc kept added [name], ?_⟩
      exact List.append_subset.mpr ⟨hadded, List.subset_append_right _ _⟩

theorem foldl_enter_of_down {names : List Text} (h : up ∉ names) (here : List Text) :
    names.foldl enter here = here ++ names := by
  induction names generalizing here with
  | nil => simp
  | cons name names ih =>
    have hname : name ≠ up := fun he => h (he ▸ List.mem_cons_self)
    have hnames : up ∉ names := fun he => h (List.mem_cons_of_mem name he)
    rw [List.foldl_cons, ih hnames, enter, if_neg hname, List.append_assoc, List.singleton_append]

/-- On the way from a path that never goes up, the names are those of the target. Those of the
working directory show only if the source starts at the root. -/
theorem mem_way_place {here : List Text} {source target name : Text}
    (hsource : up ∉ components source) (h : name ∈ way (place here source) (place here target)) :
    name = up ∨ name ∈ components target ∨ (source.head? = some '/'.code ∧ name ∈ here) := by
  have hplace : place here source =
      (if source.head? = some '/'.code then [] else here) ++ components source :=
    foldl_enter_of_down hsource _
  obtain ⟨kept, added, hkept, htarget, hadded⟩ :=
    foldl_enter (components target) (if target.head? = some '/'.code then [] else here)
  rw [hplace, place, htarget] at h
  by_cases hroot : source.head? = some '/'.code
  · rw [if_pos hroot] at h
    rcases mem_way h with h | h
    · exact .inl h
    · rcases List.mem_append.mp h with h | h
      · have hhere := hkept.subset h
        split at hhere
        · simp at hhere
        · exact .inr (.inr ⟨hroot, hhere⟩)
      · exact .inr (.inl (hadded h))
  · rw [if_neg hroot] at h
    have hshared : kept <+: here := by
      split at hkept
      · exact hkept.trans List.nil_prefix
      · exact hkept
    obtain ⟨below, rfl⟩ := hshared
    rw [List.append_assoc, way_append] at h
    rcases mem_way h with h | h
    · exact .inl h
    · exact .inr (.inl (hadded h))

end Lexical

end ApiPages
