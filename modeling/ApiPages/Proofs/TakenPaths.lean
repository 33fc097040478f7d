import Mathlib.Data.List.Induction
import Mathlib.Data.List.Nodup
import ApiPages.Proofs.BatchLinks

/-!
Batches that are refused before they start. The table of the check holds the paths of the types that
were looked at, each with the type that took it; the first type with a path in the table ends the
check. Such a type is there exactly if two types of the batch have one path, and the refusal names
it and the one that took its path, with nothing written and nothing logged.
-/
namespace ApiPages

open Job

theorem exists_first_repeat {α κ : Type} {key : α → κ} {l : List α} (h : ¬(l.map key).Nodup) :
    ∃ before b after, l = before ++ b :: after ∧ (before.map key).Nodup ∧
      ∃ a ∈ before, key a = key b := by
  induction l using List.reverseRecOn with
  | nil => exact absurd .nil h
  | append_singleton l b ih =>
    by_cases hl : (l.map key).Nodup
    · refine ⟨l, b, [], rfl, hl, ?_⟩
      by_contra hfree
      apply h
      rw [List.map_append, List.nodup_append]
      refine ⟨hl, List.nodup_singleton _, ?_⟩
      intro k hk k' hk' hsame
      obtain ⟨a, ha, rfl⟩ := List.mem_map.mp hk
      exact hfree ⟨a, ha, hsame.trans (List.mem_singleton.mp hk')⟩
    · obtain ⟨before, c, after, rfl, hrest⟩ := ih hl
      exact ⟨before, c, after ++ [b], by simp, hrest⟩

namespace Batch

/-- All types up to `later` have paths of their own, and `later` has the path of an earlier one. -/
structure FirstClash (extension : Text) (directory : Path) (types : List TypeEntry)
    (earlier later : TypeEntry) (before : List TypeEntry) : Prop where
  reached : before ++ [later] <+: types
  apart : (before.map fun t => Page.path extension t directory).Nodup
  taken : earlier ∈ before
  same_path : Page.path extension earlier directory = Page.path extension later directory

def takenBy (extension : Text) (directory : Path) (types : List TypeEntry) : List (Path × Text) :=
  (types.map fun t => (Page.path extension t directory, t.qualifiedName)).reverse

section Check

variable {style : PageStyle} {extension : Text} {directory : Path}
  {types seen before after : List TypeEntry} {s t earlier later : TypeEntry}

theorem takenBy_append_singleton :
    takenBy extension directory (seen ++ [t]) =
      (Page.path extension t directory, t.qualifiedName) :: takenBy extension directory seen := by
  rw [takenBy, List.map_append, List.reverse_append]
  rfl

theorem lookup_takenBy (hseen : (seen.map fun t => Page.path extension t directory).Nodup)
    (hs : s ∈ seen) :
    (takenBy extension directory seen).lookup (Page.path extension s directory) =
      some s.qualifiedName := by
  induction seen using List.reverseRecOn with
  | nil => exact absurd hs List.not_mem_nil
  | append_singleton seen r ih =>
    rw [List.map_append, List.nodup_append] at hseen
    obtain ⟨hearlier, -, hnew⟩ := hseen
    rw [takenBy_append_singleton, List.lookup_cons]
    rcases List.mem_append.mp hs with hs | hs
    · have hne : Page.path extension s directory ≠ Page.path extension r directory :=
        hnew _ (List.mem_map_of_mem hs) _ List.mem_cons_self
      rw [beq_false_of_ne hne]
      exact ih hearlier hs
    · obtain rfl := List.mem_singleton.mp hs
      rw [beq_self_eq_true]

theorem lookup_takenBy_eq_none
    (h : ∀ s ∈ seen, Page.path extension s directory ≠ Page.path extension t directory) :
    (takenBy extension directory seen).lookup (Page.path extension t directory) = none := by
  rw [List.lookup_eq_none_iff]
  intro entry hentry
  rw [takenBy, List.mem_reverse, List.mem_map] at hentry
  obtain ⟨s, hs, rfl⟩ := hentry
  exact bne_iff_ne.mpr (h s hs).symm

theorem checkPaths_stops (hextension : style.fileExtension = .ok extension)
    (hnodup : ((seen ++ before).map fun t => Page.path extension t directory).Nodup)
    (hs : s ∈ seen ++ before)
    (hsame : Page.path extension s directory = Page.path extension t directory) :
    checkPaths style directory (takenBy extension directory seen) (before ++ t :: after) =
      .error (.collision t.qualifiedName s.qualifiedName (Page.path extension t directory)) := by
  -- the invariant: the table is that of the types seen so far
  induction before generalizing seen with
  | nil =>
    rw [List.append_nil] at hnodup hs
    have htaken := lookup_takenBy hnodup hs
    rw [hsame] at htaken
    rw [List.nil_append, checkPaths, hextension]
    dsimp only
    rw [htaken]
  | cons r before ih =>
    have hmoved : seen ++ r :: before = (seen ++ [r]) ++ before := by simp
    have hfree : ∀ s ∈ seen, Page.path extension s directory ≠ Page.path extension r directory := by
      intro s hs
      rw [List.map_append, List.nodup_append] at hnodup
      exact hnodup.2.2 _ (List.mem_map_of_mem hs) _ List.mem_cons_self
    rw [hmoved] at hnodup hs
    have hrest := ih hnodup hs
    rw [takenBy_append_singleton] at hrest
    rw [List.cons_append, checkPaths, hextension]
    dsimp only
    rw [lookup_takenBy_eq_none hfree]
    exact hrest

theorem checkPaths_of_firstClash (hextension : style.fileExtension = .ok extension)
    (h : FirstClash extension directory types earlier later before) :
    checkPaths style directory [] types = .error (.collision later.qualifiedName
      earlier.qualifiedName (Page.path extension later directory)) := by
  obtain ⟨⟨after, rfl⟩, hapart, htaken, hsame⟩ := h
  have hnone : takenBy extension directory [] = [] := rfl
  rw [List.append_assoc, ← hnone]
  exact checkPaths_stops hextension hapart htaken hsame

theorem FirstClash.two_types (h : FirstClash extension directory types earlier later before) :
    [earlier, later].Sublist types := by
  have hboth : ([earlier] ++ [later]).Sublist (before ++ [later]) :=
    (List.singleton_sublist.mpr h.taken).append (List.Sublist.refl [later])
  exact hboth.trans h.reached.sublist

theorem exists_firstClash (hsub : [s, t].Sublist types)
    (hsame : Page.path extension s directory = Page.path extension t directory) :
    ∃ earlier later before, FirstClash extension directory types earlier later before := by
  have hrepeat : ¬(types.map fun t => Page.path extension t directory).Nodup := by
    rw [List.Nodup, List.pairwise_map, List.pairwise_iff_forall_sublist]
    intro hdistinct
    exact hdistinct hsub hsame
  obtain ⟨before, later, after, rfl, hapart, earlier, htaken, hsame⟩ :=
    exists_first_repeat hrepeat
  exact ⟨earlier, later, before, ⟨after, by simp⟩, hapart, htaken, hsame⟩

theorem firstClash_of_checkPaths {q r : Text} {p : Path}
    (h : checkPaths style directory [] types = .error (.collision q r p)) :
    ∃ extension s t before, style.fileExtension = .ok extension ∧
      FirstClash extension directory types s t before ∧ q = t.qualifiedName ∧
      r = s.qualifiedName ∧ p = Page.path extension t directory := by
  cases hextension : style.fileExtension with
  | error fault =>
    cases types with
    | nil => cases h
    | cons t rest =>
      rw [checkPaths, hextension] at h
      cases h
  | ok extension =>
    by_cases hdistinct : (types.map fun t => Page.path extension t directory).Nodup
    · rw [(checkPaths_eq_ok_iff hextension).mpr ⟨hdistinct, fun _ _ => rfl⟩] at h
      cases h
    · obtain ⟨before, t, after, rfl, hapart, s, htaken, hsame⟩ := exists_first_repeat hdistinct
      have hclash : FirstClash extension directory (before ++ t :: after) s t before :=
        ⟨⟨after, by simp⟩, hapart, htaken, hsame⟩
      rw [checkPaths_of_firstClash hextension hclash] at h
      cases h
      exact ⟨extension, s, t, before, rfl, hclash, rfl, rfl, rfl⟩

end Check

section Refusal

variable {style : PageStyle} {extension : Text} {directory : Path} {types : List TypeEntry}
  {later earlier : Text} {p : Path} {w u : World}

theorem write_of_checkPaths_error {e : BatchError}
    (h : checkPaths style directory [] types = .error e) (w : World) :
    write style types directory w = .error e w := by
  rw [write, h]
  exact bind_of_error rfl

/-- Only the check refuses two types with one path: a page that fails does so with an error of its
own. -/
theorem checkPaths_of_write
    (h : write style types directory w = .error (.collision later earlier p) u) :
    checkPaths style directory [] types = .error (.collision later earlier p) ∧ u = w := by
  cases hcheck : checkPaths style directory [] types with
  | error e =>
    rw [write_of_checkPaths_error hcheck] at h
    cases h
    exact ⟨rfl, rfl⟩
  | ok _ =>
    rw [write_of_checkPaths hcheck] at h
    split at h <;> cases h

/-- A refusal for two types with one path: whom it names, what it says and what it leaves. -/
structure RefusedClash (style : PageStyle) (directory : Path) (types : List TypeEntry) (w : World)
    (later earlier : Text) (p : Path) (u : World) : Prop where
  names : ∃ extension s t before, style.fileExtension = .ok extension ∧
    FirstClash extension directory types s t before ∧ later = t.qualifiedName ∧
    earlier = s.qualifiedName ∧ p = Page.path extension t directory ∧
    collisionMessage later earlier p = t.qualifiedName ++ " and ".text ++ s.qualifiedName ++
      " both map to ".text ++ (Page.path extension t directory).text
  nothing_done : u = w

/-- A batch is refused for two types with one path exactly if it has such types. The refusal names
the first type whose path was taken and the one that took it, and nothing has happened by then. -/
theorem taken_path_refused (style : PageStyle) (directory : Path) (types : List TypeEntry)
    (w : World) :
    ((∃ later earlier p u,
        write style types directory w = .error (.collision later earlier p) u) ↔
      ∃ extension, style.fileExtension = .ok extension ∧ ∃ s t, [s, t].Sublist types ∧
        Page.path extension s directory = Page.path extension t directory) ∧
    ∀ later earlier p u, write style types directory w = .error (.collision later earlier p) u →
      RefusedClash style directory types w later earlier p u := by
  refine ⟨⟨?_, ?_⟩, ?_⟩
  · rintro ⟨later, earlier, p, u, h⟩
    obtain ⟨hcheck, -⟩ := checkPaths_of_write h
    obtain ⟨extension, s, t, before, hextension, hclash, -⟩ := firstClash_of_checkPaths hcheck
    exact ⟨extension, hextension, s, t, hclash.two_types, hclash.same_path⟩
  · rintro ⟨extension, hextension, s, t, hsub, hsame⟩
    obtain ⟨s, t, before, hclash⟩ := exists_firstClash hsub hsame
    have hcheck := checkPaths_of_firstClash hextension hclash
    exact ⟨_, _, _, w, write_of_checkPaths_error hcheck w⟩
  · intro later earlier p u h
    obtain ⟨hcheck, hsame⟩ := checkPaths_of_write h
    obtain ⟨extension, s, t, before, hextension, hclash, rfl, rfl, rfl⟩ :=
      firstClash_of_checkPaths hcheck
    exact ⟨⟨extension, s, t, before, hextension, hclash, rfl, rfl, rfl, rfl⟩, hsame⟩

end Refusal

end Batch

/-- Two spellings of one name, with a type between them that is not in the way. -/
example :
    let respelled : TypeEntry := { Sample.base with name := ".//Base".text }
    let types := [Sample.base, Sample.heir, respelled]
    failure? (Batch.write ({} : Context).style types Sample.site) ⟨.bare ["srv".text], []⟩ =
      some (.collision respelled.qualifiedName Sample.base.qualifiedName
        (Sample.pageOf Sample.base).path) := by decide +kernel

end ApiPages
