import Mathlib.Data.List.Basic
import ApiPages.Proofs.Resolution

/-!
Paths between packages and pages. The path of a page is settled by the parts of the two packages: it
goes up to where they part and then down, with no step too many, whatever directory the program runs
in, and it leads from the one to the other.
-/
namespace ApiPages

namespace Lexical

theorem way_self (place : List Text) : way place place = [] := by
  have h := way_append place [] []
  rwa [List.append_nil] at h

theorem way_eq_nil_iff {source target : List Text} : way source target = [] ↔ source = target := by
  constructor
  · intro h
    obtain ⟨shared, hshared, hway⟩ := exists_sharedStart_way source target
    rw [h, eq_comm, List.append_eq_nil_iff, List.replicate_eq_nil_iff, List.drop_eq_nil_iff] at hway
    have hsource := hshared.ofSource.eq_of_length_le (by omega)
    have htarget := hshared.ofTarget.eq_of_length_le (by omega)
    rw [← hsource, htarget]
  · rintro rfl
    exact way_self source

/-- The path from one place to another: up to where they part, and down from there. -/
structure IsPathBetween (source target : List Text) (path : Text) : Prop where
  stays : source = target → path = stay
  goes : source ≠ target → ∃ shared, IsSharedStart shared source target ∧
    path = Text.join ['/'.code]
      (List.replicate (source.length - shared.length) up ++ target.drop shared.length)
  leads : place source path = target

theorem isPathBetween_written {source target : List Text}
    (hsteps : ∀ step ∈ way source target, IsComponent step) (hdown : up ∉ target) :
    IsPathBetween source target (written (way source target)) where
  stays := by
    intro h
    rw [way_eq_nil_iff.mpr h]
    rfl
  goes := by
    intro h
    obtain ⟨shared, hshared, hway⟩ := exists_sharedStart_way source target
    refine ⟨shared, hshared, ?_⟩
    have hsome : ¬(way source target).isEmpty = true :=
      fun hnil => h (way_eq_nil_iff.mp (List.isEmpty_iff.mp hnil))
    rw [written, if_neg hsome, hway]
  leads := by
    rw [place_written hsteps, foldl_enter_way hdown]

end Lexical

open Lexical

/-- One path, whatever the working directory is, and it is the path between the two places. -/
theorem page_path_canonical (c : Context) {source target name : Text}
    (hsource : ProperPackage source) (htarget : ProperPackage target)
    (hpage : IsPage (pageName c.fileExtension name)) :
    ∃ path, (∀ here, relativePagePath here c.fileExtension source target name = .ok path) ∧
      IsPathBetween (packageParts source)
        (packageParts target ++ [pageName c.fileExtension name]) path := by
  refine ⟨written (pageWay source target (pageName c.fileExtension name)), ?_, ?_⟩
  · intro here
    exact relativePagePath_eq hsource htarget hpage here
  · apply isPathBetween_written
    · intro step hstep
      exact isComponent_of_mem_pageWay hpage hstep
    · exact up_not_mem_page hpage

namespace Sample

def bareNames : Context := { fileExtension := [] }

end Sample

theorem sample_page_paths :
    (ProperPackage "org.acme..ui/forms".text ∧ ProperPackage "org/acme.model".text ∧
      IsPage (pageName Sample.bareNames.fileExtension "Foo".text) ∧
      ∃ path, (∀ here, relativePagePath here Sample.bareNames.fileExtension
          "org.acme..ui/forms".text "org/acme.model".text "Foo".text = .ok path) ∧
        IsPathBetween (packageParts "org.acme..ui/forms".text)
          (packageParts "org/acme.model".text ++
            [pageName Sample.bareNames.fileExtension "Foo".text]) path) ∧
      relativePagePath ["srv".text] Sample.bareNames.fileExtension
        "org.acme..ui/forms".text "org/acme.model".text "Foo".text =
          .ok "../../model/Foo".text ∧
      relativePagePath ["srv".text] Sample.bareNames.fileExtension
        "org.acme.".text "org".text "acme".text = .ok ".".text := by
  have hsource : ProperPackage "org.acme..ui/forms".text := by constructor <;> decide
  have htarget : ProperPackage "org/acme.model".text := by constructor <;> decide
  have hpage : IsPage (pageName Sample.bareNames.fileExtension "Foo".text) := by
    refine ⟨⟨?_, ?_, ?_⟩, ?_⟩ <;> decide
  exact ⟨⟨hsource, htarget, hpage, page_path_canonical Sample.bareNames hsource htarget hpage⟩,
    by decide +kernel, by decide +kernel⟩

end ApiPages
