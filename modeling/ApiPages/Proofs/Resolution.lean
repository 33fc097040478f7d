import Mathlib.Data.List.Basic
import ApiPages.Proofs.Header
import ApiPages.Proofs.Lexical

/-!
Ways that are followed. From where it starts a way leads to its target, also when it is written as
a path and read again; and between the pages of two packages the way depends on nothing but the
parts of the packages.
-/
namespace ApiPages

namespace Lexical

structure IsComponent (name : Text) : Prop where
  ne_nil : name ≠ []
  no_slash : '/'.code ∉ name
  ne_stay : name ≠ stay

theorem isComponent_up : IsComponent up := by
  constructor <;> decide

theorem isComponent_of_mem {t name : Text} (h : name ∈ components t) : IsComponent name := by
  obtain ⟨hpiece, hkept⟩ := List.mem_filter.mp h
  simp only [Bool.and_eq_true, Bool.not_eq_true', List.isEmpty_eq_false_iff, bne_iff_ne,
    ne_eq] at hkept
  refine ⟨hkept.1, ?_, hkept.2⟩
  intro hslash
  exact absurd (Text.not_of_mem_splitOnP hpiece hslash) (by decide)

theorem filter_component {name : Text} (h : IsComponent name) :
    (!name.isEmpty && name != stay) = true := by
  simp [h.ne_nil, h.ne_stay]

theorem components_of_isComponent {name : Text} (h : IsComponent name) :
    components name = [name] := by
  rw [components, List.splitOn_eq_singleton h.no_slash, List.filter_eq_self]
  intro piece hpiece
  exact List.mem_singleton.mp hpiece ▸ filter_component h

theorem components_append_slash (s t : Text) :
    components (s ++ '/'.code :: t) = components s ++ components t := by
  rw [components, List.splitOn_append_cons_self, List.filter_append]
  rfl

theorem components_join {steps : List Text} (h : ∀ step ∈ steps, IsComponent step) :
    components (Text.join ['/'.code] steps) = steps := by
  cases steps with
  | nil => rfl
  | cons step steps =>
    have hplain : ∀ s ∈ step :: steps, '/'.code ∉ s := fun s hs => (h s hs).no_slash
    rw [components, Text.join,
      List.splitOn_intercalate '/'.code hplain (List.cons_ne_nil step steps),
      List.filter_eq_self]
    intro s hs
    exact filter_component (h s hs)

theorem components_continued {first second : Text} (h : second.head? ≠ some '/'.code) :
    components (continued first second) = components first ++ components second := by
  rw [continued, if_neg h]
  split
  · rename_i hend
    rcases hend with hnil | hslash
    · rw [List.isEmpty_iff.mp hnil]
      rfl
    · obtain ⟨front, rfl⟩ := List.getLast?_eq_some_iff.mp hslash
      have hnil : components [] = [] := rfl
      rw [List.append_assoc, List.singleton_append, components_append_slash,
        components_append_slash, hnil, List.append_nil]
  · exact components_append_slash first second

theorem head?_join_ne_slash {steps : List Text} (h : ∀ step ∈ steps, IsComponent step) :
    (Text.join ['/'.code] steps).head? ≠ some '/'.code := by
  cases steps with
  | nil => simp
  | cons step steps =>
    have hstep := h step List.mem_cons_self
    have hhead : step.head? ≠ some '/'.code := fun he => hstep.no_slash (List.mem_of_head? he)
    cases steps with
    | nil => rwa [Text.join_singleton]
    | cons second steps =>
      rwa [Text.join_cons_cons, List.append_assoc, List.head?_append_of_ne_nil step hstep.ne_nil]

theorem foldl_enter_up (n : Nat) (here : List Text) :
    (List.replicate n up).foldl enter here = here.take (here.length - n) := by
  induction n generalizing here with
  | zero => simp
  | succ n ih =>
    rw [List.replicate_succ, List.foldl_cons, ih, enter, if_pos rfl, List.dropLast_eq_take,
      List.take_take, List.length_take]
    congr 1
    omega

/-- The longest beginning that two places share. -/
structure IsSharedStart (shared source target : List Text) : Prop where
  ofSource : shared <+: source
  ofTarget : shared <+: target
  longest : ∀ other, other <+: source → other <+: target → other.length ≤ shared.length

theorem IsSharedStart.cons {shared source target : List Text}
    (h : IsSharedStart shared source target) (a : Text) :
    IsSharedStart (a :: shared) (a :: source) (a :: target) where
  ofSource := (List.prefix_cons_inj a).mpr h.ofSource
  ofTarget := (List.prefix_cons_inj a).mpr h.ofTarget
  longest := by
    intro other hsource htarget
    cases other with
    | nil => exact Nat.zero_le _
    | cons b other =>
      have hbelow := h.longest other (List.cons_prefix_cons.mp hsource).2
        (List.cons_prefix_cons.mp htarget).2
      exact Nat.succ_le_succ hbelow

theorem isSharedStart_nil {source target : List Text}
    (h : ∀ a, source.head? = some a → target.head? ≠ some a) :
    IsSharedStart [] source target where
  ofSource := List.nil_prefix
  ofTarget := List.nil_prefix
  longest := by
    intro other hsource htarget
    cases other with
    | nil => exact Nat.le_refl _
    | cons b other =>
      obtain ⟨below, rfl⟩ := hsource
      obtain ⟨beside, rfl⟩ := htarget
      exact absurd rfl (h b rfl)

/-- A way is as many steps up as its source has beyond the longest part shared with the target, and
then what the target has beyond it. -/
theorem exists_sharedStart_way (source target : List Text) :
    ∃ shared, IsSharedStart shared source target ∧
      way source target =
        List.replicate (source.length - shared.length) up ++ target.drop shared.length := by
  induction source generalizing target with
  | nil => exact ⟨[], isSharedStart_nil (by simp), rfl⟩
  | cons a source ih =>
    cases target with
    | nil => exact ⟨[], isSharedStart_nil (by simp), rfl⟩
    | cons b target =>
      by_cases hab : a = b
      · obtain ⟨shared, hshared, hway⟩ := ih target
        refine ⟨a :: shared, hab ▸ hshared.cons a, ?_⟩
        rw [way, if_pos hab, hway, List.length_cons, List.length_cons, Nat.add_sub_add_right,
          List.drop_succ_cons]
      · refine ⟨[], isSharedStart_nil (by simpa using Ne.symm hab), ?_⟩
        rw [way, if_neg hab]
        rfl

theorem way_eq (source target : List Text) :
    ∃ n, n ≤ source.length ∧ source.take n = target.take n ∧
      way source target = List.replicate (source.length - n) up ++ target.drop n := by
  obtain ⟨shared, hshared, hway⟩ := exists_sharedStart_way source target
  refine ⟨shared.length, hshared.ofSource.length_le, ?_, hway⟩
  rw [← List.prefix_iff_eq_take.mp hshared.ofSource, ← List.prefix_iff_eq_take.mp hshared.ofTarget]

theorem foldl_enter_way {source target : List Text} (h : up ∉ target) :
    (way source target).foldl enter source = target := by
  obtain ⟨n, hn, hshared, hway⟩ := way_eq source target
  have hdown : up ∉ target.drop n := fun hup => h (List.mem_of_mem_drop hup)
  rw [hway, List.foldl_append, foldl_enter_up, foldl_enter_of_down hdown, Nat.sub_sub_self hn,
    hshared, List.take_append_drop]

def written (steps : List Text) : Text := if steps.isEmpty then stay else Text.join ['/'.code] steps

theorem place_written {steps : List Text} (h : ∀ step ∈ steps, IsComponent step)
    (here : List Text) : place here (written steps) = steps.foldl enter here := by
  cases steps with
  | nil => rfl
  | cons step steps =>
    have hwritten : written (step :: steps) = Text.join ['/'.code] (step :: steps) := rfl
    rw [hwritten, place, components_join h, if_neg (head?_join_ne_slash h)]

/-- A path that starts in the working directory and never goes up. -/
structure Descends (t : Text) : Prop where
  relative : t.head? ≠ some '/'.code
  down : up ∉ components t

theorem Descends.place {t : Text} (h : Descends t) (here : List Text) :
    place here t = here ++ components t := by
  rw [Lexical.place, if_neg h.relative, foldl_enter_of_down h.down]

theorem relative_of_descends {source target : Text} (hs : Descends source) (ht : Descends target)
    (hne : target ≠ []) (here : List Text) :
    relative here source target = .ok (written (way (components source) (components target))) := by
  have htarget : ¬target.isEmpty = true := fun hnil => hne (List.isEmpty_iff.mp hnil)
  rw [relative, if_neg htarget, hs.place, ht.place, way_append]
  rfl

end Lexical

open Lexical

/-- What stands between the dots and slashes of a package. -/
def packageParts (package : Text) : List Text :=
  (package.splitOnP fun c => c == '.'.code || c == '/'.code).filter fun part => !part.isEmpty

/-- The package is not a path from the root, nor does it begin with an empty part. -/
structure ProperPackage (package : Text) : Prop where
  no_dot : package.head? ≠ some '.'.code
  no_slash : package.head? ≠ some '/'.code

theorem splitOn_packagePath (package : Text) :
    (packagePath package).splitOn '/'.code =
      package.splitOnP fun c => c == '.'.code || c == '/'.code := by
  induction package with
  | nil => rfl
  | cons c rest ih =>
    have hcons :
        packagePath (c :: rest) = (if c = '.'.code then '/'.code else c) :: packagePath rest :=
      rfl
    rw [hcons, List.splitOn_cons_eq_if_modifyHead, List.splitOnP_cons_eq_if_modifyHead, ih]
    by_cases hdot : c = '.'.code
    · simp [hdot]
    · simp [hdot]

theorem components_packagePath (package : Text) :
    components (packagePath package) = packageParts package := by
  rw [components, splitOn_packagePath, packageParts, List.filter_congr]
  intro part hpart
  have hstay : part ≠ stay := by
    rintro rfl
    exact absurd (Text.not_of_mem_splitOnP hpart List.mem_cons_self) (by decide)
  simp [hstay]

theorem isComponent_of_mem_packageParts {package part : Text} (h : part ∈ packageParts package) :
    IsComponent part := by
  rw [← components_packagePath] at h
  exact isComponent_of_mem h

theorem up_not_mem_packageParts (package : Text) : up ∉ packageParts package := by
  rw [← components_packagePath]
  exact up_not_mem_packagePath package

theorem ProperPackage.descends {package : Text} (h : ProperPackage package) :
    Descends (packagePath package) where
  relative := by
    cases package with
    | nil => simp [packagePath]
    | cons c rest =>
      have hdot : c ≠ '.'.code := fun he => h.no_dot (congrArg some he)
      have hslash : c ≠ '/'.code := fun he => h.no_slash (congrArg some he)
      simp [packagePath, hdot, hslash]
  down := up_not_mem_packagePath package

structure IsPage (page : Text) : Prop extends IsComponent page where
  ne_up : page ≠ up

theorem IsPage.head?_ne {page : Text} (h : IsPage page) : page.head? ≠ some '/'.code :=
  fun he => h.no_slash (List.mem_of_head? he)

theorem components_page {package page : Text} (hpage : IsPage page) :
    components (continued (packagePath package) page) = packageParts package ++ [page] := by
  rw [components_continued hpage.head?_ne, components_packagePath,
    components_of_isComponent hpage.toIsComponent]

theorem up_not_mem_page {package page : Text} (hpage : IsPage page) :
    up ∉ packageParts package ++ [page] := by
  intro h
  rcases List.mem_append.mp h with h | h
  · exact up_not_mem_packageParts package h
  · exact hpage.ne_up (List.mem_singleton.mp h).symm

theorem continued_ne_nil (first : Text) {second : Text} (h : second ≠ []) :
    continued first second ≠ [] := by
  unfold continued
  split
  · exact h
  · split <;> simp [h]

theorem ProperPackage.descends_page {package page : Text} (h : ProperPackage package)
    (hpage : IsPage page) : Descends (continued (packagePath package) page) where
  relative := by
    rw [continued, if_neg hpage.head?_ne]
    split
    · by_cases hnil : packagePath package = []
      · rw [hnil]
        exact hpage.head?_ne
      · rw [List.head?_append_of_ne_nil _ hnil]
        exact h.descends.relative
    · rename_i hend
      have hne : packagePath package ≠ [] := fun hnil => hend (.inl (List.isEmpty_iff.mpr hnil))
      rw [List.head?_append_of_ne_nil _ hne]
      exact h.descends.relative
  down := by
    rw [components_page hpage]
    exact up_not_mem_page hpage

/-- The way from a package to a page in another, parts and all. -/
def pageWay (source target page : Text) : List Text :=
  way (packageParts source) (packageParts target ++ [page])

theorem relativePagePath_eq {extension source target name : Text} (hs : ProperPackage source)
    (ht : ProperPackage target) (hpage : IsPage (pageName extension name)) (here : List Text) :
    relativePagePath here extension source target name =
      .ok (written (pageWay source target (pageName extension name))) := by
  have hstay : Descends stay := ⟨by decide, by decide⟩
  have hstart : ∀ start, (if (packagePath source).isEmpty then stay else packagePath source) =
      start → Descends start ∧ components start = packageParts source := by
    rintro start rfl
    split
    · rename_i hnil
      rw [← components_packagePath, List.isEmpty_iff.mp hnil]
      exact ⟨hstay, rfl⟩
    · exact ⟨hs.descends, components_packagePath source⟩
  obtain ⟨hdescends, hparts⟩ := hstart _ rfl
  have hne := continued_ne_nil (packagePath target) hpage.ne_nil
  rw [relativePagePath, relative_of_descends hdescends (ht.descends_page hpage) hne, hparts,
    components_page hpage]
  rfl

theorem isComponent_of_mem_pageWay {source target page step : Text} (hpage : IsPage page)
    (h : step ∈ pageWay source target page) : IsComponent step := by
  rcases mem_way h with rfl | h
  · exact isComponent_up
  · rcases List.mem_append.mp h with h | h
    · exact isComponent_of_mem_packageParts h
    · exact (List.mem_singleton.mp h) ▸ hpage.toIsComponent

/-- Followed from any directory, the path of a page goes the way to it. -/
theorem place_written_pageWay {source target page : Text} (hpage : IsPage page)
    (here : List Text) :
    place here (written (pageWay source target page)) =
      (pageWay source target page).foldl enter here :=
  place_written (fun _ h => isComponent_of_mem_pageWay hpage h) here

end ApiPages
