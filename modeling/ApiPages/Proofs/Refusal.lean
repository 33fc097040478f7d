import ApiPages.Proofs.Exits

/-!
What becomes of a refusal of the system. One to make the directory of a page, to open a file where
a directory is, or to take all of a text is reported as an error of the document. One remains that
is not: where the directory can be made and the path of the page is too long, the question whether
it is a directory is refused itself, and this refusal comes through as it is.
-/
namespace ApiPages

open FileTree Document

/-- The system, asked to make the directory of the path or to open a file there, refuses. -/
def FileTree.Refuses (t : FileTree) (p : Path) : Prop :=
  (p.parent.fault? = none ∧ ∃ r u, t.makeDirectories p.parent = (.error r, u)) ∨
    (p.fault? = none ∧ ∃ u, t.makeDirectories p.parent = (.ok (), u) ∧
      ∃ r, u.openAt p = .error r)

/-- The directory of the path can be made, but the path is too long to be looked at. -/
def FileTree.Overlong (t : FileTree) (p : Path) : Prop :=
  p.tooLong = true ∧ ∃ u, t.makeDirectories p.parent = (.ok (), u)

/-- The file of the path can be opened, but there is no room for all of the text. -/
def FileTree.LacksRoom (t : FileTree) (p : Path) (text : Text) : Prop :=
  p.fault? = none ∧ ∃ u place octets, t.makeDirectories p.parent = (.ok (), u) ∧
    u.openAt p = .ok place ∧ Utf8.encode? text = some octets ∧ u.taken place octets ≠ octets

namespace FileTree

variable {t u : FileTree} {p : Path} {here : List Text} {text : Text}

theorem locate_eq_error_of_tooLong (h : t.DirectoryAt p.parent here) (hlong : p.tooLong = true) :
    t.locate p = .error .nameTooLong := by
  simpa [hlong] using locate_of_directoryAt_parent h

theorem exists_locate_of_not_tooLong (h : t.DirectoryAt p.parent here)
    (hshort : p.tooLong = false) : ∃ place, t.locate p = .ok place := by
  simpa [hshort] using locate_of_directoryAt_parent h

theorem Overlong.refuses (h : t.Overlong p) (hclean : p.fault? = none) : t.Refuses p := by
  obtain ⟨hlong, u, hmade⟩ := h
  obtain ⟨here, hthere⟩ := directoryAt_of_makeDirectories hmade
  exact .inr ⟨hclean, u, hmade, _,
    openAt_of_locate_eq_error (locate_eq_error_of_tooLong hthere hlong)⟩

end FileTree

namespace Document

variable {p : Path} {w v : World} {d : Document}

theorem Opened.openAt (h : Opened p w d v) (hclean : p.fault? = none) :
    p.tooLong = false ∧ ∃ place, v.tree.openAt p = .ok place := by
  obtain ⟨here, hthere⟩ := h.there
  have hshort : p.tooLong = false := by
    by_contra hlong
    have hlong : p.tooLong = true := by simpa using hlong
    have hlocate := locate_eq_error_of_tooLong hthere hlong
    have hrefused := isDirectory?_eq_error_iff.mpr ⟨hclean, rfl, hlocate⟩
    rw [h.no_directory] at hrefused
    cases hrefused
  obtain ⟨place, hplace⟩ := exists_locate_of_not_tooLong hthere hshort
  refine ⟨hshort, place, openAt_eq_ok_iff.mpr ⟨hplace, fun hdirectory => ?_⟩⟩
  have htrue := isDirectory?_eq_true_iff.mpr ⟨hclean, place, hplace, hdirectory⟩
  rw [h.no_directory] at htrue
  cases htrue

theorem Opened.not_refuses (h : Opened p w d v) : ¬w.tree.Refuses p := by
  rintro (⟨-, r, u, hrefused⟩ | ⟨hclean, u, hmade, r, hrefused⟩)
  · rw [h.made] at hrefused
    cases hrefused
  · rw [h.made] at hmade
    cases hmade
    obtain ⟨-, place, hopened⟩ := h.openAt hclean
    rw [hrefused] at hopened
    cases hopened

theorem Opening.error_cases {e : PageError} (h : Opening p w (.error e v)) :
    ((∃ fault, e = .fault fault) ∧ ¬w.tree.Refuses p) ∨
      ((∃ s, e = .sink s) ∧ w.tree.Refuses p ∧ ¬w.tree.Overlong p) ∨
      (e = .refused ⟨.nameTooLong, p⟩ ∧ p.fault? = none ∧ w.tree.Overlong p) := by
  have hmade := makeDirectories_made w.tree p.parent
  cases h with
  | unnamed hfault =>
    refine .inl ⟨⟨_, rfl⟩, ?_⟩
    rintro (⟨hclean, -⟩ | ⟨hclean, -⟩)
    · rw [hfault] at hclean
      cases hclean
    · rw [Path.fault?_parent hclean] at hfault
      cases hfault
  | noDirectory hclean hrefused =>
    refine .inr (.inl ⟨⟨_, rfl⟩, .inl ⟨hclean, _, _, hrefused⟩, ?_⟩)
    rintro ⟨-, u, hdone⟩
    rw [hrefused] at hdone
    cases hdone
  | @unseen r tree _ hdone hseen =>
    obtain ⟨hclean, rfl, hlocate⟩ := isDirectory?_eq_error_iff.mp hseen
    rw [hdone] at hmade
    obtain ⟨here, hthere⟩ := hmade.there rfl
    have hlong : p.tooLong = true := by
      by_contra hshort
      obtain ⟨place, hplace⟩ := exists_locate_of_not_tooLong hthere (by simpa using hshort)
      rw [hlocate] at hplace
      cases hplace
    exact .inr (.inr ⟨rfl, hclean, hlong, tree, hdone⟩)
  | @occupied tree _ hdone hseen =>
    obtain ⟨hclean, place, hplace⟩ := isDirectory?_eq_true_iff.mp hseen
    rw [hdone] at hmade
    obtain ⟨here, hthere⟩ := hmade.there rfl
    refine .inr (.inl ⟨⟨_, rfl⟩, .inr ⟨hclean, tree, hdone, _, openAt_of_directoryAt hplace⟩, ?_⟩)
    rintro ⟨hlong, -⟩
    have hlocate := locate_eq_error_of_tooLong hthere hlong
    rw [hplace.1] at hlocate
    cases hlocate

theorem Opening.done_of_openAt {result : EStateM.Result PageError World Document} {tree : FileTree}
    {place : List Text} (h : Opening p w result) (hclean : p.fault? = none)
    (hmade : w.tree.makeDirectories p.parent = (.ok (), tree))
    (hopened : tree.openAt p = .ok place) :
    result = .ok ⟨p, [], false⟩ { w with tree } := by
  obtain ⟨hplace, hfree⟩ := openAt_eq_ok_iff.mp hopened
  have hseen := isDirectory?_of_locate hplace hfree
  cases h with
  | unnamed hfault =>
    rw [Path.fault?_parent hclean] at hfault
    cases hfault
  | noDirectory _ hrefused =>
    rw [hmade] at hrefused
    cases hrefused
  | unseen _ hdone hrefused =>
    rw [hmade] at hdone
    cases hdone
    rw [hseen] at hrefused
    cases hrefused
  | occupied _ hdone hthere =>
    rw [hmade] at hdone
    cases hdone
    rw [hseen] at hthere
    cases hthere
  | opened _ hdone _ =>
    rw [hmade] at hdone
    cases hdone
    rfl

theorem Closing.of_short {result : EStateM.Result PageError World Unit} {place : List Text}
    {octets : List UInt8} (h : Closing d w result)
    (hopen : d.finalized = false) (hclean : d.path.fault? = none)
    (hopened : w.tree.openAt d.path = .ok place)
    (hoctets : Utf8.encode? d.lines.render = some octets)
    (hshort : w.tree.taken place octets ≠ octets) :
    ∃ u, result = .error (.sink (.noSpace d.path)) u := by
  cases h with
  | alreadyFinalized hfinalized => exact absurd hfinalized (by simp [hopen])
  | unnamed _ hfault => exact absurd hfault (by simp [hclean])
  | refused _ _ hrefused => exact absurd hrefused (by simp [hopened])
  | cutShort _ _ hcut =>
    cases hcut with
    | notEncodable _ hnone => exact absurd hnone (by simp [hoctets])
    | noSpace => exact ⟨_, rfl⟩
  | written _ _ hopened' hoctets' hfits =>
    rw [hopened] at hopened'
    rw [hoctets] at hoctets'
    cases hopened'
    cases hoctets'
    exact absurd hfits hshort

end Document

namespace Page

section Refusals

variable {style : PageStyle} {t : TypeEntry} {p : Path} {w : World}
  {result : EStateM.Result PageError World PageReport}

/-- A build does not open its document, or the system does not refuse the path; then it goes through
unless it fails over a value or there is no room for the text. -/
theorem Ends.refusal_cases (h : Ends style t p w result) :
    (∃ e v, result = .error e v ∧ Opening p w (.error e v)) ∨
      (¬w.tree.Refuses p ∧
        ((∃ r u, result = .ok r u) ∨ (∃ fault u, result = .error (.fault fault) u) ∨
          ∃ b u, body style w.tree.workingDirectory t = .ok b ∧
            w.tree.LacksRoom p b.lines.render ∧ result = .error (.sink (.noSpace p)) u)) := by
  cases h with
  | unopened hopening => exact .inl ⟨_, _, rfl, hopening⟩
  | stopped hopening => exact .inr ⟨hopening.done.not_refuses, .inr (.inl ⟨_, _, rfl⟩)⟩
  | unwritten hopening hbody hclosing =>
    have hdone := hopening.done
    refine .inr ⟨hdone.not_refuses, .inr ?_⟩
    rw [hdone.adds.workingDirectory] at hbody
    obtain rfl := hdone.document
    cases hclosing with
    | alreadyFinalized hfinalized => cases hfinalized
    | unnamed => exact .inl ⟨_, _, rfl⟩
    | refused _ hclean hrefused =>
      obtain ⟨-, place, hopened⟩ := hdone.openAt hclean
      rw [hopened] at hrefused
      cases hrefused
    | cutShort _ hclean hcut =>
      cases hcut with
      | notEncodable => exact .inl ⟨_, _, rfl⟩
      | noSpace hopened hoctets hshort =>
        exact .inr ⟨_, _, hbody, ⟨hclean, _, _, _, hdone.made, hopened, hoctets, hshort⟩, rfl⟩
  | written hopening => exact .inr ⟨hopening.done.not_refuses, .inl ⟨_, _, rfl⟩⟩

theorem Ends.of_lacksRoom (h : Ends style t p w result) {b : Body}
    (hlaid : body style w.tree.workingDirectory t = .ok b)
    (hroom : w.tree.LacksRoom p b.lines.render) : ∃ u, result = .error (.sink (.noSpace p)) u := by
  obtain ⟨hclean, tree, place, octets, hmade, hopened, hoctets, hshort⟩ := hroom
  cases h with
  | unopened hopening => cases hopening.done_of_openAt hclean hmade hopened
  | stopped hopening hbody =>
    rw [hopening.done.adds.workingDirectory, hlaid] at hbody
    cases hbody
  | unwritten hopening hbody hclosing =>
    rw [hopening.done.adds.workingDirectory, hlaid] at hbody
    cases hbody
    cases hopening.done_of_openAt hclean hmade hopened
    obtain ⟨u, hresult⟩ := hclosing.of_short rfl hclean hopened hoctets hshort
    cases hresult
    exact ⟨_, rfl⟩
  | written hopening hbody hclosing =>
    rw [hopening.done.adds.workingDirectory, hlaid] at hbody
    cases hbody
    cases hopening.done_of_openAt hclean hmade hopened
    obtain ⟨u, hresult⟩ := hclosing.of_short rfl hclean hopened hoctets hshort
    cases hresult

theorem Ends.opening_of_refused {u : World} {r : RefusedPath}
    (h : Ends style t p w (.error (.refused r) u)) : Opening p w (.error (.refused r) u) := by
  cases h with
  | unopened hopening => exact hopening
  | unwritten _ _ hclosing =>
    cases hclosing with
    | cutShort _ _ hcut => cases hcut

end Refusals

/-- How the build of a page with this path reports the refusals of the system. -/
structure RefusalsReported (style : PageStyle) (t : TypeEntry) (directory : Path) (w : World)
    (p : Path) : Prop where
  reported : w.tree.Refuses p → ¬w.tree.Overlong p →
    ∃ s u, build style t directory w = .error (.sink s) u
  room_reported : ∀ b, body style w.tree.workingDirectory t = .ok b →
    w.tree.LacksRoom p b.lines.render →
    ∃ u, build style t directory w = .error (.sink (.noSpace p)) u
  bare_iff : ∀ r, (∃ u, build style t directory w = .error (.refused r) u) ↔
    r = ⟨.nameTooLong, p⟩ ∧ p.fault? = none ∧ w.tree.Overlong p
  only_refused : ∀ e u, build style t directory w = .error e u →
    (∃ fault, e = .fault fault) ∨ w.tree.Refuses p ∨
      ∃ b, body style w.tree.workingDirectory t = .ok b ∧ w.tree.LacksRoom p b.lines.render

/-- Every refusal of the system to make the directory of a page or to write the page is reported
as an error of the document, but for one: the path of the page is too long for a directory that
could be made. -/
theorem refusals_reported_unless_too_long {style : PageStyle} {extension : Text}
    (hextension : style.fileExtension = .ok extension) (t : TypeEntry) (directory : Path)
    (w : World) : RefusalsReported style t directory w (path extension t directory) := by
  have hends : Ends style t (path extension t directory) w (build style t directory w) :=
    build_ends hextension
  refine ⟨fun hrefuses hseen => ?_, fun b hlaid hroom => hends.of_lacksRoom hlaid hroom,
    fun r => ⟨?_, ?_⟩, fun e u h => ?_⟩
  · rcases hends.refusal_cases with ⟨e, v, hbuild, hopening⟩ | ⟨haccepts, -⟩
    · rcases hopening.error_cases with ⟨-, haccepts⟩ | ⟨⟨s, rfl⟩, -⟩ | ⟨-, -, hlong⟩
      · exact absurd hrefuses haccepts
      · exact ⟨s, v, hbuild⟩
      · exact absurd hlong hseen
    · exact absurd hrefuses haccepts
  · rintro ⟨u, h⟩
    rw [h] at hends
    rcases hends.opening_of_refused.error_cases with
      ⟨⟨f, hfalse⟩, -⟩ | ⟨⟨s, hfalse⟩, -⟩ | ⟨hr, hlong⟩
    · cases hfalse
    · cases hfalse
    · exact ⟨PageError.refused.inj hr, hlong⟩
  · rintro ⟨rfl, hclean, hlong⟩
    rcases hends.refusal_cases with ⟨e, v, hbuild, hopening⟩ | ⟨haccepts, -⟩
    · rcases hopening.error_cases with ⟨-, haccepts⟩ | ⟨-, -, hseen⟩ | ⟨rfl, -⟩
      · exact absurd (hlong.refuses hclean) haccepts
      · exact absurd hlong hseen
      · exact ⟨v, hbuild⟩
    · exact absurd (hlong.refuses hclean) haccepts
  · rw [h] at hends
    rcases hends.refusal_cases with ⟨e, v, hbuild, hopening⟩ | ⟨-, hbuild⟩
    · cases hbuild
      rcases hopening.error_cases with ⟨hfault, -⟩ | ⟨-, hrefuses, -⟩ | ⟨-, hclean, hlong⟩
      · exact .inl hfault
      · exact .inr (.inl hrefuses)
      · exact .inr (.inl (hlong.refuses hclean))
    · rcases hbuild with ⟨r, v, hfalse⟩ | ⟨fault, v, hfault⟩ | ⟨b, v, hlaid, hroom, -⟩
      · cases hfalse
      · cases hfault
        exact .inl ⟨fault, rfl⟩
      · exact .inr (.inr ⟨b, hlaid, hroom⟩)

namespace Sample

def longNamed : TypeEntry := { name := List.replicate 253 'A'.code, package := [] }

def longPath : Path := path ({} : Context).fileExtension longNamed ⟨.none, ["out".text]⟩

def emptyWorld : World := ⟨.bare ["srv".text], []⟩

theorem overlong_longPath : emptyWorld.tree.Overlong longPath := by
  refine ⟨by decide +kernel, ?_⟩
  have hmade : (emptyWorld.tree.makeDirectories longPath.parent).1 = .ok () := by decide +kernel
  generalize emptyWorld.tree.makeDirectories longPath.parent = result at hmade ⊢
  exact ⟨result.2, Prod.ext hmade rfl⟩

end Sample

open Page.Sample

theorem sample_refusals :
    ({} : Context).style.fileExtension = .ok ({} : Context).fileExtension ∧
      RefusalsReported ({} : Context).style longNamed ⟨.none, ["out".text]⟩ emptyWorld
        longPath := by
  have hextension : ({} : Context).style.fileExtension = .ok ({} : Context).fileExtension := rfl
  exact ⟨hextension, refusals_reported_unless_too_long hextension longNamed _ emptyWorld⟩

/-- The system refuses a page with a long name, and no error of the document says so. -/
theorem sample_refusal_comes_through :
    longPath.fault? = none ∧ emptyWorld.tree.Refuses longPath ∧
      ∃ u, build ({} : Context).style longNamed ⟨.none, ["out".text]⟩ emptyWorld =
        .error (.refused ⟨.nameTooLong, longPath⟩) u := by
  refine ⟨by decide +kernel, overlong_longPath.refuses (by decide +kernel), ?_⟩
  exact Job.failure?_eq_some_iff.mp (by decide +kernel)

end Page

end ApiPages
