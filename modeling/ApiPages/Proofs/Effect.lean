import ApiPages.Proofs.Exits
import ApiPages.Proofs.Resolution

/-!
What the build of a page does to the file tree. A build that goes through writes one file, and what
it writes there is settled before it looks at the tree. One that fails leaves every file as it was,
unless the text cannot be written to the file that was opened for it; then this file is cut short.
Nothing is removed, and the directories that are new are those above the file.
-/
namespace ApiPages

open Document Lexical

namespace Lexical

/-- Both ends start at the root, or both below the working directory without going up. -/
def Settled (source target : Text) : Prop :=
  (source.head? = some '/'.code ∧ target.head? = some '/'.code) ∨
    (Descends source ∧ Descends target)

theorem place_of_rooted {t : Text} (h : t.head? = some '/'.code) (here there : List Text) :
    place here t = place there t := by
  rw [place, place, if_pos h, if_pos h]

theorem relative_of_settled {source target : Text} (h : Settled source target)
    (here there : List Text) : relative here source target = relative there source target := by
  by_cases hnil : target = []
  · rw [relative, relative, hnil]
    rfl
  · rcases h with ⟨hsource, htarget⟩ | ⟨hsource, htarget⟩
    · rw [relative, relative, place_of_rooted hsource here there,
        place_of_rooted htarget here there]
    · rw [relative_of_descends hsource htarget hnil, relative_of_descends hsource htarget hnil]

end Lexical

theorem mapM_congr {ε α β : Type} {f g : α → Except ε β} {as : List α}
    (h : ∀ a ∈ as, f a = g a) : as.mapM f = as.mapM g := by
  induction as with
  | nil => rfl
  | cons a as ih =>
    rw [List.mapM_cons, List.mapM_cons, h a List.mem_cons_self,
      ih fun b hb => h b (List.mem_cons_of_mem a hb)]

def linkStart (package : Text) : Text :=
  if (packagePath package).isEmpty then stay else packagePath package

namespace TypeEntry

/-- No link of the page depends on the working directory. -/
def SettledLinks (t : TypeEntry) (style : PageStyle) : Prop :=
  ∀ a ∈ t.shownAncestors style.implicitRoots, a.documented = true →
    ∀ extension, style.fileExtension = .ok extension →
      Settled (linkStart t.package)
        (continued (packagePath a.package) (pageName extension a.name))

theorem hierarchy_of_settled {t : TypeEntry} {style : PageStyle} (h : t.SettledLinks style)
    (here there : List Text) : t.hierarchy style here = t.hierarchy style there := by
  rw [hierarchy, hierarchy]
  split
  · rfl
  · congr 1
    apply mapM_congr
    intro a ha
    by_cases hdoc : a.documented = true
    · rw [if_pos hdoc, if_pos hdoc]
      cases hextension : style.fileExtension with
      | error fault => rfl
      | ok extension =>
        have hlink : relativePagePath here extension t.package a.package a.name =
            relativePagePath there extension t.package a.package a.name :=
          relative_of_settled (h a ha hdoc extension hextension) here there
        change a.rendered here extension t.package = a.rendered there extension t.package
        rw [Ancestor.rendered, Ancestor.rendered, hlink]
    · rw [if_neg hdoc, if_neg hdoc, Ancestor.rendered, Ancestor.rendered, if_neg hdoc, if_neg hdoc]

end TypeEntry

namespace Page

/-- What is laid out for a type from this working directory, if all of it can be. -/
def layoutFrom (style : PageStyle) (t : TypeEntry) (here : List Text) : Body :=
  match body style here t with
  | .ok b => b
  | .error _ => ⟨[], []⟩

def textFrom (style : PageStyle) (t : TypeEntry) (here : List Text) : Text :=
  (layoutFrom style t here).lines.render

theorem layoutFrom_of_body {style : PageStyle} {t : TypeEntry} {here : List Text} {b : Body}
    (h : body style here t = .ok b) : layoutFrom style t here = b := by
  rw [layoutFrom, h]

theorem textFrom_of_settled {t : TypeEntry} {style : PageStyle} (h : t.SettledLinks style)
    (here there : List Text) : textFrom style t here = textFrom style t there := by
  have hheader : header style here t = header style there t := by
    rw [header, header, TypeEntry.hierarchy_of_settled h here there]
  rw [textFrom, textFrom, layoutFrom, layoutFrom, body, body, hheader]

end Page

open FileTree

namespace Page

/-- The file of a path holds these octets. What else is new are directories above it. -/
structure FileLeft (octets : List UInt8) (p : Path) (t u : FileTree) : Prop where
  file : ∃ place, u.locate p = .ok place ∧ u.get? place = some (.file octets) ∧
    t.get? place ≠ some .directory ∧
    ∀ other, other ≠ place → u.get? other = t.get? other ∨ MadeOn p.parent t u other
  directories_stay : u.HasDirectoriesOf t
  nothing_removed : ∀ place, t.get? place ≠ none → u.get? place ≠ none

theorem fileLeft_of_openAt {p : Path} {t v : FileTree} {place : List Text}
    (hadds : AddsDirectories p.parent t v) (h : v.openAt p = .ok place) (octets : List UInt8) :
    FileLeft octets p t (v.set place (.file octets)) := by
  obtain ⟨hplace, hfree⟩ := openAt_eq_ok_iff.mp h
  have hdirectories := hasDirectoriesOf_set hfree (.file octets)
  have hget := get?_set (ne_root_of_get? hfree) v (.file octets)
  refine ⟨⟨place, hdirectories.locate hplace, ?_, ?_, ?_⟩,
    hdirectories.trans hadds.hasDirectoriesOf, ?_⟩
  · rw [hget, if_pos rfl]
  · exact fun hdirectory => hfree (hadds.kept hdirectory)
  · intro other hother
    rw [hget, if_neg hother]
    exact (hadds.entry other).imp_right fun hmade => hmade.later hdirectories
  · intro other hother
    rw [hget]
    split
    · simp
    · obtain ⟨e, he⟩ := Option.ne_none_iff_exists'.mp hother
      simp [hadds.kept he]

theorem FileLeft.file_iff {octets content : List UInt8} {p : Path} {t u : FileTree}
    {place : List Text} (h : FileLeft octets p t u) (hplace : u.locate p ≠ .ok place) :
    u.get? place = some (.file content) ↔ t.get? place = some (.file content) := by
  obtain ⟨own, hown, -, -, helsewhere⟩ := h.file
  have hother : place ≠ own := by
    rintro rfl
    exact hplace hown
  rcases helsewhere place hother with hsame | hmade
  · rw [hsame]
  · exact hmade.file_iff

/-- What a build that fails leaves behind. Most errors come before the file is opened; there are two
that come after it, and they leave a part of the text. -/
inductive Unfinished (text : Text) (p : Path) (t u : FileTree) : PageError → Prop where
  | untouched {e : PageError} : AddsDirectories p.parent t u → Unfinished text p t u e
  | emptied : Utf8.encode? text = none → FileLeft [] p t u →
      Unfinished text p t u (.fault (.notEncodable text))
  | cut {octets front : List UInt8} : Utf8.encode? text = some octets → front <+: octets →
      front ≠ octets → FileLeft front p t u → Unfinished text p t u (.sink (.noSpace p))

/-- Whether an error can come after the file of a page was opened. -/
def late (text : Text) (p : Path) (e : PageError) : Prop :=
  e = .fault (.notEncodable text) ∨ e = .sink (.noSpace p)

/-- A build that fails changes no file, but for the page's own if the error comes late. -/
theorem Unfinished.file_iff {text : Text} {p : Path} {t u : FileTree} {e : PageError}
    {place : List Text} {content : List UInt8} (h : Unfinished text p t u e)
    (hkept : u.locate p ≠ .ok place ∨ ¬late text p e) :
    u.get? place = some (.file content) ↔ t.get? place = some (.file content) := by
  cases h with
  | untouched hadds => exact hadds.file_iff
  | emptied _ hleft =>
    rcases hkept with hplace | hearly
    · exact hleft.file_iff hplace
    · exact absurd (.inl rfl) hearly
  | cut _ _ _ hleft =>
    rcases hkept with hplace | hearly
    · exact hleft.file_iff hplace
    · exact absurd (.inr rfl) hearly

theorem unfinished_of_cutShort {text : Text} {p : Path} {t v u : FileTree} {e : PageError}
    (hadds : AddsDirectories p.parent t v) (h : CutShort text p v e u) :
    Unfinished text p t u e := by
  cases h with
  | notEncodable hopened hnone => exact .emptied hnone (fileLeft_of_openAt hadds hopened [])
  | noSpace hopened hoctets hshort =>
    exact .cut hoctets (taken_isPrefix _ _ _) hshort (fileLeft_of_openAt hadds hopened _)

/-- What a build leaves behind in the tree, both when it goes through and when it fails. -/
structure BuildEffect (style : PageStyle) (t : TypeEntry) (directory : Path) (w : World)
    (text : Text) : Prop where
  written : ∀ r u, build style t directory w = .ok r u →
    (∃ extension, style.fileExtension = .ok extension ∧ r.path = path extension t directory) ∧
      ∃ octets, Utf8.encode? text = some octets ∧ FileLeft octets r.path w.tree u.tree
  failed : ∀ e u, build style t directory w = .error e u →
    ∃ p, (∀ extension, style.fileExtension = .ok extension → p = path extension t directory) ∧
      Unfinished text p w.tree u.tree e

theorem build_effect (style : PageStyle) (t : TypeEntry) (directory : Path) (w : World) :
    BuildEffect style t directory w (textFrom style t w.tree.workingDirectory) := by
  cases hextension : style.fileExtension with
  | error fault =>
    have hbuild : build style t directory w = .error (.fault fault) w := build_of_fault hextension
    refine ⟨fun r u h => ?_, fun e u h => ?_⟩
    · rw [hbuild] at h
      cases h
    · rw [hbuild] at h
      cases h
      exact ⟨directory, fun _ hother => by simp [hextension] at hother, .untouched (.refl _ _)⟩
  | ok extension =>
    have hpath : ∀ other, style.fileExtension = .ok other →
        path extension t directory = path other t directory := by
      intro other hother
      rw [hextension] at hother
      cases hother
      rfl
    have hends : Ends style t (path extension t directory) w (build style t directory w) :=
      build_ends hextension
    refine ⟨fun r u h => ?_, fun e u h => ⟨path extension t directory, hpath, ?_⟩⟩
    · rw [h] at hends
      cases hends with
      | written hopening hbody hclosing =>
        obtain ⟨rfl, -, -, -, hadds, -⟩ := hopening.done
        obtain ⟨place, octets, -, -, hopened, hoctets, -, rfl⟩ := hclosing.done
        rw [hadds.workingDirectory] at hbody
        rw [textFrom, layoutFrom_of_body hbody]
        exact ⟨⟨extension, hextension, rfl⟩, octets, hoctets, fileLeft_of_openAt hadds hopened _⟩
    · rw [h] at hends
      cases hends with
      | unopened hopening => exact .untouched hopening.failed
      | stopped hopening => exact .untouched hopening.done.adds
      | unwritten hopening hbody hclosing =>
        obtain ⟨rfl, -, -, -, hadds, -⟩ := hopening.done
        rw [hadds.workingDirectory] at hbody
        rw [textFrom, layoutFrom_of_body hbody]
        rcases hclosing.failed with rfl | hcut
        · exact .untouched hadds
        · exact unfinished_of_cutShort hadds hcut

/-- There is one text for a page and a working directory, and it is all that a build writes. The
working directory shows in it only through links that start at the root or go up. A build that fails
leaves every file as it was, but for the page's own if it was opened before. -/
theorem build_writes_one_file (style : PageStyle) (t : TypeEntry) :
    ∃ text : List Text → Text,
      (∀ directory w, BuildEffect style t directory w (text w.tree.workingDirectory)) ∧
      (t.SettledLinks style → ∀ here there, text here = text there) :=
  ⟨textFrom style t, build_effect style t, textFrom_of_settled⟩

namespace Sample

def rooted : TypeEntry where
  name := "Rooted".text
  package := []
  ancestors := [⟨".internal.Base".text, true⟩]

def unencodable : TypeEntry where
  name := "Page".text
  package := []
  comment := [.ofNat 0xD800]

def out : Path := ⟨.none, ["out".text]⟩

def oldPage : World :=
  ⟨((FileTree.bare ["srv".text]).set ["srv".text, "out".text] .directory).set
    ["srv".text, "out".text, "Page.md".text] (.file [35]), []⟩

def buildRooted : Job PageError PageReport := build ({} : Context).style rooted out

def buildUnencodable : Job PageError PageReport := build ({} : Context).style unencodable out

end Sample

open Page.Sample Job

/-- No one text is written from all working directories, and a build that fails may empty the file
of its page. -/
theorem sample_build_is_not_atomic :
    (¬∃ text : Text, ∀ r w u, buildRooted w = .ok r u →
      ∃ octets, Utf8.encode? text = some octets ∧ u.tree.readFile r.path = .ok octets) ∧
    ∃ e u, buildUnencodable oldPage = .error e u ∧
      oldPage.tree.readFile (path ({} : Context).fileExtension unencodable out) = .ok [35] ∧
      u.tree.readFile (path ({} : Context).fileExtension unencodable out) = .ok [] := by
  constructor
  · rintro ⟨text, h⟩
    have hreads (here : List Text)
        (houtcome : outcome? buildRooted ⟨.bare here, []⟩ =
          some ⟨path ({} : Context).fileExtension rooted out, []⟩) :
        ∃ octets, Utf8.encode? text = some octets ∧
          (after buildRooted ⟨.bare here, []⟩).tree.readFile
            (path ({} : Context).fileExtension rooted out) = .ok octets :=
      h _ _ _ (eq_ok_of_outcome? houtcome)
    obtain ⟨octets, hoctets, hread⟩ := hreads ["srv".text] (by decide +kernel)
    obtain ⟨octets', hoctets', hread'⟩ :=
      hreads ["home".text, "ci".text] (by decide +kernel)
    rw [hoctets] at hoctets'
    cases hoctets'
    have hdiffer : (after buildRooted ⟨.bare ["srv".text], []⟩).tree.readFile
          (path ({} : Context).fileExtension rooted out) ≠
        (after buildRooted ⟨.bare ["home".text, "ci".text], []⟩).tree.readFile
          (path ({} : Context).fileExtension rooted out) := by decide +kernel
    exact hdiffer (hread.trans hread'.symm)
  · have hfailure : failure? buildUnencodable oldPage = some (.fault (.notEncodable
        (textFrom ({} : Context).style unencodable ["srv".text]))) := by decide +kernel
    exact ⟨_, _, eq_error_of_failure? hfailure, by decide +kernel, by decide +kernel⟩

end Page

end ApiPages
