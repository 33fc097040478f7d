import ApiPages.Proofs.BatchLinks
import ApiPages.Proofs.Effect

/-!
Pages that are ready. A page is ready in a tree when its directory is there and no directory is in
its place; then its build goes through, and what it reports, logs and writes is settled by the
working directory alone. A page that was built is ready to be built again, and other builds leave it
so.
-/
namespace ApiPages

open Job FileTree

namespace FileTree

variable {t : FileTree} {p : Path} {place here : List Text}

theorem placeIn_eq_ok {name : Text} (h : placeIn here name = .ok place) :
    place = Lexical.enter here name := by
  unfold placeIn at h
  unfold Lexical.enter
  split at h
  · rename_i hup
    cases h
    rw [if_pos hup]
  · rename_i hup
    split at h
    · cases h
    · cases h
      rw [if_neg hup]

theorem descend_lexical {names : List Text} (h : names.foldlM t.enter here = .ok place) :
    place = names.foldl Lexical.enter here := by
  induction names generalizing here with
  | nil =>
    cases h
    rfl
  | cons name names ih =>
    rw [List.foldlM_cons] at h
    obtain ⟨entered, hentered, h⟩ := bind_eq_ok.mp h
    rw [List.foldl_cons, ← placeIn_eq_ok (enter_eq_ok_iff.mp hentered).1]
    exact ih h

theorem locate_lexical (h : t.locate p = .ok place) : place = p.lexical t.workingDirectory := by
  unfold locate at h
  split at h
  · cases h
  · cases hlast : p.parts.getLast? with
    | none =>
      rw [hlast] at h
      cases h
      rw [Path.lexical, List.getLast?_eq_none_iff.mp hlast]
      rfl
    | some name =>
      rw [hlast] at h
      obtain ⟨above, habove, h⟩ := bind_eq_ok.mp h
      obtain ⟨front, hparts⟩ := List.getLast?_eq_some_iff.mp hlast
      rw [hparts, List.dropLast_concat] at habove
      rw [Path.lexical, hparts, List.foldl_append, placeIn_eq_ok h, descend_lexical habove]
      rfl

end FileTree

namespace Page

variable {style : PageStyle} {extension : Text} {directory p : Path} {t : TypeEntry}
  {here : List Text} {tree after : FileTree} {w u : World} {r : PageReport}

/-- What the page leaves in the log when it is written. -/
def recordsOf (p : Path) (b : Body) : List LogRecord :=
  b.drops.map .memberSkipped ++ [.linesWritten b.lines.length p, closingRecord ⟨p, b.drops⟩]

def octetsFrom (style : PageStyle) (t : TypeEntry) (here : List Text) : List UInt8 :=
  Utf8.encode (textFrom style t here)

/-- Nothing keeps the page from being written to its path. -/
structure Ready (style : PageStyle) (t : TypeEntry) (p : Path) (here : List Text)
    (tree : FileTree) : Prop where
  workingDirectory : tree.workingDirectory = here
  laid_out : body style here t = .ok (layoutFrom style t here)
  clean : p.fault? = none
  there : ∃ place, tree.DirectoryAt p.parent place
  opened : tree.openAt p = .ok (p.lexical here)
  encodable : Utf8.encodable (textFrom style t here) = true
  fits : tree.taken (p.lexical here) (octetsFrom style t here) = octetsFrom style t here

theorem Ready.later (h : Ready style t p here tree) (hdirectories : after.HasDirectoriesOf tree)
    (hfree : after.get? (p.lexical here) ≠ some .directory) : Ready style t p here after := by
  obtain ⟨place, hthere⟩ := h.there
  exact ⟨hdirectories.workingDirectory.trans h.workingDirectory, h.laid_out, h.clean,
    ⟨place, hthere.mono hdirectories⟩,
    openAt_eq_ok_iff.mpr ⟨hdirectories.locate (openAt_eq_ok_iff.mp h.opened).1, hfree⟩,
    h.encodable, (hdirectories.taken _ _).trans h.fits⟩

theorem Ready.found (h : Ready style t p here tree) : tree.locate p = .ok (p.lexical here) :=
  (openAt_eq_ok_iff.mp h.opened).1

theorem build_of_ready (hextension : style.fileExtension = .ok extension)
    (h : Ready style t (path extension t directory) here w.tree) :
    build style t directory w =
      .ok ⟨path extension t directory, (layoutFrom style t here).drops⟩
        ⟨w.tree.set ((path extension t directory).lexical here) (.file (octetsFrom style t here)),
          w.log ++ recordsOf (path extension t directory) (layoutFrom style t here)⟩ := by
  generalize hp : path extension t directory = p at h
  generalize hb : layoutFrom style t here = b
  obtain ⟨place, hthere⟩ := h.there
  obtain ⟨hfound, hfree⟩ := openAt_eq_ok_iff.mp h.opened
  have hcreate : Document.create p w = .ok ⟨p, [], false⟩ w :=
    Document.create_of_directoryAt hthere (Path.fault?_parent h.clean) hfound hfree
  have hget : (get : Job PageError World) w = .ok w w := rfl
  have hskipped : (record (b.drops.map .memberSkipped) : Job PageError Unit) w =
    .ok () { w with log := w.log ++ b.drops.map .memberSkipped } := rfl
  have hoctets : Utf8.encode? b.lines.render = some (octetsFrom style t here) := by
    rw [octetsFrom, Utf8.encode?_eq_some_iff, ← hb]
    exact ⟨h.encodable, rfl⟩
  have hfinalize : ∀ log, Document.finalize ⟨p, b.lines, false⟩ { w with log } =
      .ok () ⟨w.tree.set (p.lexical here) (.file (octetsFrom style t here)),
        log ++ [.linesWritten b.lines.length p]⟩ :=
    fun log => Document.finalize_of_openAt rfl h.clean h.opened hoctets h.fits
  rw [build, bind_of_ok (ofExcept_of_ok hextension w), hp, bind_of_ok hcreate, bind_of_ok hget,
    h.workingDirectory, h.laid_out, hb]
  have hlog : w.log ++ b.drops.map .memberSkipped ++ [.linesWritten b.lines.length p] ++
      [closingRecord ⟨p, b.drops⟩] = w.log ++ recordsOf p b := by simp [recordsOf]
  dsimp only
  rw [bind_of_ok hskipped, bind_of_ok (hfinalize _), ← hlog]
  rfl

/-- What the build of a page leaves in the tree, seen from the page and from elsewhere. -/
structure Settled (style : PageStyle) (t : TypeEntry) (p : Path) (before after : FileTree) :
    Prop where
  ready : Ready style t p before.workingDirectory after
  written : after.get? (p.lexical before.workingDirectory) =
    some (.file (octetsFrom style t before.workingDirectory))
  directories : after.HasDirectoriesOf before
  elsewhere : ∀ place e, place ≠ p.lexical before.workingDirectory →
    before.get? place = some e → after.get? place = some e

theorem settled_of_build (hextension : style.fileExtension = .ok extension)
    (h : build style t directory w = .ok r u) :
    Settled style t (path extension t directory) w.tree u.tree ∧
      r = ⟨path extension t directory, (layoutFrom style t w.tree.workingDirectory).drops⟩ ∧
      u.log = w.log ++ recordsOf (path extension t directory)
        (layoutFrom style t w.tree.workingDirectory) := by
  have hends : Ends style t (path extension t directory) w (build style t directory w) :=
    build_ends hextension
  rw [h] at hends
  cases hends with
  | @written d v u b hopening hbody hclosing =>
    obtain ⟨rfl, -, -, -, hadds, hthere⟩ := hopening.done
    obtain ⟨place, octets, -, hclean, hopened, hoctets, hfits, rfl⟩ := hclosing.done
    obtain ⟨hplace, hfree⟩ := openAt_eq_ok_iff.mp hopened
    have hlexical := locate_lexical hplace
    rw [hadds.workingDirectory] at hbody hlexical
    have hlayout := layoutFrom_of_body hbody
    obtain ⟨hencodable, rfl⟩ := Utf8.encode?_eq_some_iff.mp hoctets
    have htext : Utf8.encode b.lines.render = octetsFrom style t w.tree.workingDirectory := by
      rw [octetsFrom, textFrom, hlayout]
    dsimp only at hfits hopened
    rw [htext] at hfits
    subst hlexical
    dsimp only
    rw [htext]
    have hget := get?_set (ne_root_of_get? hfree) v.tree
      (.file (octetsFrom style t w.tree.workingDirectory))
    have hset := hasDirectoriesOf_set hfree (.file (octetsFrom style t w.tree.workingDirectory))
    refine ⟨⟨?_, ?_, hset.trans hadds.hasDirectoriesOf, ?_⟩, by rw [hlayout], ?_⟩
    · obtain ⟨above, hthere⟩ := hthere
      refine ⟨hset.workingDirectory.trans hadds.workingDirectory, hlayout.symm ▸ hbody, hclean,
        ⟨above, hthere.mono hset⟩, openAt_eq_ok_iff.mpr ⟨hset.locate hplace, ?_⟩, ?_,
        (hset.taken _ _).trans hfits⟩
      · rw [hget, if_pos rfl]
        simp
      · rw [textFrom, hlayout]
        exact hencodable
    · rw [hget, if_pos rfl]
    · intro other e hother he
      rw [hget, if_neg hother]
      exact hadds.kept he
    · cases hopening with
      | opened =>
        rw [hlayout]
        simp [recordsOf]

end Page

end ApiPages
