import ApiPages.Page.Build
import ApiPages.Proofs.Directories
import ApiPages.Proofs.Job

/-!
All the ways in which the build of a page ends: the document is not opened, the layout stops, the
file is not written, or it is. Each way says what stood in the way and what is left in the tree, and
what is proved of builds goes through them one by one.
-/
namespace ApiPages

open Job FileTree

namespace Document

/-- How a document for a path is opened, or why it is not. -/
inductive Opening (p : Path) (w : World) : EStateM.Result PageError World Document → Prop where
  | unnamed {fault : Fault} : p.parent.fault? = some fault → Opening p w (.error (.fault fault) w)
  | noDirectory {r : RefusedPath} {tree : FileTree} : p.parent.fault? = none →
      w.tree.makeDirectories p.parent = (.error r, tree) →
      Opening p w (.error (.sink (.cannotCreate p r)) { w with tree })
  | unseen {r : Refusal} {tree : FileTree} : p.parent.fault? = none →
      w.tree.makeDirectories p.parent = (.ok (), tree) → tree.isDirectory? p = .error r →
      Opening p w (.error (.refused ⟨r, p⟩) { w with tree })
  | occupied {tree : FileTree} : p.parent.fault? = none →
      w.tree.makeDirectories p.parent = (.ok (), tree) → tree.isDirectory? p = .ok true →
      Opening p w (.error (.sink (.isDirectory p)) { w with tree })
  | opened {tree : FileTree} : p.parent.fault? = none →
      w.tree.makeDirectories p.parent = (.ok (), tree) → tree.isDirectory? p = .ok false →
      Opening p w (.ok ⟨p, [], false⟩ { w with tree })

theorem create_opening (p : Path) (w : World) : Opening p w (create p w) := by
  unfold create
  split
  · rename_i hfault
    exact .unnamed hfault
  · rename_i hclean
    split
    · rename_i hrefused
      exact .noDirectory hclean hrefused
    · rename_i hmade
      split
      · rename_i hseen
        exact .unseen hclean hmade hseen
      · rename_i hseen
        exact .occupied hclean hmade hseen
      · rename_i hseen
        exact .opened hclean hmade hseen

theorem Opening.failed {p : Path} {w v : World} {e : PageError} (h : Opening p w (.error e v)) :
    AddsDirectories p.parent w.tree v.tree := by
  have hmade := makeDirectories_made w.tree p.parent
  cases h with
  | unnamed => exact .refl _ _
  | noDirectory _ hrefused => exact (hrefused ▸ hmade).adds
  | unseen _ hdone => exact (hdone ▸ hmade).adds
  | occupied _ hdone => exact (hdone ▸ hmade).adds

structure Opened (p : Path) (w : World) (d : Document) (v : World) : Prop where
  document : d = ⟨p, [], false⟩
  clean : p.parent.fault? = none
  made : w.tree.makeDirectories p.parent = (.ok (), v.tree)
  no_directory : v.tree.isDirectory? p = .ok false
  adds : AddsDirectories p.parent w.tree v.tree
  there : ∃ here, v.tree.DirectoryAt p.parent here

theorem Opening.done {p : Path} {w v : World} {d : Document} (h : Opening p w (.ok d v)) :
    Opened p w d v := by
  have hmade := makeDirectories_made w.tree p.parent
  cases h with
  | opened hclean hdone hfree =>
    rw [hdone] at hmade
    exact ⟨rfl, hclean, hdone, hfree, hmade.adds, hmade.there rfl⟩

theorem create_of_directoryAt {p : Path} {w : World} {here place : List Text}
    (hthere : w.tree.DirectoryAt p.parent here) (hclean : p.parent.fault? = none)
    (hplace : w.tree.locate p = .ok place) (hfree : w.tree.get? place ≠ some .directory) :
    create p w = .ok ⟨p, [], false⟩ w := by
  unfold create
  rw [hclean, hthere.makeDirectories_eq hclean]
  dsimp only
  rw [isDirectory?_of_locate hplace hfree]

/-- The directory may as well have been made before. -/
theorem create_opened {p : Path} {w : World} {tree : FileTree} (hclean : p.parent.fault? = none)
    (hmade : w.tree.makeDirectories p.parent = (.ok (), tree)) :
    create p w = create p { w with tree } := by
  obtain ⟨here, hthere⟩ := directoryAt_of_makeDirectories hmade
  unfold create
  rw [hclean, hmade, hthere.makeDirectories_eq hclean]

/-- The file was opened but does not hold the text: nothing of it is there if it has no octets,
and a beginning of them if there is no room for all. -/
inductive CutShort (text : Text) (p : Path) (t : FileTree) : PageError → FileTree → Prop where
  | notEncodable {place : List Text} : t.openAt p = .ok place → Utf8.encode? text = none →
      CutShort text p t (.fault (.notEncodable text)) (t.set place (.file []))
  | noSpace {place : List Text} {octets : List UInt8} : t.openAt p = .ok place →
      Utf8.encode? text = some octets → t.taken place octets ≠ octets →
      CutShort text p t (.sink (.noSpace p)) (t.set place (.file (t.taken place octets)))

/-- How a document is finalized, or why it is not. -/
inductive Closing (d : Document) (w : World) : EStateM.Result PageError World Unit → Prop where
  | alreadyFinalized : d.finalized = true →
      Closing d w (.error (.sink (.alreadyFinalized d.path)) w)
  | unnamed {fault : Fault} : d.finalized = false → d.path.fault? = some fault →
      Closing d w (.error (.fault fault) w)
  | refused {r : Refusal} : d.finalized = false → d.path.fault? = none →
      w.tree.openAt d.path = .error r →
      Closing d w (.error (.sink (.cannotWrite d.path ⟨r, d.path⟩)) w)
  | cutShort {e : PageError} {tree : FileTree} : d.finalized = false → d.path.fault? = none →
      CutShort d.lines.render d.path w.tree e tree → Closing d w (.error e { w with tree })
  | written {place : List Text} {octets : List UInt8} : d.finalized = false →
      d.path.fault? = none → w.tree.openAt d.path = .ok place →
      Utf8.encode? d.lines.render = some octets → w.tree.taken place octets = octets →
      Closing d w (.ok () ⟨w.tree.set place (.file octets),
        w.log ++ [.linesWritten d.lines.length d.path]⟩)

theorem finalize_closing (d : Document) (w : World) : Closing d w (d.finalize w) := by
  unfold finalize
  split
  · rename_i hfinalized
    exact .alreadyFinalized hfinalized
  · rename_i hopen
    have hopen : d.finalized = false := by simpa using hopen
    split
    · rename_i hfault
      exact .unnamed hopen hfault
    · rename_i hclean
      have hwriting := writeFile_writing w.tree d.path (Utf8.encode? d.lines.render)
      generalize w.tree.writeFile d.path (Utf8.encode? d.lines.render) = result at hwriting
      generalize hoctets : Utf8.encode? d.lines.render = octets? at hwriting
      cases hwriting with
      | refused hrefused => exact .refused hopen hclean hrefused
      | notEncodable hopened => exact .cutShort hopen hclean (.notEncodable hopened hoctets)
      | noSpace hopened hshort => exact .cutShort hopen hclean (.noSpace hopened hoctets hshort)
      | written hopened hfits => exact .written hopen hclean hopened hoctets hfits

theorem Closing.failed {d : Document} {w u : World} {e : PageError} (h : Closing d w (.error e u)) :
    u = w ∨ CutShort d.lines.render d.path w.tree e u.tree := by
  cases h with
  | alreadyFinalized => exact .inl rfl
  | unnamed => exact .inl rfl
  | refused => exact .inl rfl
  | cutShort _ _ hcut => exact .inr hcut

structure Closed (d : Document) (w : World) (place : List Text) (octets : List UInt8) (u : World) :
    Prop where
  not_finalized : d.finalized = false
  clean : d.path.fault? = none
  opened : w.tree.openAt d.path = .ok place
  encoded : Utf8.encode? d.lines.render = some octets
  fits : w.tree.taken place octets = octets
  world : u = ⟨w.tree.set place (.file octets), w.log ++ [.linesWritten d.lines.length d.path]⟩

theorem Closing.done {d : Document} {w u : World} (h : Closing d w (.ok () u)) :
    ∃ place octets, Closed d w place octets u := by
  cases h with
  | written hopen hclean hopened hoctets hfits =>
    exact ⟨_, _, hopen, hclean, hopened, hoctets, hfits, rfl⟩

theorem finalize_of_openAt {d : Document} {w : World} {place : List Text} {octets : List UInt8}
    (hopen : d.finalized = false) (hclean : d.path.fault? = none)
    (hopened : w.tree.openAt d.path = .ok place)
    (hoctets : Utf8.encode? d.lines.render = some octets)
    (hfits : w.tree.taken place octets = octets) :
    d.finalize w = .ok () ⟨w.tree.set place (.file octets),
      w.log ++ [.linesWritten d.lines.length d.path]⟩ := by
  unfold finalize
  rw [hopen, hclean, hoctets, writeFile_of_openAt hopened hfits]
  rfl

end Document

open Document

namespace Page

/-- The ways in which the build of a page with this path ends. -/
inductive Ends (style : PageStyle) (t : TypeEntry) (p : Path) (w : World) :
    EStateM.Result PageError World PageReport → Prop where
  | unopened {e : PageError} {v : World} : Opening p w (.error e v) → Ends style t p w (.error e v)
  | stopped {d : Document} {v : World} {stop : Stop} : Opening p w (.ok d v) →
      body style v.tree.workingDirectory t = .error stop →
      Ends style t p w (.error (.fault stop.fault)
        { v with log := v.log ++ stop.drops.map .memberSkipped })
  | unwritten {d : Document} {v u : World} {b : Body} {e : PageError} : Opening p w (.ok d v) →
      body style v.tree.workingDirectory t = .ok b →
      Closing { d with lines := b.lines } { v with log := v.log ++ b.drops.map .memberSkipped }
        (.error e u) →
      Ends style t p w (.error e u)
  | written {d : Document} {v u : World} {b : Body} : Opening p w (.ok d v) →
      body style v.tree.workingDirectory t = .ok b →
      Closing { d with lines := b.lines } { v with log := v.log ++ b.drops.map .memberSkipped }
        (.ok () u) →
      Ends style t p w (.ok ⟨d.path, b.drops⟩
        { u with log := u.log ++ [closingRecord ⟨d.path, b.drops⟩] })

variable {style : PageStyle} {t : TypeEntry} {directory : Path} {w : World}

theorem build_of_fault {fault : Fault} (h : style.fileExtension = .error fault) :
    build style t directory w = .error (.fault fault) w := by
  apply bind_of_error
  rw [h]
  rfl

theorem build_ends {extension : Text} (h : style.fileExtension = .ok extension) :
    Ends style t (path extension t directory) w (build style t directory w) := by
  rw [build, bind_of_ok (ofExcept_of_ok h w)]
  have hopening := create_opening (path extension t directory) w
  cases hcreate : create (path extension t directory) w with
  | error e v =>
    rw [bind_of_error hcreate]
    exact .unopened (hcreate ▸ hopening)
  | ok d v =>
    rw [hcreate] at hopening
    have hget : (get : Job PageError World) v = .ok v v := rfl
    rw [bind_of_ok hcreate, bind_of_ok hget]
    cases hbody : body style v.tree.workingDirectory t with
    | error stop => exact .stopped hopening hbody
    | ok b =>
      have hskipped : (record (b.drops.map .memberSkipped) : Job PageError Unit) v =
        .ok () { v with log := v.log ++ b.drops.map .memberSkipped } := rfl
      have hclosing := finalize_closing { d with lines := b.lines }
        { v with log := v.log ++ b.drops.map .memberSkipped }
      dsimp only
      rw [bind_of_ok hskipped]
      cases hfinalize : finalize { d with lines := b.lines }
          { v with log := v.log ++ b.drops.map .memberSkipped } with
      | error e u =>
        rw [bind_of_error hfinalize]
        exact .unwritten hopening hbody (hfinalize ▸ hclosing)
      | ok _ u =>
        rw [bind_of_ok hfinalize]
        exact .written hopening hbody (hfinalize ▸ hclosing)

end Page

end ApiPages
