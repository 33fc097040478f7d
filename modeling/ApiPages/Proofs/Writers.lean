import ApiPages.Proofs.Ready
import ApiPages.Proofs.Sink

/-!
Two writers that share a directory. Each opens a document for a name of its own and takes steps with
it. While the directory stands, what an act gives depends on the document of its writer and on the
entry in the place of that document alone, and it changes this entry at most.
-/
namespace ApiPages

open FileTree

namespace FileTree

variable {t u : FileTree} {p directory : Path} {here place : List Text} {name : Text}

theorem entryAt_congr (hlocate : t.locate p = u.locate p)
    (hentry : ∀ place, t.locate p = .ok place → t.get? place = u.get? place) :
    t.entryAt p = u.entryAt p := by
  rw [entryAt, entryAt, ← hlocate]
  cases hplace : t.locate p with
  | error r => rfl
  | ok place => rw [ok_bind, ok_bind, hentry place hplace]

theorem isDirectory?_congr (hlocate : t.locate p = u.locate p)
    (hentry : ∀ place, t.locate p = .ok place → t.get? place = u.get? place) :
    t.isDirectory? p = u.isDirectory? p := by
  rw [isDirectory?, isDirectory?, entryAt_congr hlocate hentry]

theorem locate_append_eq (hname : IsPage name) (ht : t.DirectoryAt directory here)
    (hu : u.DirectoryAt directory here) :
    t.locate (directory.append name) = u.locate (directory.append name) := by
  rw [Path.append_component hname.toIsComponent, ht.locate_below, hu.locate_below]

theorem place_of_locate_append (hname : IsPage name) (ht : t.DirectoryAt directory here)
    (h : t.locate (directory.append name) = .ok place) : place = here ++ [name] := by
  rw [Path.append_component hname.toIsComponent, ht.locate_below] at h
  split at h
  · cases h
  · rw [placeIn_eq_ok h, Lexical.enter, if_neg hname.ne_up]

end FileTree

/-- What a writer does: it opens its document, or takes a step with the document it has. -/
inductive Act where
  | create
  | step (s : Step)
  deriving DecidableEq, Repr

/-- What an act gives. Who has no document takes no step and has no outcome. -/
structure Turn where
  outcome : Option (Except StepError StepValue)
  document : Option Document
  world : World

def Act.run (language : Text) (path : Path) (document : Option Document) (w : World) : Act → Turn
  | .create =>
    match Document.create path w with
    | .ok d w => ⟨some (.ok .nothing), some d, w⟩
    | .error e w => ⟨some (.error (.page e)), none, w⟩
  | .step s =>
    match document with
    | none => ⟨none, none, w⟩
    | some d =>
      let result := s.run language d w
      ⟨some result.outcome, some result.document, result.world⟩

def Standing (directory : Path) (here : List Text) (t : FileTree) : Prop :=
  directory.fault? ≠ none ∨ t.DirectoryAt directory here

/-- Turns in two worlds that give the same and do the same: nothing, or write one file. -/
structure SameTurn (place : List Text) (w u : World) (a b : Turn) : Prop where
  outcome : a.outcome = b.outcome
  document : a.document = b.document
  trees : (a.world.tree = w.tree ∧ b.world.tree = u.tree) ∨
    ∃ octets, w.tree.get? place ≠ some .directory ∧ u.tree.get? place ≠ some .directory ∧
      a.world.tree = w.tree.set place (.file octets) ∧
      b.world.tree = u.tree.set place (.file octets)

section Acts

variable {language : Text} {directory : Path} {here : List Text} {name : Text} {d : Document}
  {w u : World}

theorem Document.create_of_parent {p : Path} (hthere : w.tree.DirectoryAt p.parent here)
    (hclean : p.parent.fault? = none) :
    create p w =
      match w.tree.isDirectory? p with
      | .error r => .error (.refused ⟨r, p⟩) w
      | .ok true => .error (.sink (.isDirectory p)) w
      | .ok false => .ok ⟨p, [], false⟩ w := by
  have hmade := hthere.makeDirectories_eq hclean
  cases hkind : w.tree.isDirectory? p with
  | error r => simp only [create, hclean, hmade, hkind]
  | ok b => cases b <;> simp only [create, hclean, hmade, hkind]

theorem Act.create_same (hname : IsPage name) (hw : Standing directory here w.tree)
    (hu : Standing directory here u.tree)
    (hentry : w.tree.get? (here ++ [name]) = u.tree.get? (here ++ [name]))
    (document : Option Document) :
    SameTurn (here ++ [name]) w u (Act.create.run language (directory.append name) document w)
      (Act.create.run language (directory.append name) document u) := by
  have hparent := Path.parent_append hname directory
  cases hclean : directory.fault? with
  | some fault =>
    have hfault : ∀ w, Document.create (directory.append name) w = .error (.fault fault) w := by
      intro w
      unfold Document.create
      rw [hparent, hclean]
    rw [Act.run, Act.run, hfault, hfault]
    exact ⟨rfl, rfl, .inl ⟨rfl, rfl⟩⟩
  | none =>
    have hw := hw.resolve_left (by simp [hclean])
    have hu := hu.resolve_left (by simp [hclean])
    have hseen : w.tree.isDirectory? (directory.append name) =
        u.tree.isDirectory? (directory.append name) := by
      refine isDirectory?_congr (locate_append_eq hname hw hu) fun place hplace => ?_
      rw [place_of_locate_append hname hw hplace, hentry]
    rw [← hparent] at hw hu hclean
    rw [Act.run, Act.run, Document.create_of_parent hw hclean, Document.create_of_parent hu hclean,
      hseen]
    rcases u.tree.isDirectory? (directory.append name) with r | _ | _ <;>
      exact ⟨rfl, rfl, .inl ⟨rfl, rfl⟩⟩

theorem Step.ofAppend_world_free (d : Document) (w u : World) (r : Except SinkError Document) :
    (Step.ofAppend d w r).outcome = (Step.ofAppend d u r).outcome ∧
      (Step.ofAppend d w r).document = (Step.ofAppend d u r).document := by
  cases r <;> exact ⟨rfl, rfl⟩

theorem Step.ofMember_world_free (d : Document) (w u : World) (r : Except Rejection Lines) :
    (Step.ofMember d w r).outcome = (Step.ofMember d u r).outcome ∧
      (Step.ofMember d w r).document = (Step.ofMember d u r).document := by
  cases r with
  | ok lines => exact Step.ofAppend_world_free d w u _
  | error r => exact ⟨rfl, rfl⟩

theorem Step.ofMembers_world_free (d : Document) (w u : World)
    (r : Except SinkError Document × List Drop) :
    (Step.ofMembers d w r).outcome = (Step.ofMembers d u r).outcome ∧
      (Step.ofMembers d w r).document = (Step.ofMembers d u r).document := by
  obtain ⟨result, drops⟩ := r
  cases result <;> exact ⟨rfl, rfl⟩

theorem Step.run_world_free {s : Step} (hfinalize : s ≠ .finalize) (hobstruct : s ≠ .obstruct)
    (d : Document) (w u : World) :
    (s.run language d w).outcome = (s.run language d u).outcome ∧
      (s.run language d w).document = (s.run language d u).document := by
  cases s with
  | heading => exact Step.ofAppend_world_free d w u _
  | text => exact Step.ofAppend_world_free d w u _
  | newLine => exact Step.ofAppend_world_free d w u _
  | startMethodTable => exact Step.ofAppend_world_free d w u _
  | methodRow => exact Step.ofMember_world_free d w u _
  | startFieldTable => exact Step.ofAppend_world_free d w u _
  | fieldRow => exact Step.ofMember_world_free d w u _
  | fieldBlock => exact Step.ofMember_world_free d w u _
  | methodBlock => exact Step.ofMember_world_free d w u _
  | methods => exact Step.ofMembers_world_free d w u _
  | fields => exact Step.ofMembers_world_free d w u _
  | render => exact ⟨rfl, rfl⟩
  | finalize => exact absurd rfl hfinalize
  | obstruct => exact absurd rfl hobstruct

theorem FileTree.writeFile_same {t v : FileTree} (hname : IsPage name)
    (ht : t.DirectoryAt directory here) (hv : v.DirectoryAt directory here)
    (hentry : t.get? (here ++ [name]) = v.get? (here ++ [name])) (hroom : t.room = v.room)
    (octets? : Option (List UInt8)) :
    (∃ r, t.writeFile (directory.append name) octets? = (.error (.refused r), t) ∧
      v.writeFile (directory.append name) octets? = (.error (.refused r), v)) ∨
    t.get? (here ++ [name]) ≠ some .directory ∧ ∃ result octets,
      t.writeFile (directory.append name) octets? =
        (result, t.set (here ++ [name]) (.file octets)) ∧
      v.writeFile (directory.append name) octets? =
        (result, v.set (here ++ [name]) (.file octets)) := by
  have hlocate := locate_append_eq hname ht hv
  cases hplace : t.locate (directory.append name) with
  | error r =>
    rw [hplace] at hlocate
    refine .inl ⟨r, ?_, ?_⟩
    · rw [writeFile, openAt_of_locate_eq_error hplace]
    · rw [writeFile, openAt_of_locate_eq_error hlocate.symm]
  | ok place =>
    obtain rfl := place_of_locate_append hname ht hplace
    rw [hplace] at hlocate
    by_cases hfree : t.get? (here ++ [name]) = some .directory
    · refine .inl ⟨.isDirectory, ?_, ?_⟩
      · rw [writeFile, openAt_of_directoryAt ⟨hplace, hfree⟩]
      · rw [writeFile, openAt_of_directoryAt ⟨hlocate.symm, hentry ▸ hfree⟩]
    · have htaken :
          ∀ octets, t.taken (here ++ [name]) octets = v.taken (here ++ [name]) octets := by
        intro octets
        rw [taken, taken, hroom]
      refine .inr ⟨hfree, ?_⟩
      rw [writeFile, writeFile, openAt_eq_ok_iff.mpr ⟨hplace, hfree⟩,
        openAt_eq_ok_iff.mpr ⟨hlocate.symm, hentry ▸ hfree⟩]
      cases octets? with
      | none => exact ⟨_, _, rfl, rfl⟩
      | some octets =>
        dsimp only
        rw [htaken]
        exact ⟨_, _, rfl, rfl⟩

theorem Act.finalize_same (hname : IsPage name) (hpath : d.path = directory.append name)
    (hw : Standing directory here w.tree) (hu : Standing directory here u.tree)
    (hentry : w.tree.get? (here ++ [name]) = u.tree.get? (here ++ [name]))
    (hroom : w.tree.room = u.tree.room) :
    SameTurn (here ++ [name]) w u
      (Act.run language (directory.append name) (some d) w (.step .finalize))
      (Act.run language (directory.append name) (some d) u (.step .finalize)) := by
  simp only [Act.run, Step.run]
  unfold Document.finalize
  cases d.finalized with
  | true => exact ⟨rfl, rfl, .inl ⟨rfl, rfl⟩⟩
  | false =>
    simp only [Bool.false_eq_true, if_false]
    cases hclean : d.path.fault? with
    | some fault => exact ⟨rfl, rfl, .inl ⟨rfl, rfl⟩⟩
    | none =>
      have hdirectory : directory.fault? = none := by
        have hparent := Path.fault?_parent hclean
        rwa [hpath, Path.parent_append hname] at hparent
      have hw := hw.resolve_left (not_not_intro hdirectory)
      have hu := hu.resolve_left (not_not_intro hdirectory)
      rcases FileTree.writeFile_same hname hw hu hentry hroom (Utf8.encode? d.lines.render) with
        ⟨r, hleft, hright⟩ | ⟨hfree, result, octets, hleft, hright⟩
      · rw [← hpath] at hleft hright
        simp only [hleft, hright]
        exact ⟨rfl, rfl, .inl ⟨rfl, rfl⟩⟩
      · rw [← hpath] at hleft hright
        simp only [hleft, hright]
        rcases result with (_ | _ | _) | _ <;>
          exact ⟨rfl, rfl, .inr ⟨octets, hfree, hentry ▸ hfree, rfl, rfl⟩⟩

/-- What an act gives and does depends on the document, the entry in its place, and the room. -/
theorem Act.run_same (language : Text) {act : Act} {document : Option Document}
    (hact : act ≠ .step .obstruct) (hname : IsPage name)
    (hpath : ∀ d, document = some d → d.path = directory.append name)
    (hw : Standing directory here w.tree) (hu : Standing directory here u.tree)
    (hentry : w.tree.get? (here ++ [name]) = u.tree.get? (here ++ [name]))
    (hroom : w.tree.room = u.tree.room) :
    SameTurn (here ++ [name]) w u (act.run language (directory.append name) document w)
      (act.run language (directory.append name) document u) := by
  cases act with
  | create => exact Act.create_same hname hw hu hentry document
  | step s =>
    have hobstruct : s ≠ .obstruct := fun hs => hact (hs ▸ rfl)
    cases document with
    | none => exact ⟨rfl, rfl, .inl ⟨rfl, rfl⟩⟩
    | some d =>
      by_cases hfinalize : s = .finalize
      · subst hfinalize
        exact Act.finalize_same hname (hpath d rfl) hw hu hentry hroom
      · obtain ⟨houtcome, hdocument⟩ := Step.run_world_free hfinalize hobstruct d w u
        exact ⟨congrArg some houtcome, congrArg some hdocument,
          .inl ⟨Step.run_tree hfinalize hobstruct, Step.run_tree hfinalize hobstruct⟩⟩

theorem Act.run_path {path : Path} {act : Act} {document : Option Document}
    (hpath : ∀ d, document = some d → d.path = path) {e : Document}
    (he : (act.run language path document w).document = some e) : e.path = path := by
  cases act with
  | create =>
    have hopening := Document.create_opening path w
    rw [Act.run] at he
    split at he
    · rename_i hopened
      rw [hopened] at hopening
      cases he
      rw [hopening.done.document]
    · cases he
  | step s =>
    cases document with
    | none => cases he
    | some d =>
      cases he
      by_cases hfinalize : s = .finalize
      · subst hfinalize
        rw [Step.run_finalize_document]
        exact hpath d rfl
      · exact (Step.run_grows hfinalize).path.trans (hpath d rfl)

theorem Standing.set {t : FileTree} (h : Standing directory here t) {place : List Text}
    (hfree : t.get? place ≠ some .directory) (e : Entry) :
    Standing directory here (t.set place e) :=
  h.imp_right fun hthere => hthere.mono (hasDirectoriesOf_set hfree e)

end Acts

end ApiPages
