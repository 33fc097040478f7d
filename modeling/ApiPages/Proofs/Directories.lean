import ApiPages.Proofs.FileTree

/-!
Directories made together with those above them, and what can be done in a directory that is
there. Whatever the outcome, nothing but directories on the path is added; if it is good, the path
leads to a directory. A path right below a directory leads somewhere unless it is too long.
-/
namespace ApiPages

def Path.tooLong (p : Path) : Bool :=
  FileTree.pathLimit ≤ Utf8.size p.text || p.parts.getLast?.any fun name =>
    name != Lexical.up && FileTree.mostNameOctets < Utf8.size name

namespace FileTree

variable {t u : FileTree} {p : Path} {place here : List Text}

theorem isDirectory?_eq_true_iff :
    t.isDirectory? p = .ok true ↔ p.fault? = none ∧ ∃ place, t.DirectoryAt p place := by
  unfold isDirectory?
  cases hclean : p.fault? with
  | some fault => simp
  | none =>
    simp only [Option.isSome_none, Bool.false_eq_true, if_false, true_and, DirectoryAt,
      ← entryAt_eq_ok_iff]
    generalize t.entryAt p = entry
    rcases entry with (_ | _ | _ | _ | _) | (_ | _) <;> simp

theorem entryAt_eq_nameTooLong_iff :
    t.entryAt p = .error .nameTooLong ↔ t.locate p = .error .nameTooLong := by
  unfold entryAt
  cases t.locate p with
  | error r => simp [bind, Except.bind]
  | ok place => cases hget : t.get? place <;> simp [bind, Except.bind, hget]

theorem isDirectory?_eq_error_iff {r : Refusal} :
    t.isDirectory? p = .error r ↔
      p.fault? = none ∧ r = .nameTooLong ∧ t.locate p = .error .nameTooLong := by
  rw [← entryAt_eq_nameTooLong_iff]
  unfold isDirectory?
  cases hclean : p.fault? with
  | some fault => simp
  | none =>
    simp only [Option.isSome_none, Bool.false_eq_true, if_false, true_and]
    generalize t.entryAt p = entry
    rcases entry with (_ | _ | _ | _ | _) | (_ | _) <;> simp [eq_comm]

theorem isDirectory?_of_locate (hplace : t.locate p = .ok place)
    (hfree : t.get? place ≠ some .directory) : t.isDirectory? p = .ok false := by
  cases hseen : t.isDirectory? p with
  | error r =>
    obtain ⟨-, -, hrefused⟩ := isDirectory?_eq_error_iff.mp hseen
    rw [hplace] at hrefused
    cases hrefused
  | ok there =>
    cases there with
    | false => rfl
    | true =>
      obtain ⟨-, other, hother, hdirectory⟩ := isDirectory?_eq_true_iff.mp hseen
      rw [hplace] at hother
      cases hother
      exact absurd hdirectory hfree

theorem directoryAt_of_unlessDirectory {r : Refusal} (h : t.unlessDirectory p r = .ok ()) :
    ∃ place, t.DirectoryAt p place := by
  unfold unlessDirectory at h
  split at h
  · rename_i hthere
    exact (isDirectory?_eq_true_iff.mp hthere).2
  · cases h
  · cases h

/-- Some directories on the way may have been made, all of them if the outcome is good. -/
structure Made (p : Path) (t : FileTree) (result : Except RefusedPath Unit × FileTree) : Prop where
  adds : AddsDirectories p t result.2
  there : result.1 = .ok () → ∃ place, result.2.DirectoryAt p place

theorem made_of_error (p : Path) (t : FileTree) (r : RefusedPath) : Made p t (.error r, t) :=
  ⟨.refl p t, fun h => nomatch h⟩

theorem made_unlessDirectory (p : Path) (t : FileTree) (r : Refusal) :
    Made p t (t.unlessDirectory p r, t) := ⟨.refl p t, directoryAt_of_unlessDirectory⟩

theorem made_of_makeDirectory (h : t.makeDirectory p = .ok u) : Made p t (.ok (), u) := by
  obtain ⟨hadds, hthere⟩ := addsDirectories_of_makeDirectory h
  exact ⟨hadds, fun _ => hthere⟩

theorem makeAll_made (root : PathRoot) (names : List Text) (t : FileTree) :
    Made ⟨root, names.reverse⟩ t (makeAll root names t) := by
  induction names generalizing t with
  | nil =>
    unfold makeAll
    split
    · rename_i hmade
      exact made_of_makeDirectory hmade
    · exact made_of_error _ t _
    · exact made_unlessDirectory _ t _
  | cons name above ih =>
    unfold makeAll
    dsimp only
    have hway : Path.OnWay ⟨root, above.reverse⟩ ⟨root, (name :: above).reverse⟩ :=
      ⟨rfl, ⟨[name], by simp⟩⟩
    split
    · rename_i hmade
      exact made_of_makeDirectory hmade
    · have habove := (ih t).adds.mono hway
      split
      · rename_i hrefused
        rw [hrefused] at habove
        exact ⟨habove, fun h => nomatch h⟩
      · rename_i hmade
        rw [hmade] at habove
        have hretry : ∀ result, Made _ _ result → Made ⟨root, (name :: above).reverse⟩ t result :=
          fun result hresult => ⟨habove.trans hresult.adds, hresult.there⟩
        apply hretry
        split
        · rename_i hmade
          exact made_of_makeDirectory hmade
        · exact made_of_error _ _ _
        · exact made_unlessDirectory _ _ _
    · exact made_unlessDirectory _ t _

theorem makeDirectories_made (t : FileTree) (p : Path) : Made p t (t.makeDirectories p) := by
  have h := makeAll_made p.root p.parts.reverse t
  rwa [List.reverse_reverse] at h

theorem openAt_of_locate_eq_error {r : Refusal} (h : t.locate p = .error r) :
    t.openAt p = .error r := by
  rw [openAt, h]
  rfl

theorem openAt_of_directoryAt (h : t.DirectoryAt p here) : t.openAt p = .error .isDirectory := by
  rw [openAt, h.1, ok_bind, h.2]

theorem directoryAt_of_makeDirectories (h : t.makeDirectories p = (.ok (), u)) :
    ∃ place, u.DirectoryAt p place := by
  have hmade := makeDirectories_made t p
  rw [h] at hmade
  exact hmade.there rfl

namespace DirectoryAt

theorem descend (h : t.DirectoryAt p here) : p.parts.foldlM t.enter (t.start p) = .ok here := by
  obtain ⟨hlocate, hdirectory⟩ := h
  unfold locate at hlocate
  split at hlocate
  · cases hlocate
  · cases hlast : p.parts.getLast? with
    | none =>
      rw [hlast] at hlocate
      rw [List.getLast?_eq_none_iff.mp hlast]
      exact hlocate
    | some name =>
      rw [hlast] at hlocate
      obtain ⟨above, habove, hplace⟩ := bind_eq_ok.mp hlocate
      obtain ⟨front, hparts⟩ := List.getLast?_eq_some_iff.mp hlast
      rw [hparts, List.dropLast_concat] at habove
      rw [hparts, List.foldlM_append]
      refine bind_eq_ok.mpr ⟨above, habove, ?_⟩
      rw [List.foldlM_cons]
      exact bind_eq_ok.mpr ⟨here, enter_eq_ok_iff.mpr ⟨hplace, hdirectory⟩, rfl⟩

theorem mono (h : t.DirectoryAt p here) (hu : u.HasDirectoriesOf t) : u.DirectoryAt p here :=
  ⟨hu.locate h.1, hu.directory here h.2⟩

theorem locate_below (h : t.DirectoryAt p here) (name : Text) :
    t.locate ⟨p.root, p.parts ++ [name]⟩ =
      if pathLimit ≤ Utf8.size (Path.text ⟨p.root, p.parts ++ [name]⟩) then .error .nameTooLong
      else placeIn here name := by
  unfold locate
  split
  · rfl
  · have hlast : (p.parts ++ [name]).getLast? = some name := List.getLast?_concat
    have hstart : t.start ⟨p.root, p.parts ++ [name]⟩ = t.start p := rfl
    rw [hlast, hstart]
    dsimp only
    rw [List.dropLast_concat, h.descend]
    rfl

theorem makeDirectories_eq (h : t.DirectoryAt p here) (hclean : p.fault? = none) :
    t.makeDirectories p = (.ok (), t) := by
  have hthere : t.isDirectory? p = .ok true := isDirectory?_eq_true_iff.mpr ⟨hclean, here, h⟩
  have hexists : t.makeDirectory p = .error .exists := by
    rw [makeDirectory, h.1, ok_bind, h.2]
  have hsettled : ∀ r, (t.unlessDirectory p r, t) = (Except.ok (), t) := by
    intro r
    rw [unlessDirectory, hthere]
  unfold makeDirectories
  cases hparts : p.parts.reverse with
  | nil =>
    have hp : p = ⟨p.root, []⟩ := by rw [← List.reverse_eq_nil_iff.mp hparts]
    unfold makeAll
    rw [← hp, hexists]
    exact hsettled _
  | cons name above =>
    have hp : p = ⟨p.root, (name :: above).reverse⟩ := by rw [← hparts, List.reverse_reverse]
    unfold makeAll
    dsimp only
    rw [← hp, hexists]
    exact hsettled _

end DirectoryAt

/-- Below a directory that is there, a path is refused only if it is too long. -/
theorem locate_of_directoryAt_parent (h : t.DirectoryAt p.parent here) :
    if p.tooLong then t.locate p = .error .nameTooLong else ∃ place, t.locate p = .ok place := by
  cases hlast : p.parts.getLast? with
  | none =>
    have hp : p.parent = p := by
      rw [Path.parent, List.getLast?_eq_none_iff.mp hlast, List.dropLast_nil,
        ← List.getLast?_eq_none_iff.mp hlast]
    rw [hp] at h
    have hshort : ¬pathLimit ≤ Utf8.size p.text := by
      intro hlong
      have hlocate := h.1
      rw [locate, if_pos hlong] at hlocate
      cases hlocate
    have hnot : p.tooLong = false := by simp [Path.tooLong, hlast, hshort]
    rw [hnot]
    exact ⟨here, h.1⟩
  | some name =>
    obtain ⟨front, hparts⟩ := List.getLast?_eq_some_iff.mp hlast
    have hparent : p.parent = ⟨p.root, front⟩ := by rw [Path.parent, hparts, List.dropLast_concat]
    have hbelow := (hparent ▸ h).locate_below name
    have hp : (⟨p.root, front ++ [name]⟩ : Path) = p := by rw [← hparts]
    dsimp only at hbelow
    rw [hp] at hbelow
    rw [hbelow, Path.tooLong, hlast]
    by_cases hlimit : pathLimit ≤ Utf8.size p.text
    · simp [hlimit]
    · by_cases hup : name = Lexical.up
      · simp [hlimit, hup, placeIn]
      · by_cases hname : mostNameOctets < Utf8.size name <;> simp [hlimit, hup, placeIn, hname]

end FileTree

end ApiPages
