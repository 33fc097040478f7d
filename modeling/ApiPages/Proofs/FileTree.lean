import ApiPages.FileTree.Directories
import ApiPages.Proofs.Inversion

/-!
Laws of the file tree. An operation that goes through changes the entry at one place, and where a
path leads depends only on the directories on the way; so a path that leads somewhere still leads
there when entries are added. Directories made together leave every entry as it was and add nothing
but directories on the path.
-/
namespace ApiPages

/-- The path is one of those that lead down to another, itself included. -/
def Path.OnWay (q p : Path) : Prop := q.root = p.root ∧ q.parts <+: p.parts

theorem Path.onWay_self (p : Path) : p.OnWay p := ⟨rfl, List.prefix_rfl⟩

theorem Path.OnWay.trans {p q r : Path} (h : r.OnWay q) (hq : q.OnWay p) : r.OnWay p :=
  ⟨h.1.trans hq.1, h.2.trans hq.2⟩

theorem Path.fault?_eq_none_iff {p : Path} :
    p.fault? = none ↔ ∀ part ∈ p.parts, Utf8.encodable part = true ∧ '\x00'.code ∉ part := by
  unfold fault?
  split
  · rename_i hgap
    obtain ⟨part, hpart, hnot⟩ := List.any_eq_true.mp hgap
    refine iff_of_false nofun fun h => ?_
    simp [(h part hpart).1] at hnot
  · rename_i hgap
    have hencodable : ∀ part ∈ p.parts, Utf8.encodable part = true := by simpa using hgap
    split
    · rename_i hclean
      obtain ⟨part, hpart, hholds⟩ := List.any_eq_true.mp hclean
      exact iff_of_false nofun fun h => (h part hpart).2 (by simpa using hholds)
    · rename_i hclean
      refine iff_of_true rfl fun part hpart => ⟨hencodable part hpart, ?_⟩
      simpa using List.any_eq_false.mp (Bool.eq_false_iff.mpr hclean) part hpart

theorem Path.fault?_parent {p : Path} (h : p.fault? = none) : p.parent.fault? = none := by
  rw [Path.fault?_eq_none_iff] at h ⊢
  exact fun part hpart => h part (List.dropLast_subset p.parts hpart)

namespace FileTree

variable {t u v : FileTree} {p : Path} {place here : List Text}

theorem lookup_entry_cons (q : List Text) (e : Entry) (rest : List (List Text × Entry))
    (other : List Text) :
    ((q, e) :: rest).lookup other = if other = q then some e else rest.lookup other := by
  rw [List.lookup_cons]
  by_cases h : other = q
  · simp [h]
  · rw [if_neg h, beq_false_of_ne h]

theorem lookup_put (place : List Text) (e : Entry) (entries : List (List Text × Entry))
    (other : List Text) :
    (put place e entries).lookup other =
      if other = place then some e else entries.lookup other := by
  induction entries with
  | nil => rw [put, lookup_entry_cons]
  | cons head rest ih =>
    obtain ⟨q, old⟩ := head
    rw [put]
    by_cases hq : q = place
    · rw [if_pos hq, lookup_entry_cons, lookup_entry_cons, hq]
      split <;> rfl
    · rw [if_neg hq, lookup_entry_cons, lookup_entry_cons, ih]
      by_cases h : other = q
      · rw [if_pos h, if_neg (h ▸ hq), if_pos h]
      · rw [if_neg h, if_neg h]

@[simp] theorem get?_root (t : FileTree) : t.get? [] = some .directory := rfl

theorem get?_set (hplace : place ≠ []) (t : FileTree) (e : Entry) (other : List Text) :
    (t.set place e).get? other = if other = place then some e else t.get? other := by
  cases other with
  | nil => simp [Ne.symm hplace]
  | cons name rest => simp [get?, set, lookup_put]

theorem ne_root_of_get? (h : t.get? place ≠ some .directory) : place ≠ [] := by
  rintro rfl
  exact h rfl

structure SameEntries (t u : FileTree) : Prop where
  workingDirectory : t.workingDirectory = u.workingDirectory
  room : t.room = u.room
  entry : ∀ place, t.get? place = u.get? place

/-- One tree has the directories of the other, seen from the same place. -/
structure HasDirectoriesOf (u t : FileTree) : Prop where
  workingDirectory : u.workingDirectory = t.workingDirectory
  room : u.room = t.room
  directory : ∀ place, t.get? place = some .directory → u.get? place = some .directory

theorem HasDirectoriesOf.trans (h : v.HasDirectoriesOf u) (k : u.HasDirectoriesOf t) :
    v.HasDirectoriesOf t where
  workingDirectory := h.workingDirectory.trans k.workingDirectory
  room := h.room.trans k.room
  directory place hp := h.directory place (k.directory place hp)

theorem hasDirectoriesOf_self (t : FileTree) : t.HasDirectoriesOf t :=
  ⟨rfl, rfl, fun _ => id⟩

theorem hasDirectoriesOf_set (h : t.get? place ≠ some .directory) (e : Entry) :
    (t.set place e).HasDirectoriesOf t := by
  refine ⟨rfl, rfl, fun other hother => ?_⟩
  have hne : other ≠ place := by
    rintro rfl
    exact h hother
  rw [get?_set (ne_root_of_get? h), if_neg hne, hother]

theorem enter_eq_ok_iff {name : Text} :
    t.enter here name = .ok place ↔
      placeIn here name = .ok place ∧ t.get? place = some .directory := by
  unfold enter
  rw [bind_eq_ok]
  constructor
  · rintro ⟨entered, hplace, h⟩
    split at h
    · cases h
    · cases h
    · rename_i hdirectory
      cases h
      exact ⟨hplace, hdirectory⟩
  · rintro ⟨hplace, hdirectory⟩
    refine ⟨place, hplace, ?_⟩
    rw [hdirectory]

theorem HasDirectoriesOf.descend (h : u.HasDirectoriesOf t) {names : List Text}
    (hdown : names.foldlM t.enter here = .ok place) : names.foldlM u.enter here = .ok place := by
  induction names generalizing here with
  | nil => exact hdown
  | cons name names ih =>
    rw [List.foldlM_cons] at hdown ⊢
    obtain ⟨entered, hentered, hdown⟩ := bind_eq_ok.mp hdown
    obtain ⟨hplace, hdirectory⟩ := enter_eq_ok_iff.mp hentered
    have hentered : u.enter here name = .ok entered :=
      enter_eq_ok_iff.mpr ⟨hplace, h.directory _ hdirectory⟩
    rw [hentered]
    exact ih hdown

theorem HasDirectoriesOf.locate (h : u.HasDirectoriesOf t) (hp : t.locate p = .ok place) :
    u.locate p = .ok place := by
  have hstart : u.start p = t.start p := by rw [start, start, h.workingDirectory]
  unfold FileTree.locate at hp ⊢
  rw [hstart]
  split at hp
  · cases hp
  · rename_i hshort
    rw [if_neg hshort]
    cases hlast : p.parts.getLast? with
    | none => rwa [hlast] at hp
    | some name =>
      rw [hlast] at hp
      obtain ⟨here, hhere, hp⟩ := bind_eq_ok.mp hp
      exact bind_eq_ok.mpr ⟨here, h.descend hhere, hp⟩

theorem makeDirectory_eq_ok_iff :
    t.makeDirectory p = .ok u ↔
      ∃ place, t.locate p = .ok place ∧ t.get? place = none ∧ u = t.set place .directory := by
  unfold makeDirectory
  rw [bind_eq_ok]
  constructor
  · rintro ⟨place, hplace, h⟩
    split at h
    · cases h
    · rename_i hnone
      cases h
      exact ⟨place, hplace, hnone, rfl⟩
  · rintro ⟨place, hplace, hnone, rfl⟩
    refine ⟨place, hplace, ?_⟩
    rw [hnone]

theorem openAt_eq_ok_iff :
    t.openAt p = .ok place ↔ t.locate p = .ok place ∧ t.get? place ≠ some .directory := by
  unfold openAt
  rw [bind_eq_ok]
  constructor
  · rintro ⟨place, hplace, h⟩
    split at h
    · cases h
    · rename_i hfree
      cases h
      exact ⟨hplace, hfree⟩
  · rintro ⟨hplace, hfree⟩
    refine ⟨place, hplace, ?_⟩
    split
    · rename_i hdirectory
      exact absurd hdirectory hfree
    · rfl

theorem taken_isPrefix (t : FileTree) (place : List Text) (octets : List UInt8) :
    t.taken place octets <+: octets := by
  unfold taken
  split
  · exact List.take_prefix _ _
  · exact List.prefix_rfl

theorem HasDirectoriesOf.taken (h : u.HasDirectoriesOf t) (place : List Text)
    (octets : List UInt8) : u.taken place octets = t.taken place octets := by
  rw [FileTree.taken, FileTree.taken, h.room]

/-- There is room for all of a text at a place. -/
def Fits (t : FileTree) (place : List Text) (text : Text) : Prop :=
  t.taken place (Utf8.encode text) = Utf8.encode text

/-- How a file is written, or why it is not, and what is in it by then. -/
inductive Writing (t : FileTree) (p : Path) :
    Option (List UInt8) → Except WriteFailure Unit × FileTree → Prop where
  | refused {r : Refusal} {octets? : Option (List UInt8)} : t.openAt p = .error r →
      Writing t p octets? (.error (.refused r), t)
  | notEncodable {place : List Text} : t.openAt p = .ok place →
      Writing t p none (.error .notEncodable, t.set place (.file []))
  | noSpace {place : List Text} {octets : List UInt8} : t.openAt p = .ok place →
      t.taken place octets ≠ octets →
      Writing t p (some octets) (.error .noSpace, t.set place (.file (t.taken place octets)))
  | written {place : List Text} {octets : List UInt8} : t.openAt p = .ok place →
      t.taken place octets = octets →
      Writing t p (some octets) (.ok (), t.set place (.file octets))

theorem writeFile_writing (t : FileTree) (p : Path) (octets? : Option (List UInt8)) :
    Writing t p octets? (t.writeFile p octets?) := by
  unfold writeFile
  split
  · rename_i hrefused
    exact .refused hrefused
  · rename_i place hopened
    cases octets? with
    | none => exact .notEncodable hopened
    | some octets =>
      dsimp only
      by_cases hfits : t.taken place octets = octets
      · rw [if_pos hfits, hfits]
        exact .written hopened hfits
      · rw [if_neg hfits]
        exact .noSpace hopened hfits

theorem writeFile_of_openAt {octets : List UInt8} (hopened : t.openAt p = .ok place)
    (hfits : t.taken place octets = octets) :
    t.writeFile p (some octets) = (.ok (), t.set place (.file octets)) := by
  rw [writeFile, hopened]
  dsimp only
  rw [if_pos hfits, hfits]

theorem entryAt_eq_ok_iff {e : Entry} :
    t.entryAt p = .ok e ↔ ∃ place, t.locate p = .ok place ∧ t.get? place = some e := by
  unfold entryAt
  rw [bind_eq_ok]
  constructor
  · rintro ⟨place, hplace, h⟩
    split at h
    · rename_i hsome
      cases h
      exact ⟨place, hplace, hsome⟩
    · cases h
  · rintro ⟨place, hplace, hsome⟩
    refine ⟨place, hplace, ?_⟩
    rw [hsome]

theorem readFile_eq_ok_iff {octets : List UInt8} :
    t.readFile p = .ok octets ↔
      ∃ place, t.locate p = .ok place ∧ t.get? place = some (.file octets) := by
  rw [← entryAt_eq_ok_iff]
  unfold readFile
  rw [bind_eq_ok]
  constructor
  · rintro ⟨e, hentry, h⟩
    cases e with
    | directory => cases h
    | file other =>
      cases h
      exact hentry
  · exact fun h => ⟨_, h, rfl⟩

theorem readFile_set_of_openAt (h : t.openAt p = .ok place) (octets : List UInt8) :
    (t.set place (.file octets)).readFile p = .ok octets := by
  obtain ⟨hplace, hfree⟩ := openAt_eq_ok_iff.mp h
  refine readFile_eq_ok_iff.mpr ⟨place, (hasDirectoriesOf_set hfree _).locate hplace, ?_⟩
  rw [get?_set (ne_root_of_get? hfree), if_pos rfl]

/-- The directory at a place was made, and a path that leads to it is on this way. -/
structure MadeOn (p : Path) (t u : FileTree) (place : List Text) : Prop where
  missing : t.get? place = none
  made : u.get? place = some .directory
  on_way : ∃ q : Path, q.OnWay p ∧ u.locate q = .ok place

theorem MadeOn.file_iff (h : MadeOn p t u place) {octets : List UInt8} :
    u.get? place = some (.file octets) ↔ t.get? place = some (.file octets) := by
  rw [h.made, h.missing]
  simp

theorem MadeOn.later (h : MadeOn p t u place) (k : v.HasDirectoriesOf u) : MadeOn p t v place := by
  obtain ⟨hmissing, hmade, q, hq, hlocate⟩ := h
  exact ⟨hmissing, k.directory place hmade, q, hq, k.locate hlocate⟩

/-- All entries stay, and what is new are directories on the way to a path. -/
structure AddsDirectories (p : Path) (t u : FileTree) : Prop where
  workingDirectory : u.workingDirectory = t.workingDirectory
  room : u.room = t.room
  entry : ∀ place, u.get? place = t.get? place ∨ MadeOn p t u place

namespace AddsDirectories

theorem kept (h : AddsDirectories p t u) {e : Entry} (hplace : t.get? place = some e) :
    u.get? place = some e := by
  rcases h.entry place with hsame | hmade
  · rw [hsame, hplace]
  · rw [hmade.missing] at hplace
    cases hplace

theorem hasDirectoriesOf (h : AddsDirectories p t u) : u.HasDirectoriesOf t :=
  ⟨h.workingDirectory, h.room, fun _ => h.kept⟩

theorem refl (p : Path) (t : FileTree) : AddsDirectories p t t :=
  ⟨rfl, rfl, fun _ => .inl rfl⟩

theorem file_iff (h : AddsDirectories p t u) {octets : List UInt8} :
    u.get? place = some (.file octets) ↔ t.get? place = some (.file octets) := by
  rcases h.entry place with hsame | hmade
  · rw [hsame]
  · exact hmade.file_iff

theorem readFile (h : AddsDirectories p t u) {q : Path} {octets : List UInt8}
    (hread : t.readFile q = .ok octets) : u.readFile q = .ok octets := by
  obtain ⟨place, hplace, hfile⟩ := readFile_eq_ok_iff.mp hread
  exact readFile_eq_ok_iff.mpr ⟨place, h.hasDirectoriesOf.locate hplace, h.kept hfile⟩

theorem mono {q : Path} (hq : q.OnWay p) (h : AddsDirectories q t u) : AddsDirectories p t u := by
  refine ⟨h.workingDirectory, h.room, fun place => (h.entry place).imp_right ?_⟩
  rintro ⟨hmissing, hmade, r, hr, hlocate⟩
  exact ⟨hmissing, hmade, r, hr.trans hq, hlocate⟩

theorem trans (h : AddsDirectories p t u) (k : AddsDirectories p u v) : AddsDirectories p t v := by
  refine ⟨k.workingDirectory.trans h.workingDirectory, k.room.trans h.room, fun place => ?_⟩
  rcases k.entry place with hsame | hmade
  · rcases h.entry place with hsame' | hmade
    · exact .inl (hsame.trans hsame')
    · exact .inr (hmade.later k.hasDirectoriesOf)
  · rcases h.entry place with hsame' | hmade'
    · exact .inr ⟨hsame' ▸ hmade.missing, hmade.made, hmade.on_way⟩
    · exact absurd hmade'.made (by simp [hmade.missing])

end AddsDirectories

def DirectoryAt (t : FileTree) (p : Path) (place : List Text) : Prop :=
  t.locate p = .ok place ∧ t.get? place = some .directory

theorem addsDirectories_of_makeDirectory (h : t.makeDirectory p = .ok u) :
    AddsDirectories p t u ∧ ∃ place, u.DirectoryAt p place := by
  obtain ⟨place, hplace, hnone, rfl⟩ := makeDirectory_eq_ok_iff.mp h
  have hfree : t.get? place ≠ some .directory := by simp [hnone]
  have hget := get?_set (ne_root_of_get? hfree) t .directory
  have hlocate := (hasDirectoriesOf_set hfree .directory).locate hplace
  have hmade : (t.set place .directory).get? place = some .directory := by rw [hget, if_pos rfl]
  refine ⟨⟨rfl, rfl, fun other => ?_⟩, place, hlocate, hmade⟩
  by_cases hother : other = place
  · subst hother
    exact .inr ⟨hnone, hmade, p, p.onWay_self, hlocate⟩
  · left
    rw [hget, if_neg hother]

end FileTree

end ApiPages
