import ApiPages.Value.Display
import ApiPages.Value.Equality

/-!
Values in which every integer has few enough digits to be shown. What is found in such a value is
such a value again.
-/
namespace ApiPages.Value

variable {v w : Value} {m : Mapping} {items : List Value}

theorem allWritable_iff : allWritable items = true ↔ ∀ w ∈ items, w.writable = true := by
  induction items with
  | nil => simp [allWritable]
  | cons w items ih => simp [allWritable, ih]

theorem entriesWritable_iff {entries : Mapping} : entriesWritable entries = true ↔
    ∀ e ∈ entries, e.1.writable = true ∧ e.2.writable = true := by
  induction entries with
  | nil => simp [entriesWritable]
  | cons e entries ih => simp [entriesWritable, ih]

theorem linksWritable_iff {links : List (Link Value)} : linksWritable links = true ↔
    ∀ w, .value w ∈ links → w.writable = true := by
  induction links with
  | nil => simp [linksWritable]
  | cons l links ih => cases l <;> simp [linksWritable, ih]

theorem placesWritable_iff {places : List (Value × Link Value)} : placesWritable places = true ↔
    ∀ e ∈ places, e.1.writable = true ∧ ∀ w, e.2 = .value w → w.writable = true := by
  induction places with
  | nil => simp [placesWritable]
  | cons e places ih =>
    obtain ⟨k, l⟩ := e
    cases l <;> simp [placesWritable, ih]

theorem writable_untied {cells : List (Cell Value)} (hcells : cellsWritable cells = true)
    {l : Link Value} (h : ∀ w, l = .value w → w.writable = true) :
    (l.untied cells).writable = true := by
  cases l with
  | value w => exact h w rfl
  | cell n => exact hcells

theorem allWritable_untied {cells : List (Cell Value)} (hcells : cellsWritable cells = true)
    {links : List (Link Value)} (h : linksWritable links = true) :
    allWritable (links.map (Link.untied cells)) = true := by
  refine allWritable_iff.mpr fun w hw => ?_
  obtain ⟨l, hl, rfl⟩ := List.mem_map.mp hw
  exact writable_untied hcells fun w hw => linksWritable_iff.mp h w (hw ▸ hl)

theorem cellsWritable_iff {cells : List (Cell Value)} :
    cellsWritable cells = true ↔ ∀ c ∈ cells, cellsWritable [c] = true := by
  induction cells with
  | nil => simp [cellsWritable]
  | cons c cells ih => cases c <;> simp [cellsWritable, ih]

theorem writable_opened (h : v.writable = true) : v.opened.writable = true := by
  cases v with
  | knot cells start =>
    have hcells : cellsWritable cells = true := h
    have hcell : ∀ c, cells[start]? = some c → cellsWritable [c] = true :=
      fun c hc => cellsWritable_iff.mp hcells c (List.mem_of_getElem? hc)
    rw [opened]
    cases hc : cells[start]? with
    | none => rfl
    | some c =>
      have hall := hcell c hc
      cases c with
      | list links | tuple links =>
        simp only [cellsWritable, Bool.and_true] at hall
        exact allWritable_untied hcells hall
      | set members =>
        simp only [cellsWritable, Bool.and_true] at hall
        exact hall
      | map places =>
        simp only [cellsWritable, Bool.and_true, placesWritable_iff] at hall
        refine entriesWritable_iff.mpr fun e he => ?_
        obtain ⟨p, hp, rfl⟩ := List.mem_map.mp he
        exact ⟨(hall p hp).1, writable_untied hcells (hall p hp).2⟩
  | _ => exact h

theorem writable_of_mapping? (h : v.writable = true) (hm : v.mapping? = some m) :
    (Value.map m).writable = true := by
  have hopened := writable_opened h
  rw [mapping?] at hm
  split at hm
  · rename_i entries hentries
    cases hm
    rwa [hentries] at hopened
  · cases hm

theorem writable_of_list (h : v.writable = true) (hitems : v.opened = .list items) :
    ∀ w ∈ items, w.writable = true := by
  have hopened := writable_opened h
  rw [hitems] at hopened
  exact allWritable_iff.mp hopened

theorem display?_of_writable (h : v.writable = true) : v.display? = .ok v.display := by
  rw [display?, if_pos h]

end ApiPages.Value
