import ApiPages.Page.Build
import ApiPages.Proofs.Layout

/-!
What a page depends on. Builds that lay out the same lines end alike, whatever they log; so
malformed members leave no trace in the file tree. And since members are seen only in the order of
the page, the order in which they are declared changes nothing at all.
-/
namespace ApiPages

namespace Job

/-- Outcomes that differ at most in the log and in results that are related. -/
inductive Alike {ε α β : Type} (R : α → β → Prop) :
    EStateM.Result ε World α → EStateM.Result ε World β → Prop where
  | ok {a b w u} : R a b → w.tree = u.tree → Alike R (.ok a w) (.ok b u)
  | error {e w u} : w.tree = u.tree → Alike R (.error e w) (.error e u)

variable {ε α β γ δ : Type} {R : α → β → Prop} {S : γ → δ → Prop} {w u : World}

theorem Alike.bind {x : Job ε α} {y : Job ε β} {f : α → Job ε γ} {g : β → Job ε δ}
    (h : Alike R (x w) (y u))
    (hfg : ∀ a b w u, R a b → w.tree = u.tree → Alike S (f a w) (g b u)) :
    Alike S ((x >>= f) w) ((y >>= g) u) := by
  change Alike S (EStateM.bind x f w) (EStateM.bind y g u)
  generalize hx : x w = p at h
  generalize hy : y u = q at h
  cases h with
  | ok hab ht => simpa only [EStateM.bind, hx, hy] using hfg _ _ _ _ hab ht
  | error ht =>
    simp only [EStateM.bind, hx, hy]
    exact .error ht

theorem alike_ofExcept {δ : Type} (wrap : δ → ε) (x : Except δ α) (h : w.tree = u.tree) :
    Alike Eq (ofExcept wrap x w) (ofExcept wrap x u) := by
  cases x with
  | ok a => exact .ok rfl h
  | error e => exact .error h

theorem alike_record (l m : List LogRecord) (h : w.tree = u.tree) :
    Alike Eq ((record l : Job ε Unit) w) ((record m : Job ε Unit) u) := .ok rfl h

end Job

open Job

namespace Document

theorem create_alike (path : Path) {w u : World} (h : w.tree = u.tree) :
    Alike Eq (create path w) (create path u) := by
  unfold create
  rw [h]
  split
  · exact .error h
  · split
    · exact .error rfl
    · split
      · exact .error rfl
      · exact .error rfl
      · exact .ok rfl rfl

theorem finalize_alike (d : Document) {w u : World} (h : w.tree = u.tree) :
    Alike Eq (d.finalize w) (d.finalize u) := by
  unfold finalize
  rw [h]
  split
  · exact .error h
  · split
    · exact .error h
    · split
      · exact .error rfl
      · exact .error rfl
      · exact .error rfl
      · exact .ok rfl rfl

end Document

namespace Page

inductive SameLines (D : List Drop → List Drop → Prop) :
    Except Stop Body → Except Stop Body → Prop where
  | ok {lines : Lines} {c d : List Drop} : D c d → SameLines D (.ok ⟨lines, c⟩) (.ok ⟨lines, d⟩)
  | error {c d : List Drop} {fault : Fault} : SameLines D (.error ⟨c, fault⟩) (.error ⟨d, fault⟩)

theorem build_alike {style : PageStyle} {t s : TypeEntry} {D : List Drop → List Drop → Prop}
    (hname : t.name = s.name)
    (hlines : ∀ here, SameLines D (body style here t) (body style here s))
    (directory : Path) {w u : World} (htree : w.tree = u.tree) :
    Alike (fun r q : PageReport => r.path = q.path ∧ D r.drops q.drops)
      (build style t directory w) (build style s directory u) := by
  unfold build path
  rw [hname]
  refine (alike_ofExcept _ _ htree).bind ?_
  rintro extension _ w u rfl hwu
  refine (Document.create_alike _ hwu).bind ?_
  rintro d _ w u rfl hwu
  refine Alike.bind (R := fun w u => w.tree = u.tree) (.ok hwu hwu) ?_
  intro v v' w u hv hwu
  rw [hv]
  have hbody := hlines v'.tree.workingDirectory
  generalize body style v'.tree.workingDirectory t = b at hbody
  generalize body style v'.tree.workingDirectory s = c at hbody
  cases hbody with
  | error =>
    refine (alike_record _ _ hwu).bind ?_
    rintro _ _ w u rfl hwu
    exact .error hwu
  | ok hD =>
    refine (alike_record _ _ hwu).bind ?_
    rintro _ _ w u rfl hwu
    refine (Document.finalize_alike _ hwu).bind ?_
    rintro _ _ w u rfl hwu
    refine (alike_record _ _ hwu).bind ?_
    rintro _ _ w u rfl hwu
    exact .ok ⟨rfl, hD⟩ hwu

theorem build_congr {style : PageStyle} {t s : TypeEntry} (hname : t.name = s.name)
    (hbody : ∀ here, body style here t = body style here s) (directory : Path) :
    build style t directory = build style s directory := by
  unfold build path
  simp only [hname, hbody]

end Page

def TypeEntry.wellFormed (t : TypeEntry) : TypeEntry :=
  { t with methods := t.methods.filter Method.valid, fields := t.fields.filter Field.valid }

theorem methodViewsFrom_filter (r : AnchorRegistry) (methods : List Method) :
    methodViewsFrom r (methods.filter Method.valid) =
      (methodViewsFrom r methods).filter fun v => v.method.valid := by
  induction methods generalizing r with
  | nil => rfl
  | cons m rest ih =>
    by_cases hm : m.valid = true
    · rw [List.filter_cons_of_pos hm, methodViewsFrom_of_valid hm, methodViewsFrom_of_valid hm, ih,
        List.filter_cons, if_pos hm]
    · rw [List.filter_cons_of_neg hm, ih, methodViewsFrom, if_neg hm]
      simp [hm]

namespace Page

section WellFormed

variable {t : TypeEntry}

theorem isEmpty_filter {α : Type} {p : α → Bool} {l : List α}
    (h : l ≠ [] → ∃ a ∈ l, p a = true) : (l.filter p).isEmpty = l.isEmpty := by
  cases l with
  | nil => rfl
  | cons a rest =>
    obtain ⟨b, hb, hpb⟩ := h (List.cons_ne_nil a rest)
    have hne : (a :: rest).filter p ≠ [] := List.ne_nil_of_mem (List.mem_filter.mpr ⟨hb, hpb⟩)
    rw [List.isEmpty_cons, List.isEmpty_eq_false_iff]
    exact hne

theorem hasMethods_wellFormed (h : t.methods ≠ [] → ∃ m ∈ t.methods, m.valid = true) :
    t.wellFormed.hasMethods = t.hasMethods := congrArg not (isEmpty_filter h)

theorem hasFields_wellFormed (h : t.fields ≠ [] → ∃ f ∈ t.fields, f.valid = true) :
    t.wellFormed.hasFields = t.hasFields := congrArg not (isEmpty_filter h)

/-- Malformed methods take no anchor, so the anchors of the others stay. -/
theorem validViews_wellFormed (hm : t.wellFormed.hasMethods = t.hasMethods)
    (hf : t.wellFormed.hasFields = t.hasFields) : validViews t.wellFormed = validViews t := by
  have hh : headingsBeforeMethods t.wellFormed = headingsBeforeMethods t := by
    simp only [headingsBeforeMethods, hm, hf]
    rfl
  have ho : orderMethods t.wellFormed.methods = (orderMethods t.methods).filter Method.valid :=
    orderMembers_filter _ _ _
  rw [validViews, validViews, views, views, hh, ho, methodViews, methodViewsFrom_filter,
    List.filter_filter]
  simp [methodViews]

theorem validFields_wellFormed : validFields t.wellFormed = validFields t := by
  have ho : orderFields t.wellFormed.fields = (orderFields t.fields).filter Field.valid :=
    orderFields_filter _ _
  rw [validFields, validFields, ho, List.filter_filter]
  simp

theorem memberLines_wellFormed (style : PageStyle) (hm : t.wellFormed.hasMethods = t.hasMethods)
    (hf : t.wellFormed.hasFields = t.hasFields) :
    memberLines style t.wellFormed = memberLines style t := by
  simp only [memberLines, summaryLines, fieldLines, methodLines, fieldSummaryLines, methodRows,
    fieldRows, hm, hf, validViews_wellFormed hm hf, validFields_wellFormed]

theorem memberDrops_wellFormed (style : PageStyle) : memberDrops style t.wellFormed = [] := by
  have hm : methodRejections t.wellFormed = [] := by
    rw [methodRejections, List.filterMap_eq_nil_iff]
    intro m hm
    have hm := (orderMembers_perm Method.name _).mem_iff.mp hm
    simpa [Method.valid] using (List.mem_filter.mp hm).2
  have hf : fieldRejections t.wellFormed = [] := by
    rw [fieldRejections, List.filterMap_eq_nil_iff]
    intro f hf
    have hf := (orderFields_perm _).mem_iff.mp hf
    simpa [Field.valid] using (List.mem_filter.mp hf).2
  simp [memberDrops, summaryDrops, fieldDrops, methodDrops, hm, hf]

theorem body_wellFormed (style : PageStyle) (here : List Text)
    (hm : t.wellFormed.hasMethods = t.hasMethods) (hf : t.wellFormed.hasFields = t.hasFields) :
    SameLines (fun _ d => d = []) (body style here t) (body style here t.wellFormed) := by
  have hlanguage : languageFault? style t.wellFormed = languageFault? style t := by
    simp only [languageFault?, validViews_wellFormed hm hf]
  have hheader : header style here t.wellFormed = header style here t := rfl
  rw [body_eq, body_eq, hheader]
  cases header style here t with
  | error fault => exact .error
  | ok top =>
    cases h : languageFault? style t with
    | none =>
      dsimp only
      rw [sections_eq h, sections_eq (hlanguage.trans h), memberLines_wellFormed style hm hf]
      exact .ok (memberDrops_wellFormed style)
    | some fault =>
      obtain ⟨c, hc⟩ := sections_fault h top
      obtain ⟨d, hd⟩ := sections_fault (hlanguage.trans h) top
      simp only [hc, hd]
      exact .error

end WellFormed

/-- Where malformed members have well-formed ones beside them, the lines, the file tree and the
outcome are those of the type without the malformed ones: only drops and log tell the difference. -/
theorem malformed_members_leave_no_trace (style : PageStyle) (t : TypeEntry) (here : List Text)
    (directory : Path) (w : World)
    (hm : t.methods ≠ [] → ∃ m ∈ t.methods, m.valid = true)
    (hf : t.fields ≠ [] → ∃ f ∈ t.fields, f.valid = true) :
    SameLines (fun _ d => d = []) (body style here t) (body style here t.wellFormed) ∧
      Alike (fun r q : PageReport => r.path = q.path ∧ q.drops = [])
        (build style t directory w) (build style t.wellFormed directory w) := by
  have hm := hasMethods_wellFormed hm
  have hf := hasFields_wellFormed hf
  have hlines := fun here => body_wellFormed style here hm hf
  have hname : t.name = t.wellFormed.name := rfl
  exact ⟨hlines here, build_alike hname hlines directory rfl⟩

namespace Sample

def put : Method := { name := "put".text }

def get : Method := { name := "get".text, returnType := "int".text }

def overloads : List Method :=
  [{ name := "get".text, returnType := [] },
   { name := "get".text, parameters := [⟨['k'.code], "int".text, []⟩] }]

def shared : Field := { name := ['n'.code], type := "int".text, isStatic := true }

def own : Field := { name := ['n'.code], type := "long".text }

def blank : Field := { name := ['m'.code], type := [' '.code] }

def withMembers (methods : List Method) (fields : List Field) : TypeEntry :=
  { name := "Box".text, package := "app".text, methods, fields }

def box : TypeEntry := withMembers (put :: get :: overloads) [shared, own, blank]

end Sample

theorem sample_without_malformed_members :
    (Sample.box.methods ≠ [] → ∃ m ∈ Sample.box.methods, m.valid = true) ∧
    (Sample.box.fields ≠ [] → ∃ f ∈ Sample.box.fields, f.valid = true) ∧
    SameLines (fun _ d => d = []) (body ({} : Context).style [] Sample.box)
      (body ({} : Context).style [] Sample.box.wellFormed) ∧
    Alike (fun r q : PageReport => r.path = q.path ∧ q.drops = [])
      (build ({} : Context).style Sample.box ⟨.none, []⟩ ⟨.bare [], []⟩)
      (build ({} : Context).style Sample.box.wellFormed ⟨.none, []⟩ ⟨.bare [], []⟩) := by
  have hm : ∃ m ∈ Sample.box.methods, m.valid = true := by decide +kernel
  have hf : ∃ f ∈ Sample.box.fields, f.valid = true := by decide +kernel
  exact ⟨fun _ => hm, fun _ => hf,
    malformed_members_leave_no_trace _ _ _ _ _ (fun _ => hm) (fun _ => hf)⟩

theorem body_congr {style : PageStyle} {here : List Text} {t s : TypeEntry}
    (hheader : header style here t = header style here s) (hname : t.name = s.name)
    (hmethods : orderMethods t.methods = orderMethods s.methods)
    (hfields : orderFields t.fields = orderFields s.fields)
    (hm : t.hasMethods = s.hasMethods) (hf : t.hasFields = s.hasFields) :
    body style here t = body style here s := by
  have hviews : views t = views s := by
    simp only [views, headingsBeforeMethods, hname, hmethods, hm, hf]
  simp only [body, hheader, summary, fields, methods, hm, hf, hviews, hfields]

/-- Members declared in another order, but for members of one name, make the same page: the same
bytes, the same report and the same log. -/
theorem declaration_order_is_invisible (style : PageStyle) (t : TypeEntry) (ms : List Method)
    (fs : List Field) (directory : Path) (w : World)
    (hm : Order.SameWithin Method.name t.methods ms)
    (hf : Order.SameWithin Field.key t.fields fs) :
    build style t directory w = build style { t with methods := ms, fields := fs } directory w := by
  have hbody : ∀ here, body style here t =
      body style here { t with methods := ms, fields := fs } := by
    intro here
    apply body_congr
    · rfl
    · rfl
    · exact orderMembers_congr hm
    · exact orderFields_congr hf
    · exact congrArg not hm.perm.isEmpty_eq
    · exact congrArg not hf.perm.isEmpty_eq
  have hname : t.name = ({ t with methods := ms, fields := fs } : TypeEntry).name := rfl
  rw [build_congr hname hbody directory]

theorem sample_declared_in_another_order :
    Order.SameWithin Method.name (Sample.put :: Sample.get :: Sample.overloads)
      (Sample.get :: Sample.put :: Sample.overloads) ∧
    Order.SameWithin Field.key [Sample.shared, Sample.own, Sample.blank]
      [Sample.own, Sample.shared, Sample.blank] ∧
    build ({} : Context).style Sample.box ⟨.none, []⟩ ⟨.bare [], []⟩ =
      build ({} : Context).style
        (Sample.withMembers (Sample.get :: Sample.put :: Sample.overloads)
          [Sample.own, Sample.shared, Sample.blank])
        ⟨.none, []⟩ ⟨.bare [], []⟩ := by
  have hm : Order.SameWithin Method.name (Sample.put :: Sample.get :: Sample.overloads)
      (Sample.get :: Sample.put :: Sample.overloads) := .swap (by decide) [] Sample.overloads
  have hf : Order.SameWithin Field.key [Sample.shared, Sample.own, Sample.blank]
      [Sample.own, Sample.shared, Sample.blank] := .swap (by decide) [] [Sample.blank]
  exact ⟨hm, hf, declaration_order_is_invisible _ Sample.box _ _ _ _ hm hf⟩

end Page

end ApiPages
