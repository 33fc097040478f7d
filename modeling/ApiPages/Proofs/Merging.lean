import ApiPages.Proofs.Mappings

/-!
Merges made twice. At one key mappings are merged, the lists of implicit roots extended, and all
else is replaced; each of these, done again, finds what it has made and leaves it as it is. With
`nan` it would not: nothing is equal to it, so it would be added to the roots once more. A tuple
would come to stand as the list that the second merge makes of it.
-/
namespace ApiPages

namespace Value

variable {v w : Value} {current : Option Value} {items more : List Value}

/-- Whether the keys, if there are any, can be keys and are different from each other. -/
def wellKeyed : Value → Bool
  | .map entries => entries.all (fun e => e.1.hashable) && decide (Distinct (entries.map Prod.fst))
  | _ => true

/-- A value that is nested to some depth, with mappings that are well keyed. -/
structure Nested (v : Value) : Prop where
  keyed : v.everywhere wellKeyed = true
  finite : v.Lacks isKnot

theorem Nested.part (h : v.Nested) (hw : w ∈ v.parts) : w.Nested where
  keyed := (everywhere_iff.mp h.keyed).2 w hw
  finite := (lacks_iff.mp h.finite).2 w hw

theorem Nested.keys {entries : Mapping} (h : (Value.map entries).Nested) :
    (∀ e ∈ entries, e.1.hashable = true) ∧ entries.DistinctKeys := by
  have hkeyed := (everywhere_iff.mp h.keyed).1
  rw [wellKeyed, Bool.and_eq_true, List.all_eq_true, decide_eq_true_eq] at hkeyed
  exact hkeyed

theorem extend_eq_self (h : ∀ x ∈ more, items.any (·.same x) = true) :
    extend items more = items := by
  induction more with
  | nil => rfl
  | cons x more ih =>
    obtain ⟨hx, h⟩ := List.forall_mem_cons.mp h
    rw [extend, if_pos hx, ih h]

theorem prefix_extend : items <+: extend items more := by
  induction more generalizing items with
  | nil => exact List.prefix_rfl
  | cons x more ih =>
    rw [extend]
    split
    · exact ih
    · exact (List.prefix_append items [x]).trans ih

theorem any_same_extend (h : ∀ x ∈ more, x.same x = true) :
    ∀ x ∈ more, (extend items more).any (·.same x) = true := by
  induction more generalizing items with
  | nil => simp
  | cons x more ih =>
    obtain ⟨hx, h⟩ := List.forall_mem_cons.mp h
    refine List.forall_mem_cons.mpr ⟨?_, fun y hy => ?_⟩
    · rw [extend]
      split
      · rename_i hthere
        obtain ⟨y, hy, hsame⟩ := List.any_eq_true.mp hthere
        exact List.any_eq_true.mpr ⟨y, prefix_extend.subset hy, hsame⟩
      · exact List.any_eq_true.mpr ⟨x, prefix_extend.subset (by simp), hx⟩
    · rw [extend]
      split
      · exact ih h y hy
      · exact ih h y hy

/-- The lists of two values at one key, if it is the key whose lists are extended. -/
def Extending (key : Value) (current : Option Value) (v : Value) (items more : List Value) : Prop :=
  key = .text additiveKey ∧ current.bind sequence? = some items ∧ v.sequence? = some more

theorem mergeAt_map {k : Value} {base entries : Mapping} (h : current.bind mapping? = some base) :
    mergeAt k current (.map entries) = .map (base.merge entries) := by
  rw [mergeAt, h]
  rfl

theorem mergeAt_of_extending {k : Value} (h : Extending k current v items more) :
    mergeAt k current v = .list (extend items more) := by
  obtain ⟨rfl, hitems, hmore⟩ := h
  have hsucceed : succeed (.text additiveKey) current v = .list (extend items more) := by
    rw [succeed, hitems, hmore, same_text_iff.mpr rfl]
  cases v with
  | map => cases hmore
  | _ => exact hsucceed

theorem mergeAt_of_replacing {k : Value}
    (hmap : ∀ entries, v = .map entries → current.bind mapping? = none)
    (hlist : ∀ items more, ¬Extending k current v items more) : mergeAt k current v = v := by
  have hsucceed : succeed k current v = v := by
    rw [succeed]
    split
    · rename_i items more hkey hitems hmore
      exact absurd ⟨same_text_iff.mp hkey, hitems, hmore⟩ (hlist items more)
    · rfl
  cases v with
  | map entries => rw [mergeAt, hmap entries rfl]
  | _ => exact hsucceed

theorem mergeAt_cases (k : Value) (current : Option Value) (v : Value) :
    (∃ base entries, current.bind mapping? = some base ∧ v = .map entries) ∨
      (∃ items more, Extending k current v items more) ∨ mergeAt k current v = v := by
  by_cases hmap : ∃ entries, v = .map entries ∧ (current.bind mapping?).isSome = true
  · obtain ⟨entries, rfl, hcurrent⟩ := hmap
    obtain ⟨base, hbase⟩ := Option.isSome_iff_exists.mp hcurrent
    exact .inl ⟨base, entries, hbase, rfl⟩
  by_cases hlist : ∃ items more, Extending k current v items more
  · exact .inr (.inl hlist)
  refine .inr (.inr (mergeAt_of_replacing ?_ ?_))
  · intro entries hv
    simpa using fun h => hmap ⟨entries, hv, h⟩
  · exact fun items more h => hlist ⟨items, more, h⟩

theorem mergeAt_none {k : Value} : mergeAt k none v = v :=
  mergeAt_of_replacing (fun _ _ => rfl) fun _ _ h => nomatch h.2.1

end Value

namespace Mapping

open Value

variable {m update : Mapping}

theorem merge_eq_self (h : ∀ e ∈ update, ∃ w, m.get? e.1 = some w ∧ mergeAt e.1 (some w) e.2 = w) :
    m.merge update = m := by
  induction update with
  | nil => rfl
  | cons e update ih =>
    obtain ⟨k, v⟩ := e
    obtain ⟨⟨w, hw, hmerged⟩, h⟩ := List.forall_mem_cons.mp h
    rw [merge_cons, hw, hmerged, insert_of_get? hw, ih h]

theorem merge_eq_append (hnew : ∀ k ∈ update.keys, ∀ l ∈ m.keys, l.same k = false)
    (h : update.DistinctKeys) : m.merge update = m ++ update := by
  induction update generalizing m with
  | nil => simp [merge, mergeEntries]
  | cons e update ih =>
    obtain ⟨k, v⟩ := e
    obtain ⟨hk, h⟩ := distinctKeys_cons.mp h
    obtain ⟨hm, hnew⟩ := List.forall_mem_cons.mp hnew
    have habsent := get?_eq_none_iff.mpr hm
    rw [merge_cons, habsent, mergeAt_none, insert_of_get?_eq_none habsent, ih _ h]
    · simp
    · intro l hl first hfirst
      rw [keys, List.map_append, List.mem_append] at hfirst
      rcases hfirst with hfirst | hfirst
      · exact hnew l hl first hfirst
      · rw [List.mem_singleton.mp hfirst]
        exact hk l hl

end Mapping

namespace Value

variable {k v w : Value} {current : Option Value}

structure Plain (v : Value) : Prop extends Nested v where
  noNan : v.Lacks isNan
  noTuple : v.Lacks isTuple

theorem Plain.part (h : v.Plain) (hw : w ∈ v.parts) : w.Plain where
  toNested := h.toNested.part hw
  noNan := (lacks_iff.mp h.noNan).2 w hw
  noTuple := (lacks_iff.mp h.noTuple).2 w hw

theorem Plain.same_self (h : v.Plain) : v.same v = true := Value.same_self h.noNan h.finite

theorem Plain.eq_list {more : List Value} (h : v.Plain) (hmore : v.sequence? = some more) :
    v = .list more := by
  cases v with
  | list =>
    cases hmore
    rfl
  | tuple => cases (lacks_iff.mp h.noTuple).1
  | knot => cases (lacks_iff.mp h.finite).1
  | _ => cases hmore

theorem mergeAt_self (hv : v.Plain) : mergeAt k (some v) v = v := by
  induction v using parts_induction generalizing k with
  | h v ih =>
    rcases mergeAt_cases k (some v) v with ⟨base, entries, hbase, rfl⟩ | ⟨items, more, h⟩ | h
    · rw [mergeAt_map hbase]
      cases hbase
      apply congrArg Value.map
      apply Mapping.merge_eq_self
      intro e he
      have hself := (hv.part (key_mem_parts he)).same_self
      have hpart := value_mem_parts he
      exact ⟨e.2, Mapping.get?_of_mem hv.keys.2 hself he, ih _ hpart (hv.part hpart)⟩
    · rw [mergeAt_of_extending h]
      obtain rfl := hv.eq_list h.2.2
      cases h.2.1
      apply congrArg Value.list
      apply extend_eq_self
      exact fun x hx => List.any_eq_true.mpr ⟨x, hx, (hv.part hx).same_self⟩
    · exact h

/-- What a merge has made of a value is not changed by the same merge. -/
theorem mergeAt_again (hv : v.Plain) :
    mergeAt k (some (mergeAt k current v)) v = mergeAt k current v := by
  -- what stood there is generalised: at each key of a mapping it is another
  induction v using parts_induction generalizing k current with
  | h v ih =>
    rcases mergeAt_cases k current v with ⟨base, entries, hbase, rfl⟩ | ⟨items, more, h⟩ | h
    · rw [mergeAt_map hbase, mergeAt_map rfl]
      apply congrArg Value.map
      apply Mapping.merge_eq_self
      intro e he
      have hself := (hv.part (key_mem_parts he)).same_self
      have hthere := Mapping.get?_of_mem hv.keys.2 hself he
      have hpart := value_mem_parts he
      refine ⟨mergeAt e.1 (base.get? e.1) e.2, ?_, ih _ hpart (hv.part hpart)⟩
      rw [Mapping.get?_merge (hv.keys.1 e he) hv.keys.2, hthere]
    · obtain rfl := hv.eq_list h.2.2
      have hagain : Extending k (some (.list (extend items more))) (.list more)
          (extend items more) more := ⟨h.1, rfl, rfl⟩
      rw [mergeAt_of_extending h, mergeAt_of_extending hagain, extend_eq_self]
      exact any_same_extend fun x hx => (hv.part hx).same_self
    · rw [h, mergeAt_self hv]

end Value

namespace Mapping

open Value

/-- A merge that comes a second time changes nothing, down to the order of the keys at every depth;
an empty mapping changes nothing and is changed to what comes; and a mapping that comes over itself
stays as it is. -/
theorem merging_again_changes_nothing {update : Mapping} (h : (Value.map update).Plain) :
    (∀ base : Mapping, (base.merge update).merge update = base.merge update) ∧
      (∀ base : Mapping, base.merge [] = base) ∧
      Mapping.merge [] update = update ∧ update.merge update = update := by
  refine ⟨fun base => ?_, fun base => rfl, ?_, ?_⟩
  · have hagain : mergeAt .null (some (mergeAt .null (some (.map base)) (.map update)))
        (.map update) = mergeAt .null (some (.map base)) (.map update) := mergeAt_again h
    rw [mergeAt_map rfl, mergeAt_map rfl] at hagain
    exact Value.map.inj hagain
  · exact merge_eq_append (by simp) h.keys.2
  · have hself : mergeAt .null (some (.map update)) (.map update) = .map update := mergeAt_self h
    rw [mergeAt_map rfl] at hself
    exact Value.map.inj hself

namespace Sample

def standing : Mapping :=
  [(.text additiveKey, .tuple [.text "a".text, .bool true]),
   (.text "page".text, .text "wide".text),
   (.int 1, .map [(.text "x".text, .float .nan), (.text "y".text, .int 2)])]

def coming : Mapping :=
  [(.bool true, .map [(.text "y".text, .null), (.text additiveKey, .list [.int 3, .int 3])]),
   (.text "page".text, .map [(.text "width".text, .int 80)]),
   (.text additiveKey, .list [.int 1, .text "b".text, .text "b".text])]

def merged : Mapping :=
  [(.text additiveKey, .list [.text "a".text, .bool true, .text "b".text]),
   (.text "page".text, .map [(.text "width".text, .int 80)]),
   (.int 1, .map [(.text "x".text, .float .nan), (.text "y".text, .null),
      (.text additiveKey, .list [.int 3, .int 3])])]

theorem merge_coming : standing.merge coming = merged := rfl

theorem plain_coming : (Value.map coming).Plain where
  keyed := by decide
  finite := by decide
  noNan := by decide
  noTuple := by decide

end Sample

open Mapping.Sample

theorem sample_merging_again :
    (Value.map coming).Plain ∧ standing.merge coming = merged ∧ merged.merge coming = merged := by
  refine ⟨plain_coming, merge_coming, ?_⟩
  have hagain := (merging_again_changes_nothing plain_coming).1 standing
  rwa [merge_coming] at hagain

end Mapping

end ApiPages
