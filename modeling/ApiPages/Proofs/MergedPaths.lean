import Mathlib.Data.List.Induction
import ApiPages.Proofs.Merging

/-!
What a merge keeps, adds and replaces. Keys followed one inside the other lead to a value; where
they lead to mappings on both sides, they lead to the two merged, so what is said of one merge holds
at every depth. A list of implicit roots gets those entries of the other that are the first of their
kind.
-/
namespace ApiPages

namespace Value

variable {v w : Value} {items more rest : List Value}

theorem extend_append : extend items (more ++ rest) = extend (extend items more) rest := by
  induction more generalizing items with
  | nil => rfl
  | cons x more ih =>
    rw [List.cons_append, extend, extend]
    split
    · exact ih
    · exact ih

/-- The entries of a list that are equal to none before them and to none of some others. -/
def firstOnes (items more : List Value) : List Value :=
  (more.zipIdx.filter fun e => !(items ++ more.take e.2).any (·.same e.1)).map Prod.fst

theorem firstOnes_concat (items more : List Value) (x : Value) : firstOnes items (more ++ [x]) =
    firstOnes items more ++ if (items ++ more).any (·.same x) = true then [] else [x] := by
  have hbefore : more.zipIdx.filter (fun e => !(items ++ (more ++ [x]).take e.2).any (·.same e.1)) =
      more.zipIdx.filter fun e => !(items ++ more.take e.2).any (·.same e.1) := by
    apply List.filter_congr
    intro e he
    have hlt := List.snd_lt_of_mem_zipIdx he
    rw [List.take_append_of_le_length (by omega)]
  rw [firstOnes, List.zipIdx_append, List.filter_append, List.map_append, hbefore, firstOnes]
  congr 1
  have hx : (more ++ [x]).take more.length = more := List.take_left
  rw [List.zipIdx_singleton, Nat.zero_add, List.filter_singleton, hx]
  cases (items ++ more).any (·.same x) <;> rfl

theorem firstOnes_subset : firstOnes items more ⊆ more := by
  intro y hy
  obtain ⟨e, he, rfl⟩ := List.mem_map.mp hy
  exact List.fst_mem_of_mem_zipIdx (List.mem_filter.mp he).1

theorem extend_eq (h : ∀ x ∈ more, x.same x = true) :
    extend items more = items ++ firstOnes items more := by
  induction more using List.reverseRecOn with
  | nil => simp [extend, firstOnes]
  | append_singleton more x ih =>
    obtain ⟨h, -⟩ := List.forall_mem_append.mp h
    have ih := ih h
    have hany : (extend items more).any (·.same x) = (items ++ more).any (·.same x) := by
      rw [Bool.eq_iff_iff, List.any_eq_true, List.any_eq_true]
      constructor
      · rintro ⟨y, hy, hsame⟩
        rw [ih, List.mem_append] at hy
        exact ⟨y, List.mem_append.mpr (hy.imp_right fun hy => firstOnes_subset hy), hsame⟩
      · rintro ⟨y, hy, hsame⟩
        rcases List.mem_append.mp hy with hy | hy
        · exact ⟨y, prefix_extend.subset hy, hsame⟩
        · obtain ⟨z, hz, hzy⟩ := List.any_eq_true.mp (any_same_extend h y hy)
          exact ⟨z, hz, same_trans hzy hsame⟩
    rw [extend_append, firstOnes_concat, ← List.append_assoc, ← ih, extend, extend, extend, hany]
    split <;> simp

theorem distinct_firstOnes (items more : List Value) :
    (∀ y ∈ firstOnes items more, ∀ x ∈ items, x.same y = false) ∧
      Distinct (firstOnes items more) := by
  induction more using List.reverseRecOn with
  | nil => exact ⟨by simp [firstOnes], List.Pairwise.nil⟩
  | append_singleton more x ih =>
    obtain ⟨hfresh, hapart⟩ := ih
    rw [firstOnes_concat]
    split
    · rw [List.append_nil]
      exact ⟨hfresh, hapart⟩
    · rename_i hnew
      have hnew : (∀ y ∈ items, y.same x = false) ∧ ∀ y ∈ more, y.same x = false := by
        simpa using hnew
      obtain ⟨hitems, hmore⟩ := hnew
      constructor
      · exact List.forall_mem_append.mpr ⟨hfresh, by simpa using hitems⟩
      · refine List.pairwise_append.mpr ⟨hapart, List.pairwise_singleton _ _, fun y hy z hz => ?_⟩
        rw [List.mem_singleton.mp hz]
        exact hmore y (firstOnes_subset hy)

/-- What some keys lead to, one inside the other. -/
def follow (v : Value) : List Value → Option Value
  | [] => some v
  | k :: path => (v.mapping?.bind fun m => m.get? k).bind fun w => w.follow path

variable {path : List Value} {k : Value}

theorem follow_cons_eq_some : v.follow (k :: path) = some w ↔
    ∃ m u, v.mapping? = some m ∧ m.get? k = some u ∧ u.follow path = some w := by
  rw [follow, Option.bind_eq_some_iff]
  constructor
  · rintro ⟨u, hu, hpath⟩
    obtain ⟨m, hm, hu⟩ := Option.bind_eq_some_iff.mp hu
    exact ⟨m, u, hm, hu, hpath⟩
  · rintro ⟨m, u, hm, hu, hpath⟩
    exact ⟨u, Option.bind_eq_some_iff.mpr ⟨m, hm, hu⟩, hpath⟩

theorem exists_mapping?_of_follow {m : Mapping} (h : v.follow path = some (.map m)) :
    ∃ entries, v.mapping? = some entries := by
  cases path with
  | nil =>
    cases h
    exact ⟨m, rfl⟩
  | cons k path =>
    obtain ⟨entries, -, hentries, -⟩ := follow_cons_eq_some.mp h
    exact ⟨entries, hentries⟩

theorem Nested.eq_map {m : Mapping} (h : v.Nested) (hm : v.mapping? = some m) : v = .map m := by
  cases v with
  | map =>
    cases hm
    rfl
  | knot => cases (lacks_iff.mp h.finite).1
  | _ => cases hm

theorem mem_parts_of_get? {m : Mapping} (h : m.get? k = some v) : v ∈ (Value.map m).parts := by
  obtain ⟨e, he, -, rfl⟩ := Mapping.exists_mem_of_get? h
  exact value_mem_parts he

theorem Nested.of_get? {m : Mapping} (h : (Value.map m).Nested) (hv : m.get? k = some v) :
    k.hashable = true ∧ v.Nested := by
  obtain ⟨e, he, hkey, -⟩ := Mapping.exists_mem_of_get? hv
  exact ⟨(hashable_congr hkey).symm.trans (h.keys.1 e he), h.part (mem_parts_of_get? hv)⟩

theorem Nested.parts_eq {items : List Value} (h : v.Nested) (hitems : v.sequence? = some items) :
    v.parts = items := by
  cases v with
  | list | tuple =>
    cases hitems
    rfl
  | knot => cases (lacks_iff.mp h.finite).1
  | _ => cases hitems

theorem Nested.follow_induction {P : Value → Prop} (hpart : ∀ v w, P v → w ∈ v.parts → P w)
    (hv : v.Nested) (h : P v) (hw : v.follow path = some w) : P w := by
  induction path generalizing v with
  | nil =>
    cases hw
    exact h
  | cons k path ih =>
    obtain ⟨m, u, hm, hu, hrest⟩ := follow_cons_eq_some.mp hw
    obtain rfl := hv.eq_map hm
    exact ih (hv.of_get? hu).2 (hpart _ _ h (mem_parts_of_get? hu)) hrest

end Value

namespace Mapping

open Value

variable {base update b u m : Mapping} {path : List Value} {k v w : Value}

theorem get?_merge_of_maps (hupdate : (Value.map update).Nested)
    (hb : base.get? k = some (.map b)) (hu : update.get? k = some (.map u)) :
    (base.merge update).get? k = some (.map (b.merge u)) := by
  obtain ⟨hk, -⟩ := hupdate.of_get? hu
  rw [get?_merge hk hupdate.keys.2, hu, hb]
  exact congrArg some (mergeAt_map rfl)

/-- Where some keys lead to mappings on both sides, these are merged. -/
theorem follow_merge (hbase : (Value.map base).Nested) (hupdate : (Value.map update).Nested)
    (hb : (Value.map base).follow path = some (.map b))
    (hu : (Value.map update).follow path = some (.map u)) :
    (Value.map (base.merge update)).follow path = some (.map (b.merge u)) := by
  induction path generalizing base update with
  | nil =>
    cases hb
    cases hu
    rfl
  | cons k path ih =>
    obtain ⟨_, v, hm, hv, hb⟩ := follow_cons_eq_some.mp hb
    cases hm
    obtain ⟨_, w, hm, hw, hu⟩ := follow_cons_eq_some.mp hu
    cases hm
    obtain ⟨-, hvn⟩ := hbase.of_get? hv
    obtain ⟨-, hwn⟩ := hupdate.of_get? hw
    obtain ⟨b', hb'⟩ := exists_mapping?_of_follow hb
    obtain ⟨u', hu'⟩ := exists_mapping?_of_follow hu
    obtain rfl := hvn.eq_map hb'
    obtain rfl := hwn.eq_map hu'
    exact follow_cons_eq_some.mpr
      ⟨_, _, rfl, get?_merge_of_maps hupdate hv hw, ih hvn hwn hb hu⟩

theorem follow_merge_of_none (hbase : (Value.map base).Nested)
    (hupdate : (Value.map update).Nested) (hw : (Value.map base).follow path = some w)
    (hnone : (Value.map update).follow path = none)
    (hway : ∀ way u, way <+: path → (Value.map update).follow way = some u →
      ∃ entries, u = .map entries) :
    (Value.map (base.merge update)).follow path = some w := by
  induction path generalizing base update with
  | nil => cases hnone
  | cons k path ih =>
    obtain ⟨_, v, hm, hv, hw⟩ := follow_cons_eq_some.mp hw
    cases hm
    obtain ⟨hk, hvn⟩ := hbase.of_get? hv
    cases hu : update.get? k with
    | none =>
      have hkept : (base.merge update).get? k = some v := by
        rw [get?_merge hk hupdate.keys.2, hu, hv]
      exact follow_cons_eq_some.mpr ⟨_, v, rfl, hkept, hw⟩
    | some u =>
      have hstep {way : List Value} {x : Value} (hx : u.follow way = some x) :
          (Value.map update).follow (k :: way) = some x :=
        follow_cons_eq_some.mpr ⟨_, u, rfl, hu, hx⟩
      obtain ⟨u', rfl⟩ := hway [k] u (by simp) (hstep rfl)
      have hrest : (Value.map u').follow path = none := by
        by_contra h
        obtain ⟨x, hx⟩ := Option.ne_none_iff_exists'.mp h
        rw [hstep hx] at hnone
        contradiction
      cases path with
      | nil => cases hrest
      | cons l path =>
        obtain ⟨b', -, hb', -⟩ := follow_cons_eq_some.mp hw
        obtain rfl := hvn.eq_map hb'
        obtain ⟨-, hun⟩ := hupdate.of_get? hu
        refine follow_cons_eq_some.mpr ⟨_, _, rfl, get?_merge_of_maps hupdate hv hu, ?_⟩
        refine ih hvn hun hw hrest fun way x hprefix hx => ?_
        exact hway (k :: way) x (List.cons_prefix_cons.mpr ⟨rfl, hprefix⟩) (hstep hx)

/-- What comes of two lists of implicit roots: the entries of the first, and behind them those of
the second that are equal to nothing before them. -/
structure Extended (items more added : List Value) : Prop where
  first : added = firstOnes items more
  every : ∀ x ∈ more, ∃ y ∈ items ++ added, y.same x = true
  fresh : ∀ y ∈ added, ∀ x ∈ items, x.same y = false
  apart : Distinct added

/-- What comes of two mappings, key by key. -/
structure Merged (base update m : Mapping) : Prop where
  keys : m.keys = base.keys ++ update.keys.filter fun k => !base.keys.any (·.same k)
  kept : ∀ k, k.hashable = true → update.get? k = none → m.get? k = base.get? k
  taken : ∀ k v, update.get? k = some v →
    (∀ b u, ¬(base.get? k = some (.map b) ∧ v = .map u)) →
    (∀ items more, ¬Extending k (base.get? k) v items more) → m.get? k = some v
  extended : ∀ v w items more, base.at? additiveKey = some v → update.at? additiveKey = some w →
    v.sequence? = some items → w.sequence? = some more →
    ∃ added, m.at? additiveKey = some (.list (items ++ added)) ∧ Extended items more added

theorem extended_firstOnes {items more : List Value} (h : ∀ x ∈ more, x.same x = true) :
    Extended items more (firstOnes items more) where
  first := rfl
  every := by
    intro x hx
    rw [← extend_eq h]
    exact List.any_eq_true.mp (any_same_extend h x hx)
  fresh := (distinct_firstOnes items more).1
  apart := (distinct_firstOnes items more).2

theorem merged_merge (hbase : (Value.map base).Nested) (hupdate : (Value.map update).Nested)
    (hnan : (Value.map update).Lacks isNan) : Merged base update (base.merge update) where
  keys := keys_merge hupdate.keys.2
  kept := by
    intro k hk hu
    rw [get?_merge hk hupdate.keys.2, hu]
  taken := by
    intro k v hu hmaps hlists
    rw [get?_merge (hupdate.of_get? hu).1 hupdate.keys.2, hu]
    refine congrArg some (mergeAt_of_replacing ?_ hlists)
    rintro u rfl
    rw [Option.bind_eq_none_iff]
    intro w hw
    rw [Option.eq_none_iff_forall_ne_some]
    intro b hb
    rw [(hbase.of_get? hw).2.eq_map hb] at hw
    exact hmaps b u ⟨hw, rfl⟩
  extended := by
    intro v w items more hv hw hitems hmore
    have hext : Extending (.text additiveKey) (base.at? additiveKey) w items more :=
      ⟨rfl, by rw [hv]; exact hitems, hmore⟩
    have hpart := mem_parts_of_get? hw
    have hself : ∀ x ∈ more, x.same x = true := by
      intro x hx
      have hx : x ∈ w.parts := by rwa [(hupdate.part hpart).parts_eq hmore]
      have hnan := (lacks_iff.mp ((lacks_iff.mp hnan).2 w hpart)).2 x hx
      exact same_self hnan ((hupdate.part hpart).part hx).finite
    refine ⟨firstOnes items more, ?_, extended_firstOnes hself⟩
    rw [at?_merge hupdate.keys.2, hw]
    exact congrArg some ((mergeAt_of_extending hext).trans (congrArg Value.list (extend_eq hself)))

/-- On every way along mappings of both sides the keys stay in their order with the new ones behind
them, lists of implicit roots are extended, and all else that comes takes its place; and whatever
keys lead to stays, unless something comes in its place or in that of a mapping around it. -/
theorem merge_keeps_adds_and_replaces {base update : Mapping} (hbase : (Value.map base).Nested)
    (hupdate : (Value.map update).Nested) (hnan : (Value.map update).Lacks isNan) :
    (∀ path b u, (Value.map base).follow path = some (.map b) →
      (Value.map update).follow path = some (.map u) →
      ∃ m, (Value.map (base.merge update)).follow path = some (.map m) ∧ Merged b u m) ∧
    ∀ path w, (Value.map base).follow path = some w → (Value.map update).follow path = none →
      (∀ way u, way <+: path → (Value.map update).follow way = some u →
        ∃ entries, u = .map entries) →
      (Value.map (base.merge update)).follow path = some w := by
  refine ⟨fun path b u hb hu => ?_, fun path w hw hnone hway => ?_⟩
  · refine ⟨Mapping.merge b u, follow_merge hbase hupdate hb hu, ?_⟩
    have hbn := hbase.follow_induction (fun _ _ h hw => h.part hw) hbase hb
    have hun := hupdate.follow_induction (fun _ _ h hw => h.part hw) hupdate hu
    have hunan := hupdate.follow_induction (fun _ w h hw => (lacks_iff.mp h).2 w hw) hnan hu
    exact merged_merge hbn hun hunan
  · exact follow_merge_of_none hbase hupdate hw hnone hway

open Mapping.Sample

theorem nested_standing : (Value.map standing).Nested where
  keyed := by decide
  finite := by decide

theorem sample_merge_keeps_adds_and_replaces :
    (Value.map standing).Nested ∧ (Value.map coming).Nested ∧ (Value.map coming).Lacks isNan ∧
    (∃ b u m, (Value.map standing).follow [.bool true] = some (.map b) ∧
      (Value.map coming).follow [.bool true] = some (.map u) ∧
      (Value.map (standing.merge coming)).follow [.bool true] = some (.map m) ∧ Merged b u m) ∧
    (Value.map (standing.merge coming)).follow [.int 1, .text "x".text] =
      some (.float .nan) := by
  have hmerge :=
    merge_keeps_adds_and_replaces nested_standing plain_coming.toNested plain_coming.noNan
  refine ⟨nested_standing, plain_coming.toNested, plain_coming.noNan, ?_, ?_⟩
  · obtain ⟨m, hm, hmerged⟩ := hmerge.1 [.bool true] _ _ rfl rfl
    exact ⟨_, _, m, rfl, rfl, hm, hmerged⟩
  · refine hmerge.2 [.int 1, .text "x".text] _ rfl rfl fun way u hway hu => ?_
    simp only [List.prefix_cons_iff, List.prefix_nil] at hway
    rcases hway with rfl | ⟨_, rfl, rfl | ⟨_, rfl, rfl⟩⟩
    · exact ⟨_, (Option.some.inj hu).symm⟩
    · exact ⟨_, (Option.some.inj hu).symm⟩
    · cases hu

end Mapping

end ApiPages
