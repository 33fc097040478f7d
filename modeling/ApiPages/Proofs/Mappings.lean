import ApiPages.Proofs.Sameness
import ApiPages.Value.Merge

/-!
Mappings looked up by their keys. Equal keys find the same, and what is written or merged at other
keys does not matter. A text is equal to itself alone. Whether a value that was read is the one that
was meant can be tested, unless there are dates, fractions or knots in it.
-/
namespace ApiPages

namespace Value

theorem text?_isSome_iff {v : Value} : v.text?.isSome = true ↔ ∃ c, v = .text c := by
  constructor
  · intro h
    cases v with
    | text t => exact ⟨t, rfl⟩
    | _ => simp [text?] at h
  · rintro ⟨c, rfl⟩
    rfl

theorem all_text?_iff {items : List Value} :
    (items.all fun v => v.text?.isSome) = true ↔
      ∃ names : List Text, items = names.map .text := by
  induction items with
  | nil => exact ⟨fun _ => ⟨[], rfl⟩, fun _ => rfl⟩
  | cons v items ih =>
    rw [List.all_cons, Bool.and_eq_true, text?_isSome_iff, ih]
    constructor
    · rintro ⟨⟨c, rfl⟩, names, rfl⟩
      exact ⟨c :: names, rfl⟩
    · rintro ⟨names, h⟩
      obtain ⟨c, names, rfl, hc, hnames⟩ := List.map_eq_cons_iff.mp h.symm
      exact ⟨⟨c, hc.symm⟩, names, hnames.symm⟩

theorem same_text_iff {v : Value} {t : Text} : v.same (.text t) = true ↔ v = .text t := by
  cases v <;> simp [same, sameScalar, count?]

mutual

/-- Whether a value is another one, down to the order of its entries. It is told of truth values,
whole numbers, texts and what is made of them. -/
def isExactly : Value → Value → Bool
  | .bool b, .bool c => b == c
  | .int m, .int n => m == n
  | .text s, .text t => s == t
  | .list xs, .list ys => areExactly xs ys
  | .map es, .map fs => entriesAreExactly es fs
  | _, _ => false

def areExactly : List Value → List Value → Bool
  | [], [] => true
  | x :: xs, y :: ys => isExactly x y && areExactly xs ys
  | _, _ => false

def entriesAreExactly : Mapping → Mapping → Bool
  | [], [] => true
  | (k, v) :: es, (l, w) :: fs => isExactly k l && isExactly v w && entriesAreExactly es fs
  | _, _ => false

end

mutual

theorem eq_of_isExactly {v w : Value} (h : v.isExactly w = true) : v = w := by
  cases v <;> cases w <;> simp only [isExactly, beq_iff_eq, Bool.false_eq_true] at h
  · rw [h]
  · rw [h]
  · rw [h]
  · rw [eq_of_areExactly h]
  · rw [eq_of_entriesAreExactly h]

theorem eq_of_areExactly {xs ys : List Value} (h : areExactly xs ys = true) : xs = ys := by
  cases xs <;> cases ys <;> simp only [areExactly, Bool.and_eq_true, Bool.false_eq_true] at h
  · rfl
  · rw [eq_of_isExactly h.1, eq_of_areExactly h.2]

theorem eq_of_entriesAreExactly {es fs : Mapping} (h : entriesAreExactly es fs = true) :
    es = fs := by
  cases es <;> cases fs <;> simp only [entriesAreExactly, Bool.and_eq_true, Bool.false_eq_true] at h
  · rfl
  · rename_i e es f fs
    obtain ⟨⟨hk, hv⟩, hrest⟩ := h
    have he : e = f := Prod.ext (eq_of_isExactly hk) (eq_of_isExactly hv)
    rw [he, eq_of_entriesAreExactly hrest]

end

theorem eq_ok_of_isExactly {ε : Type} {x : Except ε Value} {v : Value}
    (h : x.toOption.any (·.isExactly v) = true) : x = .ok v := by
  cases x with
  | error e => cases h
  | ok w => rw [eq_of_isExactly h]

def Distinct (values : List Value) : Prop := values.Pairwise fun v w => v.same w = false

instance (values : List Value) : Decidable (Distinct values) :=
  inferInstanceAs (Decidable (values.Pairwise _))

theorem mergeAt_congr {k l v : Value} {current : Option Value} (h : k.same l = true) :
    mergeAt k current v = mergeAt l current v := by
  have hadditive : k.same (.text additiveKey) = l.same (.text additiveKey) := same_congr_left rfl h
  cases v <;> simp only [mergeAt, succeed, hadditive]

end Value

namespace Mapping

open Value

variable {m base update : Mapping} {k l v : Value} {t : Text}

@[simp] theorem keys_nil : keys [] = [] := rfl

@[simp] theorem keys_cons : keys ((k, v) :: m) = k :: keys m := rfl

def DistinctKeys (m : Mapping) : Prop := Distinct m.keys

theorem distinctKeys_cons {e : Value × Value} :
    DistinctKeys (e :: m) ↔ (∀ k ∈ m.keys, e.1.same k = false) ∧ DistinctKeys m :=
  List.pairwise_cons

theorem merge_cons : base.merge ((k, v) :: update) =
    merge (base.insert k (mergeAt k (base.get? k) v)) update := by
  rw [merge, mergeEntries]
  rfl

theorem get?_cons : get? ((k, v) :: m) l = if k.same l = true then some v else m.get? l := by
  cases h : k.same l <;> simp [get?, h]

theorem get?_congr (hk : k.hashable = true) (h : k.same l = true) : m.get? k = m.get? l := by
  simp only [get?, same_congr_right hk h]

theorem get?_eq_none_iff : m.get? k = none ↔ ∀ l ∈ m.keys, l.same k = false := by
  simp [get?, keys]

theorem exists_mem_of_get? (h : m.get? k = some v) : ∃ e ∈ m, e.1.same k = true ∧ e.2 = v := by
  obtain ⟨e, hfound, rfl⟩ := Option.map_eq_some_iff.mp h
  have hsame := (List.find?_eq_some_iff_append.mp hfound).1
  exact ⟨e, List.mem_of_find?_eq_some hfound, hsame, rfl⟩

theorem get?_of_mem (h : m.DistinctKeys) (hk : k.same k = true) (hmem : (k, v) ∈ m) :
    m.get? k = some v := by
  induction m with
  | nil => simp at hmem
  | cons e m ih =>
    obtain ⟨first, old⟩ := e
    obtain ⟨hfirst, h⟩ := distinctKeys_cons.mp h
    rw [get?_cons]
    rcases List.mem_cons.mp hmem with heq | hmem
    · cases heq
      rw [if_pos hk]
    · have hne : first.same k = false := hfirst k (List.mem_map_of_mem hmem)
      rw [if_neg (Bool.eq_false_iff.mp hne), ih h hmem]

theorem get?_insert (hl : l.hashable = true) :
    (m.insert k v).get? l = if k.same l = true then some v else m.get? l := by
  induction m with
  | nil => rw [insert_nil, get?_cons]
  | cons e m ih =>
    obtain ⟨first, old⟩ := e
    rw [insert]
    by_cases hfirst : first.same k = true
    · rw [if_pos hfirst, get?_cons, get?_cons, same_congr_left hl hfirst]
      split <;> rfl
    · rw [if_neg hfirst, get?_cons, get?_cons, ih]
      by_cases hkl : k.same l = true
      · have hk : k.hashable = true := (hashable_congr hkl).trans hl
        -- a key equal to both would make the two equal, and it would have been written there
        have hne : ¬first.same l = true := fun h => hfirst (same_trans h (same_symm hk hkl))
        simp only [if_pos hkl, if_neg hne]
      · simp only [if_neg hkl]

theorem insert_of_get? (h : m.get? k = some v) : m.insert k v = m := by
  induction m with
  | nil => cases h
  | cons e m ih =>
    obtain ⟨first, old⟩ := e
    rw [get?_cons] at h
    rw [insert]
    split at h
    · rename_i hfirst
      cases h
      rw [if_pos hfirst]
    · rename_i hfirst
      rw [if_neg hfirst, ih h]

theorem insert_of_get?_eq_none (h : m.get? k = none) : m.insert k v = m ++ [(k, v)] := by
  induction m with
  | nil => rfl
  | cons e m ih =>
    obtain ⟨first, old⟩ := e
    rw [get?_cons] at h
    split at h
    · cases h
    · rename_i hfirst
      rw [insert, if_neg hfirst, ih h, List.cons_append]

theorem get?_merge (hk : k.hashable = true) (h : update.DistinctKeys) : (base.merge update).get? k =
    match update.get? k with
    | none => base.get? k
    | some v => some (mergeAt k (base.get? k) v) := by
  induction update generalizing base with
  | nil => rfl
  | cons e update ih =>
    obtain ⟨first, v⟩ := e
    obtain ⟨hfirst, h⟩ := distinctKeys_cons.mp h
    rw [merge_cons, ih h, get?_insert hk, get?_cons]
    by_cases hsame : first.same k = true
    · have hhash : first.hashable = true := (hashable_congr hsame).trans hk
      have hlater : Mapping.get? update k = none := by
        rw [get?_eq_none_iff]
        intro l hl
        rw [Bool.eq_false_iff]
        intro hlk
        have hl' : l.hashable = true := (hashable_congr hlk).trans hk
        have hne := hfirst l hl
        have hsame' := same_trans hsame (same_symm hl' hlk)
        rw [hne] at hsame'
        contradiction
      rw [hlater, if_pos hsame, if_pos hsame, get?_congr hhash hsame, mergeAt_congr hsame]
    · rw [if_neg hsame, if_neg hsame]

theorem keys_merge (h : update.DistinctKeys) : (base.merge update).keys =
    base.keys ++ update.keys.filter fun k => !base.keys.any (·.same k) := by
  induction update generalizing base with
  | nil => simp [merge, mergeEntries]
  | cons e update ih =>
    obtain ⟨k, v⟩ := e
    obtain ⟨hk, h⟩ := distinctKeys_cons.mp h
    have hthere : base.any (fun e => e.1.same k) = base.keys.any (·.same k) := by
      simp [keys, Function.comp_def]
    rw [merge_cons, ih h, keys_insert, hthere, keys_cons]
    split
    · rename_i hold
      rw [List.filter_cons_of_neg (by simp [hold])]
    · rename_i hnew
      have hothers : (keys update).filter (fun l => !(base.keys ++ [k]).any (·.same l)) =
          (keys update).filter fun l => !base.keys.any (·.same l) := by
        apply List.filter_congr
        intro l hl
        have hkl : k.same l = false := hk l hl
        simp [hkl]
      rw [List.filter_cons_of_pos (by simp [hnew]), hothers, List.append_assoc,
        List.singleton_append]

/-! Texts as keys. -/

@[simp] theorem at?_nil : at? [] t = none := rfl

theorem at?_cons_self : at? ((.text t, v) :: m) t = some v := by
  rw [at?, get?_cons, if_pos (same_text_iff.mpr rfl)]

theorem at?_cons_of_ne (h : k ≠ .text t) : at? ((k, v) :: m) t = m.at? t := by
  rw [at?, get?_cons, if_neg (mt same_text_iff.mp h)]
  rfl

theorem mem_of_at? (h : m.at? t = some v) : (.text t, v) ∈ m := by
  obtain ⟨⟨k, w⟩, hmem, hk, rfl⟩ := exists_mem_of_get? h
  obtain rfl : k = .text t := same_text_iff.mp hk
  exact hmem

theorem at?_merge (h : update.DistinctKeys) : (base.merge update).at? t =
    match update.at? t with
    | none => base.at? t
    | some v => some (mergeAt (.text t) (base.at? t) v) :=
  get?_merge rfl h

theorem keys_insert_text_of_mem (h : .text t ∈ m.keys) : (m.insert (.text t) v).keys = m.keys := by
  rw [keys_insert, if_pos]
  obtain ⟨e, he, hkey⟩ := List.mem_map.mp h
  exact List.any_eq_true.mpr ⟨e, he, same_text_iff.mpr hkey⟩

theorem keys_merge_of_mem (h : ∀ k ∈ update.keys, k ∈ base.keys ∧ ∃ t, k = .text t) :
    (base.merge update).keys = base.keys := by
  induction update generalizing base with
  | nil => rfl
  | cons e update ih =>
    obtain ⟨k, v⟩ := e
    obtain ⟨hk, t, rfl⟩ := h k List.mem_cons_self
    have hkeys := keys_insert_text_of_mem (v := mergeAt (.text t) (base.get? (.text t)) v) hk
    rw [merge_cons, ih, hkeys]
    intro l hl
    rw [hkeys]
    exact h l (List.mem_cons_of_mem _ hl)

theorem eq_of_keys {texts : List Text} (h : m.keys = texts.map .text) (hnodup : texts.Nodup) :
    m = texts.map fun t => (.text t, (m.at? t).getD .null) := by
  induction texts generalizing m with
  | nil => exact List.map_eq_nil_iff.mp h
  | cons t texts ih =>
    obtain ⟨e, rest, rfl, he, hrest⟩ := List.map_eq_cons_iff.mp h
    obtain ⟨k, v⟩ := e
    obtain rfl : k = .text t := he
    obtain ⟨ht, hnodup⟩ := List.nodup_cons.mp hnodup
    rw [List.map_cons, at?_cons_self]
    congr 1
    rw [ih hrest hnodup]
    refine List.map_congr_left fun u hu => ?_
    have hne : Value.text t ≠ .text u := by
      intro htu
      exact ht (Value.text.inj htu ▸ hu)
    rw [at?_cons_of_ne hne, ← ih hrest hnodup]

end Mapping

end ApiPages
