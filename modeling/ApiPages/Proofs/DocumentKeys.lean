import ApiPages.FileTree.Values
import ApiPages.Proofs.Inversion
import ApiPages.Proofs.Mappings
import ApiPages.Yaml.Document

/-!
Keys of documents. A mapping that a document holds at its root has no two equal keys, also where it
contains itself.
-/
namespace ApiPages

/-- If a value is a mapping, no two keys of it are equal. -/
def Value.DistinctKeys (v : Value) : Prop := ∀ m, v.mapping? = some m → m.DistinctKeys

/-- What is asked of a reader of documents. -/
def DocumentReader.DistinctKeys (read : DocumentReader) : Prop :=
  ∀ t v, read t = .ok v → v.DistinctKeys

def Cell.DistinctKeys : Cell Value → Prop
  | .map entries => Value.Distinct (entries.map Prod.fst)
  | _ => True

theorem Value.distinctKeys_of_mapping?_eq_none {v : Value} (h : v.mapping? = none) :
    v.DistinctKeys := by
  intro m hm
  rw [h] at hm
  contradiction

namespace Yaml.Builder

open Value

variable {s s' : Building}

theorem run_bind_eq_ok {α β : Type} {x : Builder α} {f : α → Builder β} {r : β × Building} :
    (x >>= f).run s = .ok r ↔ ∃ a s', x.run s = .ok (a, s') ∧ (f a).run s' = .ok r := by
  rw [StateT.run_bind, bind_eq_ok]
  exact Prod.exists

theorem run'_eq_ok {α : Type} {x : Builder α} {a : α} :
    x.run' s = .ok a ↔ ∃ s', x.run s = .ok (a, s') := by
  rw [StateT.run', StateT.run]
  cases x s with
  | error e => exact ⟨fun h => (nomatch h), fun ⟨_, h⟩ => (nomatch h)⟩
  | ok r =>
    constructor
    · intro h
      cases h
      exact ⟨r.2, rfl⟩
    · rintro ⟨s', h⟩
      cases h
      rfl

theorem foldlM_invariant {α β : Type} {step : β → α → Builder β} (P : β → Prop)
    (hstep : ∀ b a b' s s', P b → (step b a).run s = .ok (b', s') → P b') {as : List α} {b b' : β}
    (hb : P b) (h : (as.foldlM step b).run s = .ok (b', s')) : P b' := by
  induction as generalizing b s with
  | nil =>
    cases h
    exact hb
  | cons a as ih =>
    rw [List.foldlM_cons, run_bind_eq_ok] at h
    obtain ⟨next, s₁, hnext, h⟩ := h
    exact ih (hstep _ _ _ _ _ hb hnext) h

theorem key_of_mem_insert {key : Key} {l : Link Value} {entries : List (Key × Link Value)}
    {e : Key × Link Value} (h : e ∈ insert key l entries) :
    e.1 = key ∨ ∃ f ∈ entries, e.1 = f.1 := by
  induction entries with
  | nil =>
    rw [List.mem_singleton.mp h]
    exact .inl rfl
  | cons f entries ih =>
    obtain ⟨k, old⟩ := f
    rw [insert] at h
    split at h
    · rcases List.mem_cons.mp h with rfl | h
      · exact .inr ⟨(k, old), List.mem_cons_self, rfl⟩
      · exact .inr ⟨e, List.mem_cons_of_mem _ h, rfl⟩
    · rcases List.mem_cons.mp h with rfl | h
      · exact .inr ⟨(k, old), List.mem_cons_self, rfl⟩
      · rcases ih h with hkey | ⟨f, hf, hef⟩
        · exact .inl hkey
        · exact .inr ⟨f, List.mem_cons_of_mem _ hf, hef⟩

theorem insert_pairwise {key : Key} {l : Link Value} {entries : List (Key × Link Value)}
    (h : entries.Pairwise fun e f => e.1.same f.1 = false) :
    (insert key l entries).Pairwise fun e f => e.1.same f.1 = false := by
  induction entries with
  | nil => exact List.pairwise_singleton _ _
  | cons e entries ih =>
    obtain ⟨k, old⟩ := e
    obtain ⟨hk, h⟩ := List.pairwise_cons.mp h
    rw [insert]
    split
    · exact List.pairwise_cons.mpr ⟨hk, h⟩
    · rename_i hkey
      refine List.pairwise_cons.mpr ⟨?_, ih h⟩
      intro f hf
      rcases key_of_mem_insert hf with hf | ⟨g, hg, hf⟩
      · rw [hf]
        exact Bool.eq_false_iff.mpr hkey
      · rw [hf]
        exact hk g hg

theorem makeEntries_distinct {merges n : Nat} {made : List (Value × Link Value)}
    (h : (makeEntries merges n).run s = .ok (made, s')) : Value.Distinct (made.map Prod.fst) := by
  rw [makeEntries] at h
  obtain ⟨-, s₁, -, h⟩ := run_bind_eq_ok.mp h
  obtain ⟨s₂, s₃, -, h⟩ := run_bind_eq_ok.mp h
  obtain ⟨entries, s₄, hentries, h⟩ := run_bind_eq_ok.mp h
  cases h
  have hpairs : entries.Pairwise fun e f => e.1.same f.1 = false := by
    refine foldlM_invariant _ ?_ List.Pairwise.nil hentries
    intro earlier e later s s' hearlier hstep
    obtain ⟨key, s₁, -, hstep⟩ := run_bind_eq_ok.mp hstep
    obtain ⟨l, s₂, -, hstep⟩ := run_bind_eq_ok.mp hstep
    cases hstep
    exact insert_pairwise hearlier
  rw [List.map_map]
  refine List.Pairwise.map _ ?_ hpairs
  intro e f hef
  exact (Bool.or_eq_false_iff.mp hef).1

theorem fill_distinctKeys {merges : Nat} {aside : Aside} {c : Cell Value}
    (h : (fill merges aside).run s = .ok (c, s')) : c.DistinctKeys := by
  cases aside with
  | pair first second =>
    cases h
    trivial
  | node n =>
    rw [fill] at h
    obtain ⟨s₁, s₂, -, h⟩ := run_bind_eq_ok.mp h
    obtain ⟨s₃, s₄, -, h⟩ := run_bind_eq_ok.mp h
    split at h
    · obtain ⟨items, s₅, -, h⟩ := run_bind_eq_ok.mp h
      cases h
      trivial
    · obtain ⟨items, s₅, -, h⟩ := run_bind_eq_ok.mp h
      cases h
      trivial
    · obtain ⟨entries, s₅, hentries, h⟩ := run_bind_eq_ok.mp h
      cases h
      exact makeEntries_distinct hentries
    · obtain ⟨entries, s₅, -, h⟩ := run_bind_eq_ok.mp h
      cases h
      trivial
    · cases h

theorem fillFrom_distinctKeys {merges fuel number : Nat} {cells : List (Cell Value)}
    (h : (fillFrom merges fuel number).run s = .ok (cells, s')) : ∀ c ∈ cells, c.DistinctKeys := by
  induction fuel generalizing number cells s s' with
  | zero =>
    cases h
    simp
  | succ fuel ih =>
    rw [fillFrom] at h
    obtain ⟨s₁, s₂, -, h⟩ := run_bind_eq_ok.mp h
    split at h
    · cases h
      simp
    · obtain ⟨c, s₃, hc, h⟩ := run_bind_eq_ok.mp h
      obtain ⟨rest, s₄, hrest, h⟩ := run_bind_eq_ok.mp h
      cases h
      exact List.forall_mem_cons.mpr ⟨fill_distinctKeys hc, ih hrest⟩

theorem ofText?_mapping? {tag : Tag} {t : Text} {v : Value} (h : ofText? tag t = .ok v) :
    v.mapping? = none := by
  cases tag with
  | bool =>
    obtain ⟨b, -, rfl⟩ := map_eq_ok.mp h
    rfl
  | int =>
    obtain ⟨n, -, rfl⟩ := map_eq_ok.mp h
    rfl
  | float =>
    obtain ⟨x, -, rfl⟩ := map_eq_ok.mp h
    rfl
  | moment =>
    simp only [ofText?, Timestamp.value?] at h
    split at h
    · cases h
    · split at h
      · split at h <;> cases h
        rfl
      · split at h
        · cases h
        · split at h <;> cases h
          rfl
  | octets =>
    obtain ⟨bytes, -, rfl⟩ := map_eq_ok.mp h
    rfl
  | null | text =>
    cases h
    rfl
  | _ => cases h

theorem eq_ok_of_unless_throw {ε α : Type} {c : Prop} [Decidable c] {e : ε} {x : Unit → Except ε α}
    {a : α} (h : (if c then throw e >>= x else x ()) = .ok a) : x () = .ok a := by
  by_cases hc : c
  · rw [if_pos hc] at h
    cases h
  · rwa [if_neg hc] at h

/-- A scalar is no mapping. -/
theorem scalar?_mapping? {nodes : Nodes} {n : Nat} {tag : Tag} {v : Value}
    (h : scalar? nodes n tag = .ok v) : v.mapping? = none := by
  rw [scalar?] at h
  obtain ⟨t, -, h⟩ := bind_eq_ok.mp h
  exact ofText?_mapping? (eq_ok_of_unless_throw h)

end Yaml.Builder

namespace Value.Tying

variable {s : Tying} {group : List Nat} {n : Nat}

theorem exists_of_mem_mapM? {α β : Type} {f : α → Option β} {as : List α} {bs : List β} {b : β}
    (h : as.mapM f = some bs) (hb : b ∈ bs) : ∃ a ∈ as, f a = some b := by
  induction as generalizing bs with
  | nil =>
    cases h
    cases hb
  | cons a as ih =>
    rw [List.mapM_cons] at h
    obtain ⟨first, hfirst, h⟩ := Option.bind_eq_some_iff.mp h
    obtain ⟨rest, hrest, h⟩ := Option.bind_eq_some_iff.mp h
    cases h
    rcases List.mem_cons.mp hb with rfl | hb
    · exact ⟨a, List.mem_cons_self, hfirst⟩
    · obtain ⟨a', ha', hab⟩ := ih hrest hb
      exact ⟨a', List.mem_cons_of_mem _ ha', hab⟩

theorem keys_of_mapM? {α β : Type} {f : α → Option β} {entries : List (Value × α)}
    {made : List (Value × β)}
    (h : (entries.mapM fun e => (f e.2).map fun b => (e.1, b)) = some made) :
    made.map Prod.fst = entries.map Prod.fst := by
  induction entries generalizing made with
  | nil =>
    cases h
    rfl
  | cons e entries ih =>
    rw [List.mapM_cons] at h
    obtain ⟨first, hfirst, h⟩ := Option.bind_eq_some_iff.mp h
    obtain ⟨rest, hrest, h⟩ := Option.bind_eq_some_iff.mp h
    obtain ⟨b, -, rfl⟩ := Option.map_eq_some_iff.mp hfirst
    cases h
    rw [List.map_cons, List.map_cons, ih hrest]

structure DistinctKeys (s : Tying) : Prop where
  cells : ∀ (n : Nat) (c : Cell Value), s.cells[n]? = some c → c.DistinctKeys
  known : ∀ (n : Nat) (v : Value), s.known? n = some v → v.DistinctKeys

theorem plain?_distinctKeys {c : Cell Value} {v : Value} (hc : c.DistinctKeys)
    (h : s.plain? c = some v) : v.DistinctKeys := by
  cases c with
  | list items | tuple items =>
    obtain ⟨items', -, rfl⟩ := Option.map_eq_some_iff.mp h
    exact distinctKeys_of_mapping?_eq_none rfl
  | set members =>
    cases h
    exact distinctKeys_of_mapping?_eq_none rfl
  | map entries =>
    obtain ⟨entries', hentries, rfl⟩ := Option.map_eq_some_iff.mp h
    intro m hm
    cases hm
    rw [Mapping.DistinctKeys, Mapping.keys, keys_of_mapM? hentries]
    exact hc

theorem cellWithin?_distinctKeys {c : Cell Value} (hs : s.DistinctKeys)
    (h : s.cellWithin? group n = some c) : c.DistinctKeys := by
  rw [cellWithin?] at h
  split at h
  · obtain ⟨items, -, rfl⟩ := Option.map_eq_some_iff.mp h
    trivial
  · obtain ⟨items, -, rfl⟩ := Option.map_eq_some_iff.mp h
    trivial
  · cases h
    trivial
  · rename_i entries hn
    obtain ⟨entries', hentries, rfl⟩ := Option.map_eq_some_iff.mp h
    rw [Cell.DistinctKeys, keys_of_mapM? hentries]
    exact hs.cells n _ hn
  · contradiction

theorem knot_distinctKeys {cells : List (Cell Value)} (h : ∀ c ∈ cells, c.DistinctKeys) :
    (Value.knot cells n).DistinctKeys := by
  intro m hm
  cases hn : cells[n]? with
  | none => simp [mapping?, opened, hn] at hm
  | some c =>
    have hc := h c (List.mem_of_getElem? hn)
    cases c with
    | list items | tuple items | set members => simp [mapping?, opened, hn] at hm
    | map entries =>
      simp only [mapping?, opened, hn, Option.some.injEq] at hm
      subst hm
      rw [Mapping.DistinctKeys, Mapping.keys, List.map_map]
      exact hc

theorem values_distinctKeys {e : Nat × Value} (hs : s.DistinctKeys) (h : e ∈ s.values group n) :
    e.2.DistinctKeys := by
  rw [values] at h
  split at h
  · rw [Option.mem_toList] at h
    obtain ⟨v, hv, rfl⟩ := Option.map_eq_some_iff.mp h
    obtain ⟨c, hc, hv⟩ := Option.bind_eq_some_iff.mp hv
    exact plain?_distinctKeys (hs.cells n c hc) hv
  · split at h
    · rename_i cells hcells
      obtain ⟨⟨m, i⟩, -, rfl⟩ := List.mem_map.mp h
      refine knot_distinctKeys fun c hc => ?_
      obtain ⟨a, -, ha⟩ := exists_of_mem_mapM? hcells hc
      exact cellWithin?_distinctKeys hs ha
    · cases h

theorem DistinctKeys.know {v : Value} (hs : s.DistinctKeys) (hv : v.DistinctKeys) :
    DistinctKeys { s with known := s.known.setIfInBounds n (some v) } where
  cells := hs.cells
  known := by
    intro m w hw
    rw [known?] at hw
    by_cases hmn : n = m
    · subst hmn
      simp only [Array.getElem?_setIfInBounds_self] at hw
      split at hw
      · cases hw
        exact hv
      · cases hw
    · rw [Array.getElem?_setIfInBounds_ne hmn] at hw
      exact hs.known m w hw

theorem DistinctKeys.knowAll {told : List (Nat × Value)} (hs : s.DistinctKeys)
    (htold : ∀ e ∈ told, e.2.DistinctKeys) :
    DistinctKeys (told.foldl (fun s e =>
      { s with known := s.known.setIfInBounds e.1 (some e.2) }) s) := by
  induction told generalizing s with
  | nil => exact hs
  | cons e told ih =>
    obtain ⟨he, htold⟩ := List.forall_mem_cons.mp htold
    exact ih (hs.know he) htold

theorem DistinctKeys.learn {groups : Nat → List Nat} (hs : s.DistinctKeys) :
    (learn groups s n).DistinctKeys := by
  rw [Tying.learn]
  split
  · exact hs
  · exact hs.knowAll fun e => values_distinctKeys hs

theorem DistinctKeys.learnAll {groups : Nat → List Nat} (fuel : Nat) (hs : s.DistinctKeys) :
    (learnAll groups fuel s).DistinctKeys := by
  induction fuel generalizing s with
  | zero => exact hs
  | succ fuel ih =>
    have hnext : (s.unknown.reverse.foldl (Tying.learn groups) s).DistinctKeys := by
      generalize s.unknown.reverse = left
      induction left generalizing s with
      | nil => exact hs
      | cons n left ihleft => exact ihleft hs.learn
    rw [Tying.learnAll]
    split
    · exact ih hnext
    · exact hnext

end Value.Tying

theorem Value.tied_distinctKeys {cells : List (Cell Value)} {n : Nat}
    (h : ∀ c ∈ cells, c.DistinctKeys) : (tied cells n).DistinctKeys := by
  have hstart : Tying.DistinctKeys ⟨cells.toArray, Array.replicate cells.length none⟩ := by
    refine ⟨fun n c hc => h c (List.mem_of_getElem? (by simpa using hc)), fun n v hv => ?_⟩
    rw [Tying.known?, Array.getElem?_replicate] at hv
    split at hv <;> contradiction
  have htrees : (Tying.learnAll (fun _ => []) cells.length _).DistinctKeys :=
    hstart.learnAll cells.length
  rw [Value.tied]
  dsimp only
  split
  · rename_i v hv
    exact htrees.known n v hv
  · generalize hknown : Tying.known? _ n = known
    cases known with
    | some v => exact (htrees.learnAll cells.length).known n v hknown
    | none => exact distinctKeys_of_mapping?_eq_none rfl

namespace Yaml.Builder

theorem make_mapping? {s s' : Building} {n : Nat} {v : Value} (hfirst : (s.made[n]?).join = none)
    (h : (make n).run s = .ok (.value v, s')) : v.mapping? = none := by
  rw [make] at h
  obtain ⟨s₁, s₂, hget, h⟩ := run_bind_eq_ok.mp h
  cases hget
  rw [hfirst] at h
  dsimp only at h
  -- only a scalar gives a value here: collections are put aside, the other tags are refused
  split at h
  all_goals
    obtain ⟨l, s₃, hl, h⟩ := run_bind_eq_ok.mp h
    obtain ⟨-, s₄, -, h⟩ := run_bind_eq_ok.mp h
    cases h
  case h_8.refl =>
    cases hv : scalar? s.nodes n (s.nodes.tagOf n) with
    | error e =>
      rw [hv] at hl
      cases hl
    | ok w =>
      rw [hv] at hl
      cases hl
      exact scalar?_mapping? hv
  all_goals cases hl

theorem value_distinctKeys {s s' : Building} {merges fuel n : Nat} {v : Value}
    (hfirst : (s.made[n]?).join = none) (h : (value merges fuel n).run s = .ok (v, s')) :
    v.DistinctKeys := by
  obtain ⟨l, s₁, hl, h⟩ := run_bind_eq_ok.mp h
  cases l with
  | value w =>
    cases h
    exact Value.distinctKeys_of_mapping?_eq_none (make_mapping? hfirst hl)
  | cell number =>
    obtain ⟨cells, s₂, hcells, h⟩ := run_bind_eq_ok.mp h
    cases h
    exact Value.tied_distinctKeys (fillFrom_distinctKeys hcells)

end Yaml.Builder

theorem Yaml.value?_distinctKeys : DocumentReader.DistinctKeys Yaml.value? := by
  intro t v h
  rw [Yaml.value?] at h
  split at h
  · obtain ⟨nodes, -, h⟩ := bind_eq_ok.mp h
    split at h
    · cases h
      exact Value.distinctKeys_of_mapping?_eq_none rfl
    · rename_i nodes n
      obtain ⟨s, h⟩ := Builder.run'_eq_ok.mp h
      refine Builder.value_distinctKeys ?_ h
      rw [Array.getElem?_replicate]
      split <;> rfl
  · cases h

namespace FileTree

variable {read : DocumentReader} {t : FileTree} {p : Path} {v : Value}

theorem readValue_eq_ok (h : t.readValue read p = .ok v) : p.fault? = none ∧
    ∃ octets text, t.readFile p = .ok octets ∧ Utf8.decode octets = some text ∧
      read (withLineFeeds text) = .ok v := by
  rw [readValue] at h
  split at h
  · cases h
  · rename_i hclean
    split at h
    · cases h
    · rename_i octets hoctets
      split at h
      · cases h
      · rename_i text htext
        exact ⟨hclean, octets, text, hoctets, htext, mapError_eq_ok.mp h⟩

theorem readValue_distinctKeys (hread : read.DistinctKeys) (h : t.readValue read p = .ok v) :
    v.DistinctKeys := by
  obtain ⟨-, octets, text, -, -, hv⟩ := readValue_eq_ok h
  exact hread _ v hv

theorem exists?_of_readValue (h : t.readValue read p = .ok v) : t.exists? p = .ok true := by
  obtain ⟨hclean, octets, -, hoctets, -⟩ := readValue_eq_ok h
  obtain ⟨e, hentry, -⟩ := bind_eq_ok.mp hoctets
  rw [exists?, hclean, if_neg (by simp), hentry]

end FileTree

end ApiPages
