import Mathlib.Data.List.Forall2
import ApiPages.Value.Equality

/-!
What equality of values is. Values that are no collections are equal when they count as the same;
collections are equal part by part. Equality is transitive. Among what can be a key the sides do not
matter either, but a value is equal to itself only if there is neither `nan` nor a knot in it.
-/
namespace ApiPages

namespace Binary64

inductive Quantity where
  | units (n : Int)
  | infinite (negative : Bool)
  deriving DecidableEq

def Quantity.ofInt (n : Int) : Quantity := .units (n * one)

def quantity? : Binary64 → Option Quantity
  | .nan => none
  | .infinite s => some (.infinite s)
  | .finite s m => some (.units (signedUnits s m))

theorem Quantity.ofInt_inj {m n : Int} : ofInt m = ofInt n ↔ m = n := by
  have hone : (one : Int) ≠ 0 := by
    unfold one
    generalize 1074 = digits
    exact Int.natCast_ne_zero.mpr (Nat.ne_of_gt (Nat.two_pow_pos digits))
  rw [ofInt, ofInt, units.injEq, Int.mul_eq_mul_right_iff hone]

theorem same_iff {x y : Binary64} :
    x.same y = true ↔ ∃ q, x.quantity? = some q ∧ y.quantity? = some q := by
  cases x <;> cases y <;> simp [same, quantity?]
  all_goals exact eq_comm

theorem isInt_iff {x : Binary64} {n : Int} :
    x.isInt n = true ↔ x.quantity? = some (.ofInt n) := by
  cases x with
  | finite s m =>
    rw [isInt, beq_iff_eq, quantity?, Quantity.ofInt, Option.some.injEq, Quantity.units.injEq]
  | infinite s => exact iff_of_false Bool.false_ne_true nofun
  | nan => exact iff_of_false Bool.false_ne_true nofun

end Binary64

open Binary64 in
/-- What a value that is no collection counts as when it is compared. -/
inductive Scalar where
  | null
  | quantity (q : Quantity)
  | text (t : Text)
  | octets (bytes : List UInt8)
  | date (d : Date)
  | moment (universal : Bool) (microseconds : Int)
  deriving DecidableEq

def Moment.instant (m : Moment) : Int :=
  match m.offset with
  | none => m.clock
  | some x => m.clock - x * 60000000

theorem Moment.same_iff {l m : Moment} :
    l.same m = true ↔ l.offset.isSome = m.offset.isSome ∧ l.instant = m.instant := by
  cases hl : l.offset <;> cases hm : m.offset <;> simp [same, instant, hl, hm]

namespace Value

def scalar? : Value → Option Scalar
  | .null => some .null
  | .bool b => some (.quantity (.ofInt (if b then 1 else 0)))
  | .int n => some (.quantity (.ofInt n))
  | .float x => x.quantity?.map .quantity
  | .text t => some (.text t)
  | .octets bytes => some (.octets bytes)
  | .date d => some (.date d)
  | .moment m => some (.moment m.offset.isSome m.instant)
  | .list _ => none
  | .tuple _ => none
  | .set _ => none
  | .map _ => none
  | .knot _ _ => none

theorem sameScalar_iff {u v : Value} :
    sameScalar u v = true ↔ ∃ s, u.scalar? = some s ∧ some s = v.scalar? := by
  have hnumber (s : Scalar) (x : Binary64) :
      some s = x.quantity?.map .quantity ↔ ∃ q, x.quantity? = some q ∧ .quantity q = s := by
    rw [eq_comm, Option.map_eq_some_iff]
  cases u <;> cases v <;>
    simp [sameScalar, scalar?, count?, Moment.same_iff, Binary64.same_iff, Binary64.isInt_iff,
      Binary64.Quantity.ofInt_inj, hnumber]

/-- What a value is made of; a knot is not taken apart. -/
def parts : Value → List Value
  | .list items => items
  | .tuple items => items
  | .set members => members
  | .map entries => entries.map Prod.fst ++ entries.map Prod.snd
  | _ => []

theorem sizeOf_lt_of_mem_parts {v w : Value} (h : w ∈ v.parts) : sizeOf w < sizeOf v := by
  cases v with
  | list items =>
    have := List.sizeOf_lt_of_mem (show w ∈ items from h)
    simp only [list.sizeOf_spec]
    omega
  | tuple items =>
    have := List.sizeOf_lt_of_mem (show w ∈ items from h)
    simp only [tuple.sizeOf_spec]
    omega
  | set members =>
    have := List.sizeOf_lt_of_mem (show w ∈ members from h)
    simp only [set.sizeOf_spec]
    omega
  | map entries =>
    simp only [map.sizeOf_spec]
    rcases List.mem_append.mp h with h | h <;> obtain ⟨⟨k, u⟩, he, rfl⟩ := List.mem_map.mp h
    · have := List.sizeOf_lt_of_mem he
      simp only [Prod.mk.sizeOf_spec] at this
      simp only
      omega
    · have := List.sizeOf_lt_of_mem he
      simp only [Prod.mk.sizeOf_spec] at this
      simp only
      omega
  | _ => simp [parts] at h

theorem parts_induction {P : Value → Prop} (h : ∀ v, (∀ w ∈ v.parts, P w) → P v) (v : Value) :
    P v :=
  h v fun w _ => parts_induction h w
termination_by sizeOf v
decreasing_by exact sizeOf_lt_of_mem_parts ‹_›

theorem sameItems_iff {xs ys : List Value} :
    sameItems xs ys = true ↔ List.Forall₂ (fun x y => x.same y = true) xs ys := by
  induction xs generalizing ys with
  | nil => cases ys <;> simp [sameItems]
  | cons x xs ih => cases ys <;> simp [sameItems, ih]

theorem sameMembers_iff {xs ys : List Value} :
    sameMembers xs ys = true ↔ ∀ x ∈ xs, ∃ y ∈ ys, x.same y = true := by
  induction xs with
  | nil => simp [sameMembers]
  | cons x xs ih => simp [sameMembers, ih]

theorem sameEntries_iff {es fs : Mapping} :
    sameEntries es fs = true ↔
      ∀ e ∈ es, ∃ f ∈ fs, e.1.same f.1 = true ∧ e.2.same f.2 = true := by
  induction es with
  | nil => simp [sameEntries]
  | cons e es ih => simp [sameEntries, ih]

/-- The ways in which two values are equal. -/
inductive Matches : Value → Value → Prop where
  | scalar {u v : Value} {s : Scalar} : u.scalar? = some s → v.scalar? = some s → Matches u v
  | list {xs ys : List Value} : List.Forall₂ (fun x y => x.same y = true) xs ys →
      Matches (.list xs) (.list ys)
  | tuple {xs ys : List Value} : List.Forall₂ (fun x y => x.same y = true) xs ys →
      Matches (.tuple xs) (.tuple ys)
  | set {xs ys : List Value} : xs.length = ys.length →
      (∀ x ∈ xs, ∃ y ∈ ys, x.same y = true) → Matches (.set xs) (.set ys)
  | map {es fs : Mapping} : es.length = fs.length →
      (∀ e ∈ es, ∃ f ∈ fs, e.1.same f.1 = true ∧ e.2.same f.2 = true) → Matches (.map es) (.map fs)

theorem same_iff_matches {u v : Value} : u.same v = true ↔ Matches u v := by
  constructor
  · intro h
    have hscalar (h : sameScalar u v = true) : Matches u v := by
      obtain ⟨s, hu, hv⟩ := sameScalar_iff.mp h
      exact .scalar hu hv.symm
    cases u with
    | list xs =>
      cases v with
      | list ys => exact .list (sameItems_iff.mp h)
      | _ => exact hscalar h
    | tuple xs =>
      cases v with
      | tuple ys => exact .tuple (sameItems_iff.mp h)
      | _ => exact hscalar h
    | set xs =>
      cases v with
      | set ys =>
        rw [same, Bool.and_eq_true, beq_iff_eq, sameMembers_iff] at h
        exact .set h.1 h.2
      | _ => exact hscalar h
    | map es =>
      cases v with
      | map fs =>
        rw [same, Bool.and_eq_true, beq_iff_eq, sameEntries_iff] at h
        exact .map h.1 h.2
      | _ => exact hscalar h
    | _ => exact hscalar (by simpa [same] using h)
  · intro h
    cases h with
    | @scalar u v s hu hv =>
      have hsame : u.same v = sameScalar u v := by
        cases u with
        | list | tuple | set | map | knot => cases hu
        | _ => simp [same]
      rw [hsame, sameScalar_iff]
      exact ⟨s, hu, hv.symm⟩
    | list h => exact sameItems_iff.mpr h
    | tuple h => exact sameItems_iff.mpr h
    | set hlength h =>
      rw [same, Bool.and_eq_true, beq_iff_eq, sameMembers_iff]
      exact ⟨hlength, h⟩
    | map hlength h =>
      rw [same, Bool.and_eq_true, beq_iff_eq, sameEntries_iff]
      exact ⟨hlength, h⟩

theorem key_mem_parts {entries : Mapping} {e : Value × Value} (h : e ∈ entries) :
    e.1 ∈ (Value.map entries).parts :=
  List.mem_append_left _ (List.mem_map_of_mem h)

theorem value_mem_parts {entries : Mapping} {e : Value × Value} (h : e ∈ entries) :
    e.2 ∈ (Value.map entries).parts :=
  List.mem_append_right _ (List.mem_map_of_mem h)

theorem same_trans {u v w : Value} (huv : u.same v = true) (hvw : v.same w = true) :
    u.same w = true := by
  -- by the parts of the first value: it alone gets smaller in the entries of a mapping
  induction u using parts_induction generalizing v w with
  | h u ih =>
    have hitems {xs ys zs : List Value} (hparts : ∀ x ∈ xs, x ∈ u.parts)
        (hxy : List.Forall₂ (fun x y => x.same y = true) xs ys)
        (hyz : List.Forall₂ (fun y z => y.same z = true) ys zs) :
        List.Forall₂ (fun x z => x.same z = true) xs zs := by
      induction hxy generalizing zs with
      | nil =>
        cases hyz
        exact .nil
      | cons hxy _ ihs =>
        obtain ⟨hx, hparts⟩ := List.forall_mem_cons.mp hparts
        cases hyz with
        | cons hyz hrest => exact .cons (ih _ hx hxy hyz) (ihs hparts hrest)
    rw [same_iff_matches] at huv hvw ⊢
    cases huv with
    | scalar hu hv =>
      cases hvw with
      | scalar hv' hw => exact .scalar hu (hw.trans (hv'.symm.trans hv))
      | _ => cases hv
    | list hxy =>
      cases hvw with
      | scalar hv' _ => cases hv'
      | list hyz => exact .list (hitems (fun _ hx => hx) hxy hyz)
    | tuple hxy =>
      cases hvw with
      | scalar hv' _ => cases hv'
      | tuple hyz => exact .tuple (hitems (fun _ hx => hx) hxy hyz)
    | set hlength hxy =>
      cases hvw with
      | scalar hv' _ => cases hv'
      | set hlength' hyz =>
        refine .set (hlength.trans hlength') fun x hx => ?_
        obtain ⟨y, hy, hsame⟩ := hxy x hx
        obtain ⟨z, hz, hsame'⟩ := hyz y hy
        exact ⟨z, hz, ih x hx hsame hsame'⟩
    | map hlength hef =>
      cases hvw with
      | scalar hv' _ => cases hv'
      | map hlength' hfg =>
        refine .map (hlength.trans hlength') fun e he => ?_
        obtain ⟨f, hf, hkey, hvalue⟩ := hef e he
        obtain ⟨g, hg, hkey', hvalue'⟩ := hfg f hf
        exact ⟨g, hg, ih _ (key_mem_parts he) hkey hkey', ih _ (value_mem_parts he) hvalue hvalue'⟩

theorem allHashable_iff {items : List Value} :
    allHashable items = true ↔ ∀ x ∈ items, x.hashable = true := by
  induction items with
  | nil => simp [allHashable]
  | cons x items ih => simp [allHashable, ih]

theorem hashable_of_scalar? {v : Value} {s : Scalar} (h : v.scalar? = some s) :
    v.hashable = true := by
  cases v with
  | list | tuple | set | map | knot => cases h
  | _ => rfl

theorem hashable_congr {u v : Value} (h : u.same v = true) : u.hashable = v.hashable := by
  induction u using parts_induction generalizing v with
  | h u ih =>
    cases same_iff_matches.mp h with
    | scalar hu hv => rw [hashable_of_scalar? hu, hashable_of_scalar? hv]
    | list => rfl
    | set => rfl
    | map => rfl
    | @tuple xs ys hxy =>
      have heach : ∀ x ∈ xs, ∀ y, x.same y = true → x.hashable = y.hashable :=
        fun x hx _ hsame => ih x hx hsame
      have hpairs := (List.forall₂_and_left xs ys).mpr ⟨heach, hxy⟩
      change allHashable xs = allHashable ys
      clear ih h heach hxy
      induction hpairs with
      | nil => rfl
      | cons hxy _ ihs => rw [allHashable, allHashable, hxy.1 _ hxy.2, ihs]

/-- Among keys equality does not depend on the side; only between sets and mappings could it. -/
theorem same_symm {u v : Value} (hu : u.hashable = true) (h : u.same v = true) :
    v.same u = true := by
  induction u using parts_induction generalizing v with
  | h u ih =>
    rw [same_iff_matches] at h ⊢
    cases h with
    | scalar hu hv => exact .scalar hv hu
    | list => cases hu
    | set => cases hu
    | map => cases hu
    | @tuple xs ys hxy =>
      have hback : ∀ x ∈ xs, ∀ y, x.same y = true → y.same x = true :=
        fun x hx y hsame => ih x hx (allHashable_iff.mp hu x hx) hsame
      have hpairs := (List.forall₂_and_left xs ys).mpr ⟨hback, hxy⟩
      exact .tuple (hpairs.imp fun _ _ h => h.1 _ h.2).flip

theorem same_congr_right {u k l : Value} (hk : k.hashable = true) (h : k.same l = true) :
    u.same k = u.same l := by
  rw [Bool.eq_iff_iff]
  exact ⟨fun huk => same_trans huk h, fun hul => same_trans hul (same_symm hk h)⟩

theorem same_congr_left {u v k : Value} (hk : k.hashable = true) (h : u.same v = true) :
    u.same k = v.same k := by
  rw [Bool.eq_iff_iff]
  constructor
  · intro huk
    have hu : u.hashable = true := (hashable_congr huk).trans hk
    exact same_trans (same_symm hu h) huk
  · exact same_trans h

mutual

/-- Whether something holds of a value and of everything it is made of. -/
def everywhere (p : Value → Bool) : Value → Bool
  | .list items => p (.list items) && everywhereIn p items
  | .tuple items => p (.tuple items) && everywhereIn p items
  | .set members => p (.set members) && everywhereIn p members
  | .map entries => p (.map entries) && everywhereAt p entries
  | v => p v

def everywhereIn (p : Value → Bool) : List Value → Bool
  | [] => true
  | x :: xs => everywhere p x && everywhereIn p xs

def everywhereAt (p : Value → Bool) : Mapping → Bool
  | [] => true
  | (k, v) :: rest => everywhere p k && everywhere p v && everywhereAt p rest

end

section Everywhere

variable {p : Value → Bool} {v w : Value}

theorem everywhereIn_iff {items : List Value} :
    everywhereIn p items = true ↔ ∀ x ∈ items, x.everywhere p = true := by
  induction items with
  | nil => simp [everywhereIn]
  | cons x items ih => simp [everywhereIn, ih]

theorem everywhereAt_iff {entries : Mapping} :
    everywhereAt p entries = true ↔ ∀ w ∈ (Value.map entries).parts, w.everywhere p = true := by
  induction entries with
  | nil => simp [everywhereAt, parts]
  | cons e entries ih =>
    simp only [everywhereAt, parts, List.map_cons, List.forall_mem_append, List.forall_mem_cons,
      Bool.and_eq_true] at ih ⊢
    rw [ih]
    tauto

theorem everywhere_iff :
    v.everywhere p = true ↔ p v = true ∧ ∀ w ∈ v.parts, w.everywhere p = true := by
  cases v with
  | list items => rw [everywhere, Bool.and_eq_true, everywhereIn_iff]; rfl
  | tuple items => rw [everywhere, Bool.and_eq_true, everywhereIn_iff]; rfl
  | set members => rw [everywhere, Bool.and_eq_true, everywhereIn_iff]; rfl
  | map entries => rw [everywhere, Bool.and_eq_true, everywhereAt_iff]
  | _ => simp [everywhere, parts]

end Everywhere

def isNan : Value → Bool
  | .float .nan => true
  | _ => false

def isTuple : Value → Bool
  | .tuple _ => true
  | _ => false

def isKnot : Value → Bool
  | .knot _ _ => true
  | _ => false

def Lacks (v : Value) (kind : Value → Bool) : Prop := v.everywhere (fun w => !kind w) = true

instance (v : Value) (kind : Value → Bool) : Decidable (v.Lacks kind) :=
  inferInstanceAs (Decidable (_ = true))

theorem lacks_iff {v : Value} {kind : Value → Bool} :
    v.Lacks kind ↔ kind v = false ∧ ∀ w ∈ v.parts, w.Lacks kind := by
  rw [Lacks, everywhere_iff, Bool.not_eq_true']
  rfl

theorem same_self {v : Value} (hnan : v.Lacks isNan) (hknot : v.Lacks isKnot) :
    v.same v = true := by
  induction v using parts_induction with
  | h v ih =>
    obtain ⟨hv, hnan⟩ := lacks_iff.mp hnan
    obtain ⟨hv', hknot⟩ := lacks_iff.mp hknot
    have hparts : ∀ w ∈ v.parts, w.same w = true := fun w hw => ih w hw (hnan w hw) (hknot w hw)
    rw [same_iff_matches]
    cases v with
    | list xs => exact .list (List.forall₂_same.mpr hparts)
    | tuple xs => exact .tuple (List.forall₂_same.mpr hparts)
    | set xs => exact .set rfl fun x hx => ⟨x, hx, hparts x hx⟩
    | map es =>
      refine .map rfl fun e he => ⟨e, he, ?_, ?_⟩
      · exact hparts _ (key_mem_parts he)
      · exact hparts _ (value_mem_parts he)
    | knot => cases hv'
    | float x =>
      cases x with
      | nan => cases hv
      | _ => exact .scalar rfl rfl
    | _ => exact .scalar rfl rfl

end Value

end ApiPages
