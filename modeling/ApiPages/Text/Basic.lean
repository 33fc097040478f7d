import ApiPages.Text.CodePoint

/-!
Text as a list of code points, so that every operation on it is a list operation and every law
about it a law of lists.
-/
namespace ApiPages

abbrev Text := List CodePoint

end ApiPages

def String.text (s : String) : ApiPages.Text := s.toList.map Char.code

@[simp] theorem String.text_eq (s : String) : s.text = s.toList.map Char.code := rfl

namespace ApiPages

namespace Text

def join (separator : Text) (pieces : List Text) : Text := separator.intercalate pieces

def replace (c : CodePoint) (written : Text) (t : Text) : Text :=
  t.flatMap fun d => if d = c then written else [d]

def digits (base n : Nat) : Text := (Nat.toDigits base n).map Char.code

def ofNat (n : Nat) : Text := digits 10 n

def ofInt : Int → Text
  | .ofNat n => ofNat n
  | .negSucc n => '-'.code :: ofNat (n + 1)

def ofNatPadded (width n : Nat) : Text :=
  List.replicate (width - (ofNat n).length) '0'.code ++ ofNat n

def decimal (t : Text) : Nat := t.foldl (fun n c => 10 * n + (c.toNat - '0'.toNat)) 0

@[simp] theorem join_nil (separator : Text) : join separator [] = [] := by simp [join]

@[simp] theorem join_singleton (separator piece : Text) : join separator [piece] = piece := by
  simp [join]

@[simp] theorem join_cons_cons (separator a b : Text) (rest : List Text) :
    join separator (a :: b :: rest) = a ++ separator ++ join separator (b :: rest) := by
  simp [join]

theorem infix_join {separator piece : Text} {pieces : List Text} (h : piece ∈ pieces) :
    piece <:+: join separator pieces := by
  induction pieces with
  | nil => simp at h
  | cons a rest ih =>
    cases rest with
    | nil =>
      have hpiece := List.mem_singleton.mp h
      exact ⟨[], [], by simp [hpiece]⟩
    | cons b rest =>
      rw [join_cons_cons, List.append_assoc]
      rcases List.mem_cons.mp h with rfl | h
      · exact (List.prefix_append piece _).isInfix
      · exact (ih h).trans ((List.suffix_append _ _).isInfix.trans (List.suffix_append _ _).isInfix)

theorem splitOnP_congr {p q : CodePoint → Bool} {t : Text} (h : ∀ c ∈ t, p c = q c) :
    t.splitOnP p = t.splitOnP q := by
  induction t with
  | nil => rfl
  | cons c rest ih =>
    rw [List.splitOnP_cons_eq_if_modifyHead, List.splitOnP_cons_eq_if_modifyHead,
      h c List.mem_cons_self, ih fun d hd => h d (List.mem_cons_of_mem c hd)]

theorem not_of_mem_splitOnP {p : CodePoint → Bool} {t w : Text} (hw : w ∈ t.splitOnP p)
    {c : CodePoint}
    (hc : c ∈ w) : p c = false := by
  induction t generalizing w with
  | nil =>
    rw [List.splitOnP_nil, List.mem_singleton] at hw
    simp [hw] at hc
  | cons d rest ih =>
    rw [List.splitOnP_cons_eq_if_modifyHead] at hw
    split at hw
    · rcases List.mem_cons.1 hw with rfl | hw
      · simp at hc
      · exact ih hw hc
    · rename_i hd
      obtain ⟨v, vs, hv⟩ := List.exists_cons_of_ne_nil (List.splitOnP_ne_nil p rest)
      rw [hv, List.modifyHead_cons, List.mem_cons] at hw
      rcases hw with rfl | hw
      · rcases List.mem_cons.1 hc with rfl | hc
        · simpa using hd
        · exact ih (by simp [hv]) hc
      · exact ih (by simp [hv, hw]) hc

theorem decimal_ofNat (n : Nat) : decimal (ofNat n) = n := by
  have hdigits : Nat.ofDigitChars 10 (Nat.toDigits 10 n) 0 = n := by simp
  rw [ofNat, digits, decimal, List.foldl_map]
  exact hdigits

theorem ofNat_injective {m n : Nat} (h : ofNat m = ofNat n) : m = n := by
  rw [← decimal_ofNat m, h, decimal_ofNat]

theorem isDigit_of_mem_ofNat {n : Nat} {c : CodePoint} (h : c ∈ ofNat n) : c.isDigit = true := by
  obtain ⟨d, hd, rfl⟩ := List.mem_map.mp h
  have hdigit : d.isDigit = true := Nat.isDigit_of_mem_toDigits (by decide) (by decide) hd
  rw [CodePoint.isDigit, Bool.and_eq_true, decide_eq_true_eq, decide_eq_true_eq]
  simpa [Char.isDigit, UInt32.le_iff_toNat_le] using hdigit

end Text

end ApiPages
