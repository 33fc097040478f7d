import Mathlib.Data.List.Basic
import ApiPages.Proofs.CodeFence

/-!
Blocks of code, read back. A block ends at the first later line that holds nothing but backticks and
at least as many of them as its fence. The code holds no run so long, so no line of it ends the
block, whatever it is, and a reader takes back the language and the code.
-/
namespace ApiPages.Markdown

open Text

/-- So many of a character stand together somewhere in a text, and nowhere more. -/
structure IsLongestRun (c : CodePoint) (k : Nat) (t : Text) : Prop where
  occurs : List.replicate k c <:+: t
  longest : ∀ n, List.replicate n c <:+: t → n ≤ k

theorem longestRunAfter_infix (c : CodePoint) (current : Nat) (t : Text) :
    List.replicate (longestRunAfter c current t) c <:+: List.replicate current c ++ t := by
  induction t generalizing current with
  | nil => simp [longestRunAfter]
  | cons d rest ih =>
    rw [longestRunAfter]
    split
    · rename_i hd
      have hlonger := ih (current + 1)
      rw [hd]
      rwa [List.replicate_succ', List.append_assoc, List.singleton_append] at hlonger
    · rcases Nat.le_total current (longestRunAfter c 0 rest) with hle | hle
      · have hlater : List.replicate (longestRunAfter c 0 rest) c <:+: rest := ih 0
        rw [Nat.max_eq_right hle]
        apply hlater.trans
        exact (List.suffix_cons d rest).isInfix.trans (List.suffix_append _ _).isInfix
      · rw [Nat.max_eq_left hle]
        exact (List.prefix_append _ _).isInfix

theorem isLongestRun (c : CodePoint) (t : Text) : IsLongestRun c (longestRun c t) t where
  occurs := longestRunAfter_infix c 0 t
  longest := by
    intro n h
    exact le_longestRun h

theorem fence_not_infix (code : Text) : ¬fence code <:+: code := by
  intro h
  have hrun := le_longestRun h
  omega

structure BlockReading where
  fence : Text
  language : Text
  content : Text
  behind : List Text
  deriving DecidableEq, Repr

/-- A line of nothing but backticks, and at least so many of them. -/
def endsBlock (size : Nat) (line : Text) : Bool :=
  size ≤ line.length && line.all fun c => c == backtick

/-- The fence is the run of backticks that the first line begins with, and the content goes on up to
the first later line that ends the block. -/
def readBlock? (t : Text) : Option BlockReading :=
  match rows t with
  | [] => none
  | first :: later =>
    let fence := first.takeWhile (· == backtick)
    let language := first.dropWhile (· == backtick)
    let inside := fun line => !endsBlock fence.length line
    match later.dropWhile inside with
    | [] => none
    | _ :: behind => some ⟨fence, language, join ['\n'.code] (later.takeWhile inside), behind⟩

theorem readBlock?_of_rows {t marks language ending : Text} {content behind : List Text}
    (hrows : rows t = (marks ++ language) :: (content ++ ending :: behind))
    (hmarks : ∀ c ∈ marks, c = backtick) (hlanguage : backtick ∉ language)
    (hcontent : ∀ line ∈ content, endsBlock marks.length line = false)
    (hending : endsBlock marks.length ending = true) :
    readBlock? t = some ⟨marks, language, join ['\n'.code] content, behind⟩ := by
  obtain ⟨htake, hdrop⟩ := marks_of_append hmarks (mt List.mem_of_head? hlanguage)
  have hinside : ∀ line ∈ content, (!endsBlock marks.length line) = true := by
    intro line hline
    rw [hcontent line hline]
    rfl
  have hlater : (content ++ ending :: behind).dropWhile (fun line => !endsBlock marks.length line) =
      ending :: behind := by
    rw [List.dropWhile_append_of_pos hinside, List.dropWhile_cons_of_neg]
    simp [hending]
  have hbefore :
      (content ++ ending :: behind).takeWhile (fun line => !endsBlock marks.length line) =
        content := by
    rw [List.takeWhile_append_of_pos hinside, List.takeWhile_cons_of_neg, List.append_nil]
    simp [hending]
  simp only [readBlock?, hrows, htake, hdrop, hlater, hbefore]

theorem endsBlock_fence (code : Text) : endsBlock (fence code).length (fence code) = true := by
  rw [endsBlock, Bool.and_eq_true, decide_eq_true_eq, List.all_eq_true]
  refine ⟨Nat.le_refl _, ?_⟩
  intro c hc
  exact beq_iff_eq.mpr (eq_backtick_of_mem_fence hc)

theorem fence_prefix_of_endsBlock {code line : Text}
    (h : endsBlock (fence code).length line = true) : fence code <+: line := by
  rw [endsBlock, Bool.and_eq_true, decide_eq_true_eq, List.all_eq_true] at h
  obtain ⟨hlong, hmarks⟩ := h
  have hline : line = List.replicate line.length backtick := by
    apply List.eq_replicate_of_mem
    intro c hc
    exact beq_iff_eq.mp (hmarks c hc)
  obtain ⟨more, hlength⟩ := Nat.exists_eq_add_of_le hlong
  have hfence : fence code = List.replicate (fence code).length backtick := by
    rw [length_fence]
    rfl
  rw [hline, hlength, List.replicate_add, ← hfence]
  exact List.prefix_append _ _

theorem endsBlock_of_mem_rows {code line : Text} (h : line ∈ rows (trimEnd code)) :
    endsBlock (fence code).length line = false := by
  by_contra hends
  rw [Bool.not_eq_false] at hends
  have hline : line <:+: code := (infix_of_mem_rows h).trans (trimEnd_isPrefix code).isInfix
  exact fence_not_infix code ((fence_prefix_of_endsBlock hends).isInfix.trans hline)

theorem readBlock?_block {language code t : Text} {behind : List Text}
    (hmarks : backtick ∉ language)
    (hrows : rows t =
      (fence code ++ language) :: (rows (trimEnd code) ++ fence code :: behind)) :
    readBlock? t = some ⟨fence code, language, trimEnd code, behind⟩ := by
  have hread := readBlock?_of_rows hrows (fun _ => eq_backtick_of_mem_fence) hmarks
    (fun _ => endsBlock_of_mem_rows) (endsBlock_fence code)
  rwa [join_rows] at hread

/-- The fence outgrows the code, and the block is read back whole, alone and with more behind it. -/
structure ClosesWhereItShould (language code : Text) : Prop where
  fence_eq : ∃ longest, IsLongestRun backtick longest code ∧
    fence code = List.replicate (max 3 (1 + longest)) backtick
  outgrown : ¬fence code <:+: code
  alone : readBlock? (codeBlock language code) = some ⟨fence code, language, trimEnd code, []⟩
  followed : ∀ rest, readBlock? (codeBlock language code ++ '\n'.code :: rest) =
    some ⟨fence code, language, trimEnd code, rows rest⟩

theorem code_block_reads_back {language : Text} (hmarks : backtick ∉ language)
    (hfeed : '\n'.code ∉ language) (code : Text) : ClosesWhereItShould language code where
  fence_eq := by
    refine ⟨longestRun backtick code, isLongestRun backtick code, ?_⟩
    rw [fence, Nat.add_comm]
  outgrown := fence_not_infix code
  alone := readBlock?_block hmarks (rows_codeBlock_eq hfeed code)
  followed := by
    intro rest
    apply readBlock?_block hmarks
    rw [rows_append, rows_codeBlock_eq hfeed, List.cons_append, List.append_assoc,
      List.singleton_append]

namespace Sample

def nestedBlocks : Text := "```md\n````\n`x``\n\n  ```` \n\t\n".text

end Sample

theorem sample_block_read_back :
    backtick ∉ "java script".text ∧ '\n'.code ∉ "java script".text ∧
      ClosesWhereItShould "java script".text Sample.nestedBlocks ∧
      codeBlock "java script".text Sample.nestedBlocks =
        "`````java script\n```md\n````\n`x``\n\n  ````\n`````".text := by
  have hmarks : backtick ∉ "java script".text := by decide
  have hfeed : '\n'.code ∉ "java script".text := by decide
  exact ⟨hmarks, hfeed, code_block_reads_back hmarks hfeed Sample.nestedBlocks, by decide +kernel⟩

end ApiPages.Markdown
