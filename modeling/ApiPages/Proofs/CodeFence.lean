import Mathlib.Data.List.TakeWhile
import ApiPages.Markdown.Code
import ApiPages.Proofs.Blank

/-!
Code fences as a reader of Markdown finds them. Since the fence of a block is longer than any run of
backticks in the code, no line of the code closes it, and the block leaves no fence open.
-/
namespace ApiPages.Markdown

open Text

theorem le_longestRunAfter (c : CodePoint) (k : Nat) (t : Text) : k ≤ longestRunAfter c k t := by
  induction t generalizing k with
  | nil => exact Nat.le_refl k
  | cons d rest ih =>
    rw [longestRunAfter]
    split
    · exact Nat.le_trans (Nat.le_succ k) (ih (k + 1))
    · exact Nat.le_max_left _ _

theorem le_longestRunAfter_replicate (c : CodePoint) (k current : Nat) (rest : Text) :
    k ≤ longestRunAfter c current (List.replicate k c ++ rest) := by
  have hsum : ∀ current, current + k ≤
      longestRunAfter c current (List.replicate k c ++ rest) := by
    induction k with
    | zero => exact fun current => le_longestRunAfter c current rest
    | succ k ih =>
      intro current
      rw [List.replicate_succ, List.cons_append, longestRunAfter, if_pos rfl]
      exact Nat.le_trans (by omega) (ih (current + 1))
  exact Nat.le_trans (Nat.le_add_left k current) (hsum current)

theorem le_longestRun {c : CodePoint} {k : Nat} {t : Text} (h : List.replicate k c <:+: t) :
    k ≤ longestRun c t := by
  obtain ⟨before, after, rfl⟩ := h
  -- in front of the run, characters only begin and end runs of their own
  have hskip : ∀ current,
      k ≤ longestRunAfter c current (before ++ (List.replicate k c ++ after)) := by
    induction before with
    | nil => exact fun current => le_longestRunAfter_replicate c k current after
    | cons d before ih =>
      intro current
      rw [List.cons_append, longestRunAfter]
      split
      · exact ih (current + 1)
      · exact Nat.le_trans (ih 0) (Nat.le_max_right _ _)
  rw [List.append_assoc]
  exact hskip 0

/-- A fence that is open, told by its first line. -/
structure Fence where
  mark : CodePoint
  size : Nat
  deriving DecidableEq, Repr

/-- The line without the spaces it begins with, but no more than so many of them. -/
def unindented : Nat → Text → Text
  | n + 1, .space :: rest => unindented n rest
  | _, line => line

/-- A line opens a fence with three or more backticks or tildes. Behind backticks there may be no
further one. -/
def opening? (line : Text) : Option Fence :=
  let line := unindented 3 line
  line.head?.bind fun mark =>
    let size := (line.takeWhile (· == mark)).length
    let info := line.dropWhile (· == mark)
    if 3 ≤ size ∧ (mark = backtick ∧ backtick ∉ info ∨ mark = '~'.code) then some ⟨mark, size⟩
    else none

def Fence.closedBy (f : Fence) (line : Text) : Bool :=
  let line := unindented 3 line
  f.size ≤ (line.takeWhile (· == f.mark)).length &&
    (line.dropWhile (· == f.mark)).all fun c => c == ' '.code || c == '\t'.code

/-- The fence that is open behind a line. -/
def fenceBehind (fence : Option Fence) (line : Text) : Option Fence :=
  match fence with
  | none => opening? line
  | some f => if f.closedBy line then none else some f

theorem unindented_suffix (n : Nat) (line : Text) : unindented n line <:+ line := by
  fun_induction unindented n line with
  | case1 n rest ih => exact ih.trans (List.suffix_cons ' '.code rest)
  | case2 => exact List.suffix_rfl

theorem unindented_eq {line : Text} (h : line.head? ≠ some ' '.code) (n : Nat) :
    unindented n line = line := by
  rw [unindented]
  rintro m rest - rfl
  exact h rfl

theorem opening?_cons {c : CodePoint} (hspace : c ≠ ' '.code) (hbacktick : c ≠ backtick)
    (htilde : c ≠ '~'.code) (rest : Text) : opening? (c :: rest) = none := by
  have hhead : (c :: rest).head? ≠ some ' '.code := by simpa using hspace
  simp [opening?, unindented_eq hhead, hbacktick, htilde]

theorem takeWhile_eq_replicate (c : CodePoint) (t : Text) :
    t.takeWhile (· == c) = List.replicate (t.takeWhile (· == c)).length c := by
  apply List.eq_replicate_of_mem
  intro d hd
  simpa using List.mem_takeWhile_imp hd

theorem Fence.infix_of_closedBy {f : Fence} {line : Text} (h : f.closedBy line = true) :
    List.replicate f.size f.mark <:+: line := by
  rw [closedBy, Bool.and_eq_true, decide_eq_true_eq] at h
  have hmarks := List.takeWhile_prefix (l := unindented 3 line) (· == f.mark)
  rw [takeWhile_eq_replicate, ← Nat.sub_add_cancel h.1, Nat.add_comm, List.replicate_add] at hmarks
  exact ((List.prefix_append _ _).trans hmarks).isInfix.trans (unindented_suffix 3 line).isInfix

theorem marks_of_append {c : CodePoint} {marks rest : Text} (hmarks : ∀ d ∈ marks, d = c)
    (hrest : rest.head? ≠ some c) :
    (marks ++ rest).takeWhile (· == c) = marks ∧ (marks ++ rest).dropWhile (· == c) = rest := by
  have hpos : ∀ d ∈ marks, (d == c) = true := fun d hd => beq_iff_eq.mpr (hmarks d hd)
  rw [List.takeWhile_append_of_pos hpos, List.dropWhile_append_of_pos hpos]
  cases rest with
  | nil => simp
  | cons d rest =>
    have hd : d ≠ c := by simpa using hrest
    simp [hd]

def rows (t : Text) : List Text := t.splitOn '\n'.code

theorem join_rows (piece : Text) : join ['\n'.code] (rows piece) = piece :=
  List.intercalate_splitOn '\n'.code

theorem rows_ne_nil (piece : Text) : rows piece ≠ [] := List.splitOn_ne_nil '\n'.code piece

theorem rows_append (s t : Text) : rows (s ++ '\n'.code :: t) = rows s ++ rows t :=
  List.splitOn_append_cons_self s t

theorem rows_of_noLineFeed {t : Text} (h : '\n'.code ∉ t) : rows t = [t] :=
  List.splitOn_eq_singleton h

theorem rows_of_oneLine {t : Text} (h : OneLine t) : rows t = [t] := by
  apply rows_of_noLineFeed
  intro hmem
  exact absurd (h _ hmem) (by decide)

theorem infix_of_mem_rows {t line : Text} (h : line ∈ rows t) : line <:+: t := by
  have hjoin : line <:+: join ['\n'.code] (rows t) := infix_join h
  rwa [join_rows] at hjoin

theorem flatMap_rows_of_oneLine {buffer : List Text} (h : ∀ line ∈ buffer, OneLine line) :
    buffer.flatMap rows = buffer := by
  induction buffer with
  | nil => rfl
  | cons line rest ih =>
    rw [List.flatMap_cons, rows_of_oneLine (h line List.mem_cons_self),
      ih fun other ho => h other (List.mem_cons_of_mem line ho)]
    rfl

theorem oneLine_fence (t : Text) : OneLine (fence t) := by
  intro c hc
  rw [List.eq_of_mem_replicate hc]
  decide

theorem eq_backtick_of_mem_fence {code : Text} {c : CodePoint} (h : c ∈ fence code) :
    c = backtick :=
  List.eq_of_mem_replicate h

theorem noLineFeed_fence (code : Text) : '\n'.code ∉ fence code := by
  intro h
  exact absurd (eq_backtick_of_mem_fence h) (by decide)

theorem rows_codeBlock_eq {language : Text} (h : '\n'.code ∉ language) (code : Text) :
    rows (codeBlock language code) =
      (fence code ++ language) :: (rows (trimEnd code) ++ [fence code]) := by
  have hopen : '\n'.code ∉ fence code ++ language := by
    intro hmem
    rcases List.mem_append.mp hmem with hmem | hmem
    · exact noLineFeed_fence code hmem
    · exact h hmem
  have hblock : codeBlock language code =
      (fence code ++ language) ++ '\n'.code :: (trimEnd code ++ '\n'.code :: fence code) := by
    simp [codeBlock]
  rw [hblock, rows_append, rows_append, rows_of_noLineFeed hopen,
    rows_of_noLineFeed (noLineFeed_fence code)]
  rfl

def blockRows (language code : Text) : List Text :=
  [fence code ++ language, trimEnd code, fence code]

theorem oneLine_of_mem_blockRows {language code row : Text} (hl : OneLine language)
    (hc : OneLine code) (h : row ∈ blockRows language code) : OneLine row := by
  simp only [blockRows, List.mem_cons, List.not_mem_nil, or_false] at h
  rcases h with rfl | rfl | rfl
  · exact oneLine_append.mpr ⟨oneLine_fence code, hl⟩
  · exact hc.mono fun c => (trimEnd_isPrefix code).subset (a := c)
  · exact oneLine_fence code

theorem rows_codeBlock {language code : Text} (hl : OneLine language) (hc : OneLine code) :
    rows (codeBlock language code) = blockRows language code := by
  have hlanguage : '\n'.code ∉ language := fun hmem => absurd (hl _ hmem) (by decide)
  have hcode : OneLine (trimEnd code) := hc.mono fun c => (trimEnd_isPrefix code).subset (a := c)
  rw [rows_codeBlock_eq hlanguage, rows_of_oneLine hcode]
  rfl

def blockFence (code : Text) : Fence := ⟨backtick, (fence code).length⟩

theorem length_fence (code : Text) :
    (fence code).length = max 3 (longestRun backtick code + 1) := List.length_replicate

theorem head?_fence (code rest : Text) : (fence code ++ rest).head? = some backtick := by
  have hlong := length_fence code
  obtain ⟨c, marks, hfence⟩ := List.exists_cons_of_length_pos (l := fence code) (by omega)
  have hc : c = backtick := eq_backtick_of_mem_fence (hfence ▸ List.mem_cons_self)
  rw [hfence, List.cons_append, List.head?_cons, hc]

theorem unindented_fence (n : Nat) (code rest : Text) :
    unindented n (fence code ++ rest) = fence code ++ rest := by
  apply unindented_eq
  rw [head?_fence]
  decide

theorem opening?_fence {language : Text} (h : backtick ∉ language) (code : Text) :
    opening? (fence code ++ language) = some (blockFence code) := by
  have hlong : 3 ≤ (fence code).length := length_fence code ▸ Nat.le_max_left _ _
  have hmarks : ∀ c ∈ fence code, c = backtick := fun _ => eq_backtick_of_mem_fence
  obtain ⟨htake, hdrop⟩ := marks_of_append hmarks (mt List.mem_of_head? h)
  simp only [opening?, unindented_fence, head?_fence, Option.bind_some, htake, hdrop]
  rw [if_pos ⟨hlong, .inl ⟨trivial, h⟩⟩]
  rfl

theorem closedBy_fence (code : Text) : (blockFence code).closedBy (fence code) = true := by
  have hmarks : ∀ c ∈ fence code, c = backtick := fun _ => eq_backtick_of_mem_fence
  have hnone : ([] : Text).head? ≠ some backtick := by simp
  have hwhole := unindented_fence 3 code []
  obtain ⟨htake, hdrop⟩ := marks_of_append hmarks hnone
  rw [List.append_nil] at hwhole htake hdrop
  simp [Fence.closedBy, blockFence, hwhole, htake, hdrop]

theorem closedBy_of_infix {code line : Text} (h : line <:+: code) :
    (blockFence code).closedBy line = false := by
  by_contra hclosed
  rw [Bool.not_eq_false] at hclosed
  have hrun := le_longestRun ((Fence.infix_of_closedBy hclosed).trans h)
  have hlength := length_fence code
  change (fence code).length ≤ longestRun backtick code at hrun
  omega

/-- The lines of a block: a fence is opened, goes on behind the code, and is closed. -/
theorem fenceBehind_codeBlock {language : Text} (h : backtick ∉ language) (code : Text) :
    fenceBehind none (fence code ++ language) = some (blockFence code) ∧
      fenceBehind (some (blockFence code)) (trimEnd code) = some (blockFence code) ∧
      fenceBehind (some (blockFence code)) (fence code) = none := by
  refine ⟨opening?_fence h code, ?_, ?_⟩
  · rw [fenceBehind, closedBy_of_infix (trimEnd_isPrefix code).isInfix, if_neg Bool.false_ne_true]
  · rw [fenceBehind, closedBy_fence, if_pos rfl]

end ApiPages.Markdown
