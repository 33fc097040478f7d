import ApiPages.Proofs.Blank
import ApiPages.Proofs.Ready

/-!
The comment of a type as it is written. A page is its lines with a line feed behind each, less the
blanks at the end. The lines of a comment that is broken by line feeds alone, each with a line feed
behind it, are the comment again; so it stands on the page as it is, unless it comes last and loses
the blanks at its end.
-/
namespace ApiPages

namespace Text

def OnlyFeeds (t : Text) : Prop := ∀ c ∈ t, isLineBreak c = true → c = '\n'.code

instance (t : Text) : Decidable (OnlyFeeds t) := List.decidableBAll _ t

/-- The text with a line feed at its end, where it had none. -/
def ended (t : Text) : Text := if t.getLast?.all (· == '\n'.code) then t else t ++ ['\n'.code]

theorem onlyFeeds_cons {c : CodePoint} {t : Text} :
    OnlyFeeds (c :: t) ↔ (isLineBreak c = true → c = '\n'.code) ∧ OnlyFeeds t := by
  simp [OnlyFeeds]

theorem ended_cons {t : Text} (h : t ≠ []) (c : CodePoint) : ended (c :: t) = c :: ended t := by
  obtain ⟨d, rest, rfl⟩ := List.exists_cons_of_ne_nil h
  rw [ended, ended, List.getLast?_cons_cons]
  split <;> rfl

theorem ended_singleton {c : CodePoint} (h : c ≠ '\n'.code) : ended [c] = [c, '\n'.code] := by
  simp [ended, h]

theorem trimEnd_append_feed (t : Text) : trimEnd (t ++ ['\n'.code]) = trimEnd t := by
  have hfeed : trimEnd ['\n'.code] = [] := by decide
  rw [trimEnd_append, if_pos hfeed]

theorem trimEnd_ended (t : Text) : trimEnd (ended t) = trimEnd t := by
  rw [ended]
  split
  · rfl
  · exact trimEnd_append_feed t

end Text

open Text

namespace Lines

def terminated (buffer : Lines) : Text := buffer.flatMap (· ++ ['\n'.code])

@[simp] theorem terminated_nil : terminated [] = [] := rfl

@[simp] theorem terminated_cons (line : Text) (rest : Lines) :
    terminated (line :: rest) = line ++ '\n'.code :: terminated rest := by
  simp [terminated]

@[simp] theorem terminated_append (buffer more : Lines) :
    terminated (buffer ++ more) = terminated buffer ++ terminated more := List.flatMap_append

theorem terminated_eq_join {buffer : Lines} (h : buffer ≠ []) :
    terminated buffer = join ['\n'.code] buffer ++ ['\n'.code] := by
  induction buffer with
  | nil => exact absurd rfl h
  | cons line rest ih =>
    cases rest with
    | nil => simp
    | cons next rest =>
      rw [terminated_cons, ih (List.cons_ne_nil _ _), join_cons_cons]
      simp

theorem render_eq (buffer : Lines) : buffer.render = trimEnd buffer.terminated ++ ['\n'.code] := by
  by_cases h : buffer = []
  · rw [h]
    rfl
  · rw [render, terminated_eq_join h, trimEnd_append_feed]

theorem terminated_lines {t : Text} (h : t.OnlyFeeds) : terminated (Text.lines t) = t.ended := by
  fun_induction Text.lines t with
  | case1 => rfl
  | case2 rest ih =>
    exact absurd ((onlyFeeds_cons.mp h).1 (by decide)) (by decide)
  | case3 c rest hr hc ih =>
    obtain ⟨hfeed, hrest⟩ := onlyFeeds_cons.mp h
    rw [hfeed hc, terminated_cons, ih hrest, List.nil_append]
    by_cases hnil : rest = []
    · rw [hnil]
      rfl
    · rw [ended_cons hnil]
  | case4 c rest hr hc hnone ih =>
    have hne : c ≠ '\n'.code := by
      rintro rfl
      exact hc (by decide)
    rw [lines_eq_nil_iff.mp hnone, terminated_cons, terminated_nil, ended_singleton hne]
    rfl
  | case5 c rest hr hc line more hrest ih =>
    have hnil : rest ≠ [] := by
      rintro rfl
      cases hrest
    have hbelow := ih (onlyFeeds_cons.mp h).2
    rw [hrest, terminated_cons] at hbelow
    rw [ended_cons hnil, ← hbelow, terminated_cons, List.cons_append]

end Lines

namespace Page

/-- One line feed at the very end, and nothing else that is blank in front of it. -/
def EndsInOneFeed (text : Text) : Prop :=
  ∃ front c, text = front ++ [c, '\n'.code] ∧ isBlank c = false

/-- How the comment of a type stands in a text below the header. -/
structure StandsVerbatim (t : TypeEntry) (above text : Text) : Prop where
  above_summary : t.fields ≠ [] ∨ t.methods ≠ [] → ∃ below,
    text = above ++ "\n\n".text ++ t.comment.ended ++ "\n## Summary\n".text ++ below
  at_end : t.fields = [] → t.methods = [] → trimEnd t.comment ≠ [] →
    text = above ++ "\n\n".text ++ trimEnd t.comment ++ ['\n'.code]
  blank : t.fields = [] → t.methods = [] → trimEnd t.comment = [] →
    text = trimEnd above ++ ['\n'.code]

variable {style : PageStyle} {here : List Text} {t : TypeEntry} {top : Lines} {b : Body}

theorem header_begins_with_title (h : header style here t = .ok top) :
    ∃ line rest, top = ('#'.code :: line) :: rest := by
  obtain ⟨target, lineBreak, chain, -, -, -, rfl⟩ := header_eq_ok h
  exact ⟨_, _, rfl⟩

theorem header_without_comment (h : header style here t = .ok top) :
    ∃ head, header style here { t with comment := [] } = .ok head ∧
      top = head ++ commentLines t := by
  obtain ⟨target, lineBreak, chain, htarget, hbreak, hchain, rfl⟩ := header_eq_ok h
  refine ⟨headLines t target lineBreak chain, ?_, rfl⟩
  have hsame : ({ t with comment := [] } : TypeEntry).hierarchy style here = .ok chain := hchain
  rw [header, htarget, hbreak, hsame]
  exact congrArg Except.ok (List.append_nil _)

theorem memberLines_of_members (style : PageStyle) (h : t.fields ≠ [] ∨ t.methods ≠ []) :
    ∃ rest, memberLines style t = titleLines Heading.summary ++ rest := by
  have hany : (t.hasFields || t.hasMethods) = true := by
    simpa [TypeEntry.hasFields, TypeEntry.hasMethods] using h
  rw [memberLines, summaryLines, if_pos hany]
  simp only [List.append_assoc]
  exact ⟨_, rfl⟩

theorem memberLines_of_no_member (hf : t.fields = []) (hm : t.methods = []) :
    memberLines style t = [] := by
  simp [memberLines, summaryLines, fieldLines, methodLines, TypeEntry.hasFields,
    TypeEntry.hasMethods, hf, hm]

theorem endsInOneFeed_render (h : body style here t = .ok b) : EndsInOneFeed b.lines.render := by
  obtain ⟨top, htop, -, rfl⟩ := body_eq_ok_iff.mp h
  obtain ⟨line, rest, rfl⟩ := header_begins_with_title htop
  have hmark : isBlank '#'.code = false := by decide
  have hne :
      trimEnd (Lines.terminated (('#'.code :: line) :: rest ++ memberLines style t)) ≠ [] := by
    rw [List.cons_append, Lines.terminated_cons, List.cons_append, trimEnd_cons hmark]
    exact List.cons_ne_nil _ _
  obtain ⟨front, c, hfront, hc⟩ := exists_trimEnd_eq_concat hne
  exact ⟨front, c, by rw [Lines.render_eq, hfront, List.append_assoc]; rfl, hc⟩

theorem exists_trimEnd_feed (t : Text) :
    ∃ below, trimEnd ('\n'.code :: t) ++ ['\n'.code] = '\n'.code :: below := by
  have hfeed : isBlank '\n'.code = true := by decide
  rw [trimEnd_cons_of_isBlank hfeed]
  split
  · exact ⟨[], rfl⟩
  · exact ⟨trimEnd t ++ ['\n'.code], rfl⟩

/-- The title of the summary is not blank, so nothing above it is cut off. -/
theorem exists_render_eq_above_summary {buffer : Lines} {above more : Text}
    (h : buffer.terminated = above ++ "\n## Summary".text ++ '\n'.code :: more) :
    ∃ below, buffer.render = above ++ "\n## Summary\n".text ++ below := by
  have htitle : trimEnd "\n## Summary".text = "\n## Summary".text := by decide
  have hkept : trimEnd (above ++ "\n## Summary".text) = above ++ "\n## Summary".text := by
    rw [trimEnd_append, htitle, if_neg (by decide)]
  obtain ⟨below, hbelow⟩ := exists_trimEnd_feed more
  refine ⟨below, ?_⟩
  rw [Lines.render_eq, h, trimEnd_append_of_trimmed hkept, List.append_assoc, hbelow]
  simp

theorem terminated_commentLines (hne : t.comment ≠ []) (hfeeds : t.comment.OnlyFeeds) :
    (commentLines t).terminated = '\n'.code :: t.comment.ended := by
  have hempty : ¬t.comment.isEmpty = true := by simpa using hne
  rw [commentLines, if_neg hempty, Lines.terminated_cons, Lines.terminated_lines hfeeds,
    List.nil_append]

theorem standsVerbatim_render (hne : t.comment ≠ []) (hfeeds : t.comment.OnlyFeeds)
    (h : body style here t = .ok b) :
    ∃ head, header style here { t with comment := [] } = .ok head ∧
      StandsVerbatim t (join ['\n'.code] head) b.lines.render := by
  obtain ⟨top, htop, -, rfl⟩ := body_eq_ok_iff.mp h
  obtain ⟨head, hhead, rfl⟩ := header_without_comment htop
  refine ⟨head, hhead, ?_⟩
  have hnil : head ≠ [] := by
    obtain ⟨line, rest, rfl⟩ := header_begins_with_title hhead
    exact List.cons_ne_nil _ _
  have hheader : (head ++ commentLines t).terminated =
      join ['\n'.code] head ++ "\n\n".text ++ t.comment.ended := by
    rw [Lines.terminated_append, Lines.terminated_eq_join hnil, terminated_commentLines hne hfeeds]
    simp
  constructor
  · intro hmembers
    obtain ⟨rest, hrest⟩ := memberLines_of_members style hmembers
    have htitle : (titleLines Heading.summary).terminated =
        "\n## Summary".text ++ ['\n'.code, '\n'.code] := by decide
    apply exists_render_eq_above_summary
    rw [Lines.terminated_append, hheader, hrest, Lines.terminated_append, htitle]
    simp only [List.append_assoc, List.cons_append, List.nil_append]
    rfl
  · intro hf hm hshown
    rw [memberLines_of_no_member hf hm, List.append_nil, Lines.render_eq, hheader, trimEnd_append,
      trimEnd_ended, if_neg hshown]
  · intro hf hm hblank
    have hbreaks : trimEnd "\n\n".text = [] := by decide
    rw [memberLines_of_no_member hf hm, List.append_nil, Lines.render_eq, hheader, trimEnd_append,
      trimEnd_ended, if_pos hblank, trimEnd_append, if_pos hbreaks]

/-- The page of a type ends in one line feed, and the comment of the type stands on it as it is. -/
theorem comment_is_written_verbatim {directory : Path} {w u : World} {r : PageReport}
    (h : build style t directory w = .ok r u) :
    ∃ text, u.tree.readFile r.path = .ok (Utf8.encode text) ∧ EndsInOneFeed text ∧
      (t.comment ≠ [] → t.comment.OnlyFeeds →
        ∃ head, header style w.tree.workingDirectory { t with comment := [] } = .ok head ∧
          StandsVerbatim t (join ['\n'.code] head) text) := by
  obtain ⟨⟨extension, hextension, -⟩, -⟩ := (build_effect style t directory w).written r u h
  obtain ⟨hsettled, hreport, -⟩ := settled_of_build hextension h
  have hbody := hsettled.ready.laid_out
  refine ⟨textFrom style t w.tree.workingDirectory, ?_, endsInOneFeed_render hbody, ?_⟩
  · rw [hreport]
    exact FileTree.readFile_eq_ok_iff.mpr ⟨_, hsettled.ready.found, hsettled.written⟩
  · intro hne hfeeds
    exact standsVerbatim_render hne hfeeds hbody

namespace Sample

def commented (methods : List Method) : TypeEntry where
  name := "Shelf".text
  package := "app".text
  comment := "  Holds boxes.\n\n\tIn order.\n\n\n".text
  methods := methods

end Sample

theorem sample_comment_written :
    ∃ r u, build ({} : Context).style (Sample.commented [{ name := "put".text }])
        ⟨.none, ["out".text]⟩ ⟨.bare ["srv".text], []⟩ = .ok r u ∧
      ∃ text, u.tree.readFile r.path = .ok (Utf8.encode text) ∧ EndsInOneFeed text ∧
        ∃ head, header ({} : Context).style ["srv".text]
            { Sample.commented [{ name := "put".text }] with comment := [] } = .ok head ∧
          StandsVerbatim (Sample.commented [{ name := "put".text }]) (join ['\n'.code] head)
            text := by
  have hwritten : (Job.outcome? (build ({} : Context).style
      (Sample.commented [{ name := "put".text }]) ⟨.none, ["out".text]⟩)
      ⟨.bare ["srv".text], []⟩).isSome := by decide +kernel
  obtain ⟨r, hr⟩ := Option.isSome_iff_exists.mp hwritten
  obtain ⟨u, h⟩ := Job.outcome?_eq_some_iff.mp hr
  obtain ⟨text, hread, hends, hcomment⟩ := comment_is_written_verbatim h
  exact ⟨r, u, h, text, hread, hends, hcomment (by decide) (by decide)⟩

/-- Without a member the comment comes last. -/
example : (body ({} : Context).style [] (Sample.commented [])).toOption.map
      (fun b => b.lines.render) =
    some ("# Shelf\n\nPackage [app](README.md)<br>\n\n".text ++
      "  Holds boxes.\n\n\tIn order.\n".text) := by decide +kernel

end Page

end ApiPages
