import ApiPages.Proofs.TableRow
import ApiPages.Proofs.WrittenHeadings

/-!
What a reader finds on a page. Where the comment of the type closes its fences and nothing else on
the page brings a heading or a fence of its own, the headings are the name of the type, those of the
comment, and what the outline says of sections and methods.
-/
namespace ApiPages

open Text Markdown

theorem selfContained_nil : SelfContained [] := selfContained_of_oneLine oneLine_nil rfl

theorem selfContained_heading {level : Nat} {t : Text} (h : OneLine t) :
    SelfContained (Heading.line (level + 1) t) := by
  have hmarks : OneLine (List.replicate (level + 1) '#'.code) := by
    intro c hc
    rw [List.eq_of_mem_replicate hc]
    decide
  refine selfContained_of_oneLine ?_ (opening?_of_isHeading (isHeading_line level t))
  exact oneLine_append.mpr ⟨hmarks, oneLine_cons.mpr ⟨by decide, h⟩⟩

theorem selfContained_of_mem_lines {t piece : Text} (h : OneLine t) (hfence : opening? t = none)
    (hp : piece ∈ lines t) : SelfContained piece := by
  by_cases hnil : t = []
  · simp [hnil, lines] at hp
  · rw [lines_of_oneLine h hnil, List.mem_singleton] at hp
    exact hp ▸ selfContained_of_oneLine h hfence

theorem selfContained_barred {cells : List Text} (h : ∀ t ∈ cells, OneLine t) :
    SelfContained (barred cells) :=
  selfContained_of_oneLine (oneLine_barred h) (opening?_cons (by decide) (by decide) (by decide) _)

theorem selfContained_tableRow (cells : List Text) : SelfContained (tableRow cells) :=
  selfContained_of_oneLine (oneLine_tableRow cells)
    (opening?_cons (by decide) (by decide) (by decide) _)

theorem selfContained_of_mem_tableHead {columns : List Text}
    (h : ∀ column ∈ columns, OneLine column) {piece : Text} (hp : piece ∈ tableHead columns) :
    SelfContained piece := by
  rcases List.mem_pair.mp hp with rfl | rfl
  · exact selfContained_barred h
  · refine selfContained_barred ?_
    intro rule hrule
    obtain ⟨-, -, rfl⟩ := List.mem_map.mp hrule
    decide

structure PlainComment (comment : Text) : Prop where
  oneLine : OneLine comment
  heading : isHeading (trim comment) = false
  fence : opening? (trim comment) = none

instance (comment : Text) : Decidable (PlainComment comment) :=
  decidable_of_iff (OneLine comment ∧ isHeading (trim comment) = false ∧
    opening? (trim comment) = none)
    ⟨fun ⟨ho, hh, hf⟩ => ⟨ho, hh, hf⟩, fun ⟨ho, hh, hf⟩ => ⟨ho, hh, hf⟩⟩

structure PlainMethod (m : Method) : Prop where
  declaration : OneLine m.signature
  comment : PlainComment m.comment
  returnComment : PlainComment m.returnComment

instance (m : Method) : Decidable (PlainMethod m) :=
  decidable_of_iff (OneLine m.signature ∧ PlainComment m.comment ∧ PlainComment m.returnComment)
    ⟨fun ⟨hd, hc, hr⟩ => ⟨hd, hc, hr⟩, fun ⟨hd, hc, hr⟩ => ⟨hd, hc, hr⟩⟩

namespace Method

variable {m : Method} {piece : Text}

theorem oneLine_of_signature (h : OneLine m.signature) :
    OneLine m.name ∧ OneLine m.returnType ∧ ∀ t ∈ m.throws, OneLine t.type := by
  simp only [signature, oneLine_append, oneLine_cons] at h
  obtain ⟨⟨hwords, -⟩, -, hthrows⟩ := h
  have hword : ∀ word ∈ m.modifiers ++ [m.returnType, m.name], OneLine word :=
    fun _ hmem => hwords.mono fun _ hc => (infix_join hmem).subset hc
  refine ⟨hword _ (by simp), hword _ (by simp), ?_⟩
  intro t ht
  have hsome : ¬m.throws.isEmpty = true := by
    rw [List.isEmpty_iff]
    exact List.ne_nil_of_mem ht
  rw [if_neg hsome] at hthrows
  have hpiece : t.type <:+: join ", ".text (m.throws.map Thrown.type) :=
    infix_join (List.mem_map_of_mem ht)
  exact (oneLine_append.mp hthrows).2.mono fun _ hc => hpiece.subset hc

theorem selfContained_of_mem_paragraph {comment : Text} (h : PlainComment comment)
    (hp : piece ∈ paragraph comment) : SelfContained piece := by
  unfold paragraph at hp
  split at hp
  · exact absurd hp List.not_mem_nil
  · rcases List.mem_pair.mp hp with rfl | rfl
    · exact selfContained_of_oneLine (h.oneLine.mono fun c => mem_of_mem_trim) h.fence
    · exact selfContained_nil

theorem selfContained_of_mem_parameterLines (hp : piece ∈ m.parameterLines) :
    SelfContained piece := by
  have htitle : OneLine Heading.parameters := by decide +kernel
  have hcolumns : ∀ column ∈ parameterTitles, OneLine column := by decide +kernel
  unfold parameterLines at hp
  split at hp
  · exact absurd hp List.not_mem_nil
  · simp only [List.mem_append, List.mem_pair, List.mem_map, List.mem_singleton] at hp
    rcases hp with (((rfl | rfl) | hp) | ⟨p, -, rfl⟩) | rfl
    · exact selfContained_heading htitle
    · exact selfContained_nil
    · exact selfContained_of_mem_tableHead hcolumns hp
    · exact selfContained_tableRow _
    · exact selfContained_nil

theorem selfContained_of_mem_returnLines (h : PlainMethod m) (hp : piece ∈ m.returnLines) :
    SelfContained piece := by
  have htitle : OneLine Heading.returns := by decide +kernel
  have htype : SelfContained ("**Type:** ".text ++ code m.returnType) := by
    have hword : OneLine "**Type:** ".text := by decide +kernel
    refine selfContained_of_oneLine ?_ (opening?_cons (by decide) (by decide) (by decide) _)
    exact oneLine_append.mpr ⟨hword, oneLine_code (oneLine_of_signature h.declaration).2.1⟩
  unfold returnLines at hp
  split at hp
  · exact absurd hp List.not_mem_nil
  · simp only [List.mem_append, List.mem_cons, List.not_mem_nil, or_false] at hp
    rcases hp with (rfl | rfl | rfl | rfl) | hp
    · exact selfContained_heading htitle
    · exact selfContained_nil
    · exact htype
    · exact selfContained_nil
    · exact selfContained_of_mem_paragraph h.returnComment hp

theorem selfContained_thrownLine {t : Thrown} (h : OneLine t.type) :
    SelfContained (thrownLine t) := by
  have hdash : isBlank '-'.code = false := by decide
  have hline : OneLine ("- ".text ++ code t.type ++ ' '.code :: collapse t.comment) := by
    have hstart : OneLine "- ".text := by decide
    exact oneLine_append.mpr ⟨oneLine_append.mpr ⟨hstart, oneLine_code h⟩,
      oneLine_cons.mpr ⟨by decide, oneLine_collapse t.comment⟩⟩
  refine selfContained_of_oneLine ?_ ?_
  · exact hline.mono fun _ hc => (trimEnd_isPrefix _).subset hc
  · rw [thrownLine]
    change opening? (trimEnd ('-'.code :: _)) = none
    rw [trimEnd_cons hdash, opening?_cons (by decide) (by decide) (by decide)]

theorem selfContained_of_mem_thrownLines (h : PlainMethod m) (hp : piece ∈ m.thrownLines) :
    SelfContained piece := by
  have htitle : OneLine Heading.throws := by decide +kernel
  unfold thrownLines at hp
  split at hp
  · exact absurd hp List.not_mem_nil
  · simp only [List.mem_append, List.mem_pair, List.mem_map, List.mem_singleton] at hp
    rcases hp with ((rfl | rfl) | ⟨t, ht, rfl⟩) | rfl
    · exact selfContained_heading htitle
    · exact selfContained_nil
    · exact selfContained_thrownLine ((oneLine_of_signature h.declaration).2.2 t ht)
    · exact selfContained_nil

theorem selfContained_of_mem_blockLines (h : PlainMethod m) {language : Text}
    (hl : OneLine language) (hlanguage : backtick ∉ language) (hp : piece ∈ m.blockLines language) :
    SelfContained piece := by
  simp only [blockLines, List.mem_append, List.mem_cons, List.not_mem_nil, or_false] at hp
  rcases hp with ((((rfl | rfl | rfl | rfl) | hp) | hp) | hp) | hp
  · exact selfContained_heading (oneLine_of_signature h.declaration).1
  · exact selfContained_nil
  · exact selfContained_codeBlock hl hlanguage h.declaration
  · exact selfContained_nil
  · exact selfContained_of_mem_paragraph h.comment hp
  · exact selfContained_of_mem_parameterLines hp
  · exact selfContained_of_mem_returnLines h hp
  · exact selfContained_of_mem_thrownLines h hp

end Method

namespace Page

/-- Nothing but the comment of the type brings a heading or a fence on the page, and that comment
closes its fences. -/
structure PlainPage (style : PageStyle) (here : List Text) (t : TypeEntry) : Prop where
  header : PlainHeader style here t
  chain : ∀ chain, t.hierarchy style here = .ok chain → opening? chain = none
  comment : (lines t.comment).foldl fenceBehind none = none
  language : OneLine style.language ∧ backtick ∉ style.language
  methods : ∀ m ∈ t.methods, PlainMethod m

variable {style : PageStyle} {here : List Text} {t : TypeEntry} {piece : Text}

theorem selfContained_of_mem_titleLines {title : Text} (h : OneLine title)
    (hp : piece ∈ titleLines title) : SelfContained piece := by
  simp only [titleLines, List.mem_cons, List.not_mem_nil, or_false] at hp
  rcases hp with rfl | rfl | rfl
  · exact selfContained_nil
  · exact selfContained_heading h
  · exact selfContained_nil

theorem selfContained_of_mem_methodRows (hp : piece ∈ methodRows t) : SelfContained piece := by
  obtain ⟨v, -, rfl⟩ := List.mem_map.mp hp
  exact selfContained_tableRow _

theorem selfContained_of_mem_fieldRows {description : Field → Text}
    (hp : piece ∈ fieldRows description t) : SelfContained piece := by
  obtain ⟨f, -, rfl⟩ := List.mem_map.mp hp
  exact selfContained_tableRow _

theorem selfContained_of_mem_summaryLines (hp : piece ∈ summaryLines style t) :
    SelfContained piece := by
  have htitle : OneLine Heading.summary := by decide +kernel
  have hmethodColumns : ∀ column ∈ methodTitles, OneLine column := by decide +kernel
  have hfieldColumns : ∀ column ∈ fieldTitles, OneLine column := by decide +kernel
  unfold summaryLines at hp
  split at hp
  · rw [List.mem_append, List.mem_append] at hp
    rcases hp with (hp | hp) | hp
    · exact selfContained_of_mem_titleLines htitle hp
    · split at hp
      · rcases List.mem_append.mp hp with hp | hp
        · exact selfContained_of_mem_tableHead hmethodColumns hp
        · exact selfContained_of_mem_methodRows hp
      · exact absurd hp List.not_mem_nil
    · split at hp
      · rw [fieldSummaryLines, List.mem_append, List.mem_append] at hp
        rcases hp with (hp | hp) | hp
        · split at hp
          · exact List.mem_singleton.mp hp ▸ selfContained_nil
          · exact absurd hp List.not_mem_nil
        · exact selfContained_of_mem_tableHead hfieldColumns hp
        · exact selfContained_of_mem_fieldRows hp
      · exact absurd hp List.not_mem_nil
  · exact absurd hp List.not_mem_nil

theorem selfContained_of_mem_fieldLines (hp : piece ∈ fieldLines t) : SelfContained piece := by
  have htitle : OneLine Heading.fields := by decide +kernel
  have hcolumns : ∀ column ∈ fieldTitles, OneLine column := by decide +kernel
  unfold fieldLines at hp
  split at hp
  · rw [List.mem_append, List.mem_append] at hp
    rcases hp with (hp | hp) | hp
    · exact selfContained_of_mem_titleLines htitle hp
    · exact selfContained_of_mem_tableHead hcolumns hp
    · exact selfContained_of_mem_fieldRows hp
  · exact absurd hp List.not_mem_nil

theorem selfContained_of_mem_methodLines (h : PlainPage style here t)
    (hp : piece ∈ methodLines style t) : SelfContained piece := by
  have htitle : OneLine Heading.methods := by decide +kernel
  unfold methodLines at hp
  split at hp
  · rcases List.mem_append.mp hp with hp | hp
    · exact selfContained_of_mem_titleLines htitle hp
    · obtain ⟨v, hv, hp⟩ := List.mem_flatMap.mp hp
      exact Method.selfContained_of_mem_blockLines (h.methods _ (method_mem_of_mem_validViews hv))
        h.language.1 h.language.2 hp
  · exact absurd hp List.not_mem_nil

theorem selfContained_of_mem_memberLines (h : PlainPage style here t)
    (hp : piece ∈ memberLines style t) : SelfContained piece := by
  rw [memberLines, List.mem_append, List.mem_append] at hp
  rcases hp with (hp | hp) | hp
  · exact selfContained_of_mem_summaryLines hp
  · exact selfContained_of_mem_fieldLines hp
  · exact selfContained_of_mem_methodLines h hp

theorem selfContained_of_mem_headLines (h : PlainPage style here t) {target lineBreak chain : Text}
    (htarget : style.indexTarget = .ok target) (hbreak : style.lineBreak = .ok lineBreak)
    (hchain : t.hierarchy style here = .ok chain)
    (hp : piece ∈ headLines t target lineBreak chain) : SelfContained piece := by
  rw [headLines, List.mem_append, List.mem_append] at hp
  rcases hp with (hp | hp) | hp
  · rcases List.mem_pair.mp hp with rfl | rfl
    · exact selfContained_heading h.header.name
    · exact selfContained_nil
  · refine selfContained_of_mem_lines (h.header.packageLine htarget hbreak) ?_ hp
    exact opening?_cons (by decide) (by decide) (by decide) _
  · exact selfContained_of_mem_lines (h.header.hierarchy hchain).1 (h.chain chain hchain) hp

theorem oneLine_of_mem_commentLines {line : Text} (h : line ∈ commentLines t) : OneLine line := by
  unfold commentLines at h
  split at h
  · exact absurd h List.not_mem_nil
  · rcases List.mem_cons.mp h with rfl | h
    · exact oneLine_nil
    · exact oneLine_of_mem_lines h

theorem titlesFrom_commentLines (h : (lines t.comment).foldl fenceBehind none = none) :
    titlesFrom none (commentLines t) = titles t.comment ∧
      (commentLines t).foldl fenceBehind none = none := by
  unfold commentLines
  split
  · rename_i hempty
    rw [List.isEmpty_iff.mp hempty]
    exact ⟨rfl, rfl⟩
  · exact ⟨rfl, h⟩

theorem outline_levels {title : Title} (h : title ∈ (outline t).tail) :
    1 ≤ title.level ∧ title.level ≤ 6 := by
  rw [outline, List.cons_append, List.tail_cons, List.mem_append] at h
  rcases h with h | h
  · rw [level_of_mem_sectionTitles h]
    decide
  · obtain ⟨m, -, h⟩ := List.mem_flatMap.mp h
    rw [Method.outline, List.mem_cons] at h
    rcases h with rfl | h
    · simp
    · rw [m.level_of_mem_outline_tail h]
      decide

/-- The headings of a page in the order in which a reader finds them. -/
theorem titles_page (h : PlainPage style here t) {b : Body} (hb : body style here t = .ok b) :
    titles b.lines.render =
      ⟨1, trim t.name⟩ :: titles t.comment ++ (outline t).tail.map Title.trimmed := by
  obtain ⟨top, htop, -, rfl⟩ := body_eq_ok_iff.mp hb
  obtain ⟨target, lineBreak, chain, htarget, hbreak, hchain, rfl⟩ := header_eq_ok htop
  obtain ⟨hcomment, hclosed⟩ := titlesFrom_commentLines h.comment
  have hname : (headLines t target lineBreak chain).filter isHeading =
      [(⟨1, t.name⟩ : Title)].map Title.line := h.header.headLines htarget hbreak hchain
  have hmembers : (memberLines style t).filter isHeading = (outline t).tail.map Title.line := by
    refine filter_isHeading_memberLines ?_
    intro m hm
    exact ⟨(h.methods m hm).comment.heading, (h.methods m hm).returnComment.heading⟩
  rw [titles_render_around (fun _ hp => selfContained_of_mem_headLines h htarget hbreak hchain hp)
    (fun _ hp => selfContained_of_mem_memberLines h hp) (fun _ => oneLine_of_mem_commentLines)
    hclosed, hcomment, filterMap_title?_eq hname (by simp),
    filterMap_title?_eq hmembers fun _ => outline_levels]
  rfl

end Page

end ApiPages
