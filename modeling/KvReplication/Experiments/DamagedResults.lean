import KvReplication.Experiments.ResultsDoc

/-! # Rewriting a damaged results file

A file edited by hand may have lost one of a section's comments, or hold them twice or
out of order. Rewriting a section is then safe only where both of its comments are
found in order, with no other section between them, or where neither is there.
-/

namespace KvReplication.Experiments

open TextSearch

/-- A complete section of a marker: its opening comment and all up to the first closing one. -/
def CompleteSection (marker : Text) (part : Text) : Prop :=
  ∃ body, part = beginComment marker ++ body ++ endComment marker ∧
    ¬ endComment marker <:+: body

/-- What stands between `before` and `after` lies within a complete section of the marker. -/
def EnclosedIn (marker before part after : Text) : Prop :=
  ∃ left lead trail right, before = left ++ lead ∧ after = trail ++ right ∧
    CompleteSection marker (lead ++ part ++ trail)

/-- A complete section of another marker that no complete section of `marker` encloses. -/
def OutsideSection (text : Text) (marker : CommentName) (part : Text) : Prop :=
  ∃ other : CommentName, other ≠ marker ∧ CompleteSection other.name part ∧
    ∃ before after, text = before ++ part ++ after ∧ ¬ EnclosedIn marker.name before part after

/-- Rewriting a section twice does what rewriting it once does, and keeps every other one. -/
def RewritesSafely (text : Text) (marker : CommentName) : Prop :=
  ∀ content, FreeOfComments content →
    let once := replaceSection (some text) marker.name content
    let twice := replaceSection (some once) marker.name content
    twice = once ∧ ∀ part, OutsideSection text marker part → part <:+: once ∧ part <:+: twice

/-- The first comments of the marker stand in order, between `before` and `after`. -/
def InOrder (stored : Text) (marker : Text) (before after : Text) : Prop :=
  ∃ body, stored = before ++ beginComment marker ++ body ++ endComment marker ++ after ∧
    ¬ beginComment marker <:+: before ∧
    ¬ endComment marker <:+: before ++ beginComment marker ++ body

/-- The file holds none of the marker's comments, or the first two in order and every other
section in front of or behind both. -/
def SafeToRewrite (text : Text) (marker : CommentName) : Prop :=
  '\r' ∉ marker.name ∧
    ((¬ beginComment marker.name <:+: readText text ∧ ¬ endComment marker.name <:+: readText text ∧
        ∀ part, OutsideSection text marker part → part <:+: readText text) ∨
      ∃ before after, InOrder (readText text) marker.name before after ∧
        ∀ part, OutsideSection text marker part → part <:+: before ∨ part <:+: after)

section Reading

/-- Reading puts no comment together. -/
theorem prefix_of_prefix_translate {pattern text : Text} (hpattern : '\n' ∉ pattern)
    (hstarts : pattern <+: translate false text) : pattern <+: text := by
  induction text generalizing pattern with
  | nil => exact hstarts
  | cons symbol rest ih =>
      cases pattern with
      | nil => exact List.nil_prefix
      | cons head pattern =>
          rw [List.mem_cons, not_or] at hpattern
          rw [translate] at hstarts
          split at hstarts
          · exact absurd (List.cons_prefix_cons.mp hstarts).1.symm hpattern.1
          · rw [if_neg (by simp)] at hstarts
            obtain ⟨rfl, hrest⟩ := List.cons_prefix_cons.mp hstarts
            exact List.cons_prefix_cons.mpr ⟨rfl, ih hpattern.2 hrest⟩

theorem infix_of_infix_translate {head : Char} {pattern text : Text}
    (hpattern : '\n' ∉ head :: pattern) {afterReturn : Bool}
    (hinside : head :: pattern <:+: translate afterReturn text) : head :: pattern <:+: text := by
  induction text generalizing afterReturn with
  | nil => exact hinside
  | cons symbol rest ih =>
      rw [translate] at hinside
      split at hinside
      · rcases List.infix_cons_iff.mp hinside with hstarts | hlater
        · obtain ⟨heq, -⟩ := List.cons_prefix_cons.mp hstarts
          exact absurd (heq ▸ List.mem_cons_self) hpattern
        · exact List.infix_cons (ih hlater)
      · split at hinside
        · exact List.infix_cons (ih hinside)
        · rcases List.infix_cons_iff.mp hinside with hstarts | hlater
          · obtain ⟨rfl, hrest⟩ := List.cons_prefix_cons.mp hstarts
            have hinside := prefix_of_prefix_translate
              (fun hmem => hpattern (List.mem_cons_of_mem _ hmem)) hrest
            exact (List.cons_prefix_cons.mpr ⟨rfl, hinside⟩).isInfix
          · exact List.infix_cons (ih hlater)

theorem FreeOfComments.translate {content : Text} (hfree : FreeOfComments content)
    (afterReturn : Bool) : FreeOfComments (translate afterReturn content) :=
  ⟨fun hinside => hfree.1 (infix_of_infix_translate (by decide) hinside),
    fun hinside => hfree.2 (infix_of_infix_translate (by decide) hinside)⟩

/-- A line is read up to its line end, unless a carriage return stands right before it. -/
theorem translate_line {line : Text} (rest : Text) (hlast : ∀ lead, line ≠ lead ++ ['\r'])
    {afterReturn : Bool} (hempty : line = [] → afterReturn = false) :
    translate afterReturn (line ++ '\n' :: rest) =
      translate afterReturn line ++ '\n' :: translate false rest := by
  induction line generalizing afterReturn with
  | nil =>
      rw [hempty rfl]
      rfl
  | cons symbol line ih =>
      have hlater : ∀ lead, line ≠ lead ++ ['\r'] := fun lead heq =>
        hlast (symbol :: lead) (by rw [heq]; rfl)
      rw [List.cons_append, translate, translate]
      split
      · next hsymbol =>
          have hline : line = [] → (true : Bool) = false := fun hnil =>
            absurd (by rw [hnil, hsymbol]; rfl) (hlast [])
          rw [ih hlater hline, List.cons_append]
      · split
        · rw [ih hlater fun _ => rfl]
        · rw [ih hlater fun _ => rfl, List.cons_append]

/-- A stripped content does not end in a carriage return. -/
theorem strip_ne_concat_return (content lead : Text) : strip content ≠ lead ++ ['\r'] := by
  intro heq
  have hne : (content.dropWhile isSpace).rdropWhile isSpace ≠ [] := by
    rw [show (content.dropWhile isSpace).rdropWhile isSpace = strip content from rfl, heq]
    simp
  have hlast := List.rdropWhile_last_not isSpace _ hne
  refine hlast ?_
  have hreturn : (strip content).getLast hne = '\r' := by
    simp only [heq, List.getLast_append_singleton]
  exact hreturn ▸ rfl

/-- How a section just written is read again. -/
theorem readText_section {marker before content : Text} (hbefore : '\r' ∉ before)
    (hmarker : '\r' ∉ marker) (after : Text) (hafter : '\r' ∉ after) :
    readText (before ++ sectionText marker content ++ after) =
      before ++ comment .opening marker ++
        '\n' :: (translate false (strip content) ++ ['\n']) ++ comment .closing marker ++
          after := by
  have hcomment : ∀ kind : CommentKind, '\r' ∉ comment kind marker := by
    intro kind
    have hword : '\r' ∉ kind.word := by cases kind <;> decide
    simp only [comment, List.mem_cons, List.mem_append, not_or]
    exact ⟨by decide, ⟨hword, hmarker⟩, by decide⟩
  have hlead : '\r' ∉ before ++ comment .opening marker ++ ['\n'] := by
    simp only [List.mem_append, not_or]
    exact ⟨⟨hbefore, hcomment .opening⟩, by decide⟩
  have htrail : '\r' ∉ comment .closing marker ++ after := by
    rw [List.mem_append, not_or]
    exact ⟨hcomment .closing, hafter⟩
  have hwritten : before ++ sectionText marker content ++ after =
      (before ++ comment .opening marker ++ ['\n']) ++
        (strip content ++ '\n' :: (comment .closing marker ++ after)) := by
    rw [sectionText_eq]
    simp
  rw [hwritten, readText_append hlead, readText,
    translate_line _ (strip_ne_concat_return content) fun _ => rfl]
  change _ ++ (_ ++ '\n' :: readText _) = _
  rw [readText_of_not_mem htrail]
  simp

end Reading

section Appending

/-- What stands in front of a section that was put at the end. -/
def appendLead (text : Text) : Text :=
  if strip text ≠ [] then rstripNewlines text ++ ['\n', '\n'] else []

theorem appendSection_eq (text newSection : Text) :
    appendSection text newSection = appendLead text ++ newSection ++ ['\n'] := by
  unfold appendSection appendLead
  split
  · rfl
  · rfl

theorem rstripNewlines_spec (text : Text) :
    ∃ pad, text = rstripNewlines text ++ pad ∧ ∀ symbol ∈ pad, symbol = '\n' := by
  refine ⟨text.rtakeWhile (· = '\n'), (List.rdropWhile_append_rtakeWhile ..).symm, ?_⟩
  intro symbol hsymbol
  simpa using List.mem_rtakeWhile_imp hsymbol

/-- What ends in a bracket is not touched by stripping line feeds. -/
theorem infix_rstripNewlines {body text : Text} (hinside : body ++ ['>'] <:+: text) :
    body ++ ['>'] <:+: rstripNewlines text := by
  obtain ⟨pad, htext, hpad⟩ := rstripNewlines_spec text
  rw [htext] at hinside
  exact infix_of_infix_append_right (fun hmem => absurd (hpad _ hmem) (by decide)) hinside

theorem infix_of_infix_appendLead {body text : Text}
    (hinside : body ++ ['>'] <:+: appendLead text) : body ++ ['>'] <:+: text := by
  unfold appendLead at hinside
  split at hinside
  · obtain ⟨pad, htext, -⟩ := rstripNewlines_spec text
    have hstripped := infix_of_infix_append_right (by decide) hinside
    exact hstripped.trans ⟨[], pad, htext.symm⟩
  · simp [List.infix_nil] at hinside

theorem strip_ne_nil_of_contains {body text : Text} (hinside : body ++ ['>'] <:+: text) :
    strip text ≠ [] := by
  have hmem : '>' ∈ text := hinside.subset (by simp)
  exact strip_ne_nil hmem (by decide)

theorem appendLead_of_contains {body text : Text} (hinside : body ++ ['>'] <:+: text) :
    appendLead text = rstripNewlines text ++ ['\n', '\n'] :=
  if_pos (strip_ne_nil_of_contains hinside)

theorem return_not_mem_appendLead {text : Text} (hreturn : '\r' ∉ text) :
    '\r' ∉ appendLead text := by
  unfold appendLead
  split
  · obtain ⟨pad, htext, -⟩ := rstripNewlines_spec text
    have hstripped : '\r' ∉ rstripNewlines text := fun hmem =>
      hreturn (htext ▸ List.mem_append_left _ hmem)
    rw [List.mem_append, not_or]
    exact ⟨hstripped, by decide⟩
  · simp

/-- Appending to a text that already goes on makes it longer. -/
theorem appendSection_ne {lead rest newSection : Text} :
    appendSection (lead ++ '<' :: rest) newSection ≠ lead ++ newSection ++ ['\n'] := by
  have hblank : strip (lead ++ '<' :: rest) ≠ [] := by
    have hmem : '<' ∈ lead ++ '<' :: rest := by simp
    exact strip_ne_nil hmem (by decide)
  obtain ⟨pad, htext, hpad⟩ := rstripNewlines_spec (lead ++ '<' :: rest)
  -- the bracket behind `lead` is not stripped
  have hlength : lead.length ≤ (rstripNewlines (lead ++ '<' :: rest)).length := by
    by_contra hshort
    have hdrop := congrArg (List.drop lead.length) htext
    rw [List.drop_left, List.drop_append, List.drop_eq_nil_of_le (by omega), List.nil_append]
      at hdrop
    have hmem : '<' ∈ pad := List.mem_of_mem_drop (hdrop ▸ List.mem_cons_self)
    exact absurd (hpad _ hmem) (by decide)
  intro heq
  have hsame := congrArg List.length heq
  rw [appendSection, if_pos hblank] at hsame
  simp only [List.length_append, List.length_cons, List.length_nil] at hsame
  omega

end Appending

section Sections

variable {marker : CommentName}

theorem comment_concat (kind : CommentKind) (name : Text) :
    comment kind name = ('<' :: (kind.word ++ name ++ [' ', '-', '-'])) ++ ['>'] := by
  simp [comment]

/-- A complete section runs from a bracket to a bracket. -/
theorem CompleteSection.concat {name part : Text} (hpart : CompleteSection name part) :
    ∃ body, part = body ++ ['>'] := by
  obtain ⟨body, rfl, -⟩ := hpart
  rw [endComment_eq, comment_concat, ← List.append_assoc]
  exact ⟨_, rfl⟩

/-- A section written once is written again in its place. -/
theorem replaceSection_stable {before after content : Text} (hreturn : '\r' ∉ marker.name)
    (hbefore : '\r' ∉ before) (hafter : '\r' ∉ after)
    (hbegin : ¬ comment .opening marker.name <:+: before)
    (hend : ¬ comment .closing marker.name <:+: before) (hfree : FreeOfComments content) :
    replaceSection (some (before ++ sectionText marker.name content ++ after)) marker.name
      content = before ++ sectionText marker.name content ++ after := by
  have hinner := (hfree.of_contains (infix_strip content)).translate false
  exact replaceSection_between marker.no_bracket
    (readText_section hbefore hreturn after hafter) hbegin
    (not_infix_closing marker.no_bracket hend hinner)

/-- No other section reaches into a section whose content is long enough. -/
theorem infix_sides {other : CommentName} {part before after content : Text}
    (hpart : CompleteSection other.name part) (hlength : part.length ≤ (strip content).length)
    (hcontent : '<' ∉ strip content)
    (hinside : part <:+: before ++ sectionText marker.name content ++ after) :
    part <:+: before ∨ part <:+: after := by
  obtain ⟨body, hbody, -⟩ := hpart
  have hwritten : before ++ sectionText marker.name content ++ after =
      (before ++ comment .opening marker.name ++ ['\n']) ++ strip content ++
        (['\n'] ++ comment .closing marker.name ++ after) := by
    rw [sectionText_eq]
    simp
  rw [hwritten] at hinside
  rcases infix_of_wide_middle hlength hinside with hleft | hright
  · -- the last bracket of the part is not the one of the opening comment
    have hends : part = (beginComment other.name ++ body) ++
        '<' :: (CommentKind.closing.word ++ other.name ++ [' ', '-', '-', '>']) := hbody
    have hline : (before ++ comment .opening marker.name ++ ['\n']) ++ strip content =
        before ++ '<' :: ((CommentKind.opening.word ++ marker.name ++ [' ', '-', '-', '>']) ++
          ['\n'] ++ strip content) := by
      simp [comment]
    have hafter' : '<' ∉ (CommentKind.opening.word ++ marker.name ++ [' ', '-', '-', '>']) ++
        ['\n'] ++ strip content := by
      rw [List.mem_append, List.mem_append, not_or, not_or]
      exact ⟨⟨not_mem_tail .opening marker.no_bracket, by decide⟩, hcontent⟩
    rw [hends, hline] at hleft
    rcases infix_append_cons_of_ends (not_mem_tail .closing other.no_bracket) hafter' hleft with
      hinside | hstarts
    · exact Or.inl (hends ▸ hinside)
    · rw [List.append_assoc _ other.name, List.append_assoc _ ['\n'],
        List.append_assoc _ [' ', '-', '-', '>'], List.append_assoc _ marker.name] at hstarts
      cases kind_eq_of_prefix hstarts
  · have hstarts : part = '<' :: (CommentKind.opening.word ++
        (other.name ++ [' ', '-', '-', '>'] ++ body ++ endComment other.name)) := by
      rw [hbody, beginComment_eq]
      simp [comment]
    have hskip : '<' ∉ strip content ++ ['\n'] := by
      rw [List.mem_append, not_or]
      exact ⟨hcontent, by decide⟩
    have hline : strip content ++ (['\n'] ++ comment .closing marker.name ++ after) =
        (strip content ++ ['\n']) ++ '<' :: (CommentKind.closing.word ++
          (marker.name ++ [' ', '-', '-', '>'] ++ after)) := by
      simp [comment]
    rw [hstarts, hline] at hright
    rcases List.infix_cons_iff.mp (infix_of_infix_append hskip hright) with hstarts | hinside
    · cases kind_eq_of_prefix hstarts
    · have htail := not_mem_tail .closing marker.no_bracket
      rw [← List.append_assoc, ← List.append_assoc] at hinside
      exact Or.inr (hstarts ▸ infix_of_infix_append htail hinside)

end Sections

section Idempotence

variable {marker : CommentName} {text : Text}

/-- The comments are found in order exactly when the text can be split at them. -/
theorem exists_inOrder_iff {stored : Text} :
    (∃ before after, InOrder stored marker.name before after) ↔
      ∃ start stop, find (beginComment marker.name) stored = some start ∧
        find (endComment marker.name) stored = some stop ∧ start < stop := by
  constructor
  · rintro ⟨before, after, body, rfl, hbegin, hend⟩
    refine ⟨before.length, (before ++ beginComment marker.name ++ body).length, ?_,
      find_append (not_mem_tail .closing marker.no_bracket) hend after, ?_⟩
    · rw [List.append_assoc _ (endComment marker.name), List.append_assoc _ body]
      exact find_append (not_mem_tail .opening marker.no_bracket) hbegin _
    · simp only [beginComment_eq, comment, List.length_append, List.length_cons]
      omega
  · rintro ⟨start, stop, hstart, hstop, horder⟩
    obtain ⟨before, body, after, hsplit, hbegin, hend⟩ := exists_split_of_find_lt
      (not_mem_tail .opening marker.no_bracket) (not_mem_tail .closing marker.no_bracket)
      hstart hstop horder
    exact ⟨before, after, body, hsplit, hbegin, hend⟩

/-- Where the comments stay out of order every call appends one more section. -/
theorem appended_again {content : Text}
    (hfirst : replaceSection (some text) marker.name content =
      appendSection (readText text) (sectionText marker.name content))
    (hagain : ¬ ∃ before after,
      InOrder (readText (replaceSection (some text) marker.name content)) marker.name
        before after) :
    replaceSection (some (replaceSection (some text) marker.name content)) marker.name content ≠
      replaceSection (some text) marker.name content := by
  have hlead : '\r' ∉ appendLead (readText text) ++ ['<'] := by
    rw [List.mem_append, not_or]
    exact ⟨return_not_mem_appendLead (return_not_mem_readText text), by decide⟩
  obtain ⟨rest, hrest⟩ : ∃ rest, sectionText marker.name content = '<' :: rest := by
    rw [sectionText_eq]
    exact ⟨_, rfl⟩
  have hread : readText (replaceSection (some text) marker.name content) =
      appendLead (readText text) ++ '<' :: readText (rest ++ ['\n']) := by
    have hwritten : appendLead (readText text) ++ '<' :: rest ++ ['\n'] =
        (appendLead (readText text) ++ ['<']) ++ (rest ++ ['\n']) := by
      simp
    rw [hfirst, appendSection_eq, hrest, hwritten, readText_append hlead]
    simp
  have hsecond : replaceSection (some (replaceSection (some text) marker.name content))
      marker.name content =
        appendSection (readText (replaceSection (some text) marker.name content))
          (sectionText marker.name content) :=
    replaceSection_appended fun hfound => hagain (exists_inOrder_iff.mpr hfound)
  rw [hsecond, hread, hfirst, appendSection_eq (readText text)]
  exact appendSection_ne

/-- A comment that the text held is found at the same place once a section was appended. -/
theorem find_comment_appended (kind : CommentKind) {stored : Text}
    (hinside : comment kind marker.name <:+: stored) :
    ∃ place, place + (comment kind marker.name).length ≤ (rstripNewlines stored).length ∧
      find (comment kind marker.name) stored = some place ∧
      ∀ after, find (comment kind marker.name) (appendLead stored ++ after) = some place := by
  rw [comment_concat] at hinside
  have hstripped := infix_rstripNewlines hinside
  rw [← comment_concat] at hstripped
  obtain ⟨place, hplace, hfind⟩ :=
    exists_find_append (not_mem_tail kind marker.no_bracket) hstripped
  obtain ⟨pad, hpad, -⟩ := rstripNewlines_spec stored
  refine ⟨place, hplace, ?_, fun after => ?_⟩
  · have hwhole := hfind pad
    rwa [← hpad] at hwhole
  · rw [appendLead_of_contains hinside, List.append_assoc]
    exact hfind _

theorem not_infix_appendLead {kind : CommentKind} {stored : Text}
    (hnot : ¬ comment kind marker.name <:+: stored) :
    ¬ comment kind marker.name <:+: appendLead stored := by
  intro hinside
  rw [comment_concat] at hinside hnot
  exact hnot (infix_of_infix_appendLead hinside)

/-- A text that was read holds no carriage return, nor do its parts. -/
theorem InOrder.return_not_mem {stored before after : Text} (hstored : '\r' ∉ stored)
    (horder : InOrder stored marker.name before after) :
    '\r' ∉ marker.name ∧ '\r' ∉ before ∧ '\r' ∉ after := by
  obtain ⟨body, rfl, -⟩ := horder
  simp only [beginComment_eq, endComment_eq, comment, List.mem_append, List.mem_cons,
    not_or] at hstored
  exact ⟨hstored.1.1.1.2.2.1.2, hstored.1.1.1.1, hstored.2⟩

/-- Where the text held the closing comment, the first comments after a section was appended
are those of the text. -/
theorem inOrder_of_closing {stored written : Text}
    (hread : ∃ rest, written = appendLead stored ++ comment .opening marker.name ++ rest)
    (hclosing : comment .closing marker.name <:+: stored)
    (hagain : ∃ before after, InOrder written marker.name before after) :
    ∃ before after, InOrder stored marker.name before after := by
  obtain ⟨rest, hread⟩ := hread
  obtain ⟨start, stop, hstart, hstop, horder⟩ := exists_inOrder_iff.mp hagain
  obtain ⟨place, hplace, hfound, hlater⟩ := find_comment_appended .closing hclosing
  rw [hread, endComment_eq, List.append_assoc, hlater] at hstop
  obtain rfl := Option.some.inj hstop
  rw [hread, beginComment_eq] at hstart
  by_cases hopening : comment .opening marker.name <:+: stored
  · obtain ⟨first, -, hfirst, hkept⟩ := find_comment_appended .opening hopening
    rw [List.append_assoc, hkept] at hstart
    obtain rfl := Option.some.inj hstart
    exact exists_inOrder_iff.mpr ⟨first, place, hfirst, hfound, horder⟩
  · -- the only opening comment is the appended one, behind the closing one
    have happended := find_append (not_mem_tail .opening marker.no_bracket)
      (not_infix_appendLead hopening) rest
    obtain rfl := Option.some.inj (happended.symm.trans hstart)
    rw [comment_concat] at hclosing
    rw [appendLead_of_contains hclosing, List.length_append] at horder
    omega

/-- A text with the opening comment only loses what stands behind it in the second call. -/
theorem not_opening_of_idempotent {content : Text} (hfree : FreeOfComments content)
    (hfirst : replaceSection (some text) marker.name content =
      appendSection (readText text) (sectionText marker.name content))
    (hread : readText (replaceSection (some text) marker.name content) =
      appendLead (readText text) ++ comment .opening marker.name ++
        '\n' :: (translate false (strip content) ++ ['\n']) ++ comment .closing marker.name ++
          ['\n'])
    (hclosing : ¬ comment .closing marker.name <:+: readText text)
    (hsame : replaceSection (some (replaceSection (some text) marker.name content)) marker.name
      content = replaceSection (some text) marker.name content) :
    ¬ comment .opening marker.name <:+: readText text := by
  intro hopening
  have hnone := not_infix_closing marker.no_bracket (not_infix_appendLead hclosing)
    ((hfree.of_contains (infix_strip content)).translate false)
  have hlead : appendLead (readText text) = rstripNewlines (readText text) ++ ['\n', '\n'] := by
    rw [comment_concat] at hopening
    exact appendLead_of_contains hopening
  have hstripped : comment .opening marker.name <:+: rstripNewlines (readText text) := by
    rw [comment_concat] at hopening ⊢
    exact infix_rstripNewlines hopening
  obtain ⟨place, -, hfind⟩ := exists_find_append (not_mem_tail .opening marker.no_bracket) hstripped
  obtain ⟨before, rest, hsplit, hbegin, -⟩ :=
    (find_eq_some_iff (not_mem_tail .opening marker.no_bracket)).mp (hfind [])
  rw [List.append_nil] at hsplit
  have hbody : appendLead (readText text) ++ comment .opening marker.name ++
      '\n' :: (translate false (strip content) ++ ['\n']) =
      before ++ comment .opening marker.name ++ (rest ++ ['\n', '\n'] ++
        comment .opening marker.name ++ '\n' :: (translate false (strip content) ++ ['\n'])) := by
    rw [hlead, hsplit]
    simp [comment]
  rw [hbody] at hread hnone
  have hsecond : replaceSection (some (replaceSection (some text) marker.name content))
      marker.name content = before ++ sectionText marker.name content ++ ['\n'] :=
    replaceSection_between marker.no_bracket hread hbegin hnone
  rw [hsame, hfirst, appendSection_eq, hlead, hsplit] at hsecond
  have hlengths := congrArg List.length hsecond
  simp only [List.length_append, List.length_cons, List.length_nil] at hlengths
  omega

/-- Only where neither comment is there, or both are in order, is a section written twice
the section written once. -/
theorem structure_of_idempotent {content : Text} (hfree : FreeOfComments content)
    (hsame : replaceSection (some (replaceSection (some text) marker.name content)) marker.name
      content = replaceSection (some text) marker.name content) :
    '\r' ∉ marker.name ∧
      ((¬ beginComment marker.name <:+: readText text ∧
          ¬ endComment marker.name <:+: readText text) ∨
        ∃ before after, InOrder (readText text) marker.name before after) := by
  have hstored : '\r' ∉ readText text := return_not_mem_readText text
  by_cases horder : ∃ before after, InOrder (readText text) marker.name before after
  · obtain ⟨before, after, hsplit⟩ := horder
    exact ⟨(hsplit.return_not_mem hstored).1, Or.inr ⟨before, after, hsplit⟩⟩
  · have hfirst : replaceSection (some text) marker.name content =
        appendSection (readText text) (sectionText marker.name content) :=
      replaceSection_appended fun hfound => horder (exists_inOrder_iff.mpr hfound)
    -- the second call finds the comments in order, or it appends once more
    have hagain : ∃ before after,
        InOrder (readText (replaceSection (some text) marker.name content)) marker.name
          before after := by
      by_contra hnever
      exact appended_again hfirst hnever hsame
    have hreturn : '\r' ∉ marker.name := by
      obtain ⟨before, after, hsplit⟩ := hagain
      exact (hsplit.return_not_mem (return_not_mem_readText _)).1
    refine ⟨hreturn, Or.inl ?_⟩
    have hread : readText (replaceSection (some text) marker.name content) =
        appendLead (readText text) ++ comment .opening marker.name ++
          '\n' :: (translate false (strip content) ++ ['\n']) ++ comment .closing marker.name ++
            ['\n'] := by
      rw [hfirst, appendSection_eq]
      exact readText_section (return_not_mem_appendLead hstored) hreturn ['\n'] (by decide)
    have hclosing : ¬ comment .closing marker.name <:+: readText text :=
      fun hinside => horder (inOrder_of_closing ⟨_, by rw [hread, List.append_assoc,
        List.append_assoc]⟩ hinside hagain)
    exact ⟨not_opening_of_idempotent hfree hfirst hread hclosing hsame, hclosing⟩

end Idempotence

section Damage

variable {marker : CommentName} {text : Text}

/-- A file without the marker's comments is rewritten behind all that it holds. -/
theorem replaceSection_of_absent (content : Text)
    (hbegin : ¬ beginComment marker.name <:+: readText text) :
    replaceSection (some text) marker.name content =
      appendLead (readText text) ++ sectionText marker.name content ++ ['\n'] := by
  rw [← appendSection_eq]
  refine replaceSection_appended ?_
  rintro ⟨start, stop, hstart, -⟩
  rw [Option.map_some, Option.getD_some, find_eq_none_iff.mpr hbegin] at hstart
  cases hstart

theorem replaceSection_of_inOrder (content : Text) {before after : Text}
    (horder : InOrder (readText text) marker.name before after) :
    replaceSection (some text) marker.name content =
      before ++ sectionText marker.name content ++ after := by
  obtain ⟨body, hsplit, hbegin, hend⟩ := horder
  exact replaceSection_between marker.no_bracket hsplit hbegin hend

theorem rewritesSafely_of_safeToRewrite (hsafe : SafeToRewrite text marker) :
    RewritesSafely text marker := by
  obtain ⟨hreturn, hcases⟩ := hsafe
  intro content hfree
  have hstored := return_not_mem_readText text
  rcases hcases with ⟨hbegin, hend, hparts⟩ | ⟨before, after, horder, hparts⟩
  · have hstable : replaceSection
        (some (appendLead (readText text) ++ sectionText marker.name content ++ ['\n'])) marker.name
        content = appendLead (readText text) ++ sectionText marker.name content ++ ['\n'] :=
      replaceSection_stable hreturn (return_not_mem_appendLead hstored) (by decide)
        (not_infix_appendLead hbegin) (not_infix_appendLead hend) hfree
    dsimp only
    rw [replaceSection_of_absent content hbegin, hstable]
    refine ⟨rfl, fun part hpart => ?_⟩
    have hinside : part <:+: appendLead (readText text) := by
      have hkept := hparts part hpart
      obtain ⟨other, -, hcomplete, -⟩ := hpart
      obtain ⟨body, rfl⟩ := hcomplete.concat
      rw [appendLead_of_contains hkept]
      exact (infix_rstripNewlines hkept).trans (List.prefix_append _ _).isInfix
    have hwritten : part <:+: appendLead (readText text) ++ sectionText marker.name content ++
        ['\n'] :=
      hinside.trans ⟨[], sectionText marker.name content ++ ['\n'], by simp⟩
    exact ⟨hwritten, hwritten⟩
  · obtain ⟨-, hbefore, hafter⟩ := horder.return_not_mem hstored
    have hstable : replaceSection (some (before ++ sectionText marker.name content ++ after))
        marker.name content = before ++ sectionText marker.name content ++ after := by
      obtain ⟨body, -, hbegin, hend⟩ := horder
      refine replaceSection_stable hreturn hbefore hafter hbegin (fun hinside => hend ?_) hfree
      exact hinside.trans ⟨[], beginComment marker.name ++ body, by simp⟩
    dsimp only
    rw [replaceSection_of_inOrder content horder, hstable]
    refine ⟨rfl, fun part hpart => ?_⟩
    have hwritten : part <:+: before ++ sectionText marker.name content ++ after := by
      rcases hparts part hpart with hfront | hbehind
      · exact hfront.trans ⟨[], sectionText marker.name content ++ after, by simp⟩
      · exact hbehind.trans (List.suffix_append _ _).isInfix
    exact ⟨hwritten, hwritten⟩

/-- Nothing is enclosed in a section whose closing comment is missing. -/
theorem not_enclosedIn {name before part after : Text}
    (hend : ¬ endComment name <:+: before ++ part ++ after) :
    ¬ EnclosedIn name before part after := by
  rintro ⟨left, lead, trail, right, rfl, rfl, body, hbody, -⟩
  refine hend ⟨left ++ (beginComment name ++ body), right, ?_⟩
  have hwhole := congrArg (fun enclosed => left ++ enclosed ++ right) hbody
  simpa using hwhole.symm

/-- A content no section fits into. -/
def filler (part : Text) : Text := List.replicate (part.length + 1) 'x'

theorem strip_filler (part : Text) : strip (filler part) = filler part := by
  have hletters : ∀ symbol ∈ filler part, isSpace symbol = false := by
    intro symbol hsymbol
    rw [List.eq_of_mem_replicate hsymbol]
    decide
  have hlead : (filler part).dropWhile isSpace = filler part :=
    List.dropWhile_eq_self_iff.mpr fun hlength => by
      simpa using hletters _ (List.getElem_mem hlength)
  rw [strip, hlead]
  exact List.rdropWhile_eq_self_iff.mpr fun hne => by
    simpa using hletters _ (List.getLast_mem hne)

theorem bracket_not_mem_filler (part : Text) : '<' ∉ filler part := by
  intro hmem
  exact absurd (List.eq_of_mem_replicate hmem) (by decide)

theorem freeOfComments_filler (part : Text) : FreeOfComments (filler part) :=
  ⟨fun hinside => bracket_not_mem_filler part (hinside.subset (by decide)),
    fun hinside => bracket_not_mem_filler part (hinside.subset (by decide))⟩

/-- A section that outlives every content stands in front of the rewritten one or behind it. -/
theorem infix_sides_of_rewritesSafely (hsafe : RewritesSafely text marker) {before after : Text}
    (hwritten : ∀ content, replaceSection (some text) marker.name content =
      before ++ sectionText marker.name content ++ after)
    {part : Text} (hpart : OutsideSection text marker part) :
    part <:+: before ∨ part <:+: after := by
  have hkept := ((hsafe (filler part) (freeOfComments_filler part)).2 part hpart).1
  rw [hwritten] at hkept
  obtain ⟨other, -, hcomplete, -⟩ := hpart
  have hlength : part.length ≤ (strip (filler part)).length := by
    rw [strip_filler, filler, List.length_replicate]
    omega
  have hcontent : '<' ∉ strip (filler part) := by
    rw [strip_filler]
    exact bracket_not_mem_filler part
  exact infix_sides hcomplete hlength hcontent hkept

/-- Rewriting a section twice does what once does and keeps every other section exactly when
the file holds neither of its comments, or both in order with the other sections around them. -/
theorem rewritesSafely_iff (text : Text) (marker : CommentName) :
    RewritesSafely text marker ↔ SafeToRewrite text marker := by
  refine ⟨fun hsafe => ?_, rewritesSafely_of_safeToRewrite⟩
  obtain ⟨hreturn, hcases⟩ := structure_of_idempotent (freeOfComments_filler [])
    (hsafe (filler []) (freeOfComments_filler [])).1
  refine ⟨hreturn, ?_⟩
  rcases hcases with ⟨hbegin, hend⟩ | ⟨before, after, horder⟩
  · refine Or.inl ⟨hbegin, hend, fun part hpart => ?_⟩
    have hsides := infix_sides_of_rewritesSafely hsafe
      (fun content => replaceSection_of_absent content hbegin) hpart
    obtain ⟨other, -, hcomplete, -⟩ := hpart
    obtain ⟨body, rfl⟩ := hcomplete.concat
    rcases hsides with hfront | hbehind
    · exact infix_of_infix_appendLead hfront
    · have hmem : '>' ∈ ['\n'] := hbehind.subset (by simp)
      exact absurd hmem (by decide)
  · refine Or.inr ⟨before, after, horder, fun part hpart => ?_⟩
    exact infix_sides_of_rewritesSafely hsafe
      (fun content => replaceSection_of_inOrder content horder) hpart

/-- A section whose closing comment was lost takes the section behind it along. -/
theorem lost_end_deletes_neighbour :
    ¬ RewritesSafely ("<!-- BEGIN:a -->\nold\n\n".toList ++
      "<!-- BEGIN:b -->\nkept\n<!-- END:b -->\n".toList) ⟨['a'], by decide⟩ := by
  intro hsafe
  have hpart : OutsideSection ("<!-- BEGIN:a -->\nold\n\n".toList ++
      "<!-- BEGIN:b -->\nkept\n<!-- END:b -->\n".toList) ⟨['a'], by decide⟩
      "<!-- BEGIN:b -->\nkept\n<!-- END:b -->".toList := by
    refine ⟨⟨['b'], by decide⟩, by decide, ⟨"\nkept\n".toList, by decide, by decide⟩,
      "<!-- BEGIN:a -->\nold\n\n".toList, "\n".toList, by decide, ?_⟩
    exact not_enclosedIn (by decide +kernel)
  have htwice := ((hsafe [] (by decide)).2 _ hpart).2
  revert htwice
  decide +kernel

end Damage

end KvReplication.Experiments
