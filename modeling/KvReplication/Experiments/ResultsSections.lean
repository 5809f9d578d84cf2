import KvReplication.Experiments.ResultsDoc

/-! # The results file as an ordered map

Scripts that start from no file and name their sections plainly keep this form: the
sections in the order of their first write, one blank line between them, each with the
content written last.
-/

namespace KvReplication.Experiments

open TextSearch

/-- The name of a section: what letters, digits and dashes make up, and more. -/
@[ext]
structure SectionMarker extends CommentName where
  no_blank : ' ' ∉ name
  no_return : '\r' ∉ name
deriving DecidableEq

/-- What a script writes between its comments. -/
structure SectionContent where
  text : Text
  free : FreeOfComments text
  no_return : '\r' ∉ text

/-- A name of letters, digits and dashes. -/
def SectionMarker.ofName (name : Text)
    (hname : name.all (fun symbol => symbol.isAlphanum || symbol == '-') = true) :
    SectionMarker where
  name := name
  no_bracket hmem := absurd (List.all_eq_true.mp hname _ hmem) (by decide)
  no_blank hmem := absurd (List.all_eq_true.mp hname _ hmem) (by decide)
  no_return hmem := absurd (List.all_eq_true.mp hname _ hmem) (by decide)

abbrev SectionEntry := SectionMarker × SectionContent

namespace SectionEntry

def text (entry : SectionEntry) : Text := sectionText entry.1.name entry.2.text

end SectionEntry

/-- The file after the calls, starting from no file. -/
def fileAfter (calls : List SectionEntry) : Option Text :=
  calls.foldl (fun file call => some (replaceSection file call.1.name call.2.text)) none

/-- The markers the calls used, in the order of their first use. -/
def firstUses (calls : List SectionEntry) : List SectionMarker :=
  (calls.map Prod.fst).reverse.dedup.reverse

/-- The content last given for a marker. -/
def latest (calls : List SectionEntry) (marker : SectionMarker) : Option SectionContent :=
  ((calls.filter fun call => call.1 = marker).getLast?).map Prod.snd

/-- The sections one after the other with a blank line between them; no file without any. -/
def render : List SectionEntry → Option Text
  | [] => none
  | sections =>
      some (['\n', '\n'].intercalate (sections.map SectionEntry.text) ++ ['\n'])

/-- Each section with a blank line behind it. -/
def leading (sections : List SectionEntry) : Text :=
  sections.flatMap fun entry => entry.text ++ ['\n', '\n']

/-- Each section with a blank line in front of it. -/
def trailing (sections : List SectionEntry) : Text :=
  sections.flatMap fun entry => ['\n', '\n'] ++ entry.text

section Layout

theorem intercalate_eq (entry : SectionEntry) (rest : List SectionEntry) :
    ['\n', '\n'].intercalate ((entry :: rest).map SectionEntry.text) =
      entry.text ++ trailing rest := by
  induction rest generalizing entry with
  | nil => simp [trailing]
  | cons next rest ih =>
      rw [List.map_cons, List.map_cons, List.intercalate_cons_cons, ← List.map_cons, ih]
      simp [trailing]

theorem intercalate_append (before : List SectionEntry) (entry : SectionEntry)
    (after : List SectionEntry) :
    ['\n', '\n'].intercalate ((before ++ entry :: after).map SectionEntry.text) =
      leading before ++ entry.text ++ trailing after := by
  induction before with
  | nil => exact intercalate_eq entry after
  | cons first before ih =>
      obtain ⟨next, rest, hnext⟩ : ∃ next rest, before ++ entry :: after = next :: rest := by
        cases before with
        | nil => exact ⟨entry, after, rfl⟩
        | cons next before => exact ⟨next, before ++ entry :: after, rfl⟩
      rw [hnext] at ih
      rw [List.cons_append, hnext, List.map_cons, List.map_cons, List.intercalate_cons_cons,
        ← List.map_cons, ih]
      simp [leading]

theorem render_append (before : List SectionEntry) (entry : SectionEntry)
    (after : List SectionEntry) :
    render (before ++ entry :: after) =
      some (leading before ++ entry.text ++ (trailing after ++ ['\n'])) := by
  have hrender : render (before ++ entry :: after) =
      some (['\n', '\n'].intercalate ((before ++ entry :: after).map SectionEntry.text) ++
        ['\n']) := by
    cases before <;> rfl
  rw [hrender, intercalate_append, List.append_assoc]

end Layout

section Search

/-- Comments of different markers do not start alike. -/
theorem marker_eq_of_prefix {first second rest rest' : Text} (hfirst : ' ' ∉ first)
    (hsecond : ' ' ∉ second) (hstarts : first ++ ' ' :: rest <+: second ++ ' ' :: rest') :
    first = second := by
  induction first generalizing second with
  | nil =>
      cases second with
      | nil => rfl
      | cons symbol second =>
          obtain ⟨rfl, -⟩ := List.cons_prefix_cons.mp hstarts
          exact absurd List.mem_cons_self hsecond
  | cons symbol first ih =>
      cases second with
      | nil =>
          obtain ⟨rfl, -⟩ := List.cons_prefix_cons.mp hstarts
          exact absurd List.mem_cons_self hfirst
      | cons other second =>
          rw [List.mem_cons, not_or] at hfirst hsecond
          obtain ⟨rfl, hrest⟩ := List.cons_prefix_cons.mp hstarts
          rw [ih hfirst.2 hsecond.2 hrest]

theorem not_prefix_comment {kind other : CommentKind} {marker entry : SectionMarker}
    (hdiffer : marker ≠ entry) (after : Text) :
    ¬ comment kind marker.name <+: comment other entry.name ++ after := by
  intro hstarts
  have hkind : kind = other := by
    simp only [comment, List.append_assoc, List.cons_append] at hstarts
    exact kind_eq_of_prefix hstarts
  subst hkind
  simp only [comment, List.append_assoc, List.cons_append, List.cons_prefix_cons, true_and,
    List.prefix_append_right_inj] at hstarts
  have hname : marker.name = entry.name :=
    marker_eq_of_prefix marker.no_blank entry.no_blank hstarts
  exact hdiffer (SectionMarker.ext hname)

/-- A marker's comments do not occur in the section of another marker. -/
theorem infix_of_infix_section {kind : CommentKind} {marker : SectionMarker}
    {entry : SectionEntry} (hdiffer : marker ≠ entry.1) {gap rest : Text} (hgap : '<' ∉ gap)
    (hinside : comment kind marker.name <:+: entry.text ++ (gap ++ rest)) :
    comment kind marker.name <:+: rest := by
  have hsection : entry.text ++ (gap ++ rest) =
      (comment .opening entry.1.name ++ '\n' :: (strip entry.2.text ++ ['\n'])) ++
        '<' :: ((CommentKind.closing.word ++ entry.1.name ++ [' ', '-', '-', '>']) ++ gap ++
          rest) := by
    simp [SectionEntry.text, sectionText_eq, comment]
  rw [hsection] at hinside
  have hstripped := entry.2.free.of_contains (infix_strip entry.2.text)
  rcases infix_append_cons (not_mem_tail kind marker.no_bracket) hinside with hbefore | hafter
  · -- in front of the closing comment: at the opening one, or in the content
    exfalso
    rcases List.infix_cons_iff.mp hbefore with hstarts | hinside
    · exact not_prefix_comment hdiffer _ hstarts
    · have hlead : '<' ∉ (CommentKind.opening.word ++ entry.1.name ++ [' ', '-', '-', '>']) ++
          ['\n'] := by
        rw [List.mem_append, not_or]
        exact ⟨not_mem_tail .opening entry.1.no_bracket, by decide⟩
      have hbody : comment kind marker.name <:+: ((CommentKind.opening.word ++ entry.1.name ++
          [' ', '-', '-', '>']) ++ ['\n']) ++ (strip entry.2.text ++ ['\n']) := by
        simpa [comment] using hinside
      exact not_infix_body hlead hstripped hbody
  · rcases List.infix_cons_iff.mp hafter with hstarts | hinside
    · rw [List.append_assoc _ gap, ← List.cons_append] at hstarts
      exact absurd hstarts (not_prefix_comment hdiffer (gap ++ rest))
    · refine infix_of_infix_append ?_ hinside
      rw [List.mem_append, not_or]
      exact ⟨not_mem_tail .closing entry.1.no_bracket, hgap⟩

/-- A marker's comments do not occur in the sections of other markers. -/
theorem not_infix_leading {kind : CommentKind} {marker : SectionMarker}
    {sections : List SectionEntry} (hother : marker ∉ sections.map Prod.fst) :
    ¬ comment kind marker.name <:+: leading sections := by
  induction sections with
  | nil => simp [leading, comment, List.infix_nil]
  | cons entry rest ih =>
      rw [List.map_cons, List.mem_cons, not_or] at hother
      intro hinside
      have hfirst : comment kind marker.name <:+:
          entry.text ++ (['\n', '\n'] ++ leading rest) := by
        simpa [leading] using hinside
      exact ih hother.2 (infix_of_infix_section hother.1 (by decide) hfirst)

end Search

/-- The ordered map with one section written: in its place, or at the end. -/
def setSection (sections : List SectionEntry) (call : SectionEntry) : List SectionEntry :=
  if call.1 ∈ sections.map Prod.fst then
    sections.map fun entry => if entry.1 = call.1 then call else entry
  else
    sections ++ [call]

section Refinement

theorem return_not_mem_comment (kind : CommentKind) (marker : SectionMarker) :
    '\r' ∉ comment kind marker.name := by
  have hword : '\r' ∉ kind.word := by cases kind <;> decide
  simp only [comment, List.mem_cons, List.mem_append, not_or]
  exact ⟨by decide, ⟨hword, marker.no_return⟩, by decide⟩

theorem return_not_mem_text (entry : SectionEntry) : '\r' ∉ entry.text := by
  have hcontent : '\r' ∉ strip entry.2.text := fun hmem =>
    entry.2.no_return ((infix_strip entry.2.text).subset hmem)
  simp only [SectionEntry.text, sectionText_eq, List.mem_append, List.mem_cons, not_or]
  exact ⟨⟨return_not_mem_comment _ _, by decide, hcontent, by decide⟩,
    return_not_mem_comment _ _⟩

/-- What is rendered is read as it is stored. -/
theorem readText_render (before : List SectionEntry) (entry : SectionEntry)
    (after : List SectionEntry) :
    ((render (before ++ entry :: after)).map readText).getD [] =
      leading before ++ entry.text ++ (trailing after ++ ['\n']) := by
  rw [render_append, Option.map_some, Option.getD_some]
  refine readText_of_not_mem fun hmem => ?_
  simp only [leading, trailing, List.mem_append, List.mem_flatMap] at hmem
  rcases hmem with (⟨other, -, htext | hgap⟩ | htext) | ⟨other, -, hgap | htext⟩ | hend
  · exact return_not_mem_text other htext
  · exact absurd hgap (by decide)
  · exact return_not_mem_text entry htext
  · exact absurd hgap (by decide)
  · exact return_not_mem_text other htext
  · exact absurd hend (by decide)

/-- A section that is there is rewritten in its place. -/
theorem replaceSection_render_of_mem {before after : List SectionEntry} {entry call : SectionEntry}
    (hmarker : entry.1 = call.1) (hbefore : call.1 ∉ before.map Prod.fst) :
    some (replaceSection (render (before ++ entry :: after)) call.1.name call.2.text) =
      render (before ++ call :: after) := by
  have htext : ((render (before ++ entry :: after)).map readText).getD [] =
      leading before ++ comment .opening call.1.name ++
        '\n' :: (strip entry.2.text ++ ['\n']) ++ comment .closing call.1.name ++
        (trailing after ++ ['\n']) := by
    rw [readText_render, SectionEntry.text, sectionText_eq, hmarker]
    simp
  have hearlier : ¬ comment .closing call.1.name <:+: leading before := not_infix_leading hbefore
  have hclosing := not_infix_closing call.1.no_bracket hearlier
    (entry.2.free.of_contains (infix_strip _))
  rw [replaceSection_between call.1.no_bracket htext (not_infix_leading hbefore) hclosing,
    render_append]
  rfl

/-- A new section goes to the end. -/
theorem replaceSection_render_of_not_mem {sections : List SectionEntry} {call : SectionEntry}
    (hnew : call.1 ∉ sections.map Prod.fst) :
    some (replaceSection (render sections) call.1.name call.2.text) =
      render (sections ++ [call]) := by
  rcases List.eq_nil_or_concat sections with rfl | ⟨front, entry, rfl⟩
  · rw [replaceSection_appended]
    · simp [appendSection, strip, render, SectionEntry.text]
    · rintro ⟨start, stop, hstart, -⟩
      rw [beginComment_eq] at hstart
      cases hstart
  · rw [List.concat_eq_append] at hnew ⊢
    have htext := readText_render front entry []
    rw [show trailing [] = [] from rfl, List.nil_append] at htext
    have hinside : ¬ beginComment call.1.name <:+: leading front ++ entry.text ++ ['\n'] := by
      intro hinside
      rw [beginComment_eq] at hinside
      refine not_infix_leading hnew (hinside.trans ⟨[], ['\n'], ?_⟩)
      simp [leading]
    rw [replaceSection_appended]
    · obtain ⟨body, hbody⟩ := sectionText_concat entry.1.name entry.2.text
      have hblank : strip (leading front ++ entry.text ++ ['\n']) ≠ [] := by
        have hmem : '>' ∈ leading front ++ entry.text ++ ['\n'] := by
          simp [SectionEntry.text, hbody]
        exact strip_ne_nil hmem (by decide)
      rw [htext, appendSection, if_pos hblank, render_append]
      have hrstrip : rstripNewlines (leading front ++ entry.text ++ ['\n']) =
          leading front ++ entry.text := by
        rw [SectionEntry.text, hbody, ← List.append_assoc]
        exact rstripNewlines_append _ (by decide) (by simp)
      rw [hrstrip]
      simp [leading, trailing, SectionEntry.text]
    · rintro ⟨start, stop, hstart, -⟩
      rw [htext, find_eq_none_iff.mpr hinside] at hstart
      cases hstart

/-- One call of a script is one write to the ordered map. -/
theorem replaceSection_render {sections : List SectionEntry}
    (hnodup : (sections.map Prod.fst).Nodup) (call : SectionEntry) :
    some (replaceSection (render sections) call.1.name call.2.text) =
      render (setSection sections call) := by
  by_cases hmem : call.1 ∈ sections.map Prod.fst
  · obtain ⟨entry, hentry, hmarker⟩ := List.mem_map.mp hmem
    obtain ⟨before, after, rfl⟩ := List.append_of_mem hentry
    rw [List.map_append, List.map_cons, List.nodup_middle, List.nodup_cons, hmarker] at hnodup
    have hothers : call.1 ∉ before.map Prod.fst ∧ call.1 ∉ after.map Prod.fst := by
      simpa only [List.mem_append, not_or] using hnodup.1
    have hkept : ∀ others : List SectionEntry, call.1 ∉ others.map Prod.fst →
        (others.map fun other => if other.1 = call.1 then call else other) = others := by
      intro others hnot
      refine (List.map_congr_left fun other hother => ?_).trans (List.map_id _)
      exact if_neg fun heq : other.1 = call.1 => hnot (heq ▸ List.mem_map_of_mem hother)
    rw [replaceSection_render_of_mem hmarker hothers.1, setSection, if_pos hmem,
      List.map_append, List.map_cons, hkept before hothers.1, hkept after hothers.2,
      if_pos hmarker]
  · rw [setSection, if_neg hmem, replaceSection_render_of_not_mem hmem]

end Refinement

section History

theorem firstUses_concat (calls : List SectionEntry) (call : SectionEntry) :
    firstUses (calls ++ [call]) =
      if call.1 ∈ firstUses calls then firstUses calls else firstUses calls ++ [call.1] := by
  have hmem : call.1 ∈ firstUses calls ↔ call.1 ∈ (calls.map Prod.fst).reverse := by
    simp [firstUses]
  simp only [hmem]
  rw [firstUses, List.map_append, List.map_singleton, List.reverse_concat]
  by_cases hused : call.1 ∈ (calls.map Prod.fst).reverse
  · rw [if_pos hused, List.dedup_cons_of_mem hused, firstUses]
  · rw [if_neg hused, List.dedup_cons_of_notMem hused, List.reverse_cons, firstUses]

theorem nodup_firstUses (calls : List SectionEntry) : (firstUses calls).Nodup :=
  List.nodup_reverse.mpr (List.nodup_dedup _)

theorem latest_concat (calls : List SectionEntry) (call : SectionEntry) (marker : SectionMarker) :
    latest (calls ++ [call]) marker =
      if call.1 = marker then some call.2 else latest calls marker := by
  unfold latest
  rw [List.filter_append]
  by_cases hmarker : call.1 = marker
  · simp [hmarker]
  · simp [hmarker]

theorem map_fst_setSection (sections : List SectionEntry) (call : SectionEntry) :
    (setSection sections call).map Prod.fst =
      if call.1 ∈ sections.map Prod.fst then sections.map Prod.fst
      else sections.map Prod.fst ++ [call.1] := by
  unfold setSection
  split
  · rw [List.map_map]
    refine List.map_congr_left fun entry _ => ?_
    by_cases hmarker : entry.1 = call.1
    · simp [hmarker]
    · simp [hmarker]
  · simp

/-- What stands in the map after a write stood there before under another marker, or is
what was written. -/
theorem mem_setSection {sections : List SectionEntry} {call entry : SectionEntry}
    (hentry : entry ∈ setSection sections call) :
    entry = call ∨ entry ∈ sections ∧ entry.1 ≠ call.1 := by
  unfold setSection at hentry
  split at hentry
  · obtain ⟨other, hother, rfl⟩ := List.mem_map.mp hentry
    by_cases hmarker : other.1 = call.1
    · exact Or.inl (if_pos hmarker)
    · rw [if_neg hmarker]
      exact Or.inr ⟨hother, hmarker⟩
  · next hnew =>
      rcases List.mem_append.mp hentry with hold | hcall
      · exact Or.inr ⟨hold, fun heq => hnew (heq ▸ List.mem_map_of_mem hold)⟩
      · exact Or.inl (List.mem_singleton.mp hcall)

/-- The results file is an ordered map of sections: the markers used so far in the order of
their first use, each with the content given for it last. -/
theorem results_file_is_ordered_map (calls : List SectionEntry) :
    ∃ sections : List SectionEntry, sections.map Prod.fst = firstUses calls ∧
      (∀ entry ∈ sections, latest calls entry.1 = some entry.2) ∧
      fileAfter calls = render sections := by
  induction calls using List.reverseRecOn with
  | nil => exact ⟨[], rfl, by simp, rfl⟩
  | append_singleton calls call ih =>
      obtain ⟨sections, hmarkers, hlatest, hfile⟩ := ih
      refine ⟨setSection sections call, ?_, fun entry hentry => ?_, ?_⟩
      · rw [map_fst_setSection, hmarkers, firstUses_concat]
      · rw [latest_concat]
        rcases mem_setSection hentry with rfl | ⟨hold, hdiffer⟩
        · exact if_pos rfl
        · rw [if_neg (Ne.symm hdiffer), hlatest entry hold]
      · have hnodup : (sections.map Prod.fst).Nodup := hmarkers ▸ nodup_firstUses calls
        rw [← replaceSection_render hnodup, ← hfile, fileAfter, List.foldl_append]
        rfl

/-- A marker that starts like another one has a section of its own. -/
example :
    fileAfter
      [(.ofName ['a'] (by decide), ⟨" old\n".toList, by decide +kernel, by decide +kernel⟩),
        (.ofName ['a', 'b'] (by decide), ⟨['x'], by decide +kernel, by decide +kernel⟩),
        (.ofName ['a'] (by decide), ⟨['y'], by decide +kernel, by decide +kernel⟩)] =
      some ("<!-- BEGIN:a -->\ny\n<!-- END:a -->\n\n".toList ++
        "<!-- BEGIN:ab -->\nx\n<!-- END:ab -->\n".toList) := by
  decide +kernel

end History

end KvReplication.Experiments
