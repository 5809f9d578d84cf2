import KvReplication.Foundation.TextSearch
import Mathlib.Data.List.Dedup
import Mathlib.Data.List.DropRight

/-! # The results document

Several scripts write into one file. Each owns a section between two marker
comments and replaces what stands between its own. Seen from outside, the file is
an ordered map: sections stand in the order of their first write, each with the
content written last.
-/

namespace KvReplication.Experiments

open TextSearch

/-- The text of a file. -/
abbrev Text := List Char

/-- `str.isspace` of one character. -/
def isSpace (symbol : Char) : Bool :=
  let code := symbol.toNat
  (9 ≤ code && code ≤ 13) || (28 ≤ code && code ≤ 32) || code == 0x85 || code == 0xA0 ||
    code == 0x1680 || (0x2000 ≤ code && code ≤ 0x200A) || code == 0x2028 || code == 0x2029 ||
    code == 0x202F || code == 0x205F || code == 0x3000

/-- `str.strip`. -/
def strip (text : Text) : Text :=
  (text.dropWhile isSpace).rdropWhile isSpace

/-- `str.rstrip` of line feeds. -/
def rstripNewlines (text : Text) : Text :=
  text.rdropWhile (· = '\n')

/-- Universal newlines: a carriage return, with the line feed behind it if there is one, is
read as a line feed. `afterReturn` says that a carriage return was just read. -/
def translate (afterReturn : Bool) : Text → Text
  | [] => []
  | symbol :: rest =>
      if symbol = '\r' then '\n' :: translate true rest
      else if symbol = '\n' ∧ afterReturn then translate false rest
      else symbol :: translate false rest

/-- `Path.read_text`. -/
def readText (stored : Text) : Text := translate false stored

def beginComment (marker : Text) : Text :=
  "<!-- BEGIN:".toList ++ marker ++ " -->".toList

def endComment (marker : Text) : Text :=
  "<!-- END:".toList ++ marker ++ " -->".toList

/-- The section as it is written: the content between its two comments. -/
def sectionText (marker content : Text) : Text :=
  beginComment marker ++ ['\n'] ++ strip content ++ ['\n'] ++ endComment marker

/-- Put a section behind what is already in the file. -/
def appendSection (text newSection : Text) : Text :=
  if strip text ≠ [] then
    rstripNewlines text ++ ['\n', '\n'] ++ newSection ++ ['\n']
  else
    newSection ++ ['\n']

/-- The text `replace_section` writes; there may be no file yet. -/
def replaceSection (file : Option Text) (marker content : Text) : Text :=
  let newSection := sectionText marker content
  let text := (file.map readText).getD []
  match find (beginComment marker) text, find (endComment marker) text with
  | some start, some stop =>
      if start < stop then
        text.take start ++ newSection ++ text.drop (stop + (endComment marker).length)
      else
        appendSection text newSection
  | _, _ => appendSection text newSection

section Texts

theorem return_not_mem_translate (afterReturn : Bool) (text : Text) :
    '\r' ∉ translate afterReturn text := by
  induction text generalizing afterReturn with
  | nil => simp [translate]
  | cons symbol rest ih =>
      rw [translate]
      split
      · rw [List.mem_cons, not_or]
        exact ⟨by decide, ih true⟩
      · next hsymbol =>
          split
          · exact ih false
          · rw [List.mem_cons, not_or]
            exact ⟨Ne.symm hsymbol, ih false⟩

theorem return_not_mem_readText (stored : Text) : '\r' ∉ readText stored :=
  return_not_mem_translate false stored

/-- What is free of carriage returns is read as it is stored. -/
theorem readText_append {text : Text} (hreturn : '\r' ∉ text) (rest : Text) :
    readText (text ++ rest) = text ++ readText rest := by
  unfold readText
  induction text with
  | nil => rfl
  | cons symbol text ih =>
      rw [List.mem_cons, not_or] at hreturn
      rw [List.cons_append, translate, if_neg (Ne.symm hreturn.1), if_neg (by simp),
        ih hreturn.2, List.cons_append]

theorem readText_of_not_mem {text : Text} (hreturn : '\r' ∉ text) : readText text = text := by
  have hread := readText_append hreturn []
  rwa [List.append_nil, show readText [] = [] from rfl, List.append_nil] at hread

theorem infix_strip (text : Text) : strip text <:+: text :=
  (List.rdropWhile_prefix isSpace _).isInfix.trans (List.dropWhile_suffix isSpace).isInfix

/-- Only blank texts strip to nothing. -/
theorem strip_ne_nil {text : Text} {symbol : Char} (hmem : symbol ∈ text)
    (hsymbol : isSpace symbol = false) : strip text ≠ [] := by
  intro hempty
  have hall := List.rdropWhile_eq_nil_iff.mp hempty
  rw [← List.takeWhile_append_dropWhile (p := isSpace) (l := text)] at hmem
  rcases List.mem_append.mp hmem with hlead | hrest
  · rw [List.mem_takeWhile_imp hlead] at hsymbol
    cases hsymbol
  · rw [hall symbol hrest] at hsymbol
    cases hsymbol

/-- Line feeds at the end go, up to the last other symbol. -/
theorem rstripNewlines_append (text : Text) {last : Char} (hlast : last ≠ '\n') {pad : Text}
    (hpad : ∀ symbol ∈ pad, symbol = '\n') :
    rstripNewlines (text ++ [last] ++ pad) = text ++ [last] := by
  unfold rstripNewlines
  induction pad using List.reverseRecOn with
  | nil =>
      rw [List.append_nil, List.rdropWhile_concat_neg]
      simpa using hlast
  | append_singleton pad symbol ih =>
      rw [← List.append_assoc, List.rdropWhile_concat_pos]
      · exact ih fun other hother => hpad other (List.mem_append_left _ hother)
      · simpa using hpad symbol (by simp)

end Texts

section Comments

/-- The content holds no marker comment, nor the opening of one. -/
def FreeOfComments (content : Text) : Prop :=
  ¬ "<!-- BEGIN:".toList <:+: content ∧ ¬ "<!-- END:".toList <:+: content

instance (content : Text) : Decidable (FreeOfComments content) :=
  inferInstanceAs (Decidable (_ ∧ _))

/-- A marker: the name in a comment, which opens no comment itself. -/
@[ext]
structure CommentName where
  name : Text
  no_bracket : '<' ∉ name
deriving DecidableEq

/-- The two kinds of marker comments. -/
inductive CommentKind where
  | opening
  | closing
deriving DecidableEq

def CommentKind.word : CommentKind → Text
  | .opening => ['!', '-', '-', ' ', 'B', 'E', 'G', 'I', 'N', ':']
  | .closing => ['!', '-', '-', ' ', 'E', 'N', 'D', ':']

/-- A marker comment of either kind; without a bracket in its marker it is a mark. -/
def comment (kind : CommentKind) (marker : Text) : Text :=
  '<' :: (kind.word ++ marker ++ [' ', '-', '-', '>'])

theorem beginComment_eq (marker : Text) : beginComment marker = comment .opening marker := rfl

theorem endComment_eq (marker : Text) : endComment marker = comment .closing marker := rfl

theorem not_mem_tail (kind : CommentKind) {marker : Text} (hmarker : '<' ∉ marker) :
    '<' ∉ kind.word ++ marker ++ [' ', '-', '-', '>'] := by
  simp only [List.mem_append, not_or]
  refine ⟨⟨?_, hmarker⟩, by decide⟩
  cases kind <;> decide

/-- A comment of one kind is not taken for one of the other. -/
theorem kind_eq_of_prefix {kind other : CommentKind} {first second : Text}
    (hstarts : '<' :: (kind.word ++ first) <+: '<' :: (other.word ++ second)) : kind = other := by
  have hfifth : kind.word[4]? = other.word[4]? := by
    obtain ⟨after, hafter⟩ := hstarts
    have hsame := congrArg (fun text : Text => text[5]?) hafter
    cases kind <;> cases other <;> exact hsame
  cases kind with
  | opening =>
      cases other with
      | opening => rfl
      | closing => exact absurd hfifth (by decide)
  | closing =>
      cases other with
      | opening => exact absurd hfifth (by decide)
      | closing => rfl

theorem FreeOfComments.not_infix {content : Text} (hfree : FreeOfComments content)
    (kind : CommentKind) : ¬ '<' :: kind.word <:+: content := by
  cases kind with
  | opening => exact hfree.1
  | closing => exact hfree.2

theorem FreeOfComments.of_contains {content part : Text} (hfree : FreeOfComments content)
    (hpart : part <:+: content) : FreeOfComments part :=
  ⟨fun hinside => hfree.1 (hinside.trans hpart), fun hinside => hfree.2 (hinside.trans hpart)⟩

/-- Between the end of a section's first comment and its last one there is no comment. -/
theorem not_infix_body {kind : CommentKind} {marker lead content : Text} (hlead : '<' ∉ lead)
    (hfree : FreeOfComments content) :
    ¬ comment kind marker <:+: lead ++ (content ++ ['\n']) := by
  intro hinside
  have hline := infix_of_infix_append hlead hinside
  -- the opening of a comment ends in a colon, so it does not reach over the line end
  have hopening : '<' :: kind.word <:+: content ++ ['\n'] := by
    refine List.IsInfix.trans (List.IsPrefix.isInfix ?_) hline
    exact ⟨marker ++ [' ', '-', '-', '>'], by simp⟩
  obtain ⟨word, hword⟩ : ∃ word, '<' :: kind.word = word ++ [':'] := by
    cases kind with
    | opening => exact ⟨"<!-- BEGIN".toList, rfl⟩
    | closing => exact ⟨"<!-- END".toList, rfl⟩
  rw [hword] at hopening
  have hinside := infix_of_infix_append_right (by decide) hopening
  rw [← hword] at hinside
  exact hfree.not_infix kind hinside

theorem sectionText_eq (marker content : Text) :
    sectionText marker content = comment .opening marker ++ '\n' :: (strip content ++ ['\n'])
      ++ comment .closing marker := by
  simp [sectionText, beginComment_eq, endComment_eq]

/-- A marker's closing comment is not found before the section's own one. -/
theorem not_infix_closing {marker before content : Text} (hmarker : '<' ∉ marker)
    (hbefore : ¬ comment .closing marker <:+: before) (hfree : FreeOfComments content) :
    ¬ comment .closing marker <:+:
      before ++ comment .opening marker ++ '\n' :: (content ++ ['\n']) := by
  intro hinside
  rw [List.append_assoc] at hinside
  rcases infix_append_cons (not_mem_tail .closing hmarker) hinside with hlead | hown
  · exact hbefore hlead
  · rcases List.infix_cons_iff.mp hown with hstarts | hinside
    · have hstart : '<' :: (CommentKind.closing.word ++ (marker ++ [' ', '-', '-', '>'])) <+:
          '<' :: (CommentKind.opening.word ++ (marker ++ [' ', '-', '-', '>'] ++
            '\n' :: (content ++ ['\n']))) := by
        simpa using hstarts
      cases kind_eq_of_prefix hstart
    · have hbody : comment .closing marker <:+: ((CommentKind.opening.word ++ marker ++
          [' ', '-', '-', '>']) ++ ['\n']) ++ (content ++ ['\n']) := by
        simpa [comment] using hinside
      refine not_infix_body ?_ hfree hbody
      rw [List.mem_append, not_or]
      exact ⟨not_mem_tail .opening hmarker, by decide⟩

/-- A section ends in the bracket that closes its last comment. -/
theorem sectionText_concat (marker content : Text) :
    ∃ body, sectionText marker content = body ++ ['>'] := by
  refine ⟨comment .opening marker ++ '\n' :: (strip content ++ ['\n']) ++
    '<' :: (CommentKind.closing.word ++ marker ++ [' ', '-', '-']), ?_⟩
  rw [sectionText_eq]
  simp [comment]

/-- A section is replaced where its two comments are found in order. -/
theorem replaceSection_between {file : Option Text} {marker content before body after : Text}
    (hmarker : '<' ∉ marker)
    (htext : (file.map readText).getD [] =
      before ++ comment .opening marker ++ body ++ comment .closing marker ++ after)
    (hbegin : ¬ comment .opening marker <:+: before)
    (hend : ¬ comment .closing marker <:+: before ++ comment .opening marker ++ body) :
    replaceSection file marker content = before ++ sectionText marker content ++ after := by
  have hstart : find (beginComment marker) ((file.map readText).getD []) = some before.length := by
    rw [htext, List.append_assoc _ (comment .closing marker), List.append_assoc _ body]
    exact find_append (not_mem_tail .opening hmarker) hbegin _
  have hstop : find (endComment marker) ((file.map readText).getD []) =
      some (before ++ comment .opening marker ++ body).length := by
    rw [htext]
    exact find_append (not_mem_tail .closing hmarker) hend _
  have horder : before.length < (before ++ comment .opening marker ++ body).length := by
    simp only [List.length_append, comment, List.length_cons]
    omega
  simp only [replaceSection, hstart, hstop, if_pos horder]
  rw [htext, endComment_eq, ← List.length_append, List.drop_left, List.append_assoc before,
    List.append_assoc before, List.append_assoc before, List.take_left]

/-- Where the comments are not found in order the section goes to the end. -/
theorem replaceSection_appended {file : Option Text} {marker content : Text}
    (hnot : ¬ ∃ start stop, find (beginComment marker) ((file.map readText).getD []) = some start ∧
      find (endComment marker) ((file.map readText).getD []) = some stop ∧ start < stop) :
    replaceSection file marker content =
      appendSection ((file.map readText).getD []) (sectionText marker content) := by
  unfold replaceSection
  dsimp only
  split
  · next start stop hstart hstop =>
      exact if_neg fun horder => hnot ⟨start, stop, hstart, hstop, horder⟩
  · rfl

end Comments

end KvReplication.Experiments
