import Mathlib.Data.List.TakeWhile

/-! # Paths in URLs

Percent-decoding of a path, with the UTF-8 decoding of the escaped bytes, and the
removal of dot segments. Decoding keeps every character outside an escape, and an
escape shortens the text, so a text decodes to itself exactly when it has none.
-/

namespace UrlPath

section Search

variable (text : List Char) (holds : Char → Prop) [DecidablePred holds]

-- a text is searched along its characters, not along all characters there are
instance decidableForallMem : Decidable (∀ char ∈ text, holds char) :=
  List.decidableBAll holds text

instance decidableExistsMem : Decidable (∃ char ∈ text, holds char) :=
  List.decidableBEx holds text

end Search

/-- The bytes a UTF-8 decoder still expects after a lead byte: how many, the range
of the next one, and the bits read so far. -/
structure Expected where
  owed : Nat
  low : Nat
  high : Nat
  point : Nat

/-- What a byte between two characters begins. -/
inductive Lead where
  | single (point : Nat)
  | more (expected : Expected)
  | invalid

def lead (byte : Nat) : Lead :=
  if byte < 0x80 then .single byte
  else if byte < 0xC2 then .invalid
  else if byte < 0xE0 then .more ⟨1, 0x80, 0xBF, byte - 0xC0⟩
  else if byte < 0xF0 then
    .more ⟨2, if byte = 0xE0 then 0xA0 else 0x80, if byte = 0xED then 0x9F else 0xBF, byte - 0xE0⟩
  else if byte < 0xF5 then
    .more ⟨3, if byte = 0xF0 then 0x90 else 0x80, if byte = 0xF4 then 0x8F else 0xBF, byte - 0xF0⟩
  else .invalid

/-- UTF-8 decoding with replacement: every maximal ill-formed part gives one
U+FFFD, and the byte that broke it off is read again as a lead byte. -/
def utf8Replace : Option Expected → List Nat → List Char
  | none, [] => []
  | some _, [] => ['\uFFFD']
  | none, byte :: rest =>
      match lead byte with
      | .single point => Char.ofNat point :: utf8Replace none rest
      | .more expected => utf8Replace (some expected) rest
      | .invalid => '\uFFFD' :: utf8Replace none rest
  | some expected, byte :: rest =>
      if expected.low ≤ byte ∧ byte ≤ expected.high then
        let point := expected.point * 0x40 + (byte - 0x80)
        if expected.owed ≤ 1 then Char.ofNat point :: utf8Replace none rest
        else utf8Replace (some ⟨expected.owed - 1, 0x80, 0xBF, point⟩) rest
      else
        match lead byte with
        | .single point => '\uFFFD' :: Char.ofNat point :: utf8Replace none rest
        | .more next => '\uFFFD' :: utf8Replace (some next) rest
        | .invalid => '\uFFFD' :: '\uFFFD' :: utf8Replace none rest

/-- A decoder emits at most one character a byte, and one for a broken-off start. -/
theorem length_utf8Replace (expected : Option Expected) (bytes : List Nat) :
    (utf8Replace expected bytes).length ≤ bytes.length + expected.toList.length := by
  induction bytes generalizing expected with
  | nil => cases expected <;> simp [utf8Replace]
  | cons byte rest ih =>
      have hidle := ih none
      have hbusy := fun next => ih (some next)
      simp only [Option.toList_none, Option.toList_some, List.length_nil,
        List.length_singleton] at hidle hbusy
      cases expected with
      | none =>
          simp only [utf8Replace]
          cases lead byte with
          | single point => simp; omega
          | more next => have := hbusy next; simp; omega
          | invalid => simp; omega
      | some expected =>
          simp only [utf8Replace]
          split
          · split
            · simp; omega
            · have := hbusy ⟨expected.owed - 1, 0x80, 0xBF,
                expected.point * 0x40 + (byte - 0x80)⟩
              simp; omega
          · cases lead byte with
            | single point => simp; omega
            | more next => have := hbusy next; simp; omega
            | invalid => simp; omega

/-- The value of a hexadecimal digit. -/
def hexValue (char : Char) : Option Nat :=
  if '0' ≤ char ∧ char ≤ '9' then some (char.toNat - '0'.toNat)
  else if 'a' ≤ char ∧ char ≤ 'f' then some (char.toNat - 'a'.toNat + 10)
  else if 'A' ≤ char ∧ char ≤ 'F' then some (char.toNat - 'A'.toNat + 10)
  else none

/-- Percent-decoding with the bytes of the current run of escapes at hand. -/
def unquoteFrom (run : List Nat) : List Char → List Char
  | '%' :: high :: low :: rest =>
      match hexValue high, hexValue low with
      | some upper, some lower => unquoteFrom (run ++ [16 * upper + lower]) rest
      | _, _ => utf8Replace none run ++ '%' :: unquoteFrom [] (high :: low :: rest)
  | char :: rest => utf8Replace none run ++ char :: unquoteFrom [] rest
  | [] => utf8Replace none run

/-- Decode every `%XX` escape; runs of escapes are decoded as UTF-8. -/
def unquote (text : List Char) : List Char := unquoteFrom [] text

/-- The text contains a `%XX` escape. -/
def HasEscape (text : List Char) : Prop :=
  ∃ before high low after, text = before ++ '%' :: high :: low :: after ∧
    (hexValue high).isSome ∧ (hexValue low).isSome

theorem HasEscape.cons {text : List Char} (hescape : HasEscape text) (char : Char) :
    HasEscape (char :: text) := by
  obtain ⟨before, high, low, after, rfl, hhigh, hlow⟩ := hescape
  exact ⟨char :: before, high, low, after, rfl, hhigh, hlow⟩

/-- An escape that does not start at the first character lies in the rest. -/
theorem HasEscape.tail {char : Char} {text : List Char} (hescape : HasEscape (char :: text))
    (hhead : ∀ high low after, char :: text = '%' :: high :: low :: after →
      ¬ ((hexValue high).isSome ∧ (hexValue low).isSome)) : HasEscape text := by
  obtain ⟨before, high, low, after, htext, hhex⟩ := hescape
  cases before with
  | nil => exact absurd hhex (hhead high low after htext)
  | cons head before =>
      rw [List.cons_append, List.cons.injEq] at htext
      exact ⟨before, high, low, after, htext.2, hhex⟩

theorem length_utf8Replace_run (run : List Nat) : (utf8Replace none run).length ≤ run.length := by
  simpa using length_utf8Replace none run

/-- Decoding never lengthens a text. -/
theorem length_unquoteFrom (run : List Nat) (text : List Char) :
    (unquoteFrom run text).length ≤ run.length + text.length := by
  fun_induction unquoteFrom run text with
  | case1 run high low rest upper lower hlower hupper ih =>
      simp only [List.length_append, List.length_cons, List.length_nil] at ih ⊢
      omega
  | case2 run high low rest hnot ih =>
      have := length_utf8Replace_run run
      simp only [List.length_append, List.length_cons, List.length_nil] at ih ⊢
      omega
  | case3 run char rest hnot ih =>
      have := length_utf8Replace_run run
      simp only [List.length_append, List.length_cons, List.length_nil] at ih ⊢
      omega
  | case4 run => simpa using length_utf8Replace_run run

/-- Decoding an escape shortens the text. -/
theorem length_unquoteFrom_lt {text : List Char} (run : List Nat) (hescape : HasEscape text) :
    (unquoteFrom run text).length < run.length + text.length := by
  fun_induction unquoteFrom run text with
  | case1 run high low rest upper lower hlower hupper _ =>
      have := length_unquoteFrom (run ++ [16 * upper + lower]) rest
      simp only [List.length_append, List.length_cons, List.length_nil] at this ⊢
      omega
  | case2 run high low rest hnot ih =>
      have htail : HasEscape (high :: low :: rest) := by
        refine hescape.tail ?_
        rintro high' low' after heq ⟨hhigh, hlow⟩
        simp only [List.cons.injEq, true_and] at heq
        obtain ⟨rfl, rfl, rfl⟩ := heq
        obtain ⟨upper, hupper⟩ := Option.isSome_iff_exists.mp hhigh
        obtain ⟨lower, hlower⟩ := Option.isSome_iff_exists.mp hlow
        exact hnot upper lower hupper hlower
      have hlt := ih htail
      have := length_utf8Replace_run run
      simp only [List.length_append, List.length_cons, List.length_nil] at hlt ⊢
      omega
  | case3 run char rest hnot ih =>
      have htail : HasEscape rest := by
        refine hescape.tail ?_
        intro high low after heq _
        rw [List.cons.injEq] at heq
        exact hnot high low after heq.1 heq.2
      have hlt := ih htail
      have := length_utf8Replace_run run
      simp only [List.length_append, List.length_cons, List.length_nil] at hlt ⊢
      omega
  | case4 run =>
      obtain ⟨before, high, low, after, htext, _⟩ := hescape
      simp at htext

theorem unquoteFrom_of_not_hasEscape {text : List Char} (run : List Nat)
    (hnone : ¬ HasEscape text) : unquoteFrom run text = utf8Replace none run ++ text := by
  fun_induction unquoteFrom run text with
  | case1 run high low rest upper lower hlower hupper _ =>
      exact absurd ⟨[], high, low, rest, rfl, Option.isSome_of_eq_some hupper,
        Option.isSome_of_eq_some hlower⟩ hnone
  | case2 run high low rest hnot ih =>
      rw [ih fun hescape => hnone (hescape.cons _)]
      rfl
  | case3 run char rest hnot ih =>
      rw [ih fun hescape => hnone (hescape.cons _)]
      rfl
  | case4 run => simp

/-- A text is left alone by percent-decoding exactly when it holds no escape. -/
theorem unquote_eq_self_iff {text : List Char} : unquote text = text ↔ ¬ HasEscape text := by
  constructor
  · intro heq hescape
    have hlt := length_unquoteFrom_lt [] hescape
    rw [show unquoteFrom [] text = text from heq] at hlt
    simp at hlt
  · intro hnone
    have hkeep := unquoteFrom_of_not_hasEscape [] hnone
    rwa [utf8Replace, List.nil_append] at hkeep

/-- One path component of the dot-segment removal. -/
def pushSegment (output : List (List Char)) (segment : List Char) : List (List Char) :=
  if segment = ['.'] then output
  else if segment = ['.', '.'] then
    if output = [] ∨ output = [[]] then output else output.dropLast
  else output ++ [segment]

/-- Drop `.` segments, and let `..` segments take back the one before them. -/
def removeDotSegments (path : List Char) : List Char :=
  ['/'].intercalate ((path.splitOn '/').foldl pushSegment [])

/-- The part of a path up to the first `?` or `#`. -/
def beforeQuery (text : List Char) : List Char :=
  text.takeWhile fun char => char ≠ '?' ∧ char ≠ '#'

/-- What `beforeQuery` cuts off. -/
def fromQuery (text : List Char) : List Char :=
  text.dropWhile fun char => char ≠ '?' ∧ char ≠ '#'

theorem beforeQuery_append_fromQuery (text : List Char) :
    beforeQuery text ++ fromQuery text = text :=
  List.takeWhile_append_dropWhile

theorem beforeQuery_eq_self_iff {text : List Char} :
    beforeQuery text = text ↔ ∀ char ∈ text, char ≠ '?' ∧ char ≠ '#' := by
  unfold beforeQuery
  rw [List.takeWhile_eq_self_iff]
  simp

end UrlPath
