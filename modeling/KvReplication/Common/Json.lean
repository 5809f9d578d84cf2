import KvReplication.Common.Server

/-! # JSON bodies

The values `json.loads` produces and `json.dumps` is given. A literal out of range
is loaded as an infinity and an escaped surrogate as itself; dumping with
`allow_nan=False` and encoding the text refuse what loading has let in.
-/

namespace KvReplication

/-- A Python string: its code points, lone surrogates included. -/
abbrev PyString := List Nat

/-- A Lean string as a Python one. -/
def pyString (text : String) : PyString := text.toList.map Char.toNat

/-- A code point that UTF-8 has no encoding of. -/
def IsSurrogate (codePoint : Nat) : Prop := 0xD800 ≤ codePoint ∧ codePoint ≤ 0xDFFF

instance (codePoint : Nat) : Decidable (IsSurrogate codePoint) :=
  inferInstanceAs (Decidable (_ ∧ _))

/-- Neither NaN nor an infinity. -/
def PyFloat.IsFinite (number : PyFloat) : Prop := ∃ value, number = .finite value

instance (number : PyFloat) : Decidable number.IsFinite :=
  match number with
  | .finite value => isTrue ⟨value, rfl⟩
  | .nan => isFalse nofun
  | .negInf => isFalse nofun
  | .posInf => isFalse nofun

inductive Json where
  | null
  | bool (value : Bool)
  | int (value : Int)
  | float (value : PyFloat)
  | str (text : PyString)
  | arr (items : List Json)
  | obj (members : List (PyString × Json))

namespace Json

mutual

/-- What a traversal collects from the floats and the strings of a value, the names
of object members included. -/
def collect {α : Type} (onFloat : PyFloat → List α) (onString : PyString → List α) :
    Json → List α
  | .null => []
  | .bool _ => []
  | .int _ => []
  | .float value => onFloat value
  | .str text => onString text
  | .arr items => collectItems onFloat onString items
  | .obj members => collectMembers onFloat onString members

def collectItems {α : Type} (onFloat : PyFloat → List α) (onString : PyString → List α) :
    List Json → List α
  | [] => []
  | item :: rest => collect onFloat onString item ++ collectItems onFloat onString rest

def collectMembers {α : Type} (onFloat : PyFloat → List α) (onString : PyString → List α) :
    List (PyString × Json) → List α
  | [] => []
  | (name, value) :: rest =>
      onString name ++ collect onFloat onString value ++ collectMembers onFloat onString rest

end

/-- The floats in a value. -/
def floats (value : Json) : List PyFloat := value.collect (fun number => [number]) fun _ => []

/-- The strings in a value. -/
def strings (value : Json) : List PyString := value.collect (fun _ => []) fun text => [text]

/-- `json.dumps(value, ensure_ascii=False, allow_nan=False).encode("utf-8")`, as far
as it can fail: the text is built before any of it is encoded. -/
def encode (value : Json) : Except PyError Unit :=
  if ∃ number ∈ value.floats, ¬ number.IsFinite then .error .valueError
  else if ∃ text ∈ value.strings, ∃ codePoint ∈ text, IsSurrogate codePoint then
    .error .unicodeEncodeError
  else .ok ()

/-- Every float is finite and no string has a lone surrogate. -/
def Encodable (value : Json) : Prop :=
  (∀ number ∈ value.floats, number.IsFinite) ∧
    ∀ text ∈ value.strings, ∀ codePoint ∈ text, ¬ IsSurrogate codePoint

theorem encode_eq_ok_iff {value : Json} : value.encode = .ok () ↔ value.Encodable := by
  unfold encode Encodable
  split
  · next hfloat =>
      obtain ⟨number, hmem, hnot⟩ := hfloat
      simp only [reduceCtorEq, false_iff, not_and]
      exact fun hfinite => absurd (hfinite number hmem) hnot
  · next hfloat =>
      push Not at hfloat
      split
      · next hstring =>
          obtain ⟨text, hmem, codePoint, hpoint, hsurrogate⟩ := hstring
          simp only [reduceCtorEq, false_iff, not_and]
          exact fun _ hclean => hclean text hmem codePoint hpoint hsurrogate
      · next hstring =>
          push Not at hstring
          exact iff_of_true rfl ⟨hfloat, hstring⟩

/-- What encoding raises is no `httpx.HTTPError`. -/
theorem encode_ne_httpError {value : Json} : value.encode ≠ .error .httpError := by
  unfold encode
  split
  · simp
  · split <;> simp

end Json

/-- The body of a replicate call, as the coroutine hands it to the client. -/
def payloadJson (body : ReplicateRequest Json) : Json :=
  .obj [(pyString "key", .str (pyString body.key)), (pyString "value", body.value),
    (pyString "timestamp", .float body.timestamp),
    (pyString "node_id", .str (pyString body.nodeId))]

theorem not_isSurrogate_of_mem_pyString {text : String} {codePoint : Nat}
    (hmem : codePoint ∈ pyString text) : ¬ IsSurrogate codePoint := by
  obtain ⟨char, _, rfl⟩ := List.mem_map.mp hmem
  have hvalid : char.toNat < 0xD800 ∨ (0xDFFF < char.toNat ∧ char.toNat < 0x110000) := char.valid
  unfold IsSurrogate
  omega

/-- A replicate call can be encoded exactly if its value and its timestamp can. -/
theorem encodable_payloadJson {body : ReplicateRequest Json} :
    (payloadJson body).Encodable ↔ body.value.Encodable ∧ body.timestamp.IsFinite := by
  have hfloats : (payloadJson body).floats = body.value.floats ++ [body.timestamp] := by
    simp [payloadJson, Json.floats, Json.collect, Json.collectMembers]
  have hstrings : (payloadJson body).strings = pyString "key" :: pyString body.key ::
      pyString "value" :: (body.value.strings ++
        [pyString "timestamp", pyString "node_id", pyString body.nodeId]) := by
    simp [payloadJson, Json.strings, Json.collect, Json.collectMembers]
  have hclean : ∀ text, ∀ codePoint ∈ pyString text, ¬ IsSurrogate codePoint :=
    fun _ _ => not_isSurrogate_of_mem_pyString
  unfold Json.Encodable
  rw [hfloats, hstrings]
  constructor
  · rintro ⟨hfinite, hencodable⟩
    refine ⟨⟨fun number hmem => hfinite number (by simp [hmem]), ?_⟩, hfinite _ (by simp)⟩
    exact fun text hmem => hencodable text (by simp [hmem])
  · rintro ⟨⟨hfinite, hencodable⟩, htimestamp⟩
    refine ⟨?_, ?_⟩
    · intro number hmem
      rcases List.mem_append.mp hmem with hvalue | hlast
      · exact hfinite number hvalue
      · exact List.mem_singleton.mp hlast ▸ htimestamp
    · intro text hmem
      simp only [List.mem_cons, List.mem_append, List.not_mem_nil, or_false] at hmem
      rcases hmem with rfl | rfl | rfl | hvalue | rfl | rfl | rfl
      · exact hclean _
      · exact hclean _
      · exact hclean _
      · exact hencodable text hvalue
      · exact hclean _
      · exact hclean _
      · exact hclean _

end KvReplication
