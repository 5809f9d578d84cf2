import KvReplication.Leaderless.PeerCalls
import KvReplication.Foundation.UrlPath

/-! # The key a peer looks up

A quorum read writes the key into a URL as it is. The client library splits and
normalises that URL and the peer's router decodes its path, so the peer looks up
the key the coordinator asked for only if the key survives that trip.
-/

namespace KvReplication.Leaderless

open UrlPath

namespace Node

def replicateUrl (node : Node) : String :=
  "http://" ++ node.host ++ ":" ++ toString node.port ++ "/internal/replicate"

def internalReadUrl (node : Node) (key : String) : String :=
  "http://" ++ node.host ++ ":" ++ toString node.port ++ "/internal/kv/" ++ key

/-- A host name or IPv4 address, and a port a server can bind. -/
def Addressable (node : Node) : Prop :=
  (node.host ≠ "" ∧ ∀ char ∈ node.host.toList,
    char.isAlphanum ∨ char = '.' ∨ char = '-' ∨ char = '_') ∧
    0 < node.port ∧ node.port < 65536

instance (node : Node) : Decidable node.Addressable :=
  inferInstanceAs (Decidable (_ ∧ _ ∧ _))

end Node

/-- A non-printable ASCII character. -/
def IsControl (char : Char) : Prop := char.toNat < 0x20 ∨ char.toNat = 0x7F

instance (char : Char) : Decidable (IsControl char) :=
  inferInstanceAs (Decidable (_ ∨ _))

/-- What is assumed of the client library: it rejects URLs with non-printable
ASCII characters, cuts the path at the first `?` or `#`, removes dot segments,
and percent-encodes the rest without touching the escapes already there. -/
structure HttpClient where
  requestPath : String → Except PyError (List Char)
  rejects_control : ∀ url : String, (∃ char ∈ url.toList, IsControl char) →
    requestPath url = .error .invalidUrl
  sends_path : ∀ (node : Node) (path rest : List Char), node.Addressable →
    (∀ char ∈ path ++ rest, ¬ IsControl char) → path.head? = some '/' →
    (∀ char ∈ path, char ≠ '?' ∧ char ≠ '#') →
    (rest = [] ∨ rest.head? = some '?' ∨ rest.head? = some '#') →
    ∃ wire, requestPath ("http://" ++ node.host ++ ":" ++ toString node.port ++
        String.ofList (path ++ rest)) = .ok wire ∧
      unquote wire = unquote (removeDotSegments path)

/-- A character of the authority part of the URLs a coordinator builds. -/
def IsAuthorityChar (char : Char) : Prop :=
  (char.isAlphanum ∨ char = '.' ∨ char = '-' ∨ char = '_') ∨ char = ':'

theorem isAuthorityChar_port {port : Int} (hport : 0 < port) :
    ∀ char ∈ (toString port).toList, IsAuthorityChar char := by
  intro char hmem
  obtain ⟨number, rfl⟩ := Int.eq_ofNat_of_zero_le hport.le
  have hdigits : (toString (number : Int)).toList = Nat.toDigits 10 number := Nat.toList_repr
  rw [hdigits] at hmem
  have hdigit := Nat.isDigit_of_mem_toDigits (by omega) (by omega) hmem
  exact Or.inl (Or.inl (by simp [Char.isAlphanum, hdigit]))

theorem isAuthorityChar_not_slash {char : Char} (hchar : IsAuthorityChar char) : char ≠ '/' := by
  rintro rfl
  revert hchar
  unfold IsAuthorityChar
  decide

theorem isAuthorityChar_printable {char : Char} (hchar : IsAuthorityChar char) :
    ¬ IsControl char := by
  rcases hchar with (halnum | rfl | rfl | rfl) | rfl
  · change ((decide (65 ≤ char.val ∧ char.val ≤ 90) ||
      (decide (97 ≤ char.val) && decide (char.val ≤ 122))) ||
      (decide (48 ≤ char.val) && decide (char.val ≤ 57))) = true at halnum
    simp only [Bool.or_eq_true, Bool.and_eq_true, decide_eq_true_eq,
      UInt32.le_iff_toNat_le] at halnum
    change ((65 ≤ char.toNat ∧ char.toNat ≤ 90) ∨ (97 ≤ char.toNat ∧ char.toNat ≤ 122)) ∨
      (48 ≤ char.toNat ∧ char.toNat ≤ 57) at halnum
    unfold IsControl
    omega
  · decide
  · decide
  · decide
  · decide

/-- The characters between the scheme and the path. -/
def Node.authority (node : Node) : List Char :=
  node.host.toList ++ ':' :: (toString node.port).toList

theorem isAuthorityChar_authority {node : Node} (haddress : node.Addressable) :
    ∀ char ∈ node.authority, IsAuthorityChar char := by
  intro char hmem
  rw [Node.authority, List.mem_append, List.mem_cons] at hmem
  rcases hmem with hhost | rfl | hport
  · exact Or.inl (haddress.1.2 char hhost)
  · exact Or.inr rfl
  · exact isAuthorityChar_port haddress.2.1 char hport

/-- A client library without percent-encoding: enough for paths that need none. -/
def plainHttpClient : HttpClient where
  requestPath url :=
    if ∃ char ∈ url.toList, IsControl char then .error .invalidUrl
    else .ok (removeDotSegments (beforeQuery ((url.toList.drop 7).dropWhile (· ≠ '/'))))
  rejects_control url hcontrol := if_pos hcontrol
  sends_path node path rest haddress hclean hslash hplain hrest := by
    have hurl : ("http://" ++ node.host ++ ":" ++ toString node.port ++
        String.ofList (path ++ rest)).toList =
        "http://".toList ++ (node.authority ++ (path ++ rest)) := by
      simp [Node.authority]
    have hprintable : ¬ ∃ char ∈ "http://".toList ++ (node.authority ++ (path ++ rest)),
        IsControl char := by
      rintro ⟨char, hmem, hcontrol⟩
      rcases List.mem_append.mp hmem with hscheme | hmem
      · have hplain : ∀ char ∈ "http://".toList, ¬ IsControl char := by decide
        exact hplain char hscheme hcontrol
      · rcases List.mem_append.mp hmem with hauthority | hpath
        · exact isAuthorityChar_printable
            (isAuthorityChar_authority haddress char hauthority) hcontrol
        · exact hclean char hpath hcontrol
    have hauthority : (node.authority ++ (path ++ rest)).dropWhile (· ≠ '/') = path ++ rest := by
      rw [List.dropWhile_append_of_pos fun char hmem => by
        simpa using isAuthorityChar_not_slash (isAuthorityChar_authority haddress char hmem)]
      obtain ⟨tail, rfl⟩ := List.head?_eq_some_iff.mp hslash
      simp
    have hquery : beforeQuery (path ++ rest) = path := by
      unfold beforeQuery
      rw [List.takeWhile_append_of_pos fun char hmem => by simpa using hplain char hmem]
      cases rest with
      | nil => simp
      | cons mark tail => rcases hrest with hnil | hmark | hmark <;> simp_all
    refine ⟨removeDotSegments path, ?_, rfl⟩
    rw [hurl, if_neg hprintable, List.drop_append_of_le_length (by decide)]
    rw [show "http://".toList.drop 7 = [] by decide, List.nil_append, hauthority, hquery]

/-- The path prefix of the internal read route. -/
def readPrefix : List Char :=
  ['/', 'i', 'n', 't', 'e', 'r', 'n', 'a', 'l', '/', 'k', 'v', '/']

/-- The router: `{key}` takes exactly one nonempty path segment. -/
def routeKey (path : List Char) : Option (List Char) :=
  if readPrefix.isPrefixOf path then
    let segment := path.drop readPrefix.length
    if segment = [] ∨ '/' ∈ segment then none else some segment
  else
    none

/-- The key under which the peer looks up a read of `key`; nothing when no route
matches. -/
def lookupKey (http : HttpClient) (node : Node) (key : String) :
    Except PyError (Option String) :=
  match http.requestPath (node.internalReadUrl key) with
  | .error error => .error error
  | .ok wire => .ok ((routeKey (unquote wire)).map String.ofList)

/-- The peer's answer to the read: a 404 of the router where no route matches. -/
def peerAnswer {V : Type} (storage : KVStore V) :
    Option String → Except HttpException (KVResponse V)
  | none => .error ⟨404, .routeNotFound⟩
  | some key => internalGetKey storage key

/-- A key the `PUT /kv/{key}` route admits. -/
def Admitted (key : String) : Prop := key ≠ "" ∧ '/' ∉ key.toList

instance (key : String) : Decidable (Admitted key) :=
  inferInstanceAs (Decidable (_ ∧ _))

/-- The key comes out of the read URL as it went in. -/
def UrlSafe (key : String) : Prop :=
  (∀ char ∈ key.toList, ¬ IsControl char ∧ char ≠ '?' ∧ char ≠ '#') ∧
    key ≠ "." ∧ key ≠ ".." ∧ ¬ HasEscape key.toList

/-- Keys of letters, digits, `-` and `_` are safe. -/
theorem urlSafe_of_plain {key : String}
    (hplain : ∀ char ∈ key.toList, char.isAlphanum ∨ char = '-' ∨ char = '_') : UrlSafe key := by
  have hnot : ∀ other : Char, ¬ (other.isAlphanum ∨ other = '-' ∨ other = '_') →
      other ∉ key.toList := fun other hother hmem => hother (hplain other hmem)
  refine ⟨fun char hmem => ⟨?_, ?_, ?_⟩, ?_, ?_, ?_⟩
  · apply isAuthorityChar_printable
    rcases hplain char hmem with halnum | hdash | hunderscore
    · exact Or.inl (Or.inl halnum)
    · exact Or.inl (Or.inr (Or.inr (Or.inl hdash)))
    · exact Or.inl (Or.inr (Or.inr (Or.inr hunderscore)))
  · rintro rfl
    exact hnot '?' (by decide) hmem
  · rintro rfl
    exact hnot '#' (by decide) hmem
  · rintro rfl
    exact hnot '.' (by decide) (by decide)
  · rintro rfl
    exact hnot '.' (by decide) (by decide)
  · rintro ⟨before, high, low, after, htext, _⟩
    exact hnot '%' (by decide) (by simp [htext])

theorem fromQuery_head (text : List Char) :
    fromQuery text = [] ∨ (fromQuery text).head? = some '?' ∨
      (fromQuery text).head? = some '#' := by
  unfold fromQuery
  cases hrest : text.dropWhile fun char => char ≠ '?' ∧ char ≠ '#' with
  | nil => exact Or.inl rfl
  | cons char rest =>
      have hstop := List.head?_dropWhile_not (fun char => decide (char ≠ '?' ∧ char ≠ '#')) text
      rw [hrest, List.head?_cons] at hstop
      simp only [decide_eq_false_iff_not, not_and_or, not_not] at hstop
      rcases hstop with rfl | rfl
      · exact Or.inr (Or.inl rfl)
      · exact Or.inr (Or.inr rfl)

theorem internalReadUrl_eq (node : Node) (key : String) :
    node.internalReadUrl key = "http://" ++ node.host ++ ":" ++ toString node.port ++
      String.ofList ((readPrefix ++ beforeQuery key.toList) ++ fromQuery key.toList) := by
  have hhead : String.ofList readPrefix = "/internal/kv/" := by decide
  rw [List.append_assoc, beforeQuery_append_fromQuery, String.ofList_append, String.ofList_toList,
    hhead, Node.internalReadUrl, String.append_assoc]

theorem readPrefix_plain : ∀ char ∈ readPrefix,
    ¬ IsControl char ∧ char ≠ '?' ∧ char ≠ '#' := by
  decide

theorem lookupKey_of_printable (http : HttpClient) {node : Node} {key : String}
    (haddress : node.Addressable) (hprintable : ∀ char ∈ key.toList, ¬ IsControl char) :
    lookupKey http node key = .ok ((routeKey (unquote (removeDotSegments
      (readPrefix ++ beforeQuery key.toList)))).map String.ofList) := by
  have hpath : ∀ char ∈ readPrefix ++ beforeQuery key.toList, char ≠ '?' ∧ char ≠ '#' := by
    intro char hmem
    rcases List.mem_append.mp hmem with hhead | hkey
    · exact (readPrefix_plain char hhead).2
    · simpa using List.mem_takeWhile_imp hkey
  have hclean : ∀ char ∈ (readPrefix ++ beforeQuery key.toList) ++ fromQuery key.toList,
      ¬ IsControl char := by
    intro char hmem
    rw [List.append_assoc, beforeQuery_append_fromQuery] at hmem
    rcases List.mem_append.mp hmem with hhead | hkey
    · exact (readPrefix_plain char hhead).1
    · exact hprintable char hkey
  obtain ⟨wire, hwire, hdecoded⟩ := http.sends_path node _ _ haddress hclean rfl hpath
    (fromQuery_head key.toList)
  rw [← internalReadUrl_eq] at hwire
  simp [lookupKey, hwire, hdecoded]

/-- The read URL's path has one segment after the prefix; it is dropped or
swallows the one before it exactly when it is a dot segment. -/
theorem removeDotSegments_readPrefix {segment : List Char} (hslash : '/' ∉ segment) :
    removeDotSegments (readPrefix ++ segment) =
      if segment = ['.'] then "/internal/kv".toList
      else if segment = ['.', '.'] then "/internal".toList
      else readPrefix ++ segment := by
  have hjoin : readPrefix ++ segment =
      ['/'].intercalate [[], "internal".toList, "kv".toList, segment] := by
    simp [readPrefix, List.intercalate_cons_cons]
  have hsplit : (readPrefix ++ segment).splitOn '/' =
      [[], "internal".toList, "kv".toList, segment] := by
    rw [hjoin]
    apply List.splitOn_intercalate
    · intro part hpart
      simp only [List.mem_cons, List.not_mem_nil, or_false] at hpart
      rcases hpart with rfl | rfl | rfl | rfl
      · decide
      · decide
      · decide
      · exact hslash
    · simp
  -- the prefix has no dot segments, so only the last segment can be one
  have hfold : [[], "internal".toList, "kv".toList].foldl pushSegment [] =
      [[], "internal".toList, "kv".toList] := by decide
  unfold removeDotSegments
  rw [hsplit, show [[], "internal".toList, "kv".toList, segment] =
    [[], "internal".toList, "kv".toList] ++ [segment] from rfl, List.foldl_append, hfold]
  simp only [List.foldl_cons, List.foldl_nil, pushSegment]
  split
  · rfl
  · split
    · rfl
    · exact hjoin.symm

theorem routeKey_unquote_readPrefix (segment : List Char) :
    routeKey (unquote (readPrefix ++ segment)) =
      if unquote segment = [] ∨ '/' ∈ unquote segment then none else some (unquote segment) := by
  have hhead : unquote (readPrefix ++ segment) = readPrefix ++ unquote segment := by
    simp [unquote, readPrefix, unquoteFrom, utf8Replace]
  rw [hhead, routeKey]
  simp

/-- A safe key is looked up as itself by every peer. -/
theorem lookupKey_of_urlSafe (http : HttpClient) {node : Node} {key : String}
    (haddress : node.Addressable) (hadmitted : Admitted key) (hsafe : UrlSafe key) :
    lookupKey http node key = .ok (some key) := by
  obtain ⟨hplain, hdot, hdots, hescape⟩ := hsafe
  have hwhole : beforeQuery key.toList = key.toList :=
    beforeQuery_eq_self_iff.mpr fun char hmem => (hplain char hmem).2
  have hne : key.toList ≠ [] := fun hnil => hadmitted.1 (String.toList_eq_nil_iff.mp hnil)
  have hdot' : key.toList ≠ ['.'] := fun heq => hdot (String.toList_inj.mp heq)
  have hdots' : key.toList ≠ ['.', '.'] := fun heq => hdots (String.toList_inj.mp heq)
  rw [lookupKey_of_printable http haddress fun char hmem => (hplain char hmem).1, hwhole,
    removeDotSegments_readPrefix hadmitted.2, if_neg hdot', if_neg hdots',
    routeKey_unquote_readPrefix, unquote_eq_self_iff.mpr hescape,
    if_neg (by simp [hne, hadmitted.2]), Option.map_some, String.ofList_toList]

end KvReplication.Leaderless
