import KvReplication.Common.Json

/-! # Replies of the replication client

What one request through the shared HTTP client gives back to the coroutine that
awaits it: building the request may fail, the peer may do anything, and the body of
its response may not be what was asked for.
-/

namespace KvReplication

/-- One request to a peer: an exception of the client library, or a status with
the validated body (or the exception that parsing or validating it raises). -/
abbrev Reply (Body : Type) := Except PyError (Nat × Except PyError Body)

/-- `raise_for_status` accepts the 2xx statuses. -/
def isSuccess (status : Nat) : Bool := 200 ≤ status ∧ status < 300

/-- The reply a route's answer makes: the body survives its trip as JSON. -/
def replyOf {Body : Type} : Except HttpException Body → Reply Body
  | .error exception => .ok (exception.statusCode, .error .validationError)
  | .ok body => .ok (200, .ok body)

/-- The request for `url`, with a JSON body if there is one. -/
def buildRequest (validUrl : String → Bool) (url : String) (body : Option Json) :
    Except PyError Unit :=
  if validUrl url then
    match body with
    | none => .ok ()
    | some value => value.encode
  else
    .error .invalidUrl

/-- What a contacted peer can do to a request. -/
inductive PeerBehaviour where
  /-- Any `httpx.HTTPError` of the transport. -/
  | httpError
  | responds (status : Nat) (content : List UInt8)

section Exchange

variable {Body : Type}

/-- `Model.model_validate(resp.json())`. -/
def parseBody (loads : List UInt8 → Except PyError Json) (modelValidate : Json → Option Body)
    (content : List UInt8) : Except PyError Body :=
  match loads content with
  | .error error => .error error
  | .ok value =>
      match modelValidate value with
      | none => .error .validationError
      | some body => .ok body

/-- One awaited request; a request that cannot be built reaches no peer. -/
def exchange (request : Except PyError Unit) (parse : List UInt8 → Except PyError Body)
    (behaviour : PeerBehaviour) : Reply Body :=
  match request with
  | .error error => .error error
  | .ok () =>
      match behaviour with
      | .httpError => .error .httpError
      | .responds status content => .ok (status, parse content)

/-- The exceptions of a body that the coroutines count as a malformed response. -/
def MalformedBody (error : PyError) : Prop := error = .jsonDecodeError ∨ error = .validationError

theorem exists_error_iff {Result : Type} {outcome : Except PyError Result} :
    (∃ error, outcome = .error error) ↔ ¬ ∃ result, outcome = .ok result := by
  cases outcome <;> simp

/-- The `try` around the parsing of a response body. -/
def parsedOr {Body Result : Type} (failed : Result) (counted : Body → Result) :
    Except PyError Body → Except PyError Result
  | .error .jsonDecodeError => .ok failed
  | .error .validationError => .ok failed
  | .error error => .error error
  | .ok body => .ok (counted body)

theorem parsedOr_ok_iff {Body Result : Type} {failed : Result} {counted : Body → Result}
    {body : Except PyError Body} :
    (∃ result, parsedOr failed counted body = .ok result) ↔
      ∀ error, body = .error error → MalformedBody error := by
  cases body with
  | error error => cases error <;> simp [parsedOr, MalformedBody]
  | ok body => simp [parsedOr]

/-- The exceptions the coroutines name cover whatever this reply raises, given the
statuses on which they parse the body. -/
def Reply.Handled (parses : Nat → Prop) : Reply Body → Prop
  | .error error => error = .httpError
  | .ok (status, body) => parses status → ∀ error, body = .error error → MalformedBody error

/-- A body that is parsed can be loaded, or at least decoded: loading it raises
nothing but what the coroutines name. -/
def PeerBehaviour.Readable (loads : List UInt8 → Except PyError Json) (parses : Nat → Prop) :
    PeerBehaviour → Prop
  | .httpError => True
  | .responds status content => parses status →
      ∀ error, loads content = .error error → MalformedBody error

/-- Validation adds no exception of its own to those of loading. -/
theorem parseBody_malformed_iff {loads : List UInt8 → Except PyError Json}
    {modelValidate : Json → Option Body} {content : List UInt8} :
    (∀ error, parseBody loads modelValidate content = .error error → MalformedBody error) ↔
      ∀ error, loads content = .error error → MalformedBody error := by
  cases hloads : loads content with
  | error error => simp [parseBody, hloads]
  | ok value =>
      cases hvalid : modelValidate value <;> simp [parseBody, hloads, hvalid, MalformedBody]

/-- A call's exceptions are all named exactly if its request can be built and the
peer's response can be read. -/
theorem exchange_handled_iff {loads : List UInt8 → Except PyError Json}
    {modelValidate : Json → Option Body} {parses : Nat → Prop} {validUrl : String → Bool}
    {url : String} {body : Option Json} {behaviour : PeerBehaviour} :
    (exchange (buildRequest validUrl url body) (parseBody loads modelValidate)
        behaviour).Handled parses ↔
      validUrl url = true ∧ (∀ value, body = some value → value.Encodable) ∧
        behaviour.Readable loads parses := by
  have hresponse : (exchange (.ok ()) (parseBody loads modelValidate) behaviour).Handled parses ↔
      behaviour.Readable loads parses := by
    cases behaviour with
    | httpError => simp [exchange, Reply.Handled, PeerBehaviour.Readable]
    | responds status content =>
        simp only [exchange, Reply.Handled, PeerBehaviour.Readable, parseBody_malformed_iff]
  unfold buildRequest
  by_cases hurl : validUrl url = true
  · simp only [hurl, true_and]
    cases body with
    | none => simpa using hresponse
    | some value =>
        simp only [Option.some.injEq, forall_eq', ← Json.encode_eq_ok_iff]
        cases hencode : value.encode with
        | ok _ => simpa using hresponse
        | error error =>
            have hnot : error ≠ .httpError := by
              rintro rfl
              exact Json.encode_ne_httpError hencode
            simp [exchange, Reply.Handled, hnot]
  · simp [hurl, exchange, Reply.Handled]

end Exchange

end KvReplication
