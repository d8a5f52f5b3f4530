import CryptoAlert.Notifications.Worker

/-!
# The Bark adapter

The adapter posts a message and classifies what the HTTP client raises or the provider answers. A
reply is what the adapter sees of that exchange, with headers and body as they parse.
-/

namespace CryptoAlert

/-- The exceptions of the HTTP client. -/
inductive HttpError where
  | connectTimeout | poolTimeout | readTimeout | writeTimeout | timeoutException
  | connectError | readError | writeError | closeError | localProtocolError
  | remoteProtocolError | proxyError | unsupportedProtocol
  /-- An exception of the client that is no `TransportError`. -/
  | requestError (typeName : String)
deriving DecidableEq, Repr

namespace HttpError

/-- The subclasses of `TransportError`. -/
def isTransport : HttpError → Bool
  | requestError _ => false
  | _ => true

/-- The subclasses of `TimeoutException`. -/
def isTimeout : HttpError → Bool
  | connectTimeout | poolTimeout | readTimeout | writeTimeout | timeoutException => true
  | _ => false

/-- The exceptions that can only arise before the request is written. -/
def isUnwritten : HttpError → Bool
  | connectTimeout | poolTimeout | connectError => true
  | _ => false

end HttpError

/-- A `Retry-After` header, as it parses. -/
inductive RetryAfter where
  | seconds (n : ℤ)
  | date (instant : ℕ)
  | unreadable
deriving DecidableEq

/-- `_retry_after_seconds`, for a header that is there. -/
def RetryAfter.bounded (now : ℕ) : RetryAfter → Option ℤ
  | seconds n => some (max 0 (min n 86400))
  | date instant => some (min ((instant - now) / 1000000 : ℕ) 86400)
  | unreadable => none

inductive BarkTimestamp where
  | number (n : ℤ)
  | text (s : String)
deriving DecidableEq

/-- `_BarkResponse`. -/
structure BarkBody where
  code : ℤ
  timestamp : Option BarkTimestamp
deriving DecidableEq

structure BarkResponse where
  statusCode : ℕ
  retryAfter : Option RetryAfter
  requestId : Option String
  /-- The body, if it validates. -/
  body : Option BarkBody
deriving DecidableEq

/-- What `send` sees. -/
inductive BarkReply where
  /-- The failure that the test scenario injects. -/
  | injected
  | raised (error : HttpError)
  /-- Any other exception in `send`. -/
  | failed (typeName : String)
  | response (r : BarkResponse) (now : ℕ)

/-- The codes after which a provider is asked again. -/
def isBusy (code : ℤ) : Bool := code == 429 || 500 ≤ code

/-- `str` of a timestamp. -/
def BarkTimestamp.toText : BarkTimestamp → String
  | number n => toString n
  | text s => s

/-- `_bark_timestamp_receipt`; `isDigit` is the class of `str.isdigit`. -/
def timestampReceipt (isDigit : Char → Bool) (timestamp : BarkTimestamp) : Option String :=
  let normalized := stripSpace timestamp.toText
  if normalized.isEmpty || !normalized.toList.all isDigit || 20 < normalized.length then none
  else some ("bark:" ++ normalized)

/-- The receipt of a response. -/
def BarkResponse.receipt (isDigit : Char → Bool) (r : BarkResponse) (body : BarkBody) :
    Option String :=
  match r.requestId with
  | some id => if id.isEmpty then body.timestamp.bind (timestampReceipt isDigit) else some id
  | none => body.timestamp.bind (timestampReceipt isDigit)

/-- The second half of `send`. -/
def BarkResponse.classify (isDigit : Char → Bool) (r : BarkResponse) (now : ℕ) :
    Except SendFailure DeliveryResult :=
  let retryAfter := r.retryAfter.bind (RetryAfter.bounded now)
  if isBusy r.statusCode then
    .ok (.retryable ("bark_http_" ++ toString r.statusCode) retryAfter)
  else if ¬ (200 ≤ r.statusCode ∧ r.statusCode < 300) then
    .ok (.terminal ("bark_http_" ++ toString r.statusCode))
  else
    match r.body with
    | none => .error .uncertain
    | some body =>
        if isBusy body.code then .ok (.retryable ("bark_code_" ++ toString body.code) retryAfter)
        else if body.code ≠ 200 then .ok (.terminal ("bark_code_" ++ toString body.code))
        else
          match r.receipt isDigit body with
          | none => .error .uncertain
          | some receipt => .ok (.ofReceipt receipt)

/-- `send`, by its `except` clauses in their order. -/
def BarkReply.send (isDigit : Char → Bool) : BarkReply → Except SendFailure DeliveryResult
  | injected => .ok (.retryable "injected_notification_failure" none)
  | raised .connectTimeout | raised .poolTimeout =>
      .ok (.retryable "bark_connection_timeout" none)
  | raised (.requestError typeName) => .error (.exception typeName)
  | raised error =>
      if error.isTimeout then .error .uncertain
      else .ok (.retryable "bark_transport_error" none)
  | failed typeName => .error (.exception typeName)
  | response r now => r.classify isDigit now

def BarkReply.isUnwritten : BarkReply → Bool
  | injected => true
  | raised error => error.isUnwritten
  | failed _ | response _ _ => false

def barkAdapter (isDigit : Char → Bool) : NotificationAdapter BarkReply where
  send := BarkReply.send isDigit
  unwritten := BarkReply.isUnwritten

/-- The replies after which a message is sent again although its request may have been written:
a transport error that is no timeout, any other exception, and a busy code. -/
def BarkReply.Repeats : BarkReply → Prop
  | injected => False
  | raised error => error.isTimeout = false ∧ error.isUnwritten = false
  | failed _ => True
  | response r _ => isBusy r.statusCode ∨
      (200 ≤ r.statusCode ∧ r.statusCode < 300 ∧ ∃ body ∈ r.body, isBusy body.code)

def Exchange.Repeats : Exchange BarkReply → Prop
  | replied reply => reply.Repeats
  | unconfigured | unresolved _ | timedOut | cancelled => False

/-- An answer that asks for another attempt comes before the request or repeats it. -/
theorem repeats_of_retryable {isDigit : Char → Bool} {reply : BarkReply} {result : DeliveryResult}
    (h : (barkAdapter isDigit).send reply = .ok result) (hretry : result.outcome = .retryable) :
    reply.isUnwritten ∨ reply.Repeats := by
  cases reply with
  | injected => exact .inl rfl
  | raised error =>
      cases error <;> first
        | exact .inl rfl
        | exact .inr ⟨rfl, rfl⟩
        | cases h
  | failed typeName => exact .inr trivial
  | response r now =>
      right
      change r.classify isDigit now = .ok result at h
      rw [BarkResponse.classify] at h
      split_ifs at h with hbusy hstatus
      · exact .inl hbusy
      · cases hbody : r.body with
        | none =>
            rw [hbody] at h
            cases h
        | some body =>
            rw [hbody] at h
            dsimp only at h
            split_ifs at h with hcode hok
            · exact .inr ⟨hstatus.1, hstatus.2, body, hbody, hcode⟩
            · cases h
              cases hretry
            · cases hreceipt : r.receipt isDigit body with
              | none =>
                  rw [hreceipt] at h
                  cases h
              | some receipt =>
                  rw [hreceipt] at h
                  cases h
                  cases hretry
      · cases h
        cases hretry

theorem repeats_of_exception {isDigit : Char → Bool} {reply : BarkReply} {typeName : String}
    (h : (barkAdapter isDigit).send reply = .error (.exception typeName)) : reply.Repeats := by
  cases reply with
  | injected => cases h
  | raised error =>
      cases error <;> first
        | exact ⟨rfl, rfl⟩
        | cases h
  | failed typeName => trivial
  | response r now =>
      change r.classify isDigit now = _ at h
      rw [BarkResponse.classify] at h
      split_ifs at h
      cases hbody : r.body with
      | none =>
          rw [hbody] at h
          cases h
      | some body =>
          rw [hbody] at h
          dsimp only at h
          split_ifs at h
          cases hreceipt : r.receipt isDigit body <;> (rw [hreceipt] at h; cases h)

end CryptoAlert
