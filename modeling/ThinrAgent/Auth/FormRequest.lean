import ThinrAgent.Std.FormUrlencoded

/-!
# `ThinrAgent.Auth.FormRequest`: requests with a form

`make_http_request_form` of `auth/auth_manager.cpp`, its fallback without verification, the errors
of a login, and the fields of the password login. A field is a pair of byte strings. The HTTP client
is a parameter: it answers a request or fails with a text.
-/

set_option autoImplicit false

namespace ThinrAgent

open FormUrlencoded (amp eq plus space)

/-- The map of the fields of a form, in the order of their names. -/
structure FormData where
  fields : List (Bytes × Bytes)
  nodup : (fields.map Prod.fst).Nodup

/-- What the client is asked to post: the address, the body and its type, the credentials, and
whether certificates are verified. -/
structure FormRequest where
  url : String
  body : Bytes
  contentType : String
  authorization : Option String
  verifySsl : Bool
  deriving DecidableEq

/-- A response of the server. The wrapper sets `success` when the response has arrived. -/
structure HttpResponse where
  statusCode : Int
  body : String
  success : Bool := false
  deriving DecidableEq

/-- `std::replace` of spaces by `+`, on one byte of the encoded text. -/
def spaceToPlus (b : UInt8) : UInt8 := if b = space then plus else b

/-- The loop over the fields: the body so far, and whether the next field is the first. -/
def formBodyLoop : List (Bytes × Bytes) → Bytes → Bool → Bytes
  | [], body, _ => body
  | (key, value) :: rest, body, first =>
    let body := if first then body else body ++ [amp]
    let encodedKey := key
    let encodedValue := value.map spaceToPlus
    formBodyLoop rest (body ++ (encodedKey ++ eq :: encodedValue)) false

/-- The request that is posted for a form. Without an authorization the header is left out
altogether. -/
def formRequest (url : String) (formData : FormData) (authorization : String) (verifySsl : Bool) :
    FormRequest where
  url := url
  body := formBodyLoop formData.fields [] true
  contentType := "application/x-www-form-urlencoded"
  authorization := if authorization = "" then none else some authorization
  verifySsl := verifySsl

/-- `make_http_request_form`: one `POST` with the form. Every failure is an exception with a
text. -/
def makeHttpRequestForm (client : FormRequest → Except String HttpResponse) (url method : String)
    (formData : FormData) (authorization : String) (verifySsl : Bool) :
    Except String HttpResponse :=
  if method = "POST" then
    match client (formRequest url formData authorization verifySsl) with
    | .ok res => .ok { res with success := true }
    | .error e => .error ("HTTP request failed: " ++ e)
  else .error ("Unsupported HTTP method for form data: " ++ method)

/-- What can go wrong in a request to the server. -/
inductive AuthError where
  | none
  | invalidCredentials
  | accessDenied
  | notFound
  | networkError
  | tokenExpired
  | userDenied
  | timeout
  | invalidResponse
  | serverError
  | sslError
  deriving DecidableEq, Repr

/-- `msg.find(text) != npos`: the text stands somewhere in the message, with the same case. -/
def hasText (msg text : String) : Bool := text.toList <:+: msg.toList

/-- `classify_exception`: the kind of an error, by the words in the text of the exception. A text
without such a word counts as a network error. -/
def classifyException (msg : String) : AuthError :=
  if hasText msg "SSL" || hasText msg "TLS" || hasText msg "certificate" ||
      hasText msg "handshake" || hasText msg "verification failed" then .sslError
  else if hasText msg "timeout" || hasText msg "Timeout" then .timeout
  else .networkError

/-- `map_status_to_error`: the kind of error behind a status. -/
def mapStatusToError (statusCode : Int) : AuthError :=
  if statusCode = 401 then .invalidCredentials
  else if statusCode = 403 then .accessDenied
  else if statusCode = 404 then .notFound
  else if 500 ≤ statusCode then .serverError
  else .networkError

/-- `ensure_https`: a host without a scheme gets `https://` in front of it. Any scheme that is given
is kept, also an insecure one. -/
def ensureHttps (host : String) : String := if hasText host "://" then host else "https://" ++ host

/-- `make_http_request_form_with_fallback`. The callback may accept an insecure connection. -/
def makeHttpRequestFormWithFallback (client : FormRequest → Except String HttpResponse)
    (callback : Option (String → Bool)) (url method : String) (formData : FormData)
    (authorization : String) : Except String HttpResponse :=
  match makeHttpRequestForm client url method formData authorization true with
  | .ok response => .ok response
  | .error e =>
    if classifyException e ≠ .sslError then .error e
    else
      match callback with
      | some accepts =>
        if accepts e then makeHttpRequestForm client url method formData authorization false
        else .error ("SSL verification failed and insecure connection was not allowed: " ++ e)
      | none => .error e

/-- A response that arrives is marked as a success. -/
theorem success_makeHttpRequestForm {client : FormRequest → Except String HttpResponse}
    {url method authorization : String} {formData : FormData} {verifySsl : Bool}
    {response : HttpResponse}
    (h : makeHttpRequestForm client url method formData authorization verifySsl = .ok response) :
    response.success = true := by
  unfold makeHttpRequestForm at h
  split at h
  · split at h
    · cases h; rfl
    · cases h
  · cases h

/-- A response that comes out of the wrapper has arrived, at the first request or at the repeat. -/
theorem success_makeHttpRequestFormWithFallback
    {client : FormRequest → Except String HttpResponse} {callback : Option (String → Bool)}
    {url method authorization : String} {formData : FormData} {response : HttpResponse}
    (h : makeHttpRequestFormWithFallback client callback url method formData authorization =
      .ok response) : response.success = true := by
  unfold makeHttpRequestFormWithFallback at h
  split at h
  · next hrequest => cases h; exact success_makeHttpRequestForm hrequest
  · split at h
    · cases h
    · split at h
      · split at h
        · exact success_makeHttpRequestForm h
        · cases h
      · cases h

/-- The bytes of a text of the source. -/
def ascii (text : String) : Bytes := text.toList.map fun c => UInt8.ofNat c.toNat

/-- The form of `oauth_password_flow`. The fields stand in the order of the map, which is by
name. -/
def oauthPasswordForm (username password : Bytes) : FormData where
  fields := [(ascii "grant_type", ascii "password"), (ascii "password", password),
    (ascii "username", username)]
  nodup := by
    show [ascii "grant_type", ascii "password", ascii "username"].Nodup
    decide

end ThinrAgent
