import Atlas.Lib.Base64
import Atlas.Lib.Binary64
import Atlas.Lib.Json

/-!
# Session tokens

A session token is a body and its signature with a dot between them: the Base64 of a JSON
document that names the user and the expiry, and the Base64 of the body's HMAC-SHA256.  The
backend and the front end share the secret and each verify a token on their own.

The backend compares the signature as a text; its Base64 decoder is the lenient one, its JSON
reader takes the encoding from the first bytes, and its integers are exact.  The front end
compares the signature as bytes; its Base64 decoder is the forgiving one, its text is always
UTF-8, and its numbers are of double precision.

## Main definitions

* `Shared` — the secret, as the function it makes of HMAC-SHA256, and the clock.
* `Backend.verifySessionToken` — `verify_session_token` of the backend.
* `Frontend.verifySessionToken` — `verifySessionToken` of the front end.

## Main results

* `Backend.parse_ne_noFuel`, `Frontend.parse_ne_noFuel` — **both readers have the fuel for every
  text**.

## References

`app/auth/tokens.py`, `frontend/lib/auth.ts`.
-/

namespace Atlas.Auth

open Json Binary64

/-- The 32 bytes of an HMAC-SHA256. -/
abbrev Digest := {data : List UInt8 // data.length = 32}

/-- What both sides share: the HMAC-SHA256 of a text in UTF-8 with the secret, and the time in
whole seconds. -/
structure Shared where
  hmac : List Char → Digest
  now : ℤ

/-- The text up to the first dot. -/
def beforeDot (text : List Char) : List Char := text.takeWhile (· ≠ '.')

/-- The text after the first dot. -/
def afterDot (text : List Char) : List Char := (text.dropWhile (· ≠ '.')).tail

/-! ### The backend -/

namespace Backend

/-- The exceptions of the backend, as far as they are told apart. -/
inductive PyException
  | valueError
  | typeError
  | attributeError
  | recursionError
  deriving DecidableEq, Repr

/-- An integer, a float, or the float that is no number. -/
inductive PyNumber
  | int (z : ℤ)
  | float (x : Number)
  | nan
  deriving DecidableEq

/-- The limits of the interpreter: the digits of an integer it reads, and the containers that
may be open in each other. -/
structure Limits where
  maxStrDigits : Option ℕ
  recursion : ℕ

/-- The JSON of the backend. -/
def Limits.dialect (limits : Limits) : Dialect PyNumber where
  number l :=
    if l.IsInteger then
      if limits.maxStrDigits.any (· < l.whole.length) then .error .tooManyDigits
      else .ok (.int l.integer)
    else .ok (.float (round l.value))
  constant
    | .nan => some .nan
    | .infinity => some (.float (.infinite false))
    | .negativeInfinity => some (.float (.infinite true))
  maxDepth := some limits.recursion

inductive Encoding
  | utf8
  | utf16 (bigEndian : Bool)
  | utf32 (bigEndian : Bool)
  deriving DecidableEq, Repr

/-- `detect_encoding`: the encoding of the bytes, and the bytes after the mark of it. -/
def detectEncoding (data : List UInt8) : Encoding × List UInt8 :=
  match data with
  | 0x00 :: 0x00 :: 0xFE :: 0xFF :: rest => (.utf32 true, rest)
  | 0xFF :: 0xFE :: 0x00 :: 0x00 :: rest => (.utf32 false, rest)
  | 0xFE :: 0xFF :: rest => (.utf16 true, rest)
  | 0xFF :: 0xFE :: rest => (.utf16 false, rest)
  | 0xEF :: 0xBB :: 0xBF :: rest => (.utf8, rest)
  | a :: b :: c :: d :: _ =>
      if a = 0 then (if b = 0 then .utf32 true else .utf16 true, data)
      else if b = 0 then (if c = 0 ∧ d = 0 then .utf32 false else .utf16 false, data)
      else (.utf8, data)
  | [a, b] => (if a = 0 then .utf16 true else if b = 0 then .utf16 false else .utf8, data)
  | _ => (.utf8, data)

/-- The code points of the bytes, with surrogates passed. -/
def Encoding.decode (data : List UInt8) : Encoding → Option (List ℕ)
  | .utf8 => (Unicode.utf8 true data).mapM id
  | .utf16 bigEndian => Unicode.utf16 bigEndian data
  | .utf32 bigEndian => Unicode.utf32 bigEndian data

/-- `json.loads` of a text. -/
def Limits.loadsText (limits : Limits) (text : List ℕ) : Except PyException (Value PyNumber) :=
  match parse limits.dialect text with
  | .ok payload => .ok payload
  | .error .tooDeep => .error .recursionError
  | .error _ => .error .valueError

/-- `json.loads` of bytes. -/
def Limits.loads (limits : Limits) (data : List UInt8) : Except PyException (Value PyNumber) :=
  match (detectEncoding data).1.decode (detectEncoding data).2 with
  | none => .error .valueError
  | some text => limits.loadsText text

def isAscii (c : Char) : Bool := c.toNat < 0x80

/-- `_b64url_decode` -/
def b64urlDecode (value : List Char) : Except PyException (List UInt8) :=
  if value.all isAscii then
    match Base64.lenientDecode ((value ++ Base64.padding value.length).map Base64.standard) with
    | some data => .ok data
    | none => .error .valueError
  else .error .valueError

/-- `_sign` -/
def sign (shared : Shared) (body : List Char) : List Char := Base64.encodeUrl (shared.hmac body).1

/-- `hmac.compare_digest` of two texts. -/
def compareDigest (a b : List Char) : Except PyException Bool :=
  if a.all isAscii ∧ b.all isAscii then .ok (a = b) else .error .typeError

/-- The document in a body. -/
def payload (limits : Limits) (body : List Char) : Except PyException (Value PyNumber) :=
  match b64urlDecode body with
  | .ok data => limits.loads data
  | .error e => .error e

/-- A member of a dictionary, which is null if there is none. -/
def get (name : String) (members : List (List ℕ × Value PyNumber)) : Value PyNumber :=
  (member? (codes name) members).getD .null

/-- The value counts as true. -/
def Truthy : Value PyNumber → Prop
  | .null => False
  | .bool b => b = true
  | .number (.int z) => z ≠ 0
  | .number (.float x) => ¬x.Is 0
  | .number .nan => True
  | .string text => text ≠ []
  | .array elements => elements ≠ []
  | .object members => members ≠ []

instance : DecidablePred Truthy
  | .null => inferInstanceAs (Decidable False)
  | .bool b => inferInstanceAs (Decidable (b = true))
  | .number (.int z) => inferInstanceAs (Decidable (z ≠ 0))
  | .number (.float x) => inferInstanceAs (Decidable (¬x.Is 0))
  | .number .nan => inferInstanceAs (Decidable True)
  | .string text => inferInstanceAs (Decidable (text ≠ []))
  | .array [] => isFalse fun h => h rfl
  | .array (_ :: _) => isTrue fun h => nomatch h
  | .object [] => isFalse fun h => h rfl
  | .object (_ :: _) => isTrue fun h => nomatch h

/-- The value as an integer, if it is an instance of one; a truth value is. -/
def int? : Value PyNumber → Option ℤ
  | .number (.int z) => some z
  | .bool b => some b.toInt
  | _ => none

/-- What the backend returns of a token. -/
structure Session where
  username : Value PyNumber
  exp : Value PyNumber

/-- The session of a user and an expiry. -/
def session? (now : ℤ) (username exp : Value PyNumber) : Option Session :=
  match int? exp with
  | none => none
  | some z => if ¬Truthy username ∨ z < now then none else some { username := username, exp := exp }

/-- `verify_session_token` -/
def verifySessionToken (shared : Shared) (limits : Limits) (token : Option (List Char)) :
    Except PyException (Option Session) :=
  match token with
  | none => .ok none
  | some token =>
      if token = [] ∨ '.' ∉ token then .ok none
      else
        -- `split` at the first dot; the others are part of the signature
        let body := beforeDot token
        let signature := afterDot token
        match compareDigest signature (sign shared body) with
        | .error e => .error e
        | .ok false => .ok none
        | .ok true =>
            match payload limits body with
            | .error .valueError => .ok none
            | .error e => .error e
            | .ok (.object members) =>
                .ok (session? shared.now (get "username" members) (get "exp" members))
            -- nothing but a dictionary has a `get`
            | .ok _ => .error .attributeError

/-- **The reader of the backend has the fuel for every text.** -/
theorem parse_ne_noFuel (limits : Limits) (text : List ℕ) :
    parse limits.dialect text ≠ .error .noFuel := by
  refine Json.parse_ne_noFuel (fun l => ?_) text
  simp only [Limits.dialect]
  split_ifs
  · exact fun h => nomatch h
  · exact fun h => nomatch h
  · exact fun h => nomatch h

end Backend

/-! ### The front end -/

namespace Frontend

/-- The JSON of the front end. -/
def dialect : Dialect Number where
  number l := .ok (round l.value)
  constant _ := none
  maxDepth := none

/-- `base64urlDecode`: a character out of the alphabet fails, whatever padding it is given. -/
def base64urlDecode (value : List Char) : Option (List UInt8) :=
  let padded := value.map Base64.standard
  Base64.forgivingDecode (padded ++ Base64.padding padded.length)

/-- The text decoder: it drops the mark of UTF-8, and replaces the errors. -/
def decode (data : List UInt8) : List ℕ :=
  let data :=
    match data with
    | 0xEF :: 0xBB :: 0xBF :: rest => rest
    | _ => data
  (Unicode.utf8 false data).map (·.getD 0xFFFD)

/-- The document in a body; a failure is caught. -/
def payload (body : List Char) : Option (Value Number) :=
  (base64urlDecode body).bind fun data => (parse dialect (decode data)).toOption

/-- A property of a value.  One that is absent is as good as null here: neither is a user or a
number, and the failure to read one of null is caught. -/
def property (name : String) : Value Number → Value Number
  | .object members => (member? (codes name) members).getD .null
  | _ => .null

/-- The value counts as true. -/
def Truthy : Value Number → Prop
  | .null => False
  | .bool b => b = true
  | .number x => ¬x.Is 0
  | .string text => text ≠ []
  | .array _ => True
  | .object _ => True

instance : DecidablePred Truthy
  | .null => inferInstanceAs (Decidable False)
  | .bool b => inferInstanceAs (Decidable (b = true))
  | .number x => inferInstanceAs (Decidable (¬x.Is 0))
  | .string text => inferInstanceAs (Decidable (text ≠ []))
  | .array _ => inferInstanceAs (Decidable True)
  | .object _ => inferInstanceAs (Decidable True)

/-- `Session` -/
structure Session where
  username : Value Number
  exp : Number

/-- The session of a user and an expiry. -/
def session? (now : ℤ) (username exp : Value Number) : Option Session :=
  match exp with
  | .number x =>
      if ¬Truthy username ∨ x.Below now then none else some { username := username, exp := x }
  | _ => none

/-- `verifySessionToken` -/
def verifySessionToken (shared : Shared) (token : Option (List Char)) : Option Session :=
  match token with
  | none => none
  | some token =>
      match token.splitOn '.' with
      | body :: signature :: _ =>
          if body = [] ∨ signature = [] then none
          else if base64urlDecode signature ≠ some (shared.hmac body).1 then none
          else
            (payload body).bind fun payload =>
              session? shared.now (property "username" payload) (property "exp" payload)
      | _ => none

/-- **The reader of the front end has the fuel for every text.** -/
theorem parse_ne_noFuel (text : List ℕ) : parse dialect text ≠ .error .noFuel :=
  Json.parse_ne_noFuel (fun l => by simp [dialect]) text

end Frontend

end Atlas.Auth
