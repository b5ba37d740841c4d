import TokenForge.Base64.Encoding
import TokenForge.Hash.Hmac
import TokenForge.Json.Dump
import TokenForge.Log.Logged
import TokenForge.Text.Record
import TokenForge.Token.Payload

/-!
# Tokens whose payload is not encoded

The header says `"b64":false` and the payload follows as raw JSON text, dots and all. The parts are
joined by dots, and the last part is the keyed hash of all that comes before its dot.

* `Unencoded.signingInput` — the header and the payload;
* `Unencoded.build` — the token of a payload and a secret;
* `Unencoded.Options` — what a token is made of, and `Unencoded.Options.dump`, which hides the
  secret.
-/

namespace TokenForge.Unencoded

open Json (Value)

/-- The header of every such token. -/
def header : Value :=
  .object [("alg", .string "HS256"), ("typ", .string "JWT"), ("b64", .bool false)]

/-- What is signed: the encoded header and the payload as it is. -/
def signingInput (payload : Value) : String :=
  String.ofList
    (Base64.encode Base64.urlSafe (Utf8.encode header.chars) ++ '.' :: payload.chars)

/-- The encoded keyed hash of a text. -/
def signature (secret input : String) : String :=
  String.ofList (Base64.encode Base64.urlSafe (hmacSha256 (utf8 secret) (utf8 input)))

def target : String := "jwt_fixtures::core::unencoded"

def signedEvent (input : String) : Log.Event where
  level := .debug
  target := target
  message := "signed unencoded-payload token with HS256"
  fields := [("signing_input_len", Log.count input.utf8ByteSize)]

/-- **The token of a payload and a secret.** The payload is checked before the secret. -/
def build (payload : Value) (secret : String) : Logged String := do
  Logged.of (Payload.check payload)
  if secret.isEmpty then Logged.of (.error .emptySecret)
  let input := signingInput payload
  Logged.emit (signedEvent input)
  return input ++ "." ++ signature secret input

/-! ### Options -/

/-- What a token is made of. -/
structure Options where
  payload : Value :=
    .object [("sub", .string "1234567890"), ("name", .string "John Doe"),
      ("exp", .ofWhole { val := 2000000000 }), ("admin", .bool false)]
  secret : String := "secret"

def Options.build (o : Options) : Logged String := Unencoded.build o.payload o.secret

/-- **The dump of some options.** It is the same for every secret. -/
def Options.dump (o : Options) : String :=
  Text.record "UnencodedTokenOptions" [("payload", o.payload.dump), ("secret", Text.redacted)]

end TokenForge.Unencoded
