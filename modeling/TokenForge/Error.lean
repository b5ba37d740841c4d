import TokenForge.Text.Record

/-!
# Why a token is not built

Every cause for which no token comes out, once the command line is understood. The texts inside a
cause say where it lies; they come from the faults of the reader concerned.

* `Error.message` — the wording, one line of a diagnostic;
* `Error.dump` — the cause as a record.
-/

namespace TokenForge

/-- A cause for which no token is built. -/
inductive Error where
  /-- The payload is a JSON value of another kind than an object. -/
  | payloadNotObject (kind : String)
  | invalidPayload (reason : String)
  /-- A segment of the token could not be written. -/
  | unwritable (segment reason : String)
  | emptySecret
  /-- The environment holds no text under this name. -/
  | variableNotSet (name : String)
  | certificateUnread (path reason : String)
  /-- A certificate file holds no armored block that can be decoded. -/
  | certificateUndecoded (source reason : String)
  /-- The first armored block of a certificate file is no certificate. -/
  | notCertificate (source label : String)
  | emptyChain
  | keyUnread (path reason : String)
  /-- The key file holds no private key of the curve. -/
  | invalidKey (reason : String)
  /-- No signature was made. -/
  | unsigned (reason : String)
  deriving DecidableEq, Repr

namespace Error

/-- **The wording of a cause.** -/
def message : Error → String
  | .payloadNotObject kind => "payload must be a JSON object, got " ++ kind
  | .invalidPayload reason => "failed to parse payload as JSON: " ++ reason
  | .unwritable segment reason => "failed to serialize " ++ segment ++ ": " ++ reason
  | .emptySecret => "HMAC secret must not be empty"
  | .variableNotSet name => "environment variable '" ++ name ++ "' is not set"
  | .certificateUnread path reason =>
    "failed to read certificate file '" ++ path ++ "': " ++ reason
  | .certificateUndecoded source reason =>
    "failed to decode PEM from '" ++ source ++ "': " ++ reason
  | .notCertificate source label =>
    "expected a CERTIFICATE PEM block in '" ++ source ++ "', found '" ++ label ++ "'"
  | .emptyChain => "x5c certificate chain must contain at least one certificate"
  | .keyUnread path reason => "failed to read key file '" ++ path ++ "': " ++ reason
  | .invalidKey reason => "invalid ES256 signing key: " ++ reason
  | .unsigned reason => "failed to sign token: " ++ reason

/-- The name under which a cause is dumped and reported. -/
def name : Error → String
  | .payloadNotObject _ => "PayloadNotObject"
  | .invalidPayload _ => "InvalidPayload"
  | .unwritable _ _ => "SerializationError"
  | .emptySecret => "EmptySecret"
  | .variableNotSet _ => "EnvVarNotFound"
  | .certificateUnread _ _ => "CertificateFileError"
  | .certificateUndecoded _ _ => "PemDecodeError"
  | .notCertificate _ _ => "UnexpectedPemLabel"
  | .emptyChain => "EmptyChain"
  | .keyUnread _ _ => "KeyFileError"
  | .invalidKey _ => "InvalidSigningKey"
  | .unsigned _ => "SigningFailed"

/-- The named texts of a cause. -/
def fields : Error → List (String × String)
  | .payloadNotObject kind => [("kind", kind)]
  | .invalidPayload reason => [("reason", reason)]
  | .unwritable segment reason => [("segment", segment), ("reason", reason)]
  | .emptySecret | .emptyChain => []
  | .variableNotSet name => [("name", name)]
  | .certificateUnread path reason => [("path", path), ("reason", reason)]
  | .certificateUndecoded source reason => [("source_name", source), ("reason", reason)]
  | .notCertificate source label => [("source_name", source), ("label", label)]
  | .keyUnread path reason => [("path", path), ("reason", reason)]
  | .invalidKey reason => [("reason", reason)]
  | .unsigned reason => [("reason", reason)]

def dump (e : Error) : String :=
  Text.record e.name (e.fields.map fun f => (f.1, Text.quote f.2))

end Error

end TokenForge
