import TokenForge.Base64.Encoding
import TokenForge.Disk.File
import TokenForge.Log.Logged
import TokenForge.Pem.Lenient

/-!
# Certificates in a token

A certificate stands in the header of a token as the base64 of its bytes, on one line. What it says
is not looked at.

* `Certificate.body` — the text of a certificate file as it stands in a token;
* `Certificate.load` — the same, from a file;
* `Certificate.loadChain` — several files in order, up to the first that fails.
-/

namespace TokenForge.Certificate

def label : String := "CERTIFICATE"

/-- **The base64 of the first armored block of a text**, which must be a certificate. `source` names
the text in an error. -/
def body (text source : String) : Except Error String :=
  match Pem.Lenient.decode text with
  | .error fault => .error (.certificateUndecoded source fault.message)
  | .ok (found, bytes) =>
    if found = label then .ok (String.ofList (Base64.encodePadded Base64.standard bytes))
    else .error (.notCertificate source found)

/-- **The base64 of the certificate in a file.** -/
def ofFile (disk : Disk) (path : Path) : Except Error String :=
  match disk.readText path with
  | .error fault => .error (.certificateUnread path.shown fault.message)
  | .ok text => body text path.shown

def target : String := "jwt_fixtures::core::pem_chain"

def loadedEvent (path : Path) (body : String) : Log.Event where
  level := .debug
  target := target
  message := "loaded certificate"
  fields := [("path", path.shown), ("der_b64_len", Log.count body.utf8ByteSize)]

/-- The certificate in a file, with a report. -/
def load (disk : Disk) (path : Path) : Logged String := do
  let body ← Logged.of (ofFile disk path)
  Logged.emit (loadedEvent path body)
  return body

/-- **The certificates in some files**, in order. The first error ends it. -/
def loadChain (disk : Disk) : List Path → Logged (List String)
  | [] => return []
  | path :: paths => do
    let body ← load disk path
    let bodies ← loadChain disk paths
    return body :: bodies

end TokenForge.Certificate
