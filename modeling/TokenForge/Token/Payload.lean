import TokenForge.Error
import TokenForge.Json.Reader

/-!
# Payloads

The payload of a token is a JSON object.

* `Payload.check` — whether a value may be a payload;
* `Payload.read` — the payload of a text.
-/

namespace TokenForge.Payload

open Json (Value)

/-- **Whether a value may be a payload**: only an object may. -/
def check (v : Value) : Except Error Unit :=
  if v.isObject then .ok () else .error (.payloadNotObject v.kind)

/-- **The payload of a text.** -/
def read (text : String) : Except Error Value := do
  let v ← (Json.read text).mapError fun fault => .invalidPayload fault.message
  check v
  return v

end TokenForge.Payload
