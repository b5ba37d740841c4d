import TokenForge.Proofs.Base64.Symbols
import TokenForge.Proofs.Text.Cut
import TokenForge.Token.Unencoded

/-!
# The parts of a token whose payload is not encoded

The payload stands in such a token as it is, and may hold dots. But neither the header nor the
signature does, so the first dot of a token and the last one are always those that join its parts,
and the parts can be told from the token (`Unencoded.build_framing`).

* `Unencoded.parts?` — the parts of a text by its outer dots;
* `Unencoded.result_build_eq_ok_iff` — which tokens are built, and from what.
-/

namespace TokenForge.Unencoded

open Json (Value)

/-- **The parts of a text by its outer dots**: what comes before the first dot, what comes from
there to the last one, and what comes after it. -/
def parts? (token : String) : Option (String × String × String) := do
  let (first, rest) ← Text.cutFirst? '.' token.toList
  let (middle, last) ← Text.cutLast? '.' rest
  return (String.ofList first, String.ofList middle, String.ofList last)

/-- Bytes in the base64 of tokens. -/
def base64Url (bs : Bytes) : String := String.ofList (Base64.encode Base64.urlSafe bs)

/-- The text of the header. -/
def headerText : String := "\x7b\"alg\":\"HS256\",\"typ\":\"JWT\",\"b64\":false\x7d"

variable {payload : Value} {secret token : String}

/-! ### No part but the payload has a dot -/

theorem dot_not_mem_base64Url (bs : Bytes) : '.' ∉ (base64Url bs).toList := by
  rw [base64Url, String.toList_ofList]
  exact Base64.dot_not_mem_encode bs

theorem length_base64Url (bs : Bytes) : (base64Url bs).length = (4 * bs.length + 2) / 3 := by
  rw [base64Url, String.length_ofList, Base64.length_encode]

theorem header_compact : header.compact = headerText := by
  decide

/-- What is signed is the encoded header, a dot and the text of the payload. -/
theorem toList_signingInput (payload : Value) :
    (signingInput payload).toList =
      (base64Url (utf8 headerText)).toList ++ '.' :: payload.compact.toList := by
  rw [← header_compact, Value.compact, Value.compact, utf8_ofList, base64Url, signingInput]
  simp only [String.toList_ofList]

/-- A signature is as long as the base64 of 32 bytes. -/
theorem length_signature (secret input : String) : (signature secret input).length = 43 := by
  change (base64Url (hmacSha256 (utf8 secret) (utf8 input))).length = 43
  rw [length_base64Url, length_hmacSha256]
  rfl

/-! ### What is built -/

/-- A payload with its header and its signature, whatever the payload and the secret are. -/
def signed (payload : Value) (secret : String) : String :=
  signingInput payload ++ "." ++ signature secret (signingInput payload)

/-- **Which tokens are built**: an object and a secret that is not empty give one, nothing else
does. -/
theorem result_build_eq_ok_iff :
    (build payload secret).result = .ok token ↔
      payload.isObject = true ∧ secret ≠ "" ∧ token = signed payload secret := by
  by_cases hobj : payload.isObject = true
  -- an object passes its check, and only the secret is left to decide
  · have hcheck : Payload.check payload = .ok () := if_pos hobj
    by_cases hsecret : secret = ""
    · simp [build, Logged.result_bind, hcheck, hsecret, Except.bind]
    · have hbuilt : (build payload secret).result = .ok (signed payload secret) := by
        simp [build, signed, Logged.result_bind, hcheck, hsecret, Except.bind]
      rw [hbuilt]
      exact ⟨fun h => ⟨hobj, hsecret, (Except.ok.inj h).symm⟩, fun h => by rw [h.2.2]⟩
  · have hcheck : Payload.check payload = .error (.payloadNotObject payload.kind) := if_neg hobj
    simp [build, Logged.result_bind, hcheck, hobj, Except.bind]

/-- A token is what was signed, a dot and the signature. -/
theorem toList_signed (payload : Value) (secret : String) :
    (signed payload secret).toList =
      (signingInput payload).toList ++ '.' :: (signature secret (signingInput payload)).toList := by
  simp [signed, String.toList_append]

/-- **The last dot of a token is the one before its signature.** -/
theorem cutLast?_signed (payload : Value) (secret : String) :
    Text.cutLast? '.' (signed payload secret).toList =
      some ((signingInput payload).toList,
        (signature secret (signingInput payload)).toList) := by
  rw [toList_signed]
  exact Text.cutLast?_append (dot_not_mem_base64Url _)

/-- **The outer dots of a token are those that join its parts.** -/
theorem parts?_signed (payload : Value) (secret : String) :
    parts? (signed payload secret) =
      some (base64Url (utf8 headerText), payload.compact,
        signature secret (signingInput payload)) := by
  -- the header has no dot, so the first one is behind it, whatever comes then
  have hfirst : Text.cutFirst? '.' (signed payload secret).toList =
      some ((base64Url (utf8 headerText)).toList,
        payload.compact.toList ++ '.' ::
          (signature secret (signingInput payload)).toList) := by
    rw [toList_signed, toList_signingInput, List.append_assoc, List.cons_append]
    exact Text.cutFirst?_append (dot_not_mem_base64Url _)
  -- nor has the signature, so the last one is before it, whatever the payload holds
  have hlast : Text.cutLast? '.' (payload.compact.toList ++ '.' ::
      (signature secret (signingInput payload)).toList) =
      some (payload.compact.toList, (signature secret (signingInput payload)).toList) :=
    Text.cutLast?_append (dot_not_mem_base64Url _)
  simp [parts?, hfirst, hlast]

/-- **How many pieces the dots of a token make of it**: three, and one for each dot of the
payload. -/
theorem length_splitOn_signed (payload : Value) (secret : String) :
    ((signed payload secret).toList.splitOn '.').length =
      3 + payload.compact.toList.count '.' := by
  have hfirst : (base64Url (utf8 headerText)).toList.count '.' = 0 :=
    List.count_eq_zero.mpr (dot_not_mem_base64Url _)
  have hlast : (signature secret (signingInput payload)).toList.count '.' = 0 :=
    List.count_eq_zero.mpr (dot_not_mem_base64Url _)
  rw [Text.length_splitOn, toList_signed, toList_signingInput]
  simp only [List.count_append, List.count_cons_self, hfirst, hlast]
  omega

/-- **Framing.** An object and a secret that is not empty give a token whose outer dots part it into
the encoded header, the text of the payload and a signature of 43 characters; its dots make of it
three pieces, and one more for each dot of the payload. So a token that can be built from another
payload and another secret as well has a payload of the same text. -/
theorem build_framing (hobj : payload.isObject = true) (hsecret : secret ≠ "") :
    ∃ token input sig : String,
      (build payload secret).result = .ok token ∧
      parts? token = some (base64Url (utf8 headerText), payload.compact, sig) ∧
      Text.cutLast? '.' token.toList = some (input.toList, sig.toList) ∧
      sig = base64Url (hmacSha256 (utf8 secret) (utf8 input)) ∧ sig.length = 43 ∧
      (token.toList.splitOn '.').length = 3 + payload.compact.toList.count '.' ∧
      ∀ (other : Value) (key : String), (build other key).result = .ok token →
        other.compact = payload.compact := by
  refine ⟨signed payload secret, signingInput payload, signature secret (signingInput payload),
    result_build_eq_ok_iff.mpr ⟨hobj, hsecret, rfl⟩, parts?_signed payload secret,
    cutLast?_signed payload secret, rfl, length_signature _ _, length_splitOn_signed _ _,
    fun other key hother => ?_⟩
  obtain ⟨-, -, htoken⟩ := result_build_eq_ok_iff.mp hother
  -- the text of the payload is the middle part of the token, so both tokens tell the same one
  have hparts := parts?_signed payload secret
  rw [htoken, parts?_signed] at hparts
  exact congrArg (fun p => p.2.1) (Option.some.inj hparts)

/-- A payload with three dots, one of them in a key. -/
def dotted : Value := .object [("a.b", .string "..\"\\")]

/-- The dots of `dotted` cut its token into six pieces. -/
theorem build_framing_dotted :
    dotted.isObject = true ∧ "k" ≠ "" ∧ ∃ token : String,
      (build dotted "k").result = .ok token ∧ (token.toList.splitOn '.').length = 6 := by
  obtain ⟨token, _, _, hbuild, -, -, -, -, hlength, -⟩ :=
    @build_framing dotted "k" rfl (by decide)
  have hdots : dotted.compact.toList.count '.' = 3 := by decide
  rw [hdots] at hlength
  exact ⟨rfl, by decide, token, hbuild, hlength⟩

end TokenForge.Unencoded
