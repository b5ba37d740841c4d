import TokenForge.Proofs.Json.Lexed
import TokenForge.Proofs.Run.Outcome

/-!
# The line of a token

The payload of a token that is not encoded stands in the token as it is, so it has to be shown that
nothing in it breaks the line that the token is printed on. Main statement: `build_line`.
-/

namespace TokenForge

open Cli (UnencodedArguments)

variable {env : Environment} {words : List Bytes} {a : UnencodedArguments}
  {payload : Json.Value} {secret : String}

/-- A line behind which nothing comes. -/
theorem splitOn_line {t : String} (h : Text.IsPlain t.toList) :
    (t ++ "\n").toList.splitOn '\n' = [t.toList, []] := by
  -- the line feed at the end leaves an empty part behind it
  have hparts : ∀ l ∈ [t.toList, []], '\n' ∉ l := by simp [h.lf_not_mem]
  have hjoined : (t ++ "\n").toList = ['\n'].intercalate [t.toList, []] := by
    simp [String.toList_append, List.intercalate]
  rw [hjoined, List.splitOn_intercalate _ hparts (by simp)]

/-- What is asked for is built and printed, on a line of its own. -/
theorem output_run_unencoded (hread : Cli.read words = .ok (.unencoded a))
    (hoptions : unencodedOptions env a = .ok { payload := payload, secret := secret })
    (hobj : payload.isObject = true) (hsecret : secret ≠ "") (disk : Disk) (k : P256.Scalar) :
    (run env disk k words).output = Unencoded.signed payload secret ++ "\n" := by
  have hbuilt : (Unencoded.build payload secret).result = .ok (Unencoded.signed payload secret) :=
    Unencoded.result_build_eq_ok_iff.mpr ⟨hobj, hsecret, rfl⟩
  have hhandled : handled env disk k (.unencoded a) = .ok (Unencoded.signed payload secret) := by
    rw [handled, hoptions]
    exact hbuilt
  -- what a run prints is what its command has handled
  have hconcludes := run_concludes env disk k hread
  rw [hhandled] at hconcludes
  exact hconcludes.2.1

/-- **A token never breaks its line.** An object and a secret that is not empty give a token without
control characters, in which the payload stands between the outer dots; its strings and keys are
raw there but for what must be escaped, and there is no white space outside of them. So a run that is
asked for this token prints a single line, and the line is the token. -/
theorem Unencoded.build_line (hobj : payload.isObject = true) (hsecret : secret ≠ "") :
    ∃ (token sig : String) (parts : List Text.Part),
      (build payload secret).result = .ok token ∧
      Text.IsPlain token.toList ∧
      parts? token = some (base64Url (utf8 headerText), payload.compact, sig) ∧
      Text.scan payload.compact.toList = some parts ∧
      Json.IsLexed parts payload.texts ∧
      ∀ env disk k words a, Cli.read words = .ok (.unencoded a) →
        unencodedOptions env a = .ok { payload := payload, secret := secret } →
          (run env disk k words).output.toList.splitOn '\n' = [token.toList, []] := by
  obtain ⟨parts, hscans, hlexed⟩ := Json.lexes_chars payload
  -- one fact of each kind: the token, its characters, its parts, the cut of the payload, and the
  -- run
  refine ⟨signed payload secret, signature secret (signingInput payload), parts,
    result_build_eq_ok_iff.mpr ⟨hobj, hsecret, rfl⟩, isPlain_signed payload secret,
    parts?_signed payload secret, ?_, hlexed, fun env disk k words a hread hoptions => ?_⟩
  · rw [Json.Value.compact, String.toList_ofList]
    exact hscans.scan_eq
  · rw [output_run_unencoded hread hoptions hobj hsecret]
    exact splitOn_line (isPlain_signed payload secret)

/-- Arguments with a line feed and a quote in a key, and with more of them in a string below it. -/
def breaking : UnencodedArguments where
  payload := some "\x7b\"\\n\\\"\": [\"a\u2028\\n\\\"\\\\,\\\"b\\\": \\u00e9\"]\x7d"
  secret := some "k"

def brokenPayload : Json.Value :=
  .object [("\n\"", .array [.string "a\u2028\n\"\\,\"b\": é"])]

/-- A command line for these arguments. -/
def breakingWords : List Bytes :=
  [utf8 "b64-false", utf8 "--payload", utf8 (breaking.payload.getD ""), utf8 "--secret", utf8 "k"]

theorem Unencoded.build_line_breaking :
    brokenPayload.isObject = true ∧ "k" ≠ "" ∧ Cli.read breakingWords = .ok (.unencoded breaking) ∧
      ∃ token : String, (build brokenPayload "k").result = .ok token ∧
        (∀ env disk k, (run env disk k breakingWords).output.toList.splitOn '\n' =
          [token.toList, []]) ∧
        (Text.scan brokenPayload.compact.toList).map Text.bodies =
          some ["\\n\\\"".toList, "a\u2028\\n\\\"\\\\,\\\"b\\\": é".toList] := by
  have hread : Cli.read breakingWords = .ok (.unencoded breaking) :=
    toOption_eq_some.mp (by decide +kernel)
  obtain ⟨token, -, -, hbuild, -, -, -, -, hline⟩ := @build_line brokenPayload "k" rfl (by decide)
  exact ⟨rfl, by decide, hread, token, hbuild,
    fun env disk k => hline env disk k breakingWords breaking hread rfl, by decide +kernel⟩

end TokenForge
