import TokenForge.Proofs.Json.Dumped
import TokenForge.Token.Chained
import TokenForge.Token.Unencoded

/-!
# Dumps of options

What the log shows of the options of a token. Main statement: `dumps_unforged`. The strings and keys
of a payload and the paths of files may be anything, and still the dump has no control character, its
quotes close where they should, and it tells what it is the dump of.

* `Unencoded.Options.layout`, `Chained.Options.layout` — the parts of the dumps;
* `Chained.Options.ofTexts` — options whose paths are texts.
-/

namespace TokenForge

open Text
open Json (Value layout_append_inj layout_shape)

/-- A record whose first field is the dump of a payload tells the payload. -/
theorem payload_eq_of_recordLayout {name : String} {v w : Value} {fs gs : List (String × List Part)}
    (h : recordLayout name (("payload", v.layout) :: fs) =
      recordLayout name (("payload", w.layout) :: gs)) : v = w := by
  obtain ⟨r, hr⟩ := exists_recordLayout_cons name "payload" v.layout fs
  obtain ⟨s, hs⟩ := exists_recordLayout_cons name "payload" w.layout gs
  rw [hr, hs] at h
  exact (layout_append_inj v w (List.append_cancel_left (List.append_cancel_left h))).1

namespace Unencoded

variable {o other : Options}

/-- The parts of the dump of some options. -/
def Options.layout (o : Options) : List Part :=
  recordLayout "UnencodedTokenOptions"
    [("payload", o.payload.layout), ("secret", [.quoted (textBody "[REDACTED]")])]

/-- **The dump has the parts**, a redacted secret among them. -/
theorem Options.shows_dump (o : Options) : Shows o.dump.toList o.layout := by
  -- field by field, each with the lemma for what it holds
  have hfields : ShowsFields [("payload", o.payload.dump), ("secret", redacted)]
      [("payload", o.payload.layout), ("secret", [.quoted (textBody "[REDACTED]")])] :=
    .cons (by decide) (Json.shows_dump o.payload) (.cons (by decide) (shows_quote _) .nil)
  exact shows_record (by decide) hfields (List.cons_ne_nil _ _)

/-- Between the quotes stand the strings of the payload, and behind them what is shown for the
secret. -/
theorem Options.bodies_layout (o : Options) :
    bodies o.layout = (o.payload.texts ++ ["[REDACTED]"]).map textBody := by
  simp [layout, bodies_recordLayout, Json.bodies_layout]

/-- The dump tells the payload, and nothing of the secret. -/
theorem Options.dump_eq_iff : other.dump = o.dump ↔ other.payload = o.payload := by
  constructor
  · intro h
    -- equal dumps are scanned into equal parts
    have hscan := other.shows_dump.unforged.scanned
    rw [h, o.shows_dump.unforged.scanned] at hscan
    exact (payload_eq_of_recordLayout (Option.some.inj hscan)).symm
  · intro h
    rw [dump, dump, h]

theorem Options.map_blank_layout (o : Options) :
    o.layout.map Part.blank = recordLayout "UnencodedTokenOptions"
      [("payload", o.payload.shape.layout), ("secret", [.quoted []])] := by
  simp [layout, map_blank_recordLayout, layout_shape, Part.blank]

/-- Without its strings a dump tells the structure of the payload. -/
theorem Options.blank_eq_iff :
    other.layout.map Part.blank = o.layout.map Part.blank ↔
      other.payload.shape = o.payload.shape := by
  rw [map_blank_layout, map_blank_layout]
  exact ⟨payload_eq_of_recordLayout, fun h => by rw [h]⟩

end Unencoded

namespace Chained

/-- The part of a path. -/
def pathPart (p : Path) : Part := .quoted (bytesBody p.bytes)

/-- The parts of the dump of some options. -/
def Options.layout (o : Options) : List Part :=
  recordLayout "X5cTokenOptions"
    [("payload", o.payload.layout), ("private_key", [pathPart o.key]),
      ("chain", listedLayout (o.chain.map fun p => [pathPart p]))]

/-- Options whose paths are texts. -/
def Options.ofTexts (payload : Value) (key : String) (certs : List String) : Options where
  payload := payload
  key := Path.ofText key
  chain := certs.map Path.ofText

variable {payload payload' : Value} {key key' : String} {certs certs' : List String}

/-- **The dump has the parts**: the payload, the path of the key, and a list of paths. -/
theorem Options.shows_dump (o : Options) : Shows o.dump.toList o.layout := by
  have hpath (p : Path) : Shows p.dump.toList [pathPart p] := shows_quoteBytes p.bytes
  have hfields : ShowsFields
      [("payload", o.payload.dump), ("private_key", o.key.dump),
        ("chain", listed (o.chain.map Path.dump))]
      [("payload", o.payload.layout), ("private_key", [pathPart o.key]),
        ("chain", listedLayout (o.chain.map fun p => [pathPart p]))] :=
    .cons (by decide) (Json.shows_dump o.payload)
      (.cons (by decide) (hpath o.key) (.cons (by decide) (shows_listed hpath o.chain) .nil))
  exact shows_record (by decide) hfields (List.cons_ne_nil _ _)

/-- Between the quotes stand the strings of the payload, and behind them the paths. -/
theorem Options.bodies_layout (payload : Value) (key : String) (certs : List String) :
    bodies (ofTexts payload key certs).layout = (payload.texts ++ key :: certs).map textBody := by
  have hpath (s : String) : pathPart (Path.ofText s) = .quoted (textBody s) :=
    congrArg Part.quoted (bytesBody_utf8 s)
  simp [layout, ofTexts, bodies_recordLayout, bodies_listedLayout, Json.bodies_layout, hpath,
    List.flatMap_map, ← List.map_eq_flatMap]

/-- **The dump tells the payload and every path.** -/
theorem Options.dump_ofTexts_eq_iff :
    (ofTexts payload' key' certs').dump = (ofTexts payload key certs).dump ↔
      payload' = payload ∧ key' = key ∧ certs' = certs := by
  constructor
  · intro h
    have hscan := (ofTexts payload' key' certs').shows_dump.unforged.scanned
    rw [h, (ofTexts payload key certs).shows_dump.unforged.scanned] at hscan
    have hlayout := Option.some.inj hscan
    obtain rfl : payload = payload' := payload_eq_of_recordLayout hlayout
    -- the paths are what comes behind the strings of the payload
    have hbodies := congrArg bodies hlayout
    rw [bodies_layout, bodies_layout, List.map_append, List.map_append] at hbodies
    have hpaths := List.map_injective_iff.mpr textBody_injective (List.append_cancel_left hbodies)
    exact ⟨rfl, (List.cons.inj hpaths).1.symm, (List.cons.inj hpaths).2.symm⟩
  · rintro ⟨rfl, rfl, rfl⟩
    rfl

/-- Without its strings the dump has the structure of the payload and as many paths. -/
theorem Options.map_blank_layout (o : Options) :
    o.layout.map Part.blank = recordLayout "X5cTokenOptions"
      [("payload", o.payload.shape.layout), ("private_key", [.quoted []]),
        ("chain", listedLayout (List.replicate o.chain.length [.quoted []]))] := by
  simp [layout, map_blank_recordLayout, map_blank_listedLayout, layout_shape, Part.blank, pathPart,
    Function.comp_def, List.map_const']

/-- Without its strings a dump tells the structure of the payload and how many paths there are. -/
theorem Options.blank_eq_iff {o other : Options} :
    other.layout.map Part.blank = o.layout.map Part.blank ↔
      other.payload.shape = o.payload.shape ∧ other.chain.length = o.chain.length := by
  rw [map_blank_layout, map_blank_layout]
  constructor
  · intro h
    have hshape := payload_eq_of_recordLayout h
    -- the number of paths is the number of quoted parts that the payload leaves
    have hbodies := congrArg (fun ps => (bodies ps).length) h
    simp [bodies_recordLayout, bodies_listedLayout, hshape] at hbodies
    exact ⟨hshape, hbodies⟩
  · rintro ⟨hshape, hlength⟩
    rw [hshape, hlength]

end Chained

/-- **The dumps of options cannot be forged.** A dump has no control character, and its quotes close
where the scanner finds them closed; between them stand the strings and keys of the payload and then
the paths, in order, every quote in them behind a backslash. So no two dumps are the same but of the
same payload and paths; and what is left without the texts between the quotes is the same exactly for
payloads of the same structure, and for as many paths. -/
theorem dumps_unforged :
    (∀ o : Unencoded.Options,
      Unforged o.dump o.layout ∧
      bodies o.layout = (o.payload.texts ++ ["[REDACTED]"]).map textBody ∧
      ∀ other : Unencoded.Options,
        (other.dump = o.dump ↔ other.payload = o.payload) ∧
        (other.layout.map Part.blank = o.layout.map Part.blank ↔
          other.payload.shape = o.payload.shape)) ∧
    ∀ (payload : Value) (key : String) (certs : List String),
      let o := Chained.Options.ofTexts payload key certs
      Unforged o.dump o.layout ∧
      bodies o.layout = (payload.texts ++ key :: certs).map textBody ∧
      ∀ (payload' : Value) (key' : String) (certs' : List String),
        let other := Chained.Options.ofTexts payload' key' certs'
        (other.dump = o.dump ↔ payload' = payload ∧ key' = key ∧ certs' = certs) ∧
        (other.layout.map Part.blank = o.layout.map Part.blank ↔
          payload'.shape = payload.shape ∧ certs'.length = certs.length) := by
  refine ⟨fun o => ⟨o.shows_dump.unforged, o.bodies_layout, fun other => ?_⟩,
    fun payload key certs => ⟨?_, ?_, fun payload' key' certs' => ⟨?_, ?_⟩⟩⟩
  · exact ⟨Unencoded.Options.dump_eq_iff, Unencoded.Options.blank_eq_iff⟩
  · exact (Chained.Options.ofTexts payload key certs).shows_dump.unforged
  · exact Chained.Options.bodies_layout payload key certs
  · exact Chained.Options.dump_ofTexts_eq_iff
  · rw [Chained.Options.blank_eq_iff]
    simp [Chained.Options.ofTexts]

/-- A payload with a string that looks like the end of the payload and like another secret. -/
def forging : Value := .object [("a", .string "\"\x7d, secret: \"\n\u0085x\\")]

theorem dumps_unforged_forging :
    Unforged (Unencoded.Options.dump { payload := forging })
        (Unencoded.Options.layout { payload := forging }) ∧
      bodies (Unencoded.Options.layout { payload := forging }) =
        ["a".toList, "\\\"\x7d, secret: \\\"\\n\\u\x7b85\x7dx\\\\".toList, "[REDACTED]".toList] :=
  ⟨(dumps_unforged.1 { payload := forging }).1,
    (dumps_unforged.1 { payload := forging }).2.1.trans (by decide +kernel)⟩

end TokenForge
