import ScriptOutline.Proofs.KindFilter
import ScriptOutline.Proofs.Offer

/-!
The ways to an outline: from a text, from bytes, from a file that is named, and from the input of a
command. Without kinds they give the same records and fail for the same reasons; they differ in what
a failure means for the rest (`entry_points_agree`).
-/

set_option autoImplicit false

namespace ScriptOutline
open Text

/-- The survey of one file, given its outline: a failure is noted, and nothing else. -/
def Survey.ofOne (path : String) : Except SourceError (List Record) → Survey
  | .ok rs => ⟨[⟨path, rs⟩], []⟩
  | .error e => ⟨[], [(path, e)]⟩

/-- The answer about the input, given its outline: a failure is the end of the run. -/
def Command.answered (format : Report.Format) : Except SourceError (List Record) → Outcome
  | .ok rs => .success (report format [⟨"<stdin>", rs⟩]) []
  | .error e => .failure [e.message]

/-! Bytes. -/

theorem textOfBytes_encodeUtf8 (text : List Char) : textOfBytes (encodeUtf8 text) = .ok text := by
  rw [textOfBytes, decodeUtf8_eq_ok_iff.2 rfl]
  rfl

theorem outlineBytes_encodeUtf8 (o : Options) (text : List Char) :
    outlineBytes o (encodeUtf8 text) = outline o text := by
  rw [outlineBytes, textOfBytes_encodeUtf8, ok_bind]

theorem outline_ne_notUtf8 (o : Options) (text : List Char) (e : Utf8Error) :
    outline o text ≠ .error (.notUtf8 e) := by
  rw [outline_eq, Candidates.outcome]
  cases ((Source.ofText text).candidates o).failure <;> simp

/-- Bytes are complained of exactly if no text is written in them. -/
theorem exists_notUtf8_iff {o : Options} {bytes : Bytes} :
    (∃ e, outlineBytes o bytes = .error (.notUtf8 e)) ↔ ∀ text, bytes ≠ encodeUtf8 text := by
  constructor
  · rintro ⟨e, he⟩ text rfl
    rw [outlineBytes_encodeUtf8] at he
    exact outline_ne_notUtf8 o text e he
  · intro h
    cases hdecode : decodeUtf8 bytes with
    | error e => exact ⟨e, by rw [outlineBytes, textOfBytes, hdecode]; rfl⟩
    | ok text => exact absurd (decodeUtf8_eq_ok_iff.1 hdecode) (h text)

/-! Policies that keep every kind. -/

section
variable {p : Policy} (hp : p.kinds = none)
include hp

theorem Policy.outline_of_untyped : p.outline = ScriptOutline.outline p.options := by
  have hall : p.keeps = fun _ => true := by
    funext k
    rw [keeps, hp]
  funext text
  rw [outline_eq_map, hall]
  cases ScriptOutline.outline p.options text with
  | error e => rfl
  | ok rs => simp [Except.map]

theorem Policy.outlineBytes_of_untyped (bytes : Bytes) :
    textOfBytes bytes >>= p.outline = outlineBytes p.options bytes := by
  rw [outline_of_untyped hp]
  rfl

theorem Survey.ofPath?_of_untyped {d : Disk} {path : String} {bytes : Bytes}
    (hfind : d.find path = .ok (.file bytes)) (hadmits : p.admits path = true) :
    ofPath? d p path = some (ofOne path (outlineBytes p.options bytes)) := by
  rw [ofPath?, files?, hfind, Option.map_some, if_pos hadmits, ofFiles, List.foldr_cons,
    List.foldr_nil, add, Policy.outlineBytes_of_untyped hp]
  cases outlineBytes p.options bytes <;> rfl

theorem Command.surveyAt_of_untyped (d : Disk) (input : Bytes) (format : Report.Format) :
    reported format (surveyAt d input "-" p) =
      answered format (outlineBytes p.options input) := by
  rw [surveyAt, if_pos rfl, outlineInput_eq, Policy.outlineFile,
    Policy.outlineBytes_of_untyped hp]
  cases outlineBytes p.options input <;> rfl

end

/-- A text, its bytes, a named file of these bytes and an input of these bytes have one outline, or
fail for one reason. The failure is all that is made of a text, of bytes or of the input; of a file
it is noted. -/
theorem entry_points_agree {p : Policy} (hp : p.kinds = none) :
    (∀ text,
      outlineBytes p.options (encodeUtf8 text) = (outlineWith p.options Sieve.all text ()).1 ∧
      p.outline text = (outlineWith p.options Sieve.all text ()).1) ∧
    ∀ bytes,
      ((∃ e, outlineBytes p.options bytes = .error (.notUtf8 e)) ↔
        ∀ text, bytes ≠ encodeUtf8 text) ∧
      (∀ d path, d.find path = .ok (.file bytes) → p.admits path = true →
        Survey.ofPath? d p path = some (.ofOne path (outlineBytes p.options bytes))) ∧
      ∀ d format settings types withText strict,
        Command.policyUnder (d.loaded (Command.root d "-") settings) types withText strict =
            .ok p →
          Command.run d bytes (.extract "-" format settings types withText strict) =
            Command.answered format (outlineBytes p.options bytes) := by
  refine ⟨fun text => ⟨outlineBytes_encodeUtf8 p.options text, ?_⟩, fun bytes => ?_⟩
  · rw [Policy.outline_of_untyped hp, outline]
  · refine ⟨exists_notUtf8_iff, fun d path hfind hadmits => ?_, ?_⟩
    · exact Survey.ofPath?_of_untyped hp hfind hadmits
    · intro d format settings types withText strict hpolicy
      rw [Command.run, Command.runExtract_eq, Command.extracted, hpolicy]
      exact Command.surveyAt_of_untyped hp d bytes format

/-- Of a source that fails under strict comments, under a name that is none of a script, the survey
holds the reason, and with it the run over the same input ends. -/
theorem entry_points_agree_unclosed :
    let bytes := encodeUtf8 "var a = 1;\n/*".toList
    let d : Disk := ⟨"/w", [("notes.txt", .file bytes),
      ("c.json", .file (encodeUtf8 "\x7b\"strict_comments\":true\x7d".toList))]⟩
    ∃ p, Command.policyUnder (d.loaded (Command.root d "-") (some "c.json")) [] false false =
        .ok p ∧ p.kinds = none ∧ p.admits "notes.txt" = true ∧
      Survey.ofPath? d p "notes.txt" = some ⟨[], [("notes.txt", .unclosedComment 2)]⟩ ∧
      Command.run d bytes (.extract "-" .json (some "c.json") [] false false) =
        .failure ["unterminated block comment opened on line 2"] := by
  intro bytes d
  have hloaded : d.loaded (Command.root d "-") (some "c.json") = .ok { strict := some true } := by
    refine Disk.loadSettings_eq_ok_iff.2 ⟨_, Disk.readText_eq_ok_iff.2 (Disk.find_of_lookup
      (by decide +kernel) (by decide +kernel) (by decide +kernel) rfl (by simp)), ?_, rfl⟩
    exact eq_ok_of_toOption (by decide +kernel)
  rw [hloaded]
  have hpolicy : ((Command.policyUnder (.ok { strict := some true }) [] false false).map
      fun p => (p.kinds, p.admits "notes.txt", p.options)) = .ok (none, true, ⟨false, true⟩) :=
    eq_ok_of_toOption (by decide +kernel)
  obtain ⟨p, hp, hfacts⟩ := map_eq_ok_iff.1 hpolicy
  simp only [Prod.mk.injEq] at hfacts
  obtain ⟨hkinds, hadmits, hoptions⟩ := hfacts
  have hfind : d.find "notes.txt" = .ok (.file bytes) :=
    Disk.find_of_lookup (by decide +kernel) (by decide +kernel) (by decide +kernel) rfl (by simp)
  have houtline : outlineBytes p.options bytes = .error (.unclosedComment 2) := by
    rw [hoptions]
    decide +kernel
  obtain ⟨-, hfile, hinput⟩ := (entry_points_agree hkinds).2 bytes
  refine ⟨p, hp, hkinds, hadmits, ?_, ?_⟩
  · rw [hfile d "notes.txt" hfind hadmits, houtline]
    rfl
  · rw [hinput d .json (some "c.json") [] false false (by rw [hloaded, hp]), houtline]
    decide +kernel

end ScriptOutline
