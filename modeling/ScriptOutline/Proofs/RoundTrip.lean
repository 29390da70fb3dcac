import ScriptOutline.Proofs.Json.Fields
import ScriptOutline.Proofs.Json.Tree
import ScriptOutline.Report.Decode
import ScriptOutline.Settings.Decode

/-!
Nothing is lost in JSON: outlines, single records and settings are read back as they were written
(`json_reads_back`).
-/

set_option autoImplicit false

namespace ScriptOutline
open Json

/-! Values of fields. -/

@[simp] theorem asNat_nat (n : Nat) : (Value.nat n).asNat = .ok n := by
  simp [Value.nat, Value.asNat]

@[simp] theorem asText_text (s : String) : (Value.text s).asText = .ok s := rfl

@[simp] theorem asOptionalText_text (s : String) : (Value.text s).asText? = .ok (some s) := rfl

@[simp] theorem asText_node (s : String) : (Value.text s).node.asText = .ok s := rfl

@[simp] theorem asTexts_texts (xs : List String) : (Value.texts xs).asTexts = .ok xs :=
  mapM_map_ok fun x _ => asText_text x

@[simp] theorem depth_texts (xs : List String) : (Value.texts xs).depth = 1 := by
  have h : itemDepth (xs.map Value.text) = 0 := by
    induction xs with
    | nil => rfl
    | cons x xs ih => simp [itemDepth, Value.depth, ih]
  simp [Value.texts, Value.depth, h]

/-- What is written in a field of a type. -/
def FieldType.Holds (v : Value) : FieldType → Prop
  | nat => ∃ n ≤ greatest, v = .nat n
  | text | optionalText => ∃ s, v = .text s
  | texts => ∃ xs, v = .texts xs

namespace FieldType

@[simp] theorem holds_nat {n : Nat} (h : n ≤ greatest) : nat.Holds (.nat n) := ⟨n, h, rfl⟩

@[simp] theorem holds_text (s : String) : text.Holds (.text s) := ⟨s, rfl⟩

@[simp] theorem holds_optionalText (s : String) : optionalText.Holds (.text s) := ⟨s, rfl⟩

@[simp] theorem holds_texts (xs : List String) : texts.Holds (.texts xs) := ⟨xs, rfl⟩

theorem Holds.natural {v : Value} {t : FieldType} (h : t.Holds v) : v.Natural := by
  cases t with
  | nat =>
    obtain ⟨n, hn, rfl⟩ := h
    exact (natural_nat n).2 hn
  | text | optionalText =>
    obtain ⟨s, rfl⟩ := h
    trivial
  | texts =>
    obtain ⟨xs, rfl⟩ := h
    exact natural_texts xs

theorem Holds.depth_le_one {v : Value} {t : FieldType} (h : t.Holds v) : v.depth ≤ 1 := by
  cases t with
  | nat =>
    obtain ⟨n, -, rfl⟩ := h
    exact Nat.zero_le 1
  | text | optionalText =>
    obtain ⟨s, rfl⟩ := h
    exact Nat.zero_le 1
  | texts =>
    obtain ⟨xs, rfl⟩ := h
    exact Nat.le_of_eq (depth_texts xs)

theorem Holds.check_ok {v : Value} {t : FieldType} (h : t.Holds v) : t.check v = .ok () := by
  cases t with
  | nat =>
    obtain ⟨n, -, rfl⟩ := h
    rw [check, asNat_nat]
    rfl
  | text | optionalText =>
    obtain ⟨s, rfl⟩ := h
    rfl
  | texts =>
    obtain ⟨xs, rfl⟩ := h
    rw [check, asTexts_texts]
    rfl

end FieldType

namespace Record

/-- Whether the line numbers of a record are of 64 bits. -/
def InRange : Record → Prop
  | comment first last _ => first ≤ greatest ∧ last ≤ greatest
  | code c => c.line ≤ greatest

instance : DecidablePred InRange
  | comment first last _ => inferInstanceAs (Decidable (first ≤ greatest ∧ last ≤ greatest))
  | code c => inferInstanceAs (Decidable (c.line ≤ greatest))

theorem fields_eq_cons (r : Record) :
    r.fields = ("type", .text r.kind.name) :: r.fields.tail := by
  cases r <;> rfl

theorem nodup_keys_fields (r : Record) : (r.fields.map Prod.fst).Nodup := by
  obtain ⟨first, last, text⟩ | ⟨line, form, name, signature, source⟩ := r
  -- Comments and function expressions alone may lack a field.
  · cases text <;> simp [fields, optionalField]
  · cases form with
    | functionExpression receiver ps =>
      cases receiver <;> simp [fields, Form.owner, Form.content, optionalField]
    | _ => simp [fields, Form.owner, Form.content]

/-- Behind the tag stand fields of the record's kind that hold what they should. -/
theorem fields_hold {r : Record} (h : r.InRange) :
    ∀ f ∈ r.fields.tail, ∃ t, r.kind.fields.lookup f.1 = some t ∧ t.Holds f.2 := by
  obtain ⟨first, last, text⟩ | ⟨line, form, name, signature, source⟩ := r
  · cases text <;>
      simp_all [InRange, fields, optionalField, kind, Kind.fields, List.lookup_cons]
  · cases form with
    | functionExpression receiver ps =>
      cases receiver <;>
        simp_all [InRange, fields, kind, Form.kind, Form.owner, Form.content, optionalField,
          Kind.fields, List.lookup_cons]
    | _ =>
      simp_all [InRange, fields, kind, Form.kind, Form.owner, Form.content, Kind.fields,
        List.lookup_cons]

/-- Where no key stands twice, all that is asked of fields is that each known one holds what it
should. -/
theorem checkFields_eq_ok_iff {known : List (String × FieldType)} {fields : List (String × Value)}
    (hkeys : (fields.map Prod.fst).Nodup) {seen : List String} (hseen : ∀ f ∈ fields, f.1 ∉ seen) :
    checkFields known seen fields = .ok () ↔
      ∀ f ∈ fields, ∀ t, known.lookup f.1 = some t → t.check f.2 = .ok () := by
  induction fields generalizing seen with
  | nil => simp [checkFields]
  | cons f fields ih =>
    obtain ⟨key, v⟩ := f
    obtain ⟨hkey, hrest⟩ := List.nodup_cons.1 hkeys
    obtain ⟨hnew, hseen⟩ := List.forall_mem_cons.1 hseen
    rw [checkFields, List.forall_mem_cons]
    cases hlookup : known.lookup key with
    | none => simp [ih hrest hseen]
    | some t =>
      have hseen' : ∀ g ∈ fields, g.1 ∉ key :: seen := by
        intro g hg
        rw [List.mem_cons, not_or]
        refine ⟨?_, hseen g hg⟩
        rintro rfl
        exact hkey (List.mem_map.2 ⟨g, hg, rfl⟩)
      have hcontains : seen.contains key = false := by simpa using hnew
      simp only [hcontains, Bool.false_eq_true, if_false, Option.some.injEq, forall_eq',
        ← ih hrest hseen']
      cases t.check v <;> simp [bind, Except.bind]

theorem checkFields_ok {known : List (String × FieldType)} {fields : List (String × Value)}
    (hkeys : (fields.map Prod.fst).Nodup)
    (hfields : ∀ f ∈ fields, ∀ t, known.lookup f.1 = some t → t.Holds f.2) :
    checkFields known [] fields = .ok () :=
  (checkFields_eq_ok_iff hkeys (by simp)).2 fun f hf t ht => (hfields f hf t ht).check_ok

/-- A record depends on its fields only through what stands under the keys of its kind. -/
theorem ofFields_of_lookup {r : Record} {given : List (String × Value)} (h : r.InRange)
    (hcheck : checkFields r.kind.fields [] given = .ok ())
    (hlookup : ∀ f ∈ r.kind.fields, given.lookup f.1 = r.fields.lookup f.1) :
    ofFields r.kind given = .ok r := by
  rw [ofFields, hcheck, ok_bind]
  obtain ⟨first, last, text⟩ | ⟨line, form, name, signature, source⟩ := r
  · cases text <;>
      simp_all [kind, Kind.fields, fields, optionalField, field, field?, List.lookup_cons,
        -List.lookup_eq_none_iff]
  · cases form with
    | functionExpression receiver ps =>
      cases receiver <;>
        simp_all [kind, Kind.fields, fields, Form.kind, Form.owner, Form.content, optionalField,
          field, field?, List.lookup_cons, -List.lookup_eq_none_iff]
    | _ =>
      simp_all [kind, Kind.fields, fields, Form.kind, Form.owner, Form.content, field,
        List.lookup_cons]

/-- Fields hold numbers, texts and lists of texts. -/
theorem flat_of_mem_fields {r : Record} (h : r.InRange) {f : String × Value} (hf : f ∈ r.fields) :
    f.2.Natural ∧ f.2.depth ≤ 1 := by
  rw [fields_eq_cons] at hf
  rcases List.mem_cons.1 hf with rfl | hf
  · exact ⟨trivial, Nat.zero_le 1⟩
  · obtain ⟨t, -, ht⟩ := fields_hold h f hf
    exact ⟨ht.natural, ht.depth_le_one⟩

theorem natural_value {r : Record} (h : r.InRange) : r.value.Natural := by
  rw [value, Value.Natural, fieldsNatural_iff]
  exact fun f hf => (flat_of_mem_fields h hf).1

/-- No field of any kind goes by the name of the tag or of arguments. -/
theorem key_of_lookup_fields {k : Kind} {key : String} {t : FieldType}
    (h : k.fields.lookup key = some t) : key ≠ "type" ∧ key ≠ "args" := by
  constructor <;>
  · rintro rfl
    cases k <;> simp [Kind.fields, List.lookup_cons] at h

/-- A field that is neither the tag nor goes by another name, inside `depth` containers. -/
def Untagged (depth : Nat) (f : String × Value) : Prop :=
  f.1 ≠ "type" ∧ f.1 ≠ "args" ∧ depth + f.2.depth ≤ depthLimit

theorem untagged_of_mem_fields {r : Record} (h : r.InRange) {depth : Nat}
    (hdepth : depth < depthLimit) {f : String × Value} (hf : f ∈ r.fields.tail) :
    Untagged depth f := by
  obtain ⟨t, hlookup, ht⟩ := fields_hold h f hf
  obtain ⟨htype, hargs⟩ := key_of_lookup_fields hlookup
  have hle : f.2.depth ≤ 1 := ht.depth_le_one
  exact ⟨htype, hargs, by omega⟩

theorem readTagged_fieldNodes {fields : List (String × Value)} {depth : Nat}
    (hfields : ∀ f ∈ fields, Untagged depth f) (tag : Option Kind) :
    readTagged depth tag (fieldNodes fields) = .ok (tag, fields) := by
  induction fields with
  | nil => rfl
  | cons f fields ih =>
    obtain ⟨key, v⟩ := f
    obtain ⟨htype, hargs, hdepth⟩ := hfields (key, v) List.mem_cons_self
    have hv := value_node v depth hdepth
    have hmore := ih fun g hg => hfields g (List.mem_cons_of_mem _ hg)
    simp only at htype hargs
    simp [fieldNodes, readTagged, htype, hv, hmore, fieldName, hargs]

theorem readTagged_tag {before after : List (String × Value)} {depth : Nat}
    (hfields : ∀ f ∈ before ++ after, Untagged depth f) (k : Kind) :
    readTagged depth none (fieldNodes (before ++ ("type", .text k.name) :: after)) =
      .ok (some k, before ++ after) := by
  induction before with
  | nil =>
    have hafter := readTagged_fieldNodes hfields (some k)
    rw [List.nil_append] at hafter
    simp [fieldNodes, readTagged, Value.node, Kind.decodeTag, Kind.decodeName, hafter]
  | cons f before ih =>
    obtain ⟨key, v⟩ := f
    obtain ⟨htype, hargs, hdepth⟩ := hfields (key, v) List.mem_cons_self
    have hv := value_node v depth hdepth
    have hmore := ih fun g hg => hfields g (List.mem_cons_of_mem _ hg)
    simp only at htype hargs
    simp [fieldNodes, readTagged, htype, hv, hmore, fieldName, hargs]

/-- The fields of a record may stand in any order and among others. -/
theorem decode_node_of_perm {r : Record} (h : r.InRange) {given more : List (String × Value)}
    {depth : Nat} (hdepth : depth + 1 < depthLimit) (hperm : given.Perm (r.fields ++ more))
    (hkeys : (given.map Prod.fst).Nodup)
    (hmore : ∀ f ∈ more, r.kind.fields.lookup f.1 = none ∧ Untagged (depth + 1) f) :
    decode depth (Value.object given).node = .ok r := by
  have htag : ("type", Value.text r.kind.name) ∈ given := by
    rw [hperm.mem_iff, fields_eq_cons]
    exact List.mem_cons_self
  obtain ⟨before, after, rfl⟩ := List.append_of_mem htag
  have hrest : (before ++ after).Perm (r.fields.tail ++ more) := by
    rw [fields_eq_cons, List.cons_append] at hperm
    exact (List.perm_middle.symm.trans hperm).cons_inv
  have hkeys' : ((before ++ after).map Prod.fst).Nodup := by
    rw [List.map_append, List.map_cons, List.nodup_middle] at hkeys
    simpa using hkeys.of_cons
  have huntagged : ∀ f ∈ before ++ after, Untagged (depth + 1) f := by
    intro f hf
    rcases List.mem_append.1 (hrest.mem_iff.1 hf) with hf | hf
    · exact untagged_of_mem_fields h hdepth hf
    · exact (hmore f hf).2
  have hcheck : checkFields r.kind.fields [] (before ++ after) = .ok () := by
    refine checkFields_ok hkeys' ?_
    intro f hf t ht
    rcases List.mem_append.1 (hrest.mem_iff.1 hf) with hf | hf
    · obtain ⟨t', ht', hholds⟩ := fields_hold h f hf
      rwa [← Option.some.inj (ht'.symm.trans ht)]
    · rw [(hmore f hf).1] at ht
      contradiction
  have hlookup : ∀ f ∈ r.kind.fields, (before ++ after).lookup f.1 = r.fields.lookup f.1 := by
    intro f hf
    have hknown : r.kind.fields.lookup f.1 ≠ none := by
      rw [Ne, List.lookup_eq_none_iff]
      intro hnone
      simpa using hnone f hf
    have htype : f.1 ≠ "type" := by
      obtain ⟨t, ht⟩ := Option.ne_none_iff_exists'.1 hknown
      exact (key_of_lookup_fields ht).1
    have hother : more.lookup f.1 = none := by
      rw [Option.eq_none_iff_forall_ne_some]
      intro v hv
      exact hknown (hmore _ (mem_of_lookup hv)).1
    rw [lookup_eq_of_perm hrest hkeys', fields_eq_cons, List.lookup_append, hother, Option.or_none,
      List.tail_cons, List.lookup_cons, beq_eq_false_iff_ne.2 htype]
  simp [Value.node, decode, readTagged_tag huntagged, atStop, ofFields_of_lookup h hcheck hlookup]

theorem decode_node {r : Record} (h : r.InRange) {depth : Nat} (hdepth : depth + 1 < depthLimit) :
    decode depth r.value.node = .ok r := by
  have hperm : r.fields.Perm (r.fields ++ []) := by simp
  exact decode_node_of_perm h hdepth hperm (nodup_keys_fields r) (by simp)

theorem ofText_compact {r : Record} (h : r.InRange) : ofText r.value.compact = .ok r := by
  rw [ofText, document_compact (natural_value h), Document.decode, decode_node h (by decide)]
  rfl

end Record

namespace FileOutline

/-- Whether all line numbers in the outline are of 64 bits. -/
def InRange (f : FileOutline) : Prop := ∀ r ∈ f.records, r.InRange

instance : DecidablePred InRange := fun f =>
  inferInstanceAs (Decidable (∀ r ∈ f.records, r.InRange))

theorem natural_fileValue {f : FileOutline} (h : f.InRange) : (Report.fileValue f).Natural := by
  have hrecords : ∀ r ∈ f.records, r.value.Natural := fun r hr => Record.natural_value (h r hr)
  simpa [Report.fileValue, Value.Natural] using hrecords

theorem decodeRecords_node {rs : List Record} (h : ∀ r ∈ rs, r.InRange) :
    decodeRecords (Value.array (rs.map Record.value)).node = .ok rs := by
  have hread : (rs.map fun r => r.value.node).mapM (Record.decode 3) = .ok rs :=
    mapM_map_ok fun r hr => Record.decode_node (h r hr) (by decide)
  rw [Value.node, itemNodes_map, decodeRecords, hread]
  rfl

theorem decode_node {f : FileOutline} (h : f.InRange) :
    decode (Report.fileValue f).node = .ok f := by
  have hread : readFields none none (fieldNodes [("file", .text f.file),
      ("contexts", .array (f.records.map Record.value))]) = .ok (some f.file, some f.records) := by
    simp [fieldNodes, readFields, decodeRecords_node h]
  rw [Report.fileValue, Value.node, decode, hread]
  rfl

theorem listOfText_json {files : List FileOutline} (h : ∀ f ∈ files, f.InRange) :
    listOfText (Report.json files) = .ok files := by
  have hnatural : (Value.array (files.map Report.fileValue)).Natural := by
    rw [Value.Natural, itemsNatural_iff, List.forall_mem_map]
    exact fun f hf => natural_fileValue (h f hf)
  have hread : (files.map fun f => (Report.fileValue f).node).mapM decode = .ok files :=
    mapM_map_ok fun f hf => decode_node (h f hf)
  rw [listOfText, Report.json, document_pretty hnatural, Document.decode, Value.node,
    itemNodes_map, decodeAll, hread]
  rfl

end FileOutline

namespace Settings

theorem asTexts_node (xs : List String) : (Value.texts xs).node.asTexts = .ok xs := by
  have hread : (xs.map fun s => (Value.text s).node).mapM Node.asText = .ok xs :=
    mapM_map_ok fun s _ => asText_node s
  rw [Value.texts, Value.node, itemNodes_map, Node.asTexts, hread]
  rfl

theorem decode_node (s : Settings) (excess : Nat → Problem) :
    decode excess s.value.node = .ok s := by
  obtain ⟨includes, excludes, types, withText, strict⟩ := s
  simp only [value, Value.node, fieldNodes, decode]
  cases withText <;> cases strict <;>
    simp [decodeFields, fieldNames, decodeField, asTexts_node, Except.map, Value.node,
      decodeSwitch, Node.asBool, atStop]

theorem natural_value (s : Settings) : s.value.Natural := by
  obtain ⟨includes, excludes, types, withText, strict⟩ := s
  cases withText <;> cases strict <;> simp [value, Value.Natural]

theorem ofText_of_document {s : Settings} {text : List Char}
    (h : Document.ofText text = ⟨s.value.node, false⟩) : ofText text = .ok s := by
  rw [ofText, h, Document.decode, decode_node]
  rfl

end Settings

theorem json_reads_back :
    (∀ files : List FileOutline, (∀ f ∈ files, f.InRange) →
      FileOutline.listOfText (Report.json files) = .ok files) ∧
    (∀ r : Record, r.InRange → Record.ofText r.value.compact = .ok r) ∧
    ∀ s : Settings,
      Settings.ofText s.value.compact = .ok s ∧ Settings.ofText (s.value.pretty 0) = .ok s := by
  refine ⟨fun files h => FileOutline.listOfText_json h, fun r h => Record.ofText_compact h, ?_⟩
  intro s
  have hcompact := document_compact s.natural_value
  have hpretty := document_pretty s.natural_value 0
  exact ⟨Settings.ofText_of_document hcompact, Settings.ofText_of_document hpretty⟩

theorem json_reads_back_greatest_line :
    FileOutline.listOfText
          (Report.json [⟨"\n.js", [.comment 0 0xFFFFFFFFFFFFFFFF none]⟩, ⟨"", []⟩]) =
        .ok [⟨"\n.js", [.comment 0 0xFFFFFFFFFFFFFFFF none]⟩, ⟨"", []⟩] ∧
      Record.ofText (Record.code ⟨0xFFFFFFFFFFFFFFFF, .functionExpression (some "exports.é") [],
          "", "\"", "\t\x01\\"⟩).value.compact =
        .ok (.code ⟨0xFFFFFFFFFFFFFFFF, .functionExpression (some "exports.é") [],
          "", "\"", "\t\x01\\"⟩) :=
  ⟨json_reads_back.1 _ (by decide), json_reads_back.2.1 _ (by decide)⟩

end ScriptOutline
