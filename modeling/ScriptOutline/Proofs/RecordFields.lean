import ScriptOutline.Proofs.Json.Spelling
import ScriptOutline.Proofs.RoundTrip

/-!
Records out of objects in which no key stands twice. Such a record depends on its fields alone, not
on their order, nor on which of its names the field for parameters goes by, nor on fields that its
kind does not have (`record_depends_on_fields`).
-/

set_option autoImplicit false

namespace ScriptOutline
open Json

namespace Record

/-! Fields. -/

/-- The keys among some fields that can be read. -/
def keysOf (fields : List Json.Field) : List String := fields.filterMap fun f => f.1.toOption

/-- Whether no key stands twice, not even under another name. -/
def DistinctKeys (fields : List Json.Field) : Prop :=
  (keysOf fields).Nodup ∧ ¬ ("params" ∈ keysOf fields ∧ "args" ∈ keysOf fields)

/-- Whether fields name a kind. -/
def Tagged (fields : List Json.Field) (k : Kind) : Prop := (.ok "type", .text k.name) ∈ fields

/-- The name that a field goes by. -/
def nameOf (f : Json.Field) : Except Fault String := f.1.map fieldName

@[simp] theorem nameOf_ok (key : String) (n : Node) :
    nameOf (.ok key, n) = .ok (fieldName key) := rfl

theorem mem_keysOf {fields : List Json.Field} {key : String} {n : Node}
    (h : (.ok key, n) ∈ fields) : key ∈ keysOf fields :=
  List.mem_filterMap.2 ⟨_, h, rfl⟩

theorem keysOf_append (fields fields' : List Json.Field) :
    keysOf (fields ++ fields') = keysOf fields ++ keysOf fields' := List.filterMap_append

theorem keysOf_fieldNodes (fields : List (String × Value)) :
    keysOf (fieldNodes fields) = fields.map Prod.fst := by
  induction fields with
  | nil => rfl
  | cons f fields ih =>
    rw [fieldNodes, List.map_cons, ← ih]
    rfl

theorem distinctKeys_fields {r : Record} (h : r.InRange) : DistinctKeys (fieldNodes r.fields) := by
  rw [DistinctKeys, keysOf_fieldNodes]
  refine ⟨nodup_keys_fields r, fun hargs => ?_⟩
  have htail := hargs.2
  rw [fields_eq_cons, List.map_cons, List.mem_cons] at htail
  obtain ⟨f, hf, hkey⟩ := List.mem_map.1 (htail.resolve_left (by simp))
  obtain ⟨t, ht, -⟩ := fields_hold h f hf
  exact (key_of_lookup_fields ht).2 hkey

/-! The tag. -/

def isTag (f : Json.Field) : Bool := f.1.toOption == some "type"

theorem isTag_iff {f : Json.Field} : isTag f = true ↔ f.1 = .ok "type" := by
  obtain ⟨key, n⟩ := f
  cases key <;> simp [isTag, Except.toOption]

theorem fieldName_eq_type_iff {key : String} : fieldName key = "type" ↔ key = "type" := by
  rw [fieldName]
  split
  · rename_i hargs
    simp [hargs]
  · rfl

theorem isTag_iff_name {f : Json.Field} : isTag f = true ↔ nameOf f = .ok "type" := by
  simp only [isTag_iff, nameOf, map_eq_ok_iff, fieldName_eq_type_iff, exists_eq_right]

/-- The fields that a record is made of, once its kind is known. -/
def untagged (fields : List Json.Field) : List Json.Field := fields.filter fun f => !isTag f

theorem untagged_eq_self {fields : List Json.Field} (h : ∀ f ∈ fields, isTag f = false) :
    untagged fields = fields :=
  List.filter_eq_self.2 fun f hf => by rw [h f hf, Bool.not_false]

theorem mem_untagged_iff {fields : List Json.Field} {f : Json.Field} :
    f ∈ untagged fields ↔ f ∈ fields ∧ nameOf f ≠ .ok "type" := by
  rw [untagged, List.mem_filter, Bool.not_eq_true', ← Bool.not_eq_true, isTag_iff_name]

/-- Where no key stands twice, one tag stands alone. -/
theorem DistinctKeys.isTag_eq_false {before after : List Json.Field} {n : Node}
    (h : DistinctKeys (before ++ (.ok "type", n) :: after)) :
    ∀ f ∈ before ++ after, isTag f = false := by
  have hkeys := h.1
  have hcons : keysOf ((.ok "type", n) :: after) = "type" :: keysOf after := rfl
  rw [keysOf_append, hcons, List.nodup_middle, List.nodup_cons, ← keysOf_append] at hkeys
  rintro ⟨key, m⟩ hf
  rw [← Bool.not_eq_true, isTag_iff]
  rintro rfl
  exact hkeys.1 (mem_keysOf hf)

theorem decodeTag_eq_ok_iff {n : Node} {k : Kind} :
    Kind.decodeTag n = .ok k ↔ n = .text k.name := by
  constructor
  · intro h
    cases n with
    | text s =>
      rw [Kind.decodeTag, Kind.decodeName] at h
      cases hname : Kind.ofName? s with
      | none =>
        rw [hname] at h
        cases h
      | some k' =>
        rw [hname] at h
        cases h
        rw [Kind.name_of_ofName? hname]
    | null | bool b | number m | flawed f | array items stop | object fields stop | broken f f' =>
      cases h
  · rintro rfl
    rw [Kind.decodeTag, Kind.decodeName, Kind.ofName?_name]

/-! Reading. -/

/-- Name and value of a field that is no tag. -/
def readField (depth : Nat) (f : Json.Field) : Decoded (String × Value) := do
  let name ← ofFault (nameOf f)
  let v ← ofFault (f.2.value depth)
  return (name, v)

theorem readField_eq_ok_iff {depth : Nat} {f : Json.Field} {name : String} {v : Value} :
    readField depth f = .ok (name, v) ↔
      nameOf f = .ok name ∧ f.2.value depth = .ok v := by
  simp only [readField, ofFault, bind_eq_ok_iff, mapError_eq_ok_iff, pure_eq_ok, Except.ok.injEq,
    Prod.mk.injEq]
  constructor
  · rintro ⟨_, hname, _, hv, rfl, rfl⟩
    exact ⟨hname, hv⟩
  · rintro ⟨hname, hv⟩
    exact ⟨name, hname, v, hv, rfl, rfl⟩

theorem map_fst_of_mapM {depth : Nat} {fields : List Json.Field} {vs : List (String × Value)}
    (hvs : fields.mapM (readField depth) = .ok vs) :
    vs.map Prod.fst = (keysOf fields).map fieldName := by
  induction fields generalizing vs with
  | nil =>
    cases hvs
    rfl
  | cons f fields ih =>
    rw [List.mapM_cons] at hvs
    obtain ⟨⟨name, v⟩, hv, hvs⟩ := bind_eq_ok_iff.1 hvs
    obtain ⟨ws, hws, hvs⟩ := bind_eq_ok_iff.1 hvs
    cases hvs
    obtain ⟨key, hkey, rfl⟩ := map_eq_ok_iff.1 (readField_eq_ok_iff.1 hv).1
    have hkeys : keysOf (f :: fields) = key :: keysOf fields :=
      List.filterMap_cons_some (by rw [hkey]; rfl)
    rw [hkeys, List.map_cons, List.map_cons, ih hws]

/-- Fields with distinct keys have distinct names. -/
theorem DistinctKeys.nodup {depth : Nat} {fields : List Json.Field} (h : DistinctKeys fields)
    {vs : List (String × Value)} (hvs : (untagged fields).mapM (readField depth) = .ok vs) :
    (vs.map Prod.fst).Nodup := by
  have hsublist : (keysOf (untagged fields)).Sublist (keysOf fields) :=
    List.Sublist.filterMap _ List.filter_sublist
  rw [map_fst_of_mapM hvs]
  refine List.Nodup.map_on (fun a ha b hb hab => ?_) (hsublist.nodup h.1)
  have ha := hsublist.subset ha
  have hb := hsublist.subset hb
  rw [fieldName, fieldName] at hab
  split_ifs at hab with hargs hargs'
  · rw [hargs, hargs']
  · exact absurd ⟨hab ▸ hb, hargs ▸ ha⟩ h.2
  · rename_i hargs'
    exact absurd ⟨hab ▸ ha, hargs' ▸ hb⟩ h.2
  · exact hab

theorem readTagged_cons {f : Json.Field} (hf : isTag f = false) (depth : Nat) (tag : Option Kind)
    (fields : List Json.Field) :
    readTagged depth tag (f :: fields) =
      readField depth f >>= fun v =>
        (readTagged depth tag fields).map fun found => (found.1, v :: found.2) := by
  obtain ⟨key, n⟩ := f
  rw [readTagged, readField]
  cases key with
  | error e => rfl
  | ok key =>
    have hkey : key ≠ "type" := by
      rintro rfl
      cases hf
    rw [ofFault_ok, ok_bind, if_neg hkey]
    cases n.value depth with
    | error e => rfl
    | ok v => cases readTagged depth tag fields <;> rfl

theorem readTagged_of_untagged {depth : Nat} {fields : List Json.Field}
    (huntagged : ∀ f ∈ fields, isTag f = false) (tag : Option Kind) :
    readTagged depth tag fields = (fields.mapM (readField depth)).map fun vs => (tag, vs) := by
  induction fields with
  | nil => rfl
  | cons f fields ih =>
    obtain ⟨hf, hrest⟩ := List.forall_mem_cons.1 huntagged
    rw [readTagged_cons hf, ih hrest, List.mapM_cons]
    cases readField depth f with
    | error e => rfl
    | ok v => cases fields.mapM (readField depth) <;> rfl

/-- Where one field is the tag, the kind that it names is read, and all other fields. -/
theorem readTagged_eq_ok_iff {depth : Nat} {before after : List Json.Field} {n : Node}
    (huntagged : ∀ f ∈ before ++ after, isTag f = false) {tag : Option Kind}
    {vs : List (String × Value)} :
    readTagged depth none (before ++ (.ok "type", n) :: after) = .ok (tag, vs) ↔
      ∃ k, Kind.decodeTag n = .ok k ∧ tag = some k ∧
        (before ++ after).mapM (readField depth) = .ok vs := by
  -- What stands before the tag is read without a kind, what stands behind it with one.
  induction before generalizing tag vs with
  | nil =>
    rw [List.nil_append, readTagged, ofFault_ok, ok_bind, if_pos rfl]
    change (Kind.decodeTag n >>= fun k => readTagged depth (some k) after) = _ ↔ _
    rw [bind_eq_ok_iff]
    refine exists_congr fun k => and_congr_right fun _ => ?_
    rw [List.nil_append] at huntagged
    rw [readTagged_of_untagged huntagged, List.nil_append]
    cases after.mapM (readField depth) <;> simp [Except.map, eq_comm]
  | cons f before ih =>
    obtain ⟨hf, hrest⟩ := List.forall_mem_cons.1 huntagged
    rw [List.cons_append, List.cons_append, readTagged_cons hf, List.mapM_cons, bind_eq_ok_iff]
    simp only [bind_eq_ok_iff, map_eq_ok_iff, pure_eq_ok, Prod.mk.injEq, Prod.exists, ih hrest,
      Except.ok.injEq]
    constructor
    · rintro ⟨key, v, hv, _, ws, ⟨k, hk, rfl, hws⟩, rfl, rfl⟩
      exact ⟨k, hk, rfl, key, v, hv, ws, hws, rfl⟩
    · rintro ⟨k, hk, rfl, key, v, hv, ws, hws, rfl⟩
      exact ⟨key, v, hv, _, ws, ⟨k, hk, rfl, hws⟩, rfl, rfl⟩

/-- An object is a record of the kind that its tag names if all its other fields can be read and
make one. -/
theorem decode_object_eq_ok_iff {depth : Nat} {fields : List Json.Field} (h : DistinctKeys fields)
    {r : Record} :
    decode depth (.object fields none) = .ok r ↔
      ∃ k vs, Tagged fields k ∧ (untagged fields).mapM (readField (depth + 1)) = .ok vs ∧
        ofFields k vs = .ok r := by
  rw [decode, bind_eq_ok_iff]
  simp only [Prod.exists, atStop, ok_bind]
  by_cases htag : ∃ n, (.ok "type", n) ∈ fields
  · obtain ⟨n, hmem⟩ := htag
    obtain ⟨before, after, rfl⟩ := List.append_of_mem hmem
    have hother := h.isTag_eq_false
    have hrest : untagged (before ++ (.ok "type", n) :: after) = before ++ after := by
      have htag : isTag (.ok "type", n) = true := isTag_iff.2 rfl
      rw [← untagged_eq_self hother, untagged, untagged, List.filter_append, List.filter_append,
        List.filter_cons_of_neg (by simp [htag])]
    have htagged (k : Kind) :
        Tagged (before ++ (.ok "type", n) :: after) k ↔ n = .text k.name := by
      refine ⟨fun hk => ?_, fun hn => hn ▸ hmem⟩
      rcases List.mem_cons.1 (List.perm_middle.mem_iff.1 hk) with hk | hk
      · cases hk
        rfl
      · exact absurd (isTag_iff.2 rfl) (Bool.eq_false_iff.1 (hother _ hk))
    simp only [hrest, htagged, readTagged_eq_ok_iff hother, decodeTag_eq_ok_iff]
    constructor
    · rintro ⟨_, vs, ⟨k, hn, rfl, hvs⟩, hr⟩
      exact ⟨k, vs, hn, hvs, hr⟩
    · rintro ⟨k, vs, hn, hvs, hr⟩
      exact ⟨some k, vs, ⟨k, hn, rfl, hvs⟩, hr⟩
  · -- Without a tag all fields are read, but make no record.
    have hother : ∀ f ∈ fields, isTag f = false := by
      rintro ⟨key, n⟩ hf
      rw [← Bool.not_eq_true, isTag_iff]
      rintro rfl
      exact htag ⟨n, hf⟩
    refine iff_of_false ?_ ?_
    · rintro ⟨tag, vs, hvs, hr⟩
      rw [readTagged_of_untagged hother] at hvs
      obtain ⟨_, -, hvs⟩ := map_eq_ok_iff.1 hvs
      cases hvs
      cases hr
    · rintro ⟨k, -, hk, -⟩
      exact htag ⟨_, hk⟩

/-! What a record is made of. -/

/-- Whether two values, if there are any, are as good as each other in a field of a type. -/
def Alike (t : FieldType) (a b : Option Value) : Prop :=
  a = b ∨ t = .optionalText ∧ (a = none ∨ a = some .null) ∧ (b = none ∨ b = some .null)

theorem Alike.of_forall {t : FieldType} {a b : Option Value}
    (hab : ∀ v, a = some v → b = some v ∨ t = .optionalText ∧ v = .null)
    (hba : ∀ v, b = some v → a = some v ∨ t = .optionalText ∧ v = .null) : Alike t a b := by
  cases a with
  | none =>
    cases b with
    | none => exact .inl rfl
    | some w =>
      obtain hw | ⟨ht, rfl⟩ := hba w rfl
      · cases hw
      · exact .inr ⟨ht, .inl rfl, .inr rfl⟩
  | some v =>
    obtain hv | ⟨ht, rfl⟩ := hab v rfl
    · exact .inl hv.symm
    · cases b with
      | none => exact .inr ⟨ht, .inr rfl, .inl rfl⟩
      | some w =>
        obtain hw | ⟨-, rfl⟩ := hba w rfl
        · exact .inl hw
        · exact .inl rfl

section
variable {vs ws : List (String × Value)} {key : String} {t : FieldType}

theorem Alike.check (h : Alike t (vs.lookup key) (ws.lookup key)) {v : Value}
    (hvs : ∀ v, vs.lookup key = some v → t.check v = .ok ()) (hv : ws.lookup key = some v) :
    t.check v = .ok () := by
  obtain h | ⟨rfl, -, hnone | hnull⟩ := h
  · exact hvs v (h.trans hv)
  · rw [hv] at hnone
    cases hnone
  · rw [hv] at hnull
    cases hnull
    rfl

theorem Alike.field_eq {α : Type} (h : Alike t (vs.lookup key) (ws.lookup key))
    (ht : t ≠ .optionalText) (decode : Value → Decoded α) :
    field vs decode key = field ws decode key := by
  obtain h | ⟨hoptional, -⟩ := h
  · rw [field, field, h]
  · exact absurd hoptional ht

theorem field?_of_null (h : vs.lookup key = none ∨ vs.lookup key = some .null) :
    field? vs key = .ok none := by
  obtain h | h := h <;> rw [field?, h]
  rfl

theorem Alike.field?_eq (h : Alike t (vs.lookup key) (ws.lookup key)) :
    field? vs key = field? ws key := by
  obtain h | ⟨-, hvs, hws⟩ := h
  · rw [field?, field?, h]
  · rw [field?_of_null hvs, field?_of_null hws]

end

/-- A record depends on what stands under the keys of its kind, and not on whether optional fields
are left out or null. -/
theorem ofFields_congr {k : Kind} {vs ws : List (String × Value)} (hvs : (vs.map Prod.fst).Nodup)
    (hws : (ws.map Prod.fst).Nodup)
    (h : ∀ key t, k.fields.lookup key = some t → Alike t (vs.lookup key) (ws.lookup key))
    {r : Record} (hr : ofFields k vs = .ok r) : ofFields k ws = .ok r := by
  obtain ⟨_, hcheck, hr⟩ := bind_eq_ok_iff.1 hr
  have hcheck' : checkFields k.fields [] ws = .ok () := by
    rw [checkFields_eq_ok_iff hws (by simp)]
    rw [checkFields_eq_ok_iff hvs (by simp)] at hcheck
    rintro ⟨key, v⟩ hf t ht
    refine (h key t ht).check (fun w hw => hcheck _ (mem_of_lookup hw) t ht) ?_
    exact (lookup_eq_some_iff_mem hws).2 hf
  have hnat (key : String) (ht : k.fields.lookup key = some .nat) :=
    (h key _ ht).field_eq (by decide) Value.asNat
  have htext (key : String) (ht : k.fields.lookup key = some .text) :=
    (h key _ ht).field_eq (by decide) Value.asText
  have htexts (key : String) (ht : k.fields.lookup key = some .texts) :=
    (h key _ ht).field_eq (by decide) Value.asTexts
  have hoptional (key : String) (ht : k.fields.lookup key = some .optionalText) :=
    (h key _ ht).field?_eq
  rw [ofFields, hcheck', ok_bind, ← hr]
  cases k <;> simp [Kind.fields, List.lookup_cons, hnat, htext, htexts, hoptional]

/-! Objects with the same fields. -/

/-- Whether a field, inside `depth` containers, tells nothing about a record of a kind: there is no
such field, or it may be left out and is null. -/
inductive Idle (depth : Nat) (k : Kind) (f : Json.Field) : Prop where
  | unknown {name v} (hname : nameOf f = .ok name) (hfield : k.fields.lookup name = none)
    (hv : f.2.value depth = .ok v)
  | null {name} (hname : nameOf f = .ok name)
    (hfield : k.fields.lookup name = some .optionalText) (hnull : f.2 = .null)

/-- Whether a field of an object can as well be left out, whatever kind the object names. -/
def Ignorable (depth : Nat) (fields : List Json.Field) (f : Json.Field) : Prop :=
  nameOf f ≠ .ok "type" ∧ ∀ k, Tagged fields k → Idle depth k f

/-- Fields with one name and one value. -/
def SameField (f g : Json.Field) : Prop := nameOf f = nameOf g ∧ f.2 = g.2

/-- Fields that are among others, those that can as well be left out aside. -/
def Covered (depth : Nat) (fields fields' : List Json.Field) : Prop :=
  ∀ f ∈ fields, Ignorable depth fields f ∨ ∃ g ∈ fields', SameField f g

/-- Two lists of the same fields, in any order, those that can as well be left out aside. -/
def SameFields (depth : Nat) (fields fields' : List Json.Field) : Prop :=
  Covered depth fields fields' ∧ Covered depth fields' fields

/-- A tag is among fields that cover others. -/
theorem Covered.tagged {depth : Nat} {fields fields' : List Json.Field}
    (h : Covered depth fields fields') {k : Kind} (hk : Tagged fields k) : Tagged fields' k := by
  obtain ⟨htype, -⟩ | ⟨⟨key, n⟩, hg, hkey, rfl⟩ := h _ hk
  · exact absurd rfl htype
  · obtain rfl := isTag_iff.1 (isTag_iff_name.2 hkey.symm)
    exact hg

theorem Idle.exists_value {depth : Nat} {k : Kind} {f : Json.Field} (h : Idle depth k f) :
    ∃ name v, readField depth f = .ok (name, v) ∧
      (k.fields.lookup name = none ∨ k.fields.lookup name = some .optionalText ∧ v = .null) := by
  cases h with
  | unknown hname hfield hv => exact ⟨_, _, readField_eq_ok_iff.2 ⟨hname, hv⟩, .inl hfield⟩
  | null hname hfield hnull =>
    exact ⟨_, .null, readField_eq_ok_iff.2 ⟨hname, by rw [hnull]; rfl⟩, .inr ⟨hfield, rfl⟩⟩

theorem readField_congr {depth : Nat} {f g : Json.Field} (h : SameField f g) :
    readField depth f = readField depth g := by
  rw [readField, readField, h.1, h.2]

section
variable {depth : Nat} {fields fields' : List Json.Field} (h : Covered depth fields fields')
include h

/-- Fields can be read if those that cover them can. -/
theorem Covered.exists_mapM {k : Kind} (hk : Tagged fields k) {ws : List (String × Value)}
    (hws : (untagged fields').mapM (readField depth) = .ok ws) :
    ∃ vs, (untagged fields).mapM (readField depth) = .ok vs := by
  refine exists_mapM_eq_ok_iff.2 fun f hf => ?_
  obtain ⟨hmem, hname⟩ := mem_untagged_iff.1 hf
  obtain ⟨-, hidle⟩ | ⟨g, hg, hsame⟩ := h f hmem
  · obtain ⟨name, v, hv, -⟩ := (hidle k hk).exists_value
    exact ⟨_, hv⟩
  · rw [readField_congr hsame]
    exact exists_mapM_eq_ok_iff.1 ⟨ws, hws⟩ g (mem_untagged_iff.2 ⟨hg, hsame.1 ▸ hname⟩)

theorem Covered.lookup {k : Kind} (hk : Tagged fields k) {vs ws : List (String × Value)}
    (hvs : (untagged fields).mapM (readField depth) = .ok vs)
    (hws : (untagged fields').mapM (readField depth) = .ok ws) (hkeys : (ws.map Prod.fst).Nodup)
    {name : String} {t : FieldType} (ht : k.fields.lookup name = some t) {v : Value}
    (hv : vs.lookup name = some v) :
    ws.lookup name = some v ∨ t = .optionalText ∧ v = .null := by
  obtain ⟨f, hf, hread⟩ := (mem_iff_of_mapM_eq_ok hvs).1 (mem_of_lookup hv)
  obtain ⟨hmem, hname⟩ := mem_untagged_iff.1 hf
  obtain ⟨-, hidle⟩ | ⟨g, hg, hsame⟩ := h f hmem
  · -- A field of the kind can only be left out if it is null.
    obtain ⟨name', v', hread', hv'⟩ := (hidle k hk).exists_value
    rw [hread] at hread'
    cases hread'
    rw [ht] at hv'
    exact .inr (by simpa using hv')
  · refine .inl ((lookup_eq_some_iff_mem hkeys).2 ((mem_iff_of_mapM_eq_ok hws).2 ⟨g, ?_, ?_⟩))
    · exact mem_untagged_iff.2 ⟨hg, hsame.1 ▸ hname⟩
    · rw [← readField_congr hsame, hread]

end

theorem decode_of_sameFields {depth : Nat} {fields fields' : List Json.Field}
    (hdistinct : DistinctKeys fields) (hdistinct' : DistinctKeys fields')
    (h : SameFields (depth + 1) fields fields') {r : Record}
    (hr : decode depth (.object fields none) = .ok r) :
    decode depth (.object fields' none) = .ok r := by
  obtain ⟨hcovered, hcovered'⟩ := h
  obtain ⟨k, vs, hk, hvs, hr⟩ := (decode_object_eq_ok_iff hdistinct).1 hr
  have hk' := hcovered.tagged hk
  obtain ⟨ws, hws⟩ := hcovered'.exists_mapM hk' hvs
  have hkeys := hdistinct.nodup hvs
  have hkeys' := hdistinct'.nodup hws
  refine (decode_object_eq_ok_iff hdistinct').2 ⟨k, ws, hk', hws, ?_⟩
  refine ofFields_congr hkeys hkeys' (fun name t ht => ?_) hr
  exact Alike.of_forall (fun v => hcovered.lookup hk hvs hws hkeys' ht)
    fun v => hcovered'.lookup hk' hws hvs hkeys ht

/-! Optional fields. -/

theorem content_of_ofFields {k : Kind} {vs : List (String × Value)} {first last : Nat}
    {text : Option String} (h : ofFields k vs = .ok (.comment first last text)) :
    field? vs "content" = .ok text := by
  obtain ⟨_, -, h⟩ := bind_eq_ok_iff.1 h
  cases k with
  | comment =>
    simp only [bind_eq_ok_iff, pure_eq_ok, Except.ok.injEq, comment.injEq] at h
    obtain ⟨_, -, _, -, _, htext, -, -, rfl⟩ := h
    exact htext
  | _ => simp [bind_eq_ok_iff] at h

theorem receiver_of_ofFields {k : Kind} {vs : List (String × Value)} {line : Nat}
    {receiver : Option String} {ps : List String} {name signature source : String}
    (h : ofFields k vs =
      .ok (.code ⟨line, .functionExpression receiver ps, name, signature, source⟩)) :
    field? vs "receiver" = .ok receiver := by
  obtain ⟨_, -, h⟩ := bind_eq_ok_iff.1 h
  cases k with
  | functionExpression =>
    obtain ⟨_, -, h⟩ := bind_eq_ok_iff.1 h
    obtain ⟨_, hreceiver, h⟩ := bind_eq_ok_iff.1 h
    simp only [bind_eq_ok_iff, pure_eq_ok, Except.ok.injEq, code.injEq, CodeLine.mk.injEq,
      Form.functionExpression.injEq] at h
    obtain ⟨_, -, _, -, _, -, _, -, -, ⟨rfl, -⟩, -⟩ := h
    exact hreceiver
  | _ => simp [bind_eq_ok_iff] at h

/-- Under a key that is absent or holds a null there is nothing. -/
theorem lookup_of_null {depth : Nat} {fields : List Json.Field} {vs : List (String × Value)}
    (hvs : (untagged fields).mapM (readField depth) = .ok vs) {key : String} (hkey : key ≠ "params")
    (hnull : ∀ n, (.ok key, n) ∈ fields → n = .null) :
    vs.lookup key = none ∨ vs.lookup key = some .null := by
  rw [or_iff_not_imp_left, ← Ne, Option.ne_none_iff_exists']
  rintro ⟨v, hv⟩
  obtain ⟨⟨key', n⟩, hf, hread⟩ := (mem_iff_of_mapM_eq_ok hvs).1 (mem_of_lookup hv)
  obtain ⟨hname, hn⟩ := readField_eq_ok_iff.1 hread
  obtain ⟨other, rfl, hother⟩ := map_eq_ok_iff.1 hname
  rw [fieldName] at hother
  split at hother
  · exact absurd hother.symm hkey
  · obtain rfl := hnull n (hother ▸ (mem_untagged_iff.1 hf).1)
    cases hn
    exact hv

/-! What makes no difference. -/

theorem Covered.of_subset {depth : Nat} {fields fields' : List Json.Field}
    (h : ∀ f ∈ fields, f ∈ fields') : Covered depth fields fields' :=
  fun f hf => .inr ⟨f, h f hf, rfl, rfl⟩

theorem Covered.trans {depth : Nat} {fields fields' fields'' : List Json.Field}
    (h : Covered depth fields fields') (h' : Covered depth fields' fields'') :
    Covered depth fields fields'' := by
  intro f hf
  obtain hf | ⟨g, hg, hname, hvalue⟩ := h f hf
  · exact .inl hf
  obtain ⟨htype, hidle⟩ | ⟨g', hg', hname', hvalue'⟩ := h' g hg
  · refine .inl ⟨hname ▸ htype, fun k hk => ?_⟩
    cases hidle k (h.tagged hk) with
    | unknown hkey hfield hv => exact .unknown (hname.trans hkey) hfield (hvalue ▸ hv)
    | null hkey hfield hnull => exact .null (hname.trans hkey) hfield (hvalue.trans hnull)
  · exact .inr ⟨g', hg', hname.trans hname', hvalue.trans hvalue'⟩

namespace SameFields
variable {depth : Nat} {fields fields' fields'' : List Json.Field}

theorem symm (h : SameFields depth fields fields') : SameFields depth fields' fields :=
  ⟨h.2, h.1⟩

theorem trans (h : SameFields depth fields fields') (h' : SameFields depth fields' fields'') :
    SameFields depth fields fields'' :=
  ⟨h.1.trans h'.1, h'.2.trans h.2⟩

/-- Fields may stand in any order. -/
theorem of_perm (h : fields.Perm fields') : SameFields depth fields fields' :=
  ⟨.of_subset fun _ => h.mem_iff.1, .of_subset fun _ => h.mem_iff.2⟩

/-- Parameters may go by the name of arguments. -/
theorem rename (before after : List Json.Field) (n : Node) :
    SameFields depth (before ++ (.ok "params", n) :: after)
      (before ++ (.ok "args", n) :: after) := by
  constructor <;>
  · intro f hf
    rcases List.mem_cons.1 (List.perm_middle.mem_iff.1 hf) with rfl | hf
    · exact .inr ⟨_, List.mem_append_right _ List.mem_cons_self, by rfl, rfl⟩
    · exact .inr ⟨f, List.perm_middle.mem_iff.2 (List.mem_cons_of_mem _ hf), rfl, rfl⟩

/-- A field that the kind does not have may be added, and an optional one that is null. -/
theorem add (before after : List Json.Field) {f : Json.Field}
    (h : Ignorable depth (before ++ after) f) :
    SameFields depth (before ++ after) (before ++ f :: after) := by
  obtain ⟨htype, hidle⟩ := h
  refine ⟨.of_subset fun g hg => List.perm_middle.mem_iff.2 (List.mem_cons_of_mem f hg), ?_⟩
  intro g hg
  rcases List.mem_cons.1 (List.perm_middle.mem_iff.1 hg) with rfl | hg
  · refine .inl ⟨htype, fun k hk => hidle k ?_⟩
    rcases List.mem_cons.1 (List.perm_middle.mem_iff.1 hk) with rfl | hk
    · exact absurd rfl htype
    · exact hk
  · exact .inr ⟨g, hg, rfl, rfl⟩

end SameFields

end Record

/-- Whether a text holds an object with some fields, and nothing else. -/
def Json.HoldsObject (fields : List Json.Field) (s : List Char) : Prop :=
  Document.ofText s = ⟨.object fields none, false⟩

theorem Json.holdsObject_of_isText {fields : List (String × Value)} {s : List Char}
    (h : (Value.object fields).IsText s) : HoldsObject (fieldNodes fields) s :=
  document_of_isText h

theorem Record.ofText_of_holdsObject {fields : List Json.Field} {s : List Char}
    (h : HoldsObject fields s) : ofText s = decode 0 (.object fields none) := by
  rw [ofText, h, Document.decode_eq]

/-- A record out of an object in which no key stands twice depends on the fields alone. It makes no
difference in which order they stand, whether parameters go by the name of arguments, what else
there is that the kind of the record does not have, and whether optional fields are left out or
null. An object with the fields of a record is read as that record. Optional fields that are left
out or null are read as absent. -/
theorem record_depends_on_fields {fields : List Json.Field} {s : List Char}
    (hs : HoldsObject fields s) (hkeys : Record.DistinctKeys fields) :
    (∀ fields' s', HoldsObject fields' s' → Record.DistinctKeys fields' →
      Record.SameFields 1 fields fields' →
      (Record.ofText s').toOption = (Record.ofText s).toOption) ∧
    (∀ r : Record, r.InRange → Record.SameFields 1 fields (fieldNodes r.fields) →
      Record.ofText s = .ok r) ∧
    (∀ first last text, Record.ofText s = .ok (.comment first last text) →
      (∀ n, (.ok "content", n) ∈ fields → n = .null) → text = none) ∧
    ∀ line receiver ps name signature source,
      Record.ofText s =
        .ok (.code ⟨line, .functionExpression receiver ps, name, signature, source⟩) →
      (∀ n, (.ok "receiver", n) ∈ fields → n = .null) → receiver = none := by
  have hdecode := Record.ofText_of_holdsObject hs
  refine ⟨?_, ?_, ?_, ?_⟩
  · intro fields' s' hs' hkeys' hsame
    rw [hdecode, Record.ofText_of_holdsObject hs']
    ext r
    constructor
    · intro hr
      rw [Record.decode_of_sameFields hkeys' hkeys hsame.symm (eq_ok_of_toOption hr)]
      rfl
    · intro hr
      rw [Record.decode_of_sameFields hkeys hkeys' hsame (eq_ok_of_toOption hr)]
      rfl
  · intro r hr hsame
    have hkeys' := Record.distinctKeys_fields hr
    rw [hdecode]
    exact Record.decode_of_sameFields hkeys' hkeys hsame.symm (Record.decode_node hr (by decide))
  · intro first last text hr hnull
    rw [hdecode, Record.decode_object_eq_ok_iff hkeys] at hr
    obtain ⟨k, vs, -, hvs, hr⟩ := hr
    have htext := Record.content_of_ofFields hr
    rw [Record.field?_of_null (Record.lookup_of_null hvs (by decide) hnull)] at htext
    exact (Except.ok.inj htext).symm
  · intro line receiver ps name signature source hr hnull
    rw [hdecode, Record.decode_object_eq_ok_iff hkeys] at hr
    obtain ⟨k, vs, -, hvs, hr⟩ := hr
    have hreceiver := Record.receiver_of_ofFields hr
    rw [Record.field?_of_null (Record.lookup_of_null hvs (by decide) hnull)] at hreceiver
    exact (Except.ok.inj hreceiver).symm

/-- The parameters go by their other name, the receiver is null, there is a field that no kind has,
and the tag is the last field. -/
theorem record_depends_on_fields_rearranged :
    let r : Record := .code ⟨3, .functionExpression none ["a"], "f", "f(a)", "var f = function (a)"⟩
    let given : List (String × Value) := [("begin", .nat 3), ("name", .text "f"),
      ("args", .texts ["a"]), ("string", .text "f(a)"), ("original", .text "var f = function (a)"),
      ("receiver", .null), ("x", .array []), ("type", .text "function expression")]
    HoldsObject (fieldNodes given) (Value.object given).compact ∧
      Record.DistinctKeys (fieldNodes given) ∧
      Record.SameFields 1 (fieldNodes given) (fieldNodes r.fields) ∧
      Record.ofText (Value.object given).compact = .ok r := by
  intro r given
  have htext : HoldsObject (fieldNodes given) (Value.object given).compact :=
    holdsObject_of_isText (isText_compact (by simp [given, Value.Natural, greatest]))
  have hkeys : Record.DistinctKeys (fieldNodes given) := by
    rw [Record.DistinctKeys, Record.keysOf_fieldNodes]
    decide
  have hsame : Record.SameFields 1 (fieldNodes given) (fieldNodes r.fields) := by
    let tag := fieldNodes [("type", .text "function expression")]
    let front := fieldNodes [("begin", .nat 3), ("name", .text "f")]
    let back := fieldNodes [("string", .text "f(a)"), ("original", .text "var f = function (a)")]
    let params := (Value.texts ["a"]).node
    let rest := front ++ (.ok "args", params) :: back
    have hargs : Record.SameFields 1 (fieldNodes r.fields) (tag ++ rest) :=
      .rename (tag ++ front) back params
    have hx : Record.SameFields 1 (tag ++ rest) ((.ok "x", .array [] none) :: (tag ++ rest)) :=
      .add [] _ ⟨by simp [Record.fieldName], fun k _ => .unknown rfl (by cases k <;> rfl) rfl⟩
    have hreceiver : Record.SameFields 1 ((.ok "x", .array [] none) :: (tag ++ rest))
        ((.ok "receiver", .null) :: (.ok "x", .array [] none) :: (tag ++ rest)) := by
      refine .add [] _ ⟨by simp [Record.fieldName], fun k hk => ?_⟩
      have hname : k.name = "function expression" := by
        simpa [Record.Tagged, tag, rest, front, back, fieldNodes, Value.node] using hk
      obtain rfl : k = .functionExpression := by cases k <;> simp [Kind.name] at hname ⊢
      exact .null rfl rfl rfl
    have hperm : ((.ok "receiver", .null) :: (.ok "x", .array [] none) :: tag ++ rest).Perm
        (rest ++ (.ok "receiver", .null) :: (.ok "x", .array [] none) :: tag) :=
      List.perm_append_comm
    exact (((hargs.trans hx).trans hreceiver).trans (.of_perm hperm)).symm
  exact ⟨htext, hkeys, hsame, (record_depends_on_fields htext hkeys).2.1 r (by decide) hsame⟩

end ScriptOutline
