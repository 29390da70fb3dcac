import ScriptOutline.Json.Problem
import ScriptOutline.Proofs.Json.Scalar

/-!
Values as they are written, on one line or indented, are read back as trees without a fault
(`document_compact`, `document_pretty`).
-/

set_option autoImplicit false

namespace ScriptOutline.Json

mutual

/-- Whether all numbers in a value are natural numbers of 64 bits. -/
def Value.Natural : Value → Prop
  | .number (.whole n) => ∃ k : Nat, n = k ∧ k ≤ greatest
  | .number (.real _) => False
  | .array vs => ItemsNatural vs
  | .object fields => FieldsNatural fields
  | .null | .bool _ | .text _ => True

def ItemsNatural : List Value → Prop
  | [] => True
  | v :: vs => v.Natural ∧ ItemsNatural vs

def FieldsNatural : List (String × Value) → Prop
  | [] => True
  | (_, v) :: fields => v.Natural ∧ FieldsNatural fields

end

@[simp] theorem itemsNatural_iff (vs : List Value) : ItemsNatural vs ↔ ∀ v ∈ vs, v.Natural := by
  induction vs with
  | nil => simp [ItemsNatural]
  | cons v vs ih => simp [ItemsNatural, ih]

@[simp] theorem fieldsNatural_iff (fields : List (String × Value)) :
    FieldsNatural fields ↔ ∀ f ∈ fields, f.2.Natural := by
  induction fields with
  | nil => simp [FieldsNatural]
  | cons f fields ih => simp [FieldsNatural, ih]

@[simp] theorem natural_nat (n : Nat) : (Value.nat n).Natural ↔ n ≤ greatest := by
  constructor
  · rintro ⟨k, hk, hle⟩
    rwa [Int.ofNat_inj.1 hk]
  · intro hle
    exact ⟨n, rfl, hle⟩

@[simp] theorem natural_texts (xs : List String) : (Value.texts xs).Natural := by
  simp [Value.texts, Value.Natural]

mutual

/-- The tokens of a value, however it is spaced. -/
def Value.tokens : Value → List Token
  | .null => [.null]
  | .bool b => [.bool b]
  | .number n => [.number (.ok n)]
  | .text s => [.text (.ok s)]
  | .array vs => .openArray :: itemTokens vs ++ [.closeArray]
  | .object fields => .openObject :: fieldTokens fields ++ [.closeObject]

def itemTokens : List Value → List Token
  | [] => []
  | [v] => v.tokens
  | v :: vs => v.tokens ++ .comma :: itemTokens vs

def fieldTokens : List (String × Value) → List Token
  | [] => []
  | [(k, v)] => .text (.ok k) :: .colon :: v.tokens
  | (k, v) :: fields => .text (.ok k) :: .colon :: v.tokens ++ .comma :: fieldTokens fields

end

/-! On one line. -/

mutual

theorem tokens_compact (v : Value) (hv : v.Natural) (rest : List Char) (hrest : EndsNumber rest) :
    Json.tokens (v.compact ++ rest) = v.tokens ++ Json.tokens rest := by
  cases v with
  | null => simp [Value.compact, Value.tokens, tokens_cons, isSpace, token, wordToken, word?]
  | bool b => simp [Value.compact, Value.tokens, tokens_boolWord]
  | number n =>
    cases n with
    | real x => exact absurd hv id
    | whole n =>
      obtain ⟨k, rfl, hk⟩ := hv
      simp [Value.compact, Value.tokens, Number.text, tokens_wholeText hk hrest]
  | text s => simp [Value.compact, Value.tokens, tokens_textLiteral]
  | array vs =>
    have hvs := tokens_compactItems vs hv (']' :: rest) (by simp [EndsNumber])
    simp [Value.compact, Value.tokens, tokens_cons, isSpace, token, hvs]
  | object fields =>
    have hfields := tokens_compactFields fields hv ('\x7d' :: rest)
      (by simp [EndsNumber])
    simp [Value.compact, Value.tokens, tokens_cons, isSpace, token, hfields]

theorem tokens_compactItems (vs : List Value) (hvs : ItemsNatural vs) (rest : List Char)
    (hrest : EndsNumber rest) :
    Json.tokens (compactItems vs ++ rest) = itemTokens vs ++ Json.tokens rest := by
  match vs with
  | [] => rfl
  | [v] => exact tokens_compact v hvs.1 rest hrest
  | v :: w :: vs =>
    -- The comma ends the value before it, even if that is a number.
    have hv := tokens_compact v hvs.1 (',' :: (compactItems (w :: vs) ++ rest))
      (by simp [EndsNumber])
    have htail := tokens_compactItems (w :: vs) hvs.2 rest hrest
    simp [compactItems, itemTokens, hv, htail, tokens_cons, isSpace, token]

theorem tokens_compactFields (fields : List (String × Value)) (hfields : FieldsNatural fields)
    (rest : List Char) (hrest : EndsNumber rest) :
    Json.tokens (compactFields fields ++ rest) = fieldTokens fields ++ Json.tokens rest := by
  match fields with
  | [] => rfl
  | [(k, v)] =>
    have hv := tokens_compact v hfields.1 rest hrest
    simp [compactFields, fieldTokens, tokens_textLiteral, hv, tokens_cons, isSpace, token]
  | (k, v) :: f :: fields =>
    have hv := tokens_compact v hfields.1 (',' :: (compactFields (f :: fields) ++ rest))
      (by simp [EndsNumber])
    have htail := tokens_compactFields (f :: fields) hfields.2 rest hrest
    simp [compactFields, fieldTokens, tokens_textLiteral, hv, htail, tokens_cons, isSpace, token]

end

/-! Indented. -/

theorem tokens_newLine (level : Nat) (s : List Char) :
    Json.tokens (newLine level ++ s) = Json.tokens s := by
  have hspaces (n : Nat) : Json.tokens (List.replicate n ' ' ++ s) = Json.tokens s := by
    induction n with
    | zero => rfl
    | succ n ih => rw [List.replicate_succ, List.cons_append, tokens_space (by rfl), ih]
  rw [newLine, List.cons_append, tokens_space (by rfl), hspaces]

theorem endsNumber_newLine (level : Nat) (s : List Char) : EndsNumber (newLine level ++ s) := by
  simp [newLine, EndsNumber]

mutual

theorem tokens_pretty (level : Nat) (v : Value) (hv : v.Natural) (rest : List Char)
    (hrest : EndsNumber rest) :
    Json.tokens (v.pretty level ++ rest) = v.tokens ++ Json.tokens rest := by
  match v with
  | .null => simp [Value.pretty, Value.tokens, tokens_cons, isSpace, token, wordToken, word?]
  | .bool b => simp [Value.pretty, Value.tokens, tokens_boolWord]
  | .number (.real x) => exact absurd hv id
  | .number (.whole n) =>
    obtain ⟨k, rfl, hk⟩ := hv
    simp [Value.pretty, Value.tokens, Number.text, tokens_wholeText hk hrest]
  | .text s => simp [Value.pretty, Value.tokens, tokens_textLiteral]
  | .array [] => simp [Value.pretty, Value.tokens, itemTokens, tokens_cons, isSpace, token]
  | .array (v :: vs) =>
    have hvs := tokens_prettyItems (level + 1) (v :: vs) hv _
      (endsNumber_newLine level (']' :: rest))
    simp [Value.pretty, Value.tokens, tokens_cons, isSpace, token, hvs, tokens_newLine]
  | .object [] => simp [Value.pretty, Value.tokens, fieldTokens, tokens_cons, isSpace, token]
  | .object (f :: fields) =>
    have hfields := tokens_prettyFields (level + 1) (f :: fields) hv _
      (endsNumber_newLine level ('\x7d' :: rest))
    simp [Value.pretty, Value.tokens, tokens_cons, isSpace, token, hfields, tokens_newLine]

theorem tokens_prettyItems (level : Nat) (vs : List Value) (hvs : ItemsNatural vs)
    (rest : List Char) (hrest : EndsNumber rest) :
    Json.tokens (prettyItems level vs ++ rest) = itemTokens vs ++ Json.tokens rest := by
  match vs with
  | [] => rfl
  | [v] =>
    rw [prettyItems, List.append_assoc, tokens_newLine, tokens_pretty level v hvs.1 rest hrest,
      itemTokens]
  | v :: w :: vs =>
    have hv := tokens_pretty level v hvs.1
      (',' :: (prettyItems level (w :: vs) ++ rest)) (by simp [EndsNumber])
    have htail := tokens_prettyItems level (w :: vs) hvs.2 rest hrest
    simp [prettyItems, itemTokens, tokens_newLine, hv, htail, tokens_cons, isSpace, token]

theorem tokens_prettyFields (level : Nat) (fields : List (String × Value))
    (hfields : FieldsNatural fields) (rest : List Char) (hrest : EndsNumber rest) :
    Json.tokens (prettyFields level fields ++ rest) = fieldTokens fields ++ Json.tokens rest := by
  match fields with
  | [] => rfl
  | [(k, v)] =>
    have hv := tokens_pretty level v hfields.1 rest hrest
    simp [prettyFields, fieldTokens, tokens_newLine, tokens_textLiteral, hv, tokens_cons,
      tokens_space, isSpace, token]
  | (k, v) :: f :: fields =>
    have hv := tokens_pretty level v hfields.1
      (',' :: (prettyFields level (f :: fields) ++ rest)) (by simp [EndsNumber])
    have htail := tokens_prettyFields level (f :: fields) hfields.2 rest hrest
    simp [prettyFields, fieldTokens, tokens_newLine, tokens_textLiteral, hv, htail, tokens_cons,
      tokens_space, isSpace, token]

end

/-! Trees. -/

/-- A closing bracket is no part of a value's first token. -/
theorem tokens_eq_cons (v : Value) :
    ∃ t ts, v.tokens = t :: ts ∧ t ≠ .closeArray := by
  cases v <;> simp [Value.tokens]

theorem itemTokens_eq_cons (v : Value) (vs : List Value) :
    ∃ t ts, itemTokens (v :: vs) = t :: ts ∧ t ≠ .closeArray := by
  obtain ⟨t, ts, hv, ht⟩ := tokens_eq_cons v
  cases vs <;> simp [itemTokens, hv, ht]

theorem fieldTokens_eq_cons (f : String × Value) (fields : List (String × Value)) :
    ∃ ts, fieldTokens (f :: fields) = .text (.ok f.1) :: ts := by
  cases fields <;> simp [fieldTokens]

theorem readNode_openArray {t : Token} (ht : t ≠ .closeArray) (n : Nat) (ts : List Token) :
    readNode (n + 1) (.openArray :: t :: ts) =
      (.array (readItems n (t :: ts)).1 (readItems n (t :: ts)).2.1,
        (readItems n (t :: ts)).2.2) := by
  simp [readNode, ht]

theorem readNode_openObject {t : Token} (ht : t ≠ .closeObject) (n : Nat) (ts : List Token) :
    readNode (n + 1) (.openObject :: t :: ts) =
      (.object (readFields n (t :: ts)).1 (readFields n (t :: ts)).2.1,
        (readFields n (t :: ts)).2.2) := by
  simp [readNode, ht]

theorem readItems_comma {t : Token} (ht : t ≠ .closeArray) {n : Nat} {ts rest : List Token}
    {item : Node} (hitem : readNode n ts = (item, .comma :: t :: rest)) :
    readItems (n + 1) ts =
      (item :: (readItems n (t :: rest)).1, (readItems n (t :: rest)).2) := by
  simp [readItems, hitem, ht]

mutual

/-- Twice as many calls as tokens take a value back out of its tokens. -/
theorem readNode_tokens (v : Value) (ts : List Token) {n : Nat}
    (hn : 2 * v.tokens.length ≤ n) : readNode n (v.tokens ++ ts) = (v.node, ts) := by
  obtain ⟨m, rfl⟩ : ∃ m, n = m + 1 := by
    obtain ⟨t, vts, hv, -⟩ := tokens_eq_cons v
    refine ⟨n - 1, ?_⟩
    simp only [hv, List.length_cons] at hn
    omega
  match v with
  | .null | .bool b | .number n | .text s => simp [Value.tokens, readNode, Token.node, Value.node]
  | .array [] => simp [Value.tokens, itemTokens, readNode, Value.node, itemNodes]
  | .object [] => simp [Value.tokens, fieldTokens, readNode, Value.node, fieldNodes]
  | .array (v :: vs) =>
    obtain ⟨t, vts, hv, ht⟩ := itemTokens_eq_cons v vs
    have hitems := readItems_itemTokens (v :: vs) (List.cons_ne_nil v vs) ts (n := m) (by
      simp only [Value.tokens, List.length_append, List.length_cons] at hn
      omega)
    rw [hv, List.cons_append] at hitems
    simp [Value.tokens, Value.node, hv, readNode_openArray ht, hitems]
  | .object (f :: fields) =>
    obtain ⟨fts, hf⟩ := fieldTokens_eq_cons f fields
    have hfields := readFields_fieldTokens (f :: fields) (List.cons_ne_nil f fields) ts (n := m) (by
      simp only [Value.tokens, List.length_append, List.length_cons] at hn
      omega)
    rw [hf, List.cons_append] at hfields
    simp [Value.tokens, Value.node, hf, readNode_openObject, hfields]

theorem readItems_itemTokens (vs : List Value) (hne : vs ≠ []) (ts : List Token) {n : Nat}
    (hn : 2 * (itemTokens vs).length + 1 ≤ n) :
    readItems n (itemTokens vs ++ .closeArray :: ts) = (itemNodes vs, none, ts) := by
  obtain ⟨m, rfl⟩ : ∃ m, n = m + 1 := ⟨n - 1, by omega⟩
  match vs with
  | [] => exact absurd rfl hne
  | [v] =>
    have hv := readNode_tokens v (.closeArray :: ts) (n := m) (by
      simp only [itemTokens] at hn
      omega)
    simp [itemTokens, itemNodes, readItems, hv]
  | v :: w :: vs =>
    obtain ⟨t, wts, hw, ht⟩ := itemTokens_eq_cons w vs
    simp only [itemTokens, List.length_append, List.length_cons] at hn
    have hv := readNode_tokens v (.comma :: (itemTokens (w :: vs) ++ .closeArray :: ts)) (n := m)
      (by omega)
    have htail := readItems_itemTokens (w :: vs) (List.cons_ne_nil w vs) ts (n := m) (by omega)
    rw [hw, List.cons_append] at hv htail
    simp [itemTokens, itemNodes, hw, readItems_comma ht hv, htail]

theorem readFields_fieldTokens (fields : List (String × Value)) (hne : fields ≠ [])
    (ts : List Token) {n : Nat} (hn : 2 * (fieldTokens fields).length + 1 ≤ n) :
    readFields n (fieldTokens fields ++ .closeObject :: ts) = (fieldNodes fields, none, ts) := by
  obtain ⟨m, rfl⟩ : ∃ m, n = m + 1 := ⟨n - 1, by omega⟩
  match fields with
  | [] => exact absurd rfl hne
  | [(k, v)] =>
    simp only [fieldTokens, List.length_cons] at hn
    have hv := readNode_tokens v (.closeObject :: ts) (n := m) (by omega)
    simp [fieldTokens, fieldNodes, readFields, hv]
  | (k, v) :: g :: fields =>
    obtain ⟨gts, hg⟩ := fieldTokens_eq_cons g fields
    simp only [fieldTokens, List.length_append, List.length_cons] at hn
    have hv := readNode_tokens v (.comma :: (fieldTokens (g :: fields) ++ .closeObject :: ts))
      (n := m) (by omega)
    have htail := readFields_fieldTokens (g :: fields) (List.cons_ne_nil g fields) ts (n := m)
      (by omega)
    rw [hg, List.cons_append] at hv htail
    simp [fieldTokens, fieldNodes, hg, readFields, hv, htail]

end

theorem readNode_value (v : Value) :
    readNode (2 * v.tokens.length) v.tokens = (v.node, []) := by
  simpa using readNode_tokens v [] (Nat.le_refl _)

theorem Document.decode_eq {α : Type} (n : Node) (decode : Node → Decoded α) :
    Document.decode ⟨n, false⟩ decode = decode n := by
  rw [Document.decode]
  cases decode n <;> rfl

/-- A text read as one value. -/
def Value.ofText (s : List Char) : Decoded Value :=
  (Document.ofText s).decode fun n => ofFault (n.value 0)

theorem document_of_tokens {v : Value} {s : List Char} (h : Json.tokens s = v.tokens) :
    Document.ofText s = ⟨v.node, false⟩ := by
  simp [Document.ofText, h, readNode_value]

theorem document_compact {v : Value} (hv : v.Natural) :
    Document.ofText v.compact = ⟨v.node, false⟩ := by
  refine document_of_tokens ?_
  simpa [tokens] using tokens_compact v hv [] trivial

theorem document_pretty {v : Value} (hv : v.Natural) (level : Nat) :
    Document.ofText (v.pretty level) = ⟨v.node, false⟩ := by
  refine document_of_tokens ?_
  simpa [tokens] using tokens_pretty level v hv [] trivial

/-! Whole values out of trees. -/

mutual

/-- How many containers stand inside each other. -/
def Value.depth : Value → Nat
  | .array vs => itemDepth vs + 1
  | .object fields => fieldDepth fields + 1
  | _ => 0

def itemDepth : List Value → Nat
  | [] => 0
  | v :: vs => max v.depth (itemDepth vs)

def fieldDepth : List (String × Value) → Nat
  | [] => 0
  | (_, v) :: fields => max v.depth (fieldDepth fields)

end

mutual

theorem value_node (v : Value) (depth : Nat) (h : depth + v.depth ≤ depthLimit) :
    v.node.value depth = .ok v := by
  match v with
  | .null | .bool b | .number n | .text s => rfl
  | .array vs =>
    simp only [Value.depth] at h
    have hvs := itemValues_itemNodes vs (depth + 1) (by omega)
    have hdepth : ¬ depthLimit ≤ depth := by omega
    simp [Value.node, Node.value, hdepth, hvs]
  | .object fields =>
    simp only [Value.depth] at h
    have hfields := fieldValues_fieldNodes fields (depth + 1) (by omega)
    have hdepth : ¬ depthLimit ≤ depth := by omega
    simp [Value.node, Node.value, hdepth, hfields]

theorem itemValues_itemNodes (vs : List Value) (depth : Nat)
    (h : depth + itemDepth vs ≤ depthLimit) : itemValues depth (itemNodes vs) = .ok vs := by
  match vs with
  | [] => rfl
  | v :: vs =>
    simp only [itemDepth] at h
    have hv := value_node v depth (by omega)
    have hvs := itemValues_itemNodes vs depth (by omega)
    simp [itemNodes, itemValues, hv, hvs]

theorem fieldValues_fieldNodes (fields : List (String × Value)) (depth : Nat)
    (h : depth + fieldDepth fields ≤ depthLimit) :
    fieldValues depth (fieldNodes fields) = .ok fields := by
  match fields with
  | [] => rfl
  | (k, v) :: fields =>
    simp only [fieldDepth] at h
    have hv := value_node v depth (by omega)
    have hfields := fieldValues_fieldNodes fields depth (by omega)
    simp [fieldNodes, fieldValues, hv, hfields]

end

mutual

/-- Where containers stand too deep, nothing else is complained of. -/
theorem value_node_of_lt (v : Value) (depth : Nat) (hdepth : depth ≤ depthLimit)
    (h : depthLimit < depth + v.depth) : v.node.value depth = .error .tooDeep := by
  match v with
  | .null | .bool b | .number n | .text s =>
    simp only [Value.depth] at h
    omega
  | .array vs =>
    simp only [Value.depth] at h
    rw [Value.node, Node.value]
    split
    · rfl
    · rw [itemValues_itemNodes_of_lt vs (depth + 1) (by omega) (by omega)]
      rfl
  | .object fields =>
    simp only [Value.depth] at h
    rw [Value.node, Node.value]
    split
    · rfl
    · rw [fieldValues_fieldNodes_of_lt fields (depth + 1) (by omega) (by omega)]
      rfl

theorem itemValues_itemNodes_of_lt (vs : List Value) (depth : Nat) (hdepth : depth ≤ depthLimit)
    (h : depthLimit < depth + itemDepth vs) :
    itemValues depth (itemNodes vs) = .error .tooDeep := by
  match vs with
  | [] =>
    simp only [itemDepth] at h
    omega
  | v :: vs =>
    simp only [itemDepth] at h
    rw [itemNodes, itemValues]
    by_cases hv : depth + v.depth ≤ depthLimit
    · rw [value_node v depth hv, itemValues_itemNodes_of_lt vs depth hdepth (by omega)]
      rfl
    · rw [value_node_of_lt v depth hdepth (by omega)]
      rfl

theorem fieldValues_fieldNodes_of_lt (fields : List (String × Value)) (depth : Nat)
    (hdepth : depth ≤ depthLimit) (h : depthLimit < depth + fieldDepth fields) :
    fieldValues depth (fieldNodes fields) = .error .tooDeep := by
  match fields with
  | [] =>
    simp only [fieldDepth] at h
    omega
  | (k, v) :: fields =>
    simp only [fieldDepth] at h
    rw [fieldNodes, fieldValues]
    by_cases hv : depth + v.depth ≤ depthLimit
    · rw [value_node v depth hv, fieldValues_fieldNodes_of_lt fields depth hdepth (by omega)]
      rfl
    · rw [value_node_of_lt v depth hdepth (by omega)]
      rfl

end

/-! Lists. -/

@[simp] theorem ofFault_ok {α : Type} (a : α) : ofFault (.ok a) = .ok a := rfl

theorem itemNodes_map {α : Type} (write : α → Value) (xs : List α) :
    itemNodes (xs.map write) = xs.map fun x => (write x).node := by
  induction xs with
  | nil => rfl
  | cons x xs ih => simp [itemNodes, ih]

end ScriptOutline.Json
