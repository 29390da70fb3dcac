import ScriptOutline.Json.Fault

/-!
JSON texts in quotes, read up to the closing quote.
-/

set_option autoImplicit false

namespace ScriptOutline.Json

def hexValue? (c : Char) : Option Nat :=
  if c.isDigit then some (c.toNat - 48)
  else if 'a' ≤ c && c ≤ 'f' then some (c.toNat - 87)
  else if 'A' ≤ c && c ≤ 'F' then some (c.toNat - 55)
  else none

/-- The unit of a `\u` escape. Fewer than four bytes before the end of the whole text are missing
digits; else each of the four has to be one. -/
def hexUnit (s : List Char) : Except Fault (Nat × List Char) :=
  match s with
  | a :: b :: c :: d :: rest =>
    match hexValue? a, hexValue? b, hexValue? c, hexValue? d with
    | some a, some b, some c, some d => .ok (((a * 16 + b) * 16 + c) * 16 + d, rest)
    | _, _, _, _ => .error .badEscape
  | s => .error (if (String.ofList s).utf8ByteSize < 4 then .endInText else .badEscape)

theorem hexUnit_length {s rest : List Char} {n : Nat} (h : hexUnit s = .ok (n, rest)) :
    rest.length < s.length := by
  unfold hexUnit at h
  split at h
  · split at h
    · simp only [Except.ok.injEq, Prod.mk.injEq] at h
      simp only [← h.2, List.length_cons]
      omega
    · simp at h
  · simp at h

/-- How a text goes on behind its opening quote. -/
inductive Tail where
  | closed (s : List Char) (rest : List Char)
  | flawed (f : Fault) (rest : List Char)
  | cut (read skipped : Fault)

def Tail.cons (c : Char) : Tail → Tail
  | closed s rest => closed (c :: s) rest
  | t => t

def Tail.flaw (f : Fault) : Tail → Tail
  | closed _ rest | flawed _ rest => flawed f rest
  | cut _ skipped => cut f skipped

def Tail.rest : Tail → List Char
  | closed _ rest | flawed _ rest => rest
  | cut _ _ => []

def Tail.broken (f : Fault) : Tail := .cut f f

def escaped? : Char → Option Char
  | '"' => some '"'
  | '\\' => some '\\'
  | '/' => some '/'
  | 'b' => some '\x08'
  | 'f' => some '\x0c'
  | 'n' => some '\n'
  | 'r' => some '\r'
  | 't' => some '\t'
  | _ => none

def ofSurrogates (high low : Nat) : Char :=
  Char.ofNat ((high - 0xD800) * 0x400 + (low - 0xDC00) + 0x10000)

def isHigh (n : Nat) : Bool := 0xD800 ≤ n && n ≤ 0xDBFF

def isLow (n : Nat) : Bool := 0xDC00 ≤ n && n ≤ 0xDFFF

/-- The low surrogate that a high one needs behind it. -/
def lowUnit : List Char → Except Fault (Nat × List Char)
  | [] => .error .endInText
  | '\\' :: [] => .error .endInText
  | '\\' :: 'u' :: rest =>
    match hexUnit rest with
    | .error f => .error f
    | .ok (n, rest) => if isLow n then .ok (n, rest) else .error .unpairedSurrogate
  | _ => .error .endOfSurrogates

theorem lowUnit_length {s rest : List Char} {n : Nat} (h : lowUnit s = .ok (n, rest)) :
    rest.length < s.length := by
  unfold lowUnit at h
  split at h
  · simp at h
  · simp at h
  · split at h
    · simp at h
    · next hu =>
      split at h
      · have := hexUnit_length hu
        simp only [Except.ok.injEq, Prod.mk.injEq] at h
        simp only [← h.2, List.length_cons]
        omega
      · simp at h
  · simp at h

def textTail : List Char → Tail
  | [] => .broken .endInText
  | '"' :: rest => .closed [] rest
  | '\\' :: [] => .broken .endInText
  | '\\' :: 'u' :: rest =>
    match h : hexUnit rest with
    | .error f => .broken f
    | .ok (n, more) =>
      have := hexUnit_length h
      if isLow n then (textTail more).flaw .unpairedSurrogate
      else if isHigh n then
        match hp : lowUnit more with
        | .ok (m, past) =>
          have := lowUnit_length hp
          (textTail past).cons (ofSurrogates n m)
        | .error f => (textTail more).flaw f
      else (textTail more).cons (Char.ofNat n)
  | '\\' :: c :: rest =>
    match escaped? c with
    | some c => (textTail rest).cons c
    | none => .broken .badEscape
  | c :: rest => if c.toNat < 0x20 then .broken .controlCharacter else (textTail rest).cons c
  termination_by s => s.length
  decreasing_by all_goals simp only [List.length_cons] at *; omega

@[simp] theorem Tail.rest_closed (s rest : List Char) : (closed s rest).rest = rest := rfl

@[simp] theorem Tail.rest_broken (f : Fault) : (broken f).rest = [] := rfl

@[simp] theorem Tail.rest_cons (c : Char) (t : Tail) : (t.cons c).rest = t.rest := by
  cases t <;> rfl

@[simp] theorem Tail.rest_flaw (f : Fault) (t : Tail) : (t.flaw f).rest = t.rest := by
  cases t <;> rfl

theorem textTail_rest_length (s : List Char) : (textTail s).rest.length ≤ s.length := by
  fun_induction textTail s <;> simp_all <;> try omega

end ScriptOutline.Json
