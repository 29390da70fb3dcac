import ScriptOutline.Json.Number
import ScriptOutline.Json.Text

/-!
The tokens of a JSON text.
-/

set_option autoImplicit false

namespace ScriptOutline.Json

/-- The marks and scalars of a JSON text. A number or a text may be flawed: where it ends is known,
but it has no value. Where a scalar goes wrong, who reads it and who skips it may see different
faults. -/
inductive Token where
  | openArray | closeArray | openObject | closeObject | comma | colon
  | null
  | bool (b : Bool)
  | number (n : Except Fault Number)
  | text (s : Except Fault String)
  | cutText (read skipped : Fault)
  | fault (read skipped : Fault)

def isSpace (c : Char) : Bool := c == ' ' || c == '\n' || c == '\t' || c == '\r'

def word? : List Char → List Char → Except Fault (List Char)
  | [], s => .ok s
  | _ :: _, [] => .error .endInValue
  | w :: ws, c :: s => if w = c then word? ws s else .error .noWord

theorem word?_length {w s rest : List Char} (h : word? w s = .ok rest) :
    rest.length ≤ s.length := by
  fun_induction word? w s <;> simp_all
  omega

def wordToken (t : Token) (w s : List Char) : Token × List Char :=
  match word? w s with
  | .ok rest => (t, rest)
  | .error f => (.fault f f, [])

/-- Who skips a number does not tell apart whether it is cut off. -/
def numberToken (negative : Bool) (s : List Char) : Token × List Char :=
  match number? negative s with
  | .ok (n, rest) => (.number n, rest)
  | .error f => (.fault f .badNumber, [])

def textToken (s : List Char) : Token × List Char :=
  match textTail s with
  | .closed t rest => (.text (.ok (String.ofList t)), rest)
  | .flawed f rest => (.text (.error f), rest)
  | .cut read skipped => (.cutText read skipped, [])

/-- The token that a character begins, and what follows it. Nothing follows a fault. -/
def token (c : Char) (s : List Char) : Token × List Char :=
  match c with
  | '[' => (.openArray, s)
  | ']' => (.closeArray, s)
  | '\x7b' => (.openObject, s)
  | '\x7d' => (.closeObject, s)
  | ',' => (.comma, s)
  | ':' => (.colon, s)
  | 'n' => wordToken .null ['u', 'l', 'l'] s
  | 't' => wordToken (.bool true) ['r', 'u', 'e'] s
  | 'f' => wordToken (.bool false) ['a', 'l', 's', 'e'] s
  | '"' => textToken s
  | '-' => numberToken true s
  | c => if c.isDigit then numberToken false (c :: s) else (.fault .noValue .noValue, [])

theorem wordToken_length (t : Token) (w s : List Char) :
    (wordToken t w s).2.length ≤ s.length := by
  unfold wordToken
  split
  · next h => exact word?_length h
  · simp

theorem numberToken_length {negative : Bool} {s : List Char} (hs : s ≠ []) :
    (numberToken negative s).2.length < s.length := by
  unfold numberToken
  split
  · next h => exact number?_length h
  · simpa using List.length_pos_iff.2 hs

theorem textToken_length (s : List Char) : (textToken s).2.length ≤ s.length := by
  have h := textTail_rest_length s
  unfold textToken
  split <;> simp_all [Tail.rest]

theorem token_length (c : Char) (s : List Char) : (token c s).2.length ≤ s.length := by
  unfold token
  split <;> try simp only [Nat.le_refl, wordToken_length, textToken_length]
  · cases s with
    | nil => decide
    | cons d s => exact Nat.le_of_lt (numberToken_length (by simp))
  · split
    · exact Nat.le_of_lt_succ (numberToken_length (by simp))
    · simp

def tokens : List Char → List Token
  | [] => []
  | c :: s =>
    if isSpace c then tokens s
    else
      have := token_length c s
      (token c s).1 :: tokens (token c s).2
  termination_by s => s.length
  decreasing_by all_goals simp only [List.length_cons]; omega

end ScriptOutline.Json
