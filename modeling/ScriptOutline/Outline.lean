import ScriptOutline.Comment
import ScriptOutline.Line.Shape
import ScriptOutline.Text.Utf8

/-!
The outline of a script: every line offers a record or nothing, and a sieve decides what is kept.
Only comments look beyond their line.
-/

set_option autoImplicit false

namespace ScriptOutline
open Text

/-- Why a source has no outline. -/
inductive SourceError where
  | notUtf8 (e : Utf8Error)
  | unclosedComment (line : Nat)
  deriving DecidableEq, Repr

def SourceError.message : SourceError → String
  | notUtf8 e => s!"invalid argument: expected UTF-8 text: {e.message}"
  | unclosedComment line => s!"unterminated block comment opened on line {line}"

structure Options where
  /-- Whether comment records carry the text of their comment. -/
  withText : Bool := false
  /-- Whether a comment that is never closed is an error. -/
  strict : Bool := false
  deriving DecidableEq, Repr

/-- A text without its carriage returns, in lines, and its comments. -/
structure Source where
  lines : List Line
  comments : List Comment

def withoutReturns (text : List Char) : List Char := text.filter (· != '\r')

def numbered (ls : List (List Char)) : List Line := (ls.zipIdx 1).map fun (raw, n) => ⟨n, raw⟩

def Source.ofText (text : List Char) : Source :=
  ⟨numbered (Text.lines (withoutReturns text)), Comment.ofText (withoutReturns text)⟩

/-- What one line contributes. -/
inductive Entry where
  | nothing
  | record (r : Record)
  | unclosed
  deriving DecidableEq, Repr

def Comment.toRecord (withText : Bool) (c : Comment) : Record :=
  .comment c.first c.last (if withText then some (String.ofList c.text) else none)

/-- A line of code contributes its record. An opening delimiter contributes the comment that opens
there, or nothing within a comment; elsewhere it is never closed. -/
def Source.entry (src : Source) (withText : Bool) (l : Line) : Entry :=
  match l.classify with
  | none => .nothing
  | some (.code form name) => .record (l.record form name)
  | some .commentOpen =>
    match Comment.at? src.comments l.number with
    | some c => .record (c.toRecord withText)
    | none => if Comment.covers src.comments l.number then .nothing else .unclosed

/-- The records that a source offers, and the line at which it fails, after which it offers no
more. -/
structure Candidates where
  records : List Record
  failure : Option Nat := none
  deriving DecidableEq, Repr

def Candidates.cons (r : Record) (cs : Candidates) : Candidates :=
  { cs with records := r :: cs.records }

def Source.offer (src : Source) (o : Options) : List Line → Candidates
  | [] => ⟨[], none⟩
  | l :: ls =>
    match src.entry o.withText l with
    | .nothing => src.offer o ls
    | .record r => (src.offer o ls).cons r
    | .unclosed => if o.strict then ⟨[], some l.number⟩ else src.offer o ls

def Source.candidates (src : Source) (o : Options) : Candidates := src.offer o src.lines

/-- Decides about a candidate, knowing how many records were kept before it and all lines: it
drops it, or keeps what it makes of it. -/
abbrev Sieve (σ : Type) := Record → Nat → List Line → σ → Option Record × σ

/-- The sieve that keeps everything as it is. -/
def Sieve.all : Sieve Unit := fun r _ _ s => (some r, s)

def Sieve.run {σ : Type} (f : Sieve σ) (lines : List Line) (kept : Nat) :
    List Record → σ → List Record × σ
  | [], s => ([], s)
  | r :: rs, s =>
    match f r kept lines s with
    | (none, s) => f.run lines kept rs s
    | (some r, s) =>
      let (rs, s) := f.run lines (kept + 1) rs s
      (r :: rs, s)

/-- The outline of a text through a sieve, and the state that the sieve is left in. -/
def outlineWith {σ : Type} (o : Options) (f : Sieve σ) (text : List Char) (s : σ) :
    Except SourceError (List Record) × σ :=
  let src := Source.ofText text
  let found := src.candidates o
  let (kept, s) := f.run src.lines 0 found.records s
  match found.failure with
  | none => (.ok kept, s)
  | some line => (.error (.unclosedComment line), s)

def outline (o : Options) (text : List Char) : Except SourceError (List Record) :=
  (outlineWith o Sieve.all text ()).1

def textOfBytes (bytes : Bytes) : Except SourceError (List Char) :=
  (decodeUtf8 bytes).mapError .notUtf8

def outlineBytes (o : Options) (bytes : Bytes) : Except SourceError (List Record) := do
  outline o (← textOfBytes bytes)

theorem Sieve.run_all (lines : List Line) (kept : Nat) (rs : List Record) :
    Sieve.all.run lines kept rs () = (rs, ()) := by
  induction rs generalizing kept with
  | nil => rfl
  | cons r rs ih =>
    have h := ih (kept + 1)
    simp only [Sieve.run]
    rw [show Sieve.all r kept lines () = (some r, ()) from rfl]
    simp [h]

end ScriptOutline
