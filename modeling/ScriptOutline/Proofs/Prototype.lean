import ScriptOutline.Proofs.Classification

/-!
Assignments to the members of a path, and which of them are prototype kinds. Those whose path is
one name and then `prototype` are (`classify_of_prototype_member`). Any other path is a receiver,
also if `prototype` is one of its segments (`prototype_in_receiver_iff`).
-/

set_option autoImplicit false

namespace ScriptOutline
open Text

/-- What stands before the last dot of the left side, if this is no prototype. -/
def Form.receiver? : Form → Option String
  | method r _ | property r _ => some r
  | _ => none

namespace Line

/-- A path between its dots. -/
def segments (path : List Char) : List (List Char) := pieces (· == '.') path

/-- What has a receiver assigns to a member of it. -/
theorem exists_assigns_of_receiver? {l : Line} {form : Form} {name receiver : String}
    (h : l.classify = some (.code form name)) (hreceiver : form.receiver? = some receiver) :
    ∃ n rest, Assigns l.stripped receiver.toList n rest ∧
      ((functionValue? rest).isSome ∨ IsName receiver.toList ∧ (value? rest).isSome) := by
  have hfits := fitsIn_of_classify h
  cases form with
  | method r ps =>
    obtain ⟨rest, hassigns, hps⟩ := hfits
    cases hreceiver
    exact ⟨_, rest, hassigns, .inl (by simp [hps])⟩
  | property r v =>
    obtain ⟨hr, rest, hassigns, hv⟩ := hfits
    cases hreceiver
    exact ⟨_, rest, hassigns, .inr ⟨hr, by simp [hv]⟩⟩
  | functionStatement | functionExpression | prototypeMethod | prototypeProperty | declaration =>
    cases hreceiver

theorem eq_of_mem_segments {r word : List Char} (hr : '.' ∉ r) (h : word ∈ segments r) :
    word = r := by
  have hsegments : segments r = [r] :=
    pieces_of_forall fun c hc => by simpa using fun he : c = '.' => hr (he ▸ hc)
  rwa [hsegments, List.mem_singleton] at h

end Line

open Line in
/-- A receiver has `prototype` among its segments exactly where a line assigns to a member of a path
with that segment, not one name before `prototype`, and the value is a function or the path the bare
word. So the members of a prototype are of the prototype kinds if it is that of a plain name; for
any other path functions are methods, and nothing else is found. -/
theorem prototype_in_receiver_iff (l : Line) :
    ((∃ form name r, l.classify = some (.code form name) ∧ form.receiver? = some r ∧
        prototypeWord ∈ segments r.toList) ↔
      ∃ r n rest, Assigns l.stripped r n rest ∧ prototypeWord ∈ segments r ∧
        (∀ c, IsName c → r ≠ c ++ '.' :: prototypeWord) ∧
        ((functionValue? rest).isSome ∨ r = prototypeWord ∧ (value? rest).isSome)) ∧
    ∀ x n rest, Assigns l.stripped (x ++ '.' :: prototypeWord) n rest →
      l.classify =
        if IsName x then
          ((functionValue? rest).map fun ps =>
            .code (.prototypeMethod (String.ofList x) ps) (String.ofList n)).or
          ((value? rest).map fun v =>
            .code (.prototypeProperty (String.ofList x) (String.ofList v)) (String.ofList n))
        else (functionValue? rest).map fun ps =>
          .code (.method (String.ofList (x ++ '.' :: prototypeWord)) ps) (String.ofList n) := by
  refine ⟨⟨fun h => ?_, fun h => ?_⟩, fun x n rest h => ?_⟩
  · obtain ⟨form, name, r, hclass, hreceiver, hword⟩ := h
    obtain ⟨n, rest, h, hvalue⟩ := exists_assigns_of_receiver? hclass hreceiver
    refine ⟨r.toList, n, rest, h, hword, fun c hc hr => ?_, hvalue.imp_right fun hvalue => ?_⟩
    · rw [hr] at h
      simp only [classify_of_prototype_member hc h, Option.or_eq_some_iff,
        Option.map_eq_some_iff] at hclass
      obtain ⟨ps, -, hmethod⟩ | ⟨-, v, -, hproperty⟩ := hclass
      · cases hmethod
        cases hreceiver
      · cases hproperty
        cases hreceiver
    · exact ⟨(eq_of_mem_segments hvalue.1.dot_not_mem hword).symm, hvalue.2⟩
  · obtain ⟨r, n, rest, h, hword, hprototype, hvalue⟩ := h
    have hexports : r ++ '.' :: n ≠ exportsPath := by
      intro he
      rw [receiver_of_exportsPath h.2.1 he] at hword
      exact absurd hword (by decide)
    rw [classify_of_member h hexports hprototype]
    cases hps : functionValue? rest with
    | some ps =>
      exact ⟨_, _, _, rfl, rfl, by rwa [String.toList_ofList]⟩
    | none =>
      obtain ⟨rfl, hsome⟩ := hvalue.resolve_left (by simp [hps])
      obtain ⟨v, hv⟩ := Option.isSome_iff_exists.1 hsome
      rw [if_pos (by decide), hv]
      exact ⟨_, _, _, rfl, rfl, by rwa [String.toList_ofList]⟩
  · split
    · rename_i hx
      exact classify_of_prototype_member hx h
    · rename_i hx
      have hprototype : ∀ c, IsName c → x ++ '.' :: prototypeWord ≠ c ++ '.' :: prototypeWord :=
        fun c hc he => hx (List.append_cancel_right he ▸ hc)
      rw [classify_of_member h (exportsPath_ne_prototype h.2.1) hprototype,
        if_neg fun hr => absurd hr.dot_not_mem (by simp), Option.or_none]

open Line in
/-- The member of a prototype that is itself reached by a path is a method whose receiver ends in
`prototype`, and a member of the bare word is a property with it for a receiver. -/
theorem prototype_in_receiver_of_nested_path :
    let nested : Line := ⟨1, "a.b.prototype.c = function (d) \x7b".toList⟩
    let bare : Line := ⟨1, "prototype.c = 1;".toList⟩
    nested.classify = some (.code (.method "a.b.prototype" ["d"]) "c") ∧
      prototypeWord ∈ segments "a.b.prototype".toList ∧
      bare.classify = some (.code (.property "prototype" "1") "c") ∧
      prototypeWord ∈ segments "prototype".toList := by
  decide +kernel

open Line in
/-- The prototype of a plain name takes precedence, that of a path does not. -/
theorem prototype_in_receiver_plain_and_nested :
    let plain : Line := ⟨7, "\tA.prototype.get = function (key)".toList⟩
    let nested : Line := ⟨7, "  a.A.prototype.get=function".toList⟩
    Assigns plain.stripped ("A".toList ++ '.' :: prototypeWord) "get".toList
        " function (key)".toList ∧
      plain.classify = some (.code (.prototypeMethod "A" ["key"]) "get") ∧
      Assigns nested.stripped ("a.A".toList ++ '.' :: prototypeWord) "get".toList
        "function".toList ∧
      nested.classify = some (.code (.method "a.A.prototype" []) "get") := by
  intro plain nested
  have hplain : Assigns plain.stripped ("A".toList ++ '.' :: prototypeWord) "get".toList
      " function (key)".toList := dottedTarget?_eq_some_iff.1 (by decide +kernel)
  have hnested : Assigns nested.stripped ("a.A".toList ++ '.' :: prototypeWord) "get".toList
      "function".toList := dottedTarget?_eq_some_iff.1 (by decide +kernel)
  refine ⟨hplain, ?_, hnested, ?_⟩
  · rw [(prototype_in_receiver_iff plain).2 _ _ _ hplain]
    decide +kernel
  · rw [(prototype_in_receiver_iff nested).2 _ _ _ hnested]
    decide +kernel

end ScriptOutline
