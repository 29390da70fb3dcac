import Mathlib.Order.Bounds.Basic
import ScriptOutline.Proofs.EntryPoints

/-!
Bytes that are not UTF-8. The complaint about them says where the longest text ends that they begin
with, and how far they go into a sequence behind it; that makes it the only one that there can be
(`Utf8Error.Locates.eq`). All bytes are either a text or complained of so, and an outline of them
fails for this reason in no other case (`text_of_bytes_iff`).
-/

set_option autoImplicit false

namespace ScriptOutline
open Text

namespace Text

def IsUtf8 (bytes : Bytes) : Prop := ∃ t, bytes = encodeUtf8 t

/-- Where bytes go wrong: behind the longest text that they begin with. What follows it is too
short for a sequence, or goes wrong behind as many bytes as some sequence begins with; the first
byte counts even if there is no such sequence. -/
structure Utf8Error.Locates (e : Utf8Error) (bytes : Bytes) : Prop where
  invalid : ¬ IsUtf8 bytes
  index : IsGreatest {k | k ≤ bytes.length ∧ IsUtf8 (bytes.take k)} e.index
  incomplete : e.length = none ↔ ∃ c : Char, bytes.drop e.index <+: String.utf8EncodeChar c ∧
    bytes.drop e.index ≠ String.utf8EncodeChar c
  broken : ∀ n, e.length = some n → 1 ≤ n ∧ n ≤ 3 ∧ ∃ k, n = max 1 k ∧
    IsGreatest {k | k ≤ (bytes.drop e.index).length ∧ Begins ((bytes.drop e.index).take k)} k

/-- There is one way to complain of bytes. -/
theorem Utf8Error.Locates.eq {e e' : Utf8Error} {bytes : Bytes} (h : e.Locates bytes)
    (h' : e'.Locates bytes) : e = e' := by
  obtain ⟨index, length⟩ := e
  obtain ⟨index', length'⟩ := e'
  obtain rfl : index = index' := h.index.unique h'.index
  have hincomplete : length = none ↔ length' = none := h.incomplete.trans h'.incomplete.symm
  cases length with
  | none => rw [hincomplete.1 rfl]
  | some n =>
    cases length' with
    | none => cases hincomplete.2 rfl
    | some n' =>
      obtain ⟨-, -, k, rfl, hk⟩ := h.broken n rfl
      obtain ⟨-, -, k', rfl, hk'⟩ := h'.broken n' rfl
      rw [hk.unique hk']

/-- Reading stops behind a text. -/
theorem exists_of_decodeFrom_error {index : Nat} {bytes : Bytes} {e : Utf8Error}
    (h : decodeFrom index bytes = .error e) :
    ∃ t rest, bytes = encodeUtf8 t ++ rest ∧ e.index = index + (encodeUtf8 t).length ∧
      Stops rest e.length := by
  induction hn : bytes.length using Nat.strongRecOn generalizing index bytes with
  | ind n ih =>
    cases bytes with
    | nil =>
      rw [decodeFrom] at h
      cases h
    | cons a bytes =>
      obtain ⟨u, code, rest, hu, hsequence⟩ | ⟨length, hstops, herror⟩ := sequence_or_stops a bytes
      · rw [hu, decodeFrom_append hsequence, map_eq_error_iff] at h
        have hshort : rest.length < n := by
          have hlength := congrArg List.length hu
          rw [hn, List.length_append] at hlength
          have := hsequence.length_pos
          omega
        obtain ⟨t, rest, rfl, hindex, hstops⟩ := ih _ hshort h rfl
        refine ⟨Char.ofNat code :: t, rest, ?_, ?_, hstops⟩
        · rw [hu, encodeUtf8_cons, utf8EncodeChar_of_isSequence hsequence, List.append_assoc]
        · rw [hindex, encodeUtf8_cons, utf8EncodeChar_of_isSequence hsequence, List.length_append,
            Nat.add_assoc]
      · rw [herror] at h
        cases h
        exact ⟨[], a :: bytes, rfl, rfl, hstops⟩

theorem Stops.eq_none_iff {rest : Bytes} {length : Option Nat} (h : Stops rest length) :
    length = none ↔ Begins rest := by
  cases h with
  | short hbegins => exact ⟨fun _ => hbegins, fun _ => rfl⟩
  | @broken u rest b _ _ hb =>
    constructor
    · intro hnone
      cases hnone
    · intro hall
      exact absurd (hall.of_prefix ⟨rest, by simp⟩) hb

/-- The bytes that begin a sequence end before the one that goes on with none. -/
theorem Stops.exists_isGreatest {rest : Bytes} {n : Nat} (h : Stops rest (some n)) :
    1 ≤ n ∧ n ≤ 3 ∧ ∃ k, n = max 1 k ∧
      IsGreatest {k | k ≤ rest.length ∧ Begins (rest.take k)} k := by
  cases h with
  | @broken u rest b hlength hu hb =>
    refine ⟨Nat.le_max_left _ _, by omega, u.length, rfl, ⟨by simp, ?_⟩, fun k hk => ?_⟩
    · rwa [List.take_left]
    · obtain ⟨hk, hbegins⟩ := hk
      refine Nat.le_of_not_lt fun hlt => hb (hbegins.of_prefix ?_)
      have htake : (u ++ b :: rest).take (u.length + 1) = u ++ [b] := by
        rw [List.append_cons]
        exact List.take_left' List.length_append
      rw [← htake]
      exact List.take_prefix_take_left hlt

theorem locates_of_decodeUtf8 {bytes : Bytes} {e : Utf8Error} (h : decodeUtf8 bytes = .error e) :
    e.Locates bytes := by
  have hinvalid : ¬ IsUtf8 bytes := by
    intro hutf8
    obtain ⟨t, ht⟩ := hutf8
    rw [decodeUtf8_eq_ok_iff.2 ht] at h
    cases h
  obtain ⟨t, rest, hbytes, hindex, hstops⟩ := exists_of_decodeFrom_error h
  rw [Nat.zero_add] at hindex
  have hrest : bytes.drop e.index = rest := by rw [hindex, hbytes, List.drop_left]
  have hbegins : Begins rest ↔ ∃ c : Char, rest <+: String.utf8EncodeChar c ∧
      rest ≠ String.utf8EncodeChar c := by
    constructor
    · intro hrest
      obtain ⟨c, hc⟩ := hrest
      refine ⟨c, hc, fun hwhole => hinvalid ⟨t ++ [c], ?_⟩⟩
      rw [hbytes, hwhole, encodeUtf8_append, encodeUtf8, encodeUtf8, List.flatMap_singleton]
    · intro hrest
      obtain ⟨c, hc, -⟩ := hrest
      exact ⟨c, hc⟩
  refine ⟨hinvalid, ⟨⟨?_, t, ?_⟩, ?_⟩, ?_, ?_⟩
  · rw [hindex, hbytes, List.length_append]
    exact Nat.le_add_right _ _
  · rw [hindex, hbytes, List.take_left]
  · -- Reading gets at least as far as any text that the bytes begin with.
    intro k hk
    obtain ⟨hk, t', ht'⟩ := hk
    have hread := decodeFrom_encodeUtf8_append 0 t' (bytes.drop k)
    rw [← ht', List.take_append_drop, List.length_take_of_le hk, Nat.zero_add] at hread
    rw [decodeUtf8, hread, map_eq_error_iff] at h
    obtain ⟨further, -, -, hfurther, -⟩ := exists_of_decodeFrom_error h
    omega
  · rw [hrest, hstops.eq_none_iff, hbegins]
  · intro n hn
    rw [hrest]
    exact (hn ▸ hstops).exists_isGreatest

theorem decodeUtf8_eq_error_iff {bytes : Bytes} {e : Utf8Error} :
    decodeUtf8 bytes = .error e ↔ e.Locates bytes := by
  refine ⟨locates_of_decodeUtf8, fun h => ?_⟩
  cases hdecode : decodeUtf8 bytes with
  | ok t => exact absurd ⟨t, decodeUtf8_eq_ok_iff.1 hdecode⟩ h.invalid
  | error e' => rw [(locates_of_decodeUtf8 hdecode).eq h]

end Text

theorem textOfBytes_eq_error_iff {bytes : Bytes} {x : SourceError} :
    textOfBytes bytes = .error x ↔ ∃ e : Utf8Error, e.Locates bytes ∧ x = .notUtf8 e := by
  rw [textOfBytes, mapError_eq_error_iff]
  constructor
  · intro h
    obtain ⟨e, he, rfl⟩ := h
    exact ⟨e, decodeUtf8_eq_error_iff.1 he, rfl⟩
  · intro h
    obtain ⟨e, he, rfl⟩ := h
    exact ⟨e, decodeUtf8_eq_error_iff.2 he, rfl⟩

theorem outlineBytes_eq_notUtf8_iff {o : Options} {bytes : Bytes} {e : Utf8Error} :
    outlineBytes o bytes = .error (.notUtf8 e) ↔ e.Locates bytes := by
  rw [outlineBytes, bind_eq_error_iff, textOfBytes_eq_error_iff]
  constructor
  · intro h
    obtain ⟨e', he', h⟩ | ⟨t, -, h⟩ := h
    · cases h
      exact he'
    · exact absurd h (outline_ne_notUtf8 o t e)
  · intro h
    exact .inl ⟨e, h, rfl⟩

/-- Bytes are a text exactly if they are how it is written; all others are complained of, by the
place behind the longest text that they begin with and by what stands there. Whatever the options,
an outline fails with this complaint in these cases and no others. -/
theorem text_of_bytes_iff (bytes : Bytes) :
    (∀ t, textOfBytes bytes = .ok t ↔ bytes = encodeUtf8 t) ∧
    (∀ x, textOfBytes bytes = .error x ↔ ∃ e : Utf8Error, e.Locates bytes ∧ x = .notUtf8 e) ∧
    (∀ o e, outlineBytes o bytes = .error (.notUtf8 e) ↔ e.Locates bytes) ∧
    ∀ e : Utf8Error, (SourceError.notUtf8 e).message =
      "invalid argument: expected UTF-8 text: " ++ match e.length with
        | none => s!"incomplete utf-8 byte sequence from index {e.index}"
        | some n => s!"invalid utf-8 sequence of {n} bytes from index {e.index}" := by
  refine ⟨fun t => ?_, fun x => textOfBytes_eq_error_iff,
    fun o e => outlineBytes_eq_notUtf8_iff, ?_⟩
  · rw [textOfBytes, mapError_eq_ok_iff, decodeUtf8_eq_ok_iff]
  · intro e
    obtain ⟨index, length⟩ := e
    cases length <;> rfl

/-- A sequence of four bytes that breaks off behind its second one. -/
example : textOfBytes [0x61, 0xF0, 0x9F, 0x41] = .error (.notUtf8 ⟨1, some 2⟩) := by decide

end ScriptOutline
