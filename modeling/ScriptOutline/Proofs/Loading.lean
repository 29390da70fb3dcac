import ScriptOutline.Command.Run
import ScriptOutline.Proofs.Utf8

/-!
A run in its parts: what is loaded, the policy of that under the options, and what is found at a
path under the policy (`Command.runExtract_eq`). What is loaded means something
(`Disk.validate_of_loaded`).
-/

set_option autoImplicit false

namespace ScriptOutline
open Text

/-- Every entry names a kind if none is complained of. -/
theorem Settings.forM_kindOf_eq_ok_iff {names : List String} :
    names.forM (fun entry => discard (kindOf entry)) = .ok () ↔
      ∃ ks, names.mapM Kind.parse? = some ks := by
  induction names with
  | nil => exact iff_of_true rfl ⟨[], rfl⟩
  | cons name names ih =>
    rw [List.forM_eq_forM] at ih ⊢
    rw [List.forM_cons, List.mapM_cons, kindOf]
    cases Kind.parse? name with
    | none =>
      refine iff_of_false ?_ ?_
      · intro h
        cases h
      · simp
    | some k =>
      change Except.bind (.ok ()) (fun _ => forM names _) = _ ↔ _
      rw [Except.bind, ih]
      cases names.mapM Kind.parse? <;> simp

/-! Files. -/

/-- A text is read from a file exactly if its bytes are how the text is written. -/
theorem Disk.readText_eq_ok_iff {d : Disk} {path : String} {text : List Char} :
    d.readText path = .ok text ↔ d.find path = .ok (.file (encodeUtf8 text)) := by
  have hread (bytes : Bytes) : d.read path = .ok bytes ↔ d.find path = .ok (.file bytes) := by
    rw [read]
    cases d.find path with
    | error e => exact iff_of_false (fun h => by cases h) (fun h => by cases h)
    | ok t => cases t <;> simp [throw, throwThe, MonadExceptOf.throw]
  constructor
  · intro h
    obtain ⟨bytes, hbytes, h⟩ := bind_eq_ok_iff.1 h
    rw [mapError_eq_ok_iff, decodeUtf8_eq_ok_iff] at h
    rw [← h, ← hread, hbytes]
  · intro h
    refine bind_eq_ok_iff.2 ⟨_, (hread _).2 h, ?_⟩
    rw [mapError_eq_ok_iff, decodeUtf8_eq_ok_iff]

/-! Settings. -/

/-- The settings for `root`: those at an explicit path, or those that are found, or none. -/
def Disk.loaded (d : Disk) (root : String) (explicit : Option String) :
    Except LoadError Settings :=
  match explicit with
  | some path => d.loadSettings path
  | none => (d.discover root).map fun found => (found.map Prod.fst).getD {}

theorem Disk.loadSettings_eq_ok_iff {d : Disk} {path : String} {s : Settings} :
    d.loadSettings path = .ok s ↔
      ∃ text, d.readText path = .ok text ∧ Settings.ofText text = .ok s ∧
        s.validate = .ok () := by
  constructor
  · intro h
    obtain ⟨text, hread, h⟩ := bind_eq_ok_iff.1 h
    obtain ⟨s', hs, h⟩ := bind_eq_ok_iff.1 h
    obtain ⟨_, hvalid, h⟩ := bind_eq_ok_iff.1 h
    cases h
    exact ⟨text, mapError_eq_ok_iff.1 hread, mapError_eq_ok_iff.1 hs,
      mapError_eq_ok_iff.1 hvalid⟩
  · intro h
    obtain ⟨text, hread, hs, hvalid⟩ := h
    refine bind_eq_ok_iff.2 ⟨text, mapError_eq_ok_iff.2 hread, ?_⟩
    refine bind_eq_ok_iff.2 ⟨s, mapError_eq_ok_iff.2 hs, ?_⟩
    exact bind_eq_ok_iff.2 ⟨(), mapError_eq_ok_iff.2 hvalid, rfl⟩

theorem Disk.validate_of_loadSettings {d : Disk} {path : String} {s : Settings}
    (h : d.loadSettings path = .ok s) : s.validate = .ok () := by
  obtain ⟨_, -, -, hvalid⟩ := loadSettings_eq_ok_iff.1 h
  exact hvalid

theorem Disk.validate_of_loadSection {d : Disk} {path : String} {s : Settings}
    (h : d.loadSection path = .ok (some s)) : s.validate = .ok () := by
  obtain ⟨text, -, h⟩ := bind_eq_ok_iff.1 h
  obtain ⟨v, -, h⟩ := bind_eq_ok_iff.1 h
  cases v with
  | none => cases h
  | some v =>
    obtain ⟨s', -, h⟩ := bind_eq_ok_iff.1 h
    obtain ⟨_, hvalid, h⟩ := bind_eq_ok_iff.1 h
    cases h
    exact mapError_eq_ok_iff.1 hvalid

theorem Disk.validate_of_discover {d : Disk} {root : String} {found : Settings × String}
    (h : d.discover root = .ok (some found)) : found.1.validate = .ok () := by
  rw [discover] at h
  split at h
  · obtain ⟨s, hload, h⟩ := map_eq_ok_iff.1 h
    cases h
    exact validate_of_loadSettings hload
  split at h
  · obtain ⟨s, hload, h⟩ := map_eq_ok_iff.1 h
    cases h
    exact validate_of_loadSettings hload
  split at h
  · obtain ⟨s?, hload, h⟩ := map_eq_ok_iff.1 h
    obtain ⟨s, rfl, h⟩ := Option.map_eq_some_iff.1 h
    cases h
    exact validate_of_loadSection hload
  · cases h

/-- What is loaded was found to mean something. -/
theorem Disk.validate_of_loaded {d : Disk} {root : String} {explicit : Option String}
    {s : Settings} (h : d.loaded root explicit = .ok s) : s.validate = .ok () := by
  cases explicit with
  | some path => exact validate_of_loadSettings h
  | none =>
    obtain ⟨found, hfound, h⟩ := map_eq_ok_iff.1 h
    cases found with
    | none =>
      subst h
      rfl
    | some found =>
      subst h
      exact validate_of_discover hfound

theorem Disk.policy_map_fst (d : Disk) (root : String) (explicit : Option String) :
    (d.policy root explicit).map Prod.fst =
      d.loaded root explicit >>= fun s => s.resolve.mapError .unresolved := by
  have hresolve : ∀ (s : Settings) (source : Option String),
      Except.map Prod.fst
        (s.resolve.mapError LoadError.unresolved >>= fun p => .ok (p, source)) =
      s.resolve.mapError LoadError.unresolved := by
    intro s source
    cases s.resolve <;> rfl
  cases explicit with
  | some path =>
    rw [policy, loaded]
    cases d.loadSettings path with
    | error e => rfl
    | ok s => exact hresolve s (some path)
  | none =>
    rw [policy, loaded]
    cases d.discover root with
    | error e => rfl
    | ok found =>
      cases found with
      | none => exact hresolve {} none
      | some found => exact hresolve found.1 (some found.2)

namespace Command

def loadFailure (e : LoadError) : List String :=
  "failed to load configuration" :: e.chain Json.Fault.message

/-- The policy of a command: what was loaded, under its options. -/
def policyUnder (loaded : Except LoadError Settings) (types : List String)
    (withText strict : Bool) : Except (List String) Policy := do
  let p ← (loaded >>= fun s => s.resolve.mapError .unresolved).mapError loadFailure
  (p.override types withText strict).mapError fun e => [e]

/-- What is found at a path, or in the input. -/
def surveyAt (d : Disk) (input : Bytes) (path : String) (p : Policy) :
    Except (List String) Survey :=
  if path = "-" then
    match outlineInput p input with
    | .error e => .error [e.message]
    | .ok f => .ok ⟨[f], []⟩
  else
    match Survey.ofPath? d p path with
    | none => .error [s!"Path does not exist: {path}"]
    | some s => .ok s

/-- A run, given what was loaded, before anything is written. -/
def extracted (d : Disk) (input : Bytes) (path : String) (loaded : Except LoadError Settings)
    (types : List String) (withText strict : Bool) : Except (List String) Survey :=
  policyUnder loaded types withText strict >>= surveyAt d input path

def reported (format : Report.Format) : Except (List String) Survey → Outcome
  | .error chain => .failure chain
  | .ok s => .success (report format s.outlines) (s.warnings.flatMap (Outcome.linesOf ∘ warning))

theorem runExtract_eq (d : Disk) (input : Bytes) (path : String) (format : Report.Format)
    (settings : Option String) (types : List String) (withText strict : Bool) :
    runExtract d input path format settings types withText strict =
      reported format
        (extracted d input path (d.loaded (root d path) settings) types withText strict) := by
  rw [runExtract, extracted, policyUnder, ← Disk.policy_map_fst]
  cases d.policy (root d path) settings with
  | error e => rfl
  | ok found =>
    obtain ⟨p, source⟩ := found
    dsimp only
    change _ = reported format ((p.override types withText strict).mapError _ >>= _)
    cases p.override types withText strict with
    | error e => rfl
    | ok p =>
      change _ = reported format (surveyAt d input path p)
      simp only [surveyAt]
      split
      · cases outlineInput p input <;> rfl
      · cases Survey.ofPath? d p path <;> rfl

end Command

end ScriptOutline
