import ScriptOutline.Proofs.DirectorySurvey
import ScriptOutline.Proofs.Loading

/-!
Which kinds are asked for decides which records are kept and nothing else: a run finds what it would
find without kinds, less the records of other kinds (`runExtract_keeps_kinds`). So files are listed
and skipped as without kinds, and what makes a run fail is what makes it fail without them.
-/

set_option autoImplicit false

namespace ScriptOutline
open Text

theorem Settings.mem_kindSet_iff {ks : List Kind} {k : Kind} : k ∈ kindSet ks ↔ k ∈ ks := by
  simp [kindSet, Kind.mem_all]

theorem contains_congr {ks ks' : List Kind} (h : ∀ k, k ∈ ks ↔ k ∈ ks') :
    ks.contains = ks'.contains := by
  funext k
  rw [Bool.eq_iff_iff, List.contains_iff_mem, List.contains_iff_mem, h]

/-! Records. -/

namespace Policy

/-- The policy that keeps only records of some kinds. -/
def keeping (p : Policy) (ks : List Kind) : Policy := { p with kinds := some (Settings.kindSet ks) }

theorem sieve_run (p : Policy) (lines : List Line) (kept : Nat) (rs : List Record) :
    p.sieve.run lines kept rs () = (rs.filter (p.keeps ·.kind), ()) := by
  induction rs generalizing kept with
  | nil => rfl
  | cons r rs ih => by_cases h : p.keeps r.kind <;> simp [Sieve.run, sieve, h, ih]

/-- Records are kept or not after the text is read, which fails or not for its own reasons. -/
theorem outline_eq_map (p : Policy) (text : List Char) :
    p.outline text =
      (ScriptOutline.outline p.options text).map (List.filter (p.keeps ·.kind)) := by
  rw [outline, ScriptOutline.outline, outlineWith, outlineWith, sieve_run, Sieve.run_all]
  cases ((Source.ofText text).candidates p.options).failure <;> rfl

@[simp] theorem options_keeping (p : Policy) (ks : List Kind) :
    (p.keeping ks).options = p.options := rfl

theorem outline_keeping {p : Policy} (hp : p.kinds = none) (ks : List Kind) (text : List Char) :
    (p.keeping ks).outline text = (p.outline text).map (List.filter (ks.contains ·.kind)) := by
  have hkeeping : (p.keeping ks).keeps = ks.contains :=
    contains_congr fun _ => Settings.mem_kindSet_iff
  have hall : p.keeps = fun _ => true := by
    funext k
    rw [keeps, hp]
  rw [outline_eq_map, outline_eq_map, hkeeping, hall, options_keeping]
  cases ScriptOutline.outline p.options text with
  | error e => rfl
  | ok rs => simp [Except.map]

end Policy

/-! Files. -/

/-- A file with its records of some kinds. -/
def FileOutline.restrict (ks : List Kind) (f : FileOutline) : FileOutline :=
  { f with records := f.records.filter (ks.contains ·.kind) }

/-- A survey with the records of some kinds in each outline. -/
def Survey.restrict (ks : List Kind) (s : Survey) : Survey :=
  { s with outlines := s.outlines.map (FileOutline.restrict ks) }

theorem Survey.restrict_congr {ks ks' : List Kind} (h : ∀ k, k ∈ ks ↔ k ∈ ks') :
    restrict ks = restrict ks' := by
  have hfile : FileOutline.restrict ks = FileOutline.restrict ks' := by
    funext f
    rw [FileOutline.restrict, FileOutline.restrict, contains_congr h]
  funext s
  rw [restrict, restrict, hfile]

section
variable {p : Policy} (hp : p.kinds = none) (ks : List Kind)
include hp

theorem Policy.outlineFile_keeping (path : String) (bytes : Bytes) :
    (p.keeping ks).outlineFile path bytes =
      (p.outlineFile path bytes).map (FileOutline.restrict ks) := by
  rw [outlineFile, outlineFile]
  cases textOfBytes bytes with
  | error e => rfl
  | ok text =>
    change Except.map _ ((p.keeping ks).outline text) =
      Except.map _ (Except.map _ (p.outline text))
    rw [outline_keeping hp]
    cases p.outline text <;> rfl

theorem Survey.ofFiles_keeping (files : List (String × Bytes)) :
    ofFiles (p.keeping ks) files = (ofFiles p files).restrict ks := by
  have houtline : outline? (p.keeping ks) =
      fun f => (outline? p f).map (FileOutline.restrict ks) := by
    funext f
    rw [outline?, Policy.outlineFile_keeping hp, outline?]
    cases p.outlineFile f.1 f.2 <;> rfl
  have hobstacle : obstacle? (p.keeping ks) = obstacle? p := by
    funext f
    rw [obstacle?, Policy.outlineFile_keeping hp, obstacle?]
    cases p.outlineFile f.1 f.2 <;> rfl
  rw [ofFiles_eq, ofFiles_eq, houtline, hobstacle, restrict, ← List.map_filterMap]

/-- Kinds do not matter for which files are looked at. -/
theorem Survey.ofPath?_keeping (d : Disk) (path : String) :
    ofPath? d (p.keeping ks) path = (ofPath? d p path).map (restrict ks) := by
  have hfiles : files? d (p.keeping ks) path = files? d p path := rfl
  rw [ofPath?, ofPath?, hfiles, Option.map_map]
  congr 1
  funext files
  exact ofFiles_keeping hp ks files

end

/-! Policies. -/

/-- Settings without types. -/
def Settings.untyped (s : Settings) : Settings := { s with types := [] }

/-- A policy with the switches of a command on. -/
def Policy.switch (p : Policy) (withText strict : Bool) : Policy :=
  { p with options := ⟨p.options.withText || withText, p.options.strict || strict⟩ }

namespace Settings
variable {s : Settings} {ks : List Kind}

theorem validate_untyped (h : s.types.mapM Kind.parse? = some ks) :
    s.validate = s.untyped.validate := by
  rw [validate, forM_kindOf_eq_ok_iff.2 ⟨ks, h⟩]
  rfl

/-- Types settle the kinds of a policy, and nothing else. -/
theorem resolve_of_types (h : s.types.mapM Kind.parse? = some ks) :
    s.resolve = s.untyped.resolve.map fun p =>
      { p with kinds := if s.types.isEmpty then none else some (kindSet ks) } := by
  have hkinds : s.types.mapM kindOf = .ok ks :=
    mapM_eq_ok_of_mapM_eq_some (fun entry k hk => by rw [kindOf, hk]) h
  rw [resolve, resolve, validate_untyped h, hkinds]
  change _ = _ <$> _
  simp only [untyped, List.mapM_nil, pure_bind, map_bind, map_pure]
  rfl

theorem kinds_of_resolve_untyped {p : Policy} (h : s.untyped.resolve = .ok p) :
    p.kinds = none := by
  have hresolve := resolve_of_types (show s.untyped.types.mapM Kind.parse? = some [] from rfl)
  rw [show s.untyped.untyped = s.untyped from rfl, h] at hresolve
  exact congrArg Policy.kinds (Except.ok.inj hresolve)

end Settings

theorem Policy.override_of_types (p : Policy) {types : List String} {ks : List Kind}
    (h : types.mapM Kind.parse? = some ks) (withText strict : Bool) :
    p.override types withText strict =
      .ok { p.switch withText strict with
        kinds := if types.isEmpty then p.kinds else some (Settings.kindSet ks) } := by
  rw [override, mapM_eq_ok_of_mapM_eq_some (fun entry k hk => by rw [Kind.parse, hk]) h]
  rfl

/-! Runs. -/

namespace Command

/-- Whether these names of types are in force: those of the options if there are any, or else those
of the settings. -/
def InForce (loaded : Except LoadError Settings) (types names : List String) : Prop :=
  if types.isEmpty then loaded.map Settings.types = .ok names else types = names

section
variable {loaded : Except LoadError Settings} (withText strict : Bool)

theorem policyUnder_of_inForce (hvalid : ∀ s, loaded = .ok s → s.validate = .ok ())
    {types names : List String} (hnames : InForce loaded types names) (hne : names ≠ [])
    {ks : List Kind} (hks : names.mapM Kind.parse? = some ks) :
    policyUnder loaded types withText strict =
      (policyUnder (loaded.map Settings.untyped) [] withText strict).map (·.keeping ks) := by
  cases loaded with
  | error e => rfl
  | ok s =>
    obtain ⟨_, htypes, -⟩ := bind_eq_ok_iff.1 (hvalid s rfl)
    obtain ⟨ks', hks'⟩ := Settings.forM_kindOf_eq_ok_iff.1 htypes
    rw [policyUnder, policyUnder]
    change (s.resolve.mapError LoadError.unresolved).mapError loadFailure >>= _ =
      Except.map _ ((s.untyped.resolve.mapError LoadError.unresolved).mapError loadFailure >>= _)
    rw [Settings.resolve_of_types hks']
    cases s.untyped.resolve with
    | error e => rfl
    | ok p =>
      change (Policy.override _ types withText strict).mapError _ =
        Except.map (·.keeping ks) (.ok (p.switch withText strict))
      have hsome : names.isEmpty = false := by simpa using hne
      rw [InForce] at hnames
      split at hnames
      · rename_i hempty
        obtain rfl := List.isEmpty_iff.1 hempty
        obtain rfl : s.types = names := Except.ok.inj hnames
        obtain rfl : ks' = ks := Option.some.inj (hks'.symm.trans hks)
        rw [hsome]
        rfl
      · subst hnames
        rw [Policy.override_of_types _ hks, hsome]
        rfl

theorem kinds_of_policyUnder_untyped {p : Policy}
    (h : policyUnder (loaded.map Settings.untyped) [] withText strict = .ok p) :
    p.kinds = none := by
  obtain ⟨q, hq, h⟩ := bind_eq_ok_iff.1 h
  obtain ⟨s, hs, hq⟩ := bind_eq_ok_iff.1 (mapError_eq_ok_iff.1 hq)
  obtain ⟨s, -, rfl⟩ := map_eq_ok_iff.1 hs
  cases h
  have hkinds : q.kinds = none := Settings.kinds_of_resolve_untyped (mapError_eq_ok_iff.1 hq)
  exact hkinds

end

theorem outlineInput_eq (p : Policy) (input : Bytes) :
    outlineInput p input = p.outlineFile "<stdin>" input := by
  rw [outlineInput, Policy.outlineFile]
  cases textOfBytes input with
  | error e => rfl
  | ok text =>
    change (p.outline text >>= _) = (p.outline text).map _
    cases p.outline text <;> rfl

theorem surveyAt_keeping {p : Policy} (hp : p.kinds = none) (ks : List Kind) (d : Disk)
    (input : Bytes) (path : String) :
    surveyAt d input path (p.keeping ks) =
      (surveyAt d input path p).map (Survey.restrict ks) := by
  rw [surveyAt, surveyAt]
  split
  · rw [outlineInput_eq, outlineInput_eq, Policy.outlineFile_keeping hp]
    cases p.outlineFile "<stdin>" input <;> rfl
  · rw [Survey.ofPath?_keeping hp]
    cases Survey.ofPath? d p path <;> rfl

/-- What a run finds if nobody asks for kinds. -/
def unfiltered (d : Disk) (input : Bytes) (path : String) (settings : Option String)
    (withText strict : Bool) : Except (List String) Survey :=
  extracted d input path ((d.loaded (root d path) settings).map Settings.untyped) [] withText
    strict

/-- Two disks with the same files at a path, and with settings that are the same up to types. -/
structure SameButTypes (path : String) (settings : Option String) (d d' : Disk) : Prop where
  files : ∀ p, Survey.ofPath? d' p path = Survey.ofPath? d p path
  settings : (d'.loaded (root d' path) settings).map Settings.untyped =
    (d.loaded (root d path) settings).map Settings.untyped

theorem SameButTypes.unfiltered_eq {path : String} {settings : Option String} {d d' : Disk}
    (h : SameButTypes path settings d d') (input : Bytes) (withText strict : Bool) :
    unfiltered d' input path settings withText strict =
      unfiltered d input path settings withText strict := by
  have hsurvey : surveyAt d' input path = surveyAt d input path := by
    funext p
    rw [surveyAt, surveyAt, h.files]
  rw [unfiltered, unfiltered, extracted, extracted, h.settings, hsurvey]

theorem runExtract_of_inForce (d : Disk) (input : Bytes) (path : String) (format : Report.Format)
    (settings : Option String) {types names : List String} (withText strict : Bool)
    (hnames : InForce (d.loaded (root d path) settings) types names) (hne : names ≠ [])
    {ks : List Kind} (hks : names.mapM Kind.parse? = some ks) :
    runExtract d input path format settings types withText strict =
      reported format
        ((unfiltered d input path settings withText strict).map (Survey.restrict ks)) := by
  have hvalid : ∀ s, d.loaded (root d path) settings = .ok s → s.validate = .ok () :=
    fun _ => Disk.validate_of_loaded
  rw [runExtract_eq, extracted, policyUnder_of_inForce withText strict hvalid hnames hne hks,
    unfiltered, extracted]
  cases hp : policyUnder ((d.loaded (root d path) settings).map Settings.untyped) [] withText
      strict with
  | error e => rfl
  | ok p =>
    have hkinds := kinds_of_policyUnder_untyped withText strict hp
    exact congrArg (reported format) (surveyAt_keeping hkinds ks d input path)

/-- Kinds that are asked for, by the settings or by options, leave of what is found the records of
these kinds: a run reports what a run without types finds, restricted to them, and fails where that
fails. All that matters about their names is which kinds they name. -/
theorem runExtract_keeps_kinds (d : Disk) (input : Bytes) (path : String)
    (format : Report.Format) (settings : Option String) {types names : List String}
    (withText strict : Bool) (hne : names ≠ [])
    (hnames : InForce (d.loaded (root d path) settings) types names)
    {ks : List Kind} (hks : names.mapM Kind.parse? = some ks) :
    runExtract d input path format settings types withText strict =
        reported format
          ((unfiltered d input path settings withText strict).map (Survey.restrict ks)) ∧
      ∀ d', SameButTypes path settings d d' →
        ((∀ s, d'.loaded (root d' path) settings = .ok s → s.types = []) →
          runExtract d' input path format settings [] withText strict =
            reported format (unfiltered d input path settings withText strict)) ∧
        ∀ types' names' ks', InForce (d'.loaded (root d' path) settings) types' names' →
          names'.mapM Kind.parse? = some ks' → (∀ k, k ∈ ks' ↔ k ∈ ks) →
          runExtract d' input path format settings types' withText strict =
            runExtract d input path format settings types withText strict := by
  have hrun := runExtract_of_inForce d input path format settings withText strict hnames hne hks
  refine ⟨hrun, fun d' hsame => ⟨fun huntyped => ?_, ?_⟩⟩
  · have hloaded : (d'.loaded (root d' path) settings).map Settings.untyped =
        d'.loaded (root d' path) settings := by
      cases h : d'.loaded (root d' path) settings with
      | error e => rfl
      | ok s => rw [Except.map, Settings.untyped, ← huntyped s h]
    rw [runExtract_eq, ← hsame.unfiltered_eq, unfiltered, hloaded]
  · intro types' names' ks' hnames' hks' hkinds
    have hne' : names' ≠ [] := by
      rintro rfl
      cases hks'
      obtain ⟨name, rest, rfl⟩ := List.exists_cons_of_ne_nil hne
      rw [List.mapM_cons] at hks
      obtain ⟨k, -, hks⟩ := Option.bind_eq_some_iff.1 hks
      obtain ⟨ks, -, hks⟩ := Option.bind_eq_some_iff.1 hks
      cases hks
      exact absurd ((hkinds k).2 List.mem_cons_self) List.not_mem_nil
    rw [hrun, runExtract_of_inForce d' input path format settings withText strict hnames' hne' hks',
      hsame.unfiltered_eq, Survey.restrict_congr hkinds]

/-- Settings that ask for comments, as they are written. -/
def commentSettings : List Char := "\x7b\"types\":[\"comment\"]\x7d".toList

theorem ofText_commentSettings :
    Settings.ofText commentSettings = .ok { types := ["comment"] } :=
  eq_ok_of_toOption (by decide +kernel)

/-- Of a comment and a declaration the settings leave the comment. Options that name its kind twice
over, in other spellings, make no difference. -/
theorem runExtract_keeps_comments :
    let d : Disk := ⟨"/w", [("c.json", .file (encodeUtf8 commentSettings))]⟩
    let input := encodeUtf8 "/**/\nvar a = 1;".toList
    InForce (d.loaded (root d "-") (some "c.json")) [] ["comment"] ∧
      runExtract d input "-" .text (some "c.json") [] false false =
        .success (report .text [⟨"<stdin>", [.comment 1 1 none]⟩]) [] ∧
      runExtract d input "-" .text (some "c.json") ["COMMENT", "\tComment"] false false =
        runExtract d input "-" .text (some "c.json") [] false false := by
  intro d input
  have hloaded : d.loaded (root d "-") (some "c.json") = .ok { types := ["comment"] } := by
    have hfind : d.find "c.json" = .ok (.file (encodeUtf8 commentSettings)) :=
      Disk.find_of_lookup (by decide +kernel) (by decide +kernel) (by decide +kernel) rfl (by simp)
    have hread : d.readText "c.json" = .ok commentSettings := by
      rw [Disk.readText, Disk.read, hfind]
      decide +kernel
    exact Disk.loadSettings_eq_ok_iff.2
      ⟨_, hread, ofText_commentSettings, by decide +kernel⟩
  have hnames : InForce (d.loaded (root d "-") (some "c.json")) [] ["comment"] := by
    rw [hloaded]
    rfl
  have hkinds : ["comment"].mapM Kind.parse? = some [.comment] := by decide +kernel
  obtain ⟨hrun, hspelling⟩ := runExtract_keeps_kinds d input "-" .text (some "c.json") false false
    (List.cons_ne_nil _ _) hnames hkinds
  refine ⟨hnames, ?_, ?_⟩
  · rw [hrun, unfiltered, hloaded]
    decide +kernel
  · exact (hspelling d ⟨fun _ => rfl, rfl⟩).2 _ _ [.comment, .comment] rfl (by decide +kernel)
      (by simp)

end Command

end ScriptOutline
