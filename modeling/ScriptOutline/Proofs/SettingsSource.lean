import ScriptOutline.Proofs.DefaultExcludes
import ScriptOutline.Proofs.ExitCode
import ScriptOutline.Proofs.NamedFile
import ScriptOutline.Proofs.Section

/-!
Where the settings for a directory come from. What is found for it is what its source holds, the
first file there is of those that settings may stand in (`Disk.discover_eq`). Files behind the
source are not looked at, also if something is wrong with the source (`settings_from_one_source`).
-/

set_option autoImplicit false

namespace ScriptOutline
open Json Text

namespace Disk

/-! The source. -/

theorem joinPath_inj (root : String) {name name' : String} :
    joinPath root name = joinPath root name' ↔ name = name' := by
  rw [joinPath_base, joinPath_base root name', String.append_right_inj]

/-- The file that settings for a directory come from: the first there is of those that they may
stand in. -/
def source? (d : Disk) (root : String) : Option String :=
  (settingsPaths root none).find? d.exists?

def packagePath (root : String) : String := joinPath root "package.json"

/-- The settings in a source, if it has any. A package has them in a section. -/
def loadSource (d : Disk) (root path : String) : Except LoadError (Option Settings) :=
  if path = packagePath root then d.loadSection path else (d.loadSettings path).map some

theorem discover_eq (d : Disk) (root : String) :
    d.discover root =
      match d.source? root with
      | none => .ok none
      | some path => (d.loadSource root path).map fun s? => s?.map fun s => (s, path) := by
  -- The package comes last, so the other paths are not to be taken for it.
  have hother (name : String) (hname : name ≠ "package.json") :
      joinPath root name ≠ packagePath root := by
    rwa [packagePath, Ne, joinPath_inj]
  have hwhole (path : String) :
      (d.loadSettings path).map (fun s => some (s, path)) =
        ((d.loadSettings path).map some).map fun s? => s?.map fun s => (s, path) := by
    cases d.loadSettings path <;> rfl
  rw [discover, source?, settingsPaths, List.find?_cons, List.find?_cons, List.find?_cons,
    List.find?_nil]
  cases d.exists? (joinPath root ".codecontextrc.json") with
  | true =>
    simp only [if_true, loadSource, if_neg (hother ".codecontextrc.json" (by decide)), hwhole]
  | false =>
  cases d.exists? (joinPath root "codecontext.config.json") with
  | true =>
    simp only [if_true, loadSource, if_neg (hother "codecontext.config.json" (by decide)), hwhole,
      Bool.false_eq_true, if_false]
  | false =>
  cases d.exists? (joinPath root "package.json") <;>
    simp [loadSource, packagePath]

/-- What is wrong with a file of settings. -/
inductive SettingsFault (d : Disk) (path : String) : LoadError → Prop where
  | unreadable {why} (hread : d.readText path = .error why) :
    SettingsFault d path (.unreadable path why)
  | malformed {text why} (hread : d.readText path = .ok text)
    (htext : Settings.ofText text = .error why) : SettingsFault d path (.malformed path why)
  | meaningless {text s why} (hread : d.readText path = .ok text)
    (htext : Settings.ofText text = .ok s) (hvalid : s.validate = .error why) :
    SettingsFault d path (.meaningless path why)

theorem loadSettings_eq_error_iff {d : Disk} {path : String} {e : LoadError} :
    d.loadSettings path = .error e ↔ d.SettingsFault path e := by
  simp only [loadSettings, bind_eq_error_iff, mapError_eq_error_iff, mapError_eq_ok_iff]
  constructor
  · rintro (⟨why, hread, rfl⟩ | ⟨text, hread, ⟨why, htext, rfl⟩ | ⟨s, htext, h⟩⟩)
    · exact .unreadable hread
    · exact .malformed hread htext
    · obtain ⟨why, hvalid, rfl⟩ | ⟨_, -, h⟩ := h
      · exact .meaningless hread htext hvalid
      · cases h
  · rintro (⟨hread⟩ | ⟨hread, htext⟩ | ⟨hread, htext, hvalid⟩)
    · exact .inl ⟨_, hread, rfl⟩
    · exact .inr ⟨_, hread, .inl ⟨_, htext, rfl⟩⟩
    · exact .inr ⟨_, hread, .inr ⟨_, htext, .inl ⟨_, hvalid, rfl⟩⟩⟩

/-- What is wrong with a package. -/
inductive PackageFault (d : Disk) (path : String) : LoadError → Prop where
  | unreadable {why} (hread : d.readText path = .error why) :
    PackageFault d path (.packageUnreadable path why)
  | malformed {text why} (hread : d.readText path = .ok text)
    (htext : Value.ofText text = .error why) : PackageFault d path (.packageMalformed path why)
  | sectionMalformed {text package v why} (hread : d.readText path = .ok text)
    (htext : Value.ofText text = .ok package) (hsection : package.last? "codeContext" = some v)
    (hv : Settings.ofValue v = .error why) : PackageFault d path (.sectionMalformed path why)
  | sectionMeaningless {text package v s why} (hread : d.readText path = .ok text)
    (htext : Value.ofText text = .ok package) (hsection : package.last? "codeContext" = some v)
    (hv : Settings.ofValue v = .ok s) (hvalid : s.validate = .error why) :
    PackageFault d path (.sectionMeaningless path why)

theorem loadSection_eq_error_iff {d : Disk} {path : String} {e : LoadError} :
    d.loadSection path = .error e ↔ d.PackageFault path e := by
  simp only [loadSection, bind_eq_error_iff, mapError_eq_error_iff, mapError_eq_ok_iff,
    Settings.section?_eq, map_eq_ok_iff, map_eq_error_iff]
  constructor
  · rintro (⟨why, hread, rfl⟩ | ⟨text, hread, ⟨why, htext, rfl⟩ | ⟨_, ⟨package, htext, rfl⟩, h⟩⟩)
    · exact .unreadable hread
    · exact .malformed hread htext
    · cases hsection : package.last? "codeContext" with
      | none =>
        rw [hsection] at h
        cases h
      | some v =>
        rw [hsection] at h
        simp only [bind_eq_error_iff, mapError_eq_error_iff, mapError_eq_ok_iff] at h
        obtain ⟨why, hv, rfl⟩ | ⟨s, hv, ⟨why, hvalid, rfl⟩ | ⟨_, -, h⟩⟩ := h
        · exact .sectionMalformed hread htext hsection hv
        · exact .sectionMeaningless hread htext hsection hv hvalid
        · cases h
  · rintro (⟨hread⟩ | ⟨hread, htext⟩ | ⟨hread, htext, hsection, hv⟩ |
      ⟨hread, htext, hsection, hv, hvalid⟩)
    · exact .inl ⟨_, hread, rfl⟩
    · exact .inr ⟨_, hread, .inl ⟨_, htext, rfl⟩⟩
    · refine .inr ⟨_, hread, .inr ⟨_, ⟨_, htext, hsection⟩, ?_⟩⟩
      exact bind_eq_error_iff.2 (.inl (mapError_eq_error_iff.2 ⟨_, hv, rfl⟩))
    · refine .inr ⟨_, hread, .inr ⟨_, ⟨_, htext, hsection⟩, ?_⟩⟩
      refine bind_eq_error_iff.2 (.inr ⟨_, mapError_eq_ok_iff.2 hv, ?_⟩)
      exact bind_eq_error_iff.2 (.inl (mapError_eq_error_iff.2 ⟨_, hvalid, rfl⟩))

/-- What is wrong with a source. -/
def SourceFault (d : Disk) (root path : String) (e : LoadError) : Prop :=
  if path = packagePath root then d.PackageFault path e else d.SettingsFault path e

theorem loadSource_eq_error_iff {d : Disk} {root path : String} {e : LoadError} :
    d.loadSource root path = .error e ↔ d.SourceFault root path e := by
  rw [loadSource, SourceFault]
  split
  · exact loadSection_eq_error_iff
  · rw [map_eq_error_iff, loadSettings_eq_error_iff]

/-- Whether a directory has no settings: no source, or a package without the section. -/
def HasNoSettings (d : Disk) (root : String) : Prop :=
  d.source? root = none ∨ d.source? root = some (packagePath root) ∧
    ∃ text package, d.readText (packagePath root) = .ok text ∧ Value.ofText text = .ok package ∧
      "codeContext" ∉ package.keys

theorem loadSection_eq_ok_none_iff {d : Disk} {path : String} :
    d.loadSection path = .ok none ↔ ∃ text package, d.readText path = .ok text ∧
      Value.ofText text = .ok package ∧ "codeContext" ∉ package.keys := by
  simp only [loadSection, bind_eq_ok_iff, mapError_eq_ok_iff, Settings.section?_eq, map_eq_ok_iff,
    ← Value.last?_eq_none_iff]
  constructor
  · rintro ⟨text, hread, _, ⟨package, htext, rfl⟩, h⟩
    refine ⟨text, package, hread, htext, ?_⟩
    cases hsection : package.last? "codeContext" with
    | none => rfl
    | some v =>
      rw [hsection] at h
      obtain ⟨s, -, h⟩ := bind_eq_ok_iff.1 h
      obtain ⟨_, -, h⟩ := bind_eq_ok_iff.1 h
      cases h
  · rintro ⟨text, package, hread, htext, hsection⟩
    exact ⟨text, hread, none, ⟨package, htext, hsection⟩, rfl⟩

theorem discover_eq_ok_none_iff {d : Disk} {root : String} :
    d.discover root = .ok none ↔ d.HasNoSettings root := by
  rw [discover_eq, HasNoSettings]
  cases d.source? root with
  | none => simp
  | some path =>
    simp only [map_eq_ok_iff, Option.map_eq_none_iff, exists_eq_right, loadSource, reduceCtorEq,
      false_or, Option.some.injEq]
    split
    · rename_i hpath
      rw [hpath, loadSection_eq_ok_none_iff, and_iff_right rfl]
    · rename_i hpath
      simp [map_eq_ok_iff, hpath]

/-- Settings that are found stand in the source. -/
theorem source?_of_discover {d : Disk} {root path : String} {s : Settings}
    (h : d.discover root = .ok (some (s, path))) : d.source? root = some path := by
  rw [discover_eq] at h
  split at h
  · cases h
  · rename_i hsource
    obtain ⟨s?, -, h⟩ := map_eq_ok_iff.1 h
    obtain ⟨_, -, h⟩ := Option.map_eq_some_iff.1 h
    cases h
    exact hsource

theorem discover_of_fault {d : Disk} {root path : String} {e : LoadError}
    (hsource : d.source? root = some path) (h : d.SourceFault root path e) :
    d.discover root = .error e := by
  rw [discover_eq, hsource]
  exact map_eq_error_iff.2 (loadSource_eq_error_iff.2 h)

/-! Other disks. -/

section
variable {d d' : Disk}

theorem discover_congr {root : String} (hsource : d'.source? root = d.source? root)
    (hread : ∀ path, d.source? root = some path → d'.readText path = d.readText path) :
    d'.discover root = d.discover root := by
  rw [discover_eq, discover_eq, hsource]
  cases h : d.source? root with
  | none => rfl
  | some path =>
    simp only [loadSource, loadSection, loadSettings, hread path h]

theorem exists?_congr {path : String} (h : d'.find path = d.find path) :
    d'.exists? path = d.exists? path := by
  rw [exists?, exists?, h]

theorem readText_congr {path : String} (h : d'.find path = d.find path) :
    d'.readText path = d.readText path := by
  rw [readText, readText, read, read, h]

/-- The source is where it is whatever stands behind it. -/
theorem source?_eq_some {root path : String} {higher lower : List String}
    (hpaths : settingsPaths root none = higher ++ path :: lower)
    (hhigher : ∀ p ∈ higher, d.exists? p = false) (hpath : d.exists? path = true) :
    d.source? root = some path := by
  rw [source?, hpaths, List.find?_append, List.find?_cons_of_pos hpath, Option.or_eq_some_iff]
  exact .inr ⟨List.find?_eq_none.2 fun p hp => by simp [hhigher p hp], rfl⟩

theorem discover_congr_of_higher {root path : String} {higher lower : List String}
    (hpaths : settingsPaths root none = higher ++ path :: lower)
    (hhigher : ∀ p ∈ higher, d.exists? p = false) (hpath : d.exists? path = true)
    (hfind : ∀ p ∈ higher ++ [path], d'.find p = d.find p) :
    d'.discover root = d.discover root := by
  obtain ⟨hfindHigher, hfindPath⟩ : (∀ p ∈ higher, d'.find p = d.find p) ∧
      d'.find path = d.find path := by
    simpa only [List.forall_mem_append, List.forall_mem_singleton] using hfind
  have hsource := source?_eq_some hpaths hhigher hpath
  have hsource' : d'.source? root = some path := by
    refine source?_eq_some hpaths (fun p hp => ?_) ?_
    · rw [exists?_congr (hfindHigher p hp), hhigher p hp]
    · rw [exists?_congr hfindPath, hpath]
  refine discover_congr (hsource'.trans hsource.symm) fun p hp => readText_congr ?_
  obtain rfl : path = p := Option.some.inj (hsource.symm.trans hp)
  exact hfindPath

end

/-- What stands in a directory by itself, if anything does. -/
theorem find_joinPath_of_lookup {d : Disk} {root name : String} {entries : List (String × Tree)}
    (hroot : d.find root = .ok (.dir entries)) (hname : IsStep name)
    (htakes : Takes (joinPath root name))
    (hlink : ∀ target, entries.lookup name ≠ some (.link target)) :
    d.find (joinPath root name) = (entries.lookup name).elim (.error .notFound) .ok := by
  obtain ⟨links, above, hfound⟩ := find_joinPath hroot hname.1 htakes
  have hsteps := steps_of_isStep hname
  have hshort : name.utf8ByteSize ≤ nameLimit := by
    refine htakes.2.2 name ?_
    obtain hjoined | ⟨before, -, hjoined⟩ := goesOn_steps_joinPath root name <;>
    · rw [hjoined, hsteps]
      exact List.mem_append_right _ List.mem_cons_self
  obtain ⟨hempty, hdot, hdots, -⟩ := hname
  rw [hfound, hsteps, follow, if_neg (by simp [hempty, hdot]), if_neg hdots,
    if_neg (Nat.not_lt.2 hshort)]
  cases hentry : entries.lookup name with
  | none => rfl
  | some t =>
    cases t with
    | link target => exact absurd hentry (hlink target)
    | file bytes => simp only [follow, Option.elim]
    | dir entries => simp only [follow, Option.elim]

theorem find_here (d : Disk) : d.find "." = .ok (.dir d.entries) := by
  have hsteps : steps "." = ["."] := by decide +kernel
  rw [find_eq, if_neg (by decide +kernel), if_neg (by decide), if_neg (by decide +kernel),
    way?, if_neg (by decide +kernel), hsteps]
  simp only [follow]
  rfl

end Disk

/-- Settings for a directory come from its source, the first file there is of those that they may
stand in. What it is and what it holds settles the policy, or what fails. So files behind it make no
difference, whatever is wrong with it. A directory without settings gets the defaults and no path;
otherwise the path is that of the source. Settings at an explicit path come from there alone. -/
theorem settings_from_one_source (d : Disk) (root : String) :
    (∀ d' : Disk, d'.source? root = d.source? root →
      (∀ path, d.source? root = some path → d'.readText path = d.readText path) →
      d'.policy root none = d.policy root none) ∧
    (∀ higher path lower, Disk.settingsPaths root none = higher ++ path :: lower →
      (∀ p ∈ higher, d.exists? p = false) → d.exists? path = true →
      ∀ d' : Disk, (∀ p ∈ higher ++ [path], d'.find p = d.find p) →
        d'.policy root none = d.policy root none) ∧
    (∀ path e, d.source? root = some path → d.SourceFault root path e →
      d.policy root none = .error e) ∧
    (d.HasNoSettings root →
      ∃ p, Settings.resolve {} = .ok p ∧ d.policy root none = .ok (p, none)) ∧
    (∀ p source, d.policy root none = .ok (p, source) → ¬ d.HasNoSettings root →
      ∃ path, d.source? root = some path ∧ source = some path) ∧
    ∀ path,
      (∀ (d' : Disk) (root' : String), d'.readText path = d.readText path →
        d'.policy root' (some path) = d.policy root (some path)) ∧
      ∀ p source, d.policy root (some path) = .ok (p, source) → source = some path := by
  refine ⟨?_, ?_, ?_, ?_, ?_, fun path => ⟨?_, ?_⟩⟩
  · intro d' hsource hread
    rw [Disk.policy, Disk.policy, Disk.discover_congr hsource hread]
  · intro higher path lower hpaths hhigher hpath d' hfind
    rw [Disk.policy, Disk.policy, Disk.discover_congr_of_higher hpaths hhigher hpath hfind]
  · intro path e hsource hfault
    rw [Disk.policy, Disk.discover_of_fault hsource hfault]
    rfl
  · intro hnone
    refine ⟨_, Settings.resolve_default, ?_⟩
    rw [Disk.policy, Disk.discover_eq_ok_none_iff.2 hnone]
    change (Settings.resolve {}).mapError _ >>= _ = _
    rw [Settings.resolve_default]
    rfl
  · intro p source hpolicy hsome
    obtain ⟨found, hfound, hpolicy⟩ := bind_eq_ok_iff.1 hpolicy
    cases found with
    | none => exact absurd (Disk.discover_eq_ok_none_iff.1 hfound) hsome
    | some found =>
      obtain ⟨_, -, hpolicy⟩ := bind_eq_ok_iff.1 hpolicy
      cases hpolicy
      exact ⟨_, Disk.source?_of_discover hfound, rfl⟩
  · intro d' root' hread
    rw [Disk.policy, Disk.policy, Disk.loadSettings, Disk.loadSettings, hread]
  · intro p source hpolicy
    obtain ⟨found, hfound, hpolicy⟩ := bind_eq_ok_iff.1 hpolicy
    obtain ⟨s, -, rfl⟩ := map_eq_ok_iff.1 hfound
    obtain ⟨_, -, hpolicy⟩ := bind_eq_ok_iff.1 hpolicy
    cases hpolicy
    rfl

/-- What is wrong with the first file fails, whatever there is behind it; a package without the
section leaves the defaults in force. -/
theorem settings_from_one_source_malformed :
    let file (v : Value) : Tree := .file (encodeUtf8 v.compact)
    let d : Disk := ⟨"/w", [("codecontext.config.json", file (.array [])),
      (".codecontextrc.json", file .null)]⟩
    let d' : Disk := ⟨"/w", [(".codecontextrc.json", file .null), ("package.json", file .null)]⟩
    let d'' : Disk := ⟨"/w", [("package.json", file .null)]⟩
    d.source? "." = some "./.codecontextrc.json" ∧
      (∃ why, d.policy "." none = .error (.malformed "./.codecontextrc.json" why)) ∧
      d'.policy "." none = d.policy "." none ∧
      d''.source? "." = some "./package.json" ∧ ∃ p, d''.policy "." none = .ok (p, none) := by
  intro file d d' d''
  have hpaths : Disk.settingsPaths "." none =
      ["./.codecontextrc.json", "./codecontext.config.json", "./package.json"] := by decide +kernel
  have htext : Value.null.IsText Value.null.compact := isText_compact (by simp [Value.Natural])
  have hfind (d : Disk) (hlinks : ∀ name target, (name, Tree.link target) ∉ d.entries)
      (name : String) (hname : IsStep name ∧ Disk.Takes (joinPath "." name)) :
      d.find (joinPath "." name) = (d.entries.lookup name).elim (.error .notFound) .ok :=
    Disk.find_joinPath_of_lookup d.find_here hname.1 hname.2 fun target h =>
      hlinks name target (mem_of_lookup h)
  have hfile : d.find "./.codecontextrc.json" = .ok (file .null) :=
    hfind d (by simp [d, file]) ".codecontextrc.json" (by decide +kernel)
  have hfile' : d'.find "./.codecontextrc.json" = .ok (file .null) :=
    hfind d' (by simp [d', file]) ".codecontextrc.json" (by decide +kernel)
  have hexists : d.exists? "./.codecontextrc.json" = true := by
    rw [Disk.exists?, hfile]
    rfl
  have hsource : d.source? "." = some "./.codecontextrc.json" :=
    Disk.source?_eq_some (hpaths.trans (List.nil_append _).symm) (by simp) hexists
  have hfault : d.SourceFault "." "./.codecontextrc.json" (.malformed "./.codecontextrc.json"
      (.invalidType .null "struct CodeContextConfig")) :=
    (if_neg (by decide +kernel)).mpr
      (.malformed (Disk.readText_eq_ok_iff.2 hfile) (Settings.ofText_of_isText htext))
  have hfind'' := hfind d'' (by simp [d'', file])
  have hhidden : d''.find "./.codecontextrc.json" = .error .notFound :=
    hfind'' ".codecontextrc.json" (by decide +kernel)
  have hvisible : d''.find "./codecontext.config.json" = .error .notFound :=
    hfind'' "codecontext.config.json" (by decide +kernel)
  have hpackage : d''.find "./package.json" = .ok (file .null) :=
    hfind'' "package.json" (by decide +kernel)
  have hsource'' : d''.source? "." = some "./package.json" := by
    simp only [Disk.source?, hpaths, List.find?, Disk.exists?, hhidden, hvisible, hpackage,
      Except.toOption, Option.isSome]
  have hnone : d''.HasNoSettings "." :=
    .inr ⟨hsource'', _, _, Disk.readText_eq_ok_iff.2 hpackage,
      Value.ofText_of_isText htext (by decide), by simp [Value.keys]⟩
  obtain ⟨-, hlower, hfails, -⟩ := settings_from_one_source d "."
  obtain ⟨-, -, -, hdefaults, -⟩ := settings_from_one_source d'' "."
  obtain ⟨p, -, hp⟩ := hdefaults hnone
  refine ⟨hsource, ⟨_, hfails _ _ hsource hfault⟩, ?_, hsource'', p, hp⟩
  exact hlower [] _ _ hpaths (by simp) hexists d' (by simp [hfile, hfile'])

end ScriptOutline
