import ScriptOutline.Proofs.Resolution

/-!
Directories that are passed by and directories that are excluded by default. A walk goes into none
of the latter (`SourceFile.not_mem_defaultDirectories`), so below a directory the patterns for them
change nothing, whatever the directory is called itself (`directories_excluded_are_skipped`).
-/

set_option autoImplicit false

namespace ScriptOutline
open Text

theorem SourceFile.not_mem_defaultDirectories {entries : List (String × Tree)} {f : SourceFile}
    (h : f ∈ below entries) : ∀ name ∈ f.names.dropLast, name ∉ Settings.defaultDirectories := by
  have hskipped : ∀ name ∈ Settings.defaultDirectories, isSkipped name = true := by decide +kernel
  obtain ⟨-, hpath⟩ := (mem_below_iff entries f).1 h
  intro name hname hmem
  have hentered := ((isSourcePath_iff f.names).1 hpath).1 name hname
  rw [hskipped name hmem] at hentered
  cases hentered

namespace Survey
variable {d : Disk} {root : String} {entries : List (String × Tree)}

/-- Whatever a survey reports on is a source file below the directory. -/
theorem exists_mem_below {p : Policy} {s : Survey} (hroot : d.find root = .ok (.dir entries))
    (h : ofPath? d p root = some s) {path : String}
    (hpath : path ∈ s.outlines.map FileOutline.file ++ s.skipped.map Prod.fst) :
    ∃ f ∈ SourceFile.below entries, path = f.path root := by
  rw [ofPath?_dir p hroot, Option.some.injEq] at h
  subst h
  have hfound : ∃ f ∈ found p root entries, path = f.1 := by
    rw [List.mem_append, List.mem_map, List.mem_map] at hpath
    rcases hpath with ⟨o, ho, rfl⟩ | ⟨k, hk, rfl⟩
    · obtain ⟨f, hf, ho⟩ := List.mem_filterMap.1 ho
      exact ⟨f, hf, file_of_outline? p ho⟩
    · obtain ⟨f, hf, hk⟩ := List.mem_filterMap.1 hk
      exact ⟨f, hf, ((obstacle?_eq_some_iff p).1 hk).1⟩
  obtain ⟨_, hmem, rfl⟩ := hfound
  obtain ⟨f, hf, rfl⟩ := List.mem_map.1 hmem
  exact ⟨f, (List.mem_filter.1 hf).1, rfl⟩

/-- Below a directory it makes no difference whether other directories are excluded by default. -/
theorem ofPath?_of_defaultGlobs {p : Policy} (hp : p.excludes = Settings.defaultGlobs)
    (hroot : d.find root = .ok (.dir entries)) (hvalid : ValidEntries entries) :
    ofPath? d { p with excludes := [.ending Settings.defaultEnding] } root =
      ofPath? d p root := by
  have hadmits : ∀ f ∈ SourceFile.below entries,
      Policy.admits { p with excludes := [.ending Settings.defaultEnding] } f.relative =
        p.admits f.relative := by
    intro f hf
    have hnone : (Settings.defaultDirectories.map fun d => Glob.within d.toList).any
        (·.hits (encodeUtf8 f.relative.toList)) = false := by
      rw [← Bool.not_eq_true, any_hits_directories_iff]
      rintro ⟨name, hname, hmem⟩
      obtain ⟨hfile, -⟩ := (SourceFile.mem_below_iff entries f).1 hf
      rw [SourceFile.steps_relative hvalid hfile] at hmem
      exact SourceFile.not_mem_defaultDirectories hf name hmem hname
    rw [Policy.admits, Policy.admits, hp, Settings.defaultGlobs, List.any_append, hnone,
      Bool.false_or]
  have hfound : found { p with excludes := [.ending Settings.defaultEnding] } root entries =
      found p root entries := by
    rw [found, found, List.filter_congr hadmits]
  rw [ofPath?_dir _ hroot, ofPath?_dir _ hroot, hfound]
  rfl

end Survey

theorem Settings.resolve_ending :
    resolve { excludes := ["**/*.min.js"] } =
      .ok ⟨none, [.ending defaultEnding], none, {}⟩ := by
  have hvalid : validate { excludes := ["**/*.min.js"] } = .ok () := by
    have hending := exists_globOf_iff.1 ⟨_, globOf_ending .excludes⟩
    rw [validate_eq_ok_iff]
    simpa using hending
  have hnone : Glob.obstacle? [.ending defaultEnding] = none := by decide +kernel
  refine resolve_eq_ok_iff.2 ⟨hvalid, [], [], _, rfl, rfl, rfl, ?_, hnone, rfl⟩
  simp [patterns, List.mapM_cons, globOf_ending]

/-- Settings that settle nothing and settings that exclude nothing but an end of paths make the
same survey of every directory, wherever that is. Nothing in a directory that is excluded by
default is reported on below it, whatever the policy. -/
theorem directories_excluded_are_skipped {d : Disk} (hd : d.Valid) {root : String}
    {entries : List (String × Tree)} (hroot : d.find root = .ok (.dir entries)) :
    (∃ p q s, Settings.resolve {} = .ok p ∧
      Settings.resolve { excludes := ["**/*.min.js"] } = .ok q ∧
      Survey.ofPath? d p root = some s ∧ Survey.ofPath? d q root = some s) ∧
    ∀ p s, Survey.ofPath? d p root = some s →
      ∀ path ∈ s.outlines.map FileOutline.file ++ s.skipped.map Prod.fst,
        ∃ names, pathNames path = pathNames root ++ names ∧
          ∀ name ∈ names.dropLast, name ∉ ["node_modules", "dist", "build", "coverage"] := by
  have hvalid : ValidEntries entries := Tree.valid_dir_iff.1 (Disk.valid_of_find hd hroot)
  constructor
  · have hsurvey := Survey.ofPath?_of_defaultGlobs (p := ⟨none, _, none, {}⟩) rfl hroot hvalid
    exact ⟨_, _, _, Settings.resolve_default, Settings.resolve_ending, Survey.ofPath?_dir _ hroot,
      hsurvey.trans (Survey.ofPath?_dir _ hroot)⟩
  · intro p s hs path hpath
    obtain ⟨f, hf, rfl⟩ := Survey.exists_mem_below hroot hs hpath
    obtain ⟨hfile, -⟩ := (SourceFile.mem_below_iff entries f).1 hf
    have hstep := hfile.isStep (Tree.valid_dir_iff.2 hvalid)
    exact ⟨f.names, SourceFile.pathNames_path root hstep, SourceFile.not_mem_defaultDirectories hf⟩

/-- A directory by the name of one that is excluded is surveyed where it is the root, and what
stands in another one below it is passed by. -/
theorem directories_excluded_are_skipped_below_build :
    let entries := [("dist", Tree.dir [("a.js", .file [])]), ("b.js", .file [])]
    let d : Disk := ⟨"/w", [("build", .dir entries)]⟩
    d.Valid ∧ d.find "build" = .ok (.dir entries) ∧
      ∃ p q s, Settings.resolve {} = .ok p ∧
        Settings.resolve { excludes := ["**/*.min.js"] } = .ok q ∧
        Survey.ofPath? d p "build" = some s ∧ Survey.ofPath? d q "build" = some s ∧
        ⟨"build/b.js", []⟩ ∈ s.outlines ∧
        "build/dist/a.js" ∉ s.outlines.map FileOutline.file ++ s.skipped.map Prod.fst := by
  intro entries d
  have hvalid : d.Valid := by decide +kernel
  have hfind : d.find "build" = .ok (.dir entries) :=
    Disk.find_of_lookup (by decide +kernel) (by decide +kernel) (by decide +kernel) rfl (by simp)
  obtain ⟨⟨p, q, s, hp, hq, hs, hs'⟩, hskipped⟩ := directories_excluded_are_skipped hvalid hfind
  refine ⟨hvalid, hfind, p, q, s, hp, hq, hs, hs', ?_, fun hmem => ?_⟩
  · obtain rfl := Except.ok.inj (Settings.resolve_ending.symm.trans hq)
    rw [Survey.ofPath?_dir _ hfind, Option.some.injEq] at hs'
    have hlooks : Survey.LooksAt ⟨none, [.ending Settings.defaultEnding], none, {}⟩ entries
        ⟨["b.js"], []⟩ :=
      { stands := .dir (by simp [entries]) (.file _)
        way := by simp
        named := ⟨"b.js", rfl, (SourceFile.isSource_iff "b.js").1 (by decide +kernel)⟩
        admitted := by decide +kernel }
    rw [← hs']
    exact (Survey.mem_filterMap_found_iff _ _).2 ⟨_, hlooks, by decide +kernel⟩
  · obtain ⟨names, hnames, hnone⟩ := hskipped p s hs _ hmem
    have hpath : pathNames "build/dist/a.js" = pathNames "build" ++ ["dist", "a.js"] := by
      decide +kernel
    obtain rfl := List.append_cancel_left (hpath.symm.trans hnames)
    exact hnone "dist" (by simp) (by simp)

end ScriptOutline
