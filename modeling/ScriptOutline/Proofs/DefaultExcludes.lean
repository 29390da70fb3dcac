import ScriptOutline.Disk
import ScriptOutline.Proofs.Pattern

/-!
The patterns that are in force where settings exclude nothing: they are what four names of
directories and one end of paths give (`mapM_globOf_defaultExcludes`), so they take exactly the
paths with such a directory on the way, and those with that end (`default_excludes_iff`).
-/

set_option autoImplicit false

namespace ScriptOutline
open Text

/-- Part of a path is a step but the last one. -/
theorem mem_dropLast_steps_iff {d path : String} :
    d ∈ (steps path).dropLast ↔ d.toList ∈ (pieces (· == '/') path.toList).dropLast := by
  rw [steps, ← List.map_dropLast, List.mem_map]
  constructor
  · rintro ⟨p, hp, rfl⟩
    rwa [String.toList_ofList]
  · intro h
    exact ⟨d.toList, h, String.ofList_toList⟩

namespace Settings

/-- What stands in a directory of one of these names is not looked at by default. -/
def defaultDirectories : List String := ["node_modules", "dist", "build", "coverage"]

/-- The end of the files that are not looked at by default. -/
def defaultEnding : List Char := ['.', 'm', 'i', 'n', '.', 'j', 's']

def defaultGlobs : List Glob :=
  defaultDirectories.map (fun d => .within d.toList) ++ [.ending defaultEnding]

theorem defaultExcludes_eq :
    defaultExcludes = defaultDirectories.map (fun d => "**/" ++ d ++ "/**") ++ ["**/*.min.js"] := by
  decide +kernel

theorem globOf_within {d : String} (hd : ∀ c ∈ d.toList, Glob.isPlain c = true)
    (list : PatternList) : globOf list ("**/" ++ d ++ "/**") = .ok (.within d.toList) := by
  have hpattern : ("**/" ++ d ++ "/**").toList =
      '*' :: '*' :: '/' :: (d.toList ++ ['/', '*', '*']) := by
    rw [String.toList_append, String.toList_append]
    rfl
  rw [globOf, hpattern, Glob.parse_within hd]

theorem globOf_ending (list : PatternList) :
    globOf list "**/*.min.js" = .ok (.ending defaultEnding) := by
  have hpattern : "**/*.min.js".toList = '*' :: '*' :: '/' :: '*' ::
      (['.', 'm', 'i', 'n', '.', 'j'] ++ ['s']) := by decide +kernel
  rw [globOf, hpattern, Glob.parse_ending (List.all_eq_true.1 rfl) rfl]
  rfl

theorem mapM_globOf_defaultExcludes :
    defaultExcludes.mapM (globOf .excludes) = .ok defaultGlobs := by
  have hplain : ∀ d ∈ defaultDirectories, d.toList.all Glob.isPlain = true := by decide +kernel
  have hdirectories : (defaultDirectories.map fun d => "**/" ++ d ++ "/**").mapM
      (globOf .excludes) = .ok (defaultDirectories.map fun d => .within d.toList) :=
    mapM_map_eq_ok fun d hd => globOf_within (List.all_eq_true.1 (hplain d hd)) _
  rw [defaultExcludes_eq, List.mapM_append, hdirectories, List.mapM_cons, globOf_ending]
  rfl

theorem resolve_default : resolve {} = .ok ⟨none, defaultGlobs, none, {}⟩ := by
  have hobstacle : Glob.obstacle? defaultGlobs = none := by decide +kernel
  have husable : usable defaultGlobs = .ok defaultGlobs := by rw [usable, hobstacle]
  have hvalidate : validate {} = .ok () := rfl
  have hnone : usable [] = .ok [] := rfl
  simp only [resolve, hvalidate, List.mapM_nil, pure_eq_ok, ok_bind, hnone, List.isEmpty_nil,
    if_true, mapM_globOf_defaultExcludes, husable]
  rfl

end Settings

/-- Whether a path leads through one of the directories. -/
theorem any_hits_directories_iff (path : String) :
    (Settings.defaultDirectories.map fun d => Glob.within d.toList).any
        (·.hits (encodeUtf8 path.toList)) = true ↔
      ∃ d ∈ Settings.defaultDirectories, d ∈ (steps path).dropLast := by
  have hslash : ∀ d ∈ Settings.defaultDirectories, '/' ∉ d.toList := by decide +kernel
  rw [List.any_map, List.any_eq_true]
  refine exists_congr fun d => and_congr_right fun hd => ?_
  rw [mem_dropLast_steps_iff]
  exact Glob.hits_within_iff (hslash d hd)

/-- Whether the patterns in force take a path. -/
theorem any_hits_defaultGlobs_iff (path : String) :
    Settings.defaultGlobs.any (·.hits (encodeUtf8 path.toList)) = true ↔
      (∃ d ∈ Settings.defaultDirectories, d ∈ (steps path).dropLast) ∨
        Settings.defaultEnding <:+ path.toList := by
  have hname : (Glob.ending Settings.defaultEnding).method.needsName = false := by decide +kernel
  have hending : (Glob.ending Settings.defaultEnding).hits (encodeUtf8 path.toList) = true ↔
      Settings.defaultEnding <:+ path.toList := by
    rw [Glob.hits, hname, Bool.not_false, Bool.true_or, Bool.and_true, Glob.covers_ending_iff]
    exact Glob.suffix_encodeUtf8_iff (by decide)
  rw [Settings.defaultGlobs, List.any_append, Bool.or_eq_true, any_hits_directories_iff,
    List.any_cons, List.any_nil, Bool.or_false, hending]

/-- A longer name, and the last step, are let through. -/
example : Settings.defaultGlobs.any (·.hits (encodeUtf8 "distant/build".toList)) = false := by
  decide +kernel

/-- Settings that settle nothing resolve. What they leave out are the paths with a directory of a
certain name among their steps, the last step aside, and those with a certain end. -/
theorem default_excludes_iff :
    ∃ p, Settings.resolve {} = .ok p ∧ ∀ path : String, p.admits path = false ↔
      (∃ d ∈ ["node_modules", "dist", "build", "coverage"], d ∈ (steps path).dropLast) ∨
        ".min.js".toList <:+ path.toList := by
  have hend : ".min.js".toList = Settings.defaultEnding := by decide +kernel
  refine ⟨_, Settings.resolve_default, fun path => ?_⟩
  rw [hend]
  refine Iff.trans ?_ (any_hits_defaultGlobs_iff path)
  simp [Policy.admits]

end ScriptOutline
