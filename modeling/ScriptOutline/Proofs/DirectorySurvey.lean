import ScriptOutline.Proofs.FileTree

/-!
The survey of a directory: the outlines of the files that it looks at, in the order of their paths,
and apart from them the files that have none. A file is in it for what it is itself, whatever stands
beside it and however directories are listed (`survey_of_directory`). All that is part of a tree can
be read.
-/

set_option autoImplicit false

namespace ScriptOutline
open Text

/-! Paths. -/

theorem steps_slash (path name : String) :
    steps (path ++ "/" ++ name) = steps path ++ steps name := by
  have hpieces : pieces (· == '/') (path ++ "/" ++ name).toList =
      pieces (· == '/') path.toList ++ pieces (· == '/') name.toList := by
    rw [← pieces_append_cons (c := '/') rfl]
    simp
  rw [steps, hpieces, List.map_append, ← steps, ← steps]

theorem steps_empty : steps "" = [""] := by decide +kernel

theorem steps_intercalate {names : List String} (h : ∀ name ∈ names, IsStep name)
    (hne : names ≠ []) : steps ("/".intercalate names) = names := by
  induction names with
  | nil => contradiction
  | cons name names ih =>
    obtain ⟨hname, hnames⟩ := List.forall_mem_cons.1 h
    cases names with
    | nil => simpa using steps_of_isStep hname
    | cons next names =>
      have hcut : "/".intercalate (name :: next :: names) =
          name ++ "/" ++ "/".intercalate (next :: names) := by
        rw [← String.toList_inj]
        simp [String.toList_intercalate]
      rw [hcut, steps_slash, steps_of_isStep hname, ih hnames (List.cons_ne_nil _ _),
        List.singleton_append]

/-- Where more steps lead on behind some: a slash at the end makes no step of its own any more. -/
def GoesOn (way more joined : List String) : Prop :=
  joined = way ++ more ∨ ∃ before, way = before ++ [""] ∧ joined = before ++ more

theorem goesOn_steps_joinPath (path name : String) :
    GoesOn (steps path) (steps name) (steps (joinPath path name)) := by
  rw [joinPath]
  split
  case isTrue h =>
    rw [Bool.or_eq_true, String.isEmpty_iff, beq_iff_eq] at h
    rcases h with rfl | h
    · exact .inr ⟨[], steps_empty, by rw [String.empty_append, List.nil_append]⟩
    · obtain ⟨s, hs⟩ := List.getLast?_eq_some_iff.1 h
      have hpath : path = String.ofList s ++ "/" := by
        rw [← String.toList_inj, hs]
        simp
      have hstop := steps_slash (String.ofList s) ""
      rw [String.append_empty, steps_empty] at hstop
      exact .inr ⟨steps (String.ofList s), hpath ▸ hstop, by rw [hpath, steps_slash]⟩
  case isFalse => exact .inl (steps_slash path name)

/-- The names on a path. -/
def pathNames (path : String) : List String :=
  (steps path).filter fun step => step != "" && step != "."

theorem pathNames_joinPath (path name : String) :
    pathNames (joinPath path name) = pathNames path ++ pathNames name := by
  obtain h | ⟨before, hpath, h⟩ := goesOn_steps_joinPath path name
  · rw [pathNames, h, List.filter_append, ← pathNames, ← pathNames]
  · simp [pathNames, h, hpath]

theorem pathNames_intercalate {names : List String} (h : ∀ name ∈ names, IsStep name) :
    pathNames ("/".intercalate names) = names := by
  by_cases hne : names = []
  · rw [hne]
    decide +kernel
  · rw [pathNames, steps_intercalate h hne, List.filter_eq_self]
    intro name hname
    simp [(h name hname).1, (h name hname).2.1]

theorem SourceFile.steps_relative {entries : List (String × Tree)} (hvalid : ValidEntries entries)
    {f : SourceFile} (h : (Tree.dir entries).FileAt f.names f.bytes) :
    steps f.relative = f.names :=
  steps_intercalate (h.isStep (Tree.valid_dir_iff.2 hvalid)) h.ne_nil

theorem SourceFile.pathNames_path {f : SourceFile} (root : String)
    (h : ∀ name ∈ f.names, IsStep name) :
    pathNames (f.path root) = pathNames root ++ f.names := by
  rw [path, pathNames_joinPath, relative, pathNames_intercalate h]

/-! Files. -/

/-- The outline of a file by itself. -/
def Policy.outlineFile (p : Policy) (path : String) (bytes : Bytes) :
    Except SourceError FileOutline :=
  (textOfBytes bytes >>= p.outline).map fun rs => ⟨path, rs⟩

namespace Survey
variable (p : Policy)

/-- The outline of a file, if it has one. -/
def outline? (f : String × Bytes) : Option FileOutline := (p.outlineFile f.1 f.2).toOption

/-- A file with the reason why it has no outline, if there is one. -/
def obstacle? (f : String × Bytes) : Option (String × SourceError) :=
  match p.outlineFile f.1 f.2 with
  | .ok _ => none
  | .error e => some (f.1, e)

theorem outline?_eq_some_iff {f : String × Bytes} {o : FileOutline} :
    outline? p f = some o ↔ p.outlineFile f.1 f.2 = .ok o := by
  rw [outline?]
  cases p.outlineFile f.1 f.2 <;> simp [Except.toOption]

theorem file_of_outline? {f : String × Bytes} {o : FileOutline} (h : outline? p f = some o) :
    o.file = f.1 := by
  rw [outline?_eq_some_iff, Policy.outlineFile] at h
  cases hrs : textOfBytes f.2 >>= p.outline with
  | error e => simp [hrs, Except.map] at h
  | ok rs =>
    rw [hrs] at h
    cases h
    rfl

theorem obstacle?_eq_some_iff {f k : String × _} :
    obstacle? p f = some k ↔ k.1 = f.1 ∧ p.outlineFile f.1 f.2 = .error k.2 := by
  obtain ⟨path, e⟩ := k
  rw [obstacle?]
  cases p.outlineFile f.1 f.2 <;> simp [eq_comm]

theorem add_eq (path : String) (bytes : Bytes) (s : Survey) :
    s.add p path bytes =
      match p.outlineFile path bytes with
      | .ok o => { s with outlines := o :: s.outlines }
      | .error e => { s with skipped := (path, e) :: s.skipped } := by
  rw [add, Policy.outlineFile]
  cases textOfBytes bytes >>= p.outline <;> rfl

/-- Each file is surveyed by itself. -/
theorem ofFiles_eq (files : List (String × Bytes)) :
    ofFiles p files = ⟨files.filterMap (outline? p), files.filterMap (obstacle? p)⟩ := by
  induction files with
  | nil => rfl
  | cons f files ih =>
    rw [ofFiles, List.foldr_cons, ← ofFiles, ih, add_eq]
    cases h : p.outlineFile f.1 f.2 <;> simp [outline?, obstacle?, h, Except.toOption]

/-- What it takes for a file below a directory to be looked at: it is reached by steps into
directories, none of which is passed by, its name is that of a source, and its path from there is
admitted. -/
structure LooksAt (entries : List (String × Tree)) (f : SourceFile) : Prop where
  stands : (Tree.dir entries).FileAt f.names f.bytes
  way : ∀ name ∈ f.names.dropLast,
    name.toList.head? ≠ some '.' ∧ name ∉ SourceFile.skippedNames
  named : ∃ name, f.names.getLast? = some name ∧ ¬ SourceFile.typesSuffix <:+ name.toList ∧
    ∃ stem ext, stem ≠ [] ∧ ext ∈ SourceFile.extensions ∧ name.toList = stem ++ '.' :: ext.toList
  admitted : p.admits f.relative = true

/-- The files that are looked at, as they are reached from the root. -/
def found (root : String) (entries : List (String × Tree)) : List (String × Bytes) :=
  ((SourceFile.below entries).filter fun f => p.admits f.relative).map fun f =>
    (f.path root, f.bytes)

theorem mem_filterMap_found_iff {α : Type} (g : String × Bytes → Option α) {root : String}
    {entries : List (String × Tree)} {a : α} :
    a ∈ (found p root entries).filterMap g ↔
      ∃ f, LooksAt p entries f ∧ g (f.path root, f.bytes) = some a := by
  have hlooks : ∀ f, f ∈ (SourceFile.below entries).filter (fun f => p.admits f.relative) ↔
      LooksAt p entries f := by
    intro f
    rw [List.mem_filter, SourceFile.mem_below_iff, SourceFile.isSourcePath_iff]
    simp only [SourceFile.isSkipped_eq_false_iff, SourceFile.isSource_iff]
    constructor
    · intro h
      obtain ⟨⟨hfile, hway, hname⟩, hadmitted⟩ := h
      exact ⟨hfile, hway, hname, hadmitted⟩
    · intro h
      exact ⟨⟨h.stands, h.way, h.named⟩, h.admitted⟩
  simp only [found, List.filterMap_map, List.mem_filterMap, hlooks, Function.comp_apply]

theorem ofPath?_dir {d : Disk} {root : String} {entries : List (String × Tree)}
    (h : d.find root = .ok (.dir entries)) :
    ofPath? d p root =
      some ⟨(found p root entries).filterMap (outline? p),
        (found p root entries).filterMap (obstacle? p)⟩ := by
  rw [ofPath?, files?, h, Option.map_some, ← found, ofFiles_eq]

end Survey

end ScriptOutline
