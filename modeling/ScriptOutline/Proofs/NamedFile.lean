import ScriptOutline.Proofs.DirectorySurvey
import ScriptOutline.Proofs.Json.Fields

/-!
Files that are named by themselves. What the survey of a directory says of a file is what is found
under the path that it gives for it, if that path is admitted as it stands, and nothing otherwise
(`named_file_of_survey`). The directory may be reached through links, by an absolute path or with a
slash at the end.
-/

set_option autoImplicit false

namespace ScriptOutline
open Text

theorem joinPath_eq_append (path name : String) :
    ∃ slash, joinPath path name = path ++ slash ++ name := by
  rw [joinPath]
  split
  · exact ⟨"", by rw [String.append_empty]⟩
  · exact ⟨"/", rfl⟩

theorem joinPath_ne_empty {name : String} (path : String) (h : name ≠ "") :
    joinPath path name ≠ "" := by
  obtain ⟨slash, hjoin⟩ := joinPath_eq_append path name
  rw [hjoin, Ne, String.append_eq_empty_iff]
  exact fun hnil => h hnil.2

theorem isAbsolute_joinPath {path : String} (h : path ≠ "") (name : String) :
    Disk.isAbsolute (joinPath path name) = Disk.isAbsolute path := by
  obtain ⟨slash, hjoin⟩ := joinPath_eq_append path name
  have hchars : path.toList ≠ [] := by simpa using h
  rw [Disk.isAbsolute, Disk.isAbsolute, hjoin, String.toList_append, String.toList_append,
    List.append_assoc, List.head?_append_of_ne_nil _ hchars]

theorem joinPath_base (base name : String) : joinPath base name = joinPath base "" ++ name := by
  rw [joinPath, joinPath]
  split <;> simp [String.append_assoc]

/-- A path that starts with a directory is joined behind that. -/
theorem joinPath_below (base path name : String) :
    joinPath (joinPath base "" ++ path) name = joinPath base "" ++ joinPath path name := by
  have hopen : ((joinPath base "").isEmpty ||
      (joinPath base "").toList.getLast? == some '/') = true := by
    rw [joinPath]
    split
    case isTrue h => rwa [String.append_empty]
    case isFalse => simp
  by_cases hpath : path = ""
  · rw [hpath, String.append_empty, joinPath, if_pos hopen]
    rfl
  · have hchars : path.toList ≠ [] := by simpa using hpath
    have hlast : (joinPath base "" ++ path).toList.getLast? = path.toList.getLast? := by
      rw [String.toList_append, List.getLast?_append_of_ne_nil _ hchars]
    have hempty : (joinPath base "" ++ path).isEmpty = path.isEmpty := by
      rw [Bool.eq_iff_iff, String.isEmpty_iff, String.isEmpty_iff, String.append_eq_empty_iff]
      exact ⟨And.right, fun h => absurd h hpath⟩
    rw [joinPath.eq_1 (joinPath base "" ++ path), hempty, hlast, joinPath.eq_1 path]
    split <;> simp [String.append_assoc]

namespace Disk
variable {d : Disk}

/-- Steps lead nowhere or somewhere, whatever more of them there are. -/
theorem follow_append (links : Nat) (here : List Tree) (path : List String) :
    (∃ e, ∀ more, d.follow links here (path ++ more) = .error e) ∨
      ∃ links' here', ∀ more, d.follow links here (path ++ more) = d.follow links' here' more := by
  fun_induction d.follow links here path with
  | case1 links => exact .inr ⟨links, [], fun _ => rfl⟩
  | case2 links t above => exact .inr ⟨links, t :: above, fun _ => rfl⟩
  | case3 => exact .inl ⟨.notFound, fun _ => by rw [List.cons_append, follow]⟩
  | case4 _ _ _ _ _ hskip ih => simpa only [List.cons_append, follow, hskip, if_true] using ih
  | case5 _ _ _ _ hstep ih =>
    simpa only [List.cons_append, follow, if_neg hstep, if_true] using ih
  | case6 _ _ _ _ _ hstep hup hlong =>
    exact .inl ⟨.nameTooLong, fun _ => by
      rw [List.cons_append, follow, if_neg hstep, if_neg hup, if_pos hlong]⟩
  | case7 _ _ _ _ _ hstep hup hlong hlookup =>
    exact .inl ⟨.notFound, fun _ => by
      rw [List.cons_append, follow, if_neg hstep, if_neg hup, if_neg hlong, hlookup]⟩
  | case8 _ _ _ _ hstep hup hlong target hlookup =>
    exact .inl ⟨.tooManyLinks, fun _ => by
      rw [List.cons_append, follow, if_neg hstep, if_neg hup, if_neg hlong, hlookup]⟩
  | case9 _ _ _ _ hstep hup hlong _ hlookup _ habsolute _ hbelow ih =>
    simpa only [List.cons_append, follow, if_neg hstep, if_neg hup, if_neg hlong, hlookup,
      habsolute, if_true, hbelow, List.append_assoc] using ih
  | case10 _ _ _ _ hstep hup hlong _ hlookup _ habsolute hbelow =>
    exact .inl ⟨.notFound, fun _ => by
      rw [List.cons_append, follow, if_neg hstep, if_neg hup, if_neg hlong, hlookup]
      simp only [habsolute, if_true, hbelow]⟩
  | case11 _ _ _ _ hstep hup hlong _ hlookup _ hrelative ih =>
    simpa only [List.cons_append, follow, if_neg hstep, if_neg hup, if_neg hlong, hlookup,
      if_neg hrelative, List.append_assoc] using ih
  | case12 _ _ _ _ _ hstep hup hlong t hlink hlookup ih =>
    cases t with
    | link target => exact absurd rfl (hlink target)
    | file | dir =>
      simpa only [List.cons_append, follow, if_neg hstep, if_neg hup, if_neg hlong, hlookup]
        using ih
  | case13 _ _ _ t _ hfile =>
    exact .inl ⟨.notDirectory, fun _ => by
      rw [List.cons_append, follow]
      exact hfile⟩

/-- A step that stays where it is makes no difference before others. -/
theorem follow_stay (links : Nat) (here : List Tree) {more : List String} (hmore : more ≠ []) :
    d.follow links here ("" :: more) = d.follow links here more := by
  obtain ⟨step, rest, rfl⟩ := List.exists_cons_of_ne_nil hmore
  match here with
  | [] => rw [follow, follow]
  | .dir entries :: above => rw [follow, if_pos (by simp)]
  | .file bytes :: above => rw [follow, follow] <;> simp
  | .link target :: above => rw [follow, follow] <;> simp

theorem follow_append_of_ok {links : Nat} {here : List Tree} {path : List String} {t : Tree}
    (h : d.follow links here path = .ok t) :
    ∃ links' above, ∀ more,
      d.follow links here (path ++ more) = d.follow links' (t :: above) more := by
  obtain ⟨e, herror⟩ | ⟨links', here', hrest⟩ := d.follow_append links here path
  · have hend := herror []
    rw [List.append_nil, h] at hend
    contradiction
  · have hend := hrest []
    rw [List.append_nil, h] at hend
    cases here' with
    | nil =>
      rw [follow] at hend
      contradiction
    | cons u above =>
      rw [follow, Except.ok.injEq] at hend
      exact ⟨links', above, hend ▸ hrest⟩

/-- What is reached by a way is where others go on from. -/
theorem follow_goesOn {links : Nat} {here : List Tree} {way more joined : List String} {t : Tree}
    (h : d.follow links here way = .ok t) (hmore : more ≠ []) (hjoined : GoesOn way more joined) :
    ∃ links' above, d.follow links here joined = d.follow links' (t :: above) more := by
  obtain ⟨links', above, hwhole⟩ := follow_append_of_ok h
  obtain rfl | ⟨before, rfl, rfl⟩ := hjoined
  · exact ⟨links', above, hwhole more⟩
  · -- The way ends in a slash, and the step behind that may as well be left out.
    have hleft : d.follow links here (before ++ more) =
        d.follow links here (before ++ "" :: more) := by
      obtain ⟨e, herror⟩ | ⟨links', here', hrest⟩ := d.follow_append links here before
      · rw [herror, herror]
      · rw [hrest, hrest, follow_stay links' here' hmore]
    refine ⟨links', above, ?_⟩
    rw [hleft, ← hwhole, List.append_assoc, List.singleton_append]

theorem below?_append {rest : String} (h : rest ≠ "") :
    d.below? (joinPath d.workingDir "" ++ rest) = some (steps rest) := by
  have hother : joinPath d.workingDir "" ++ rest ≠ d.workingDir := by
    obtain ⟨slash, hjoin⟩ := joinPath_eq_append d.workingDir ""
    intro heq
    rw [hjoin, String.append_empty, String.append_assoc, ← String.toList_inj,
      String.toList_append] at heq
    simp [h] at heq
  rw [below?, if_neg hother, after?_eq_some_iff.2 String.toList_append, Option.map_some,
    String.ofList_toList]

theorem below?_joinPath {path name : String} {way : List String} (hname : name ≠ "")
    (h : d.below? path = some way) :
    ∃ joined, d.below? (joinPath path name) = some joined ∧ GoesOn way (steps name) joined := by
  rw [below?] at h
  split at h
  case isTrue hpath =>
    cases h
    refine ⟨steps name, ?_, .inl rfl⟩
    rw [hpath, joinPath_base, below?_append hname]
  case isFalse =>
    obtain ⟨rest, hrest, rfl⟩ := Option.map_eq_some_iff.1 h
    have hpath : path = joinPath d.workingDir "" ++ String.ofList rest := by
      rw [← String.toList_inj, after?_eq_some_iff.1 hrest]
      simp
    refine ⟨_, ?_, goesOn_steps_joinPath (String.ofList rest) name⟩
    rw [hpath, joinPath_below, below?_append (joinPath_ne_empty _ hname)]

/-- The steps of a path from the working directory. -/
def way? (d : Disk) (path : String) : Option (List String) :=
  if isAbsolute path then d.below? path else some (steps path)

theorem way?_joinPath {path name : String} {way : List String} (hpath : path ≠ "")
    (hname : name ≠ "") (h : d.way? path = some way) :
    ∃ joined, d.way? (joinPath path name) = some joined ∧ GoesOn way (steps name) joined := by
  rw [way?] at h ⊢
  rw [isAbsolute_joinPath hpath]
  split at h
  case isTrue habsolute =>
    rw [if_pos habsolute]
    exact below?_joinPath hname h
  case isFalse hrelative =>
    cases h
    rw [if_neg hrelative]
    exact ⟨_, rfl, goesOn_steps_joinPath path name⟩

theorem find_eq (d : Disk) (path : String) :
    d.find path =
      if path.toList.contains '\x00' then .error .nullCharacter
      else if path = "" then .error .notFound
      else if pathLimit < path.utf8ByteSize then .error .nameTooLong
      else
        match d.way? path with
        | some way => d.follow linkLimit [.dir d.entries] way
        | none => .error .notFound := by
  rw [find, way?]
  split_ifs <;> rfl

/-- A path that the system takes: neither it nor a name on it is too long, and it has no null
character in it. What has been read was read by such a path. -/
def Takes (path : String) : Prop :=
  '\x00' ∉ path.toList ∧ path.utf8ByteSize ≤ pathLimit ∧
    ∀ step ∈ steps path, step.utf8ByteSize ≤ nameLimit

instance (path : String) : Decidable (Takes path) := inferInstanceAs (Decidable (_ ∧ _))

/-- Behind a path to a place stands what is found from there. -/
theorem find_joinPath {path name : String} {t : Tree} (h : d.find path = .ok t) (hname : name ≠ "")
    (htakes : Takes (joinPath path name)) :
    ∃ links above, d.find (joinPath path name) = d.follow links (t :: above) (steps name) := by
  have hpath : path ≠ "" ∧ ∃ way, d.way? path = some way ∧
      d.follow linkLimit [.dir d.entries] way = .ok t := by
    rw [find_eq] at h
    split_ifs at h with _ hempty
    split at h
    · exact ⟨hempty, _, ‹_›, h⟩
    · contradiction
  obtain ⟨hpath, way, hway, hfollow⟩ := hpath
  obtain ⟨joined, hjoined, hgoes⟩ := way?_joinPath hpath hname hway
  have hmore : steps name ≠ [] := by
    rw [steps, Ne, List.map_eq_nil_iff]
    exact pieces_ne_nil _ _
  obtain ⟨links, above, hfound⟩ := follow_goesOn hfollow hmore hgoes
  refine ⟨links, above, ?_⟩
  obtain ⟨hnull, hsize, -⟩ := htakes
  rw [find_eq, if_neg (by simpa using hnull), if_neg (joinPath_ne_empty path hname),
    if_neg (Nat.not_lt.2 hsize), hjoined]
  exact hfound

end Disk

end ScriptOutline
