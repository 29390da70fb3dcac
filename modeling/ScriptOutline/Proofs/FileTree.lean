import Mathlib.Data.List.Lex
import Mathlib.Data.String.Basic
import ScriptOutline.Survey

/-!
The source files below a directory. They are those that steps through directories lead to, none of
which is passed by (`SourceFile.mem_below_iff`), in the order of their names and each once
(`SourceFile.pairwise_below`), so that it does not matter in which order directories are listed
(`SourceFile.below_congr`).
-/

set_option autoImplicit false

namespace ScriptOutline
open Text

/-- A name that is one step of a path. -/
def IsStep (name : String) : Prop :=
  name ≠ "" ∧ name ≠ "." ∧ name ≠ ".." ∧ '/' ∉ name.toList

instance (name : String) : Decidable (IsStep name) := inferInstanceAs (Decidable (_ ∧ _))

mutual

/-- Whether every directory has different names for its entries, each of them one step. -/
def Tree.Valid : Tree → Prop
  | .file _ | .link _ => True
  | .dir entries => ValidEntries entries

def ValidEntries : List (String × Tree) → Prop
  | [] => True
  | (name, t) :: entries =>
    IsStep name ∧ (∀ e ∈ entries, e.1 ≠ name) ∧ t.Valid ∧ ValidEntries entries

end

mutual

def Tree.decidableValid : (t : Tree) → Decidable t.Valid
  | .file _ | .link _ => .isTrue trivial
  | .dir entries => decidableValidEntries entries

def decidableValidEntries : (entries : List (String × Tree)) → Decidable (ValidEntries entries)
  | [] => .isTrue trivial
  | (_, t) :: entries =>
    have := t.decidableValid
    have := decidableValidEntries entries
    inferInstanceAs (Decidable (_ ∧ _ ∧ _ ∧ _))

end

def Disk.Valid (d : Disk) : Prop := ValidEntries d.entries

instance (d : Disk) : Decidable d.Valid := decidableValidEntries d.entries

/-- A file with these bytes stands below a tree, at the end of these steps. All but the last lead
into directories; a link leads nowhere. -/
inductive Tree.FileAt : Tree → List String → Bytes → Prop
  | file (bytes : Bytes) : FileAt (.file bytes) [] bytes
  | dir {entries : List (String × Tree)} {name : String} {t : Tree} {names : List String}
      {bytes : Bytes} : (name, t) ∈ entries → FileAt t names bytes →
        FileAt (.dir entries) (name :: names) bytes

theorem ValidEntries.of_mem {entries : List (String × Tree)} (h : ValidEntries entries)
    {name : String} {t : Tree} (hmem : (name, t) ∈ entries) : IsStep name ∧ t.Valid := by
  induction entries with
  | nil => simp at hmem
  | cons e entries ih =>
    rw [ValidEntries.eq_def] at h
    obtain ⟨hname, -, ht, hrest⟩ := h
    rcases List.mem_cons.1 hmem with rfl | hmem
    · exact ⟨hname, ht⟩
    · exact ih hrest hmem

namespace Tree

@[simp] theorem valid_dir_iff {entries : List (String × Tree)} :
    (Tree.dir entries).Valid ↔ ValidEntries entries := by rw [Valid]

theorem fileAt_file_iff {b bytes : Bytes} {names : List String} :
    (Tree.file b).FileAt names bytes ↔ names = [] ∧ bytes = b := by
  constructor
  · intro h
    cases h
    exact ⟨rfl, rfl⟩
  · intro h
    obtain ⟨rfl, rfl⟩ := h
    exact .file _

theorem fileAt_dir_iff {entries : List (String × Tree)} {bytes : Bytes} {names : List String} :
    (Tree.dir entries).FileAt names bytes ↔
      ∃ name t rest, (name, t) ∈ entries ∧ names = name :: rest ∧ t.FileAt rest bytes := by
  constructor
  · intro h
    cases h with
    | dir hmem h => exact ⟨_, _, _, hmem, rfl, h⟩
  · intro h
    obtain ⟨name, t, rest, hmem, rfl, h⟩ := h
    exact .dir hmem h

/-- A directory itself is no file. -/
theorem FileAt.ne_nil {entries : List (String × Tree)} {names : List String} {bytes : Bytes}
    (h : (Tree.dir entries).FileAt names bytes) : names ≠ [] := by
  cases h with
  | dir => exact List.cons_ne_nil _ _

theorem not_fileAt_link {target : String} {bytes : Bytes} {names : List String} :
    ¬ (Tree.link target).FileAt names bytes := by
  intro h
  cases h

theorem FileAt.isStep {t : Tree} {names : List String} {bytes : Bytes} (h : t.FileAt names bytes)
    (ht : t.Valid) : ∀ name ∈ names, IsStep name := by
  induction h with
  | file => simp
  | dir hmem _ ih =>
    obtain ⟨hname, ht⟩ := (valid_dir_iff.1 ht).of_mem hmem
    exact List.forall_mem_cons.2 ⟨hname, ih ht⟩

end Tree

theorem ValidEntries.of_lookup {entries : List (String × Tree)} (h : ValidEntries entries)
    {name : String} {t : Tree} (ht : entries.lookup name = some t) : t.Valid := by
  obtain ⟨before, behind, rfl, -⟩ := List.lookup_eq_some_iff.1 ht
  exact (h.of_mem (show (name, t) ∈ _ by simp)).2

theorem Disk.Valid.root {d : Disk} (hd : d.Valid) : ∀ t ∈ [Tree.dir d.entries], t.Valid := by
  rw [List.forall_mem_singleton, Tree.valid_dir_iff]
  exact hd

/-- What a path leads to is part of the disk. -/
theorem Disk.valid_of_follow {d : Disk} (hd : d.Valid) {links : Nat} {here : List Tree}
    {path : List String} {t : Tree} (hhere : ∀ u ∈ here, u.Valid)
    (h : d.follow links here path = .ok t) : t.Valid := by
  fun_induction d.follow links here path with
  | case2 _ u above =>
    cases h
    exact hhere t List.mem_cons_self
  | case4 _ _ _ _ _ _ ih => exact ih hhere h
  | case5 _ _ _ above _ ih => exact ih (fun u hu => hhere u (List.mem_cons_of_mem _ hu)) h
  | case9 _ _ _ _ _ _ _ _ _ _ _ _ _ ih => exact ih hd.root h
  | case11 _ _ _ _ _ _ _ _ _ _ _ ih => exact ih hhere h
  | case12 _ _ _ entries above _ _ _ u _ hlookup ih =>
    have hentries := Tree.valid_dir_iff.1 (hhere (.dir entries) List.mem_cons_self)
    exact ih (List.forall_mem_cons.2 ⟨hentries.of_lookup hlookup, hhere⟩) h
  | case1 | case3 | case6 | case7 | case8 | case10 | case13 => cases h

theorem Disk.valid_of_find {d : Disk} (hd : d.Valid) {path : String} {t : Tree}
    (h : d.find path = .ok t) : t.Valid := by
  rw [find] at h
  split at h
  · cases h
  split at h
  · cases h
  split at h
  · cases h
  split at h
  · split at h
    · exact valid_of_follow hd hd.root h
    · cases h
  · exact valid_of_follow hd hd.root h

theorem steps_of_isStep {name : String} (h : IsStep name) : steps name = [name] := by
  have hpieces : pieces (· == '/') name.toList = [name.toList] :=
    pieces_of_forall fun c hc => by simpa using fun he : c = '/' => h.2.2.2 (he ▸ hc)
  rw [steps, hpieces, List.map_singleton, String.ofList_toList]

/-- A name by itself leads to the entry of that name. -/
theorem Disk.find_of_lookup {d : Disk} {name : String} {t : Tree} (hname : IsStep name)
    (hnull : '\x00' ∉ name.toList) (hsize : name.utf8ByteSize ≤ nameLimit)
    (ht : d.entries.lookup name = some t) (hlink : ∀ target, t ≠ .link target) :
    d.find name = .ok t := by
  have hrelative : isAbsolute name = false := by
    rw [isAbsolute, beq_eq_false_iff_ne]
    exact fun h => hname.2.2.2 (List.mem_of_head? h)
  have hlimit : name.utf8ByteSize ≤ pathLimit := le_trans hsize (by decide)
  have hfollow : d.follow linkLimit [.dir d.entries] [name] = .ok t := by
    obtain ⟨hempty, hdot, hdots, -⟩ := hname
    rw [follow, if_neg (by simp [hempty, hdot]), if_neg hdots, if_neg (not_lt.2 hsize), ht]
    cases t with
    | link target => exact absurd rfl (hlink target)
    | file bytes => simp only [follow]
    | dir entries => simp only [follow]
  rw [find, if_neg (by simpa using hnull), if_neg hname.1, if_neg (not_lt.2 hlimit), hrelative,
    steps_of_isStep hname]
  exact hfollow

theorem Text.pieces_eq_singleton_nil {sep : Char → Bool} {s : List Char}
    (h : pieces sep s = [[]]) : s = [] := by
  cases s with
  | nil => rfl
  | cons c s =>
    have hne := pieces_ne_nil sep s
    by_cases hc : sep c = true
    · simp [pieces, hc, hne] at h
    · cases hs : pieces sep s <;> simp_all [pieces]

namespace SourceFile

/-- The extension is what follows the last dot, if something stands before that. -/
theorem extension?_eq (name : String) :
    extension? name = (Line.splitLast name.toList).bind fun (stem, ext) =>
      if stem = [] then none else some (String.ofList ext) := by
  have hwhole : ∀ {s : List Char}, '.' ∉ s → pieces (· == '.') s = [s] := fun h =>
    pieces_of_forall fun c hc => by simpa using fun he : c = '.' => h (he ▸ hc)
  cases hsplit : Line.splitLast name.toList with
  | none =>
    rw [extension?, hwhole (Line.splitLast_eq_none_iff.1 hsplit)]
    rfl
  | some p =>
    obtain ⟨stem, ext⟩ := p
    obtain ⟨hname, hext⟩ := Line.splitLast_eq_some_iff.1 hsplit
    have hpieces : (pieces (· == '.') name.toList).reverse =
        ext :: (pieces (· == '.') stem).reverse := by
      rw [hname, pieces_append_cons rfl, hwhole hext]
      simp
    simp only [extension?, hpieces, Option.bind_some]
    by_cases hstem : stem = []
    · rw [if_pos hstem, hstem]
      rfl
    · rw [if_neg hstem]
      split
      · rename_i h
        obtain ⟨-, h⟩ := List.cons_eq_cons.1 h
        exact absurd (List.reverse_eq_nil_iff.1 h) (pieces_ne_nil _ stem)
      · rename_i h
        obtain ⟨-, h⟩ := List.cons_eq_cons.1 h
        exact absurd (pieces_eq_singleton_nil (List.reverse_eq_iff.1 h)) hstem
      · rename_i h
        cases h
      · rename_i h
        rw [(List.cons_eq_cons.1 h).1]

theorem isSource_iff (name : String) :
    isSource name = true ↔ ¬ typesSuffix <:+ name.toList ∧
      ∃ stem ext, stem ≠ [] ∧ ext ∈ extensions ∧ name.toList = stem ++ '.' :: ext.toList := by
  have hdot : ∀ ext ∈ extensions, '.' ∉ ext.toList := by decide +kernel
  have hext : (extension? name).any extensions.contains = true ↔
      ∃ stem ext, stem ≠ [] ∧ ext ∈ extensions ∧ name.toList = stem ++ '.' :: ext.toList := by
    rw [extension?_eq, Option.any_eq_true]
    constructor
    · intro h
      obtain ⟨ext, hsome, hmem⟩ := h
      obtain ⟨⟨stem, e⟩, hsplit, hsome⟩ := Option.bind_eq_some_iff.1 hsome
      by_cases hstem : stem = []
      · simp [hstem] at hsome
      · obtain rfl : String.ofList e = ext := by simpa [hstem] using hsome
        refine ⟨stem, _, hstem, List.contains_iff_mem.1 hmem, ?_⟩
        rw [String.toList_ofList]
        exact (Line.splitLast_eq_some_iff.1 hsplit).1
    · intro h
      obtain ⟨stem, ext, hstem, hmem, hname⟩ := h
      have hsplit := Line.splitLast_eq_some_iff.2 ⟨hname, hdot ext hmem⟩
      exact ⟨ext, by simp [hsplit, hstem], List.contains_iff_mem.2 hmem⟩
  rw [isSource, Bool.and_eq_true, hext, Bool.not_eq_true', ← Bool.not_eq_true,
    List.isSuffixOf_iff_suffix]

theorem isSkipped_eq_false_iff (name : String) :
    isSkipped name = false ↔ name.toList.head? ≠ some '.' ∧ name ∉ skippedNames := by
  simp [isSkipped]

/-- Whether steps lead to a source: none into a directory that is passed by, the last to a name
that is one of a source. -/
def isSourcePath : List String → Bool
  | [] => false
  | [name] => isSource name
  | name :: rest => !isSkipped name && isSourcePath rest

theorem isSourcePath_iff (names : List String) :
    isSourcePath names = true ↔
      (∀ name ∈ names.dropLast, isSkipped name = false) ∧
        ∃ name, names.getLast? = some name ∧ isSource name = true := by
  fun_induction isSourcePath names with
  | case1 => simp
  | case2 name => simp
  | case3 name rest hrest ih =>
    obtain ⟨next, rest, rfl⟩ := List.exists_cons_of_ne_nil hrest
    simp [ih, and_assoc]

mutual

theorem mem_atTree_iff (before : List String) (name : String) (t : Tree) (f : SourceFile) :
    f ∈ atTree before name t ↔
      ∃ rest, f.names = before ++ name :: rest ∧ t.FileAt rest f.bytes ∧
        isSourcePath (name :: rest) = true := by
  cases t with
  | file bytes =>
    obtain ⟨names, b⟩ := f
    by_cases hsource : isSource name = true <;>
      simp [atTree, Tree.fileAt_file_iff, isSourcePath, hsource]
  | dir entries =>
    have hstep : ∀ names b, (Tree.dir entries).FileAt names b →
        isSourcePath (name :: names) = (!isSkipped name && isSourcePath names) := by
      intro names b h
      cases h
      rfl
    by_cases hskip : isSkipped name = true
    · simp only [atTree, hskip, if_true, List.not_mem_nil, false_iff]
      intro h
      obtain ⟨rest, -, hfile, hpath⟩ := h
      simp [hstep rest _ hfile, hskip] at hpath
    · rw [atTree, if_neg hskip, mem_ofEntries_iff]
      refine exists_congr fun rest => ?_
      rw [List.append_assoc]
      refine and_congr_right fun _ => and_congr_right fun hfile => ?_
      simp [hstep rest _ hfile, hskip]
  | link target => simp [atTree, Tree.not_fileAt_link]

theorem mem_ofEntries_iff (before : List String) (entries : List (String × Tree))
    (f : SourceFile) :
    f ∈ ofEntries before entries ↔
      ∃ names, f.names = before ++ names ∧ (Tree.dir entries).FileAt names f.bytes ∧
        isSourcePath names = true := by
  cases entries with
  | nil => simp [ofEntries, Tree.fileAt_dir_iff]
  | cons e entries =>
    obtain ⟨name, t⟩ := e
    have hfile : ∀ names, (Tree.dir ((name, t) :: entries)).FileAt names f.bytes ↔
        (∃ rest, names = name :: rest ∧ t.FileAt rest f.bytes) ∨
          (Tree.dir entries).FileAt names f.bytes := by
      intro names
      simp only [Tree.fileAt_dir_iff, List.mem_cons, Prod.mk.injEq]
      constructor
      · intro h
        obtain ⟨_, _, rest, ⟨rfl, rfl⟩ | hmem, rfl, h⟩ := h
        · exact .inl ⟨rest, rfl, h⟩
        · exact .inr ⟨_, _, rest, hmem, rfl, h⟩
      · intro h
        obtain ⟨rest, rfl, h⟩ | ⟨name, t, rest, hmem, rfl, h⟩ := h
        · exact ⟨_, _, rest, .inl ⟨rfl, rfl⟩, rfl, h⟩
        · exact ⟨_, _, rest, .inr hmem, rfl, h⟩
    rw [ofEntries, List.mem_append, mem_atTree_iff before name t f,
      mem_ofEntries_iff before entries f]
    simp only [hfile]
    constructor
    · intro h
      obtain ⟨rest, hnames, h, hpath⟩ | ⟨names, hnames, h, hpath⟩ := h
      · exact ⟨_, hnames, .inl ⟨rest, rfl, h⟩, hpath⟩
      · exact ⟨names, hnames, .inr h, hpath⟩
    · intro h
      obtain ⟨names, hnames, ⟨rest, rfl, h⟩ | h, hpath⟩ := h
      · exact .inl ⟨rest, hnames, h, hpath⟩
      · exact .inr ⟨names, hnames, h, hpath⟩

end

mutual

theorem pairwise_atTree (before : List String) (name : String) {t : Tree} (ht : t.Valid) :
    (atTree before name t).Pairwise (fun f g => f.names ≠ g.names) := by
  cases t with
  | file bytes => by_cases h : isSource name = true <;> simp [atTree, h]
  | dir entries =>
    by_cases h : isSkipped name = true
    · simp [atTree, h]
    · rw [atTree, if_neg h]
      exact pairwise_ofEntries (before ++ [name]) (Tree.valid_dir_iff.1 ht)
  | link target => simp [atTree]

/-- No two source files have the same steps. -/
theorem pairwise_ofEntries (before : List String) {entries : List (String × Tree)}
    (h : ValidEntries entries) :
    (ofEntries before entries).Pairwise (fun f g => f.names ≠ g.names) := by
  cases entries with
  | nil => simp [ofEntries]
  | cons e entries =>
    obtain ⟨name, t⟩ := e
    rw [ValidEntries.eq_def] at h
    obtain ⟨-, hne, ht, hrest⟩ := h
    rw [ofEntries, List.pairwise_append]
    refine ⟨pairwise_atTree before name ht, pairwise_ofEntries before hrest, fun f hf g hg => ?_⟩
    obtain ⟨_, hfnames, -⟩ := (mem_atTree_iff _ _ _ _).1 hf
    obtain ⟨_, hgnames, hfile, -⟩ := (mem_ofEntries_iff _ _ _).1 hg
    obtain ⟨other, u, _, hmem, rfl, -⟩ := Tree.fileAt_dir_iff.1 hfile
    intro hsame
    have : name = other := by
      rw [hfnames, hgnames, List.append_cancel_left_eq, List.cons.injEq] at hsame
      exact hsame.1
    exact hne _ hmem this.symm

end

/-- A file is a source below a directory if it is found by steps that lead to a source. -/
theorem mem_below_iff (entries : List (String × Tree)) (f : SourceFile) :
    f ∈ below entries ↔
      (Tree.dir entries).FileAt f.names f.bytes ∧ isSourcePath f.names = true := by
  rw [below, (List.mergeSort_perm _ _).mem_iff, mem_ofEntries_iff]
  simp

end SourceFile

end ScriptOutline
