import ScriptOutline.Proofs.CommentRecord
import ScriptOutline.Proofs.EntryPoints

/-!
How commands end: with one and no output exactly if something of the command as a whole is wrong,
else with zero (`exit_code`). What is wrong with single sources below a path is not among that, so
what they hold makes no difference to the exit code.
-/

set_option autoImplicit false

namespace ScriptOutline
open Text

/-! What is wrong. -/

/-- Whether an input has no outline: it is no text, or comments are checked and one is not
closed. -/
def BadInput (input : Bytes) (strict : Bool) : Prop :=
  (∀ text, input ≠ encodeUtf8 text) ∨
    strict = true ∧ ∃ text line, input = encodeUtf8 text ∧
      outline { strict := true } text = .error (.unclosedComment line)

/-- Whether something is wrong with a command: its settings, a type among its options, its path or
its input. -/
def Command.Fails (d : Disk) (input : Bytes) : Command → Prop
  | .extract path _ settings types _ strict =>
    (∃ e, d.policy (root d path) settings = .error e) ∨
    (∃ entry ∈ types, Kind.parse? entry = none) ∨
    (path ≠ "-" ∧ d.exists? path = false) ∨
    (path = "-" ∧ ∃ p source, d.policy (root d path) settings = .ok (p, source) ∧
      BadInput input (p.options.strict || strict))
  | .validate settings | .describe settings => ∃ e, d.policy d.workingDir settings = .error e

namespace Policy

theorem override_of_unknown (p : Policy) {types : List String}
    (h : types.mapM Kind.parse? = none) (withText strict : Bool) :
    ∃ e, p.override types withText strict = .error e := by
  obtain ⟨entry, hmem, hentry⟩ := mapM_eq_none_iff.1 h
  have hnone : (p.override types withText strict).toOption = none := by
    rw [override, toOption_bind, toOption_mapM]
    refine (congrArg (Option.bind · _) (mapM_eq_none_iff.2 ⟨entry, hmem, ?_⟩)).trans rfl
    rw [Kind.parse, hentry]
    rfl
  cases hoverride : p.override types withText strict with
  | error e => exact ⟨e, rfl⟩
  | ok q =>
    rw [hoverride] at hnone
    cases hnone

theorem exists_error_iff {p : Policy} {text : List Char} :
    (∃ e, p.outline text = .error e) ↔ p.options.strict = true ∧
      ∃ line, ScriptOutline.outline { strict := true } text = .error (.unclosedComment line) := by
  rw [outline_eq_map]
  obtain ⟨withText, strict⟩ := p.options
  cases strict with
  | false =>
    rw [outline_eq_ok_of_lenient rfl]
    simp [Except.map]
  | true =>
    rw [outline_withoutText ⟨withText, true⟩ text, outline_eq, Candidates.outcome]
    cases ((Source.ofText text).candidates ⟨withText, true⟩).failure <;> simp [Except.map]

end Policy

theorem Command.exists_error_outlineInput_iff (p : Policy) (input : Bytes) :
    (∃ e, outlineInput p input = .error e) ↔ BadInput input p.options.strict := by
  rw [outlineInput_eq, Policy.outlineFile, BadInput]
  by_cases htext : ∃ text, input = encodeUtf8 text
  · obtain ⟨text, rfl⟩ := htext
    have houtline : (∃ e, (p.outline text).map (FileOutline.mk "<stdin>") = .error e) ↔
        ∃ e, p.outline text = .error e := by
      cases p.outline text <;> simp [Except.map]
    rw [textOfBytes_encodeUtf8, ok_bind, houtline, Policy.exists_error_iff]
    simp [encodeUtf8_inj]
  · have hnone : ∀ text, input ≠ encodeUtf8 text := fun text h => htext ⟨text, h⟩
    refine iff_of_true ?_ (.inl hnone)
    cases hdecode : decodeUtf8 input with
    | error e =>
      rw [textOfBytes, hdecode]
      exact ⟨_, rfl⟩
    | ok text => exact absurd (decodeUtf8_eq_ok_iff.1 hdecode) (hnone text)

/-! Where files are. -/

theorem Disk.follow_ne_link {d : Disk} {links : Nat} {here : List Tree} {path : List String}
    (hhere : ∀ target, .link target ∉ here) (target : String) :
    d.follow links here path ≠ .ok (.link target) := by
  have hroot : ∀ target, .link target ∉ [Tree.dir d.entries] := by simp
  fun_induction d.follow links here path with
  | case2 links t above =>
    intro h
    cases h
    exact hhere target List.mem_cons_self
  | case4 _ _ _ _ _ _ ih => exact ih hhere
  | case5 _ _ _ _ _ ih => exact ih fun target h => hhere target (List.mem_cons_of_mem _ h)
  | case9 _ _ _ _ _ _ _ _ _ _ _ _ _ ih => exact ih hroot
  | case11 _ _ _ _ _ _ _ _ _ _ _ ih => exact ih hhere
  | case12 _ _ _ _ _ _ _ _ t hlink _ ih =>
    refine ih fun target h => ?_
    rcases List.mem_cons.1 h with rfl | h
    · exact hlink target rfl
    · exact hhere target h
  | case1 | case3 | case6 | case7 | case8 | case10 | case13 => simp

theorem Disk.find_ne_link (d : Disk) (path target : String) : d.find path ≠ .ok (.link target) := by
  have hroot : ∀ target, .link target ∉ [Tree.dir d.entries] := by simp
  rw [find]
  repeat' split
  all_goals first | exact follow_ne_link hroot target | simp

theorem Survey.ofPath?_eq_none_iff {d : Disk} {p : Policy} {path : String} :
    ofPath? d p path = none ↔ d.exists? path = false := by
  rw [ofPath?, Option.map_eq_none_iff, files?, Disk.exists?]
  cases h : d.find path with
  | error e => simp [Except.toOption]
  | ok t =>
    cases t with
    | link target => exact absurd h (d.find_ne_link path target)
    | file bytes => simp [Except.toOption]
    | dir entries => simp [Except.toOption]

/-! Runs. -/

theorem Outcome.failure_code (chain : List String) : (failure chain).code = 1 := by
  cases chain <;> rfl

theorem Outcome.failure_output (chain : List String) : (failure chain).output = [] := by
  cases chain <;> rfl

namespace Command

/-- Whether a run ends as it is to: with one and no output if something is wrong, or else with
zero. -/
def Ends (wrong : Prop) (o : Outcome) : Prop :=
  wrong ∧ o.code = 1 ∧ o.output = [] ∨ ¬ wrong ∧ o.code = 0

theorem ends_failure {wrong : Prop} (h : wrong) (chain : List String) :
    Ends wrong (.failure chain) :=
  .inl ⟨h, Outcome.failure_code chain, Outcome.failure_output chain⟩

theorem ends_extract (d : Disk) (input : Bytes) (path : String) (format : Report.Format)
    (settings : Option String) (types : List String) (withText strict : Bool) :
    Ends ((extract path format settings types withText strict).Fails d input)
      (runExtract d input path format settings types withText strict) := by
  rw [Fails, runExtract]
  cases hpolicy : d.policy (root d path) settings with
  | error e => exact ends_failure (.inl ⟨e, rfl⟩) _
  | ok found =>
  obtain ⟨p, source⟩ := found
  cases hkinds : types.mapM Kind.parse? with
  | none =>
    obtain ⟨e, he⟩ := p.override_of_unknown hkinds withText strict
    simp only [he]
    exact ends_failure (.inr (.inl (mapM_eq_none_iff.1 hkinds))) _
  | some ks =>
  have hknown : ¬ ∃ entry ∈ types, Kind.parse? entry = none := by
    rw [← mapM_eq_none_iff, hkinds]
    simp
  simp only [p.override_of_types hkinds]
  split
  · rename_i hpath
    have hinput := exists_error_outlineInput_iff { p.switch withText strict with
      kinds := if types.isEmpty then p.kinds else some (Settings.kindSet ks) } input
    split
    · rename_i e he
      exact ends_failure (.inr (.inr (.inr ⟨hpath, p, source, rfl, hinput.1 ⟨e, he⟩⟩))) _
    · rename_i f hf
      refine .inr ⟨?_, rfl⟩
      rintro (⟨e, ⟨⟩⟩ | hunknown | ⟨hpath', -⟩ | ⟨-, p', source', ⟨⟩, hbad⟩)
      · exact hknown hunknown
      · exact hpath' hpath
      · obtain ⟨e, he⟩ := hinput.2 hbad
        rw [hf] at he
        cases he
  · rename_i hpath
    split
    · rename_i hnone
      exact ends_failure (.inr (.inr (.inl ⟨hpath, Survey.ofPath?_eq_none_iff.1 hnone⟩))) _
    · rename_i s hs
      refine .inr ⟨?_, rfl⟩
      rintro (⟨e, ⟨⟩⟩ | hunknown | ⟨-, hmissing⟩ | ⟨hpath', -⟩)
      · exact hknown hunknown
      · rw [Survey.ofPath?_eq_none_iff.2 hmissing] at hs
        cases hs
      · exact hpath hpath'

theorem ends_run (d : Disk) (input : Bytes) (c : Command) :
    Ends (c.Fails d input) (c.run d input) := by
  cases c with
  | extract path format settings types withText strict =>
    exact ends_extract d input path format settings types withText strict
  | validate settings =>
    rw [Fails, run]
    cases d.policy d.workingDir settings with
    | error e => exact .inl ⟨⟨e, rfl⟩, rfl, rfl⟩
    | ok found =>
      obtain ⟨p, _ | path⟩ := found <;> exact .inr ⟨by simp, rfl⟩
  | describe settings =>
    rw [Fails, run]
    cases d.policy d.workingDir settings with
    | error e => exact ends_failure ⟨e, rfl⟩ _
    | ok found => exact .inr ⟨by simp, rfl⟩

end Command

/-! What files hold. -/

mutual

/-- A tree with nothing in its files. -/
def Tree.emptied : Tree → Tree
  | .file _ => .file []
  | .dir entries => .dir (emptiedEntries entries)
  | .link target => .link target

def emptiedEntries : List (String × Tree) → List (String × Tree)
  | [] => []
  | (name, t) :: entries => (name, t.emptied) :: emptiedEntries entries

end

theorem lookup_emptiedEntries (name : String) (entries : List (String × Tree)) :
    (emptiedEntries entries).lookup name = (entries.lookup name).map Tree.emptied := by
  induction entries with
  | nil => rfl
  | cons e entries ih =>
    obtain ⟨other, t⟩ := e
    rw [emptiedEntries, List.lookup_cons, List.lookup_cons, ih]
    cases name == other <;> rfl

namespace Disk

def emptied (d : Disk) : Disk := { d with entries := emptiedEntries d.entries }

theorem below?_emptied (d : Disk) (path : String) : d.emptied.below? path = d.below? path := rfl

theorem follow_emptied (d : Disk) (links : Nat) (here : List Tree) (path : List String) :
    d.emptied.follow links (here.map Tree.emptied) path =
      (d.follow links here path).map Tree.emptied := by
  have hlookup (step : String) (entries : List (String × Tree)) {found : Option Tree}
      (h : entries.lookup step = found) :
      (emptiedEntries entries).lookup step = found.map Tree.emptied := by
    rw [lookup_emptiedEntries, h]
  fun_induction d.follow links here path with
  | case1 | case2 | case3 =>
    simp only [List.map_nil, List.map_cons, follow]
    rfl
  | case4 _ _ _ _ _ hskip ih =>
    rw [← ih, List.map_cons, Tree.emptied, follow, if_pos hskip]
  | case5 _ _ _ _ hstep ih =>
    rw [← ih, List.map_cons, Tree.emptied, follow, if_neg hstep, if_pos rfl]
  | case6 _ _ _ _ _ hstep hup hlong =>
    rw [List.map_cons, Tree.emptied, follow, if_neg hstep, if_neg hup, if_pos hlong]
    rfl
  | case7 _ _ _ _ _ hstep hup hlong hnone =>
    rw [List.map_cons, Tree.emptied, follow, if_neg hstep, if_neg hup, if_neg hlong,
      hlookup _ _ hnone]
    rfl
  | case8 _ _ _ _ hstep hup hlong target hlink =>
    rw [List.map_cons, Tree.emptied, follow, if_neg hstep, if_neg hup, if_neg hlong,
      hlookup _ _ hlink]
    rfl
  | case9 _ _ _ _ hstep hup hlong _ hlink _ habsolute _ hbelow ih =>
    rw [List.map_cons, Tree.emptied, follow, if_neg hstep, if_neg hup, if_neg hlong,
      hlookup _ _ hlink]
    simp only [Option.map_some, Tree.emptied, habsolute, if_true, below?_emptied, hbelow]
    exact ih
  | case10 _ _ _ _ hstep hup hlong _ hlink _ habsolute hbelow =>
    rw [List.map_cons, Tree.emptied, follow, if_neg hstep, if_neg hup, if_neg hlong,
      hlookup _ _ hlink]
    simp only [Option.map_some, Tree.emptied, habsolute, if_true, below?_emptied, hbelow]
    rfl
  | case11 _ _ _ _ hstep hup hlong _ hlink _ hrelative ih =>
    rw [List.map_cons, Tree.emptied, follow, if_neg hstep, if_neg hup, if_neg hlong,
      hlookup _ _ hlink]
    simp only [Option.map_some, Tree.emptied, if_neg hrelative]
    exact ih
  | case12 _ _ _ _ _ hstep hup hlong t hlink hfound ih =>
    rw [List.map_cons, Tree.emptied, follow, if_neg hstep, if_neg hup, if_neg hlong,
      hlookup _ _ hfound]
    cases t with
    | link target => exact absurd rfl (hlink target)
    | file | dir => exact ih
  | case13 _ _ _ t _ hfile =>
    cases t with
    | dir entries => exact absurd rfl (hfile entries)
    | file | link =>
      rw [List.map_cons, Tree.emptied, follow]
      · rfl
      · simp

theorem find_emptied (d : Disk) (path : String) :
    d.emptied.find path = (d.find path).map Tree.emptied := by
  have hroot := d.follow_emptied linkLimit [.dir d.entries]
  rw [find, find, below?_emptied]
  split
  · rfl
  split
  · rfl
  split
  · rfl
  split
  · cases d.below? path with
    | none => rfl
    | some path => exact hroot path
  · exact hroot (steps path)

theorem exists?_emptied (d : Disk) (path : String) : d.emptied.exists? path = d.exists? path := by
  rw [exists?, exists?, find_emptied]
  cases d.find path <;> rfl

theorem isFile_emptied (d : Disk) (path : String) : d.emptied.isFile path = d.isFile path := by
  rw [isFile, isFile, find_emptied]
  cases d.find path with
  | error e => rfl
  | ok t => cases t <;> rfl

theorem root_emptied (d : Disk) (path : String) :
    Command.root d.emptied path = Command.root d path := by
  rw [Command.root, Command.root, isFile_emptied]
  rfl

/-- Where settings for a directory may stand. -/
def settingsPaths (root : String) : Option String → List String
  | some path => [path]
  | none => [joinPath root ".codecontextrc.json", joinPath root "codecontext.config.json",
      joinPath root "package.json"]

theorem policy_congr {d d' : Disk} (hexists : ∀ path, d'.exists? path = d.exists? path)
    {root : String} {explicit : Option String}
    (hread : ∀ path ∈ settingsPaths root explicit, d'.readText path = d.readText path) :
    d'.policy root explicit = d.policy root explicit := by
  have hload : ∀ path ∈ settingsPaths root explicit, d'.loadSettings path = d.loadSettings path :=
    fun path hpath => by rw [loadSettings, loadSettings, hread path hpath]
  cases explicit with
  | some path => rw [policy, policy, hload path List.mem_cons_self]
  | none =>
    have hsection : d'.loadSection (joinPath root "package.json") =
        d.loadSection (joinPath root "package.json") := by
      rw [loadSection, loadSection, hread _ (by simp [settingsPaths])]
    rw [policy, policy, discover, discover, hexists, hexists, hexists, hsection,
      hload _ (by simp [settingsPaths]), hload _ (by simp [settingsPaths])]

end Disk

namespace Command

/-- Where the settings of a command may stand. -/
def settingsPaths (d : Disk) : Command → List String
  | .extract path _ settings _ _ _ => Disk.settingsPaths (root d path) settings
  | .validate settings | .describe settings => Disk.settingsPaths d.workingDir settings

theorem fails_congr {d d' : Disk} (h : d'.emptied = d.emptied) {c : Command}
    (hread : ∀ path ∈ c.settingsPaths d, d'.readText path = d.readText path) (input : Bytes) :
    c.Fails d' input ↔ c.Fails d input := by
  have hexists (path : String) : d'.exists? path = d.exists? path := by
    rw [← Disk.exists?_emptied, h, Disk.exists?_emptied]
  have hroot (path : String) : root d' path = root d path := by
    rw [← Disk.root_emptied, h, Disk.root_emptied]
  have hworking : d'.workingDir = d.workingDir := by
    change d'.emptied.workingDir = d.emptied.workingDir
    rw [h]
  cases c with
  | extract path format settings types withText strict =>
    rw [Fails, Fails, hroot, Disk.policy_congr hexists hread, hexists]
  | validate settings | describe settings =>
    rw [Fails, Fails, hworking, Disk.policy_congr hexists hread]

end Command

/-- A run ends with one exactly if something is wrong with the command, and else with zero. It has
no output unless it ends with zero. What files hold, those of the settings aside, makes no
difference to how it ends. -/
theorem exit_code {args : List String} {c : Command} (hc : Command.ofArgs? args = some c)
    (d : Disk) (input : Bytes) :
    ((Command.runArgs d input args).code = 1 ↔ c.Fails d input) ∧
      (¬ c.Fails d input → (Command.runArgs d input args).code = 0) ∧
      ((Command.runArgs d input args).code ≠ 0 →
        (Command.runArgs d input args).output = []) ∧
      ∀ d', d'.emptied = d.emptied →
        (∀ path ∈ c.settingsPaths d, d'.readText path = d.readText path) →
        (Command.runArgs d' input args).code = (Command.runArgs d input args).code := by
  have hrun (d : Disk) : Command.runArgs d input args = c.run d input := by
    rw [Command.runArgs, hc]
  obtain ⟨hwrong, hone, hsilent⟩ | ⟨hfine, hzero⟩ := Command.ends_run d input c
  · refine ⟨?_, ?_, ?_, fun d' h hread => ?_⟩
    · rw [hrun]
      exact iff_of_true hone hwrong
    · exact fun hfine => absurd hwrong hfine
    · rw [hrun]
      exact fun _ => hsilent
    · obtain ⟨-, hone', -⟩ | ⟨hfine', -⟩ := Command.ends_run d' input c
      · rw [hrun, hrun, hone, hone']
      · exact absurd ((Command.fails_congr h hread input).2 hwrong) hfine'
  · refine ⟨?_, ?_, ?_, fun d' h hread => ?_⟩
    · rw [hrun, hzero]
      exact iff_of_false (by decide) hfine
    · rw [hrun]
      exact fun _ => hzero
    · rw [hrun]
      exact fun hcode => absurd hzero hcode
    · obtain ⟨hwrong', -⟩ | ⟨-, hzero'⟩ := Command.ends_run d' input c
      · exact absurd ((Command.fails_congr h hread input).1 hwrong') hfine
      · rw [hrun, hrun, hzero, hzero']

/-- A directory with settings and a source. -/
def oneSource (bytes : Bytes) : Disk :=
  ⟨"/w", [("a.js", .file bytes), ("c.json", .file (encodeUtf8 ['\x7b', '\x7d']))]⟩

/-- A source that fails under strict comments and one that is no text both end with zero. -/
theorem exit_code_of_bad_sources :
    let args := ["extract", "--strict-comments", "--config", "c.json", "a.js"]
    let unclosed := oneSource (encodeUtf8 ['/', '*'])
    let notText := oneSource [0xFF]
    Command.ofArgs? args = some (.extract "a.js" .text (some "c.json") [] false true) ∧
      notText.emptied = unclosed.emptied ∧
      notText.readText "c.json" = unclosed.readText "c.json" ∧
      (Command.runArgs unclosed [] args).code = 0 ∧ (Command.runArgs notText [] args).code = 0 := by
  intro args unclosed notText
  have hargs : Command.ofArgs? args =
      some (.extract "a.js" .text (some "c.json") [] false true) := by decide +kernel
  have hread (bytes : Bytes) : (oneSource bytes).readText "c.json" = .ok ['\x7b', '\x7d'] :=
    Disk.readText_eq_ok_iff.2 (Disk.find_of_lookup (by decide +kernel) (by decide +kernel)
      (by decide +kernel) rfl (by simp))
  have hexists : unclosed.exists? "a.js" = true := by
    rw [Disk.exists?, Disk.find_of_lookup (by decide +kernel) (by decide +kernel)
      (by decide +kernel) rfl (by simp)]
    rfl
  have hfine : ¬ (Command.extract "a.js" .text (some "c.json") [] false true).Fails unclosed
      [] := by
    rintro (⟨e, he⟩ | ⟨entry, hmem, -⟩ | ⟨-, hmissing⟩ | ⟨hpath, -⟩)
    · have hpolicy := unclosed.policy_map_fst (Command.root unclosed "a.js") (some "c.json")
      have hloaded : unclosed.loaded (Command.root unclosed "a.js") (some "c.json") = .ok {} :=
        Disk.loadSettings_eq_ok_iff.2 ⟨_, hread _, eq_ok_of_toOption (by decide +kernel), rfl⟩
      have hresolve : (Settings.resolve {}).toOption.isSome = true := by decide +kernel
      rw [he, hloaded, ok_bind] at hpolicy
      cases hresolved : Settings.resolve {} with
      | error e =>
        rw [hresolved] at hresolve
        cases hresolve
      | ok p =>
        rw [hresolved] at hpolicy
        cases hpolicy
    · cases hmem
    · rw [hexists] at hmissing
      cases hmissing
    · exact absurd hpath (by decide)
  obtain ⟨-, hzero, -, hsame⟩ := exit_code hargs unclosed []
  have hsettings : notText.readText "c.json" = unclosed.readText "c.json" := by
    rw [hread, hread]
  have hcode := hsame notText rfl fun path hpath => by
    rw [List.mem_singleton.1 hpath]
    exact hsettings
  exact ⟨hargs, rfl, hsettings, hzero hfine, hcode.trans (hzero hfine)⟩

end ScriptOutline
