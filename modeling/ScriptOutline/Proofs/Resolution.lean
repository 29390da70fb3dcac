import ScriptOutline.Proofs.DefaultExcludes
import ScriptOutline.Proofs.KindFilter

/-!
Settings and the policy that they resolve to. Validation complains of the first entry that means
nothing (`Settings.validate_eq`), and resolution complains of the same. What a policy keeps and
admits can be read off the entries one by one (`Settings.keeps_iff`, `Settings.admits_iff`), so
their order and their repeats make no difference (`settings_mean_their_entries`).
-/

set_option autoImplicit false

namespace ScriptOutline
open Text

/-! Lists of patterns. -/

/-- Patterns can be put to use if none that becomes an expression is too deep. -/
theorem Glob.obstacle?_eq_none_iff {gs : List Glob} :
    obstacle? gs = none ↔
      ∀ g ∈ gs, g.isTooDeep = true → g.method ≠ .guarded ∧ g.method ≠ .expression := by
  have hguarded : gs.find? (fun g => g.method == .guarded && g.isTooDeep) = none ↔
      ∀ g ∈ gs, g.isTooDeep = true → g.method ≠ .guarded := by
    rw [List.find?_eq_none]
    refine forall₂_congr fun g _ => ?_
    rw [Bool.and_eq_true, beq_iff_eq, not_and']
  have hexpression : (gs.filter (·.method == .expression)).findIdx? isTooDeep = none ↔
      ∀ g ∈ gs, g.isTooDeep = true → g.method ≠ .expression := by
    simp only [List.findIdx?_eq_none_iff, List.mem_filter, beq_iff_eq, and_imp,
      Bool.eq_false_iff, Ne]
    exact forall₂_congr fun g _ => not_imp_not.symm.trans (by rw [not_not])
  rw [obstacle?]
  split
  · rename_i hfound
    refine iff_of_false (by simp) fun h => ?_
    rw [hguarded.2 fun g hg hdeep => (h g hg hdeep).1] at hfound
    cases hfound
  · rename_i hnone
    rw [Option.map_eq_none_iff, hexpression]
    exact forall₂_congr fun g hg => imp_congr_right fun hdeep =>
      (and_iff_right (hguarded.1 hnone g hg hdeep)).symm

namespace Settings

/-! Validation. -/

/-- An entry of one of the lists. -/
inductive Entry where
  | type (name : String)
  | pattern (list : PatternList) (text : String)

/-- What is wrong with an entry, if anything is. -/
def Entry.mistake? : Entry → Option SettingsError
  | type name => if (Kind.parse? name).isSome then none else some (.type name)
  | pattern list text =>
    match Glob.parse text.toList with
    | .ok _ => none
    | .error mistake => some (.pattern list text mistake)

/-- The entries in the order in which they are looked at. -/
def entries (s : Settings) : List Entry :=
  s.types.map .type ++ s.includes.map (.pattern .includes) ++ s.excludes.map (.pattern .excludes)

/-- Fails for a reason, if there is one. -/
def refuse (reason? : Option SettingsError) : Except SettingsError Unit :=
  reason?.elim (.ok ()) .error

theorem refuse_or (a b : Option SettingsError) :
    refuse (a.or b) = refuse a >>= fun _ => refuse b := by cases a <;> rfl

theorem forM_eq_refuse {α : Type} {check : α → Except SettingsError Unit} {entry : α → Entry}
    (h : ∀ a, check a = refuse (entry a).mistake?) (as : List α) :
    as.forM check = refuse ((as.map entry).findSome? Entry.mistake?) := by
  induction as with
  | nil => rfl
  | cons a as ih =>
    rw [List.map_cons, List.findSome?_cons]
    change (check a >>= fun _ => as.forM check) = _
    rw [h, ih]
    cases (entry a).mistake? <;> rfl

theorem discard_kindOf (name : String) :
    discard (kindOf name) = refuse (Entry.type name).mistake? := by
  rw [kindOf, Entry.mistake?]
  cases Kind.parse? name <;> rfl

theorem discard_globOf (list : PatternList) (text : String) :
    discard (globOf list text) = refuse (Entry.pattern list text).mistake? := by
  rw [globOf, Entry.mistake?]
  cases Glob.parse text.toList <;> rfl

/-- The first entry that means nothing is what is complained of. -/
theorem validate_eq (s : Settings) :
    s.validate = refuse (s.entries.findSome? Entry.mistake?) := by
  rw [entries, List.findSome?_append, List.findSome?_append, refuse_or, refuse_or,
    ← forM_eq_refuse discard_kindOf, ← forM_eq_refuse (discard_globOf .includes),
    ← forM_eq_refuse (discard_globOf .excludes), bind_assoc]
  rfl

theorem validate_eq_error_iff {s : Settings} {e : SettingsError} :
    s.validate = .error e ↔ s.entries.findSome? Entry.mistake? = some e := by
  rw [validate_eq]
  cases s.entries.findSome? Entry.mistake? <;> simp [refuse]

theorem validate_eq_ok_iff {s : Settings} :
    s.validate = .ok () ↔ (∀ entry ∈ s.types, ∃ k, Kind.parse? entry = some k) ∧
      ∀ pattern ∈ s.includes ++ s.excludes, ∃ tokens, Glob.parse pattern.toList = .ok tokens := by
  have htype (name : String) :
      (Entry.type name).mistake? = none ↔ ∃ k, Kind.parse? name = some k := by
    rw [Entry.mistake?]
    cases Kind.parse? name <;> simp
  have hpattern (list : PatternList) (text : String) :
      (Entry.pattern list text).mistake? = none ↔
        ∃ tokens, Glob.parse text.toList = .ok tokens := by
    rw [Entry.mistake?]
    cases Glob.parse text.toList <;> simp
  have hnone : s.validate = .ok () ↔ s.entries.findSome? Entry.mistake? = none := by
    rw [validate_eq]
    cases s.entries.findSome? Entry.mistake? <;> simp [refuse]
  rw [hnone, List.findSome?_eq_none_iff, entries]
  simp only [List.mem_append, List.mem_map, or_imp, forall_and, forall_exists_index, and_imp,
    forall_apply_eq_imp_iff₂, htype, hpattern, and_assoc]

/-! Resolution. -/

/-- The patterns that settings come down to. Where none are given, paths are excluded by default. -/
def patterns (s : Settings) : PatternList → List String
  | .includes => s.includes
  | .excludes => if s.excludes = [] then defaultExcludes else s.excludes

/-- Whether patterns that mean something one by one can be put to use together. -/
def Usable (s : Settings) : Prop :=
  ∀ list gs, (s.patterns list).mapM (globOf list) = .ok gs → Glob.obstacle? gs = none

/-- What settings resolve to, given the meaning of their entries. -/
def policyOf (s : Settings) (ks : List Kind) (includes excludes : List Glob) : Policy where
  includes := if s.includes.isEmpty then none else some includes
  excludes := excludes
  kinds := if s.types.isEmpty then none else some (kindSet ks)
  options := ⟨s.withText.getD false, s.strict.getD false⟩

theorem usable_eq_ok_iff {gs gs' : List Glob} :
    usable gs = .ok gs' ↔ Glob.obstacle? gs = none ∧ gs = gs' := by
  rw [usable]
  cases Glob.obstacle? gs <;> simp

theorem resolve_eq_ok_iff {s : Settings} {p : Policy} :
    s.resolve = .ok p ↔ s.validate = .ok () ∧ ∃ ks gs gs', s.types.mapM kindOf = .ok ks ∧
      (s.patterns .includes).mapM (globOf .includes) = .ok gs ∧ Glob.obstacle? gs = none ∧
      (s.patterns .excludes).mapM (globOf .excludes) = .ok gs' ∧ Glob.obstacle? gs' = none ∧
      s.policyOf ks gs gs' = p := by
  have hexcludes : (if s.excludes.isEmpty then defaultExcludes else s.excludes) =
      s.patterns .excludes := by
    rw [patterns]
    simp only [List.isEmpty_iff]
  rw [resolve, hexcludes]
  constructor
  · intro h
    obtain ⟨_, hvalid, h⟩ := bind_eq_ok_iff.1 h
    obtain ⟨ks, hks, h⟩ := bind_eq_ok_iff.1 h
    obtain ⟨gs, hgs, h⟩ := bind_eq_ok_iff.1 h
    obtain ⟨gs₁, husable, h⟩ := bind_eq_ok_iff.1 h
    obtain ⟨gs', hgs', h⟩ := bind_eq_ok_iff.1 h
    obtain ⟨gs₂, husable', h⟩ := bind_eq_ok_iff.1 h
    obtain ⟨hnone, rfl⟩ := usable_eq_ok_iff.1 husable
    obtain ⟨hnone', rfl⟩ := usable_eq_ok_iff.1 husable'
    exact ⟨hvalid, ks, gs, gs', hks, hgs, hnone, hgs', hnone', Except.ok.inj h⟩
  · rintro ⟨hvalid, ks, gs, gs', hks, hgs, hnone, hgs', hnone', rfl⟩
    rw [hvalid, ok_bind, hks, ok_bind]
    refine bind_eq_ok_iff.2 ⟨gs, hgs, bind_eq_ok_iff.2 ⟨gs, usable_eq_ok_iff.2 ⟨hnone, rfl⟩, ?_⟩⟩
    exact bind_eq_ok_iff.2 ⟨gs', hgs',
      bind_eq_ok_iff.2 ⟨gs', usable_eq_ok_iff.2 ⟨hnone', rfl⟩, rfl⟩⟩

theorem exists_globOf_iff {list : PatternList} {pattern : String} :
    (∃ g, globOf list pattern = .ok g) ↔ ∃ tokens, Glob.parse pattern.toList = .ok tokens := by
  rw [globOf]
  cases Glob.parse pattern.toList <;> simp

theorem exists_mapM_globOf {s : Settings} (h : s.validate = .ok ()) (list : PatternList) :
    ∃ gs, (s.patterns list).mapM (globOf list) = .ok gs := by
  obtain ⟨-, hpatterns⟩ := validate_eq_ok_iff.1 h
  have hgiven (ps : List String) (hps : ∀ p ∈ ps, p ∈ s.includes ++ s.excludes) :
      ∃ gs, ps.mapM (globOf list) = .ok gs :=
    exists_mapM_eq_ok_iff.2 fun p hp => exists_globOf_iff.2 (hpatterns p (hps p hp))
  cases list with
  | includes => exact hgiven s.includes fun p hp => List.mem_append_left _ hp
  | excludes =>
    rw [patterns]
    split
    · exact ⟨_, mapM_globOf_defaultExcludes⟩
    · exact hgiven s.excludes fun p hp => List.mem_append_right _ hp

/-- Settings whose entries mean something resolve if their patterns can be put to use. -/
theorem exists_resolve_iff {s : Settings} (h : s.validate = .ok ()) :
    (∃ p, s.resolve = .ok p) ↔ s.Usable := by
  obtain ⟨gs, hgs⟩ := exists_mapM_globOf h .includes
  obtain ⟨gs', hgs'⟩ := exists_mapM_globOf h .excludes
  have husable : s.Usable ↔ Glob.obstacle? gs = none ∧ Glob.obstacle? gs' = none := by
    constructor
    · exact fun husable => ⟨husable _ _ hgs, husable _ _ hgs'⟩
    · rintro ⟨hnone, hnone'⟩ (_ | _) globs hglobs
      · obtain rfl : gs = globs := Except.ok.inj (hgs.symm.trans hglobs)
        exact hnone
      · obtain rfl : gs' = globs := Except.ok.inj (hgs'.symm.trans hglobs)
        exact hnone'
  obtain ⟨hnames, -⟩ := validate_eq_ok_iff.1 h
  obtain ⟨ks, hks⟩ : ∃ ks, s.types.mapM kindOf = .ok ks := by
    refine exists_mapM_eq_ok_iff.2 fun name hname => ?_
    obtain ⟨k, hk⟩ := hnames name hname
    exact ⟨k, by rw [kindOf, hk]⟩
  rw [husable]
  constructor
  · rintro ⟨p, hp⟩
    obtain ⟨-, _, globs, globs', -, hglobs, hnone, hglobs', hnone', -⟩ := resolve_eq_ok_iff.1 hp
    obtain rfl : gs = globs := Except.ok.inj (hgs.symm.trans hglobs)
    obtain rfl : gs' = globs' := Except.ok.inj (hgs'.symm.trans hglobs')
    exact ⟨hnone, hnone'⟩
  · rintro ⟨hnone, hnone'⟩
    exact ⟨_, resolve_eq_ok_iff.2 ⟨h, ks, gs, gs', hks, hgs, hnone, hgs', hnone', rfl⟩⟩

/-! The policy of settings. -/

/-- Whether a pattern by itself takes a path. -/
def takes (pattern path : String) : Bool :=
  match Glob.parse pattern.toList with
  | .ok tokens => (Glob.mk tokens).hits (encodeUtf8 path.toList)
  | .error _ => false

theorem any_hits_iff {list : PatternList} {ps : List String} {gs : List Glob}
    (h : ps.mapM (globOf list) = .ok gs) (path : String) :
    gs.any (·.hits (encodeUtf8 path.toList)) = true ↔ ∃ p ∈ ps, takes p path = true := by
  have htakes (p : String) : takes p path = true ↔
      ∃ g, globOf list p = .ok g ∧ g.hits (encodeUtf8 path.toList) = true := by
    rw [takes, globOf]
    cases Glob.parse p.toList <;> simp
  simp only [List.any_eq_true, mem_iff_of_mapM_eq_ok h, htakes]
  constructor
  · rintro ⟨g, ⟨p, hp, hg⟩, hits⟩
    exact ⟨p, hp, g, hg, hits⟩
  · rintro ⟨p, hp, g, hg, hits⟩
    exact ⟨g, ⟨p, hp, hg⟩, hits⟩

section
variable {s : Settings} {p : Policy} (h : s.resolve = .ok p)
include h

theorem keeps_iff (k : Kind) :
    p.keeps k = true ↔ s.types = [] ∨ ∃ entry ∈ s.types, Kind.parse? entry = some k := by
  obtain ⟨-, ks, _, _, hks, -, -, -, -, rfl⟩ := resolve_eq_ok_iff.1 h
  have hkind (name : String) : kindOf name = .ok k ↔ Kind.parse? name = some k := by
    rw [kindOf]
    cases Kind.parse? name <;> simp
  rw [Policy.keeps, policyOf]
  by_cases htypes : s.types = []
  · simp [htypes]
  · simp only [List.isEmpty_iff, htypes, if_false, false_or, List.contains_iff_mem,
      mem_kindSet_iff, mem_iff_of_mapM_eq_ok hks, hkind]

theorem admits_iff (path : String) :
    p.admits path = true ↔ (∀ pattern ∈ s.patterns .excludes, takes pattern path = false) ∧
      (s.includes = [] ∨ ∃ pattern ∈ s.includes, takes pattern path = true) := by
  obtain ⟨-, _, gs, gs', -, hgs, -, hgs', -, rfl⟩ := resolve_eq_ok_iff.1 h
  have hexcluded : (!gs'.any (·.hits (encodeUtf8 path.toList))) = true ↔
      ∀ pattern ∈ s.patterns .excludes, takes pattern path = false := by
    rw [Bool.not_eq_true', ← Bool.not_eq_true, any_hits_iff hgs']
    simp
  rw [Policy.admits, policyOf, Bool.and_eq_true, hexcluded]
  refine and_congr_right fun _ => ?_
  by_cases hincludes : s.includes = []
  · simp [hincludes]
  · simp only [List.isEmpty_iff, hincludes, if_false, false_or]
    exact any_hits_iff hgs path

end

/-! Order and repeats. -/

/-- Settings with the same entries, in any order and any number of times. -/
structure SameEntries (s s' : Settings) : Prop where
  types : ∀ entry, entry ∈ s'.types ↔ entry ∈ s.types
  includes : ∀ pattern, pattern ∈ s'.includes ↔ pattern ∈ s.includes
  excludes : ∀ pattern, pattern ∈ s'.excludes ↔ pattern ∈ s.excludes

theorem eq_nil_congr {α : Type} {as bs : List α} (h : ∀ a, a ∈ bs ↔ a ∈ as) :
    bs = [] ↔ as = [] := by
  simp only [List.eq_nil_iff_forall_not_mem, h]

namespace SameEntries
variable {s s' : Settings} (h : s.SameEntries s')
include h

theorem mem_patterns_iff (list : PatternList) (pattern : String) :
    pattern ∈ s'.patterns list ↔ pattern ∈ s.patterns list := by
  cases list with
  | includes => exact h.includes pattern
  | excludes =>
    rw [patterns, patterns]
    by_cases hnil : s.excludes = []
    · rw [if_pos hnil, if_pos ((eq_nil_congr h.excludes).2 hnil)]
    · rw [if_neg hnil, if_neg (mt (eq_nil_congr h.excludes).1 hnil)]
      exact h.excludes pattern

theorem validate (hvalid : s.validate = .ok ()) : s'.validate = .ok () := by
  rw [validate_eq_ok_iff] at hvalid ⊢
  simpa only [List.mem_append, h.types, h.includes, h.excludes] using hvalid

theorem usable (hvalid : s.validate = .ok ()) (husable : s.Usable) : s'.Usable := by
  intro list gs hgs
  obtain ⟨globs, hglobs⟩ := exists_mapM_globOf hvalid list
  have hnone := Glob.obstacle?_eq_none_iff.1 (husable list globs hglobs)
  refine Glob.obstacle?_eq_none_iff.2 fun g hg => hnone g ?_
  rw [mem_iff_of_mapM_eq_ok hgs] at hg
  simp only [h.mem_patterns_iff] at hg
  exact (mem_iff_of_mapM_eq_ok hglobs).2 hg

theorem exists_resolve {p : Policy} (hp : s.resolve = .ok p) :
    ∃ p', s'.resolve = .ok p' ∧ p'.keeps = p.keeps ∧ p'.admits = p.admits := by
  obtain ⟨hvalid, -⟩ := resolve_eq_ok_iff.1 hp
  have husable := h.usable hvalid ((exists_resolve_iff hvalid).1 ⟨p, hp⟩)
  obtain ⟨p', hp'⟩ := (exists_resolve_iff (h.validate hvalid)).2 husable
  refine ⟨p', hp', funext fun k => ?_, funext fun path => ?_⟩
  · rw [Bool.eq_iff_iff, keeps_iff hp', keeps_iff hp, eq_nil_congr h.types]
    simp only [h.types]
  · rw [Bool.eq_iff_iff, admits_iff hp', admits_iff hp, eq_nil_congr h.includes]
    simp only [h.mem_patterns_iff, h.includes]

end SameEntries

end Settings

/-- Settings are valid exactly if every entry means something, and else the first that does not is
complained of, also if they are to be resolved. Valid settings resolve if their patterns can be put
to use together. The policy keeps the kinds that are named, and admits the paths that no pattern
excludes and some pattern includes, where lists without entries leave the default in force; so the
order of entries makes no difference, nor how often they stand. -/
theorem settings_mean_their_entries (s : Settings) :
    (s.validate = .ok () ↔ (∀ entry ∈ s.types, ∃ k, Kind.parse? entry = some k) ∧
      ∀ pattern ∈ s.includes ++ s.excludes, ∃ tokens, Glob.parse pattern.toList = .ok tokens) ∧
    (∀ e, s.validate = .error e ↔ s.entries.findSome? Settings.Entry.mistake? = some e) ∧
    (∀ e, s.validate = .error e → s.resolve = .error e) ∧
    (s.validate = .ok () → ((∃ p, s.resolve = .ok p) ↔ s.Usable)) ∧
    ∀ p, s.resolve = .ok p →
      (∀ k, p.keeps k = true ↔
        s.types = [] ∨ ∃ entry ∈ s.types, Kind.parse? entry = some k) ∧
      (∀ path, p.admits path = true ↔
        (∀ pattern ∈ (if s.excludes = [] then Settings.defaultExcludes else s.excludes),
          Settings.takes pattern path = false) ∧
        (s.includes = [] ∨ ∃ pattern ∈ s.includes, Settings.takes pattern path = true)) ∧
      ∀ s', s.SameEntries s' →
        ∃ p', s'.resolve = .ok p' ∧ p'.keeps = p.keeps ∧ p'.admits = p.admits := by
  refine ⟨Settings.validate_eq_ok_iff, fun _ => Settings.validate_eq_error_iff, ?_,
    Settings.exists_resolve_iff, fun p hp => ⟨Settings.keeps_iff hp, Settings.admits_iff hp, ?_⟩⟩
  · intro e he
    rw [Settings.resolve, he]
    rfl
  · exact fun s' h => h.exists_resolve hp

/-- The type is complained of, not the pattern behind it. Entries that are repeated in another
order make the same policy, which excludes by default. -/
theorem settings_mean_their_entries_repeated :
    let wrong : Settings := { types := ["comment", "class"], includes := ["["] }
    let s : Settings := { types := [" METHOD", "comment"], includes := ["src/*.js"] }
    let s' : Settings := { types := ["comment", " METHOD", "comment"], includes := ["src/*.js"] }
    wrong.validate = .error (.type "class") ∧ wrong.resolve = .error (.type "class") ∧
      s.SameEntries s' ∧ ∃ p p', s.resolve = .ok p ∧ s'.resolve = .ok p' ∧
        p'.keeps = p.keeps ∧ p'.admits = p.admits ∧
        p.keeps .method = true ∧ p.keeps .property = false ∧
        p.admits "src/a.js" = true ∧ p.admits "src/build/a.js" = false := by
  intro wrong s s'
  have hwrong : wrong.validate = .error (.type "class") :=
    ((settings_mean_their_entries wrong).2.1 _).2 (by decide +kernel)
  have hsame : s.SameEntries s' := ⟨by simp [s, s', or_comm], by simp [s, s'], by simp [s, s']⟩
  obtain ⟨-, -, -, -, hpolicy⟩ := settings_mean_their_entries s
  have hsome : s.resolve.toOption.isSome = true := by decide +kernel
  obtain ⟨p, hresolve⟩ := Option.isSome_iff_exists.1 hsome
  have hp := eq_ok_of_toOption hresolve
  obtain ⟨hkeeps, hadmits, hrepeats⟩ := hpolicy p hp
  obtain ⟨p', hp', hkeeps', hadmits'⟩ := hrepeats s' hsame
  have hmethod : p.keeps .method = true :=
    (hkeeps _).2 (.inr ⟨" METHOD", by simp [s], by decide +kernel⟩)
  have hproperty : ¬ p.keeps .property = true := by
    rw [hkeeps]
    simp only [s, List.mem_cons, List.not_mem_nil, or_false, exists_eq_or_imp, exists_eq_left]
    decide +kernel
  have hincluded : p.admits "src/a.js" = true := by
    rw [hadmits]
    exact ⟨by decide +kernel, .inr ⟨"src/*.js", by simp [s], by decide +kernel⟩⟩
  have hexcluded : ¬ p.admits "src/build/a.js" = true := by
    rw [hadmits, not_and]
    exact fun hnone => absurd (hnone "**/build/**" (by decide +kernel)) (by decide +kernel)
  exact ⟨hwrong, (settings_mean_their_entries wrong).2.2.1 _ hwrong, hsame, p, p', hp, hp',
    hkeeps', hadmits', hmethod, by simpa using hproperty, hincluded, by simpa using hexcluded⟩

end ScriptOutline
