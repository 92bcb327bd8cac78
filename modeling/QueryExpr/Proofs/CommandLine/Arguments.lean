import QueryExpr.Proofs.CommandLine.Settings

/-!
# Argument lists for settings

Whatever settings an argument list says, there is one that says them with the long name of every
option, its value after an equals sign, and two hyphens before what is no option. So there are
always arguments that say what others do, but that the schema comes from a file.

* `read?_arguments`: the settings of such a list.
* `allCanBeSaid_readFrom`: what is read is fit for such a list.
* `exists_reloads`, `ofArguments?_of_reloads`: **arguments for the schema from a file**, and the
  options that they give.
-/

namespace QueryExpr

namespace Flag

theorem equals_not_mem_longName (flag : Flag) : '=' ∉ flag.longName.toList := by
  cases flag <;> decide

theorem ofLongName?_longName (flag : Flag) : ofLongName? flag.longName = some flag := by
  cases flag <;> decide

theorem longName_ne_empty (flag : Flag) : flag.longName.toList ≠ [] := by
  cases flag <;> decide

end Flag

namespace Setting

/-! ## What is said is read -/

/-- A setting that an argument list can say: an option has a value exactly if it takes one. -/
def CanBeSaid : Setting → Prop
  | plain _ => True
  | switch flag => flag.takesValue = false
  | valued flag _ => flag.takesValue = true

/-- One argument that says a setting; after two hyphens, if it is no option. -/
def argument : Setting → String
  | plain text => text
  | switch flag => "--" ++ flag.longName
  | valued flag text => "--" ++ flag.longName ++ "=" ++ text

/-- Arguments that say settings: first the options, and then what is no option. -/
def arguments (settings : List Setting) : List String :=
  (settings.filter (·.flag?.isSome)).map argument ++ "--" :: plains settings

theorem splitLong_append {cs : List Char} (h : '=' ∉ cs) (after : List Char) :
    splitLong (cs ++ after) =
      let (name, value?) := splitLong after
      (String.ofList cs ++ name, value?) := by
  have hname : ∀ c ∈ cs, (c != '=') = true := by
    intro c hc
    rw [bne_iff_ne]
    rintro rfl
    exact h hc
  simp only [splitLong, List.takeWhile_append_of_pos hname, List.dropWhile_append_of_pos hname,
    String.ofList_append]
  cases after.dropWhile (· != '=') <;> rfl

theorem splitLong_longName (flag : Flag) (after : List Char) :
    splitLong (flag.longName.toList ++ after) =
      let (name, value?) := splitLong after
      (flag.longName ++ name, value?) := by
  rw [splitLong_append flag.equals_not_mem_longName, String.ofList_toList]

/-- How a long option is read. -/
theorem readFrom_long {arg : String} {cs : List Char} (harg : arg.toList = '-' :: '-' :: cs)
    (hcs : cs ≠ []) (rest : List String) :
    readFrom none (arg :: rest) =
      match Flag.ofLongName? (splitLong cs).1, (splitLong cs).2 with
      | none, _ => none
      | some flag, some value =>
        if flag.takesValue then (readFrom none rest).map (.valued flag value :: ·) else none
      | some flag, none =>
        if flag.takesValue then readFrom (some flag) rest
        else (readFrom none rest).map (.switch flag :: ·) := by
  have hend : arg ≠ "--" := by
    rintro rfl
    exact hcs (List.cons.inj (List.cons.inj harg).2).2.symm
  rw [readFrom, if_neg hend, harg]
  rfl

theorem readFrom_argument {setting : Setting} (hoption : setting.flag?.isSome = true)
    (h : setting.CanBeSaid) (rest : List String) :
    readFrom none (setting.argument :: rest) = (readFrom none rest).map (setting :: ·) := by
  cases setting with
  | plain text => cases hoption
  | switch flag =>
    have harg : (switch flag).argument.toList = '-' :: '-' :: flag.longName.toList := by
      rw [argument, String.toList_append]
      rfl
    have hsplit : splitLong flag.longName.toList = (flag.longName, none) := by
      simpa [splitLong] using splitLong_longName flag []
    rw [readFrom_long harg flag.longName_ne_empty, hsplit, Flag.ofLongName?_longName]
    exact if_neg (Bool.eq_false_iff.mp h)
  | valued flag text =>
    have harg : (valued flag text).argument.toList =
        '-' :: '-' :: (flag.longName.toList ++ '=' :: text.toList) := by
      simp [argument]
    have hsplit : splitLong (flag.longName.toList ++ '=' :: text.toList) =
        (flag.longName, some text) := by
      simpa [splitLong] using splitLong_longName flag ('=' :: text.toList)
    rw [readFrom_long harg (by simp), hsplit, Flag.ofLongName?_longName]
    exact if_pos h

/-- Two hyphens end the options, and all that follows them is none. -/
theorem readFrom_arguments {options : List Setting}
    (hoptions : ∀ setting ∈ options, setting.flag?.isSome = true)
    (h : ∀ setting ∈ options, setting.CanBeSaid) (rest : List String) :
    readFrom none (options.map argument ++ "--" :: rest) =
      some (options ++ rest.map plain) := by
  induction options with
  | nil => rfl
  | cons setting options ih =>
    rw [List.forall_mem_cons] at hoptions h
    rw [List.map_cons, List.cons_append, readFrom_argument hoptions.1 h.1, ih hoptions.2 h.2]
    rfl

/-- **The arguments for settings are read as these**, with the options first. -/
theorem read?_arguments {settings : List Setting} (h : ∀ setting ∈ settings, setting.CanBeSaid) :
    read? (arguments settings) =
      some (settings.filter (·.flag?.isSome) ++ (plains settings).map plain) := by
  have hoptions : ∀ setting ∈ settings.filter (·.flag?.isSome), setting.flag?.isSome = true :=
    fun _ hmem => (List.mem_filter.mp hmem).2
  have hsaid : ∀ setting ∈ settings.filter (·.flag?.isSome), setting.CanBeSaid :=
    fun _ hmem => h _ (List.mem_filter.mp hmem).1
  exact readFrom_arguments hoptions hsaid (plains settings)

/-- Options, and then what is no option, are all the settings. -/
theorem perm_options_plains (settings : List Setting) :
    List.Perm (settings.filter (·.flag?.isSome) ++ (plains settings).map plain) settings := by
  have hplains : (plains settings).map Setting.plain =
      settings.filter fun setting => !setting.flag?.isSome := by
    rw [plains, List.map_filterMap, ← List.filterMap_eq_filter]
    refine List.filterMap_congr fun setting _ => ?_
    cases setting <;> rfl
  rw [hplains]
  exact List.filter_append_perm _ settings

/-- Settings that can be said are said by some argument list, up to their order. -/
theorem exists_read?_perm {settings : List Setting}
    (h : ∀ setting ∈ settings, setting.CanBeSaid) :
    ∃ args settings', read? args = some settings' ∧ settings'.Perm settings :=
  ⟨arguments settings, _, read?_arguments h, perm_options_plains settings⟩

/-! ## What is read can be said -/

/-- Letters stand for settings that can be said, and the last of them for an option that takes a
value. -/
theorem canBeSaid_of_splitLetters {cs : List Char} {settings : List Setting}
    {last : Option (Flag × List Char)} (h : splitLetters cs = some (settings, last)) :
    (∀ setting ∈ settings, setting.CanBeSaid) ∧ ∀ flag ∈ last.map Prod.fst, flag.takesValue := by
  induction cs generalizing settings with
  | nil =>
    cases h
    exact ⟨nofun, nofun⟩
  | cons c cs ih =>
    rw [splitLetters] at h
    split at h
    · cases h
    · next flag _ =>
      split at h
      · next hvalue =>
        cases h
        refine ⟨nofun, ?_⟩
        rintro _ ⟨⟩
        exact hvalue
      · next hvalue =>
        obtain ⟨⟨more, last'⟩, hmore, heq⟩ := Option.map_eq_some_iff.mp h
        cases heq
        obtain ⟨hsaid, hlast⟩ := ih hmore
        exact ⟨List.forall_mem_cons.mpr ⟨by simpa [CanBeSaid] using hvalue, hsaid⟩, hlast⟩

/-- Settings that can be said, or none. -/
def AllCanBeSaid (settings? : Option (List Setting)) : Prop :=
  ∀ settings ∈ settings?, ∀ setting ∈ settings, setting.CanBeSaid

theorem AllCanBeSaid.map_append {settings? : Option (List Setting)} {before : List Setting}
    (h : AllCanBeSaid settings?) (hbefore : ∀ setting ∈ before, setting.CanBeSaid) :
    AllCanBeSaid (settings?.map (before ++ ·)) := by
  intro settings hsettings setting hmem
  obtain ⟨rest, hrest, rfl⟩ := Option.map_eq_some_iff.mp hsettings
  rcases List.mem_append.mp hmem with hmem | hmem
  · exact hbefore setting hmem
  · exact h rest hrest setting hmem

theorem AllCanBeSaid.map_cons {settings? : Option (List Setting)} {setting : Setting}
    (h : AllCanBeSaid settings?) (hsetting : setting.CanBeSaid) :
    AllCanBeSaid (settings?.map (setting :: ·)) := by
  have hone : ∀ s ∈ [setting], s.CanBeSaid := List.forall_mem_singleton.mpr hsetting
  exact h.map_append hone

/-- **Settings that are read can be said**, if the option that waits for its value takes one. -/
theorem allCanBeSaid_readFrom (waiting : Option Flag) (args : List String)
    (hwaiting : ∀ flag ∈ waiting, flag.takesValue) : AllCanBeSaid (readFrom waiting args) := by
  fun_induction readFrom waiting args
  -- an argument that cannot be read
  case case1 | case3 | case6 | case8 | case11 => exact nofun
  case case2 => simp [AllCanBeSaid]
  -- the value of the option before it
  case case4 flag _ ih => exact (ih nofun).map_cons (hwaiting flag rfl)
  -- the end of the options
  case case5 rest =>
    rintro _ ⟨⟩ setting hmem
    obtain ⟨text, -, rfl⟩ := List.mem_map.mp hmem
    trivial
  -- a long option with its value, without one, and one that takes none
  case case7 hvalue _ ih => exact (ih nofun).map_cons hvalue
  case case9 hvalue _ ih =>
    refine ih ?_
    rintro _ ⟨⟩
    exact hvalue
  case case10 hvalue _ ih => exact (ih nofun).map_cons (Bool.eq_false_iff.mpr hvalue)
  -- letters, the last of them without a value, and with it
  case case12 hletters ih => exact (ih nofun).map_append (canBeSaid_of_splitLetters hletters).1
  case case13 hletters ih =>
    obtain ⟨hsettings, hlast⟩ := canBeSaid_of_splitLetters hletters
    exact (ih hlast).map_append hsettings
  case case14 settings flag value _ hletters ih =>
    obtain ⟨hsettings, hlast⟩ := canBeSaid_of_splitLetters hletters
    have hall : ∀ setting ∈ settings ++ [valued flag (attached value)], setting.CanBeSaid := by
      rw [List.forall_mem_append, List.forall_mem_singleton]
      exact ⟨hsettings, hlast flag rfl⟩
    simpa using (ih nofun).map_append hall
  case case15 ih => exact (ih nofun).map_cons trivial

end Setting

namespace Options

open Setting

/-! ## The schema from a file -/

/-- Arguments that say what others do, but that the schema comes from a file. -/
def Reloads (path : String) (args args' : List String) : Prop :=
  ∃ settings settings', read? args = some settings ∧ read? args' = some settings' ∧
    settings'.Perm (reloading path settings)

variable {args args' : List String} {o : Options} {path : String}

theorem exists_reloads (ho : ofArguments? args = some o) (path : String) :
    ∃ args', Reloads path args args' := by
  obtain ⟨settings, hread, -⟩ := ofArguments?_eq_some_iff.mp ho
  have hsaid := allCanBeSaid_readFrom none args nofun settings hread
  have hall : ∀ setting ∈ reloading path settings, setting.CanBeSaid := by
    refine List.forall_mem_cons.mpr ⟨rfl, fun setting hmem => ?_⟩
    exact hsaid setting (List.mem_filter.mp hmem).1
  obtain ⟨args', settings', hread', hperm⟩ := exists_read?_perm hall
  exact ⟨args', settings, settings', hread, hread', hperm⟩

/-- **Arguments that get the schema from a file** give the same options, apart from where the schema
comes from and where it goes. -/
theorem ofArguments?_of_reloads (h : Reloads path args args') (ho : ofArguments? args = some o)
    (hpath : path ≠ "") : ofArguments? args' = some (reloaded path o) := by
  obtain ⟨settings, settings', hread, hread', hperm⟩ := h
  obtain ⟨_, hsame, hgives⟩ := ofArguments?_eq_some_iff.mp ho
  rw [hread, Option.some.injEq] at hsame
  subst hsame
  have hreloading := gives_reloading hgives hpath
  have hplains : (plains (reloading path settings)).length ≤ 1 := by
    rw [hreloading.expression]
    exact Nat.le_refl 1
  have hsame := SameReading.of_perm hperm (count_reloading_le hgives.coherent) hplains
  exact ofArguments?_eq_some_iff.mpr ⟨settings', hread', hreloading.of_sameReading hsame⟩

end Options

end QueryExpr
