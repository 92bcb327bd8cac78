import QueryExpr.Proofs.CommandLine.Arguments
import QueryExpr.Proofs.CommandLine.Specification
import QueryExpr.Proofs.Log.Outcome
import QueryExpr.Proofs.Phrase.Reading

/-!
# Schemas that outlive a run

A run that writes its schema leaves it behind for others: one that says the same, but gets the
schema from that file, ends as the first did and leaves the same files, however that is. Only the
log tells the two apart, since the first run has a record of what it wrote. The file has to hold
what is written to it, and the null device does not.

A run whose schema cannot be had ends with a failure that says why and writes nothing. Its
specifications describe no schema, its file cannot be read, or the bytes in it are no schema.

* `loadSchema_eq_error_iff`: **the runs without a schema**, and why.
* `run_writing`, `run_reloading`: a run and one after it that gets the schema from the file.
* `run_reloading_nullDevice`: the null device has no schema for it.
* `schema_outlives_run`: **a schema that is written serves as the one that was described.**
* `reloading_told_apart`: what is not the same.
-/

namespace QueryExpr

open Log

/-! ## Reports -/

theorem Log.lines_append (time : Nat → String) (records more : List Record) :
    lines time (records ++ more) =
      lines time records ++ lines (fun n => time (n + records.length)) more := by
  induction records generalizing time with
  | nil => simp [lines]
  | cons r records ih =>
    rw [List.cons_append, lines, lines, ih, String.append_assoc]
    simp only [List.length_cons, Nat.add_assoc]

theorem Log.length_line_pos (time : String) (r : Record) : 0 < (r.line time).length := by
  have hbracket : "[".length = 1 := rfl
  simp only [Record.line, String.length_append, hbracket]
  omega

/-- **Two reports that tell the same**, but that the first one begins with some records that the
second one does not have. -/
structure Report.SameButFor (records : List Record) (first second : Report) : Prop where
  exitCode : second.exitCode = first.exitCode
  standardOutput : second.standardOutput = first.standardOutput
  standardError : ∀ time, first.standardError time =
    lines time records ++ second.standardError fun n => time (n + records.length)

theorem Report.sameButFor_after {report : Report} {out : String} {log : List Record}
    {failure? : Option Failure} (h : report = .done out log failure?) (records : List Record) :
    SameButFor records (report.after records) report := by
  subst h
  refine ⟨?_, rfl, fun time => ?_⟩
  · cases failure? <;> rfl
  · rw [after, Report.standardError, Log.lines_append, String.append_assoc]
    rfl

/-- A record that only one of them has is a line that only one of them has. -/
theorem Report.SameButFor.standardError_ne {records : List Record} {first second : Report}
    (h : SameButFor records first second) (hrecords : records ≠ []) (time : String) :
    first.standardError (fun _ => time) ≠ second.standardError fun _ => time := by
  intro heq
  cases records with
  | nil => exact hrecords rfl
  | cons r records =>
    have hlength := congrArg String.length (h.standardError fun _ => time)
    have hline := Log.length_line_pos time r
    rw [heq, lines, String.length_append, String.length_append] at hlength
    omega

namespace CommandLine

open Options

variable {environment? : Option Filter} {args args' : List String} {o : Options} {files : Files}
  {s : Schema} {path : String} {failure : Failure}

/-! ## Runs without a schema -/

/-- A run has no schema, and why. -/
inductive Unloadable (o : Options) (files : Files) : Failure → Prop
  | specifications {failure : Failure} (hfile : o.schemaFile? = none)
      (h : Undescribed o.columns failure) : Unloadable o files failure
  | unreadable {path : String} {fault : FileFault} (hfile : o.schemaFile? = some path)
      (h : files.read path = .error fault) : Unloadable o files (.ofReading path fault.text)
  | malformed {path : String} {bytes : List UInt8} {fault : DecodeError}
      (hfile : o.schemaFile? = some path) (hbytes : files.read path = .ok bytes)
      (h : Schema.Malformed bytes fault) : Unloadable o files (.ofError (.serialization fault))
  | unsound {path : String} {bytes : List UInt8} {columns : List Column} {d : SchemaDefect}
      (hfile : o.schemaFile? = some path) (hbytes : files.read path = .ok bytes)
      (hfits : Schema.Fits columns) (hwritten : Schema.bytesOf columns <+: bytes)
      (h : Schema.Defective columns d) : Unloadable o files (.ofError (.invalidSchema d))

theorem loadSchema_of_specifications (h : o.schemaFile? = none) :
    loadSchema o files = describedSchema o.columns := by
  rw [loadSchema, h]

theorem loadSchema_of_unreadable {fault : FileFault} (h : o.schemaFile? = some path)
    (hfault : files.read path = .error fault) :
    loadSchema o files = .error (.ofReading path fault.text) := by
  simp only [loadSchema, h, hfault]

theorem loadSchema_of_file {bytes : List UInt8} (h : o.schemaFile? = some path)
    (hbytes : files.read path = .ok bytes) : loadSchema o files = readSchema bytes := by
  simp only [loadSchema, h, hbytes]

/-- In the null device there is no schema. -/
theorem loadSchema_nullDevice (h : o.schemaFile? = some path)
    (hfile : Files.namesDirectory path = false) (hkeeps : Files.keeps path = false) :
    loadSchema o files = .error (.ofError (.serialization .unexpectedEnd)) := by
  rw [loadSchema_of_file h (Files.read_nullDevice hfile hkeeps)]
  rfl

theorem readSchema_eq_ok_iff {bytes : List UInt8} :
    readSchema bytes = .ok s ↔ Schema.Fits s.columns ∧ s.toBytes <+: bytes := by
  rw [← Schema.ofBytes_eq_ok_iff, readSchema]
  cases Schema.ofBytes bytes with
  | ok s' => simp [Except.mapError]
  | error e => simp [Except.mapError]

theorem readSchema_eq_error_iff {bytes : List UInt8} :
    readSchema bytes = .error failure ↔
      (∃ fault, failure = .ofError (.serialization fault) ∧ Schema.Malformed bytes fault) ∨
      ∃ columns d, failure = .ofError (.invalidSchema d) ∧ Schema.Fits columns ∧
        Schema.bytesOf columns <+: bytes ∧ Schema.Defective columns d := by
  have hread : readSchema bytes = .error failure ↔
      ∃ e, Schema.ofBytes bytes = .error e ∧ failure = .ofError (.ofLoad e) := by
    rw [readSchema]
    cases Schema.ofBytes bytes with
    | ok s => simp [Except.mapError]
    | error e => simp [Except.mapError, eq_comm]
  rw [hread]
  simp only [Schema.ofBytes_eq_error_iff]
  constructor
  · rintro ⟨_, ⟨fault, rfl, h⟩ | ⟨columns, d, rfl, h⟩, rfl⟩
    · exact .inl ⟨fault, rfl, h⟩
    · exact .inr ⟨columns, d, rfl, h⟩
  · rintro (⟨fault, rfl, h⟩ | ⟨columns, d, rfl, h⟩)
    · exact ⟨_, .inl ⟨fault, rfl, h⟩, rfl⟩
    · exact ⟨_, .inr ⟨columns, d, rfl, h⟩, rfl⟩

/-- **A run is without a schema** if its specifications describe none, if the file cannot be read,
and if the bytes in the file are malformed or write columns that are not sound. -/
theorem loadSchema_eq_error_iff :
    loadSchema o files = .error failure ↔ Unloadable o files failure := by
  constructor
  · intro h
    cases hfile : o.schemaFile? with
    | none =>
      rw [loadSchema_of_specifications hfile, describedSchema_eq_error_iff] at h
      exact .specifications hfile h
    | some path =>
      cases hbytes : files.read path with
      | error fault =>
        rw [loadSchema_of_unreadable hfile hbytes] at h
        cases h
        exact .unreadable hfile hbytes
      | ok bytes =>
        rw [loadSchema_of_file hfile hbytes, readSchema_eq_error_iff] at h
        obtain ⟨fault, rfl, h⟩ | ⟨columns, d, rfl, hfits, hwritten, h⟩ := h
        · exact .malformed hfile hbytes h
        · exact .unsound hfile hbytes hfits hwritten h
  · rintro (⟨hfile, h⟩ | ⟨hfile, h⟩ | ⟨hfile, hbytes, h⟩ | ⟨hfile, hbytes, hfits, hwritten, h⟩)
    · rw [loadSchema_of_specifications hfile, describedSchema_eq_error_iff]
      exact h
    · exact loadSchema_of_unreadable hfile h
    · rw [loadSchema_of_file hfile hbytes, readSchema_eq_error_iff]
      exact .inl ⟨_, rfl, h⟩
    · rw [loadSchema_of_file hfile hbytes, readSchema_eq_error_iff]
      exact .inr ⟨_, _, rfl, hfits, hwritten, h⟩

theorem run_of_options (ho : ofArguments? args = some o) :
    run environment? args files = runOptions environment? o files := by
  rw [run, ho]

theorem runOptions_of_error (h : loadSchema o files = .error failure) :
    runOptions environment? o files = (.done "" [] (some failure), files) := by
  rw [runOptions, h]

/-! ## Two runs -/

/-- A run that writes its schema. -/
theorem run_writing (ho : ofArguments? args = some o) (hload : loadSchema o files = .ok s)
    (hwrite : o.writeSchema? = some path) (hcan : files.canWrite path = true) :
    run environment? args files =
      ((report (wanted environment? o) o s).after (savedRecords (wanted environment? o) o),
        files.put path s.toBytes) := by
  have hfault : files.writeFault? path = none := Option.isNone_iff_eq_none.mp hcan
  rw [run_of_options ho]
  simp only [runOptions, hload, saveSchema, hwrite, hfault]

theorem loadSchema_reloaded (hfits : Schema.Fits s.columns) (hcan : files.canWrite path = true)
    (hkeeps : Files.keeps path = true) :
    loadSchema (reloaded path o) (files.put path s.toBytes) = .ok s := by
  have hfile : (reloaded path o).schemaFile? = some path := rfl
  rw [loadSchema_of_file hfile (Files.read_put hcan hkeeps)]
  exact readSchema_eq_ok_iff.mpr ⟨hfits, List.prefix_rfl⟩

/-- A file that a schema is written to has a name, so others can get it from there. -/
theorem ofArguments?_reloaded (ho : ofArguments? args = some o)
    (hwrite : o.writeSchema? = some path) (h : Reloads path args args') :
    ofArguments? args' = some (reloaded path o) := by
  obtain ⟨settings, -, hgives⟩ := ofArguments?_eq_some_iff.mp ho
  exact ofArguments?_of_reloads h ho (path_ne_empty hgives hwrite)

/-- **A run after it that gets the schema from the file.** A report does not depend on where the
schema comes from. -/
theorem run_reloading (ho : ofArguments? args = some o) (hwrite : o.writeSchema? = some path)
    (hcan : files.canWrite path = true) (hkeeps : Files.keeps path = true)
    (hfits : Schema.Fits s.columns) (h : Reloads path args args') :
    run environment? args' (files.put path s.toBytes) =
      (report (wanted environment? o) o s, files.put path s.toBytes) := by
  have ho' := ofArguments?_reloaded ho hwrite h
  have hwrite' : (reloaded path o).writeSchema? = none := rfl
  have hwanted : wanted environment? (reloaded path o) = wanted environment? o := rfl
  rw [run_of_options ho']
  simp only [runOptions, loadSchema_reloaded hfits hcan hkeeps, saveSchema, savedRecords, hwrite',
    hwanted, Report.after_nil]
  rfl

/-- From the null device no run gets a schema, whatever another one wrote there. -/
theorem run_reloading_nullDevice (ho : ofArguments? args = some o)
    (hwrite : o.writeSchema? = some path) (hfile : Files.namesDirectory path = false)
    (hkeeps : Files.keeps path = false) (h : Reloads path args args') :
    run environment? args' files =
      (.done "" [] (some (.ofError (.serialization .unexpectedEnd))), files) := by
  have ho' := ofArguments?_reloaded ho hwrite h
  rw [run_of_options ho', runOptions_of_error (loadSchema_nullDevice rfl hfile hkeeps)]

/-- The two runs tell the same, but for the record of the file. -/
theorem sameButFor_reloading (environment? : Option Filter) (ho : ofArguments? args = some o)
    (hload : loadSchema o files = .ok s) (hfits : Schema.Fits s.columns)
    (hwrite : o.writeSchema? = some path) (hcan : files.canWrite path = true)
    (hkeeps : Files.keeps path = true) (h : Reloads path args args') :
    Report.SameButFor (if wanted environment? o .info .commandLine then [savedRecord path] else [])
      (run environment? args files).1
      (run environment? args' (run environment? args files).2).1 := by
  obtain ⟨log, hreport⟩ := exists_report_eq (wanted environment? o) o s
  have hrecords : savedRecords (wanted environment? o) o =
      if wanted environment? o .info .commandLine then [savedRecord path] else [] := by
    rw [savedRecords, hwrite]
  rw [run_writing ho hload hwrite hcan, run_reloading ho hwrite hcan hkeeps hfits h, ← hrecords]
  exact Report.sameButFor_after hreport _

/-- **A schema that is written serves as the one that was described.** If a run has a schema and
writes it to a file that keeps it, then arguments that say the same but get the schema from that
file report the same: exit code, standard output and, but for the record of what was written,
standard error. It makes no difference whether the expression compiles, nor what is wanted of the
log. No other file is changed by the first run and none by the second, and there always are such
arguments. Specifications describe a schema exactly if they are written for its columns, and no name
of these has a colon. A run without a schema fails and says why, and it leaves all files as they
were. -/
theorem schema_outlives_run :
    (∀ environment? args files o s path, ofArguments? args = some o → loadSchema o files = .ok s →
      Schema.Fits s.columns → o.writeSchema? = some path → files.canWrite path = true →
      Files.keeps path = true →
      (run environment? args files).2 = files.put path s.toBytes ∧
      (∃ args', Reloads path args args') ∧
      ∀ args', Reloads path args args' →
        Report.SameButFor
          (if wanted environment? o .info .commandLine then [savedRecord path] else [])
          (run environment? args files).1
          (run environment? args' (run environment? args files).2).1 ∧
        (run environment? args' (run environment? args files).2).2 =
          (run environment? args files).2) ∧
    (∀ o files s, o.schemaFile? = none →
      (loadSchema o files = .ok s ↔ o.columns = s.columns.map Column.specification ∧
        ∀ c ∈ s.columns, ':' ∉ c.name.toList)) ∧
    ∀ environment? args files o failure, ofArguments? args = some o →
      (loadSchema o files = .error failure ↔ Unloadable o files failure) ∧
      (Unloadable o files failure →
        run environment? args files = (.done "" [] (some failure), files) ∧
        (run environment? args files).1.exitCode = 1) := by
  refine ⟨?_, ?_, ?_⟩
  · intro environment? args files o s path ho hload hfits hwrite hcan hkeeps
    refine ⟨?_, exists_reloads ho path, fun args' h => ⟨?_, ?_⟩⟩
    · rw [run_writing ho hload hwrite hcan]
    · exact sameButFor_reloading _ ho hload hfits hwrite hcan hkeeps h
    · rw [run_writing ho hload hwrite hcan, run_reloading ho hwrite hcan hkeeps hfits h]
  · intro o files s hfile
    rw [loadSchema_of_specifications hfile, describedSchema_eq_ok_iff]
    exact ⟨fun h => ⟨h.spelled, h.free⟩, fun h => ⟨h.1, h.2⟩⟩
  · intro environment? args files o failure ho
    refine ⟨loadSchema_eq_error_iff, fun h => ?_⟩
    have hrun : run environment? args files = (.done "" [] (some failure), files) := by
      rw [run_of_options ho, runOptions_of_error (loadSchema_eq_error_iff.mpr h)]
    exact ⟨hrun, by rw [hrun]; rfl⟩

/-- A column of numbers that may be null is written to a file and read from it by another run, which
logs one record less. A column without a type is refused. -/
theorem schema_outlives_run_amount :
    ∃ s : Schema, s.columns = [⟨"amount", .int64, true⟩] ∧
      (run none ["-camount:int64:null", "-worders", "amount * 2"] []).2 =
        Files.put [] "orders" s.toBytes ∧
      Report.SameButFor [savedRecord "orders"]
        (run none ["-camount:int64:null", "-worders", "amount * 2"] []).1
        (run none ["-forders", "amount * 2"] (Files.put [] "orders" s.toBytes)).1 ∧
      run none ["-camount", "-worders", "amount * 2"] [] =
        (.done "" [] (some (.ofShape "amount")), []) := by
  obtain ⟨hpersists, hdescribed, hfails⟩ := schema_outlives_run
  have hname : Schema.NameFits "amount" := by
    unfold Schema.NameFits
    decide
  let s : Schema := ⟨[⟨"amount", .int64, true⟩], by simp, by simp⟩
  let o : Options :=
    ⟨"amount * 2", "t", ["amount:int64:null"], none, some "orders", .sql, 100, false, false, false⟩
  have hfits : Schema.Fits s.columns := ⟨by decide, List.forall_mem_cons.mpr ⟨hname, nofun⟩⟩
  have ho : ofArguments? ["-camount:int64:null", "-worders", "amount * 2"] = some o := by decide
  have hload : loadSchema o [] = .ok s := (hdescribed o [] s rfl).mpr ⟨rfl, by decide⟩
  have hreloads : Reloads "orders" ["-camount:int64:null", "-worders", "amount * 2"]
      ["-forders", "amount * 2"] := ⟨_, _, rfl, rfl, .refl _⟩
  obtain ⟨hfiles, -, hagain⟩ := hpersists none _ [] o s "orders" ho hload hfits rfl
    (by decide +kernel) (by decide +kernel)
  have hsame := (hagain _ hreloads).1
  rw [hfiles] at hsame
  have hshape : ∀ name type nullable, ¬ Specifies "amount" name type nullable :=
    fun _ _ _ h => absurd h.colon_mem (by decide)
  refine ⟨s, rfl, hfiles, hsame, ?_⟩
  exact ((hfails none _ [] { o with columns := ["amount"] } _ (by decide)).2
    (.specifications rfl (.unread ⟨[], "amount", [], rfl, nofun, .shape hshape⟩))).1

/-- **Not everything is the same.** The run that writes the schema has a line more on its standard
error, whatever the times. And a run can write its schema to the null device, where the next one
does not find it. -/
theorem reloading_told_apart :
    (∀ time : String,
      (run none ["1", "-w", "s"] []).1.standardError (fun _ => time) ≠
        (run none ["1", "-f", "s"]
          (run none ["1", "-w", "s"] []).2).1.standardError fun _ => time) ∧
    (run none ["1", "-w", "/dev/null"] []).1.exitCode = 0 ∧
    (run none ["1", "-f", "/dev/null"]
      (run none ["1", "-w", "/dev/null"] []).2).1.exitCode = 1 := by
  let s : Schema := ⟨[], by simp, by simp⟩
  let o : String → Options := fun path =>
    ⟨"1", "t", [], none, some path, .sql, 100, false, false, false⟩
  have hload : ∀ path, loadSchema (o path) [] = .ok s := fun _ => rfl
  refine ⟨fun time => ?_, ?_, ?_⟩
  · have ho : ofArguments? ["1", "-w", "s"] = some (o "s") := by decide +kernel
    have hfits : Schema.Fits s.columns := ⟨by decide, nofun⟩
    have hreloads : Reloads "s" ["1", "-w", "s"] ["1", "-f", "s"] :=
      ⟨[.plain "1", .valued .writeSchema "s"], [.plain "1", .valued .schemaFile "s"],
        by decide +kernel, by decide +kernel, .swap _ _ []⟩
    have hsame := sameButFor_reloading none ho (hload "s") hfits rfl (by decide +kernel)
      (by decide +kernel) hreloads
    exact hsame.standardError_ne (by decide) time
  · have ho : ofArguments? ["1", "-w", "/dev/null"] = some (o "/dev/null") := by decide +kernel
    have htokens : Token.tokenize "1" = .ok [.number "1"] := by decide +kernel
    have hphrase : readPhrase [.number "1"] = .number false "1" :=
      readPhrase_tokens (p := .number false "1") (.number (Token.isNumeral_nat 1))
    have hread : ∀ source, Expr.parse .standard source "1" = .ok (.int64 1) := fun _ => by
      rw [Expr.parse, htokens]
      show (readPhrase _).elaborate _ _ = _
      rw [hphrase]
      rfl
    have htext : textOf .sql 100 (.int64 1) = .ok "1" := by cbv
    obtain ⟨log, hreport⟩ := exists_report_eq (wanted none (o "/dev/null")) (o "/dev/null") s
    rw [run_writing ho (hload _) rfl (by decide +kernel), hreport,
      outcome_of_text (o := o "/dev/null") (hread _) htext]
    rfl
  · have ho : ofArguments? ["1", "-w", "/dev/null"] = some (o "/dev/null") := by decide +kernel
    have hreloads : Reloads "/dev/null" ["1", "-w", "/dev/null"] ["1", "-f", "/dev/null"] :=
      ⟨[.plain "1", .valued .writeSchema "/dev/null"],
        [.plain "1", .valued .schemaFile "/dev/null"],
        by decide +kernel, by decide +kernel, .swap _ _ []⟩
    rw [run_reloading_nullDevice ho rfl (by decide +kernel) (by decide +kernel) hreloads]
    rfl

end CommandLine

end QueryExpr
