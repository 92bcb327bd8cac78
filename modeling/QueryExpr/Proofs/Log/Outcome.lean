import QueryExpr.CommandLine
import QueryExpr.Proofs.Registry.Standard

/-!
# Logging changes no outcome

Work that logs comes to the same as the work without the log, whatever is wanted of the log and
whatever has been logged before: it only adds records. So what is known of rewriting and compiling
holds of a run of the program, of which the log is a by-product.

* `Adds`: work that adds records and otherwise comes to a given outcome. It holds of each step and
  goes through sequences of steps.
* `follows_bottomUp`, `adds_runPasses`, `adds_compile`: **passes and compilers.**
* `CommandLine.exists_report_eq`: what a run prints and how it ends, whatever it logs.
-/

namespace QueryExpr

open Log Strategy

namespace Logging

variable {ε ε' α β : Type} {work : Logging ε α} {x : Except ε α}
  {s : Expr → Logging Error Rewritten} {plain : Strategy}

/-- Work that adds records to a log, and of which `x` is the outcome in any case. -/
def Adds (work : Logging ε α) (x : Except ε α) : Prop :=
  ∀ wanted before, ∃ records, work.runOn wanted before = (x, before ++ records)

/-! ## Steps -/

theorem adds_pure (a : α) : Adds (pure a : Logging ε α) (.ok a) :=
  fun _ _ => ⟨#[], by rw [runOn_pure, Array.append_empty]⟩

theorem adds_throw (e : ε) : Adds (throw e : Logging ε α) (.error e) :=
  fun _ _ => ⟨#[], by rw [runOn_throw, Array.append_empty]⟩

theorem adds_ofExcept (x : Except ε α) : Adds (ofExcept x) x := by
  cases x with
  | ok a => exact adds_pure a
  | error e => exact adds_throw e

theorem adds_log (severity : Severity) (part : Part) (message : Unit → String) :
    Adds (log severity part message : Logging ε Unit) (.ok ()) := by
  intro wanted before
  rw [runOn_log]
  split
  · exact ⟨#[⟨severity, part, message ()⟩], rfl⟩
  · exact ⟨#[], by rw [Array.append_empty]⟩

theorem adds_logIf (condition : Bool) (severity : Severity) (part : Part)
    (message : Unit → String) :
    Adds (logIf condition severity part message : Logging ε Unit) (.ok ()) := by
  cases condition with
  | true => exact adds_log severity part message
  | false => exact adds_pure ()

theorem Adds.mapError (h : Adds work x) (f : ε → ε') : Adds (work.mapError f) (x.mapError f) := by
  intro wanted before
  obtain ⟨records, hwork⟩ := h wanted before
  exact ⟨records, runOn_mapError hwork⟩

/-- Records add up from step to step. -/
theorem Adds.bind {next : α → Logging ε β} {f : α → Except ε β} (h : Adds work x)
    (hnext : ∀ a, Adds (next a) (f a)) : Adds (work >>= next) (x >>= f) := by
  intro wanted before
  obtain ⟨records, hwork⟩ := h wanted before
  cases x with
  | error e => exact ⟨records, runOn_bind_error hwork⟩
  | ok a =>
    obtain ⟨more, hmore⟩ := hnext a wanted (before ++ records)
    exact ⟨records ++ more, by rw [runOn_bind_ok hwork, hmore, Array.append_assoc]; rfl⟩

/-- What is only logged after work leaves its outcome. -/
theorem Adds.followed {next : α → Logging ε α} (h : Adds work x)
    (hnext : ∀ a, Adds (next a) (.ok a)) : Adds (work >>= next) x := by
  have hbind := h.bind (f := .ok) hnext
  cases x with
  | ok a => exact hbind
  | error e => exact hbind

/-- What is only logged before work leaves its outcome. -/
theorem Adds.after {note : Logging ε Unit} (hnote : Adds note (.ok ())) (h : Adds work x) :
    Adds (note >>= fun _ => work) x :=
  hnote.bind (f := fun _ => x) fun _ => h

/-! ## Registering -/

theorem adds_register (r : Registry) (o : Operator) (category : Categories) (c : Constructor) :
    Adds (register r o category c) (r.register o category c) :=
  (adds_ofExcept _).followed fun r => (adds_log _ _ _).after (adds_pure r)

theorem adds_registerStandard (r : Registry) :
    Adds (registerStandard r) (Registry.registerStandard r) := by
  unfold registerStandard Registry.registerStandard
  induction Operator.all generalizing r with
  | nil => exact adds_pure r
  | cons o rest ih => exact (adds_register r o _ _).bind fun r => ih r

/-! ## Rewriting -/

/-- Strategies of which the first one logs and otherwise does as the second one. -/
def Follows (s : Expr → Logging Error Rewritten) (plain : Strategy) : Prop :=
  ∀ e, Adds (s e) (plain e)

theorem follows_first (rules : List Rule) : Follows (first rules) (Strategy.first rules) :=
  fun _ => (adds_logIf _ _ _ _).after (adds_pure _)

/-- The walk as the steps that the logging one takes. -/
theorem bottomUpFrom_eq_bind (node : Expr) (done : List Expr) (changed : Bool)
    (above : List Frame) :
    Strategy.bottomUpFrom plain ⟨node, done, [], changed⟩ above =
      plain (Frame.rebuilt ⟨node, done, [], changed⟩) >>= fun r =>
        match above with
        | [] => .ok ⟨r.expr, changed || r.changed⟩
        | parent :: above =>
          Strategy.bottomUpFrom plain (parent.push r.expr (changed || r.changed)) above := by
  rw [Strategy.bottomUpFrom]
  cases plain (Frame.rebuilt ⟨node, done, [], changed⟩) <;> rfl

theorem adds_bottomUpFrom (h : Follows s plain) (f : Frame) (above : List Frame) :
    Adds (bottomUpFrom s f above) (Strategy.bottomUpFrom plain f above) := by
  induction f, above using bottomUpFrom.induct with
  | case1 node done v todo changed above ih =>
    rw [bottomUpFrom, Strategy.bottomUpFrom]
    exact ih
  | case2 node done o args c todo changed above ih =>
    rw [bottomUpFrom, Strategy.bottomUpFrom]
    exact ih
  | case3 node done changed above ih =>
    rw [bottomUpFrom, bottomUpFrom_eq_bind]
    refine (h _).bind fun r => ?_
    cases above with
    | nil => exact adds_pure _
    | cons parent above => exact ih r

theorem follows_bottomUp (h : Follows s plain) :
    Follows (bottomUp s) (Strategy.bottomUp plain) := by
  intro e
  unfold bottomUp Strategy.bottomUp
  split
  · exact adds_pure _
  · exact adds_bottomUpFrom h _ _

theorem runPasses_eq_bind (left done : Nat) (e : Expr) :
    Strategy.runPasses plain (left + 1) done e = plain e >>= fun r =>
      if r.changed then Strategy.runPasses plain left (done + 1) r.expr
      else .ok ⟨r.expr, done != 0, done + 1⟩ := by
  rw [Strategy.runPasses]
  cases plain e <;> rfl

theorem adds_runPasses (h : Follows s plain) (trace : Bool) (left done : Nat) (e : Expr) :
    Adds (runPasses s trace left done e) (Strategy.runPasses plain left done e) := by
  induction left generalizing done e with
  | zero => exact adds_throw _
  | succ left ih =>
    rw [runPasses, runPasses_eq_bind]
    refine (h e).bind fun r => ?_
    split
    · exact (adds_logIf _ _ _ _).after (ih _ _)
    · exact (adds_log _ _ _).after (adds_pure _)

/-! ## Compiling -/

theorem compile_eq_bind (c : Compiler) (e : Expr) :
    c.compile e = c.rewrite e >>= fun r =>
      match r.expr with
      | .value v => .ok v
      | stuck => .error stuck.unresolved := by
  rw [Compiler.compile]
  cases c.rewrite e <;> rfl

theorem adds_compile (c : Compiler) (trace : Bool) (e : Expr) :
    Adds (compile c trace e) (c.compile e) := by
  have hrewrite :=
    adds_runPasses (follows_bottomUp (follows_first c.rules)) trace (max c.limit 1) 0 e
  rw [compile_eq_bind]
  refine hrewrite.bind fun r => (adds_log _ _ _).after ?_
  cases r.expr with
  | value v => exact adds_pure v
  | node o args c => exact adds_throw _

theorem adds_compileToQuery (settings : Settings) (e : Expr) :
    Adds (compileToQuery settings e) (Sql.compile (Sql.compiler settings.limit) e) := by
  refine (adds_log _ _ _).after ((adds_compile _ _ _).bind fun v => ?_)
  cases Fragment.ofValue? v with
  | some f => exact (adds_log _ _ _).after (adds_pure f.text)
  | none => exact adds_throw _

theorem adds_compileToValue (settings : Settings) (e : Expr) :
    Adds (compileToValue settings e)
      (((Folding.compiler settings.limit).compile e).map Value.repr) := by
  have hplain : ((Folding.compiler settings.limit).compile e).map Value.repr =
      (Folding.compiler settings.limit).compile e >>= fun v => .ok v.repr := by
    cases (Folding.compiler settings.limit).compile e <;> rfl
  rw [hplain]
  exact (adds_log _ _ _).after
    ((adds_compile _ _ _).bind fun v => (adds_log _ _ _).after (adds_pure _))

end Logging

/-! ## Runs -/

namespace CommandLine

open Logging

/-- The text that an expression is compiled to. -/
def textOf (backend : Backend) (limit : Nat) (e : Expr) : Except Error String :=
  match backend with
  | .sql => Sql.compile (Sql.compiler limit) e
  | .arithmetic => ((Folding.compiler limit).compile e).map Value.repr

/-- What a run with a schema prints and how it ends, apart from what it logs. -/
def outcome (o : Options) (s : Schema) : String × Option Failure :=
  match Expr.parse .standard (some (.table (sourceTable o s))) o.expression with
  | .error err => ("", some (.ofExpression err))
  | .ok e =>
    let explained := if o.explain then e.explain else ""
    match textOf o.backend (max o.limit 1) e with
    | .ok text => (explained ++ text ++ "\n", none)
    | .error err => (explained, some (.ofError err))

theorem outcome_of_text {o : Options} {s : Schema} {e : Expr} {text : String}
    (hread : Expr.parse .standard (some (.table (sourceTable o s))) o.expression = .ok e)
    (htext : textOf o.backend (max o.limit 1) e = .ok text) :
    outcome o s = ((if o.explain then e.explain else "") ++ text ++ "\n", none) := by
  simp only [outcome, hread, htext]

theorem adds_readExpression (o : Options) (s : Schema) :
    Adds (readExpression o s)
      ((Expr.parse .standard (some (.table (sourceTable o s))) o.expression).mapError
        .ofExpression) := by
  have hregistry := (adds_registerStandard .empty).mapError Failure.ofRegistry
  rw [Registry.registerStandard_empty] at hregistry
  exact hregistry.bind fun r => (adds_log _ _ _).after ((adds_ofExcept _).mapError _)

theorem adds_compile (backend : Backend) (settings : Settings) (e : Expr) :
    Adds (compile backend settings e) (textOf backend settings.limit e) := by
  cases backend with
  | sql => exact adds_compileToQuery settings e
  | arithmetic => exact adds_compileToValue settings e

/-- **What a run prints and how it ends does not depend on what it logs.** -/
theorem exists_report_eq (wanted : Filter) (o : Options) (s : Schema) :
    ∃ log, report wanted o s = .done (outcome o s).1 log (outcome o s).2 := by
  obtain ⟨read, hread⟩ := adds_readExpression o s wanted #[]
  unfold report outcome
  rw [hread]
  cases Expr.parse .standard (some (.table (sourceTable o s))) o.expression with
  | error err => exact ⟨_, rfl⟩
  | ok e =>
    let settings := (Settings.default.withLimit o.limit).withTrace o.trace
    obtain ⟨compiled, hcompile⟩ := adds_compile o.backend settings e wanted (#[] ++ read)
    have hlimit : settings.limit = max o.limit 1 := rfl
    rw [hlimit] at hcompile
    simp only [Except.mapError]
    rw [hcompile]
    cases textOf o.backend (max o.limit 1) e <;> exact ⟨_, rfl⟩

end CommandLine

end QueryExpr
