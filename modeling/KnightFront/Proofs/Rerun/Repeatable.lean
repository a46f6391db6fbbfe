import KnightFront.Proofs.Rerun.Checked
import KnightFront.Proofs.Rerun.Objects
import KnightFront.Proofs.Rerun.Shifted

namespace KnightFront

/-!
# Passes can be repeated

However often the passes run over a program, they report what they reported the first
time and leave bindings and types alone.  Resolving puts one more copy of the program's
scopes behind those that it has already.  An object that runs a pass over several
programs gives each of them what a new object gives it.
-/

theorem Reported.map_eq {α β : Type} (change : α → β) (done : Reported α) :
    change <$> done = ⟨change done.value, done.findings⟩ :=
  ext rfl (List.append_nil done.findings)

/-- The passes that write into a tree. -/
inductive Pass where
  | resolve
  | check
deriving DecidableEq, Repr

/-- Run a pass over a program. -/
def Pass.run (model : SymbolModel) : Pass → Program → Reported Program
  | resolve => Program.resolve model
  | check => Program.check model

/-- A program after more passes. -/
def Program.afterPasses (model : SymbolModel) (program : Program) (passes : List Pass) : Program :=
  passes.foldl (fun program pass => (pass.run model program).value) program

theorem Program.afterPasses_cons (model : SymbolModel) (program : Program) (pass : Pass)
    (rest : List Pass) :
    program.afterPasses model (pass :: rest) =
      (pass.run model program).value.afterPasses model rest := rfl

/-- A program that resolving leaves as it is. -/
def Program.Fixed (model : SymbolModel) (findings : List Finding) (program : Program) : Prop :=
  Program.resolve model { program with scopes := [] } = ⟨program, findings⟩

namespace Program

variable {model : SymbolModel} {program : Program}

/-- A program without scopes has been resolved. -/
theorem fixed_resolve (fresh : program.scopes = []) :
    (program.resolve model).value.Fixed model (program.resolve model).findings := by
  have again := resolve_again model program
  rwa [fresh] at again

/-- A program without scopes has been resolved and then checked. -/
theorem fixed_check (fresh : program.scopes = []) :
    ((program.resolve model).value.check model).value.Fixed model
      (program.resolve model).findings := by
  have again := resolve_checked model program
  rwa [fresh] at again

/-- Resolving puts a copy of the scopes behind all scopes, and changes nothing else. -/
theorem Fixed.resolve_behind {findings : List Finding} (fixed : program.Fixed model findings)
    (front : List Scope) :
    (program.behind front).resolve model =
      ⟨program.behind (program.behind front).scopes, findings⟩ := by
  let scopes := (program.behind front).scopes
  -- The indices in the tree are written over, so only the scopes in front matter.
  have written : (program.behind front).resolve model =
      Program.resolve model { program with scopes } := by
    simp only [Program.resolve, behind, Resolution.resolveItems_shifted, scopes]
  have moved := Program.resolve_behind scopes model { program with scopes := [] }
  rw [Scopes.behind_nil, fixed] at moved
  rw [written, moved, Reported.map_eq]

/-- Passes only put scopes in front. -/
theorem exists_afterPasses {findings : List Finding} {checked : Reported Program}
    (fixed : program.Fixed model findings) (checkedFixed : checked.value.Fixed model findings)
    (first : program.check model = checked) (second : checked.value.check model = checked)
    (passes : List Pass) (front : List Scope) :
    ∃ more, (program.behind front).afterPasses model passes =
      (if .check ∈ passes then checked.value else program).behind more := by
  induction passes generalizing program front with
  | nil => exact ⟨front, rfl⟩
  | cons pass rest inductionHypothesis =>
      cases pass with
      | resolve =>
          have resolved : (Pass.resolve.run model (program.behind front)).value = _ :=
            congrArg Reported.value (fixed.resolve_behind front)
          rcases inductionHypothesis fixed first (program.behind front).scopes with ⟨more, same⟩
          refine ⟨more, ?_⟩
          rw [afterPasses_cons, resolved, same]
          simp
      | check =>
          have typed : (Pass.check.run model (program.behind front)).value =
              checked.value.behind front := by
            rw [Pass.run, check_behind, first, Reported.map_eq]
          rcases inductionHypothesis checkedFixed second front with ⟨more, same⟩
          refine ⟨more, ?_⟩
          rw [afterPasses_cons, typed, same]
          simp

/-- However often the passes have run, resolving reports what it reported the first time
and leaves names and types as they are; it puts a copy of the scopes that it opened the
first time behind all scopes.  Checking reports what it reported the first time and finds
the same types.  An object gives each of several programs what a new object gives it. -/
theorem passes_repeat {file : String} {tokens : List Token}
    (parsed : ofTokens file tokens = .ok program) (model : SymbolModel) :
    let resolved := program.resolve model
    let checked := resolved.value.check model
    (∀ passes : List Pass,
      let again := resolved.value.afterPasses model passes
      let bound := if .check ∈ passes then checked.value else resolved.value
      ∃ front, again = bound.behind front ∧
        again.resolve model = ⟨bound.behind again.scopes, resolved.findings⟩ ∧
        again.check model = ⟨checked.value.behind front, checked.findings⟩) ∧
    (∀ programs : List Program,
      (programs.mapM NameResolver.resolveProgram { model }).1 =
        programs.map (fun program => (NameResolver.resolveProgram program { model }).1) ∧
      (programs.mapM TypeChecker.checkProgram { model }).1 =
        programs.map (fun program => (TypeChecker.checkProgram program { model }).1)) ∧
    ∀ program : Program,
      (NameResolver.resolveProgram program { model }).1 = (program.resolve model).outcome ∧
      (TypeChecker.checkProgram program { model }).1 = (program.check model).outcome := by
  intro resolved checked
  have fresh := scopes_ofTokens parsed
  have bound : resolved.value.Fixed model resolved.findings := fixed_resolve fresh
  have typed : checked.value.Fixed model resolved.findings := fixed_check fresh
  have checkedAgain : checked.value.check model = checked := repeats_check model resolved.value
  have resolvesAlone (subject : Program) := NameResolver.resolveProgram_of_atRest subject { model }
    (NameResolver.atRest_new model)
  have checksAlone (subject : Program) := TypeChecker.checkProgram_of_atRest subject { model }
    (TypeChecker.atRest_new model)
  refine ⟨fun passes => ?_, fun programs => ⟨?_, ?_⟩, fun subject =>
    ⟨(resolvesAlone subject).1, (checksAlone subject).1⟩⟩
  · rcases exists_afterPasses bound typed rfl checkedAgain passes [] with ⟨front, same⟩
    rw [behind_nil] at same
    refine ⟨front, same, ?_, ?_⟩
    · rw [same]
      split
      · exact typed.resolve_behind front
      · exact bound.resolve_behind front
    · rw [same, check_behind, Reported.map_eq]
      split
      · rw [checkedAgain]
      · rfl
  · rw [mapM_of_atRest NameResolver.resolveProgram_of_atRest programs (NameResolver.atRest_new model)]
    exact List.map_congr_left fun subject _ => (resolvesAlone subject).1.symm
  · rw [mapM_of_atRest TypeChecker.checkProgram_of_atRest programs (TypeChecker.atRest_new model)]
    exact List.map_congr_left fun subject _ => (checksAlone subject).1.symm

/-- The tokens of `fn f(int n): void { int x = y; }`. -/
def undefinedName : List Token :=
  [⟨.fnWord, "fn", .nowhere⟩, ⟨.identifier, "f", .nowhere⟩, ⟨.openParen, "(", .nowhere⟩,
    ⟨.intWord, "int", .nowhere⟩, ⟨.identifier, "n", .nowhere⟩, ⟨.closeParen, ")", .nowhere⟩,
    ⟨.colon, ":", .nowhere⟩, ⟨.voidWord, "void", .nowhere⟩, ⟨.openCurly, "\x7b", .nowhere⟩,
    ⟨.intWord, "int", .nowhere⟩, ⟨.identifier, "x", .nowhere⟩, ⟨.assignment, "=", .nowhere⟩,
    ⟨.identifier, "y", .nowhere⟩, ⟨.semicolon, ";", .nowhere⟩, ⟨.closeCurly, "\x7d", .nowhere⟩]

/-- The undefined name is reported once by each pass, and two scopes are opened. -/
theorem passes_repeat_undefinedName :
    ∃ program, ofTokens "" undefinedName = .ok program ∧
      (program.resolve .withBuiltins).findings.length = 1 ∧
      (program.resolve .withBuiltins).value.scopes.length = 2 ∧
      ∃ again : Program,
        again = (program.resolve .withBuiltins).value.afterPasses .withBuiltins [.check, .resolve] ∧
        (again.resolve .withBuiltins).findings = (program.resolve .withBuiltins).findings ∧
        (again.check .withBuiltins).findings =
          ((program.resolve .withBuiltins).value.check .withBuiltins).findings ∧
        ([program, again].mapM NameResolver.resolveProgram { model := .withBuiltins }).1 =
          [(program.resolve .withBuiltins).outcome, (again.resolve .withBuiltins).outcome] := by
  have size : (ofTokens "" undefinedName).toOption.map (fun program =>
      ((program.resolve .withBuiltins).findings.length,
        (program.resolve .withBuiltins).value.scopes.length)) = some (1, 2) := by
    decide +kernel
  cases read : ofTokens "" undefinedName with
  | error failure => rw [read] at size; cases size
  | ok program =>
      rw [read] at size
      rcases passes_repeat read .withBuiltins with ⟨passes, inTurn, alone⟩
      rcases passes [.check, .resolve] with ⟨front, same, resolves, checks⟩
      rcases Prod.ext_iff.mp (Option.some.inj size) with ⟨one, two⟩
      refine ⟨program, rfl, one, two, _, rfl, by rw [resolves], by rw [checks], ?_⟩
      calc
        ([program, _].mapM NameResolver.resolveProgram { model := .withBuiltins }).1 =
            [(program.resolve .withBuiltins).outcome, _] := by
          rw [(inTurn _).1, List.map_cons, List.map_cons, (alone _).1, (alone _).1]
          rfl

end Program

end KnightFront
