import KnightFront.Analysis.Compilation
import KnightFront.Proofs.Parse.ParsedItem
import Mathlib.Data.List.Forall2

namespace KnightFront

/-!
# Files that have been read

Reading several files reads each of them.  A tree that comes out of this can
be written, and no scope has been opened in it yet.

A text is kept as bytes, and the letters of a long one take long to compute
from them.  A text that is written out has its letters by definition, and one
that is put together has those of its parts.  So a file whose reading is to be
computed is read from the letters that its text is spelled by.
-/

/-- Whether a text consists of the given letters. -/
def SpelledBy (text : String) (letters : List Char) : Prop := text = String.ofList letters

namespace SpelledBy

variable {text other : String} {letters others : List Char}

theorem literal : SpelledBy (String.ofList letters) letters := rfl

theorem append (first : SpelledBy text letters) (second : SpelledBy other others) :
    SpelledBy (text ++ other) (letters ++ others) := by
  rw [SpelledBy, first, second, String.ofList_append]

theorem toList (spelled : SpelledBy text letters) : text.toList = letters := by
  rw [spelled, String.toList_ofList]

theorem tokenize (spelled : SpelledBy text letters) (file : String) :
    KnightFront.tokenize file text = tokensFrom (.start file) letters := by
  rw [KnightFront.tokenize, spelled.toList]

end SpelledBy

namespace Program

/-- The program of a file with the given letters, or its first fault. -/
def ofLetters (file : String) (letters : List Char) : Except ParseFailure Program :=
  match tokensFrom (.start file) letters with
  | .error fault => .error (.fault fault)
  | .ok tokens => ofTokens file tokens

theorem ofSource_eq_ofLetters {source : String} {letters : List Char}
    (spelled : SpelledBy source letters) (file : String) :
    ofSource file source = ofLetters file letters := by
  rw [ofSource, spelled.tokenize]
  rfl

end Program

/-- A member on the right of two lists that are related place by place is
related to a member on the left. -/
theorem exists_of_mem_forall₂ {α β : Type} {relation : α → β → Prop} {left : List α}
    {right : List β} (related : List.Forall₂ relation left right) {member : β}
    (inside : member ∈ right) : ∃ partner ∈ left, relation partner member := by
  induction related with
  | nil => cases inside
  | @cons first second leftRest rightRest holds _ inductionHypothesis =>
      rcases List.mem_cons.mp inside with same | later
      · exact ⟨first, List.mem_cons_self, same ▸ holds⟩
      · rcases inductionHypothesis later with ⟨partner, present, holds⟩
        exact ⟨partner, List.mem_cons_of_mem _ present, holds⟩

/-- Whether reading files gives programs that pass a test. -/
def readWith (test : List Program → Bool) (files : List SourceFile) : Bool :=
  match readFiles files with
  | .ok programs => test programs
  | .error _ => false

theorem exists_of_readWith {test : List Program → Bool} {files : List SourceFile}
    (passes : readWith test files = true) :
    ∃ programs, readFiles files = .ok programs ∧ test programs = true := by
  unfold readWith at passes
  split at passes
  · next programs read => exact ⟨programs, read, passes⟩
  · cases passes

/-- Read files in order from their letters, up to the first failure. -/
def readLetters (files : List (SourceFile × List Char)) : Except ParseFailure (List Program) :=
  files.mapM fun file => Program.ofLetters file.1.name file.2

theorem readFiles_eq_readLetters {files : List SourceFile} {letters : List (List Char)}
    (spelled : List.Forall₂ (fun file => SpelledBy file.text) files letters) :
    readFiles files = readLetters (files.zip letters) := by
  unfold readFiles readLetters
  induction spelled with
  | nil => rfl
  | cons first _ inductionHypothesis =>
      have read := Program.ofSource_eq_ofLetters first
      rw [List.zip_cons_cons, List.mapM_cons, List.mapM_cons]
      rw [read, inductionHypothesis]

/-- A test of what is read can be made on the letters. -/
theorem readWith_of_letters {test : List Program → Bool} {files : List SourceFile}
    {letters : List (List Char)}
    (spelled : List.Forall₂ (fun file => SpelledBy file.text) files letters)
    (passes : (readLetters (files.zip letters)).toOption.any test = true) :
    readWith test files = true := by
  rw [readWith, readFiles_eq_readLetters spelled]
  cases read : readLetters (files.zip letters) with
  | error failure => rw [read] at passes; cases passes
  | ok programs => rw [read] at passes; exact passes

/-- Each program comes from the file at its place. -/
theorem forall₂_of_readFiles {files : List SourceFile} {programs : List Program}
    (read : readFiles files = .ok programs) :
    List.Forall₂ (fun file program => Program.ofSource file.name file.text = .ok program) files
      programs := by
  unfold readFiles at read
  induction files generalizing programs with
  | nil => cases read; exact .nil
  | cons first rest inductionHypothesis =>
      rw [List.mapM_cons] at read
      cases firstRead : Program.ofSource first.name first.text with
      | error failure => rw [firstRead] at read; cases read
      | ok program =>
          rw [firstRead] at read
          cases restRead : rest.mapM fun file => Program.ofSource file.name file.text with
          | error failure => rw [restRead] at read; cases read
          | ok others =>
              rw [restRead] at read
              cases read
              exact .cons firstRead (inductionHypothesis restRead)

/-- Every file has a tree of its own, and reading the files gives these
trees. -/
theorem exists_tree_of_readFiles {files : List SourceFile} {programs : List Program}
    (read : readFiles files = .ok programs) :
    ∃ tree : SourceFile → Program,
      (∀ file ∈ files, Program.ofSource file.name file.text = .ok (tree file)) ∧
        programs = files.map tree := by
  let tree (file : SourceFile) : Program :=
    (Program.ofSource file.name file.text).toOption.getD default
  have own {file : SourceFile} {program : Program}
      (accepted : Program.ofSource file.name file.text = .ok program) : program = tree file := by
    simp [tree, accepted, Except.toOption]
  refine ⟨tree, ?_⟩
  have related := forall₂_of_readFiles read
  clear read
  induction related with
  | nil => exact ⟨by simp, rfl⟩
  | cons accepted _ inductionHypothesis =>
      rw [List.forall_mem_cons, List.map_cons, ← own accepted]
      exact ⟨⟨accepted, inductionHypothesis.1⟩, congrArg _ inductionHypothesis.2⟩

theorem readFiles_of_tree {files : List SourceFile} {tree : SourceFile → Program}
    (each : ∀ file ∈ files, Program.ofSource file.name file.text = .ok (tree file)) :
    readFiles files = .ok (files.map tree) := by
  unfold readFiles
  induction files with
  | nil => rfl
  | cons first rest inductionHypothesis =>
      rw [List.forall_mem_cons] at each
      rw [List.mapM_cons, each.1, inductionHypothesis each.2]
      rfl

/-- What holds of every tree that is read from one file holds of all. -/
theorem forall_of_readFiles {files : List SourceFile} {programs : List Program}
    {property : Program → Prop} (read : readFiles files = .ok programs)
    (each : ∀ {file source : String} {program : Program},
      Program.ofSource file source = .ok program → property program) :
    ∀ program ∈ programs, property program := by
  intro program member
  rcases exists_of_mem_forall₂ (forall₂_of_readFiles read) member with ⟨file, _, accepted⟩
  exact each accepted

/-- A program that has just been read has no scopes. -/
theorem Program.scopes_ofTokens {file : String} {tokens : List Token} {program : Program}
    (accepted : ofTokens file tokens = .ok program) : program.scopes = [] := by
  unfold ofTokens at accepted
  split at accepted
  · cases accepted
  · cases accepted
    rfl

/-- A file that has just been read has no scopes. -/
theorem Program.scopes_ofSource {file source : String} {program : Program}
    (accepted : ofSource file source = .ok program) : program.scopes = [] := by
  unfold ofSource at accepted
  split at accepted
  · cases accepted
  · exact scopes_ofTokens accepted

end KnightFront
