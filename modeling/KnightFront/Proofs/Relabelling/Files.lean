import KnightFront.Proofs.Analysis.Reading
import KnightFront.Proofs.Relabelling.Passes
import KnightFront.Proofs.Relabelling.Programs
import KnightFront.Proofs.Token.Lexed
import KnightFront.Proofs.Token.Places

namespace KnightFront

/-!
# Files whose tokens are relabelled alike

Two files need not have the same tokens to be read alike: it is enough that a
relabelling of the one and a relabelling of the other have them in common.  The
trees that are read are then the same when they are relabelled, and so are the
failures.
-/

/-- A file that can be read has tokens. -/
theorem exists_tokenize_of_ofSource {file source : String} {program : Program}
    (read : Program.ofSource file source = .ok program) :
    ∃ tokens, tokenize file source = .ok tokens := by
  unfold Program.ofSource at read
  split at read
  · cases read
  · next tokens tokenized => exact ⟨tokens, tokenized⟩

/-- What reading comes to, relabelled. -/
def Relabelling.outcome {α : Type} (change : Relabelling) (relabel : α → α)
    (outcome : Except ParseFailure α) : Except ParseFailure α :=
  (outcome.map relabel).mapError (ParseFailure.relabel change)

@[simp]
theorem Relabelling.outcome_ok {α : Type} (change : Relabelling) (relabel : α → α) (value : α) :
    change.outcome relabel (.ok value) = .ok (relabel value) := rfl

@[simp]
theorem Relabelling.outcome_error {α : Type} (change : Relabelling) (relabel : α → α)
    (failure : ParseFailure) :
    change.outcome relabel (.error failure) = .error (failure.relabel change) := rfl

/-- A relabelling that moves the beginning of a file to one place, whether it
counts as the beginning or the end of something. -/
def Relabelling.Opens (change : Relabelling) (tokens : List Token) : Prop :=
  ∀ first ∈ tokens.head?, change.finish first.span.start = change.start first.span.start

variable {first second : Relabelling}

/-- Files with relabelled tokens in common are read alike. -/
theorem Program.outcome_ofSource {file source source' : String} {tokens tokens' : List Token}
    (read : tokenize file source = .ok tokens) (read' : tokenize file source' = .ok tokens')
    (opens : first.Opens tokens) (opens' : second.Opens tokens')
    (same : tokens'.map (Token.relabel second) = tokens.map (Token.relabel first)) :
    second.outcome (relabel second) (ofSource file source') =
      first.outcome (relabel first) (ofSource file source) := by
  obtain ⟨final, last, closed⟩ := exists_endOfInput_of_tokensFrom read
  obtain ⟨final', last', closed'⟩ := exists_endOfInput_of_tokensFrom read'
  have tree := ofTokens_relabel file last closed opens
  have tree' := ofTokens_relabel file last' closed' opens'
  rw [same, tree] at tree'
  simp only [ofSource, read, read']
  exact tree'.symm

/-- Files that are read alike one by one are read alike together. -/
theorem outcome_readFiles {files files' : List SourceFile}
    (alike : List.Forall₂ (fun file file' =>
      second.outcome (Program.relabel second) (Program.ofSource file'.name file'.text) =
        first.outcome (Program.relabel first) (Program.ofSource file.name file.text)) files files') :
    second.outcome (List.map (Program.relabel second)) (readFiles files') =
      first.outcome (List.map (Program.relabel first)) (readFiles files) := by
  unfold readFiles
  induction alike with
  | nil => rfl
  | @cons file file' rest rest' head _ inductionHypothesis =>
      rw [List.mapM_cons, List.mapM_cons]
      cases read : Program.ofSource file.name file.text with
      | error failure =>
          cases read' : Program.ofSource file'.name file'.text with
          | error failure' => simpa [read, read', bind, Except.bind] using head
          | ok program' => simp [read, read'] at head
      | ok program =>
          cases read' : Program.ofSource file'.name file'.text with
          | error failure' => simp [read, read'] at head
          | ok program' =>
              have trees : program'.relabel second = program.relabel first := by
                simpa [read, read'] using head
              revert inductionHypothesis
              cases rest.mapM fun file => Program.ofSource file.name file.text <;>
                cases rest'.mapM fun file => Program.ofSource file.name file.text <;>
                  intro inductionHypothesis
              · simpa [bind, Except.bind] using inductionHypothesis
              · simp at inductionHypothesis
              · simp at inductionHypothesis
              · simpa [trees, bind, Except.bind, pure, Except.pure] using inductionHypothesis

end KnightFront
