import KnightFront.Proofs.Foresight.FirstFault
import KnightFront.Proofs.Relabelling.Layout
import KnightFront.Proofs.Report.Lines

namespace KnightFront

/-!
# Every report shows its line

Whatever is reported is reported where a token begins, where the input ends, or
where no token could be cut off.  These are places in the text of one of the files, so
the file has the line that a report names, and the caret points at the character there.
-/

/-- A place in the text of a file. -/
def SourceFile.HasPlace (file : SourceFile) (place : Position) : Prop :=
  ∃ front, front <+: file.text.toList ∧ place = (Position.start file.name).after front

/-- A place behind a lexeme is a place of the whole text. -/
theorem Lexeme.exists_front {input : List Char} (lexeme : Lexeme input) {position place : Position}
    (behind : ∃ front, front <+: lexeme.rest ∧ place = (position.after lexeme.text).after front) :
    ∃ front, front <+: input ∧ place = position.after front := by
  rcases behind with ⟨front, within, rfl⟩
  refine ⟨lexeme.text ++ front, ?_, (Position.after_append _ _ _).symm⟩
  have whole := (List.prefix_append_right_inj lexeme.text).mpr within
  rwa [lexeme.text_append_rest] at whole

/-- Tokens begin at places of the text. -/
theorem exists_front_of_tokensFrom {position : Position} {text : List Char} {tokens : List Token}
    (read : tokensFrom position text = .ok tokens) :
    ∀ token ∈ tokens, ∃ front, front <+: text ∧ token.span.start = position.after front := by
  fun_induction tokensFrom position text generalizing tokens with
  | case1 position =>
      cases read
      simp [Token.endOfInput, Span.empty]
  | case2 | case3 => cases read
  | case4 position head tail lexeme =>
      rename_i rest _ inductionHypothesis
      cases read
      exact fun token among => lexeme.exists_front (inductionHypothesis rest token among)
  | case5 position head tail lexeme =>
      rename_i rest _ _ _ inductionHypothesis
      cases read
      intro token among
      rcases List.mem_cons.mp among with rfl | later
      · exact ⟨[], List.nil_prefix, rfl⟩
      · exact lexeme.exists_front (inductionHypothesis rest token later)

/-- A fault of cutting is at a place of the text. -/
theorem exists_front_of_fault {position : Position} {text : List Char} {fault : SyntaxFault}
    (failed : tokensFrom position text = .error fault) :
    ∃ front, front <+: text ∧ fault.position = position.after front := by
  fun_induction tokensFrom position text with
  | case1 | case4 | case5 => cases failed
  | case2 position head tail cause =>
      cases failed
      exact ⟨[], List.nil_prefix, rfl⟩
  | case3 position head tail lexeme =>
      rename_i other inductionHypothesis
      cases failed
      exact lexeme.exists_front (inductionHypothesis other)

/-- Every token of a closed list is one of the list, the end of input included. -/
theorem tokenAt_mem {tokens : List Token} {final : Token} (last : tokens.getLast? = some final)
    (closed : final.kind = .eof) (index : Nat) : tokenAt tokens index ∈ tokens := by
  rcases Nat.lt_or_ge index tokens.length with inside | outside
  · rw [tokenAt_of_lt inside]
    exact List.getElem_mem inside
  · rw [tokenAt_of_length_le outside]
    simpa [TokenStream.ofTokens, last, closed] using List.mem_of_getLast? last

/-- A file that cannot be read has a fault at a place of its text. -/
theorem SourceFile.exists_fault {file : SourceFile} {failure : ParseFailure}
    (failed : Program.ofSource file.name file.text = .error failure) :
    ∃ fault, failure = .fault fault ∧ file.HasPlace fault.position := by
  unfold Program.ofSource at failed
  cases read : tokenize file.name file.text with
  | error fault =>
      rw [read] at failed
      cases failed
      exact ⟨fault, rfl, exists_front_of_fault read⟩
  | ok tokens =>
      rw [read] at failed
      rcases Program.ofTokens_isOk_or_fault file.name tokens with ⟨program, parsed⟩ | ⟨fault, stopped⟩
      · simp [parsed] at failed
      · cases stopped.symm.trans failed
        rcases Program.fault_of_alike stopped tokens 0 (by simp) with ⟨about, -, position, -⟩
        rcases exists_endOfInput_of_tokensFrom read with ⟨final, last, closed⟩
        refine ⟨fault, rfl, ?_⟩
        rw [position]
        exact exists_front_of_tokensFrom read _ (tokenAt_mem last closed about)

/-- Files that cannot be read have a fault at a place of one of their texts. -/
theorem exists_fault_of_readFiles {files : List SourceFile} {failure : ParseFailure}
    (failed : readFiles files = .error failure) :
    ∃ fault, failure = .fault fault ∧ ∃ file ∈ files, file.HasPlace fault.position := by
  unfold readFiles at failed
  induction files with
  | nil => cases failed
  | cons first rest inductionHypothesis =>
      rw [List.mapM_cons] at failed
      cases firstRead : Program.ofSource first.name first.text with
      | error other =>
          rw [firstRead] at failed
          cases failed
          rcases first.exists_fault firstRead with ⟨fault, rfl, place⟩
          exact ⟨fault, rfl, first, List.mem_cons_self, place⟩
      | ok program =>
          rw [firstRead] at failed
          cases restRead : rest.mapM fun file => Program.ofSource file.name file.text with
          | ok others => rw [restRead] at failed; cases failed
          | error other =>
              rw [restRead] at failed
              cases failed
              rcases inductionHypothesis restRead with ⟨fault, rfl, file, among, place⟩
              exact ⟨fault, rfl, file, List.mem_cons_of_mem _ among, place⟩

/-- Tokens of a file begin at its places. -/
theorem SourceFile.hasPlace_of_mem_starts {file : SourceFile} {place : Position}
    (among : place ∈ file.starts) : file.HasPlace place := by
  unfold starts at among
  split at among
  · next tokens read =>
      rcases List.mem_map.mp among with ⟨token, member, rfl⟩
      exact exists_front_of_tokensFrom read token member
  · cases among

/-- What is reported of files is reported where one of their tokens begins. -/
theorem hasPlace_of_mem_entries {files : List SourceFile}
    (distinct : (files.map SourceFile.name).Nodup) {programs : List Program}
    (read : readFiles files = .ok programs) (options : Options) :
    ∀ diagnostic ∈ (analyse options programs).log.entries,
      ∃ file ∈ files, file.HasPlace diagnostic.position := by
  intro diagnostic among
  have same : List.Forall₂ SourceFile.SameTokens files files := by
    refine List.forall₂_same.mpr fun file member => ?_
    rcases exists_tree_of_readFiles read with ⟨tree, accepted, -⟩
    rcases exists_tokenize_of_ofSource (accepted file member) with ⟨tokens, cut⟩
    exact ⟨rfl, tokens, tokens, cut, cut, rfl⟩
  rcases SourceFile.exists_opening distinct with ⟨opening, opens⟩
  -- Nothing is moved: the two layouts that are compared are one and the same.
  have still : (files.flatMap SourceFile.starts).map (Equiv.refl Position) =
      files.flatMap SourceFile.starts := List.map_id _
  have entries := forall₂_entries_of_findings distinct same options
    (forall₂_findingsOf same opens still read read _)
  rcases exists_of_mem_forall₂ entries among with ⟨other, -, alike⟩
  rcases alike.position with ⟨-, file, i, k, -, inFiles, -, begins⟩
  exact ⟨file, List.mem_of_getElem? inFiles,
    file.hasPlace_of_mem_starts (List.mem_of_getElem? begins)⟩

/-- A report about files, made from the text of the file that a position names, shows
the line of the position and points at the character there. -/
structure PointsInto (files : List SourceFile) (position : Position)
    (report : String → String) : Prop where
  named : ∃ file ∈ files, file.name = position.file ∧ textOf files position.file = file.text
  pictured : ∃ line, sourceLine? (textOf files position.file) position.line = some line ∧
    Nonempty (Report.Picture (report (textOf files position.file)) position line)

/-- Of files with different names, a name gives the text of its file. -/
theorem textOf_of_mem {files : List SourceFile} (distinct : (files.map SourceFile.name).Nodup)
    {file : SourceFile} (member : file ∈ files) : textOf files file.name = file.text := by
  have found : files.find? (·.name == file.name) = some file := by
    induction files with
    | nil => cases member
    | cons first rest inductionHypothesis =>
        rw [List.map_cons, List.nodup_cons] at distinct
        rcases List.mem_cons.mp member with rfl | later
        · simp
        · have other : first.name ≠ file.name := fun same =>
            distinct.1 (same ▸ List.mem_map_of_mem later)
          rw [List.find?_cons_of_neg (by simpa using other)]
          exact inductionHypothesis distinct.2 later
  simp [textOf, found]

theorem pointsInto_of_hasPlace {files : List SourceFile}
    (distinct : (files.map SourceFile.name).Nodup) {position : Position}
    (placed : ∃ file ∈ files, file.HasPlace position) (heading : String) :
    PointsInto files position (Report.render heading position) := by
  rcases placed with ⟨file, member, front, within, rfl⟩
  have named : ((Position.start file.name).after front).file = file.name :=
    Position.file_after _ _
  have text : textOf files ((Position.start file.name).after front).file = file.text := by
    rw [named, textOf_of_mem distinct member]
  rcases exists_sourceLine within file.name with ⟨line, found⟩
  refine ⟨⟨file, member, named.symm, text⟩, line, ?_⟩
  rw [text]
  exact ⟨found, Report.picture_render heading found⟩

/-- A file with a character on its second line that begins no token. -/
def strayCharacter : List SourceFile := [⟨"main.knight", "int x = 1;\n  int y = #;\n"⟩]

/-- A file in which a name is declared again on the second line. -/
def repeatedName : List SourceFile := [⟨"main.knight", "int x;\n\tint x;"⟩]

end KnightFront
