import KnightFront.Proofs.Relabelling.Files
import Mathlib.Data.Fintype.EquivFin
import Mathlib.Logic.Equiv.Basic

namespace KnightFront

/-!
# Layout

White space and comments decide where tokens stand and nothing else.  Two files
with the same tokens are read and analysed alike, and whatever is said of a place
in the one is said of the corresponding place in the other.

Tokens of one layout are moved to those of the other by a permutation of all
places, so that nothing falls together that stands apart.  As the outcome is the
same for every permutation that moves the tokens, it can only speak of places at
which tokens begin.
-/

section Moves

variable {α : Type} [DecidableEq α] {list others : List α}

/-- Distinct things can be moved to as many distinct things by a permutation. -/
theorem exists_perm_map (distinct : list.Nodup) (distinct' : others.Nodup)
    (lengths : list.length = others.length) : ∃ move : Equiv.Perm α, list.map move = others := by
  induction list generalizing others with
  | nil => exact ⟨Equiv.refl α, (List.length_eq_zero_iff.mp lengths.symm).symm⟩
  | cons first rest inductionHypothesis =>
      cases others with
      | nil => cases lengths
      | cons other others =>
          rw [List.nodup_cons] at distinct distinct'
          obtain ⟨move, moved⟩ :=
            inductionHypothesis distinct.2 distinct'.2 (Nat.succ_injective lengths)
          -- What the first thing would be moved to is exchanged for what it must be moved to.
          refine ⟨move.trans (Equiv.swap (move first) other), ?_⟩
          rw [List.map_cons, ← moved]
          congr 1
          · simp
          · refine List.map_congr_left fun thing member => ?_
            have unlike : move thing ≠ move first :=
              move.injective.ne fun same => distinct.1 (same ▸ member)
            have unlike' : move thing ≠ other := fun same =>
              distinct'.1 (same ▸ moved ▸ List.mem_map_of_mem member)
            exact Equiv.swap_apply_of_ne_of_ne unlike unlike'

/-- Only what is on a list is moved to one thing by every permutation that moves
the list to another. -/
theorem mem_of_forall_perm [Infinite α] {thing thing' : α} {move : Equiv.Perm α}
    (moves : list.map move = others)
    (always : ∀ move : Equiv.Perm α, list.map move = others → move thing = thing') :
    thing ∈ list := by
  by_contra missing
  obtain ⟨fresh, isFresh⟩ := Infinite.exists_notMem_finset (insert thing list.toFinset)
  rw [Finset.mem_insert, List.mem_toFinset, not_or] at isFresh
  have others : list.map ((Equiv.swap thing fresh).trans move) = others := by
    rw [← moves]
    refine List.map_congr_left fun member present => congrArg move ?_
    exact Equiv.swap_apply_of_ne_of_ne (fun same => missing (same ▸ present))
      fun same => isFresh.2 (same ▸ present)
  have same : move fresh = move thing := by
    rw [always move moves, ← always _ others, Equiv.trans_apply, Equiv.swap_apply_left]
  exact isFresh.1 (move.injective same)

end Moves

/-- The places at which the tokens of a file begin. -/
def SourceFile.starts (file : SourceFile) : List Position :=
  match tokenize file.name file.text with
  | .ok tokens => tokens.map fun token => token.span.start
  | .error _ => []

/-- A file of the same name with the same tokens, which may stand elsewhere. -/
structure SourceFile.SameTokens (file other : SourceFile) : Prop where
  name : other.name = file.name
  tokens : ∃ tokens tokens', tokenize file.name file.text = .ok tokens ∧
    tokenize other.name other.text = .ok tokens' ∧
    tokens'.map Token.content = tokens.map Token.content

/-- Two places at which corresponding tokens begin: the tokens of one number in
the files of one number. -/
def TokensAt (files others : List SourceFile) (place place' : Position) : Prop :=
  ∃ (file other : SourceFile) (i k : Nat), files[i]? = some file ∧ others[i]? = some other ∧
    file.starts[k]? = some place ∧ other.starts[k]? = some place'

instance : Infinite Position :=
  Infinite.of_injective (fun line => ⟨line, 0, ""⟩) fun _ _ same => congrArg Position.line same

namespace SourceFile

variable {file other : SourceFile}

theorem starts_of_tokenize {tokens : List Token}
    (read : tokenize file.name file.text = .ok tokens) :
    file.starts = tokens.map fun token => token.span.start := by
  simp [starts, read]

/-- Tokens begin in the file, one behind the other. -/
theorem starts_inOrder (file : SourceFile) :
    file.starts.Pairwise Position.Precedes ∧ ∀ place ∈ file.starts, place.file = file.name := by
  unfold starts
  split
  · next tokens read =>
      have inOrder := inOrder_tokensFrom read
      exact ⟨List.pairwise_map.mpr inOrder.ordered, List.forall_mem_map.mpr inOrder.begins⟩
  · exact ⟨List.Pairwise.nil, nofun⟩

/-- In files of different names, no two tokens begin at one place. -/
theorem nodup_starts {files : List SourceFile} (distinct : (files.map name).Nodup) :
    (files.flatMap starts).Nodup := by
  refine List.nodup_flatMap.mpr ⟨fun file _ => ?_, ?_⟩
  · exact (starts_inOrder file).1.imp fun before => before.ne
  · refine (List.pairwise_map.mp distinct).imp fun {file other} unlike place here there => ?_
    exact unlike (((starts_inOrder file).2 place here).symm.trans ((starts_inOrder other).2 place there))

/-- Tokens of lower numbers stand in front. -/
theorem precedes_of_lt {file : SourceFile} {first second : Position} {k l : Nat}
    (token : file.starts[k]? = some first) (later : file.starts[l]? = some second) (before : k < l) :
    first.Precedes second := by
  obtain ⟨inside, rfl⟩ := List.getElem?_eq_some_iff.mp token
  obtain ⟨inside', rfl⟩ := List.getElem?_eq_some_iff.mp later
  exact List.pairwise_iff_getElem.mp (starts_inOrder file).1 k l inside inside' before

theorem SameTokens.length_starts (same : file.SameTokens other) :
    file.starts.length = other.starts.length := by
  obtain ⟨tokens, tokens', read, read', contents⟩ := same.tokens
  rw [starts_of_tokenize read, starts_of_tokenize read', List.length_map, List.length_map]
  simpa using (congrArg List.length contents).symm

/-- What moves all tokens moves the tokens of each file. -/
theorem forall₂_map_starts {files others : List SourceFile}
    (same : List.Forall₂ SameTokens files others) {move : Position → Position}
    (moves : (files.flatMap starts).map move = others.flatMap starts) :
    List.Forall₂ (fun file other => file.SameTokens other ∧ file.starts.map move = other.starts)
      files others := by
  induction same with
  | nil => exact .nil
  | cons head _ inductionHypothesis =>
      rw [List.flatMap_cons, List.flatMap_cons, List.map_append] at moves
      have lengths := (List.length_map move).trans head.length_starts
      obtain ⟨first, rest⟩ := List.append_inj moves lengths
      exact .cons ⟨head, first⟩ (inductionHypothesis rest)

theorem length_flatMap_starts {files others : List SourceFile}
    (same : List.Forall₂ SameTokens files others) :
    (files.flatMap starts).length = (others.flatMap starts).length := by
  induction same with
  | nil => rfl
  | cons head _ inductionHypothesis =>
      simp only [List.flatMap_cons, List.length_append, head.length_starts, inductionHypothesis]

theorem map_name_eq {files others : List SourceFile}
    (same : List.Forall₂ SameTokens files others) : others.map name = files.map name := by
  induction same with
  | nil => rfl
  | cons head _ inductionHypothesis =>
      rw [List.map_cons, List.map_cons, head.name, inductionHypothesis]

/-- Files of different names have their first tokens at places that the names
decide. -/
theorem exists_opening {files : List SourceFile} (distinct : (files.map name).Nodup) :
    ∃ opening : String → Position,
      ∀ file ∈ files, ∀ first ∈ file.starts.head?, opening file.name = first := by
  induction files with
  | nil => exact ⟨fun _ => .nowhere, nofun⟩
  | cons file rest inductionHypothesis =>
      rw [List.map_cons, List.nodup_cons] at distinct
      obtain ⟨opening, opens⟩ := inductionHypothesis distinct.2
      refine ⟨Function.update opening file.name (file.starts.head?.getD .nowhere), ?_⟩
      rw [List.forall_mem_cons]
      refine ⟨fun first head => ?_, fun other member first head => ?_⟩
      · rw [Function.update_self, head, Option.getD_some]
      · have unlike : other.name ≠ file.name := fun same =>
          distinct.1 (same ▸ List.mem_map_of_mem member)
        rw [Function.update_of_ne unlike]
        exact opens other member first head

end SourceFile

/-- The relabelling that moves the places where something begins and takes the
beginning of a file for every place where something ends in it. -/
def Relabelling.moving (move : Position → Position) (opening : String → Position) : Relabelling :=
  ⟨id, id, move, fun place => opening place.file⟩

section Moving

variable {move : Position → Position} {opening : String → Position}

theorem Relabelling.lawful_moving : (Relabelling.moving move opening).Lawful :=
  ⟨Function.injective_id, fun _ => rfl⟩

@[simp]
theorem Relabelling.value_moving (kind : TokenKind) (value : String) :
    (Relabelling.moving move opening).value kind value = value := by
  unfold Relabelling.value
  split <;> rfl

/-- What is left of a token when ends do not count. -/
theorem Token.map_relabel_moving {file : String} {tokens : List Token}
    (ends : ∀ token ∈ tokens, token.span.finish.file = file) :
    tokens.map (relabel (.moving move opening)) =
      ((tokens.map content).zip ((tokens.map fun token => token.span.start).map move)).map
        fun token => ⟨token.1.1, token.1.2, ⟨token.2, opening file⟩⟩ := by
  rw [List.map_map, List.zip_map', List.map_map]
  refine List.map_congr_left fun token member => ?_
  rw [relabel, Relabelling.value_moving, Span.relabel]
  simp [content, Relabelling.moving, ends token member]

/-- A file whose tokens are moved to those of another is read like it. -/
theorem SourceFile.SameTokens.outcome_ofSource {file other : SourceFile}
    (same : file.SameTokens other) (moves : file.starts.map move = other.starts)
    (opens : ∀ first ∈ other.starts.head?, opening other.name = first) :
    (Relabelling.moving id opening).outcome (Program.relabel (.moving id opening))
        (Program.ofSource other.name other.text) =
      (Relabelling.moving move opening).outcome (Program.relabel (.moving move opening))
        (Program.ofSource file.name file.text) := by
  obtain ⟨tokens, tokens', read, read', contents⟩ := same.tokens
  rw [SourceFile.starts_of_tokenize read, SourceFile.starts_of_tokenize read'] at moves
  rw [SourceFile.starts_of_tokenize read'] at opens
  rw [same.name] at read' opens ⊢
  have inOrder := inOrder_tokensFrom read
  have inOrder' := inOrder_tokensFrom read'
  refine Program.outcome_ofSource read read' (fun first head => ?_) (fun first head => ?_) ?_
  · have moved : move first.span.start ∈ (tokens'.map fun token => token.span.start).head? := by
      rw [← moves, List.head?_map, List.head?_map, head]
      rfl
    have begins := inOrder.begins first (List.mem_of_mem_head? head)
    exact (congrArg opening begins).trans (opens _ moved)
  · have here : first.span.start ∈ (tokens'.map fun token => token.span.start).head? := by
      rw [List.head?_map, head]
      rfl
    have begins := inOrder'.begins first (List.mem_of_mem_head? head)
    exact (congrArg opening begins).trans (opens _ here)
  · rw [Token.map_relabel_moving inOrder'.ends, Token.map_relabel_moving inOrder.ends, contents,
      moves, List.map_id]

/-- Files whose tokens are moved to those of others are read like them. -/
theorem outcome_readFiles_of_moves {files others : List SourceFile}
    (same : List.Forall₂ SourceFile.SameTokens files others)
    (moves : (files.flatMap SourceFile.starts).map move = others.flatMap SourceFile.starts)
    (opens : ∀ other ∈ others, ∀ first ∈ other.starts.head?, opening other.name = first) :
    (Relabelling.moving id opening).outcome (List.map (Program.relabel (.moving id opening)))
        (readFiles others) =
      (Relabelling.moving move opening).outcome
        (List.map (Program.relabel (.moving move opening))) (readFiles files) := by
  have each := (List.forall₂_and_left _ _).mpr
    ⟨opens, (SourceFile.forall₂_map_starts same moves).flip⟩
  exact outcome_readFiles <| each.flip.imp fun file other ⟨opens, sameTokens, moved⟩ =>
    sameTokens.outcome_ofSource moved opens

/-- A failure at another place. -/
def ParseFailure.moved (move : Position → Position) : ParseFailure → ParseFailure
  | fault found => .fault ⟨found.cause, move found.position⟩
  | defect found => .defect found

theorem ParseFailure.relabel_moving (failure : ParseFailure) :
    failure.relabel (.moving move opening) = failure.moved move := by
  cases failure with
  | defect => rfl
  | fault found =>
      have cause : found.cause.relabel (.moving move opening) = found.cause := by
        cases found.cause <;> simp [SyntaxFault.Cause.relabel]
      rw [relabel, SyntaxFault.relabel, cause]
      rfl

/-- A finding at another place. -/
def Finding.moved (move : Position → Position) (finding : Finding) : Finding :=
  ⟨move finding.position, finding.problem⟩

theorem Finding.relabel_moving : Finding.relabel (.moving move opening) = moved move :=
  funext fun finding =>
    congrArg (Finding.mk (move finding.position)) (Problem.relabel_of_name rfl rfl _)

/-- What is found in moved programs is found at moved places. -/
theorem findingsOf_map_relabel_moving (opening : String → Position)
    (places : Function.Injective move) {programs : List Program}
    (fresh : ∀ program ∈ programs, program.scopes = []) (continueAfterErrors : Bool) :
    findingsOf continueAfterErrors (programs.map (Program.relabel (.moving move opening))) =
      (findingsOf continueAfterErrors programs).map (Finding.moved move) := by
  have same : RelabelledBehind (.moving move opening) _ _ :=
    relabelledBehind_findingsOf Relabelling.lawful_moving (Relabelling.discreet_of_name rfl)
      (fun _ _ => rfl) fresh rfl places continueAfterErrors
  rw [← Finding.relabel_moving]
  exact same.relabelled rfl

end Moving

/-! ## The two runs -/

/-- Two failures of one cause, at related places. -/
inductive ParseFailure.SameUpTo (places : Position → Position → Prop) :
    ParseFailure → ParseFailure → Prop where
  | fault {cause : SyntaxFault.Cause} {place place' : Position} (related : places place place') :
      SameUpTo places (.fault ⟨cause, place⟩) (.fault ⟨cause, place'⟩)
  | defect {found : ParserDefect} : SameUpTo places (.defect found) (.defect found)

/-- Two diagnostics of one message and severity, at related places. -/
structure Diagnostic.SameUpTo (places : Position → Position → Prop)
    (diagnostic other : Diagnostic) : Prop where
  message : other.message = diagnostic.message
  severity : other.severity = diagnostic.severity
  position : places diagnostic.position other.position

/-- The order of places. -/
def Position.order (first second : Position) : Ordering :=
  (compare first.file second.file).then <|
    (compare first.line second.line).then (compare first.column second.column)

theorem Diagnostic.order_eq (first second : Diagnostic) :
    first.order second =
      (first.position.order second.position).then
        (compare first.severity.rank second.severity.rank) := by
  unfold order Position.order
  cases compare first.position.file second.position.file <;>
    cases compare first.position.line second.position.line <;> rfl

theorem Position.order_of_precedes {first second : Position} (before : first.Precedes second) :
    first.order second = .lt ∧ second.order first = .gt := by
  obtain ⟨file, lines | ⟨lines, columns⟩⟩ := before
  · simp [order, file, Nat.compare_eq_lt.mpr lines, Nat.compare_eq_gt.mpr lines]
  · simp [order, file, lines, Nat.compare_eq_lt.mpr columns, Nat.compare_eq_gt.mpr columns]

/-- Between files the order is that of their names. -/
theorem Position.order_of_ne {first second : Position} (unlike : first.file ≠ second.file) :
    first.order second = compare first.file second.file := by
  unfold order
  cases same : compare first.file second.file with
  | eq => exact absurd (compare_eq_iff_eq.mp same) unlike
  | lt | gt => rfl

section Places

variable {files others : List SourceFile} (distinct : (files.map SourceFile.name).Nodup)
  (same : List.Forall₂ SourceFile.SameTokens files others)

include same

/-- Tokens correspond to what they are moved to. -/
theorem tokensAt_of_mem {move : Position → Position} {place : Position}
    (moves : (files.flatMap SourceFile.starts).map move = others.flatMap SourceFile.starts)
    (member : place ∈ files.flatMap SourceFile.starts) :
    TokensAt files others place (move place) := by
  obtain ⟨file, inFiles, begins⟩ := List.mem_flatMap.mp member
  obtain ⟨i, inside, found⟩ := List.mem_iff_getElem.mp inFiles
  obtain ⟨k, token⟩ := List.mem_iff_getElem?.mp begins
  have each := SourceFile.forall₂_map_starts same moves
  have inside' : i < others.length := each.length_eq ▸ inside
  have moved : files[i].starts.map move = others[i].starts := (each.get inside inside').2
  refine ⟨file, others[i], i, k, ?_, List.getElem?_eq_getElem inside', token, ?_⟩
  · rw [List.getElem?_eq_getElem inside, found]
  · rw [← moved, found, List.getElem?_map, token]
    rfl

section Runs

variable {opening : String → Position}
  (opens : ∀ other ∈ others, ∀ first ∈ other.starts.head?, opening other.name = first)
  {move : Equiv.Perm Position}
  (moves : (files.flatMap SourceFile.starts).map move = others.flatMap SourceFile.starts)

include opens moves

/-- Failures have one cause at corresponding tokens. -/
theorem sameUpTo_of_failures {failure failure' : ParseFailure}
    (read : readFiles files = .error failure) (read' : readFiles others = .error failure') :
    failure.SameUpTo (TokensAt files others) failure' := by
  have always (move : Equiv.Perm Position)
      (moves : (files.flatMap SourceFile.starts).map move = others.flatMap SourceFile.starts) :
      failure' = failure.moved move := by
    have outcome := outcome_readFiles_of_moves same moves opens
    simp only [read, read', Relabelling.outcome_error, ParseFailure.relabel_moving,
      Except.error.injEq] at outcome
    rw [← outcome]
    cases failure' <;> rfl
  cases failure with
  | defect found =>
      rw [always move moves]
      exact .defect
  | fault found =>
      have begins : found.position ∈ files.flatMap SourceFile.starts :=
        mem_of_forall_perm moves fun other moves' =>
          have twice := (always move moves).symm.trans (always other moves')
          congrArg SyntaxFault.position (ParseFailure.fault.inj twice).symm
      rw [always move moves]
      exact .fault (tokensAt_of_mem same moves begins)

/-- The same is found at corresponding tokens. -/
theorem forall₂_findingsOf {programs programs' : List Program}
    (read : readFiles files = .ok programs) (read' : readFiles others = .ok programs')
    (continueAfterErrors : Bool) :
    List.Forall₂
      (fun finding finding' => finding'.problem = finding.problem ∧
        TokensAt files others finding.position finding'.position)
      (findingsOf continueAfterErrors programs) (findingsOf continueAfterErrors programs') := by
  have always (move : Equiv.Perm Position)
      (moves : (files.flatMap SourceFile.starts).map move = others.flatMap SourceFile.starts) :
      findingsOf continueAfterErrors programs' =
        (findingsOf continueAfterErrors programs).map (Finding.moved move) := by
    have outcome := outcome_readFiles_of_moves same moves opens
    simp only [read, read', Relabelling.outcome_ok, Except.ok.injEq] at outcome
    have found := findingsOf_map_relabel_moving opening move.injective
      (forall_of_readFiles read Program.scopes_ofSource) continueAfterErrors
    have found' := findingsOf_map_relabel_moving opening Function.injective_id
      (forall_of_readFiles read' Program.scopes_ofSource) continueAfterErrors
    have still : Finding.moved id = id := rfl
    rw [outcome, found, still, List.map_id] at found'
    exact found'.symm
  rw [always move moves, List.forall₂_map_right_iff, List.forall₂_same]
  intro finding member
  have begins : finding.position ∈ files.flatMap SourceFile.starts :=
    mem_of_forall_perm moves fun other moves' =>
      have twice := (always other moves').symm.trans (always move moves)
      congrArg Finding.position (List.map_inj_left.mp twice finding member)
  exact ⟨rfl, tokensAt_of_mem same moves begins⟩

end Runs

include distinct

/-- Corresponding tokens are in the same order. -/
theorem order_eq_of_tokensAt {first first' second second' : Position}
    (firsts : TokensAt files others first first') (seconds : TokensAt files others second second') :
    first'.order second' = first.order second := by
  obtain ⟨file, other, i, k, fileAt, otherAt, token, token'⟩ := firsts
  obtain ⟨file₂, other₂, j, l, fileAt₂, otherAt₂, token₂, token₂'⟩ := seconds
  have names {i k : Nat} {file other : SourceFile} {place place' : Position}
      (fileAt : files[i]? = some file) (otherAt : others[i]? = some other)
      (token : file.starts[k]? = some place) (token' : other.starts[k]? = some place') :
      place.file = file.name ∧ place'.file = place.file := by
    obtain ⟨inside, rfl⟩ := List.getElem?_eq_some_iff.mp fileAt
    obtain ⟨inside', rfl⟩ := List.getElem?_eq_some_iff.mp otherAt
    have here := files[i].starts_inOrder.2 place (List.mem_of_getElem? token)
    have there := others[i].starts_inOrder.2 place' (List.mem_of_getElem? token')
    exact ⟨here, there.trans ((same.get inside inside').name.trans here.symm)⟩
  obtain ⟨inFile, stays⟩ := names fileAt otherAt token token'
  obtain ⟨inFile₂, stays₂⟩ := names fileAt₂ otherAt₂ token₂ token₂'
  by_cases sameFile : i = j
  · subst sameFile
    cases fileAt.symm.trans fileAt₂
    cases otherAt.symm.trans otherAt₂
    rcases Nat.lt_trichotomy k l with before | equal | behind
    · rw [(Position.order_of_precedes (SourceFile.precedes_of_lt token token₂ before)).1,
        (Position.order_of_precedes (SourceFile.precedes_of_lt token' token₂' before)).1]
    · subst equal
      cases token.symm.trans token₂
      cases token'.symm.trans token₂'
      simp [Position.order]
    · rw [(Position.order_of_precedes (SourceFile.precedes_of_lt token₂ token behind)).2,
        (Position.order_of_precedes (SourceFile.precedes_of_lt token₂' token' behind)).2]
  · have unlike : file.name ≠ file₂.name := by
      obtain ⟨inside, rfl⟩ := List.getElem?_eq_some_iff.mp fileAt
      obtain ⟨inside₂, rfl⟩ := List.getElem?_eq_some_iff.mp fileAt₂
      have apart := List.pairwise_iff_getElem.mp (List.pairwise_map.mp distinct)
      rcases Nat.lt_or_gt_of_ne sameFile with before | behind
      · exact apart i j inside inside₂ before
      · exact (apart j i inside₂ inside behind).symm
    have unlikeFiles : first.file ≠ second.file := by rwa [inFile, inFile₂]
    have unlikeFiles' : first'.file ≠ second'.file := by rwa [stays, stays₂]
    calc
      first'.order second' = compare first'.file second'.file := Position.order_of_ne unlikeFiles'
      _ = compare first.file second.file := by rw [stays, stays₂]
      _ = first.order second := (Position.order_of_ne unlikeFiles).symm

/-- What is found at corresponding tokens is reported in the same order. -/
theorem forall₂_entries_of_findings (options : Options) {programs programs' : List Program}
    (findings : List.Forall₂
      (fun finding finding' => finding'.problem = finding.problem ∧
        TokensAt files others finding.position finding'.position)
      (findingsOf options.continueAfterErrors programs)
      (findingsOf options.continueAfterErrors programs')) :
    List.Forall₂ (Diagnostic.SameUpTo (TokensAt files others))
      (analyse options programs).log.entries (analyse options programs').log.entries := by
  rw [log_analyse, log_analyse]
  refine forall₂_mergeSort (List.rel_append .nil (forall₂_filter ?_ ?_)) ?_
  · rw [List.forall₂_map_left_iff, List.forall₂_map_right_iff]
    refine findings.imp fun finding finding' ⟨problem, places⟩ => ⟨?_, ?_, places⟩
    · exact congrArg Problem.message problem
    · exact congrArg Problem.severity problem
  · intro diagnostic other alike
    simp [DiagnosticLog.accepts, alike.severity]
  · intro first second first' second' firsts seconds
    have positions := order_eq_of_tokensAt distinct same firsts.position seconds.position
    rw [Diagnostic.order_eq, firsts.severity, seconds.severity, positions, Diagnostic.order_eq]

end Places

/-- Files of one name whose texts have the same contents have the same tokens. -/
theorem SourceFile.sameTokens_of_letters {file other : SourceFile} {letters others : List Char}
    (spelled : SpelledBy file.text letters) (spelled' : SpelledBy other.text others)
    (name : other.name = file.name) (contents : contents? others = contents? letters)
    (listed : (contents? letters).isSome = true) : file.SameTokens other := by
  rw [← spelled.toList, ← spelled'.toList] at contents
  rw [← spelled.toList] at listed
  obtain ⟨listing, listed⟩ := Option.isSome_iff_exists.mp listed
  obtain ⟨tokens, read, here⟩ := exists_tokenize_of_contents? listed file.name
  obtain ⟨tokens', read', there⟩ := exists_tokenize_of_contents? (contents.trans listed) other.name
  exact ⟨name, tokens, tokens', read, read', there.trans here.symm⟩

/-- Two files, the second of which declares a name of the first one again. -/
def clashingFiles : List SourceFile :=
  [⟨"one.knight", "int a;"⟩, ⟨"two.knight", "string b = \"x\"; int a;"⟩]

/-- The same files on more lines and with a comment. -/
def spacedFiles : List SourceFile :=
  [⟨"one.knight", "  int\na ;"⟩, ⟨"two.knight", "string b // a text\n= \"x\";\n\n int a;"⟩]

end KnightFront
